import MexBridge.Routine

/-!
Labels: the place of each variable among the right-hand and left-hand arguments of the MATLAB
call. The receiver comes first, then what is passed in, then all dimensions; results come before
output arguments.
-/

namespace MexBridge

/-- Numbers what is passed in from `i` and what is handed back from `o`; gives the next two numbers
(`_label_args_var`). -/
def labelVariables (i o : Int) : List Variable → List Variable × Int × Int
  | [] => ([], i, o)
  | v :: vs =>
    let v' := { v with
      inLabel := if v.direction.isInput then i else v.inLabel
      outLabel := if v.direction.isOutput then o else v.outLabel }
    let rest := labelVariables (if v.direction.isInput then i + 1 else i)
      (if v.direction.isOutput then o + 1 else o) vs
    (v' :: rest.1, rest.2)

/-- Numbers dimensions from `n` (`_label_dim_args_expr`). -/
def labelDims (n : Int) : List Dim → List Dim
  | [] => []
  | d :: ds => { d with label := n } :: labelDims (n + 1) ds

/-- Numbers the dimensions of all variables from `n`; gives the next number
(`_label_dim_args_var`). -/
def labelAllDims (n : Int) : List Variable → List Variable × Int
  | [] => ([], n)
  | v :: vs =>
    let v' := { v with qualifier := v.qualifier.map fun q => { q with dims := labelDims n q.dims } }
    let rest := labelAllDims (n + v.dims.length) vs
    (v' :: rest.1, rest.2)

/-- A routine with all its labels (`label_args`). -/
def Routine.labelled (r : Routine) : Routine :=
  let rs := labelVariables (if r.receiver?.isSome then 1 else 0) 0 r.results
  let as := labelVariables rs.2.1 rs.2.2 r.args
  let rd := labelAllDims as.2.1 rs.1
  let ad := labelAllDims rd.2 as.1
  { r with results := rd.1, args := ad.1 }

end MexBridge
