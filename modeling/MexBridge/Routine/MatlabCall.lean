import MexBridge.Routine

/-!
The MATLAB side of a call: the gateway is called with the id of the routine, then all that is
passed in, then all dimensions, in the order of their labels.
-/

namespace MexBridge.Routine

/-- Names on the left-hand side: results, then output arguments (`_output_arg_names`). -/
def outputNames (r : Routine) : List String :=
  ((r.results ++ r.args).filter (·.direction.isOutput)).map (·.name)

/-- An argument on the right-hand side (`_input_arg_strs`). A constant is passed as a
placeholder. -/
def inputText (v : Variable) : Option String :=
  if v.kind = .const then some "0"
  else if v.direction.isInput then some v.name
  else none

/-- Right-hand arguments after the id (`_dim_arg_strs`). -/
def inputTexts (r : Routine) : List String :=
  r.receiver?.toList ++ r.args.filterMap inputText
    ++ (r.results ++ r.args).flatMap fun v => v.dims.map (·.text)

/-- The two lines that make the call through the gateway `mex` (`print_matlab_call`). -/
def matlabCall (mex : String) (r : Routine) : String :=
  "mex_id_ = " ++ toString r.id ++ ";\n"
    ++ (if r.outputNames.isEmpty then "" else "[" ++ ", ".intercalate r.outputNames ++ "] = ")
    ++ mex ++ "(" ++ ", ".intercalate ("mex_id_" :: r.inputTexts) ++ ");\n"

end MexBridge.Routine
