import MexBridge.Fault
import MexBridge.Routine.Labels
import MexBridge.Text.Digit
import MexBridge.Types.Table

/-!
Type checking: each variable gets its kind, and the rules on results, on output arguments and on
FORTRAN are checked. A broken rule is a `Complaint`; the errors among them are counted as they are
found, and a routine without errors can be wrapped.
-/

namespace MexBridge

inductive Complaint where
  | notPlanar (name : String)
  | refNotReal (name : String)
  | constMarked (name : String)
  | stringMarked (name : String)
  | stringNotLinear
  | mxMarked (name : String)
  | objectArray (name type : String)
  | returnUnsized (name : String)
  | returnConst
  | returnArrayRef (name : String)
  | returnSizedString (name : String)
  | numberOutput (name : String)
  | objectOutput (name : String)
  | outputUnsized (name : String)
  | refNotOutput (name : String)
  | scalarOutput (name : String)
  | constOutput (name : String)
  | stringUnsized (name : String)
  | mxInout (name : String)
  | objectToFortran (name : String)
  | refToFortran (name : String)
  | stringToFortran (name : String)
  | complexFromFortran
  | notScalarFromFortran
deriving DecidableEq, Repr

namespace Complaint

/-- A warning does not make the routine wrong. -/
def isWarning : Complaint → Bool
  | .stringToFortran _ => true
  | .complexFromFortran => true
  | _ => false

def isError (c : Complaint) : Bool := !c.isWarning

def text : Complaint → String
  | .notPlanar n => "Array " ++ n ++ " should be 1D or 2D"
  | .refNotReal n => "Array ref " ++ n ++ " must be to a real array"
  | .constMarked n => "Constant " ++ n ++ " cannot have modifiers"
  | .stringMarked n => "String type " ++ n ++ " cannot have modifiers"
  | .stringNotLinear => "Strings are one dimensional"
  | .mxMarked n => "mxArray " ++ n ++ " cannot have modifiers"
  | .objectArray n t => n ++ " cannot be an array of object " ++ t
  | .returnUnsized n => "Return array " ++ n ++ " must have dims"
  | .returnConst => "Cannot return constant"
  | .returnArrayRef n => "Ref to array " ++ n ++ " looks just like array on return"
  | .returnSizedString n => "Return string " ++ n ++ " cannot have dims"
  | .numberOutput n => "Number " ++ n ++ " cannot be output"
  | .objectOutput n => "Object " ++ n ++ " cannot be output"
  | .outputUnsized n => "Output array " ++ n ++ " must have dims"
  | .refNotOutput n => "Array ref " ++ n ++ " *must* be output"
  | .scalarOutput n => "Scalar " ++ n ++ " cannot be output"
  | .constOutput n => "Constant " ++ n ++ " cannot be output"
  | .stringUnsized n => "String " ++ n ++ " cannot be output without size"
  | .mxInout n => "mxArray " ++ n ++ " cannot be used for inout"
  | .objectToFortran n => "Cannot pass object " ++ n ++ " to FORTRAN"
  | .refToFortran n => "Cannot pass pointer ref " ++ n ++ " to FORTRAN"
  | .stringToFortran n => "Danger passing C string " ++ n ++ " to FORTRAN"
  | .complexFromFortran => "Danger returning complex from FORTRAN"
  | .notScalarFromFortran => "Can only return scalars from FORTRAN"

/-- The complaint as reported for a declaration on `line`. -/
def message (line : Int) (c : Complaint) : String :=
  (if c.isWarning then "Warning (" else "Error (") ++ toString line ++ "): " ++ c.text ++ "\n"

end Complaint

/-- What a check finds: its complaints in order, and the number of errors, which is counted beside
them. -/
structure Findings where
  complaints : List Complaint := []
  errors : Nat := 0
deriving DecidableEq, Repr

namespace Findings

def error (c : Complaint) : Findings := { complaints := [c], errors := 1 }

def warning (c : Complaint) : Findings := { complaints := [c] }

instance : Append Findings := ⟨fun a b => ⟨a.complaints ++ b.complaints, a.errors + b.errors⟩⟩

/-- Findings one after the other. -/
def all (fs : List Findings) : Findings := fs.foldr (· ++ ·) {}

end Findings

/-! ## Kinds -/

namespace Variable

/-- The kind of a variable of a numeric type over `f` (`_assign_scalar_tinfo`). -/
def assignNumber (f : Field) (v : Variable) : Except Fault (Variable × Findings) :=
  match v.qualifier with
  | none => .ok ({ v with kind := .number f .value }, {})
  | some q =>
    let planar := if q.dims.length > 2 then .error (.notPlanar v.name) else {}
    match q.mark with
    | .pointer => .ok ({ v with kind := .number f .pointer }, {})
    | .reference => .ok ({ v with kind := .number f .reference }, {})
    | .array => .ok ({ v with kind := .array f }, planar)
    | .arrayRef =>
      if f = .real then .ok ({ v with kind := .arrayRef }, planar)
      else .ok ({ v with kind := .unknown }, .error (.refNotReal v.name))
    | .other m => .error (.unknownMark m)

/-- The kind of a variable of a class type. -/
def assignObject (v : Variable) : Except Fault (Variable × Findings) :=
  match v.qualifier with
  | none => .ok ({ v with kind := .object .value }, {})
  | some q =>
    match q.mark with
    | .pointer => .ok ({ v with kind := .object .pointer }, {})
    | .reference => .ok ({ v with kind := .object .reference }, {})
    | .array => .ok (v, .error (.objectArray v.name v.type))
    | .arrayRef => .ok (v, .error (.objectArray v.name v.type))
    | .other _ => .error .unknownObjectMark

/-- The name of a constant; one in quotes loses all its quotes. -/
def constName (name : String) : String :=
  if name.toList.head? = some '\'' then String.ofList (name.toList.filter (· ≠ '\'')) else name

/-- Gives a variable its kind (`assign_tinfo`). A misused mark leaves the kind as it was. -/
def assign (t : TypeTable) (v : Variable) : Except Fault (Variable × Findings) :=
  if t.isScalar v.type then v.assignNumber .real
  else if t.isCscalar v.type then v.assignNumber .single
  else if t.isZscalar v.type then v.assignNumber .double
  else if v.type = "const" then
    if v.qualifier.isSome then .ok (v, .error (.constMarked v.name))
    else .ok ({ v with kind := .const, name := constName v.name }, {})
  else if v.type = "cstring" then
    match v.qualifier with
    | none => .ok ({ v with kind := .string }, {})
    | some q =>
      if q.mark ≠ .array then .ok (v, .error (.stringMarked v.name))
      else if q.dims.length > 1 then .ok (v, .error .stringNotLinear)
      else .ok ({ v with kind := .string }, {})
  else if v.type = "mxArray" then
    if v.qualifier.isSome then .ok (v, .error (.mxMarked v.name))
    else .ok ({ v with kind := .mx }, {})
  else v.assignObject

/-! ## Rules -/

/-- The rules on a returned value (`_typecheck_return`). -/
def returnFindings (v : Variable) : Findings :=
  match v.kind with
  | .array _ => if v.dims.isEmpty then .error (.returnUnsized v.name) else {}
  | .const => .error .returnConst
  | .arrayRef => .error (.returnArrayRef v.name)
  | .string => if v.qualifier.isSome then .error (.returnSizedString v.name) else {}
  | _ => {}

def startsWithDigit (v : Variable) : Bool :=
  match v.name.toList with
  | c :: _ => Text.isDigit c
  | [] => false

/-- The rule on the kind of an argument that is not for input only. -/
def outputKindFindings (t : TypeTable) (v : Variable) : Findings :=
  if v.kind.isObject && !t.isMxArray v.type then .error (.objectOutput v.name)
  else if (v.kind.isArray || v.kind == .arrayRef) && v.direction == .output && v.dims.isEmpty then
    .error (.outputUnsized v.name)
  else if v.kind == .arrayRef && !v.direction.isOutput then .error (.refNotOutput v.name)
  else if v.kind == .number .real .value then .error (.scalarOutput v.name)
  else if v.kind == .const then .error (.constOutput v.name)
  else if v.kind == .string && v.dims.isEmpty then .error (.stringUnsized v.name)
  else if v.kind == .mx && v.direction == .inout then .error (.mxInout v.name)
  else {}

/-- The rules on an argument (`_typecheck_args`). -/
def argFindings (t : TypeTable) (v : Variable) : Findings :=
  if v.direction = .input then {}
  else (if v.startsWithDigit then .error (.numberOutput v.name) else {}) ++ v.outputKindFindings t

/-- FORTRAN takes every number by address (`_fortranize_args_var`). -/
def toFortran (v : Variable) : Variable × Findings :=
  match v.kind with
  | .object _ => (v, .error (.objectToFortran v.name))
  | .arrayRef => (v, .error (.refToFortran v.name))
  | .string => (v, .warning (.stringToFortran v.name))
  | .number f _ => ({ v with kind := .number f .pointer }, {})
  | _ => (v, {})

/-- FORTRAN returns numbers only (`_fortranize_ret`). -/
def fromFortran (v : Variable) : Findings :=
  match v.kind with
  | .number .real .value => {}
  | .number _ .value => .warning .complexFromFortran
  | _ => .error .notScalarFromFortran

end Variable

/-! ## Routines -/

/-- What checking came to: what was found, the routine as far as kinds were assigned, and the fault
that ended the check early, if one did. -/
structure Checked (α : Type) extends Findings where
  value : α
  fault : Option Fault := none

/-- Only the first result is looked at (`_typecheck_return`). -/
def checkResults (t : TypeTable) : List Variable → Checked (List Variable)
  | [] => { value := [] }
  | v :: vs =>
    match v.assign t with
    | .error e => { value := v :: vs, fault := some e }
    | .ok (v', found) => { found ++ v'.returnFindings with value := v' :: vs }

/-- All arguments, up to the first fault (`_typecheck_args`). -/
def checkArgs (t : TypeTable) : List Variable → Checked (List Variable)
  | [] => { value := [] }
  | v :: vs =>
    match v.assign t with
    | .error e => { value := v :: vs, fault := some e }
    | .ok (v', found) =>
      let rest := checkArgs t vs
      { found ++ v'.argFindings t ++ rest.toFindings with
        value := v' :: rest.value
        fault := rest.fault }

namespace Routine

/-- The rules on FORTRAN routines (`_fortranize_args`). -/
def checkFortran (r : Routine) : Checked Routine :=
  if r.fortran then
    let args := r.args.map (·.toFortran)
    let result : Findings := match r.results with | v :: _ => v.fromFortran | [] => {}
    { Findings.all (args.map (·.2)) ++ result with value := { r with args := args.map (·.1) } }
  else { value := r }

/-- Labels and kinds for all variables of a routine, and all that is found (`typecheck`). -/
def check (t : TypeTable) (r : Routine) : Checked Routine :=
  let r := r.labelled
  let rs := checkResults t r.results
  let r := { r with results := rs.value }
  if rs.fault.isSome then { rs with value := r }
  else
    let as := checkArgs t r.args
    let r := { r with args := as.value }
    if as.fault.isSome then
      { rs.toFindings ++ as.toFindings with value := r, fault := as.fault }
    else
      let fs := r.checkFortran
      { rs.toFindings ++ as.toFindings ++ fs.toFindings with value := fs.value, fault := fs.fault }

end Routine

end MexBridge
