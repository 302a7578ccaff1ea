import MexBridge.Fault
import MexBridge.Routine
import MexBridge.Types.Promotion

/-!
The signature of a routine: the text that two routines share exactly when one stub serves both.
It leaves out the names of variables and the texts of dimensions.
-/

namespace MexBridge

/-- The mark of a qualifier, with one `x` for each dimension (`_id_qual`). -/
def Qualifier.signature (q : Qualifier) : String :=
  match q.mark with
  | .array => "[" ++ String.ofList (List.replicate q.dims.length 'x') ++ "]"
  | m => m.name

namespace Variable

def deviceMark (v : Variable) : String :=
  match v.device with
  | .cpu => "c "
  | .gpu => "g "
  | .other _ => ""

def directionMark (v : Variable) : String :=
  match v.direction with
  | .input => "i "
  | .output => "o "
  | _ => "io "

/-- Only a constant shows its name (`_id_var_single`). -/
def signature (p : Promotion) (v : Variable) : String :=
  v.deviceMark ++ v.directionMark ++ p.rename v.type
    ++ (match v.qualifier with | some q => q.signature | none => "")
    ++ (if v.kind = .const then " " ++ v.name else "")

end Variable

namespace Routine

/-- The signatures of variables between commas (`_id_var`). -/
def signatureList (p : Promotion) (vs : List Variable) : String :=
  ", ".intercalate (vs.map (·.signature p))

/-- The signature of a routine (`id_string`). -/
def signature (p : Promotion) (r : Routine) : String :=
  (if r.results.isEmpty then "" else signatureList p r.results ++ " = ")
    ++ (match r.receiver? with | some this => this ++ "->" ++ r.ownerName ++ "." | none => "")
    ++ r.name ++ "(" ++ signatureList p r.args ++ ")"

/-- A method without a class cannot be signed. No declaration is such a method. -/
def isSignable (r : Routine) : Bool := r.receiver?.isNone || r.owner.isSome

/-- The signature, if the routine can be signed. -/
def signed (p : Promotion) (r : Routine) : Except Fault String :=
  if r.isSignable then .ok (r.signature p) else .error .missingOwner

/-- The base types of a routine, in the order its signature meets them. -/
def baseTypes (r : Routine) : List String := (r.results ++ r.args).map (·.type)

/-- The base types met while the routine is signed, which ends at the class if there is none. -/
def signedTypes (r : Routine) : List String :=
  if r.isSignable then r.baseTypes else r.results.map (·.type)

end Routine

end MexBridge
