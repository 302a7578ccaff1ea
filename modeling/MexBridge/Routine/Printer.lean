import MexBridge.Routine

/-!
A routine written as a declaration.
-/

namespace MexBridge

/-- A qualifier as written (`_print_qual`). -/
def Qualifier.text (q : Qualifier) : String :=
  match q.mark with
  | .array => "[" ++ ", ".intercalate (q.dims.map (·.text)) ++ "]"
  | m => m.name

namespace Variable

/-- Type and name, as a result is written (`_print_var`). -/
def text (v : Variable) : String :=
  v.type ++ (match v.qualifier with | some q => q.text | none => "") ++ " " ++ v.name

/-- Device, direction, type and name, as an argument is written. -/
def argText (v : Variable) : String :=
  (match v.device with | .gpu => "gpu " | _ => "")
    ++ (match v.direction with | .output => "output " | .inout => "inout " | _ => "")
    ++ v.text

end Variable

/-- The declaration of a routine, with its newline (`print_func`). -/
def Routine.text (r : Routine) : String :=
  (match r.results with | v :: _ => v.text ++ " = " | [] => "")
    ++ (match r.receiver? with | some this => this ++ "->" ++ r.ownerName ++ "." | none => "")
    ++ r.name ++ "(" ++ ", ".intercalate (r.args.map (·.argText)) ++ ");\n"

end MexBridge
