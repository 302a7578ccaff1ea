import MexBridge.Routine.Typing
import MexBridge.Statement

/-!
What a run reports to its user, one notice a line or more.
-/

namespace MexBridge

inductive Notice where
  | badStatement (file : String) (line : Int) (fault : SyntaxFault)
  | complaint (line : Int) (c : Complaint)
  | unknownSpace (space : String)
  /-- The number of type errors in a file, if there are any. -/
  | typeErrors (file : String) (n : Nat)
  | unreadable (file : String)
  | cannotInclude (file : String)
  | cannotWrite (file : String)
  | tooDeep
  | text (s : String)
deriving DecidableEq, Repr

namespace Notice

def message : Notice → String
  | .badStatement file line fault =>
    "Parse error (" ++ file ++ ":" ++ toString line ++ "): " ++ fault.text ++ "\n"
  | .complaint line c => c.message line
  | .unknownSpace space => "Unrecognized typespace: " ++ space ++ "\n"
  | .typeErrors file n => file ++ ": " ++ toString n ++ " type errors detected\n"
  | .unreadable file => "Could not read " ++ file ++ "\n"
  | .cannotInclude file => "Error: Could not read '" ++ file ++ "'\n"
  | .cannotWrite file => "Error: Could not write " ++ file ++ "\n"
  | .tooDeep => "Error: Includes nested too deeply\n"
  | .text s => s

/-- Notices as they are printed. -/
def printed (ns : List Notice) : String := String.join (ns.map message)

end Notice

end MexBridge
