import MexBridge.Kind

/-!
Declared calls. A `Routine` is one call of a wrapped function with its arguments and its result;
a `Group` collects the routines of one signature, which share the stub of the first.
-/

namespace MexBridge

/-- Where the data of a variable lives. -/
inductive Device where
  | cpu
  | gpu
  /-- Any other device; its data are handled as on the CPU. -/
  | other (name : String)
deriving DecidableEq, Repr

def Device.ofName : String → Device
  | "c" => .cpu
  | "g" => .gpu
  | s => .other s

def Device.name : Device → String
  | .cpu => "c"
  | .gpu => "g"
  | .other s => s

/-- The way a variable travels. -/
inductive Direction where
  | input
  | output
  | inout
  /-- Any other way: the variable is neither passed in nor handed back. -/
  | other (name : String)
deriving DecidableEq, Repr

namespace Direction

def ofName : String → Direction
  | "i" => .input
  | "o" => .output
  | "b" => .inout
  | s => .other s

def name : Direction → String
  | .input => "i"
  | .output => "o"
  | .inout => "b"
  | .other s => s

/-- Whether a variable is passed in (`iospec_is_input`). -/
def isInput : Direction → Bool
  | .input => true
  | .inout => true
  | _ => false

/-- Whether a variable is handed back (`iospec_is_output`). -/
def isOutput : Direction → Bool
  | .output => true
  | .inout => true
  | _ => false

end Direction

/-- Labels count the arguments of the MATLAB call from 0; a variable that has none carries this. -/
def unlabelled : Int := -1

/-- One dimension of an array: its text and its place among the right-hand arguments (`Expr`). -/
structure Dim where
  text : String
  label : Int := unlabelled
deriving DecidableEq, Repr

inductive Mark where
  | pointer
  | reference
  | array
  | arrayRef
  /-- A mark that no declaration can be written with. -/
  | other (name : String)
deriving DecidableEq, Repr

def Mark.ofName : String → Mark
  | "*" => .pointer
  | "&" => .reference
  | "a" => .array
  | "r" => .arrayRef
  | s => .other s

def Mark.name : Mark → String
  | .pointer => "*"
  | .reference => "&"
  | .array => "a"
  | .arrayRef => "r"
  | .other s => s

/-- What stands beside a base type: `*`, `&`, `[m, n]` or `[m, n]&` (`TypeQual`). -/
structure Qualifier where
  mark : Mark
  dims : List Dim := []
deriving DecidableEq, Repr

/-- A result or an argument (`Var`). -/
structure Variable where
  device : Device := .cpu
  direction : Direction := .input
  type : String
  qualifier : Option Qualifier := none
  name : String
  kind : Kind := .unknown
  inLabel : Int := unlabelled
  outLabel : Int := unlabelled
deriving DecidableEq, Repr

/-- The dimensions written, none without a qualifier. -/
def Variable.dims (v : Variable) : List Dim :=
  match v.qualifier with
  | some q => q.dims
  | none => []

/-- A wrapped function, method or constructor (`Func`). -/
structure Routine where
  /-- The variable a method is called on. -/
  receiver : Option String := none
  /-- The class of the receiver, or of the object made by `new`. -/
  owner : Option String := none
  name : String
  file : String
  line : Int
  fortran : Bool := false
  id : Int := -1
  args : List Variable := []
  /-- The returned value; a declaration has at most one. -/
  results : List Variable := []
deriving DecidableEq, Repr

/-- The receiver, if it has a name. -/
def Routine.receiver? (r : Routine) : Option String := r.receiver.filter (· ≠ "")

/-- The class as written; a class left out reads `None`. -/
def Routine.ownerName (r : Routine) : String := r.owner.getD "None"

/-- The result is converted in the call itself (`nullable_return`). -/
def Routine.nullableReturn (r : Routine) : Bool :=
  match r.results with
  | v :: _ => v.kind.isNullable
  | [] => false

/-- The routines of one signature, in order of their ids. -/
structure Group where
  signature : String := ""
  first : Routine
  twins : List Routine := []
deriving DecidableEq, Repr

/-- The routines of a group, oldest first. -/
def Group.members (g : Group) : List Routine := g.first :: g.twins

end MexBridge
