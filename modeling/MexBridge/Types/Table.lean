/-!
Type names a program knows: numeric types, complex types of both precisions, types converted to
and from MATLAB arrays by user code, and the children of each class.
-/

namespace MexBridge

/-- The space a `typedef` puts a name into. -/
inductive TypeSpace where
  | numeric
  | dcomplex
  | fcomplex
  | mxArray
deriving DecidableEq, Repr

def TypeSpace.ofName? : String → Option TypeSpace
  | "numeric" => some .numeric
  | "dcomplex" => some .dcomplex
  | "fcomplex" => some .fcomplex
  | "mxArray" => some .mxArray
  | _ => none

structure TypeTable where
  scalars : List String := []
  /-- Complex of single precision. -/
  cscalars : List String := []
  /-- Complex of double precision. -/
  zscalars : List String := []
  mxArrays : List String := []
  /-- Each parent class with its children, the latest first. -/
  classes : List (String × List String) := []
deriving Repr

namespace TypeTable

/-- Adds a name unless it is there. -/
def addName (names : List String) (n : String) : List String :=
  if n ∈ names then names else names ++ [n]

theorem mem_addName {names : List String} {a n : String} :
    n ∈ addName names a ↔ n ∈ names ∨ n = a := by
  unfold addName
  split <;> grind

def add (t : TypeTable) (n : String) : TypeSpace → TypeTable
  | .numeric => { t with scalars := addName t.scalars n }
  | .dcomplex => { t with zscalars := addName t.zscalars n }
  | .fcomplex => { t with cscalars := addName t.cscalars n }
  | .mxArray => { t with mxArrays := addName t.mxArrays n }

/-- The numeric types known from the start. -/
def builtin : List String :=
  ["double", "float", "long", "int", "short", "char", "ulong", "uint", "ushort", "uchar",
    "int32_t", "int64_t", "uint32_t", "uint64_t", "bool", "size_t", "ptrdiff_t"]

/-- Forgets all numeric types but the builtin ones (`init_scalar_types`). -/
def resetScalars (t : TypeTable) : TypeTable := { t with scalars := builtin }

def initial : TypeTable := { scalars := builtin }

/-- The two complex types that come with either complex library. -/
def addComplex (t : TypeTable) : TypeTable :=
  (t.add "dcomplex" .dcomplex).add "fcomplex" .fcomplex

/-- A real type (`is_scalar_type`). -/
def isScalar (t : TypeTable) (n : String) : Bool := t.scalars.contains n

/-- A complex type of single precision (`is_cscalar_type`). -/
def isCscalar (t : TypeTable) (n : String) : Bool := t.cscalars.contains n

/-- A complex type of double precision (`is_zscalar_type`). -/
def isZscalar (t : TypeTable) (n : String) : Bool := t.zscalars.contains n

/-- A class whose objects are MATLAB arrays (`is_mxarray_type`). -/
def isMxArray (t : TypeTable) (n : String) : Bool := t.mxArrays.contains n

/-- A class some other class was declared a child of. -/
def isParent (t : TypeTable) (n : String) : Bool := (t.classes.lookup n).isSome

/-- Puts `child` before the other children of `parent`. -/
def addChild (child : String) : List (String × List String) → String → List (String × List String)
  | [], parent => [(parent, [child])]
  | (p, cs) :: rest, parent =>
    if p = parent then (p, child :: cs) :: rest else (p, cs) :: addChild child rest parent

/-- Makes `child` a child of each of `parents` (`add_inherits`). -/
def inherits (t : TypeTable) (child : String) (parents : List String) : TypeTable :=
  { t with classes := parents.foldl (addChild child) t.classes }

/-- Names in code point order. -/
def sorted (names : List String) : List String := names.mergeSort (· ≤ ·)

def sortedClasses (t : TypeTable) : List (String × List String) :=
  t.classes.mergeSort (·.1 ≤ ·.1)

end TypeTable

end MexBridge
