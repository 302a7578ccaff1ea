/-!
How a value crosses from MATLAB to C and back. The kind of a variable follows from its base type
and its qualifier, and decides every step of a stub.
-/

namespace MexBridge

/-- The numbers a numeric type holds. -/
inductive Field where
  | real
  /-- Complex of single precision. -/
  | single
  /-- Complex of double precision. -/
  | double
deriving DecidableEq, Repr

/-- How one value is passed to the wrapped function. -/
inductive Mode where
  | value
  | pointer
  | reference
deriving DecidableEq, Repr

/-- How a variable is passed (`VT`). -/
inductive Kind where
  /-- No kind assigned: nothing is known of the variable. -/
  | unknown
  | object (m : Mode)
  | array (f : Field)
  /-- A reference to an array of reals, set by the wrapped function. -/
  | arrayRef
  | number (f : Field) (m : Mode)
  | string
  /-- A MATLAB array passed as it is. -/
  | mx
  /-- A constant of the declaration, which never leaves the C side. -/
  | const
deriving DecidableEq, Repr

namespace Kind

/-- All kinds, in the order of their codes. -/
def all : List Kind :=
  [.unknown, .object .value, .array .real, .array .single, .array .double, .arrayRef,
    .number .real .value, .number .single .value, .number .double .value, .string, .mx,
    .object .pointer, .number .real .pointer, .number .single .pointer, .number .double .pointer,
    .object .reference, .number .real .reference, .number .single .reference,
    .number .double .reference, .const]

/-- The place of a kind in `all`, as diagnostics number it. -/
def code : Kind → Nat
  | .unknown => 0
  | .object .value => 1
  | .array .real => 2
  | .array .single => 3
  | .array .double => 4
  | .arrayRef => 5
  | .number .real .value => 6
  | .number .single .value => 7
  | .number .double .value => 8
  | .string => 9
  | .mx => 10
  | .object .pointer => 11
  | .number .real .pointer => 12
  | .number .single .pointer => 13
  | .number .double .pointer => 14
  | .object .reference => 15
  | .number .real .reference => 16
  | .number .single .reference => 17
  | .number .double .reference => 18
  | .const => 19

theorem all_code (k : Kind) : all[k.code]? = some k := by
  rcases k with _ | m | f | _ | ⟨f, m⟩ | _ | _ | _
  case object => cases m <;> rfl
  case array => cases f <;> rfl
  case number => cases f <;> cases m <;> rfl
  all_goals rfl

/-- The short name of a kind. -/
def tag : Kind → String
  | .unknown => "unk"
  | .object m => mark m ++ "obj"
  | .array f => letter f ++ "array"
  | .arrayRef => "rarray"
  | .number f m => mark m ++ letter f ++ "scalar"
  | .string => "string"
  | .mx => "mx"
  | .const => "const"
where
  mark : Mode → String
    | .value => ""
    | .pointer => "p_"
    | .reference => "r_"
  letter : Field → String
    | .real => ""
    | .single => "c"
    | .double => "z"

/-- A plain array (`is_array`). -/
def isArray : Kind → Bool
  | .array _ => true
  | _ => false

theorem ne_of_isArray {k : Kind} (h : k.isArray = true) : k ≠ .const ∧ k ≠ .mx := by
  cases k <;> simp_all [isArray]

/-- An object of a class (`is_obj`). -/
def isObject : Kind → Bool
  | .object _ => true
  | _ => false

/-- A complex number or an array of them (`complex_tinfo`). -/
def isComplex : Kind → Bool
  | .array .real => false
  | .array _ => true
  | .number .real _ => false
  | .number _ _ => true
  | _ => false

/-- A returned value of such a kind is converted in the call itself and needs no local: a null
pointer becomes an empty result. -/
def isNullable : Kind → Bool
  | .string => true
  | .array _ => true
  | .number _ .pointer => true
  | _ => false

/-- The local holds a pointer, and so starts as null. -/
def isPointerLocal (k : Kind) : Bool := k.isArray || k.isObject || k == .string

end Kind

end MexBridge
