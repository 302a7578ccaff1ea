/-!
Integer promotion. Base types `int`, `long`, `uint` and `ulong` may stand for wider types. The
types met on the way are noted, because only those get array copiers.
-/

namespace MexBridge

/-- Which integer types stand for which. -/
inductive Promotion where
  /-- Every type for itself. -/
  | native
  /-- `int` for `long`, `uint` for `ulong`. -/
  | long
  /-- Signed types for 32 bits, unsigned ones for 64. -/
  | mixed
  /-- All for 64 bits. -/
  | wide
deriving DecidableEq, Repr

namespace Promotion

def ofCode : Int → Promotion
  | 1 => .long
  | 2 => .long
  | 3 => .mixed
  | 4 => .wide
  | _ => .native

/-- The type that `name` stands for (`promote_int`). -/
def rename (p : Promotion) (name : String) : String :=
  match p, name with
  | .long, "int" => "long"
  | .long, "uint" => "ulong"
  | .mixed, "int" => "int32_t"
  | .mixed, "long" => "int32_t"
  | .mixed, "uint" => "uint64_t"
  | .mixed, "ulong" => "uint64_t"
  | .wide, "int" => "int64_t"
  | .wide, "long" => "int64_t"
  | .wide, "uint" => "uint64_t"
  | .wide, "ulong" => "uint64_t"
  | _, n => n

/-- A type noted when `name` is met, besides `name` itself. -/
def implied (p : Promotion) (name : String) : Option String :=
  match p, name with
  | .long, "uint" => some "ulong"
  | .mixed, "int" => some "int32_t"
  | .mixed, "long" => some "int64_t"
  | .mixed, "uint" => some "uint32_t"
  | .mixed, "ulong" => some "uint64_t"
  | .wide, "int" => some "int64_t"
  | .wide, "long" => some "int64_t"
  | .wide, "uint" => some "uint64_t"
  | .wide, "ulong" => some "uint64_t"
  | _, _ => none

end Promotion

/-- The integer types whose use is noted, in the order they are listed. -/
def notedTypes : List String :=
  ["int32_t", "int64_t", "uint32_t", "uint64_t", "ulong", "uint", "ushort", "uchar"]

/-- The noted types in use. -/
abbrev Usage := List String

namespace Usage

def mark (u : Usage) (name : String) : Usage :=
  if name ∈ notedTypes ∧ name ∉ u then u ++ [name] else u

/-- Notes a base type as it is met under a promotion. -/
def note (p : Promotion) (u : Usage) (name : String) : Usage :=
  match p.implied name with
  | some t => (u.mark name).mark t
  | none => u.mark name

def noteAll (p : Promotion) (u : Usage) (names : List String) : Usage := names.foldl (note p) u

/-- A noted type that never was met; it gets no copiers. -/
def lacks (u : Usage) (name : String) : Bool := notedTypes.contains name && !u.contains name

/-- The types in use, in the order of `notedTypes`. -/
def listed (u : Usage) : List String := notedTypes.filter u.contains

theorem mem_mark {u : Usage} {a n : String} :
    n ∈ u.mark a ↔ n ∈ u ∨ (n = a ∧ n ∈ notedTypes) := by
  unfold mark
  split <;> grind

end Usage

end MexBridge
