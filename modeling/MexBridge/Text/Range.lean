/-!
Sets of characters, as runs of code points.
-/

namespace MexBridge.Text

/-- A set of code points, from 0 on: how many are outside it, how many inside, and so on by turns. -/
abbrev Ranges := List Nat

def Ranges.hasCode : Ranges → Nat → Bool
  | outside :: inside :: rs, n =>
    outside ≤ n && (n < outside + inside || hasCode rs (n - (outside + inside)))
  | _, _ => false

def Ranges.has (rs : Ranges) (c : Char) : Bool := rs.hasCode c.toNat

end MexBridge.Text
