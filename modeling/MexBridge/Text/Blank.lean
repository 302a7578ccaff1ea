import MexBridge.Text.Range

/-!
White space, and cutting it off the ends of a text.
-/

namespace MexBridge.Text

/-- White space of every script, with the separators U+001C to U+001F. -/
def blankRanges : Ranges := [
  9, 5, 14, 5, 100, 1, 26, 1, 5599, 1, 2431, 11, 29, 2, 5, 1, 47, 1, 4000, 1]

def isBlank (c : Char) : Bool := blankRanges.has c

/-- Drops the characters in `p` from the end. -/
def dropEnd (p : Char → Bool) (cs : List Char) : List Char :=
  (cs.reverse.dropWhile p).reverse

/-- Cuts white space off both ends. -/
def trim (cs : List Char) : List Char := dropEnd isBlank (cs.dropWhile isBlank)

end MexBridge.Text
