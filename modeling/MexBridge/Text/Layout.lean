/-!
Padding, joining, and the lines of a text. A line keeps the newline that ends it, so the lines of
a text put together are the text.
-/

namespace MexBridge.Text

/-- Pads with blanks on the right to at least `n` characters. -/
def padRight (n : Nat) (s : String) : String :=
  s ++ String.ofList (List.replicate (n - s.length) ' ')

/-- Every end of line, `\r\n` and a lone `\r` too, becomes `\n`. -/
def unifyNewlines : List Char → List Char
  | [] => []
  | '\r' :: '\n' :: r => '\n' :: unifyNewlines r
  | '\r' :: r => '\n' :: unifyNewlines r
  | c :: r => c :: unifyNewlines r

/-- Splits after every `\n`; the last line may lack one. -/
def splitLines : List Char → List (List Char)
  | [] => []
  | c :: r =>
    if c = '\n' then ['\n'] :: splitLines r
    else match splitLines r with
      | [] => [[c]]
      | l :: ls => (c :: l) :: ls

@[simp] theorem flatten_splitLines (cs : List Char) : (splitLines cs).flatten = cs := by
  induction cs with
  | nil => rfl
  | cons c r ih =>
    unfold splitLines
    split
    · simp_all
    · split <;> simp_all

/-- The lines that are complete in the text read so far, and the rest. A `\r` at the end is left
to the rest, since a `\n` may follow. -/
def completeLines (cs : List Char) : List (List Char) × List Char :=
  let held := if cs.getLast? = some '\r' then ['\r'] else []
  let ls := splitLines (unifyNewlines (if held.isEmpty then cs else cs.dropLast))
  match ls.getLast? with
  | some l => if l.getLast? = some '\n' then (ls, held) else (ls.dropLast, l ++ held)
  | none => ([], held)

end MexBridge.Text
