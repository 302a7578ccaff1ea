/-!
Bytes read as text. The last character of what was read so far may be incomplete; its bytes then
wait for those that follow.
-/

namespace MexBridge.Text

/-- Whether a byte goes on with a character. -/
def isContinuation (b : UInt8) : Bool := 0x80 ≤ b && b ≤ 0xbf

/-- The bytes that can come second in a character of three or four, by its first byte. -/
def isSecond (first b : UInt8) : Bool :=
  isContinuation b
    && (first != 0xe0 || 0xa0 ≤ b) && (first != 0xed || b ≤ 0x9f)
    && (first != 0xf0 || 0x90 ≤ b) && (first != 0xf4 || b ≤ 0x8f)

/-- Whether bytes are the start of a character of which at least one byte is missing. -/
def isCutShort : List UInt8 → Bool
  | [a] => 0xc2 ≤ a && a ≤ 0xf4
  | [a, b] => 0xe0 ≤ a && a ≤ 0xf4 && isSecond a b
  | [a, b, c] => 0xf0 ≤ a && a ≤ 0xf4 && isSecond a b && isContinuation c
  | _ => false

/-- Splits off `n` bytes at the end, if these are cut short and a text stands before them. -/
def decodeBefore (n : Nat) (bytes : ByteArray) : Option (List Char × ByteArray) :=
  let k := bytes.size - n
  let tail := bytes.extract k bytes.size
  if isCutShort tail.toList then
    (String.fromUTF8? (bytes.extract 0 k)).map fun s => (s.toList, tail)
  else none

/-- The characters that bytes stand for, and the bytes of the last one if it is cut short. -/
def decode (bytes : ByteArray) : Option (List Char × ByteArray) :=
  match String.fromUTF8? bytes with
  | some s => some (s.toList, ByteArray.empty)
  | none => [1, 2, 3].findSome? fun n => decodeBefore n bytes

/-- A whole text leaves no bytes behind. -/
theorem decode_toUTF8 (s : String) : decode s.toUTF8 = some (s.toList, ByteArray.empty) := by
  have h : String.fromUTF8? s.toUTF8 = some s := dif_pos s.isValidUTF8
  rw [decode, h]

end MexBridge.Text
