/-!
Tokens of a declaration line.
-/

namespace MexBridge

/-- The kinds of tokens (`TokenType`). -/
inductive TokenKind where
  | ident
  | number
  | string
  | new
  | fortran
  | input
  | output
  | inout
  | classWord
  | typedef
  | cpu
  | gpu
  | punct
  /-- A whole line that is not a declaration; it ends the statement before it. -/
  | otherLine
  /-- The end of all input. -/
  | eof
deriving DecidableEq, Repr

/-- The name of a kind of token in messages. -/
def TokenKind.tag : TokenKind → String
  | .ident => "ID"
  | .number => "NUMBER"
  | .string => "STRING"
  | .new => "NEW"
  | .fortran => "FORTRAN"
  | .input => "INPUT"
  | .output => "OUTPUT"
  | .inout => "INOUT"
  | .classWord => "CLASS"
  | .typedef => "TYPEDEF"
  | .cpu => "CPU"
  | .gpu => "GPU"
  | .punct => "PUNCT"
  | .otherLine => "NON_C_LINE"
  | .eof => "EOF"

def TokenKind.all : List TokenKind :=
  [.ident, .number, .string, .new, .fortran, .input, .output, .inout, .classWord, .typedef, .cpu,
    .gpu, .punct, .otherLine, .eof]

/-- The kind with a given tag. -/
def TokenKind.ofTag? (s : String) : Option TokenKind := TokenKind.all.find? (·.tag == s)

/-- A token with the number of the line it stands on (`Token`). -/
structure Token where
  kind : TokenKind
  text : String
  line : Int
deriving DecidableEq, Repr

/-- What a reader sees past the last token. -/
def Token.finish : Token := ⟨.eof, "", 0⟩

def Token.isPunct (t : Token) (s : String) : Bool := t.kind == .punct && t.text == s

/-- The token that stands for a line which is not a declaration. -/
def Token.otherLine (line : Int) : Token := ⟨.otherLine, "", line⟩

end MexBridge
