import MexBridge.Text.Alnum
import MexBridge.Text.Blank

/-!
Lines of a source file. The mark a line starts with, after blanks, tells what the line is for:
`#` declares, `$` is C, `@` directs output, `//` is a comment, and any other line is MATLAB.
-/

namespace MexBridge

inductive SourceLine where
  /-- MATLAB code. -/
  | text
  /-- `$[` with more behind it: it opens nothing and is copied like MATLAB code. -/
  | brokenOpener
  | comment
  /-- `@function`, with what follows the word. -/
  | function (tail : List Char)
  /-- `@include`, with the name of a file. -/
  | include (name : List Char)
  /-- `@`, with the name of a file or none. -/
  | redirect (target : List Char)
  /-- `$`, with a line of C. -/
  | code (rest : List Char)
  /-- `$[`, which opens a block of C. -/
  | opener
  /-- `#`, with a declaration. -/
  | declaration (body : List Char)
deriving DecidableEq, Repr

namespace SourceLine

def isIndent (c : Char) : Bool := c == ' ' || c == '\t'

def isLineEnd (c : Char) : Bool := c == '\r' || c == '\n'

/-- Blanks that may follow a bracket of a block. -/
def isTrailing (c : Char) : Bool := c == ' ' || c == '\t' || c == '\r'

/-- What follows `word`, if the text starts with it. -/
def after? (word : String) (cs : List Char) : Option (List Char) :=
  if word.toList.isPrefixOf cs then some (cs.drop word.length) else none

/-- Only blanks up to the end of the line. -/
def isEmptyRest (cs : List Char) : Bool :=
  match cs.dropWhile isTrailing with
  | [] => true
  | ['\n'] => true
  | _ => false

/-- What a line without its indent is, outside blocks (`_lex_stream`). -/
def classify (cs : List Char) : SourceLine :=
  match after? "$[" cs with
  | some rest => if isEmptyRest rest then .opener else .brokenOpener
  | none =>
    if (after? "//" cs).isSome then .comment
    else match after? "@function" cs with
      | some tail => .function (Text.dropEnd isLineEnd tail)
      | none => match after? "@include" cs with
        | some name => .include (Text.trim name)
        | none =>
          match cs with
          | '@' :: rest => .redirect (Text.trim rest)
          | '$' :: rest => .code rest
          | '#' :: rest => .declaration (Text.dropEnd isLineEnd rest)
          | _ => .text

/-- The indent of a line and the rest of it. -/
def indent (cs : List Char) : List Char × List Char := (cs.takeWhile isIndent, cs.dropWhile isIndent)

/-- The line that closes a block; its mark stands at the very start. -/
def isCloser (cs : List Char) : Bool :=
  match after? "$]" (Text.dropEnd isLineEnd cs) with
  | some rest => rest.all isTrailing
  | none => false

/-- The file a MATLAB function goes to: the last name before the first parenthesis
(`_fname_scan_line`). -/
def functionFile (tail : List Char) : List Char :=
  let before := (tail.takeWhile (· != '(')).reverse
  ((before.dropWhile (!Text.isNameChar ·)).takeWhile Text.isNameChar).reverse ++ ['.', 'm']

end SourceLine

end MexBridge
