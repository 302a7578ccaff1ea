import MexBridge.Routine
import MexBridge.Token

/-!
Statements of the declaration language, and what can be wrong with the tokens of one.
-/

namespace MexBridge

inductive Statement where
  /-- `typedef space name;` -/
  | typedef (space name : String)
  /-- `class child : parent, parent;` -/
  | inherits (child : String) (parents : List String)
  /-- A call, with or without a result. -/
  | call (r : Routine)
deriving DecidableEq, Repr

/-- What the grammar asks for at some place. -/
inductive Expectation where
  | kind (k : TokenKind)
  | punct (s : String)
  /-- A name, a number or a string. -/
  | literal
  /-- A dimension of an array. -/
  | dimension
deriving DecidableEq, Repr

def Expectation.text : Expectation → String
  | .kind k => k.tag
  | .punct s => TokenKind.punct.tag ++ " '" ++ s ++ "'"
  | .literal => "name, number or string"
  | .dimension => "expression"

inductive SyntaxFault where
  /-- A token stands where the grammar wants something else. -/
  | expected (e : Expectation) (got : Token)
  /-- A statement lacks its `;`: another line or the end of the file follows it. -/
  | unfinished (atEnd : Bool)
deriving DecidableEq, Repr

def SyntaxFault.text : SyntaxFault → String
  | .expected e t => "Expected " ++ e.text ++ ", got " ++ t.kind.tag ++ " '" ++ t.text ++ "'"
  | .unfinished atEnd =>
    "syntax error, unexpected " ++ (if atEnd then "$end" else TokenKind.otherLine.tag)
      ++ ", expecting ';'"

end MexBridge
