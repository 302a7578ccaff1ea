import MexBridge.Token

/-!
Tokens of the body of a declaration line. A name may be scoped (`a::b`, `::a`), a string runs to
the next quote or to the end of the line, `//` ends the body, and a character that starts no
token is passed over. Each lexeme is the longest one at its place.
-/

namespace MexBridge.Token

def isNameHead (c : Char) : Bool := c.isAlpha || c == '_'

def isNameTail (c : Char) : Bool := c.isAlphanum || c == '_'

def isPunctChar (c : Char) : Bool :=
  ['-', '>', '(', ')', '[', ']', ',', ';', '*', '&', '=', ':', '.'].contains c

/-- A character that goes on inside a string. -/
def isStringChar (c : Char) : Bool := c != '\'' && c != '\n'

/-- A word that is a keyword has its own kind (`KEYWORDS`). -/
def wordKind (w : String) : TokenKind :=
  match w with
  | "new" => .new
  | "FORTRAN" => .fortran
  | "input" => .input
  | "output" => .output
  | "inout" => .inout
  | "class" => .classWord
  | "typedef" => .typedef
  | "cpu" => .cpu
  | "gpu" => .gpu
  | _ => .ident

theorem length_dropWhile_le (p : Char → Bool) (l : List Char) :
    (l.dropWhile p).length ≤ l.length :=
  (List.dropWhile_sublist p).length_le

/-- The scopes `::b::c…` that continue a name, and what follows them. -/
def scopes : List Char → List Char × List Char
  | ':' :: ':' :: c :: r =>
    if isNameHead c then
      let next := scopes (r.dropWhile isNameTail)
      (':' :: ':' :: c :: r.takeWhile isNameTail ++ next.1, next.2)
    else ([], ':' :: ':' :: c :: r)
  | cs => ([], cs)
termination_by cs => cs.length
decreasing_by
  have := length_dropWhile_le isNameTail r
  simp only [List.length_cons]; omega

/-- A name that starts with `c`, and what follows it. -/
def name (c : Char) (r : List Char) : List Char × List Char :=
  let next := scopes (r.dropWhile isNameTail)
  (c :: r.takeWhile isNameTail ++ next.1, next.2)

/-- The string whose opening quote was read, and what follows it. -/
def string (r : List Char) : List Char × List Char :=
  let body := r.takeWhile isStringChar
  match r.dropWhile isStringChar with
  | '\'' :: rest => ('\'' :: body ++ ['\''], rest)
  | rest => ('\'' :: body, rest)

/-- What stands at the front of a body. -/
inductive Lexeme where
  | comment
  | token (kind : TokenKind) (text : List Char)
  | skip

/-- The first lexeme of `c :: r` and what follows it. -/
def first (c : Char) (r : List Char) : Lexeme × List Char :=
  if c = '/' ∧ r.head? = some '/' then (.comment, [])
  else if c = '\'' then
    let s := string r
    (.token .string s.1, s.2)
  else if isNameHead c then
    let w := name c r
    (.token (wordKind (String.ofList w.1)) w.1, w.2)
  else if c = ':' ∧ (scopes (c :: r)).1 ≠ [] then
    let w := scopes (c :: r)
    (.token (wordKind (String.ofList w.1)) w.1, w.2)
  else if c.isDigit then
    (.token .number (c :: r.takeWhile Char.isDigit), r.dropWhile Char.isDigit)
  else if isPunctChar c then (.token .punct [c], r)
  else (.skip, r)

theorem length_scopes_le (cs : List Char) : (scopes cs).2.length ≤ cs.length := by
  fun_induction scopes cs with
  | case1 c r h next ih =>
    have := length_dropWhile_le isNameTail r
    simp only [List.length_cons, next]; omega
  | case2 => simp
  | case3 => simp

theorem length_scopes_lt {cs : List Char} (h : (scopes cs).1 ≠ []) :
    (scopes cs).2.length < cs.length := by
  revert h
  fun_cases scopes cs with
  | case1 c r hc next =>
    have h1 := length_scopes_le (r.dropWhile isNameTail)
    have h2 := length_dropWhile_le isNameTail r
    simp only [List.length_cons, next]; omega
  | case2 => simp
  | case3 => simp

theorem length_first_le (c : Char) (r : List Char) : (first c r).2.length ≤ r.length := by
  unfold first
  split
  · simp
  split
  · have h := length_dropWhile_le isStringChar r
    simp only [string]
    split
    · simp_all; omega
    · exact h
  split
  · exact Nat.le_trans (length_scopes_le _) (length_dropWhile_le _ _)
  split
  · rename_i h
    have := length_scopes_lt h.2
    simp only [List.length_cons] at this ⊢; omega
  split
  · exact length_dropWhile_le _ _
  split <;> simp

/-- The tokens of a body, in order (`_tokenize_c_line`). -/
def tokens (line : Int) : List Char → List Token
  | [] => []
  | c :: r =>
    match first c r with
    | (.comment, _) => []
    | (.token k t, _) => ⟨k, String.ofList t, line⟩ :: tokens line (first c r).2
    | (.skip, _) => tokens line (first c r).2
termination_by cs => cs.length
decreasing_by
  all_goals
    have := length_first_le c r
    simp only [List.length_cons]; omega

end MexBridge.Token
