import MexBridge.Except
import MexBridge.Statement

/-!
From tokens to statements, by recursive descent:

    stmt  ::= typedef ID ID ; | class ID : ID (, ID)* ; | [bv =] fn ( [var (, var)*] ) ;
    bv    ::= ID quals ID | ID ID [aqual]
    fn    ::= FORTRAN ID | new ID | ID | ID -> ID . ID
    var   ::= [cpu | gpu] [input | output | inout] ID (quals lit | lit [aqual])
    quals ::= * | & | aqual
    aqual ::= [ [dim (, dim)*] ] [&]
    lit   ::= ID | NUMBER | STRING
    dim   ::= ID | NUMBER

Each reader takes the tokens left and gives what it read with the tokens left after it.
-/

namespace MexBridge.Statement

/-- A failed parse: the fault, and the base types read before it. -/
structure Failure where
  fault : SyntaxFault
  types : List String := []
deriving DecidableEq, Repr

/-- The base types `ts` were read before all that. -/
def Failure.after (ts : List String) (f : Failure) : Failure := { f with types := ts ++ f.types }

abbrev Reader (α : Type) := List Token → Except Failure (α × List Token)

/-- The next token (`_peek`). -/
def peek : List Token → Token
  | [] => .finish
  | t :: _ => t

/-- The failure at the next token (`_error`). -/
def unexpected {α : Type} (e : Expectation) (ts : List Token) : Except Failure α :=
  .error { fault := .expected e (peek ts) }

/-- Whether a punctuation mark is next (`_at_punct`). -/
def atPunct (s : String) (ts : List Token) : Bool := (peek ts).isPunct s

/-- Takes a token of the kind wanted (`_expect`). -/
def expect (k : TokenKind) : Reader String
  | t :: ts => if t.kind = k then .ok (t.text, ts) else unexpected (.kind k) (t :: ts)
  | [] => unexpected (.kind k) []

/-- Steps over a punctuation mark (`_expect_punct`). -/
def expectPunct (s : String) : List Token → Except Failure (List Token)
  | t :: ts => if t.isPunct s then .ok ts else unexpected (.punct s) (t :: ts)
  | [] => unexpected (.punct s) []

/-! ## Variables -/

/-- A name or a literal (`_name_or_literal`). -/
def literal : Reader String
  | t :: ts =>
    if t.kind = .ident ∨ t.kind = .number ∨ t.kind = .string then .ok (t.text, ts)
    else unexpected .literal (t :: ts)
  | [] => unexpected .literal []

/-- A token that can be a dimension (`_expr`). -/
def isDim (t : Token) : Bool := t.kind == .ident || t.kind == .number

/-- One or more dimensions between commas (`_exprs`). -/
def dims : Reader (List Dim)
  | [] => unexpected .dimension []
  | [t] => if isDim t then .ok ([⟨t.text, unlabelled⟩], []) else unexpected .dimension [t]
  | t :: c :: ts =>
    if isDim t then
      if c.isPunct "," then do
        let (ds, rest) ← dims ts
        return (⟨t.text, unlabelled⟩ :: ds, rest)
      else .ok ([⟨t.text, unlabelled⟩], c :: ts)
    else unexpected .dimension (t :: c :: ts)

/-- Dimensions up to the closing bracket, perhaps none (`_arrayspec`). -/
def optionalDims : Reader (List Dim) := fun ts =>
  if atPunct "]" ts then .ok ([], ts) else dims ts

/-- Dimensions in brackets, perhaps with `&` (`_aqual`). -/
def arrayQualifier : Reader Qualifier := fun ts => do
  let ts ← expectPunct "[" ts
  let (ds, ts) ← optionalDims ts
  let ts ← expectPunct "]" ts
  return if atPunct "&" ts then (⟨.arrayRef, ds⟩, ts.tail) else (⟨.array, ds⟩, ts)

def startsQualifier (ts : List Token) : Bool := atPunct "*" ts || atPunct "&" ts || atPunct "[" ts

/-- A `*`, a `&` or dimensions (`_quals`). -/
def qualifier : Reader Qualifier := fun ts =>
  if atPunct "*" ts then .ok (⟨.pointer, []⟩, ts.tail)
  else if atPunct "&" ts then .ok (⟨.reference, []⟩, ts.tail)
  else arrayQualifier ts

/-- Dimensions behind a name, if there are any. -/
def trailingQualifier : Reader (Option Qualifier) := fun ts =>
  if atPunct "[" ts then do
    let (q, ts) ← arrayQualifier ts
    return (some q, ts)
  else .ok (none, ts)

/-- A qualifier and a name, or a name that may have dimensions behind it. -/
def declarator (name : Reader String) : Reader (Option Qualifier × String) := fun ts =>
  if startsQualifier ts then do
    let (q, ts) ← qualifier ts
    let (n, ts) ← name ts
    return ((some q, n), ts)
  else do
    let (n, ts) ← name ts
    let (q, ts) ← trailingQualifier ts
    return ((q, n), ts)

/-- A device, if one is written (`_devicespec`). -/
def device (ts : List Token) : Device × List Token :=
  match (peek ts).kind with
  | .cpu => (.cpu, ts.tail)
  | .gpu => (.gpu, ts.tail)
  | _ => (.cpu, ts)

/-- A direction, if one is written (`_iospec`). -/
def direction (ts : List Token) : Direction × List Token :=
  match (peek ts).kind with
  | .input => (.input, ts.tail)
  | .output => (.output, ts.tail)
  | .inout => (.inout, ts.tail)
  | _ => (.input, ts)

/-- Type and declarator, with a given device and direction. -/
def typed (name : Reader String) (d : Device) (io : Direction) : Reader Variable := fun ts => do
  let (type, ts) ← expect .ident ts
  let ((q, n), ts) ← (declarator name ts).mapError (Failure.after [type])
  return ({ device := d, direction := io, type := type, qualifier := q, name := n }, ts)

/-- An argument (`_var`). -/
def argument : Reader Variable := fun ts =>
  let d := device ts
  let io := direction d.2
  typed literal d.1 io.1 io.2

/-- A returned value, always an output on the CPU (`_basevar`). -/
def result : Reader Variable := typed (expect .ident) .cpu .output

/-! ## What is left gets shorter -/

theorem expect_length {k : TokenKind} {ts rest : List Token} {x : String}
    (h : expect k ts = .ok (x, rest)) : rest.length < ts.length := by
  unfold expect unexpected at h
  grind

theorem expectPunct_length {s : String} {ts rest : List Token}
    (h : expectPunct s ts = .ok rest) : rest.length < ts.length := by
  unfold expectPunct unexpected at h
  grind

theorem literal_length {ts rest : List Token} {x : String}
    (h : literal ts = .ok (x, rest)) : rest.length < ts.length := by
  unfold literal unexpected at h
  grind

theorem dims_length {ts rest : List Token} {ds : List Dim}
    (h : dims ts = .ok (ds, rest)) : rest.length < ts.length := by
  fun_induction dims ts generalizing ds rest with
  | case1 => simp [unexpected] at h
  | case2 t ht => simp at h; simp [← h.2]
  | case3 t ht => simp [unexpected] at h
  | case4 t c ts ht hc ih =>
    obtain ⟨⟨ds', rest'⟩, h1, h2⟩ := bind_eq_ok.1 h
    have := ih h1
    simp only [pure, Except.pure, Except.ok.injEq, Prod.mk.injEq] at h2
    obtain ⟨-, rfl⟩ := h2
    simp only [List.length_cons]; omega
  | case5 t c ts ht hc => simp at h; simp [← h.2]
  | case6 t c ts ht => simp [unexpected] at h

theorem optionalDims_length_le {ts rest : List Token} {ds : List Dim}
    (h : optionalDims ts = .ok (ds, rest)) : rest.length ≤ ts.length := by
  unfold optionalDims at h
  split at h
  · simp at h; simp [h.2]
  · exact Nat.le_of_lt (dims_length h)

theorem arrayQualifier_length {ts rest : List Token} {q : Qualifier}
    (h : arrayQualifier ts = .ok (q, rest)) : rest.length < ts.length := by
  unfold arrayQualifier at h
  obtain ⟨ts1, h1, h⟩ := bind_eq_ok.1 h
  obtain ⟨⟨ds, ts2⟩, h2, h⟩ := bind_eq_ok.1 h
  obtain ⟨ts3, h3, h⟩ := bind_eq_ok.1 h
  have l1 := expectPunct_length h1
  have l2 := optionalDims_length_le h2
  have l3 := expectPunct_length h3
  have l4 : rest.length ≤ ts3.length := by
    simp only [pure, Except.pure, Except.ok.injEq] at h
    split at h
    · obtain ⟨-, rfl⟩ := Prod.mk.inj h
      simp
    · obtain ⟨-, rfl⟩ := Prod.mk.inj h
      simp
  omega

theorem trailingQualifier_length_le {ts rest : List Token} {q : Option Qualifier}
    (h : trailingQualifier ts = .ok (q, rest)) : rest.length ≤ ts.length := by
  unfold trailingQualifier at h
  split at h
  · obtain ⟨⟨q', ts1⟩, h1, h⟩ := bind_eq_ok.1 h
    have := arrayQualifier_length h1
    simp only [pure, Except.pure, Except.ok.injEq, Prod.mk.injEq] at h
    obtain ⟨-, rfl⟩ := h
    omega
  · simp at h; simp [h.2]

theorem qualifier_length_le {ts rest : List Token} {q : Qualifier}
    (h : qualifier ts = .ok (q, rest)) : rest.length ≤ ts.length := by
  unfold qualifier at h
  split at h
  · simp at h; simp [← h.2]
  split at h
  · simp at h; simp [← h.2]
  · exact Nat.le_of_lt (arrayQualifier_length h)

theorem declarator_length {name : Reader String}
    (hn : ∀ {ts rest : List Token} {x : String}, name ts = .ok (x, rest) → rest.length < ts.length)
    {ts rest : List Token} {x : Option Qualifier × String}
    (h : declarator name ts = .ok (x, rest)) : rest.length < ts.length := by
  unfold declarator at h
  split at h
  · obtain ⟨⟨q, ts1⟩, h1, h⟩ := bind_eq_ok.1 h
    obtain ⟨⟨n, ts2⟩, h2, h⟩ := bind_eq_ok.1 h
    have := qualifier_length_le h1
    have := hn h2
    simp [pure, Except.pure] at h
    obtain ⟨-, rfl⟩ := h
    omega
  · obtain ⟨⟨n, ts1⟩, h1, h⟩ := bind_eq_ok.1 h
    obtain ⟨⟨q, ts2⟩, h2, h⟩ := bind_eq_ok.1 h
    have := hn h1
    have := trailingQualifier_length_le h2
    simp [pure, Except.pure] at h
    obtain ⟨-, rfl⟩ := h
    omega

theorem typed_length {name : Reader String}
    (hn : ∀ {ts rest : List Token} {x : String}, name ts = .ok (x, rest) → rest.length < ts.length)
    {d : Device} {io : Direction} {ts rest : List Token} {v : Variable}
    (h : typed name d io ts = .ok (v, rest)) : rest.length < ts.length := by
  unfold typed at h
  obtain ⟨⟨type, ts1⟩, h1, h⟩ := bind_eq_ok.1 h
  obtain ⟨⟨⟨q, n⟩, ts2⟩, h2, h⟩ := bind_eq_ok.1 h
  have := expect_length h1
  have := declarator_length hn (mapError_eq_ok.1 h2)
  simp [pure, Except.pure] at h
  obtain ⟨-, rfl⟩ := h
  omega

theorem device_length_le (ts : List Token) : (device ts).2.length ≤ ts.length := by
  unfold device
  split <;> simp

theorem direction_length_le (ts : List Token) : (direction ts).2.length ≤ ts.length := by
  unfold direction
  split <;> simp

theorem argument_length {ts rest : List Token} {v : Variable}
    (h : argument ts = .ok (v, rest)) : rest.length < ts.length := by
  exact Nat.lt_of_lt_of_le (typed_length literal_length h)
    (Nat.le_trans (direction_length_le _) (device_length_le ts))

/-! ## Statements -/

/-- One or more arguments between commas (`_args`). -/
def arguments (ts : List Token) : Except Failure (List Variable × List Token) :=
  match _h : argument ts with
  | .error e => .error e
  | .ok (v, rest) =>
    if atPunct "," rest then do
      let (vs, rest) ← (arguments rest.tail).mapError (Failure.after [v.type])
      return (v :: vs, rest)
    else .ok ([v], rest)
termination_by ts.length
decreasing_by
  have := argument_length _h
  simp only [List.length_tail]; omega

theorem arguments_eq (ts : List Token) :
    arguments ts = argument ts >>= fun x =>
      if atPunct "," x.2 then
        (arguments x.2.tail).mapError (Failure.after [x.1.type]) >>= fun y => .ok (x.1 :: y.1, y.2)
      else .ok ([x.1], x.2) := by
  rw [arguments]
  split
  · rename_i e h
    rw [h]
    rfl
  · rename_i v rest h
    rw [h]
    rfl

/-- Arguments up to the closing parenthesis, perhaps none. -/
def optionalArguments : Reader (List Variable) := fun ts =>
  if atPunct ")" ts then .ok ([], ts) else arguments ts

/-- One or more class names between commas (`_inheritslist`). -/
def classNames : Reader (List String)
  | [] => unexpected (.kind .ident) []
  | [t] => if t.kind = .ident then .ok ([t.text], []) else unexpected (.kind .ident) [t]
  | t :: c :: ts =>
    if t.kind = .ident then
      if c.isPunct "," then do
        let (ns, rest) ← classNames ts
        return (t.text :: ns, rest)
      else .ok ([t.text], c :: ts)
    else unexpected (.kind .ident) (t :: c :: ts)

/-- The method called on `receiver`, after the `-` of its arrow. -/
def method (receiver file : String) (line : Int) : Reader Routine := fun ts => do
  let ts ← expectPunct ">" ts
  let (owner, ts) ← expect .ident ts
  let ts ← expectPunct "." ts
  let (name, ts) ← expect .ident ts
  return ({ receiver := some receiver, owner := some owner, name, file, line }, ts)

/-- The function called, declared in `file` on `line` (`_func`). -/
def callee (file : String) (line : Int) : Reader Routine := fun ts =>
  match (peek ts).kind with
  | .fortran => do
    let (name, ts) ← expect .ident ts.tail
    return ({ name := name, file := file, line := line, fortran := true }, ts)
  | .new => do
    let (owner, ts) ← expect .ident ts.tail
    return ({ owner := some owner, name := "new", file := file, line := line }, ts)
  | _ => do
    let (name, ts) ← expect .ident ts
    if atPunct "-" ts then method name file line ts.tail
    else return ({ name := name, file := file, line := line }, ts)

/-- A call up to its `;` (`_funcall`). -/
def callStatement (file : String) (line : Int) : Reader Routine := fun ts => do
  let (r, ts) ← callee file line ts
  let ts ← expectPunct "(" ts
  let (args, ts) ← optionalArguments ts
  let fail := Failure.after (args.map (·.type))
  let ts ← (expectPunct ")" ts).mapError fail
  let ts ← (expectPunct ";" ts).mapError fail
  return ({ r with args := args }, ts)

/-- Is there a `=` before the first `(` or `;`, all outside brackets (`_has_assignment`)? -/
def hasResult (depth : Int) : List Token → Bool
  | [] => false
  | t :: ts =>
    if t.isPunct "[" then hasResult (depth + 1) ts
    else if t.isPunct "]" then hasResult (depth - 1) ts
    else if depth = 0 ∧ t.isPunct "=" then true
    else if depth = 0 ∧ (t.isPunct "(" ∨ t.isPunct ";") then false
    else hasResult depth ts

/-- A statement; it stands in `file` on the line of its first token (`_statement`). -/
def statement (file : String) : Reader Statement := fun ts =>
  let line := (peek ts).line
  match (peek ts).kind with
  | .typedef => do
    let (space, ts) ← expect .ident ts.tail
    let (name, ts) ← expect .ident ts
    let ts ← expectPunct ";" ts
    return (.typedef space name, ts)
  | .classWord => do
    let (child, ts) ← expect .ident ts.tail
    let ts ← expectPunct ":" ts
    let (parents, ts) ← classNames ts
    let ts ← expectPunct ";" ts
    return (.inherits child parents, ts)
  | _ =>
    if hasResult 0 ts then do
      let (v, ts) ← result ts
      let fail := Failure.after [v.type]
      let ts ← (expectPunct "=" ts).mapError fail
      let (r, ts) ← (callStatement file line ts).mapError fail
      return (.call { r with results := [v] }, ts)
    else do
      let (r, ts) ← callStatement file line ts
      return (.call r, ts)

/-- The statement that `ts` spell (`_parse_line`). Nothing can follow the `;` that ends it. -/
def parse (file : String) (ts : List Token) : Except Failure Statement :=
  (statement file ts).map (·.1)

end MexBridge.Statement
