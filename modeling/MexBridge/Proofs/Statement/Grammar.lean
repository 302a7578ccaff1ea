import MexBridge.Statement.Parser

/-!
# The grammar of declarations

    stmt  ::= typedef ID ID ; | class ID : ID (, ID)* ; | [bv =] fn ( [var (, var)*] ) ;
    bv    ::= ID quals ID | ID ID [aqual]
    fn    ::= FORTRAN ID | new ID | ID | ID -> ID . ID
    var   ::= [cpu | gpu] [input | output | inout] ID (quals lit | lit [aqual])
    quals ::= * | & | aqual
    aqual ::= [ [dim (, dim)*] ] [&]
    lit   ::= ID | NUMBER | STRING
    dim   ::= ID | NUMBER

A derivation is a tree of these rules with tokens at its leaves. `tokens` is what a tree spells, and
each kind of tree has a function that tells what it stands for. The grammar is unambiguous: no two
derivations spell the same tokens (`unambiguous_derivation`).
-/

namespace MexBridge.Grammar

/-! ## Trees -/

/-- A token of a class. -/
@[ext]
structure Leaf (P : Token → Prop) where
  token : Token
  holds : P token

abbrev Word (k : TokenKind) : Type := Leaf fun t => t.kind = k

/-- A punctuation mark. -/
abbrev Sign (s : String) : Type := Leaf fun t => t.isPunct s = true

/-- A dimension. -/
abbrev Extent : Type := Leaf fun t => t.kind = .ident ∨ t.kind = .number

abbrev DeviceWord : Type := Leaf fun t => t.kind = .cpu ∨ t.kind = .gpu

abbrev DirectionWord : Type :=
  Leaf fun t => t.kind = .input ∨ t.kind = .output ∨ t.kind = .inout

/-- One or more items between commas. -/
inductive Commas (α : Type) where
  | one (a : α)
  | more (a : α) (comma : Sign ",") (rest : Commas α)

/-- `[m, n]` or `[m, n]&`. -/
structure Brackets where
  opening : Sign "["
  extents : Option (Commas Extent)
  closing : Sign "]"
  ref : Option (Sign "&")

/-- What may stand between a type and a name. -/
inductive Marks where
  | pointer (star : Sign "*")
  | reference (amp : Sign "&")
  | array (b : Brackets)

/-- A name with its marks before it, or with dimensions behind it. -/
inductive Declarator (P : Token → Prop) where
  | before (marks : Marks) (name : Leaf P)
  | behind (name : Leaf P) (dims : Option Brackets)

structure Argument where
  device : Option DeviceWord
  direction : Option DirectionWord
  type : Word .ident
  declarator : Declarator fun t => t.kind = .ident ∨ t.kind = .number ∨ t.kind = .string

structure Result where
  type : Word .ident
  declarator : Declarator fun t => t.kind = .ident

/-- The function called. -/
inductive Target where
  | fortran (word : Word .fortran) (name : Word .ident)
  | constructor (word : Word .new) (owner : Word .ident)
  | plain (name : Word .ident)
  | method (this : Word .ident) (dash : Sign "-") (arrow : Sign ">") (owner : Word .ident)
      (dot : Sign ".") (name : Word .ident)

/-- A call up to its `;`. -/
structure Invocation where
  target : Target
  opening : Sign "("
  args : Option (Commas Argument)
  closing : Sign ")"
  stop : Sign ";"

/-- A derivation of a statement. -/
inductive Derivation where
  | typedef (word : Word .typedef) (space name : Word .ident) (stop : Sign ";")
  | inherits (word : Word .classWord) (child : Word .ident) (colon : Sign ":")
      (parents : Commas (Word .ident)) (stop : Sign ";")
  | call (call : Invocation)
  | assignment (result : Result) (equals : Sign "=") (call : Invocation)

/-! ## What trees spell -/

def Leaf.tokens {P : Token → Prop} (l : Leaf P) : List Token := [l.1]

/-- What is spelled where a part may be missing. -/
def perhaps {α : Type} (tokens : α → List Token) : Option α → List Token
  | none => []
  | some a => tokens a

@[simp]
theorem perhaps_none {α : Type} (tokens : α → List Token) : perhaps tokens none = [] := rfl

@[simp]
theorem perhaps_some {α : Type} (tokens : α → List Token) (a : α) :
    perhaps tokens (some a) = tokens a := rfl

def Commas.tokens {α : Type} (f : α → List Token) : Commas α → List Token
  | .one a => f a
  | .more a comma rest => f a ++ comma.1 :: rest.tokens f

def Brackets.tokens (b : Brackets) : List Token :=
  b.opening.1 :: (perhaps (Commas.tokens Leaf.tokens) b.extents
    ++ b.closing.1 :: perhaps Leaf.tokens b.ref)

def Marks.tokens : Marks → List Token
  | .pointer star => [star.1]
  | .reference amp => [amp.1]
  | .array b => b.tokens

def Declarator.tokens {P : Token → Prop} : Declarator P → List Token
  | .before marks name => marks.tokens ++ [name.1]
  | .behind name dims => name.1 :: perhaps Brackets.tokens dims

def Argument.tokens (a : Argument) : List Token :=
  perhaps Leaf.tokens a.device ++ (perhaps Leaf.tokens a.direction
    ++ a.type.1 :: a.declarator.tokens)

def Result.tokens (v : Result) : List Token := v.type.1 :: v.declarator.tokens

def Target.tokens : Target → List Token
  | .fortran word name => [word.1, name.1]
  | .constructor word owner => [word.1, owner.1]
  | .plain name => [name.1]
  | .method this dash arrow owner dot name =>
    [this.1, dash.1, arrow.1, owner.1, dot.1, name.1]

def Invocation.tokens (c : Invocation) : List Token :=
  c.target.tokens ++ c.opening.1 :: (perhaps (Commas.tokens Argument.tokens) c.args
    ++ [c.closing.1, c.stop.1])

def Derivation.tokens : Derivation → List Token
  | .typedef word space name stop => [word.1, space.1, name.1, stop.1]
  | .inherits word child colon parents stop =>
    word.1 :: child.1 :: colon.1 :: (parents.tokens Leaf.tokens ++ [stop.1])
  | .call c => c.tokens
  | .assignment v equals c => v.tokens ++ equals.1 :: c.tokens

/-! ## What trees stand for -/

def Leaf.text {P : Token → Prop} (l : Leaf P) : String := l.1.text

def Commas.toList {α : Type} : Commas α → List α
  | .one a => [a]
  | .more a _ rest => a :: rest.toList

def Brackets.qualifier (b : Brackets) : Qualifier :=
  { mark := if b.ref.isSome then .arrayRef else .array
    dims := (b.extents.elim [] Commas.toList).map fun e => { text := e.text } }

def Marks.qualifier : Marks → Qualifier
  | .pointer _ => { mark := .pointer }
  | .reference _ => { mark := .reference }
  | .array b => b.qualifier

namespace Declarator

variable {P : Token → Prop}

def qualifier : Declarator P → Option Qualifier
  | .before marks _ => some marks.qualifier
  | .behind _ dims => dims.map Brackets.qualifier

def name : Declarator P → String
  | .before _ name => name.text
  | .behind name _ => name.text

end Declarator

/-- Data live on the CPU unless it says otherwise. -/
def DeviceWord.device (w : DeviceWord) : Device := if w.1.kind = .gpu then .gpu else .cpu

def DirectionWord.direction (w : DirectionWord) : Direction :=
  if w.1.kind = .output then .output else if w.1.kind = .inout then .inout else .input

def Argument.variable (a : Argument) : Variable :=
  { device := a.device.elim .cpu DeviceWord.device
    direction := a.direction.elim .input DirectionWord.direction
    type := a.type.text
    qualifier := a.declarator.qualifier
    name := a.declarator.name }

/-- A returned value is an output on the CPU. -/
def Result.variable (v : Result) : Variable :=
  { device := .cpu
    direction := .output
    type := v.type.text
    qualifier := v.declarator.qualifier
    name := v.declarator.name }

/-- The routine called, declared in `file` on `line`, without its arguments. -/
def Target.routine (file : String) (line : Int) : Target → Routine
  | .fortran _ name => { name := name.text, file := file, line := line, fortran := true }
  | .constructor _ owner => { owner := some owner.text, name := "new", file := file, line := line }
  | .plain name => { name := name.text, file := file, line := line }
  | .method this _ _ owner _ name =>
    { receiver := some this.text, owner := some owner.text, name := name.text, file := file
      line := line }

def Invocation.arguments (c : Invocation) : List Variable :=
  (c.args.elim [] Commas.toList).map Argument.variable

def Invocation.routine (file : String) (line : Int) (c : Invocation) : Routine :=
  { c.target.routine file line with args := c.arguments }

namespace Derivation

/-- The line of the first token. -/
def line (d : Derivation) : Int := (d.tokens.head?.map (·.line)).getD 0

/-- The statement derived, which stands in `file`. -/
def statement (file : String) (d : Derivation) : Statement :=
  match d with
  | .typedef _ space name _ => .typedef space.text name.text
  | .inherits _ child _ parents _ => .inherits child.text (parents.toList.map Leaf.text)
  | .call c => .call (c.routine file d.line)
  | .assignment v _ c => .call { c.routine file d.line with results := [v.variable] }

end Derivation

/-! ## Unambiguity

A tree can be told from what follows it only if what follows does not go on with it: `f(int x` is an
argument if a `,` follows, and only a part of one if a `[` does. -/

/-- `ts` do not start with any of `marks`. -/
def Clear (marks : List String) (ts : List Token) : Prop :=
  ∀ t ∈ ts.head?, ∀ s ∈ marks, t.isPunct s = false

/-- Tokens that spell a tree with more behind it spell only one, where what is behind is clear of
`marks`. -/
def Unambiguous {α : Type} (tokens : α → List Token) (marks : List String) : Prop :=
  ∀ ⦃a b : α⦄ ⦃x y : List Token⦄, Clear marks x → Clear marks y → tokens a ++ x = tokens b ++ y →
    a = b ∧ x = y

/-- Every tree starts with a token that satisfies `P`. -/
def StartsWith {α : Type} (P : Token → Prop) (tokens : α → List Token) : Prop :=
  ∀ a : α, ∃ t ts, tokens a = t :: ts ∧ P t

theorem isPunct_eq_false {t : Token} {s : String} (h : t.kind ≠ .punct) : t.isPunct s = false := by
  simp [Token.isPunct, h]

theorem isPunct_unique {t : Token} {s s' : String} (h : t.isPunct s = true) (hs : s ≠ s') :
    t.isPunct s' = false := by
  have ht : t.kind = .punct ∧ t.text = s := by simpa [Token.isPunct] using h
  simp [Token.isPunct, ht, hs]

theorem kind_of_isPunct {t : Token} {s : String} (h : t.isPunct s = true) : t.kind = .punct := by
  have ht : t.kind = .punct ∧ t.text = s := by simpa [Token.isPunct] using h
  exact ht.1

theorem Sign.kind {s : String} (l : Sign s) : l.1.kind = .punct := kind_of_isPunct l.2

theorem Clear.sign {marks : List String} {s : String} (l : Sign s) (ts : List Token)
    (h : s ∉ marks) : Clear marks (l.1 :: ts) := by
  intro t ht s' hs'
  obtain rfl : l.1 = t := by simpa using ht
  exact isPunct_unique l.2 fun e => h (e ▸ hs')

theorem Clear.word {marks : List String} {t : Token} (ts : List Token) (h : t.kind ≠ .punct) :
    Clear marks (t :: ts) := by
  intro t' ht s _
  obtain rfl : t = t' := by simpa using ht
  exact isPunct_eq_false h

theorem Clear.subset {marks marks' : List String} {ts : List Token} (h : Clear marks ts)
    (hs : marks' ⊆ marks) : Clear marks' ts :=
  fun t ht s hm => h t ht s (hs hm)

theorem Clear.ne_sign {marks : List String} {s : String} {ts ts' : List Token} (h : Clear marks ts)
    (hs : s ∈ marks) (l : Sign s) : ts ≠ l.1 :: ts' := by
  rintro rfl
  have := h l.1 rfl s hs
  rw [l.2] at this
  cases this

theorem leaf_cons_inj {P : Token → Prop} {a b : Leaf P} {x y : List Token}
    (h : a.1 :: x = b.1 :: y) : a = b ∧ x = y := by
  obtain ⟨h1, h2⟩ := List.cons.inj h
  exact ⟨Leaf.ext h1, h2⟩

theorem unambiguous_leaf {P : Token → Prop} : Unambiguous (Leaf.tokens (P := P)) [] :=
  fun _ _ _ _ _ _ h => leaf_cons_inj h

theorem startsWith_leaf {P : Token → Prop} : StartsWith P (Leaf.tokens (P := P)) :=
  fun a => ⟨a.1, [], rfl, a.2⟩

section

variable {α : Type} {f : α → List Token} {P : Token → Prop} {marks : List String}

theorem Unambiguous.commas (hf : Unambiguous f marks) (hc : "," ∉ marks) :
    Unambiguous (Commas.tokens f) ("," :: marks) := by
  intro a
  induction a with
  | one a =>
    intro b x y hx hy h
    cases b with
    | one b =>
      obtain ⟨rfl, rfl⟩ := hf (hx.subset (by simp)) (hy.subset (by simp)) h
      exact ⟨rfl, rfl⟩
    | more b comma rest =>
      simp only [Commas.tokens, List.append_assoc, List.cons_append] at h
      obtain ⟨-, hx'⟩ := hf (hx.subset (by simp)) (Clear.sign comma _ hc) h
      exact absurd hx' (hx.ne_sign (by simp) comma)
  | more a comma rest ih =>
    intro b x y hx hy h
    cases b with
    | one b =>
      simp only [Commas.tokens, List.append_assoc, List.cons_append] at h
      obtain ⟨-, hy'⟩ := hf (Clear.sign comma _ hc) (hy.subset (by simp)) h
      exact absurd hy'.symm (hy.ne_sign (by simp) comma)
    | more b comma' rest' =>
      simp only [Commas.tokens, List.append_assoc, List.cons_append] at h
      obtain ⟨rfl, h1⟩ := hf (Clear.sign comma _ hc) (Clear.sign comma' _ hc) h
      obtain ⟨rfl, h2⟩ := leaf_cons_inj h1
      obtain ⟨rfl, rfl⟩ := ih hx hy h2
      exact ⟨rfl, rfl⟩

theorem StartsWith.commas (hf : StartsWith P f) : StartsWith P (Commas.tokens f) := by
  intro a
  cases a with
  | one a => exact hf a
  | more a comma rest =>
    obtain ⟨t, ts, h, ht⟩ := hf a
    exact ⟨t, _, by rw [Commas.tokens, h]; rfl, ht⟩

/-- A part that may be missing is there exactly if what comes next starts like it. -/
theorem Unambiguous.perhaps (hf : Unambiguous f marks) (hs : StartsWith P f) {a b : Option α}
    {x y : List Token} (hx : ∀ t ∈ x.head?, ¬ P t) (hy : ∀ t ∈ y.head?, ¬ P t)
    (cx : Clear marks x) (cy : Clear marks y)
    (h : perhaps f a ++ x = perhaps f b ++ y) : a = b ∧ x = y := by
  cases a with
  | none =>
    cases b with
    | none => exact ⟨rfl, h⟩
    | some b =>
      obtain ⟨t, ts, e, ht⟩ := hs b
      obtain rfl : x = f b ++ y := h
      exact absurd ht (hx t (by simp [e]))
  | some a =>
    cases b with
    | none =>
      obtain ⟨t, ts, e, ht⟩ := hs a
      obtain rfl : f a ++ x = y := h
      exact absurd ht (hy t (by simp [e]))
    | some b =>
      obtain ⟨rfl, rfl⟩ := hf cx cy h
      exact ⟨rfl, rfl⟩

end

theorem unambiguous_brackets : Unambiguous Brackets.tokens ["&"] := by
  intro a b x y hx hy h
  simp only [Brackets.tokens, List.cons_append, List.append_assoc] at h
  obtain ⟨ho, h⟩ := leaf_cons_inj h
  -- no dimension is a bracket
  have closed (l : Sign "]") (ts : List Token) :
      ∀ t ∈ (l.1 :: ts).head?, ¬ (t.kind = .ident ∨ t.kind = .number) := by
    intro t ht
    obtain rfl : l.1 = t := by simpa using ht
    simp [l.kind]
  obtain ⟨he, h⟩ := (unambiguous_leaf.commas (by simp)).perhaps startsWith_leaf.commas
    (closed _ _) (closed _ _) (Clear.sign _ _ (by decide)) (Clear.sign _ _ (by decide)) h
  obtain ⟨hc, h⟩ := leaf_cons_inj h
  obtain ⟨hr, rfl⟩ := unambiguous_leaf.perhaps startsWith_leaf
    (fun t ht => by simpa using hx t ht "&" (by simp))
    (fun t ht => by simpa using hy t ht "&" (by simp)) (hx.subset (by simp)) (hy.subset (by simp)) h
  exact ⟨by cases a; cases b; simp_all, rfl⟩

theorem startsWith_brackets : StartsWith (fun t => t.isPunct "[" = true) Brackets.tokens :=
  fun a => ⟨a.opening.1, _, rfl, a.opening.2⟩

/-- Marks are told apart by their first token. -/
theorem unambiguous_marks : Unambiguous Marks.tokens ["&"] := by
  have apart {s s' : String} (l : Sign s) (l' : Sign s') (hs : s ≠ s') : l.1 ≠ l'.1 := by
    intro h
    have := isPunct_unique l.2 hs
    rw [h, l'.2] at this
    cases this
  intro a b x y hx hy h
  cases a with
  | pointer l =>
    cases b with
    | pointer l' =>
      obtain ⟨rfl, rfl⟩ := leaf_cons_inj h
      exact ⟨rfl, rfl⟩
    | reference l' => exact absurd (List.cons.inj h).1 (apart l l' (by decide))
    | array b => exact absurd (List.cons.inj h).1 (apart l b.opening (by decide))
  | reference l =>
    cases b with
    | pointer l' => exact absurd (List.cons.inj h).1 (apart l l' (by decide))
    | reference l' =>
      obtain ⟨rfl, rfl⟩ := leaf_cons_inj h
      exact ⟨rfl, rfl⟩
    | array b => exact absurd (List.cons.inj h).1 (apart l b.opening (by decide))
  | array a =>
    cases b with
    | pointer l' => exact absurd (List.cons.inj h).1 (apart a.opening l' (by decide))
    | reference l' => exact absurd (List.cons.inj h).1 (apart a.opening l' (by decide))
    | array b =>
      obtain ⟨rfl, rfl⟩ := unambiguous_brackets hx hy h
      exact ⟨rfl, rfl⟩

theorem startsWith_marks : StartsWith (fun t => t.kind = .punct) Marks.tokens := by
  intro a
  cases a with
  | pointer l => exact ⟨l.1, [], rfl, l.kind⟩
  | reference l => exact ⟨l.1, [], rfl, l.kind⟩
  | array b => exact ⟨b.opening.1, _, rfl, b.opening.kind⟩

/-- Names are no punctuation, so the first token tells where the name stands. -/
theorem unambiguous_declarator {P : Token → Prop} (hP : ∀ t, P t → t.kind ≠ .punct) :
    Unambiguous (Declarator.tokens (P := P)) ["[", "&"] := by
  have apart (m : Marks) (n : Leaf P) (ts ts' : List Token) : m.tokens ++ ts ≠ n.1 :: ts' := by
    intro h
    obtain ⟨t, _, e, ht⟩ := startsWith_marks m
    rw [e, List.cons_append] at h
    exact hP _ n.2 ((List.cons.inj h).1 ▸ ht)
  intro a b x y hx hy h
  cases a with
  | before m n =>
    cases b with
    | before m' n' =>
      simp only [Declarator.tokens, List.append_assoc, List.cons_append, List.nil_append] at h
      obtain ⟨rfl, h1⟩ := unambiguous_marks (Clear.word x (hP _ n.2)) (Clear.word y (hP _ n'.2)) h
      obtain ⟨rfl, rfl⟩ := leaf_cons_inj h1
      exact ⟨rfl, rfl⟩
    | behind n' d =>
      simp only [Declarator.tokens, List.append_assoc] at h
      exact absurd h (apart m n' _ _)
  | behind n d =>
    cases b with
    | before m' n' =>
      simp only [Declarator.tokens, List.append_assoc] at h
      exact absurd h.symm (apart m' n _ _)
    | behind n' d' =>
      obtain ⟨rfl, h1⟩ := leaf_cons_inj h
      obtain ⟨rfl, rfl⟩ := unambiguous_brackets.perhaps startsWith_brackets
        (fun t ht => by simpa using hx t ht "[" (by simp))
        (fun t ht => by simpa using hy t ht "[" (by simp))
        (hx.subset (by simp)) (hy.subset (by simp)) h1
      exact ⟨rfl, rfl⟩

theorem literal_kind (t : Token) (h : t.kind = .ident ∨ t.kind = .number ∨ t.kind = .string) :
    t.kind ≠ .punct := by
  rcases h with h | h | h <;> simp [h]

theorem unambiguous_argument : Unambiguous Argument.tokens ["[", "&"] := by
  intro a b x y hx hy h
  simp only [Argument.tokens, List.append_assoc, List.cons_append] at h
  -- the words before the type are of kinds of their own
  have typeHead (a : Argument) (x : List Token) (t : Token)
      (ht : t ∈ (a.type.1 :: (a.declarator.tokens ++ x)).head?) : t.kind = .ident := by
    obtain rfl : a.type.1 = t := by simpa using ht
    exact a.type.2
  have directionHead (a : Argument) (x : List Token) (t : Token)
      (ht : t ∈ (perhaps Leaf.tokens a.direction ++ a.type.1 :: (a.declarator.tokens ++ x)).head?) :
      ¬ (t.kind = .cpu ∨ t.kind = .gpu) := by
    cases hd : a.direction with
    | none =>
      rw [hd] at ht
      simp [typeHead a x t ht]
    | some w =>
      obtain rfl : w.1 = t := by simpa [hd, perhaps, Leaf.tokens] using ht
      rcases w.2 with h | h | h <;> simp [h]
  obtain ⟨h1, h⟩ := unambiguous_leaf.perhaps startsWith_leaf (directionHead a x)
    (directionHead b y) (by simp [Clear]) (by simp [Clear]) h
  obtain ⟨h2, h⟩ := unambiguous_leaf.perhaps startsWith_leaf
    (fun t ht => by simp [typeHead a x t ht]) (fun t ht => by simp [typeHead b y t ht])
    (by simp [Clear]) (by simp [Clear]) h
  obtain ⟨h3, h⟩ := leaf_cons_inj h
  obtain ⟨h4, rfl⟩ := unambiguous_declarator literal_kind hx hy h
  exact ⟨by cases a; cases b; simp_all, rfl⟩

theorem startsWith_argument : StartsWith (fun t => t.kind ≠ .punct) Argument.tokens := by
  intro a
  cases hd : a.device with
  | some w =>
    refine ⟨w.1, _, by rw [Argument.tokens, hd]; rfl, ?_⟩
    rcases w.2 with h | h <;> simp [h]
  | none =>
    cases hi : a.direction with
    | some w =>
      refine ⟨w.1, _, by rw [Argument.tokens, hd, hi]; rfl, ?_⟩
      rcases w.2 with h | h | h <;> simp [h]
    | none => exact ⟨a.type.1, _, by rw [Argument.tokens, hd, hi]; rfl, by simp [a.type.2]⟩

theorem unambiguous_result : Unambiguous Result.tokens ["[", "&"] := by
  intro a b x y hx hy h
  obtain ⟨h1, h2⟩ := leaf_cons_inj h
  obtain ⟨h3, rfl⟩ := unambiguous_declarator (fun t ht => by simp [ht]) hx hy h2
  exact ⟨by cases a; cases b; simp_all, rfl⟩

theorem unambiguous_target : Unambiguous Target.tokens ["-"] := by
  have apart {k k' : TokenKind} (l : Word k) (l' : Word k') (hk : k ≠ k') : l.1 ≠ l'.1 :=
    fun h => hk (by rw [← l.2, h, l'.2])
  intro a b x y hx hy h
  -- The first token tells the rules apart, and of two that start with a name the dash does.
  cases a with
  | fortran w n =>
    cases b with
    | fortran w' n' =>
      obtain ⟨rfl, h1⟩ := leaf_cons_inj h
      obtain ⟨rfl, rfl⟩ := leaf_cons_inj h1
      exact ⟨rfl, rfl⟩
    | constructor w' n' => exact absurd (List.cons.inj h).1 (apart w w' (by decide))
    | plain n' => exact absurd (List.cons.inj h).1 (apart w n' (by decide))
    | method this => exact absurd (List.cons.inj h).1 (apart w this (by decide))
  | constructor w n =>
    cases b with
    | fortran w' n' => exact absurd (List.cons.inj h).1 (apart w w' (by decide))
    | constructor w' n' =>
      obtain ⟨rfl, h1⟩ := leaf_cons_inj h
      obtain ⟨rfl, rfl⟩ := leaf_cons_inj h1
      exact ⟨rfl, rfl⟩
    | plain n' => exact absurd (List.cons.inj h).1 (apart w n' (by decide))
    | method this => exact absurd (List.cons.inj h).1 (apart w this (by decide))
  | plain n =>
    cases b with
    | fortran w' n' => exact absurd (List.cons.inj h).1 (apart n w' (by decide))
    | constructor w' n' => exact absurd (List.cons.inj h).1 (apart n w' (by decide))
    | plain n' =>
      obtain ⟨rfl, rfl⟩ := leaf_cons_inj h
      exact ⟨rfl, rfl⟩
    | method this dash => exact absurd (List.cons.inj h).2 (hx.ne_sign (by simp) dash)
  | method this dash arrow owner dot n =>
    cases b with
    | fortran w' n' => exact absurd (List.cons.inj h).1 (apart this w' (by decide))
    | constructor w' n' => exact absurd (List.cons.inj h).1 (apart this w' (by decide))
    | plain n' => exact absurd (List.cons.inj h).2.symm (hy.ne_sign (by simp) dash)
    | method this' dash' arrow' owner' dot' n' =>
      obtain ⟨rfl, h1⟩ := leaf_cons_inj h
      obtain ⟨rfl, h2⟩ := leaf_cons_inj h1
      obtain ⟨rfl, h3⟩ := leaf_cons_inj h2
      obtain ⟨rfl, h4⟩ := leaf_cons_inj h3
      obtain ⟨rfl, h5⟩ := leaf_cons_inj h4
      obtain ⟨rfl, rfl⟩ := leaf_cons_inj h5
      exact ⟨rfl, rfl⟩

theorem unambiguous_invocation : Unambiguous Invocation.tokens [] := by
  intro a b x y hx hy h
  simp only [Invocation.tokens, List.append_assoc, List.cons_append, List.nil_append] at h
  have closed (l : Sign ")") (ts : List Token) :
      ∀ t ∈ (l.1 :: ts).head?, ¬ t.kind ≠ .punct := by
    intro t ht
    obtain rfl : l.1 = t := by simpa using ht
    simp [l.kind]
  obtain ⟨h1, h⟩ := unambiguous_target (Clear.sign _ _ (by decide)) (Clear.sign _ _ (by decide)) h
  obtain ⟨h2, h⟩ := leaf_cons_inj h
  obtain ⟨h3, h⟩ := (unambiguous_argument.commas (by decide)).perhaps startsWith_argument.commas
    (closed _ _) (closed _ _) (Clear.sign _ _ (by decide)) (Clear.sign _ _ (by decide)) h
  obtain ⟨h4, h⟩ := leaf_cons_inj h
  obtain ⟨h5, rfl⟩ := leaf_cons_inj h
  exact ⟨by cases a; cases b; simp_all, rfl⟩

theorem startsWith_target :
    StartsWith (fun t => t.kind = .fortran ∨ t.kind = .new ∨ t.kind = .ident) Target.tokens := by
  intro a
  cases a with
  | fortran w n => exact ⟨w.1, _, rfl, by simp [w.2]⟩
  | constructor w n => exact ⟨w.1, _, rfl, by simp [w.2]⟩
  | plain n => exact ⟨n.1, _, rfl, by simp [n.2]⟩
  | method this => exact ⟨this.1, _, rfl, by simp [this.2]⟩

theorem startsWith_invocation :
    StartsWith (fun t => t.kind = .fortran ∨ t.kind = .new ∨ t.kind = .ident)
      Invocation.tokens := by
  intro c
  obtain ⟨t, ts, e, ht⟩ := startsWith_target c.target
  exact ⟨t, _, by rw [Invocation.tokens, e]; rfl, ht⟩

/-- Behind the type of a returned value stands a mark or a name; behind the name of a function, a
parenthesis or the dash of an arrow. -/
theorem result_ne_invocation (v : Result) (c : Invocation) (x y : List Token) :
    v.tokens ++ x ≠ c.tokens ++ y := by
  have second : ∃ t ts, v.tokens ++ x = v.type.1 :: t :: ts ∧ t.isPunct "(" = false ∧
      t.isPunct "-" = false := by
    cases hd : v.declarator with
    | before m n =>
      have mark : ∃ t ts, m.tokens = t :: ts ∧ t.isPunct "(" = false ∧ t.isPunct "-" = false := by
        cases m with
        | pointer l =>
          exact ⟨l.1, _, rfl, isPunct_unique l.2 (by decide), isPunct_unique l.2 (by decide)⟩
        | reference l =>
          exact ⟨l.1, _, rfl, isPunct_unique l.2 (by decide), isPunct_unique l.2 (by decide)⟩
        | array b =>
          exact ⟨b.opening.1, _, rfl, isPunct_unique b.opening.2 (by decide),
            isPunct_unique b.opening.2 (by decide)⟩
      obtain ⟨t, ts, e, ht⟩ := mark
      exact ⟨t, _, by rw [Result.tokens, hd, Declarator.tokens, e]; rfl, ht⟩
    | behind n d =>
      have hn : n.1.kind ≠ .punct := by simp [n.2]
      exact ⟨n.1, _, by rw [Result.tokens, hd]; rfl, isPunct_eq_false hn, isPunct_eq_false hn⟩
  obtain ⟨t, ts, e, hopen, hdash⟩ := second
  intro h
  rw [e] at h
  have htype := v.type.2
  cases hc : c.target with
  | fortran w n =>
    simp only [Invocation.tokens, hc] at h
    have := w.2
    rw [← (List.cons.inj h).1, htype] at this
    cases this
  | constructor w n =>
    simp only [Invocation.tokens, hc] at h
    have := w.2
    rw [← (List.cons.inj h).1, htype] at this
    cases this
  | plain n =>
    simp only [Invocation.tokens, hc] at h
    have := c.opening.2
    rw [← (List.cons.inj (List.cons.inj h).2).1, hopen] at this
    cases this
  | method this dash =>
    simp only [Invocation.tokens, hc] at h
    have := dash.2
    rw [← (List.cons.inj (List.cons.inj h).2).1, hdash] at this
    cases this

/-- The kinds of token that a derivation of each rule may start with. -/
def Derivation.starts : Derivation → List TokenKind
  | .typedef .. => [.typedef]
  | .inherits .. => [.classWord]
  | .call _ | .assignment .. => [.fortran, .new, .ident]

theorem Derivation.start (d : Derivation) : ∃ t ts, d.tokens = t :: ts ∧ t.kind ∈ d.starts := by
  cases d with
  | typedef w => exact ⟨w.1, _, rfl, by simp [starts, w.2]⟩
  | inherits w => exact ⟨w.1, _, rfl, by simp [starts, w.2]⟩
  | call c =>
    obtain ⟨t, ts, e, ht⟩ := startsWith_invocation c
    exact ⟨t, ts, e, by simpa [starts] using ht⟩
  | assignment v => exact ⟨v.type.1, _, rfl, by simp [starts, v.type.2]⟩

/-- No tokens spell two derivations. -/
theorem unambiguous_derivation : Unambiguous Derivation.tokens [] := by
  intro a b x y hx hy h
  -- the rules start with kinds of their own, but for the last two
  have apart (hk : ∀ k ∈ a.starts, k ∉ b.starts) : False := by
    obtain ⟨t, ts, e, ht⟩ := a.start
    obtain ⟨t', ts', e', ht'⟩ := b.start
    rw [e, e'] at h
    exact hk _ ht ((List.cons.inj h).1 ▸ ht')
  cases a with
  | typedef w s n stop =>
    cases b with
    | typedef w' s' n' stop' =>
      obtain ⟨rfl, h1⟩ := leaf_cons_inj h
      obtain ⟨rfl, h2⟩ := leaf_cons_inj h1
      obtain ⟨rfl, h3⟩ := leaf_cons_inj h2
      obtain ⟨rfl, rfl⟩ := leaf_cons_inj h3
      exact ⟨rfl, rfl⟩
    | inherits | call | assignment => exact (apart (by simp [Derivation.starts])).elim
  | inherits w n colon ps stop =>
    cases b with
    | inherits w' n' colon' ps' stop' =>
      simp only [Derivation.tokens, List.append_assoc, List.cons_append, List.nil_append] at h
      obtain ⟨rfl, h1⟩ := leaf_cons_inj h
      obtain ⟨rfl, h2⟩ := leaf_cons_inj h1
      obtain ⟨rfl, h3⟩ := leaf_cons_inj h2
      obtain ⟨rfl, h4⟩ := (unambiguous_leaf.commas (by simp)) (Clear.sign stop _ (by decide))
        (Clear.sign stop' _ (by decide)) h3
      obtain ⟨rfl, rfl⟩ := leaf_cons_inj h4
      exact ⟨rfl, rfl⟩
    | typedef | call | assignment => exact (apart (by simp [Derivation.starts])).elim
  | call c =>
    cases b with
    | typedef | inherits => exact (apart (by simp [Derivation.starts])).elim
    | call c' =>
      obtain ⟨rfl, rfl⟩ := unambiguous_invocation hx hy h
      exact ⟨rfl, rfl⟩
    | assignment v equals c' =>
      simp only [Derivation.tokens, List.append_assoc] at h
      exact absurd h.symm (result_ne_invocation v c _ _)
  | assignment v equals c =>
    cases b with
    | typedef | inherits => exact (apart (by simp [Derivation.starts])).elim
    | call c' =>
      simp only [Derivation.tokens, List.append_assoc] at h
      exact absurd h (result_ne_invocation v c' _ _)
    | assignment v' equals' c' =>
      simp only [Derivation.tokens, List.append_assoc, List.cons_append] at h
      obtain ⟨rfl, h1⟩ := unambiguous_result (Clear.sign equals _ (by decide))
        (Clear.sign equals' _ (by decide)) h
      obtain ⟨rfl, h2⟩ := leaf_cons_inj h1
      obtain ⟨rfl, rfl⟩ := unambiguous_invocation hx hy h2
      exact ⟨rfl, rfl⟩

end MexBridge.Grammar
