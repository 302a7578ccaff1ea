import Mathlib.Data.List.Forall2
import MexBridge.Proofs.Statement.Parsing

/-!
# Renaming base types in declarations

The base types of the arguments and of the result of a declaration can be renamed in its derivation.
The tokens stay the same but for these names (`like_tokens`), and they spell the call with its types
renamed (`parse_retype`). `Retyped` is the relation on whole streams of tokens: statement by statement
the base types are renamed, and nothing else is.
-/

namespace MexBridge

/-- The routine with its base types renamed. -/
def Routine.retype (f : String → String) (r : Routine) : Routine :=
  { r with
    results := r.results.map fun v => { v with type := f v.type }
    args := r.args.map fun v => { v with type := f v.type } }

namespace Statement

def retype (f : String → String) : Statement → Statement
  | .call r => .call (r.retype f)
  | s => s

/-- The base types of a call. -/
def baseTypes : Statement → List String
  | .call r => r.baseTypes
  | _ => []

end Statement

/-- The same token but for the text of a name. -/
structure Token.Like (t t' : Token) : Prop where
  kind : t'.kind = t.kind
  other : t.kind ≠ .ident → t' = t

namespace Token.Like

variable {t t' : Token}

theorem refl (t : Token) : t.Like t := ⟨rfl, fun _ => rfl⟩

theorem same (ts : List Token) : List.Forall₂ Like ts ts := List.forall₂_same.2 fun t _ => refl t

theorem isPunct (h : t.Like t') (s : String) : t'.isPunct s = t.isPunct s := by
  by_cases hk : t.kind = .ident
  · have hne : t.kind ≠ .punct := by simp [hk]
    rw [Grammar.isPunct_eq_false hne, Grammar.isPunct_eq_false (h.kind ▸ hne)]
  · rw [h.other hk]

theorem inner (h : t.Like t') : Ledger.Inner t' ↔ Ledger.Inner t := by
  constructor
  · intro hi
    exact ⟨h.kind ▸ hi.line, h.kind ▸ hi.file, (h.isPunct ";").symm.trans hi.stop⟩
  · intro hi
    exact ⟨h.kind.symm ▸ hi.line, h.kind.symm ▸ hi.file, (h.isPunct ";").trans hi.stop⟩

end Token.Like

namespace Grammar

/-! ## Trees with other types -/

/-- A name renamed. -/
def renamed (f : String → String) (w : Word .ident) : Word .ident :=
  ⟨{ w.token with text := f w.token.text }, w.holds⟩

def Commas.map {α β : Type} (f : α → β) : Commas α → Commas β
  | .one a => .one (f a)
  | .more a comma rest => .more (f a) comma (rest.map f)

def Argument.retype (f : String → String) (a : Argument) : Argument :=
  { a with type := renamed f a.type }

def Result.retype (f : String → String) (v : Result) : Result := { v with type := renamed f v.type }

def Invocation.retype (f : String → String) (c : Invocation) : Invocation :=
  { c with args := c.args.map (Commas.map (Argument.retype f)) }

/-- The derivation with the base types of its arguments and of its result renamed. -/
def Derivation.retype (f : String → String) : Derivation → Derivation
  | .call c => .call (c.retype f)
  | .assignment v equals c => .assignment (v.retype f) equals (c.retype f)
  | d => d

section

variable (f : String → String)

theorem Commas.toList_map {α β : Type} (g : α → β) (c : Commas α) :
    (c.map g).toList = c.toList.map g := by
  induction c with
  | one a => rfl
  | more a comma rest ih => exact congrArg (g a :: ·) ih

theorem arguments_retype (c : Invocation) :
    (c.retype f).arguments = c.arguments.map fun v => { v with type := f v.type } := by
  unfold Invocation.arguments Invocation.retype
  cases c.args with
  | none => rfl
  | some args =>
    dsimp only [Option.map_some, Option.elim_some]
    rw [Commas.toList_map, List.map_map, List.map_map]
    rfl

theorem routine_retype (c : Invocation) (file : String) (line : Int) :
    (c.retype f).routine file line = (c.routine file line).retype f := by
  have hresults : (c.target.routine file line).results = [] := by
    cases c.target <;> rfl
  change { c.target.routine file line with args := (c.retype f).arguments } = _
  rw [arguments_retype]
  simp only [Routine.retype, Invocation.routine, hresults, List.map_nil]

theorem line_retype (d : Derivation) : (d.retype f).line = d.line := by
  cases d with
  | call c =>
    have htarget : ∃ t ts, c.target.tokens = t :: ts := by
      cases c.target <;> exact ⟨_, _, rfl⟩
    obtain ⟨t, ts, htarget⟩ := htarget
    simp [Derivation.line, Derivation.retype, Derivation.tokens, Invocation.tokens, Invocation.retype,
      htarget]
  | _ => rfl

/-- **It stands for the statement with its base types renamed.** -/
theorem statement_retype (file : String) (d : Derivation) :
    (d.retype f).statement file = (d.statement file).retype f := by
  have hline := line_retype f d
  cases d with
  | call c =>
    change Statement.call ((c.retype f).routine file (Derivation.line _)) = _
    rw [routine_retype]
    exact congrArg (fun n => Statement.call ((c.routine file n).retype f)) hline
  | assignment v equals c =>
    change Statement.call { (c.retype f).routine file (Derivation.line _) with
      results := [(v.retype f).variable] } = _
    rw [routine_retype]
    exact congrArg (fun n => Statement.call { (c.routine file n).retype f with
      results := [{ v.variable with type := f v.variable.type }] }) hline
  | _ => rfl

theorem parse_tokens (file : String) (d : Derivation) :
    Statement.parse file d.tokens = .ok (d.statement file) := by
  rw [Statement.parse, Statement.statement_tokens]
  rfl

theorem parse_retype (file : String) (d : Derivation) :
    Statement.parse file (d.retype f).tokens = .ok ((d.statement file).retype f) := by
  rw [parse_tokens, statement_retype]

/-- The base types of a call do not depend on where it stands. -/
theorem baseTypes_statement (file file' : String) (d : Derivation) :
    (d.statement file).baseTypes = (d.statement file').baseTypes := by
  cases d with
  | call c =>
    change (c.routine file _).baseTypes = (c.routine file' _).baseTypes
    unfold Invocation.routine
    cases c.target <;> rfl
  | _ => rfl

end

/-! ## The tokens of a statement -/

section

open Ledger (Inner)

theorem inner_word {t : Token} {k : TokenKind} (h : t.kind = k)
    (hk : k ≠ .otherLine ∧ k ≠ .eof ∧ k ≠ .punct) : Inner t :=
  ⟨h ▸ hk.1, h ▸ hk.2.1, isPunct_eq_false (h ▸ hk.2.2)⟩

theorem Sign.inner {s : String} (l : Sign s) (hs : s ≠ ";") : Inner l.1 :=
  ⟨by simp [l.kind], by simp [l.kind], isPunct_unique l.2 hs⟩

/-- Only inner tokens are spelled. -/
def Within {α : Type} (tokens : α → List Token) : Prop := ∀ a, ∀ t ∈ tokens a, Inner t

theorem within_leaf {P : Token → Prop} (h : ∀ t, P t → Inner t) :
    Within (Leaf.tokens (P := P)) := by
  intro l t ht
  obtain rfl := List.mem_singleton.1 ht
  exact h _ l.2

theorem within_word {k : TokenKind} (hk : k ≠ .otherLine ∧ k ≠ .eof ∧ k ≠ .punct) :
    Within (Leaf.tokens (P := fun t => t.kind = k)) := within_leaf fun _ h => inner_word h hk

variable {α : Type} {tokens : α → List Token}

theorem Within.perhaps (h : Within tokens) : Within (perhaps tokens) := by
  rintro (_ | a) t ht
  · cases ht
  · exact h a t ht

theorem Within.commas (h : Within tokens) : Within (Commas.tokens tokens) := by
  intro c
  induction c with
  | one a => exact h a
  | more a comma rest ih =>
    intro t ht
    rcases List.mem_append.1 ht with ht | ht
    · exact h a t ht
    · rcases List.mem_cons.1 ht with rfl | ht
      · exact comma.inner (by decide)
      · exact ih t ht

theorem within_brackets : Within Brackets.tokens := by
  have hextent : Within (Leaf.tokens (P := fun t => t.kind = .ident ∨ t.kind = .number)) :=
    within_leaf fun t h => h.elim (inner_word · (by decide)) (inner_word · (by decide))
  have hsign : Within (Leaf.tokens (P := fun t => t.isPunct "&" = true)) :=
    fun l t ht => List.mem_singleton.1 ht ▸ Sign.inner l (by decide)
  intro b t ht
  simp only [Brackets.tokens, List.mem_cons, List.mem_append] at ht
  rcases ht with rfl | ht | rfl | ht
  · exact b.opening.inner (by decide)
  · exact hextent.commas.perhaps _ t ht
  · exact b.closing.inner (by decide)
  · exact hsign.perhaps _ t ht

theorem within_marks : Within Marks.tokens := by
  intro m t ht
  cases m with
  | pointer star => exact List.mem_singleton.1 ht ▸ star.inner (by decide)
  | reference amp => exact List.mem_singleton.1 ht ▸ amp.inner (by decide)
  | array b => exact within_brackets b t ht

theorem within_declarator {P : Token → Prop} (h : ∀ t, P t → Inner t) :
    Within (Declarator.tokens (P := P)) := by
  intro d t ht
  cases d with
  | before marks name =>
    rcases List.mem_append.1 ht with ht | ht
    · exact within_marks marks t ht
    · exact List.mem_singleton.1 ht ▸ h _ name.2
  | behind name dims =>
    rcases List.mem_cons.1 ht with rfl | ht
    · exact h _ name.2
    · exact within_brackets.perhaps dims t ht

theorem within_argument : Within Argument.tokens := by
  have hdevice : Within (Leaf.tokens (P := fun t => t.kind = .cpu ∨ t.kind = .gpu)) :=
    within_leaf fun t h => h.elim (inner_word · (by decide)) (inner_word · (by decide))
  have hdirection : Within (Leaf.tokens
      (P := fun t => t.kind = .input ∨ t.kind = .output ∨ t.kind = .inout)) :=
    within_leaf fun t h => h.elim (inner_word · (by decide))
      (·.elim (inner_word · (by decide)) (inner_word · (by decide)))
  intro a t ht
  simp only [Argument.tokens, List.mem_cons, List.mem_append] at ht
  rcases ht with ht | ht | rfl | ht
  · exact hdevice.perhaps _ t ht
  · exact hdirection.perhaps _ t ht
  · exact inner_word a.type.2 (by decide)
  · exact within_declarator (fun t h => h.elim (inner_word · (by decide))
      (·.elim (inner_word · (by decide)) (inner_word · (by decide)))) _ t ht

theorem within_result : Within Result.tokens := by
  intro v t ht
  rcases List.mem_cons.1 ht with rfl | ht
  · exact inner_word v.type.2 (by decide)
  · exact within_declarator (fun t h => inner_word h (by decide)) _ t ht

theorem within_target : Within Target.tokens := by
  intro g t ht
  cases g with
  | fortran word name =>
    simp only [Target.tokens, List.mem_cons, List.not_mem_nil, or_false] at ht
    rcases ht with rfl | rfl
    · exact inner_word word.2 (by decide)
    · exact inner_word name.2 (by decide)
  | constructor word owner =>
    simp only [Target.tokens, List.mem_cons, List.not_mem_nil, or_false] at ht
    rcases ht with rfl | rfl
    · exact inner_word word.2 (by decide)
    · exact inner_word owner.2 (by decide)
  | plain name => exact List.mem_singleton.1 ht ▸ inner_word name.2 (by decide)
  | method this dash arrow owner dot name =>
    simp only [Target.tokens, List.mem_cons, List.not_mem_nil, or_false] at ht
    rcases ht with rfl | rfl | rfl | rfl | rfl | rfl
    · exact inner_word this.2 (by decide)
    · exact dash.inner (by decide)
    · exact arrow.inner (by decide)
    · exact inner_word owner.2 (by decide)
    · exact dot.inner (by decide)
    · exact inner_word name.2 (by decide)

theorem Invocation.tokens_eq (c : Invocation) : ∃ ts : List Token,
    c.tokens = ts ++ [c.stop.1] ∧ ∀ t ∈ ts, Inner t := by
  refine ⟨c.target.tokens ++ c.opening.1 :: (Grammar.perhaps (Commas.tokens Argument.tokens) c.args
    ++ [c.closing.1]), by simp [Invocation.tokens], ?_⟩
  intro t ht
  simp only [List.mem_append, List.mem_cons, List.not_mem_nil, or_false] at ht
  rcases ht with ht | rfl | ht | rfl
  · exact within_target _ t ht
  · exact c.opening.inner (by decide)
  · exact within_argument.commas.perhaps _ t ht
  · exact c.closing.inner (by decide)

/-- A statement is ended by its `;`, and has no other. -/
theorem Derivation.tokens_eq (d : Derivation) : ∃ (ts : List Token) (stop : Sign ";"),
    d.tokens = ts ++ [stop.1] ∧ ∀ t ∈ ts, Inner t := by
  cases d with
  | typedef word space name stop =>
    refine ⟨[word.1, space.1, name.1], stop, rfl, ?_⟩
    intro t ht
    simp only [List.mem_cons, List.not_mem_nil, or_false] at ht
    rcases ht with rfl | rfl | rfl
    · exact inner_word word.2 (by decide)
    · exact inner_word space.2 (by decide)
    · exact inner_word name.2 (by decide)
  | inherits word child colon parents stop =>
    refine ⟨word.1 :: child.1 :: colon.1 :: parents.tokens Leaf.tokens, stop, rfl, ?_⟩
    intro t ht
    simp only [List.mem_cons] at ht
    rcases ht with rfl | rfl | rfl | ht
    · exact inner_word word.2 (by decide)
    · exact inner_word child.2 (by decide)
    · exact colon.inner (by decide)
    · exact (within_word (by decide)).commas _ t ht
  | call c =>
    obtain ⟨ts, heq, hts⟩ := c.tokens_eq
    exact ⟨ts, c.stop, heq, hts⟩
  | assignment v equals c =>
    obtain ⟨ts, heq, hts⟩ := c.tokens_eq
    refine ⟨v.tokens ++ equals.1 :: ts, c.stop, by simp [Derivation.tokens, heq], ?_⟩
    intro t ht
    simp only [List.mem_append, List.mem_cons] at ht
    rcases ht with ht | rfl | ht
    · exact within_result v t ht
    · exact equals.inner (by decide)
    · exact hts t ht

end

/-! ## Renaming keeps the tokens but for the names -/

section

variable (f : String → String)

open Token (Like)

theorem like_renamed (w : Word .ident) : Like w.1 (renamed f w).1 := ⟨rfl, fun h => absurd w.2 h⟩

theorem like_argument (a : Argument) : List.Forall₂ Like a.tokens (a.retype f).tokens :=
  List.rel_append (Like.same _)
    (List.rel_append (Like.same _) (.cons (like_renamed f a.type) (Like.same _)))

theorem like_arguments (c : Commas Argument) : List.Forall₂ Like (c.tokens Argument.tokens)
    ((c.map (Argument.retype f)).tokens Argument.tokens) := by
  induction c with
  | one a => exact like_argument f a
  | more a comma rest ih => exact List.rel_append (like_argument f a) (.cons (.refl _) ih)

theorem like_invocation (c : Invocation) : List.Forall₂ Like c.tokens (c.retype f).tokens := by
  refine List.rel_append (Like.same _) (.cons (.refl _) (List.rel_append ?_ (Like.same _)))
  unfold Invocation.retype
  cases c.args with
  | none => exact .nil
  | some args => exact like_arguments f args

theorem like_tokens (d : Derivation) : List.Forall₂ Like d.tokens (d.retype f).tokens := by
  cases d with
  | call c => exact like_invocation f c
  | assignment v equals c =>
    exact List.rel_append (.cons (like_renamed f v.type) (Like.same _))
      (.cons (.refl _) (like_invocation f c))
  | _ => exact Like.same _

end

end Grammar

/-! ## Streams of tokens -/

/-- `us` are the tokens `ts` with the base types of all statements renamed. Every statement can be
derived; at the end of the stream one may be left unfinished. `types` are the base types met. -/
inductive Retyped (f : String → String) : List Token → List Token → List String → Prop
  | unfinished {ts us : List Token} (inner : ∀ t ∈ ts, Ledger.Inner t)
      (like : List.Forall₂ Token.Like ts us) : Retyped f ts us []
  | passed {t : Token} {ts us : List Token} {types : List String}
      (kind : t.kind = .otherLine ∨ t.kind = .eof) (rest : Retyped f ts us types) :
      Retyped f (t :: ts) (t :: us) types
  | statement (d : Grammar.Derivation) {ts us : List Token} {types : List String}
      (rest : Retyped f ts us types) :
      Retyped f (d.tokens ++ ts) ((d.retype f).tokens ++ us) ((d.statement "").baseTypes ++ types)

namespace Retyped

open Ledger (Inner)

variable {f : String → String} {ps qs ts us : List Token} {t u : Token} {types : List String}

theorem like (h : Retyped f ts us types) : List.Forall₂ Token.Like ts us := by
  induction h with
  | unfinished _ like => exact like
  | passed _ _ ih => exact .cons (.refl _) ih
  | statement d _ ih => exact List.rel_append (Grammar.like_tokens f d) ih

/-- Lists are cut in one way at their first token that is not an inner one. -/
theorem cut_unique {t t' : Token} {ps ps' ts ts' : List Token} (hps : ∀ p ∈ ps, Inner p)
    (hps' : ∀ p ∈ ps', Inner p) (ht : ¬ Inner t) (ht' : ¬ Inner t')
    (h : ps ++ t :: ts = ps' ++ t' :: ts') : ps = ps' ∧ t = t' ∧ ts = ts' := by
  induction ps generalizing ps' with
  | nil =>
    cases ps' with
    | nil =>
      obtain ⟨rfl, rfl⟩ := List.cons.inj h
      exact ⟨rfl, rfl, rfl⟩
    | cons p' ps' =>
      obtain ⟨rfl, -⟩ := List.cons.inj h
      exact absurd (hps' t (by simp)) ht
  | cons p ps ih =>
    cases ps' with
    | nil =>
      obtain ⟨rfl, -⟩ := List.cons.inj h
      exact absurd (hps p (by simp)) ht'
    | cons p' ps' =>
      obtain ⟨rfl, hrest⟩ := List.cons.inj h
      obtain ⟨rfl, rfl, rfl⟩ := ih (fun q hq => hps q (by simp [hq]))
        (fun q hq => hps' q (by simp [hq])) hrest
      exact ⟨rfl, rfl, rfl⟩

theorem not_inner_stop (h : t.isPunct ";" = true) : ¬ Inner t := fun ht => by
  rw [ht.stop] at h
  cases h

theorem not_inner_passed (h : t.kind = .otherLine ∨ t.kind = .eof) : ¬ Inner t :=
  fun ht => h.elim ht.line ht.file

/-- Up to the first `;` stands a statement with its base types renamed. -/
theorem at_stop (h : Retyped f (ps ++ t :: ts) (qs ++ u :: us) types) (hps : ∀ p ∈ ps, Inner p)
    (hlength : ps.length = qs.length) (ht : t.isPunct ";" = true) :
    ∃ d : Grammar.Derivation, ∃ rest, d.tokens = ps ++ [t] ∧ (d.retype f).tokens = qs ++ [u] ∧
      types = (d.statement "").baseTypes ++ rest ∧ Retyped f ts us rest := by
  generalize hall : ps ++ t :: ts = all at h
  generalize hall' : qs ++ u :: us = all' at h
  have hstop := not_inner_stop ht
  cases h with
  | unfinished inner _ => exact absurd (inner t (by simp [← hall])) hstop
  | passed kind rest =>
    obtain ⟨-, rfl, -⟩ := cut_unique hps (List.forall_mem_nil _) hstop (not_inner_passed kind) hall
    have := Grammar.kind_of_isPunct ht
    simp [this] at kind
  | @statement d ts' us' rest hrest =>
    obtain ⟨ds, stop, htokens, hds⟩ := d.tokens_eq
    rw [htokens, List.append_assoc] at hall
    obtain ⟨rfl, rfl, rfl⟩ := cut_unique hps hds hstop (not_inner_stop stop.2) hall
    have hsize := (Grammar.like_tokens f d).length_eq
    rw [htokens] at hsize
    have hcut : qs ++ [u] = (d.retype f).tokens ∧ us = us' :=
      List.append_inj (by simpa using hall') (by simp [← hsize, hlength])
    exact ⟨d, rest, htokens, hcut.1.symm, rfl, hcut.2 ▸ hrest⟩

/-- Between statements other lines and ends of files are kept. -/
theorem at_passed (h : Retyped f (ps ++ t :: ts) (qs ++ u :: us) types) (hps : ∀ p ∈ ps, Inner p)
    (hlength : ps.length = qs.length) (ht : t.kind = .otherLine ∨ t.kind = .eof) :
    ps = [] ∧ qs = [] ∧ u = t ∧ Retyped f ts us types := by
  generalize hall : ps ++ t :: ts = all at h
  generalize hall' : qs ++ u :: us = all' at h
  have hnot := not_inner_passed ht
  cases h with
  | unfinished inner _ => exact absurd (inner t (by simp [← hall])) hnot
  | passed kind rest =>
    obtain ⟨rfl, rfl, rfl⟩ := cut_unique hps (List.forall_mem_nil _) hnot (not_inner_passed kind) hall
    obtain rfl := List.length_eq_zero_iff.1 hlength.symm
    obtain ⟨rfl, rfl⟩ := List.cons.inj hall'
    exact ⟨rfl, rfl, rfl, rest⟩
  | statement d hrest =>
    obtain ⟨ds, stop, htokens, hds⟩ := d.tokens_eq
    rw [htokens, List.append_assoc] at hall
    obtain ⟨-, rfl, -⟩ := cut_unique hps hds hnot (not_inner_stop stop.2) hall
    simp [stop.kind] at ht

end Retyped

end MexBridge
