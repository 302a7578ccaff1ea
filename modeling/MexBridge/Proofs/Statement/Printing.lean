import MexBridge.Proofs.Statement.Retyping
import MexBridge.Proofs.Token.Relexing
import MexBridge.Routine.Printer

/-!
# Printed declarations

Every part of a printed declaration is taken apart into the tokens that some tree of the grammar
spells, and the tree stands for the part that was printed. There is one such lemma for each rule;
`Printable.exists_derivation` puts them together.
-/

namespace MexBridge

open Token (Single Lexes Cuts)

/-! ## What can be printed -/

/-- Marks that can be printed and read again. The mark of an array reference is not among them. -/
inductive Qualifier.Printable (q : Qualifier) : Prop
  | address (mark : q.mark = .pointer ∨ q.mark = .reference) (dims : q.dims = [])
  | array (mark : q.mark = .array) (dims : ∀ d ∈ q.dims,
      d.label = unlabelled ∧ ∃ k, (k = .ident ∨ k = .number) ∧ Single k d.text)

/-- A variable as it is parsed, of tokens that can be read again. -/
structure Variable.Printable (v : Variable) : Prop where
  type : Single .ident v.type
  device : v.device = .cpu ∨ v.device = .gpu
  direction : v.direction = .input ∨ v.direction = .output ∨ v.direction = .inout
  qualifier : ∀ q, v.qualifier = some q → q.Printable
  name : ∃ k, (k = .ident ∨ k = .number ∨ k = .string) ∧ Single k v.name
  fresh : v = { v with kind := .unknown, inLabel := unlabelled, outLabel := unlabelled }

structure Variable.PrintableResult (v : Variable) : Prop extends v.Printable where
  onCpu : v.device = .cpu
  output : v.direction = .output
  name_ : Single .ident v.name

/-- A function called by its name or on a receiver. -/
inductive Routine.PrintableCallee (r : Routine) : Prop
  | plain (receiver : r.receiver = none) (owner : r.owner = none) (name : Single .ident r.name)
  | method (this C : String) (receiver : r.receiver = some this) (owner : r.owner = some C)
      (this_ : Single .ident this) (class_ : Single .ident C) (name : Single .ident r.name)

structure Routine.Printable (r : Routine) : Prop where
  callee : r.PrintableCallee
  args : ∀ v ∈ r.args, v.Printable
  results : ∀ v ∈ r.results, v.PrintableResult
  single : r.results.length ≤ 1
  fortran : r.fortran = false

/-! ## The pieces of a printed text -/

namespace Variable

def deviceText (v : Variable) : List Char := if v.device = .gpu then "gpu ".toList else []

def directionText (v : Variable) : List Char :=
  if v.direction = .output then "output ".toList
  else if v.direction = .inout then "inout ".toList
  else []

theorem toList_argText (v : Variable) :
    v.argText.toList = v.deviceText ++ (v.directionText ++ v.text.toList) := by
  unfold argText deviceText directionText
  cases v.device <;> cases v.direction <;> simp

end Variable

namespace Routine

/-- A call behind its result. -/
def callText (r : Routine) : List Char :=
  r.head ++ '(' :: ((", ".intercalate (r.args.map (·.argText))).toList ++ [')', ';', '\n'])

theorem toList_text_eq (r : Routine) :
    r.text.toList = r.results.head?.elim [] (fun v => v.text.toList ++ [' ', '=', ' '])
      ++ r.callText := by
  unfold text callText head
  cases r.receiver? <;> cases r.results <;> simp

end Routine

namespace Grammar

/-! ## Signs and lists -/

variable {line : Int}

theorem isPunct_punct (line : Int) (s : String) : Token.isPunct ⟨.punct, s, line⟩ s = true := by
  simp [Token.isPunct]

/-- A mark as it is read on `line`. -/
def sign (line : Int) (s : String) : Sign s := ⟨⟨.punct, s, line⟩, isPunct_punct line s⟩

theorem cuts_sign {s : String} {c : Char} (hs : s.toList = [c]) (hc : Token.isPunctChar c = true)
    (hcolon : c ≠ ':') : Cuts line [c] [(sign line s).1] := by
  have htext : String.ofList [c] = s := by rw [← hs, String.ofList_toList]
  have hcuts : Cuts line [c] [⟨.punct, String.ofList [c], line⟩] := Token.cuts_mark hc hcolon
  rw [htext] at hcuts
  exact hcuts

/-- A mark with a blank behind it. -/
theorem cuts_sign_blank {s : String} {c : Char} (hs : s.toList = [c])
    (hc : Token.isPunctChar c = true) (hcolon : c ≠ ':') :
    Cuts line [c, ' '] [(sign line s).1] :=
  (cuts_sign hs hc hcolon).append (Token.cuts_blank (Or.inl rfl))

/-- What is printed item by item, with commas between, is read item by item. -/
theorem exists_commas {α β : Type} {φ : β → α} {text : α → String} {f : β → List Token}
    {xs : List α} (h : ∀ x ∈ xs, ∃ b, φ b = x ∧ Lexes line (text x).toList (f b)) (hne : xs ≠ []) :
    ∃ c : Commas β, c.toList.map φ = xs ∧
      Lexes line (", ".intercalate (xs.map text)).toList (c.tokens f) := by
  induction xs with
  | nil => exact absurd rfl hne
  | cons x xs ih =>
    obtain ⟨hx, hxs⟩ := List.forall_mem_cons.1 h
    obtain ⟨b, rfl, hb⟩ := hx
    cases xs with
    | nil => exact ⟨.one b, rfl, by simpa [Commas.tokens] using hb⟩
    | cons y ys =>
      obtain ⟨c, hc, hlexes⟩ := ih hxs (by simp)
      refine ⟨.more b (sign line ",") c, by rw [Commas.toList, List.map_cons, hc], ?_⟩
      have hcomma : Cuts line [',', ' '] [(sign line ",").1] :=
        cuts_sign_blank rfl (by decide) (by decide)
      have hjoined := (hb.cuts hcomma (by decide)).lexes hlexes
      simpa [Commas.tokens, String.intercalate_cons_cons] using hjoined

/-- As above, for a list that may be empty. -/
theorem exists_perhaps {α β : Type} {φ : β → α} {text : α → String} {f : β → List Token}
    {xs : List α} (h : ∀ x ∈ xs, ∃ b, φ b = x ∧ Lexes line (text x).toList (f b)) :
    ∃ o : Option (Commas β), (o.elim [] Commas.toList).map φ = xs ∧
      Lexes line (", ".intercalate (xs.map text)).toList (perhaps (Commas.tokens f) o) := by
  by_cases hne : xs = []
  · subst hne
    exact ⟨none, rfl, fun rest _ => by simp⟩
  · obtain ⟨c, hc, hlexes⟩ := exists_commas h hne
    exact ⟨some c, hc, hlexes⟩

/-! ## Variables -/

/-- A mark is read as printed, and its text goes on with no name. -/
theorem exists_marks {q : Qualifier} (h : q.Printable) (line : Int) : ∃ m : Marks,
    m.qualifier = q ∧ ∃ c s, q.text.toList = c :: s ∧ isNameChar c = false ∧
      Cuts line (c :: s) m.tokens := by
  obtain ⟨mark, dims⟩ := q
  cases h with
  | address hmark hdims =>
    dsimp only at hmark hdims
    subst hdims
    rcases hmark with rfl | rfl
    · exact ⟨.pointer (sign line "*"), rfl, '*', [], rfl, by decide,
        cuts_sign rfl (by decide) (by decide)⟩
    · exact ⟨.reference (sign line "&"), rfl, '&', [], rfl, by decide,
        cuts_sign rfl (by decide) (by decide)⟩
  | array hmark hdims =>
    dsimp only at hmark hdims
    subst hmark
    have hextents : ∀ d ∈ dims, ∃ e : Extent, ({ text := e.text } : Dim) = d ∧
        Lexes line d.text.toList (Leaf.tokens e) := by
      intro d hd
      obtain ⟨hlabel, k, hk, hsingle⟩ := hdims d hd
      refine ⟨⟨⟨k, d.text, line⟩, hk⟩, ?_, hsingle line⟩
      rw [← hlabel]
      rfl
    obtain ⟨o, ho, hlexes⟩ := exists_perhaps hextents
    refine ⟨.array ⟨sign line "[", o, sign line "]", none⟩, congrArg (Qualifier.mk .array) ho, '[',
      (", ".intercalate (dims.map (·.text))).toList ++ [']'], ?_, by decide, ?_⟩
    · simp [Qualifier.text]
    · have hopening : Cuts line ['['] [(sign line "[").1] :=
        cuts_sign rfl (by decide) (by decide)
      have hclosing : Cuts line [']'] [(sign line "]").1] :=
        cuts_sign rfl (by decide) (by decide)
      exact hopening.append (hlexes.cuts hclosing (by decide))

theorem exists_declarator {v : Variable} {P : Token → Prop} (htype : Single .ident v.type)
    (hq : ∀ q, v.qualifier = some q → q.Printable) {k : TokenKind} (hname : Single k v.name)
    (line : Int) (hP : P ⟨k, v.name, line⟩) : ∃ d : Declarator P,
      d.qualifier = v.qualifier ∧ d.name = v.name ∧
      Lexes line v.text.toList (⟨.ident, v.type, line⟩ :: d.tokens) := by
  have hblank : Cuts line [' '] [] := Token.cuts_blank (Or.inl rfl)
  cases hqualifier : v.qualifier with
  | none =>
    refine ⟨.behind ⟨_, hP⟩ none, rfl, rfl, ?_⟩
    have hjoined := ((htype line).cuts hblank (by decide)).lexes (hname line)
    simpa [Variable.text, hqualifier, Declarator.tokens] using hjoined
  | some q =>
    obtain ⟨m, hm, c, s, htext, hc, hcuts⟩ := exists_marks (hq q hqualifier) line
    refine ⟨.before m ⟨_, hP⟩, congrArg some hm, rfl, ?_⟩
    have hjoined := (((htype line).cuts hcuts hc).append hblank).lexes (hname line)
    simpa [Variable.text, hqualifier, htext, Declarator.tokens] using hjoined

/-- A word that stands for itself, with a blank behind it. -/
theorem cuts_word {k : TokenKind} {s : String} (h : Single k s) (line : Int) :
    Cuts line (s.toList ++ [' ']) [⟨k, s, line⟩] := by
  have hcuts := (h line).cuts (Token.cuts_blank (Or.inl rfl)) (by decide)
  simpa using hcuts

theorem single_keyword {k : TokenKind} {s : String}
    (h : (k, s) ∈ [(TokenKind.gpu, "gpu"), (.output, "output"), (.inout, "inout")]) :
    Single k s := by
  have hmem : (⟨k, s, 0⟩ : Token) ∈ Token.tokens 0 "gpu output inout".toList := by
    simp only [List.mem_cons, Prod.mk.injEq, List.not_mem_nil, or_false] at h
    rcases h with ⟨rfl, rfl⟩ | ⟨rfl, rfl⟩ | ⟨rfl, rfl⟩ <;> decide +kernel
  refine Token.single_of_mem hmem ?_
  rintro rfl
  simp at h

theorem exists_device {v : Variable} (h : v.device = .cpu ∨ v.device = .gpu) (line : Int) :
    ∃ w : Option DeviceWord, w.elim .cpu DeviceWord.device = v.device ∧
      Cuts line v.deviceText (perhaps Leaf.tokens w) := by
  unfold Variable.deviceText
  rcases h with h | h <;> rw [h]
  · exact ⟨none, rfl, Token.cuts_nil⟩
  · have hword : Single .gpu "gpu" := single_keyword (by simp)
    exact ⟨some ⟨⟨.gpu, "gpu", line⟩, Or.inr rfl⟩, rfl, cuts_word hword line⟩

theorem exists_direction {v : Variable}
    (h : v.direction = .input ∨ v.direction = .output ∨ v.direction = .inout) (line : Int) :
    ∃ w : Option DirectionWord, w.elim .input DirectionWord.direction = v.direction ∧
      Cuts line v.directionText (perhaps Leaf.tokens w) := by
  unfold Variable.directionText
  rcases h with h | h | h <;> rw [h]
  · exact ⟨none, rfl, Token.cuts_nil⟩
  · have hword : Single .output "output" := single_keyword (by simp)
    exact ⟨some ⟨⟨.output, "output", line⟩, Or.inr (Or.inl rfl)⟩, rfl, cuts_word hword line⟩
  · have hword : Single .inout "inout" := single_keyword (by simp)
    exact ⟨some ⟨⟨.inout, "inout", line⟩, Or.inr (Or.inr rfl)⟩, rfl, cuts_word hword line⟩

theorem exists_argument {v : Variable} (h : v.Printable) (line : Int) :
    ∃ a : Argument, a.variable = v ∧ Lexes line v.argText.toList a.tokens := by
  obtain ⟨k, hk, hname⟩ := h.name
  obtain ⟨w, hdevice, hw⟩ := exists_device h.device line
  obtain ⟨w', hdirection, hw'⟩ := exists_direction h.direction line
  obtain ⟨d, hq, hn, hd⟩ := exists_declarator (P := fun t => t.kind = .ident ∨ t.kind = .number ∨
    t.kind = .string) h.type h.qualifier hname line hk
  refine ⟨⟨w, w', ⟨⟨.ident, v.type, line⟩, rfl⟩, d⟩, ?_, ?_⟩
  · rw [h.fresh]
    simp only [Argument.variable, hdevice, hdirection, hq, hn]
    rfl
  · rw [Variable.toList_argText]
    exact hw.lexes (hw'.lexes hd)

theorem exists_result {v : Variable} (h : v.PrintableResult) (line : Int) :
    ∃ a : Result, a.variable = v ∧ Lexes line v.text.toList a.tokens := by
  obtain ⟨d, hq, hn, hd⟩ := exists_declarator (P := fun t => t.kind = .ident) h.type h.qualifier
    h.name_ line rfl
  refine ⟨⟨⟨⟨.ident, v.type, line⟩, rfl⟩, d⟩, ?_, hd⟩
  rw [h.fresh]
  simp only [Result.variable, h.onCpu, h.output, hq, hn]
  rfl

/-! ## Calls -/

theorem single_ne_empty {k : TokenKind} {s : String} (h : Single k s) : s ≠ "" := by
  rintro rfl
  have := h 0 [] (by simp [Stops])
  simp [Token.tokens] at this

theorem exists_target {r : Routine} (h : r.PrintableCallee) (line : Int) : ∃ t : Target,
    (∀ file n, t.routine file n
      = { receiver := r.receiver, owner := r.owner, name := r.name, file := file, line := n }) ∧
    Lexes line r.head t.tokens := by
  unfold Routine.head
  cases h with
  | plain receiver owner name =>
    refine ⟨.plain ⟨⟨.ident, r.name, line⟩, rfl⟩, fun file n => ?_, ?_⟩
    · rw [receiver, owner]
      rfl
    · have hnone : r.receiver? = none := by simp [Routine.receiver?, receiver]
      rw [hnone]
      simpa [Target.tokens] using name line
  | method this C receiver owner this_ class_ name =>
    refine ⟨.method ⟨⟨.ident, this, line⟩, rfl⟩ (sign line "-") (sign line ">")
      ⟨⟨.ident, C, line⟩, rfl⟩ (sign line ".") ⟨⟨.ident, r.name, line⟩, rfl⟩, fun file n => ?_, ?_⟩
    · rw [receiver, owner]
      rfl
    · have hsome : r.receiver? = some this := by
        simp [Routine.receiver?, receiver, single_ne_empty this_]
      have harrow : Cuts line ['-', '>'] [(sign line "-").1, (sign line ">").1] :=
        (cuts_sign (s := "-") rfl (by decide) (by decide)).append
          (cuts_sign rfl (by decide) (by decide))
      have hdot : Cuts line ['.'] [(sign line ".").1] := cuts_sign rfl (by decide) (by decide)
      have hjoined := (((this_ line).cuts harrow (by decide)).append
        ((class_ line).cuts hdot (by decide))).lexes (name line)
      simpa [hsome, Routine.ownerName, owner, Target.tokens] using hjoined

/-- A call with its `;`, which nothing can go on with. -/
theorem exists_invocation {r : Routine} (hcallee : r.PrintableCallee)
    (hargs : ∀ v ∈ r.args, v.Printable) (line : Int) : ∃ c : Invocation,
    (∀ file n, c.routine file n = { receiver := r.receiver, owner := r.owner, name := r.name
                                    file := file, line := n, args := r.args }) ∧
    Cuts line r.callText c.tokens := by
  obtain ⟨t, hroutine, ht⟩ := exists_target hcallee line
  have harguments : ∀ v ∈ r.args, ∃ a : Argument, a.variable = v ∧
      Lexes line v.argText.toList a.tokens := fun v hv => exists_argument (hargs v hv) line
  obtain ⟨o, ho, hlexes⟩ := exists_perhaps harguments
  refine ⟨⟨t, sign line "(", o, sign line ")", sign line ";"⟩, fun file n => ?_, ?_⟩
  · simp only [Invocation.routine, hroutine, Invocation.arguments, ho]
  · have hopening : Cuts line ['('] [(sign line "(").1] := cuts_sign rfl (by decide) (by decide)
    have hclosing : Cuts line [')', ';', '\n'] [(sign line ")").1, (sign line ";").1] :=
      (cuts_sign (s := ")") rfl (by decide) (by decide)).append
        ((cuts_sign (s := ";") rfl (by decide) (by decide)).append (Token.cuts_blank (Or.inr rfl)))
    have hjoined := (ht.cuts hopening (by decide)).append (hlexes.cuts hclosing (by decide))
    simpa [Invocation.tokens, Routine.callText] using hjoined

end Grammar

open Grammar in
/-- **A printed declaration is derived from the grammar**, and stands for what was printed. -/
theorem Routine.Printable.exists_derivation {r : Routine} (h : r.Printable) (file : String)
    (line : Int) : ∃ d : Derivation, Token.tokens line r.text.toList = d.tokens ∧
      d.statement file = .call { r with file := file, line := line, id := -1 } := by
  obtain ⟨c, hroutine, hcuts⟩ := exists_invocation h.callee h.args line
  have hline {d : Derivation} (hd : Token.tokens line r.text.toList = d.tokens)
      (hne : d.tokens ≠ []) : d.line = line := by
    obtain ⟨t, ts, hts⟩ := List.exists_cons_of_ne_nil hne
    have ht : t ∈ Token.tokens line r.text.toList := by simp [hd, hts]
    simp [Derivation.line, hts, Token.line_of_mem ht]
  have hr : r = { r with fortran := false } := by rw [← h.fortran]
  have hsingle := h.single
  cases hresults : r.results with
  | nil =>
    have htokens : Token.tokens line r.text.toList = (Derivation.call c).tokens := by
      have hall := hcuts []
      simpa [Routine.toList_text_eq, hresults, Derivation.tokens, Token.tokens] using hall
    refine ⟨.call c, htokens, ?_⟩
    have hline' := hline htokens (by simp [Derivation.tokens, Invocation.tokens])
    rw [Derivation.statement, hline', hroutine, hr]
  | cons v vs =>
    rw [hresults] at hsingle
    have hvs : vs = [] := List.eq_nil_of_length_eq_zero (by simpa using hsingle)
    subst hvs
    obtain ⟨a, ha, hlexes⟩ := exists_result (h.results v (by simp [hresults])) line
    have hequals : Cuts line [' ', '=', ' '] [(sign line "=").1] :=
      (Token.cuts_blank (Or.inl rfl)).append (cuts_sign_blank rfl (by decide) (by decide))
    have htokens : Token.tokens line r.text.toList
        = (Derivation.assignment a (sign line "=") c).tokens := by
      have hall := (hlexes.cuts hequals (by decide)).append hcuts []
      simpa [Routine.toList_text_eq, hresults, Derivation.tokens, Token.tokens] using hall
    refine ⟨.assignment a (sign line "=") c, htokens, ?_⟩
    have hline' := hline htokens (by simp [Derivation.tokens])
    rw [Derivation.statement, hline', hroutine, hr]
    simp only [ha]

end MexBridge
