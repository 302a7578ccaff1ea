import MexBridge.Proofs.Ledger.Accepted
import MexBridge.Proofs.Statement.Parsing
import MexBridge.Proofs.Stub.Sources

/-!
# Names that a run brings

Only name tokens get into the table of types, so all names in it are words (`worded_run`). A name of
a variable may be any token that a declaration can give, a quoted string too; but a constant loses
its quotes, and no token goes over the end of a line (`spelled_run`). Numbering the variables of a
routine and giving them kinds goes place by place (`becomes_check`).
-/

namespace MexBridge

/-! ## Tokens -/

/-- A text on one line, in which a `'` can only stand if one comes first. Names and numbers are
words. -/
structure Token.Tame (kind : TokenKind) (text : List Char) : Prop where
  line : '\n' ∉ text
  quoted : '\'' ∈ text → text.head? = some '\''
  word : kind = .ident ∨ kind = .number → ∀ c ∈ text, isNameChar c = true

namespace Token

theorem tame_of_forall {kind : TokenKind} {text : List Char} {P : Char → Bool}
    (h : ∀ c ∈ text, P c = true) (hline : P '\n' = false) (hquote : P '\'' = false)
    (hword : kind = .ident ∨ kind = .number → ∀ c, P c = true → isNameChar c = true) :
    Tame kind text := by
  have hne {x : Char} (hx : P x = false) : x ∉ text := by
    intro hmem
    rw [h x hmem] at hx
    cases hx
  exact ⟨hne hline, fun hmem => absurd hmem (hne hquote), fun hk c hc => hword hk c (h c hc)⟩

theorem isNameChar_of_isDigit {c : Char} (h : c.isDigit = true) : isNameChar c = true := by
  simp [isNameChar, isNameTail, Char.isAlphanum, h]

theorem tame_tokens {line : Int} {cs : List Char} {t : Token} (ht : t ∈ tokens line cs) :
    Tame t.kind t.text.toList := by
  have hbody {a : List Char} (ha : ∀ d ∈ a, isStringChar d = true) : '\n' ∉ a :=
    fun hmem => absurd (ha _ hmem) (by decide)
  rcases spelled_of_mem ht with (⟨named, -⟩ | ⟨-, digits, -⟩ | ⟨a, ha, htext, hk⟩ | ⟨c, hc, htext, hk⟩)
    | ⟨hk, a, htext, ha⟩
  · exact tame_of_forall named.chars (by decide) (by decide) fun _ _ h => h
  · exact tame_of_forall digits (by decide) (by decide) fun _ _ => isNameChar_of_isDigit
  · rw [htext]
    exact ⟨by simp [hbody ha], fun _ => rfl, by simp [hk]⟩
  · rw [htext, hk]
    exact tame_of_forall (P := isPunctChar) (by simpa using hc) (by decide) (by decide) (by simp)
  · rw [htext]
    exact ⟨by simp [hbody ha], fun _ => rfl, by simp [hk]⟩

end Token

/-! ## Statements -/

/-- A variable without a kind whose texts are those of tokens. -/
structure Variable.SpelledBy (ts : List Token) (v : Variable) : Prop where
  kind : v.kind = .unknown
  name : ∃ t ∈ ts, v.name = t.text
  dims : ∀ d ∈ v.dims, ∃ t ∈ ts, (t.kind = .ident ∨ t.kind = .number) ∧ d.text = t.text

theorem Variable.SpelledBy.subset {ts us : List Token} {v : Variable} (h : v.SpelledBy ts)
    (hsub : ∀ t ∈ ts, t ∈ us) : v.SpelledBy us := by
  obtain ⟨hkind, ⟨t, ht, hname⟩, hdims⟩ := h
  refine ⟨hkind, ⟨t, hsub t ht, hname⟩, fun d hd => ?_⟩
  obtain ⟨u, hu, htext⟩ := hdims d hd
  exact ⟨u, hsub u hu, htext⟩

namespace Grammar

theorem Commas.mem_tokens {α : Type} {f : α → List Token} {cs : Commas α} {a : α}
    (ha : a ∈ cs.toList) {t : Token} (ht : t ∈ f a) : t ∈ cs.tokens f := by
  induction cs with
  | one b =>
    obtain rfl := List.mem_singleton.1 ha
    exact ht
  | more b comma rest ih =>
    rcases List.mem_cons.1 ha with rfl | ha
    · exact List.mem_append_left _ ht
    · exact List.mem_append_right _ (List.mem_cons_of_mem _ (ih ha))

theorem Brackets.exists_dim {b : Brackets} {d : Dim} (hd : d ∈ b.qualifier.dims) :
    ∃ t ∈ b.tokens, (t.kind = .ident ∨ t.kind = .number) ∧ d.text = t.text := by
  obtain ⟨e, he, rfl⟩ := List.mem_map.1 hd
  refine ⟨e.1, ?_, e.2, rfl⟩
  cases hb : b.extents with
  | none => simp [hb] at he
  | some es =>
    rw [hb] at he
    have := Commas.mem_tokens (f := Leaf.tokens) he (List.mem_singleton_self _)
    simp [Brackets.tokens, hb, this]

namespace Declarator

variable {P : Token → Prop} (d : Declarator P)

theorem exists_name : ∃ t ∈ d.tokens, P t ∧ d.name = t.text := by
  cases d with
  | before marks name => exact ⟨name.1, by simp [tokens], name.2, rfl⟩
  | behind name dims => exact ⟨name.1, by simp [tokens], name.2, rfl⟩

theorem exists_dim {q : Qualifier} (hq : d.qualifier = some q) {x : Dim} (hx : x ∈ q.dims) :
    ∃ t ∈ d.tokens, (t.kind = .ident ∨ t.kind = .number) ∧ x.text = t.text := by
  cases d with
  | before marks name =>
    cases hq
    cases marks with
    | pointer star => cases hx
    | reference amp => cases hx
    | array b =>
      obtain ⟨t, ht, hdim⟩ := b.exists_dim hx
      exact ⟨t, by simp [tokens, Marks.tokens, ht], hdim⟩
  | behind name dims =>
    cases dims with
    | none => cases hq
    | some b =>
      cases hq
      obtain ⟨t, ht, hdim⟩ := b.exists_dim hx
      exact ⟨t, by simp [tokens, ht], hdim⟩

/-- A variable with this name and these marks. -/
theorem spelledBy {v : Variable} (hkind : v.kind = .unknown) (hname : v.name = d.name)
    (hq : v.qualifier = d.qualifier) : v.SpelledBy d.tokens := by
  obtain ⟨t, ht, -, htext⟩ := d.exists_name
  refine ⟨hkind, ⟨t, ht, hname.trans htext⟩, fun x hx => ?_⟩
  cases hv : v.qualifier with
  | none => simp [Variable.dims, hv] at hx
  | some q =>
    rw [Variable.dims, hv] at hx
    exact d.exists_dim (hq ▸ hv) hx

end Declarator

theorem Invocation.spelledBy {c : Invocation} {v : Variable} (hv : v ∈ c.arguments) :
    v.SpelledBy c.tokens := by
  obtain ⟨a, ha, rfl⟩ := List.mem_map.1 hv
  refine (a.declarator.spelledBy rfl rfl rfl).subset fun t ht => ?_
  have hta : t ∈ a.tokens := by simp [Argument.tokens, ht]
  cases hargs : c.args with
  | none => simp [hargs] at ha
  | some args =>
    rw [hargs] at ha
    have := Commas.mem_tokens (f := Argument.tokens) ha hta
    simp [Invocation.tokens, hargs, this]

theorem Target.results_routine (t : Target) (file : String) (line : Int) :
    (t.routine file line).results = [] := by
  cases t <;> rfl

/-- What is parsed was derived from some of the tokens. -/
theorem exists_derivation {file : String} {ts : List Token} {st : Statement}
    (h : Statement.parse file ts = .ok st) :
    ∃ d : Derivation, (∀ t ∈ d.tokens, t ∈ ts) ∧ d.statement file = st := by
  cases hs : Statement.statement file ts with
  | error e =>
    rw [Statement.parse, hs] at h
    cases h
  | ok x =>
    rw [Statement.parse, hs] at h
    cases h
    obtain ⟨d, rfl, hd⟩ := (Statement.recognizes_statement file).sound hs
    exact ⟨d, fun t ht => List.mem_append_left _ ht, hd⟩

/-- A call is parsed from a result, if it has one, and an invocation. -/
theorem exists_call {file : String} {ts : List Token} {r : Routine}
    (h : Statement.parse file ts = .ok (.call r)) :
    ∃ (o : Option Result) (c : Invocation) (line : Int),
      (∀ t ∈ perhaps Result.tokens o ++ c.tokens, t ∈ ts) ∧
      r = { c.routine file line with results := (o.map Result.variable).toList } := by
  obtain ⟨d, hts, hd⟩ := exists_derivation h
  cases d with
  | typedef word space name stop => cases hd
  | inherits word child colon parents stop => cases hd
  | call c =>
    cases hd
    refine ⟨none, c, (Derivation.call c).line, hts, ?_⟩
    have hnone : (c.routine file (Derivation.call c).line).results = [] :=
      c.target.results_routine ..
    rw [Option.map_none, Option.toList_none, ← hnone]
  | assignment result equals c =>
    cases hd
    refine ⟨some result, c, (Derivation.assignment result equals c).line, fun t ht => hts t ?_, rfl⟩
    simp only [perhaps_some, List.mem_append] at ht
    simp only [Derivation.tokens, List.mem_append, List.mem_cons]
    exact ht.imp_right Or.inr

/-- Only arguments can have another name than a name token. -/
theorem spelledBy_of_parse {file : String} {ts : List Token} {r : Routine}
    (h : Statement.parse file ts = .ok (.call r)) :
    (∀ v ∈ r.results ++ r.args, v.SpelledBy ts) ∧
      ∀ v ∈ r.results, ∃ t ∈ ts, t.kind = .ident ∧ v.name = t.text := by
  obtain ⟨o, c, line, hts, rfl⟩ := exists_call h
  have hargs : ∀ v ∈ (c.routine file line).args, v.SpelledBy ts := fun v hv =>
    (Invocation.spelledBy hv).subset fun t ht => hts t (List.mem_append_right _ ht)
  cases o with
  | none => exact ⟨hargs, by simp⟩
  | some result =>
    have hresult : ∀ t ∈ result.declarator.tokens, t ∈ ts := fun t ht =>
      hts t (by simp [Result.tokens, ht])
    refine ⟨List.forall_mem_cons.2 ⟨?_, hargs⟩, List.forall_mem_singleton.2 ?_⟩
    · exact (result.declarator.spelledBy rfl rfl rfl).subset hresult
    · obtain ⟨t, ht, hkind, hname⟩ := result.declarator.exists_name
      exact ⟨t, hresult t ht, hkind, hname⟩

end Grammar

/-! ## Labels and kinds -/

/-- `w` has the name of `v`, but for the quotes of a constant, and dimensions of the same texts. -/
structure Variable.Renders (v w : Variable) : Prop where
  name : w.name = if w.kind = .const then constName v.name else v.name
  dims : w.dims.map (·.text) = v.dims.map (·.text)

namespace Variable

variable {t : TypeTable} {u v w : Variable}

theorem Renders.trans (huv : u.Renders v) (hv : v.kind = .unknown) (hvw : v.Renders w) :
    u.Renders w := by
  have hname : v.name = u.name := by simpa [hv] using huv.name
  exact ⟨hname ▸ hvw.name, hvw.dims.trans huv.dims⟩

theorem renders_assign {f : Findings} (h : v.assign t = .ok (w, f))
    (hv : v.kind = .unknown) : v.Renders w := by
  refine ⟨?_, ?_⟩
  · unfold assign assignNumber assignObject at h
    grind
  · have hframe : w.frame.dims = v.frame.dims := by rw [frame_assign h]
    exact congrArg (List.map (·.text)) hframe

theorem Renders.toFortran (h : v.Renders w) : v.Renders w.toFortran.1 := by
  obtain ⟨hname, hdims⟩ := h
  refine ⟨?_, ?_⟩
  · unfold Variable.toFortran
    grind
  · have hframe : w.toFortran.1.frame.dims = w.frame.dims := by rw [frame_toFortran]
    exact (congrArg (List.map (·.text)) hframe).trans hdims

theorem map_text_labelDims (n : Int) (ds : List Dim) :
    (labelDims n ds).map (·.text) = ds.map (·.text) := by
  induction ds generalizing n with
  | nil => rfl
  | cons d ds ih => simp [labelDims, ih]

end Variable

/-! ## Place by place -/

theorem forall₂_comp {α : Type} {R S T : α → α → Prop} {as bs cs : List α}
    (hR : List.Forall₂ R as bs) (hS : List.Forall₂ S bs cs)
    (h : ∀ a b c, R a b → S b c → T a c) : List.Forall₂ T as cs := by
  induction hR generalizing cs with
  | nil =>
    cases hS
    exact .nil
  | cons hab _ ih =>
    cases hS with
    | cons hbc hS => exact .cons (h _ _ _ hab hbc) (ih hS)

/-- `w` is `v` with other labels and another kind. -/
structure Variable.Becomes (v w : Variable) : Prop extends v.Renders w where
  device : w.device = v.device
  direction : w.direction = v.direction
  type : w.type = v.type
  mark : w.qualifier.map (·.mark) = v.qualifier.map (·.mark)

namespace Variable

variable {t : TypeTable} {u v w : Variable}

theorem Becomes.trans (huv : u.Becomes v) (hv : v.kind = .unknown) (hvw : v.Becomes w) :
    u.Becomes w :=
  ⟨huv.toRenders.trans hv hvw.toRenders, hvw.device.trans huv.device,
    hvw.direction.trans huv.direction, hvw.type.trans huv.type, hvw.mark.trans huv.mark⟩

theorem Renders.becomes (h : v.Renders w) (hframe : w.frame = v.frame) : v.Becomes w := by
  simp only [frame, Variable.mk.injEq] at hframe
  obtain ⟨hdevice, hdirection, htype, hqualifier, -⟩ := hframe
  exact ⟨h, hdevice, hdirection, htype, by rw [hqualifier]⟩

/-- `w` is `v` with other labels, and without a kind yet. -/
def Relabels (v w : Variable) : Prop := v.Becomes w ∧ w.kind = .unknown

theorem Relabels.becomes (huv : u.Relabels v) (hvw : v.Becomes w) : u.Becomes w :=
  huv.1.trans huv.2 hvw

theorem Relabels.trans (huv : u.Relabels v) (hvw : v.Relabels w) : u.Relabels w :=
  ⟨huv.becomes hvw.1, hvw.2⟩

/-- A kind changes nothing else of a variable but the name of a constant. -/
theorem Relabels.checks (huv : u.Relabels v) (hvw : v.Checks t w) : u.Becomes w := by
  rcases hvw with rfl | ⟨cs, hw⟩
  · exact huv.1
  · exact huv.becomes ((renders_assign hw huv.2).becomes (frame_assign hw))

theorem relabels_labelVariables {vs : List Variable} (h : ∀ v ∈ vs, v.kind = .unknown) (i o : Int) :
    List.Forall₂ Relabels vs (labelVariables i o vs).1 := by
  induction vs generalizing i o with
  | nil => exact .nil
  | cons v vs ih =>
    obtain ⟨hv, hvs⟩ := List.forall_mem_cons.1 h
    exact .cons ⟨⟨⟨by simp [hv], rfl⟩, rfl, rfl, rfl, rfl⟩, hv⟩ (ih hvs _ _)

theorem relabels_labelAllDims {vs : List Variable} (h : ∀ v ∈ vs, v.kind = .unknown) (n : Int) :
    List.Forall₂ Relabels vs (labelAllDims n vs).1 := by
  induction vs generalizing n with
  | nil => exact .nil
  | cons v vs ih =>
    obtain ⟨hv, hvs⟩ := List.forall_mem_cons.1 h
    refine .cons ⟨⟨⟨by simp [hv], ?_⟩, rfl, rfl, rfl, ?_⟩, hv⟩ (ih hvs _)
    · cases hq : v.qualifier with
      | none => simp [dims, hq]
      | some q => simp [dims, hq, map_text_labelDims]
    · cases hq : v.qualifier <;> simp

theorem relabels_label {vs : List Variable} (h : ∀ v ∈ vs, v.kind = .unknown) (n i o : Int) :
    List.Forall₂ Relabels vs (labelAllDims n (labelVariables i o vs).1).1 := by
  refine forall₂_comp (relabels_labelVariables h i o) (relabels_labelAllDims (fun w hw => ?_) n)
    fun _ _ _ => Relabels.trans
  obtain ⟨v, hv, -, -, rfl⟩ := mem_labelVariables hw
  exact h v hv

end Variable

theorem becomes_toFortran {vs ws : List Variable} (h : List.Forall₂ Variable.Becomes vs ws) :
    List.Forall₂ Variable.Becomes vs (ws.map (·.toFortran.1)) := by
  induction h with
  | nil => exact .nil
  | @cons v w vs ws hvw _ ih =>
    have hframe := Variable.frame_toFortran w
    simp only [Variable.frame, Variable.mk.injEq] at hframe
    obtain ⟨hdevice, hdirection, htype, hqualifier, -⟩ := hframe
    refine .cons ⟨hvw.toRenders.toFortran, ?_, ?_, ?_, ?_⟩ ih
    · exact hdevice.trans hvw.device
    · exact hdirection.trans hvw.direction
    · exact htype.trans hvw.type
    · rw [hqualifier]
      exact hvw.mark

/-- **Checking goes place by place.** -/
theorem Routine.becomes_check {t : TypeTable} {r : Routine}
    (h : ∀ v ∈ r.results ++ r.args, v.kind = .unknown) :
    List.Forall₂ Variable.Becomes r.results (r.check t).value.results ∧
      List.Forall₂ Variable.Becomes r.args (r.check t).value.args := by
  obtain ⟨hresults, hargs⟩ := List.forall_mem_append.1 h
  have hnumbered : List.Forall₂ Variable.Relabels r.results r.labelled.results ∧
      List.Forall₂ Variable.Relabels r.args r.labelled.args :=
    ⟨Variable.relabels_label hresults _ _ _, Variable.relabels_label hargs _ _ _⟩
  have hrs : List.Forall₂ Variable.Becomes r.results (checkResults t r.labelled.results).value :=
    forall₂_comp hnumbered.1 checks_checkResults fun _ _ _ => Variable.Relabels.checks
  have has : List.Forall₂ Variable.Becomes r.args (checkArgs t r.labelled.args).value :=
    forall₂_comp hnumbered.2 checks_checkArgs fun _ _ _ => Variable.Relabels.checks
  unfold check
  dsimp only
  split
  · exact ⟨hrs, hnumbered.2.imp fun _ _ h => h.1⟩
  split
  · exact ⟨hrs, has⟩
  unfold checkFortran
  split
  · refine ⟨hrs, ?_⟩
    simp only [List.map_map]
    exact becomes_toFortran has
  · exact ⟨hrs, has⟩

/-- Checking a routine changes names and dimensions no further. -/
theorem Routine.renders_check {t : TypeTable} {r : Routine}
    (h : ∀ v ∈ r.results ++ r.args, v.kind = .unknown) :
    (∀ w ∈ (r.check t).value.results, ∃ v ∈ r.results, v.Renders w) ∧
      ∀ w ∈ (r.check t).value.args, ∃ v ∈ r.args, v.Renders w := by
  obtain ⟨hrs, has⟩ := becomes_check (t := t) h
  exact ⟨forall_mem_of_forall₂ hrs fun v hv w hvw => ⟨v, hv, hvw.toRenders⟩,
    forall_mem_of_forall₂ has fun v hv w hvw => ⟨v, hv, hvw.toRenders⟩⟩

/-! ## Names on file -/

/-- What tokens leave of the names and dimensions of a routine: names of results and dimensions are
words, no name has the end of a line in it, and no constant a quote. -/
structure Routine.Spelled (r : Routine) : Prop where
  results : ∀ v ∈ r.results, IsWord v.name
  dims : ∀ v ∈ r.results ++ r.args, ∀ d ∈ v.dims, IsWord d.text
  line : ∀ v ∈ r.args, '\n' ∉ v.name.toList
  quote : ∀ v ∈ r.args, v.kind = .const → '\'' ∉ v.name.toList

namespace Variable

variable {v w : Variable}

theorem mem_constName {s : String} {c : Char} (h : c ∈ (constName s).toList) : c ∈ s.toList := by
  unfold constName at h
  split at h
  · rw [String.toList_ofList] at h
    exact (List.mem_filter.1 h).1
  · exact h

theorem Renders.mem_name (h : v.Renders w) {c : Char} (hc : c ∈ w.name.toList) :
    c ∈ v.name.toList := by
  rw [h.name] at hc
  split at hc
  · exact mem_constName hc
  · exact hc

theorem Renders.exists_dim (h : v.Renders w) {d : Dim} (hd : d ∈ w.dims) :
    ∃ e ∈ v.dims, d.text = e.text := by
  have hmem : d.text ∈ v.dims.map (·.text) := h.dims ▸ List.mem_map_of_mem hd
  obtain ⟨e, he, htext⟩ := List.mem_map.1 hmem
  exact ⟨e, he, htext.symm⟩

/-- A constant loses its quotes, and only a token that starts with one has any. -/
theorem quote_constName {kind : TokenKind} {s : String} (h : Token.Tame kind s.toList) :
    '\'' ∉ (constName s).toList := by
  unfold constName
  split
  · rw [String.toList_ofList]
    simp
  · rename_i hhead
    exact fun hmem => hhead (h.quoted hmem)

end Variable

theorem Routine.spelled_check {t : TypeTable} {r : Routine} {ts : List Token}
    (hts : ∀ u ∈ ts, Token.Tame u.kind u.text.toList)
    (h : ∀ v ∈ r.results ++ r.args, v.SpelledBy ts)
    (hresults : ∀ v ∈ r.results, ∃ u ∈ ts, u.kind = .ident ∧ v.name = u.text) :
    (r.check t).value.Spelled := by
  obtain ⟨hrs, has⟩ := renders_check (t := t) fun v hv => (h v hv).kind
  refine ⟨fun w hw c hc => ?_, fun w hw d hd => ?_, fun w hw hline => ?_, fun w hw hconst => ?_⟩
  · obtain ⟨v, hv, hvw⟩ := hrs w hw
    obtain ⟨u, hu, hkind, hname⟩ := hresults v hv
    exact (hts u hu).word (Or.inl hkind) c (hname ▸ hvw.mem_name hc)
  · have hfrom : ∃ v ∈ r.results ++ r.args, v.Renders w := by
      rcases List.mem_append.1 hw with hw | hw
      · obtain ⟨v, hv, hvw⟩ := hrs w hw
        exact ⟨v, List.mem_append_left _ hv, hvw⟩
      · obtain ⟨v, hv, hvw⟩ := has w hw
        exact ⟨v, List.mem_append_right _ hv, hvw⟩
    obtain ⟨v, hv, hvw⟩ := hfrom
    obtain ⟨e, he, htext⟩ := hvw.exists_dim hd
    obtain ⟨u, hu, hkind, hdim⟩ := (h v hv).dims e he
    rw [htext, hdim]
    exact (hts u hu).word hkind
  · obtain ⟨v, hv, hvw⟩ := has w hw
    obtain ⟨u, hu, hname⟩ := (h v (List.mem_append_right _ hv)).name
    exact (hts u hu).line (hname ▸ hvw.mem_name hline)
  · obtain ⟨v, hv, hvw⟩ := has w hw
    obtain ⟨u, hu, hname⟩ := (h v (List.mem_append_right _ hv)).name
    rw [hvw.name, if_pos hconst, hname]
    exact Variable.quote_constName (hts u hu)

namespace Ledger

/-- **Names and dimensions are spelled as tokens can be.** -/
theorem spelled_run {mex : String} {c : Context} {es : List Event} (hes : Lexed es)
    (h : (run mex { context := c } es).errors + (run mex { context := c } es).typeErrors = 0) :
    ∀ r ∈ (run mex { context := c } es).routines, r.Spelled := by
  have htame : ∀ file t, Event.token file t ∈ es → Token.Tame t.kind t.text.toList := by
    intro file t ht
    obtain ⟨line, cs, ht⟩ := hes file t ht
    exact Token.tame_tokens ht
  refine routines_run htame (fun l file ts r hset hts parsed h0 => ?_) h
  obtain ⟨hspelled, hresults⟩ := Grammar.spelledBy_of_parse parsed
  -- promotion changes types only
  refine Routine.spelled_check hts (fun v hv => ?_) fun v hv => ?_
  · simp only [promote, ← List.map_append, List.mem_map] at hv
    obtain ⟨u, hu, rfl⟩ := hv
    obtain ⟨hkind, hname, hdims⟩ := hspelled u hu
    exact ⟨hkind, hname, hdims⟩
  · obtain ⟨u, hu, rfl⟩ := List.mem_map.1 hv
    exact hresults u hu

end Ledger

/-! ## Types -/

/-- All names of numeric types and of classes are words. -/
structure TypeTable.Worded (t : TypeTable) : Prop where
  numbers : ∀ n ∈ t.scalars ++ t.cscalars ++ t.zscalars, IsWord n
  classes : ∀ x ∈ t.classes, IsWord x.1 ∧ ∀ n ∈ x.2, IsWord n

namespace TypeTable

variable {t : TypeTable}

theorem Worded.add (h : t.Worded) {n : String} (hn : IsWord n) (s : TypeSpace) :
    (t.add n s).Worded := by
  obtain ⟨hnumbers, hclasses⟩ := h
  have hname {names : List String} (hnames : ∀ m ∈ names, IsWord m) :
      ∀ m ∈ addName names n, IsWord m := by
    intro m hm
    rcases mem_addName.1 hm with hm | rfl
    · exact hnames m hm
    · exact hn
  simp only [List.forall_mem_append] at hnumbers
  obtain ⟨⟨hscalars, hcscalars⟩, hzscalars⟩ := hnumbers
  cases s <;> refine ⟨?_, hclasses⟩ <;> simp only [List.forall_mem_append]
  · exact ⟨⟨hname hscalars, hcscalars⟩, hzscalars⟩
  · exact ⟨⟨hscalars, hcscalars⟩, hname hzscalars⟩
  · exact ⟨⟨hscalars, hname hcscalars⟩, hzscalars⟩
  · exact ⟨⟨hscalars, hcscalars⟩, hzscalars⟩

theorem worded_addChild {child parent : String} {classes : List (String × List String)}
    (h : ∀ x ∈ classes, IsWord x.1 ∧ ∀ n ∈ x.2, IsWord n) (hchild : IsWord child)
    (hparent : IsWord parent) :
    ∀ x ∈ addChild child classes parent, IsWord x.1 ∧ ∀ n ∈ x.2, IsWord n := by
  fun_induction addChild child classes parent with
  | case1 parent => simpa using ⟨hparent, hchild⟩
  | case2 cs rest parent =>
    obtain ⟨hp, hrest⟩ := List.forall_mem_cons.1 h
    exact List.forall_mem_cons.2 ⟨⟨hp.1, List.forall_mem_cons.2 ⟨hchild, hp.2⟩⟩, hrest⟩
  | case3 p cs rest parent hne ih =>
    obtain ⟨hp, hrest⟩ := List.forall_mem_cons.1 h
    exact List.forall_mem_cons.2 ⟨hp, ih hrest hparent⟩

theorem Worded.inherits (h : t.Worded) {child : String} {parents : List String}
    (hchild : IsWord child) (hparents : ∀ n ∈ parents, IsWord n) :
    (t.inherits child parents).Worded := by
  refine ⟨h.numbers, ?_⟩
  have hclasses := h.classes
  unfold TypeTable.inherits
  dsimp only
  generalize t.classes = classes at hclasses
  induction parents generalizing classes with
  | nil => exact hclasses
  | cons p ps ih =>
    obtain ⟨hp, hps⟩ := List.forall_mem_cons.1 hparents
    exact ih hps _ (worded_addChild hclasses hchild hp)

end TypeTable

theorem Context.worded_ofSettings (s : Settings) : (Context.ofSettings s).types.Worded := by
  have hnone : ∀ x ∈ ([] : List (String × List String)), IsWord x.1 ∧ ∀ n ∈ x.2, IsWord n := by simp
  unfold ofSettings
  dsimp only
  split
  · exact ⟨by decide, hnone⟩
  · exact ⟨by decide, hnone⟩

namespace Ledger

variable {mex file : String} {l : Ledger} {e : Event} {es : List Event}

theorem worded_enterTokens {ts : List Token} (h : l.context.types.Worded)
    (hts : ∀ t ∈ ts, t.kind = .ident → IsName t.text) :
    (l.enterTokens mex file ts).1.context.types.Worded := by
  unfold enterTokens
  split
  · rename_i st parsed
    obtain ⟨d, hd, rfl⟩ := Grammar.exists_derivation parsed
    have hword (w : Grammar.Word .ident) (hw : w.1 ∈ d.tokens) : IsWord w.text :=
      (hts w.1 (hd w.1 hw) w.2).chars
    cases d with
    | typedef word space name stop =>
      have hname := hword name (by simp [Grammar.Derivation.tokens])
      simp only [Grammar.Derivation.statement, enterStatement]
      split
      · exact h.add hname _
      · exact h
    | inherits word child colon parents stop =>
      have hchild := hword child (by simp [Grammar.Derivation.tokens])
      refine h.inherits hchild ?_
      intro n hn
      obtain ⟨w, hw, rfl⟩ := List.mem_map.1 hn
      have hmem := Grammar.Commas.mem_tokens (f := Grammar.Leaf.tokens) hw
        (List.mem_singleton_self _)
      exact hword w (by simp [Grammar.Derivation.tokens, hmem])
    | call c => exact h
    | assignment result equals c => exact h
  · exact h

theorem worded_enter (h : l.context.types.Worded)
    (hseen : ∀ t, l.Seen e t → t.kind = .ident → IsName t.text) :
    (l.enter mex e).1.context.types.Worded := by
  rcases enter_cases mex l e with ⟨file, t, rfl, -, henter⟩ | ⟨-, -, hcontext⟩
  · rw [henter]
    refine worded_enterTokens (l := { l with pending := [] }) h fun u hu => hseen u ?_
    rcases List.mem_append.1 hu with hu | hu
    · exact Or.inl hu
    · exact Or.inr ⟨file, by rw [List.mem_singleton.1 hu]⟩
  · rwa [hcontext]

/-- All names of types are words, and the name tokens that wait for the end of their statement are
names. -/
structure Legible (l : Ledger) : Prop where
  types : l.context.types.Worded
  pending : ∀ t ∈ l.pending, t.kind = .ident → IsName t.text

theorem Legible.enter (h : l.Legible)
    (he : ∀ file t, e = .token file t → t.kind = .ident → IsName t.text) :
    (l.enter mex e).1.Legible := by
  have hseen : ∀ t, l.Seen e t → t.kind = .ident → IsName t.text := by
    rintro t (ht | ⟨file, heq⟩)
    · exact h.pending t ht
    · exact he file t heq
  refine ⟨worded_enter h.types hseen, ?_⟩
  cases move_enter mex l e with
  | quiet hquiet pending => exact fun t ht => hseen t (pending t ht)
  | entered file ts r parsed seen hentered pending => simp [pending]

theorem Legible.run (h : l.Legible)
    (hes : ∀ file t, .token file t ∈ es → t.kind = .ident → IsName t.text) :
    (l.run mex es).Legible := by
  induction es generalizing l with
  | nil => exact h
  | cons e es ih =>
    refine ih (h.enter fun file t heq => hes file t ?_) fun file t ht => hes file t ?_
    · rw [heq]
      exact List.mem_cons_self ..
    · exact List.mem_cons_of_mem _ ht

/-- **All names of types are words,** if those known at the start are. -/
theorem worded_run (hes : Lexed es) (hl : ∀ t ∈ l.pending, t.kind = .ident → IsName t.text)
    (h : l.context.types.Worded) : (run mex l es).context.types.Worded := by
  refine (Legible.run ⟨h, hl⟩ fun file t ht hk => ?_).types
  obtain ⟨line, cs, hmem⟩ := hes file t ht
  exact Token.isName_tokens hmem hk

end Ledger

end MexBridge
