import MexBridge.Proofs.Ledger.Names

/-!
# Declared calls and what entering makes of them

A ledger promotes the types of a declared call, numbers its variables and gives them kinds. All of
that goes place by place (`becomes_checked`): what was written of a variable stays, but for the quotes
of a constant.
-/

namespace MexBridge

/-! ## Calls -/

/-- Tokens that stand in some text. -/
def Token.Read (ts : List Token) : Prop := ∀ t ∈ ts, ∃ line cs, t ∈ Token.tokens line cs

/-- A call parsed from tokens of text. -/
def Routine.Declared (r : Routine) : Prop :=
  ∃ file ts, Token.Read ts ∧ Statement.parse file ts = .ok (.call r)

/-- The text starts with a quote. -/
def Variable.isQuoted (v : Variable) : Bool := v.name.toList.head? == some '\''

namespace Grammar

/-- An argument of a call is spelled by some of its tokens. -/
theorem Invocation.exists_argument {c : Invocation} {v : Variable} (hv : v ∈ c.arguments) :
    ∃ a : Argument, a.variable = v ∧ ∀ t ∈ a.tokens, t ∈ c.tokens := by
  obtain ⟨a, ha, rfl⟩ := List.mem_map.1 hv
  refine ⟨a, rfl, fun t ht => ?_⟩
  cases hargs : c.args with
  | none => simp [hargs] at ha
  | some args =>
    rw [hargs] at ha
    have := Commas.mem_tokens (f := Argument.tokens) ha ht
    simp [Invocation.tokens, hargs, this]

/-- The token an argument has its name from. -/
theorem exists_literal {file : String} {ts : List Token} {r : Routine}
    (h : Statement.parse file ts = .ok (.call r)) {v : Variable} (hv : v ∈ r.args) :
    ∃ t ∈ ts, (t.kind = .ident ∨ t.kind = .number ∨ t.kind = .string) ∧ v.name = t.text := by
  obtain ⟨o, c, line, hts, rfl⟩ := exists_call h
  obtain ⟨a, rfl, ha⟩ := Invocation.exists_argument hv
  obtain ⟨t, ht, hkind, hname⟩ := a.declarator.exists_name
  have hta : t ∈ a.tokens := by simp [Argument.tokens, ht]
  exact ⟨t, hts t (List.mem_append_right _ (ha t hta)), hkind, hname⟩

end Grammar

namespace Routine.Declared

variable {r : Routine}

theorem written (h : r.Declared) : r.Written IsName := by
  obtain ⟨file, ts, hts, parsed⟩ := h
  refine Statement.written_of_parse (fun t ht hk => ?_) parsed
  obtain ⟨line, cs, ht⟩ := hts t ht
  exact Token.isName_tokens ht hk

theorem unknown (h : r.Declared) : ∀ v ∈ r.results ++ r.args, v.kind = .unknown := by
  obtain ⟨file, ts, -, parsed⟩ := h
  exact fun v hv => ((Grammar.spelledBy_of_parse parsed).1 v hv).kind

/-- A result can only have a name token for its name. -/
theorem isName_result (h : r.Declared) : ∀ v ∈ r.results, IsName v.name := by
  obtain ⟨file, ts, hts, parsed⟩ := h
  intro v hv
  obtain ⟨t, ht, hkind, hname⟩ := (Grammar.spelledBy_of_parse parsed).2 v hv
  obtain ⟨line, cs, ht⟩ := hts t ht
  exact hname ▸ Token.isName_tokens ht hkind

/-- An argument that is not quoted is named by a name or a number. -/
theorem isWord_arg (h : r.Declared) {v : Variable} (hv : v ∈ r.args) (hq : v.isQuoted = false) :
    IsWord v.name := by
  obtain ⟨file, ts, hts, parsed⟩ := h
  obtain ⟨t, ht, hkind, hname⟩ := Grammar.exists_literal parsed hv
  obtain ⟨line, cs, ht⟩ := hts t ht
  rw [hname]
  rcases hkind with hkind | hkind | hkind
  · exact (Token.tame_tokens ht).word (Or.inl hkind)
  · exact (Token.tame_tokens ht).word (Or.inr hkind)
  · rw [Variable.isQuoted, hname, Token.head_tokens_string ht hkind] at hq
    cases hq

end Routine.Declared

/-! ## Calls on file -/

namespace Ledger

variable {l : Ledger} {r : Routine}

theorem unknown_promote (h : r.Declared) (p : Promotion) :
    ∀ v ∈ (promote p r).results ++ (promote p r).args, v.kind = .unknown := by
  intro v hv
  simp only [promote, ← List.map_append, List.mem_map] at hv
  obtain ⟨u, hu, rfl⟩ := hv
  exact h.unknown u hu

/-- A declared call as it is filed, beside the call promoted. -/
theorem becomes_checked (h : r.Declared) (l : Ledger) :
    List.Forall₂ Variable.Becomes (promote l.context.settings.promotion r).results
        (l.checked r).value.results ∧
      List.Forall₂ Variable.Becomes (promote l.context.settings.promotion r).args
        (l.checked r).value.args :=
  Routine.becomes_check (r := { promote l.context.settings.promotion r with id := l.count + 1 })
    (unknown_promote h _)

theorem written_checked (h : r.Declared) (l : Ledger) : (l.checked r).value.Written IsName :=
  (written_promote (fun _ h => h.rename _) h.written (l.count + 1)).check _

/-- What is on file has its types promoted. -/
theorem promoted_checked (h : r.Declared) (l : Ledger) {v : Variable}
    (hv : v ∈ (l.checked r).value.results ++ (l.checked r).value.args) :
    l.context.settings.promotion.rename v.type = v.type := by
  have hpromoted := promoted_promote l.context.settings.promotion r
  obtain ⟨hresults, hargs⟩ := List.forall_mem_append.1 hpromoted
  obtain ⟨hrs, has⟩ := becomes_checked h l
  have hkept {u w : Variable} (hu : l.context.settings.promotion.rename u.type = u.type)
      (huw : u.Becomes w) : l.context.settings.promotion.rename w.type = w.type := by
    rw [huw.type]
    exact hu
  rcases List.mem_append.1 hv with hv | hv
  · exact forall_mem_of_forall₂ hrs (fun u hu _ => hkept (hresults u hu)) v hv
  · exact forall_mem_of_forall₂ has (fun u hu _ => hkept (hargs u hu)) v hv

end Ledger

/-! ## Constants -/

/-- No constant was given in quotes: `r` is as declared, `f` as filed. -/
def Routine.PlainConsts (r f : Routine) : Prop :=
  List.Forall₂ (fun v w : Variable => w.kind = .const → v.isQuoted = false) r.args f.args

theorem Variable.Becomes.name_of_plain {v w : Variable} (h : v.Becomes w)
    (hplain : w.kind = .const → v.isQuoted = false) : w.name = v.name := by
  rw [h.name]
  by_cases hk : w.kind = .const
  · have hq := hplain hk
    rw [if_pos hk, constName, if_neg]
    simpa [isQuoted] using hq
  · rw [if_neg hk]

/-- The arguments on file, beside those promoted: no name has changed. -/
theorem Ledger.plain_checked {r : Routine} {l : Ledger} (h : r.Declared)
    (hplain : r.PlainConsts (l.checked r).value) :
    List.Forall₂ (fun u w => u.Becomes w ∧ w.name = u.name ∧ (w.kind = .const → u.isQuoted = false))
      (promote l.context.settings.promotion r).args (l.checked r).value.args := by
  have hbecomes := (becomes_checked h l).2
  simp only [promote, List.forall₂_map_left_iff] at hbecomes ⊢
  exact List.Forall₂.mp (fun v w hvw huw => ⟨huw, huw.name_of_plain hvw, hvw⟩) hplain hbecomes

end MexBridge
