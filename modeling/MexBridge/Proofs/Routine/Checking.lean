import MexBridge.Proofs.Statement.Written
import Mathlib.Data.List.Forall2

/-!
# What checking without errors says

Checking gives each variable a kind and changes nothing else of it but the name of a constant. If
no error is counted, every variable of a written routine got its kind without a complaint and broke
none of the rules on results and arguments (`checked_of_errors`).
-/

namespace MexBridge

/-- A variable without what checking gives it. -/
def Variable.frame (v : Variable) : Variable := { v with kind := .unknown, name := "" }

theorem Variable.Written.of_frame {Q : String → Prop} {v w : Variable} (h : v.Written Q)
    (e : v.frame = w.frame) : w.Written Q := by
  obtain ⟨ht, hd, hio, hq, hin, hout⟩ := h
  simp only [frame, Variable.mk.injEq] at e
  obtain ⟨e1, e2, e3, e4, -, -, e5, e6⟩ := e
  exact ⟨e3 ▸ ht, e1 ▸ hd, e2 ▸ hio, e4 ▸ hq, e2 ▸ e5 ▸ hin, e2 ▸ e6 ▸ hout⟩

theorem Variable.WrittenResult.of_frame {Q : String → Prop} {v w : Variable}
    (h : v.WrittenResult Q) (e : v.frame = w.frame) : w.WrittenResult Q := by
  have hw := h.toWritten.of_frame e
  simp only [frame, Variable.mk.injEq] at e
  exact ⟨hw, e.2.1 ▸ h.output, e.1 ▸ h.onCpu⟩

/-! ## Labelling keeps the written form -/

theorem mem_labelVariables {i o : Int} {vs : List Variable} {w : Variable}
    (h : w ∈ (labelVariables i o vs).1) :
    ∃ v ∈ vs, ∃ i o, w = { v with
      inLabel := if v.direction.isInput then i else v.inLabel
      outLabel := if v.direction.isOutput then o else v.outLabel } := by
  induction vs generalizing i o with
  | nil => simp [labelVariables] at h
  | cons v vs ih =>
    rcases List.mem_cons.1 h with rfl | h
    · exact ⟨v, by simp, _, _, rfl⟩
    · obtain ⟨u, hu, i, o, rfl⟩ := ih h
      exact ⟨u, by simp [hu], i, o, rfl⟩

theorem mem_labelAllDims {n : Int} {vs : List Variable} {w : Variable}
    (h : w ∈ (labelAllDims n vs).1) :
    ∃ v ∈ vs, ∃ n, w = { v with
      qualifier := v.qualifier.map fun q => { q with dims := labelDims n q.dims } } := by
  induction vs generalizing n with
  | nil => simp [labelAllDims] at h
  | cons v vs ih =>
    rcases List.mem_cons.1 h with rfl | h
    · exact ⟨v, by simp, n, rfl⟩
    · obtain ⟨u, hu, n, rfl⟩ := ih h
      exact ⟨u, by simp [hu], n, rfl⟩

theorem length_labelVariables (i o : Int) (vs : List Variable) :
    (labelVariables i o vs).1.length = vs.length := by
  induction vs generalizing i o with
  | nil => rfl
  | cons v vs ih => simp [labelVariables, ih]

theorem length_labelAllDims (n : Int) (vs : List Variable) :
    (labelAllDims n vs).1.length = vs.length := by
  induction vs generalizing n with
  | nil => rfl
  | cons v vs ih => simp [labelAllDims, ih]

theorem type_labelVariables (i o : Int) (vs : List Variable) :
    (labelVariables i o vs).1.map (·.type) = vs.map (·.type) := by
  induction vs generalizing i o with
  | nil => rfl
  | cons v vs ih => simp [labelVariables, ih]

theorem type_labelAllDims (n : Int) (vs : List Variable) :
    (labelAllDims n vs).1.map (·.type) = vs.map (·.type) := by
  induction vs generalizing n with
  | nil => rfl
  | cons v vs ih => simp [labelAllDims, ih]

section

variable {Q : String → Prop}

theorem Variable.Written.labelled {v : Variable} (h : v.Written Q) (i o : Int) :
    Variable.Written Q { v with
      inLabel := if v.direction.isInput then i else v.inLabel
      outLabel := if v.direction.isOutput then o else v.outLabel } :=
  ⟨h.type, h.device, h.direction, h.qualifier, fun e => by simp [e, h.inLabel e],
    fun e => by simp [e, h.outLabel e]⟩

theorem Variable.Written.sized {v : Variable} (h : v.Written Q) (n : Int) :
    Variable.Written Q { v with
      qualifier := v.qualifier.map fun q => { q with dims := labelDims n q.dims } } := by
  refine ⟨h.type, h.device, h.direction, ?_, h.inLabel, h.outLabel⟩
  intro q hq
  obtain ⟨q', hq', rfl⟩ := Option.map_eq_some_iff.1 hq
  rcases h.qualifier q' hq' with hm | hm | ⟨hm, hdims⟩
  · exact Or.inl hm
  · exact Or.inr (Or.inl hm)
  · exact Or.inr (Or.inr ⟨hm, by simp [hdims, labelDims]⟩)

theorem Routine.Written.labelled {r : Routine} (h : r.Written Q) : r.labelled.Written Q := by
  refine ⟨h.callee.congr rfl rfl rfl rfl, ?_, ?_, ?_⟩
  · intro w hw
    obtain ⟨u, hu, n, rfl⟩ := mem_labelAllDims hw
    obtain ⟨v, hv, i, o, rfl⟩ := mem_labelVariables hu
    exact ((h.args v hv).labelled i o).sized n
  · intro w hw
    obtain ⟨u, hu, n, rfl⟩ := mem_labelAllDims hw
    obtain ⟨v, hv, i, o, rfl⟩ := mem_labelVariables hu
    obtain ⟨hv, hout, hcpu⟩ := h.results v hv
    exact ⟨(hv.labelled i o).sized n, hout, hcpu⟩
  · simpa [Routine.labelled, length_labelAllDims, length_labelVariables] using h.single

end

/-! ## Kinds -/

/-- The field of a numeric type. -/
def TypeTable.field? (t : TypeTable) (type : String) : Option Field :=
  if t.isScalar type then some .real
  else if t.isCscalar type then some .single
  else if t.isZscalar type then some .double
  else none

/-- The kinds a variable can have, by its type and its qualifier. -/
inductive Variable.Admits (t : TypeTable) (v : Variable) : Kind → Prop
  | value (f : Field) (field : t.field? v.type = some f) (bare : v.qualifier = none) :
      Admits t v (.number f .value)
  | pointer (f : Field) (q : Qualifier) (field : t.field? v.type = some f)
      (marked : v.qualifier = some q) (mark : q.mark = .pointer) : Admits t v (.number f .pointer)
  | reference (f : Field) (q : Qualifier) (field : t.field? v.type = some f)
      (marked : v.qualifier = some q) (mark : q.mark = .reference) :
      Admits t v (.number f .reference)
  | array (f : Field) (q : Qualifier) (field : t.field? v.type = some f)
      (marked : v.qualifier = some q) (mark : q.mark = .array) (planar : q.dims.length ≤ 2) :
      Admits t v (.array f)
  | arrayRef (q : Qualifier) (field : t.field? v.type = some .real)
      (marked : v.qualifier = some q) (mark : q.mark = .arrayRef) (planar : q.dims.length ≤ 2) :
      Admits t v .arrayRef
  | const (type : v.type = "const") (bare : v.qualifier = none) : Admits t v .const
  | string (type : v.type = "cstring")
      (sized : ∀ q, v.qualifier = some q → q.mark = .array ∧ q.dims.length ≤ 1) : Admits t v .string
  | mx (type : v.type = "mxArray") (bare : v.qualifier = none) : Admits t v .mx
  | objectValue (bare : v.qualifier = none) : Admits t v (.object .value)
  | objectPointer (q : Qualifier) (marked : v.qualifier = some q) (mark : q.mark = .pointer) :
      Admits t v (.object .pointer)
  | objectReference (q : Qualifier) (marked : v.qualifier = some q) (mark : q.mark = .reference) :
      Admits t v (.object .reference)

namespace Variable

variable {Q : String → Prop} {t : TypeTable} {v w : Variable}

theorem frame_assign {f : Findings} (h : v.assign t = .ok (w, f)) : w.frame = v.frame := by
  unfold assign assignNumber assignObject at h
  grind [frame]

theorem assignNumber_ne_error (hv : v.Written Q) (f : Field) (e : Fault) :
    v.assignNumber f ≠ .error e := by
  have hq := hv.qualifier
  unfold assignNumber
  grind

theorem assignObject_ne_error (hv : v.Written Q) (e : Fault) : v.assignObject ≠ .error e := by
  have hq := hv.qualifier
  unfold assignObject
  grind

/-- Every mark that can be written is known. -/
theorem assign_ne_error (hv : v.Written Q) (t : TypeTable) (e : Fault) : v.assign t ≠ .error e := by
  have hn := assignNumber_ne_error hv
  have ho := assignObject_ne_error hv
  unfold assign
  grind

theorem admits_of_assignNumber {f : Field} (hf : t.field? v.type = some f)
    (h : v.assignNumber f = .ok (w, {})) : w.Admits t w.kind := by
  unfold assignNumber at h
  split at h
  case h_1 hq =>
    cases h
    exact .value f hf hq
  case h_2 q hq =>
    dsimp only at h
    split at h
    · cases h; exact .pointer f q hf hq ‹_›
    · cases h; exact .reference f q hf hq ‹_›
    · split at h <;> cases h
      exact .array f q hf hq ‹_› (by omega)
    · split at h
      · split at h <;> cases h
        subst f
        exact .arrayRef q hf hq ‹_› (by omega)
      · cases h
    · cases h

theorem admits_of_assignObject (h : v.assignObject = .ok (w, {})) : w.Admits t w.kind := by
  unfold assignObject at h
  split at h
  case h_1 hq =>
    cases h
    exact .objectValue hq
  case h_2 q hq =>
    split at h <;> cases h
    · exact .objectPointer q hq ‹_›
    · exact .objectReference q hq ‹_›

/-- A kind assigned without a complaint is one the variable can have. -/
theorem admits_of_assign (h : v.assign t = .ok (w, {})) : w.Admits t w.kind := by
  unfold assign at h
  split at h
  · exact admits_of_assignNumber (by simp [TypeTable.field?, *]) h
  split at h
  · exact admits_of_assignNumber (by simp [TypeTable.field?, *]) h
  split at h
  · exact admits_of_assignNumber (by simp [TypeTable.field?, *]) h
  split at h
  · split at h <;> cases h
    exact .const ‹_› (Option.not_isSome_iff_eq_none.1 ‹_›)
  split at h
  · split at h
    · cases h
      exact .string ‹_› (by simp [*])
    · split at h
      · cases h
      split at h <;> cases h
      exact .string ‹_› (by grind)
  split at h
  · split at h <;> cases h
    exact .mx ‹_› (Option.not_isSome_iff_eq_none.1 ‹_›)
  · exact admits_of_assignObject h

/-- An argument is changed for FORTRAN at most in how a number is passed. -/
theorem frame_toFortran (v : Variable) : v.toFortran.1.frame = v.frame := by
  unfold toFortran
  split <;> rfl

end Variable

/-! ## Counts -/

namespace Findings

@[simp] theorem complaints_append (f g : Findings) :
    (f ++ g).complaints = f.complaints ++ g.complaints := rfl

@[simp] theorem errors_append (f g : Findings) : (f ++ g).errors = f.errors + g.errors := rfl

@[simp] theorem errors_error (c : Complaint) : (error c).errors = 1 := rfl

@[simp] theorem errors_warning (c : Complaint) : (warning c).errors = 0 := rfl

@[simp, grind .] theorem error_ne_empty (c : Complaint) : error c ≠ {} := nofun

@[simp, grind =] theorem append_eq_empty {f g : Findings} : f ++ g = {} ↔ f = {} ∧ g = {} := by
  obtain ⟨cs, n⟩ := f
  obtain ⟨ds, k⟩ := g
  change (⟨cs ++ ds, n + k⟩ : Findings) = ⟨[], 0⟩ ↔ (⟨cs, n⟩ : Findings) = ⟨[], 0⟩ ∧ _
  simp only [mk.injEq, List.append_eq_nil_iff, Nat.add_eq_zero_iff]
  tauto

theorem errors_append_eq_zero {f g : Findings} :
    (f ++ g).errors = 0 ↔ f.errors = 0 ∧ g.errors = 0 := Nat.add_eq_zero_iff

theorem errors_all_eq_zero {fs : List Findings} :
    (all fs).errors = 0 ↔ ∀ f ∈ fs, f.errors = 0 := by
  induction fs with
  | nil => simp [all]
  | cons f fs ih => rw [List.forall_mem_cons, ← ih, ← errors_append_eq_zero]; rfl

/-- The count is the number of errors among the complaints. -/
def Counted (f : Findings) : Prop := f.errors = f.complaints.countP Complaint.isError

theorem counted_empty : Counted {} := rfl

theorem counted_error {c : Complaint} (h : c.isWarning = false) : (error c).Counted := by
  simp [Counted, error, Complaint.isError, h]

theorem counted_warning {c : Complaint} (h : c.isWarning = true) : (warning c).Counted := by
  simp [Counted, warning, Complaint.isError, h]

theorem Counted.append {f g : Findings} (hf : f.Counted) (hg : g.Counted) : (f ++ g).Counted := by
  unfold Counted at hf hg ⊢
  rw [errors_append, complaints_append, List.countP_append, hf, hg]

theorem counted_all {fs : List Findings} (h : ∀ f ∈ fs, f.Counted) : (all fs).Counted := by
  induction fs with
  | nil => exact counted_empty
  | cons f fs ih =>
    obtain ⟨hf, hfs⟩ := List.forall_mem_cons.1 h
    exact hf.append (ih hfs)

/-- Findings without a warning. -/
structure Strict (f : Findings) : Prop where
  counted : f.Counted
  isError : ∀ c ∈ f.complaints, c.isError = true

theorem strict_empty : Strict {} := ⟨counted_empty, by simp⟩

theorem strict_error {c : Complaint} (h : c.isWarning = false) : (error c).Strict :=
  ⟨counted_error h, by simp [error, Complaint.isError, h]⟩

theorem Strict.append {f g : Findings} (hf : f.Strict) (hg : g.Strict) : (f ++ g).Strict :=
  ⟨hf.counted.append hg.counted, List.forall_mem_append.2 ⟨hf.isError, hg.isError⟩⟩

theorem Strict.ite {p : Prop} [Decidable p] {f g : Findings} (hf : f.Strict) (hg : g.Strict) :
    (if p then f else g).Strict := by
  split <;> assumption

/-- Where no error is counted, nothing was found. -/
theorem Strict.eq_empty {f : Findings} (h : f.Strict) (hzero : f.errors = 0) : f = {} := by
  obtain ⟨cs, n⟩ := f
  have hcount : cs.countP Complaint.isError = 0 := h.counted.symm.trans hzero
  have hcs : cs = [] := by
    rw [List.eq_nil_iff_forall_not_mem]
    exact fun c hc => List.countP_eq_zero.1 hcount c hc (h.isError c hc)
  exact congrArg₂ Findings.mk hcs hzero

end Findings

namespace Variable

variable {t : TypeTable} {v w : Variable} {f : Findings}

open Findings (strict_empty strict_error)

theorem strict_assignNumber {fd : Field} (h : v.assignNumber fd = .ok (w, f)) : f.Strict := by
  unfold assignNumber at h
  dsimp only at h
  repeat' split at h
  all_goals cases h
  all_goals first | exact strict_empty | exact strict_error rfl

theorem strict_assignObject (h : v.assignObject = .ok (w, f)) : f.Strict := by
  unfold assignObject at h
  repeat' split at h
  all_goals cases h
  all_goals first | exact strict_empty | exact strict_error rfl

/-- A kind that cannot be given is an error; only FORTRAN draws warnings. -/
theorem strict_assign (h : v.assign t = .ok (w, f)) : f.Strict := by
  unfold assign at h
  repeat' split at h
  all_goals first
    | exact strict_assignNumber h
    | exact strict_assignObject h
    | (cases h; first | exact strict_empty | exact strict_error rfl)

theorem strict_returnFindings (v : Variable) : v.returnFindings.Strict := by
  unfold returnFindings
  repeat' split
  all_goals first | exact strict_empty | exact strict_error rfl

theorem strict_outputKindFindings (t : TypeTable) (v : Variable) :
    (v.outputKindFindings t).Strict := by
  unfold outputKindFindings
  repeat' split
  all_goals first | exact strict_empty | exact strict_error rfl

theorem strict_argFindings (t : TypeTable) (v : Variable) : (v.argFindings t).Strict :=
  strict_empty.ite ((strict_error rfl).ite strict_empty |>.append (strict_outputKindFindings t v))

theorem counted_toFortran (v : Variable) : v.toFortran.2.Counted := by
  unfold toFortran
  split
  · exact Findings.counted_error rfl
  · exact Findings.counted_error rfl
  · exact Findings.counted_warning rfl
  · exact Findings.counted_empty
  · exact Findings.counted_empty

theorem counted_fromFortran (v : Variable) : v.fromFortran.Counted := by
  unfold fromFortran
  split
  · exact Findings.counted_empty
  · exact Findings.counted_warning rfl
  · exact Findings.counted_error rfl

end Variable

/-! ## Variables that passed -/

theorem forall_mem_of_forall₂ {α : Type} {R : α → α → Prop} {P : α → Prop} {as bs : List α}
    (h : List.Forall₂ R as bs) (hP : ∀ a ∈ as, ∀ b, R a b → P b) : ∀ b ∈ bs, P b := by
  induction h with
  | nil => simp
  | cons hab _ ih =>
    obtain ⟨ha, has⟩ := List.forall_mem_cons.1 hP
    exact List.forall_mem_cons.2 ⟨ha _ hab, ih has⟩

theorem map_eq_of_forall₂ {α β : Type} {R : α → α → Prop} {φ : α → β} {vs ws : List α}
    (h : List.Forall₂ R vs ws) (hφ : ∀ v w, R v w → φ v = φ w) : vs.map φ = ws.map φ := by
  induction h with
  | nil => rfl
  | cons hvw _ ih => rw [List.map_cons, List.map_cons, hφ _ _ hvw, ih]

/-- A result that got its kind and may be returned. -/
structure Variable.ResultPassed (t : TypeTable) (v : Variable) : Prop where
  admits : v.Admits t v.kind
  allowed : v.returnFindings = {}

/-- An argument that got its kind and may be passed. -/
structure Variable.ArgPassed (t : TypeTable) (v : Variable) : Prop where
  admits : v.Admits t v.kind
  allowed : v.argFindings t = {}

/-- An argument as it is in the end: one of a FORTRAN routine goes by address. -/
def Variable.Finished (fortran : Bool) (v w : Variable) : Prop :=
  if fortran then w = v.toFortran.1 ∧ v.toFortran.2.errors = 0 else w = v

section

variable {Q : String → Prop} {t : TypeTable} {vs : List Variable}

theorem fault_checkResults (hvs : ∀ v ∈ vs, v.Written Q) : (checkResults t vs).fault = none := by
  cases vs with
  | nil => rfl
  | cons v vs =>
    simp only [checkResults]
    split
    · exact absurd ‹_› (Variable.assign_ne_error (hvs v (by simp)) t _)
    · rfl

theorem fault_checkArgs (hvs : ∀ v ∈ vs, v.Written Q) : (checkArgs t vs).fault = none := by
  induction vs with
  | nil => rfl
  | cons v vs ih =>
    simp only [checkArgs]
    split
    · exact absurd ‹_› (Variable.assign_ne_error (hvs v (by simp)) t _)
    · exact ih fun u hu => hvs u (List.mem_cons_of_mem v hu)

/-- What checking makes of `v`: it is given a kind, or left as it is. -/
def Variable.Checks (t : TypeTable) (v w : Variable) : Prop :=
  w = v ∨ ∃ f, v.assign t = .ok (w, f)

theorem checks_same (t : TypeTable) (vs : List Variable) :
    List.Forall₂ (Variable.Checks t) vs vs :=
  List.forall₂_same.2 fun _ _ => Or.inl rfl

/-- Only the first result is checked. -/
theorem checks_checkResults : List.Forall₂ (Variable.Checks t) vs (checkResults t vs).value := by
  cases vs with
  | nil => exact .nil
  | cons v vs =>
    simp only [checkResults]
    split
    · exact checks_same t _
    · exact .cons (Or.inr ⟨_, ‹_›⟩) (checks_same t vs)

theorem checks_checkArgs : List.Forall₂ (Variable.Checks t) vs (checkArgs t vs).value := by
  induction vs with
  | nil => exact .nil
  | cons v vs ih =>
    simp only [checkArgs]
    split
    · exact checks_same t _
    · exact .cons (Or.inr ⟨_, ‹_›⟩) ih

theorem Variable.Checks.frame {v w : Variable} (h : v.Checks t w) : v.frame = w.frame := by
  rcases h with rfl | ⟨f, hw⟩
  · rfl
  · exact (frame_assign hw).symm

theorem frame_checkResults :
    (checkResults t vs).value.map Variable.frame = vs.map Variable.frame :=
  (map_eq_of_forall₂ checks_checkResults fun _ _ => Variable.Checks.frame).symm

theorem frame_checkArgs : (checkArgs t vs).value.map Variable.frame = vs.map Variable.frame :=
  (map_eq_of_forall₂ checks_checkArgs fun _ _ => Variable.Checks.frame).symm

/-- Without errors, a result is given its kind without a complaint. Only the first one is checked, so
there must be no more. -/
theorem assigned_checkResults (hvs : ∀ v ∈ vs, v.Written Q) (hsingle : vs.length ≤ 1)
    (h : (checkResults t vs).errors = 0) :
    List.Forall₂ (fun v w => v.assign t = .ok (w, {}) ∧ w.returnFindings = {}) vs
      (checkResults t vs).value := by
  cases vs with
  | nil => exact .nil
  | cons v vs =>
    have : vs = [] := List.eq_nil_of_length_eq_zero (by simpa using hsingle)
    subst vs
    simp only [checkResults] at h ⊢
    split at h
    · exact absurd ‹_› (Variable.assign_ne_error (hvs v (by simp)) t _)
    · rename_i w f hw
      obtain ⟨hf, hret⟩ := Findings.errors_append_eq_zero.1 h
      have : f = {} := (Variable.strict_assign hw).eq_empty hf
      subst f
      exact .cons ⟨hw, (Variable.strict_returnFindings w).eq_empty hret⟩ .nil

/-- Without errors, each argument is given its kind without a complaint. -/
theorem assigned_checkArgs (hvs : ∀ v ∈ vs, v.Written Q)
    (h : (checkArgs t vs).errors = 0) :
    List.Forall₂ (fun v w => v.assign t = .ok (w, {}) ∧ w.argFindings t = {}) vs
      (checkArgs t vs).value := by
  induction vs with
  | nil => exact .nil
  | cons v vs ih =>
    simp only [checkArgs] at h ⊢
    split at h
    · exact absurd ‹_› (Variable.assign_ne_error (hvs v (by simp)) t _)
    · rename_i w f hw
      obtain ⟨h, hrest⟩ := Findings.errors_append_eq_zero.1 h
      obtain ⟨hf, harg⟩ := Findings.errors_append_eq_zero.1 h
      have : f = {} := (Variable.strict_assign hw).eq_empty hf
      subst f
      exact .cons ⟨hw, (Variable.strict_argFindings t w).eq_empty harg⟩
        (ih (fun u hu => hvs u (List.mem_cons_of_mem v hu)) hrest)

theorem resultPassed_of_errors (hvs : ∀ v ∈ vs, v.Written Q) (hsingle : vs.length ≤ 1)
    (h : (checkResults t vs).errors = 0) :
    ∀ w ∈ (checkResults t vs).value, w.ResultPassed t :=
  forall_mem_of_forall₂ (assigned_checkResults hvs hsingle h) fun _ _ _ hw =>
    ⟨Variable.admits_of_assign hw.1, hw.2⟩

theorem argPassed_of_errors (hvs : ∀ v ∈ vs, v.Written Q) (h : (checkArgs t vs).errors = 0) :
    ∀ w ∈ (checkArgs t vs).value, w.ArgPassed t :=
  forall_mem_of_forall₂ (assigned_checkArgs hvs h) fun _ _ _ hw =>
    ⟨Variable.admits_of_assign hw.1, hw.2⟩

end

/-! ## Each error is counted once -/

theorem counted_checkResults (t : TypeTable) (vs : List Variable) :
    (checkResults t vs).Counted := by
  unfold checkResults
  split
  · exact Findings.counted_empty
  split
  · exact Findings.counted_empty
  · exact (Variable.strict_assign ‹_›).counted.append (Variable.strict_returnFindings _).counted

theorem counted_checkArgs (t : TypeTable) (vs : List Variable) : (checkArgs t vs).Counted := by
  induction vs with
  | nil => exact Findings.counted_empty
  | cons v vs ih =>
    simp only [checkArgs]
    split
    · exact Findings.counted_empty
    · exact ((Variable.strict_assign ‹_›).counted.append
        (Variable.strict_argFindings t _).counted).append ih

namespace Routine

theorem counted_checkFortran (r : Routine) : r.checkFortran.Counted := by
  unfold checkFortran
  split
  · refine Findings.Counted.append (Findings.counted_all ?_) ?_
    · simp only [List.map_map, List.mem_map, forall_exists_index, and_imp]
      rintro f v - rfl
      exact v.counted_toFortran
    · split
      · exact Variable.counted_fromFortran _
      · exact Findings.counted_empty
  · exact Findings.counted_empty

/-- **The count of a check** is the number of errors among its complaints, also where a fault ends
the check early. -/
theorem counted_check (t : TypeTable) (r : Routine) : (r.check t).Counted := by
  have hresults := counted_checkResults t r.labelled.results
  have hargs := counted_checkArgs t r.labelled.args
  unfold check
  dsimp only
  split
  · exact hresults
  split
  · exact hresults.append hargs
  · exact (hresults.append hargs).append (counted_checkFortran _)

end Routine

/-! ## What the rules leave -/

/-- An argument that the generator can handle. -/
structure Variable.SoundArg (v : Variable) : Prop where
  known : v.kind ≠ .unknown
  const : v.kind = .const → v.direction = .input
  mx : v.kind = .mx → v.direction ≠ .inout
  sized : v.kind.isArray = true ∨ v.kind = .arrayRef → v.direction = .output → v.dims ≠ []

/-- A returned value that the generator can handle. -/
structure Variable.SoundResult (v : Variable) : Prop where
  known : v.kind ≠ .unknown
  const : v.kind ≠ .const
  arrayRef : v.kind ≠ .arrayRef

namespace Variable

variable {t : TypeTable} {v w : Variable}

theorem Admits.ne_unknown {k : Kind} (h : v.Admits t k) : k ≠ .unknown := by
  cases h <;> simp

theorem ArgPassed.sound (h : v.ArgPassed t) : v.SoundArg := by
  have hk := h.admits.ne_unknown
  have ha := h.allowed
  unfold argFindings outputKindFindings at ha
  refine ⟨hk, ?_, ?_, ?_⟩
  · intro hc
    grind [Kind.isObject, Kind.isArray]
  · intro hm
    grind [Kind.isObject, Kind.isArray]
  · intro hm ho hd
    have hobj : v.kind.isObject = false := by
      cases hv : v.kind <;> simp_all [Kind.isObject, Kind.isArray]
    simp [hobj, hm, ho, hd] at ha

/-- FORTRAN touches numbers only, on which there is no such rule. -/
theorem SoundArg.finished {fortran : Bool} (h : v.SoundArg) (hw : v.Finished fortran w) :
    w.SoundArg := by
  unfold Finished at hw
  split at hw
  · obtain ⟨rfl, -⟩ := hw
    unfold toFortran
    split
    case h_4 => exact ⟨by simp, by simp, by simp, by simp [Kind.isArray]⟩
    all_goals exact h
  · exact hw ▸ h

theorem ResultPassed.sound (h : v.ResultPassed t) : v.SoundResult := by
  have hk := h.admits.ne_unknown
  have ha := h.allowed
  unfold returnFindings at ha
  exact ⟨hk, by grind, by grind⟩

end Variable

/-! ## Routines that passed -/

/-- What an error-free check makes of `r`. -/
structure Routine.Passed (t : TypeTable) (r s : Routine) : Prop where
  resultFrames : s.results.map Variable.frame = r.results.map Variable.frame
  argFrames : s.args.map Variable.frame = r.args.map Variable.frame
  results : ∀ w ∈ s.results, w.ResultPassed t
  args : ∀ w ∈ s.args, ∃ v : Variable, v.ArgPassed t ∧ v.Finished r.fortran w
  rest : s = { r with results := s.results, args := s.args }

namespace Routine

theorem Passed.soundArg {t : TypeTable} {r s : Routine} (h : r.Passed t s) :
    ∀ w ∈ s.args, w.SoundArg := by
  intro w hw
  obtain ⟨v, hv, hvw⟩ := h.args w hw
  exact hv.sound.finished hvw

theorem Passed.soundResult {t : TypeTable} {r s : Routine} (h : r.Passed t s) :
    ∀ w ∈ s.results, w.SoundResult := fun w hw => (h.results w hw).sound

/-- The written form hangs on the frames of the variables only. -/
theorem Written.of_frames {Q : String → Prop} {r s : Routine} (hr : r.Written Q)
    (hresults : s.results.map Variable.frame = r.results.map Variable.frame)
    (hargs : s.args.map Variable.frame = r.args.map Variable.frame)
    (hrest : s = { r with results := s.results, args := s.args }) : s.Written Q := by
  rw [hrest]
  refine ⟨hr.callee.congr rfl rfl rfl rfl, ?_, ?_, ?_⟩
  · intro w hw
    obtain ⟨v, hv, hvw⟩ := List.mem_map.1 (hargs ▸ List.mem_map_of_mem hw)
    exact (hr.args v hv).of_frame hvw
  · intro w hw
    obtain ⟨v, hv, hvw⟩ := List.mem_map.1 (hresults ▸ List.mem_map_of_mem hw)
    exact (hr.results v hv).of_frame hvw
  · have hlen := congrArg List.length hresults
    simp only [List.length_map] at hlen
    exact hlen ▸ hr.single

/-- Checking keeps the written form. -/
theorem Passed.written {Q : String → Prop} {t : TypeTable} {r s : Routine} (h : r.Passed t s)
    (hr : r.Written Q) : s.Written Q := hr.of_frames h.resultFrames h.argFrames h.rest

theorem frame_checkFortran (r : Routine) :
    r.checkFortran.value.args.map Variable.frame = r.args.map Variable.frame := by
  unfold checkFortran
  split
  · simp [Variable.frame_toFortran]
  · rfl

/-- FORTRAN changes nothing but the arguments. -/
theorem checkFortran_rest (r : Routine) :
    r.checkFortran.value = { r with args := r.checkFortran.value.args } := by
  unfold checkFortran
  split <;> rfl

theorem finished_of_errors {r : Routine} (h : r.checkFortran.errors = 0) :
    ∀ w ∈ r.checkFortran.value.args, ∃ v ∈ r.args, v.Finished r.fortran w := by
  unfold checkFortran at h ⊢
  split at h
  case isTrue hf =>
    obtain ⟨h, -⟩ := Findings.errors_append_eq_zero.1 h
    rw [if_pos hf]
    simp only [List.map_map, List.mem_map, forall_exists_index, and_imp]
    rintro w v hv rfl
    refine ⟨v, hv, ?_⟩
    simp only [Variable.Finished, hf, if_true]
    refine ⟨rfl, Findings.errors_all_eq_zero.1 h _ ?_⟩
    exact List.mem_map_of_mem (List.mem_map_of_mem hv)
  case isFalse hf =>
    rw [if_neg hf]
    intro w hw
    exact ⟨w, hw, by simp [Variable.Finished, hf]⟩

/-- The parts of a check that no fault ended. -/
theorem Written.check_eq {Q : String → Prop} {r : Routine} (hr : r.Written Q) (t : TypeTable) :
    let s := { r.labelled with
      results := (checkResults t r.labelled.results).value
      args := (checkArgs t r.labelled.args).value }
    r.check t = { s.checkFortran with
      toFindings := (checkResults t r.labelled.results).toFindings
        ++ (checkArgs t r.labelled.args).toFindings ++ s.checkFortran.toFindings } := by
  have hrs := fault_checkResults (t := t) fun v hv => (hr.labelled.results v hv).toWritten
  have has := fault_checkArgs (t := t) hr.labelled.args
  unfold check
  simp only [hrs, has, Option.isSome_none, Bool.false_eq_true, if_false]

/-- Errors or none, checking keeps the written form. -/
theorem Written.check {Q : String → Prop} {r : Routine} (hr : r.Written Q) (t : TypeTable) :
    (r.check t).value.Written Q := by
  rw [hr.check_eq]
  dsimp only
  rw [checkFortran_rest]
  exact hr.labelled.of_frames frame_checkResults ((frame_checkFortran _).trans frame_checkArgs) rfl

/-- Checking changes no type. -/
theorem baseTypes_check (t : TypeTable) (r : Routine) : (r.check t).value.baseTypes = r.baseTypes := by
  have hframe {vs ws : List Variable} (h : vs.map Variable.frame = ws.map Variable.frame) :
      vs.map (·.type) = ws.map (·.type) := by
    simpa [Variable.frame, Function.comp_def] using congrArg (List.map Variable.type) h
  have hlabelled (i o n : Int) (vs : List Variable) :
      (labelAllDims n (labelVariables i o vs).1).1.map (·.type) = vs.map (·.type) := by
    rw [type_labelAllDims, type_labelVariables]
  have hkept {args : List Variable}
      (h : args.map Variable.frame = r.labelled.args.map Variable.frame) :
      ((checkResults t r.labelled.results).value ++ args).map (·.type) = r.baseTypes := by
    rw [List.map_append, hframe frame_checkResults, hframe h, baseTypes, List.map_append]
    exact congrArg₂ _ (hlabelled ..) (hlabelled ..)
  unfold check
  dsimp only
  split
  · exact hkept rfl
  · split
    · exact hkept frame_checkArgs
    · dsimp only
      rw [checkFortran_rest]
      exact hkept ((frame_checkFortran _).trans frame_checkArgs)

/-- **Checking without errors**: every variable of a written routine has a kind it can have, and
keeps the rules. -/
theorem passed_of_errors {Q : String → Prop} {t : TypeTable} {r : Routine} (hr : r.Written Q)
    (h : (r.check t).errors = 0) : r.labelled.Passed t (r.check t).value := by
  have hl := hr.labelled
  have hres : ∀ v ∈ r.labelled.results, v.Written Q := fun v hv => (hl.results v hv).toWritten
  have heq := hr.check_eq t
  rw [heq] at h
  obtain ⟨h, hfs⟩ := Findings.errors_append_eq_zero.1 h
  obtain ⟨hrs, has⟩ := Findings.errors_append_eq_zero.1 h
  rw [heq]
  dsimp only
  rw [checkFortran_rest]
  refine ⟨frame_checkResults, ?_, resultPassed_of_errors hres hl.single hrs, ?_, rfl⟩
  · exact (frame_checkFortran _).trans frame_checkArgs
  · intro w hw
    obtain ⟨v, hv, hvw⟩ := finished_of_errors hfs w hw
    exact ⟨v, argPassed_of_errors hl.args has v hv, hvw⟩

end Routine

end MexBridge
