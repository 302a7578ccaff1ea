import Mathlib.Tactic.MkIffOfInductiveProp
import MexBridge.Proofs.Ledger.Accepted

/-!
# The rules on how variables are used

A declaration is accepted if its variables have shapes their types allow, and if its results, its
outputs and its FORTRAN arguments keep further rules; `Routine.Permitted` lists them all, and no other
declaration is accepted. These are not all the rules there should be: a complex scalar may be an
output, an array reference may be an input, and nothing is asked of what lies on a GPU. `usage_rules`
says that nothing else is missing.
-/

namespace MexBridge

/-- What a type name stands for. -/
inductive TypeSort where
  | number (f : Field)
  | const
  | string
  | mx
  | object
deriving DecidableEq, Repr

def TypeSort.isNumber : TypeSort → Bool
  | .number _ => true
  | _ => false

def TypeTable.sort (t : TypeTable) (type : String) : TypeSort :=
  match t.field? type with
  | some f => .number f
  | none =>
    if type = "const" then .const
    else if type = "cstring" then .string
    else if type = "mxArray" then .mx
    else .object

/-! ## Rules -/

namespace Variable

def mark? (v : Variable) : Option Mark := v.qualifier.map (·.mark)

/-- The shapes in which a variable of a type can be written, each with its kind. -/
inductive Shape (t : TypeTable) (v : Variable) : Kind → Prop
  | number (f : Field) (m : Mode) (sort : t.sort v.type = .number f) (mark : v.mark? = m.mark?) :
      Shape t v (.number f m)
  | array (f : Field) (sort : t.sort v.type = .number f) (mark : v.mark? = some .array)
      (planar : v.dims.length ≤ 2) : Shape t v (.array f)
  | arrayRef (sort : t.sort v.type = .number .real) (mark : v.mark? = some .arrayRef)
      (planar : v.dims.length ≤ 2) : Shape t v .arrayRef
  | const (sort : t.sort v.type = .const) (mark : v.mark? = none) : Shape t v .const
  | string (sort : t.sort v.type = .string) (mark : v.mark? = none ∨ v.mark? = some .array)
      (linear : v.dims.length ≤ 1) : Shape t v .string
  | mx (sort : t.sort v.type = .mx) (mark : v.mark? = none) : Shape t v .mx
  | object (m : Mode) (sort : t.sort v.type = .object) (mark : v.mark? = m.mark?) :
      Shape t v (.object m)

/-- What may be returned. -/
@[mk_iff]
structure MayReturn (t : TypeTable) (v : Variable) : Prop where
  sized : v.mark? = some .array → v.dims ≠ []
  arrayRef : v.mark? ≠ some .arrayRef
  const : t.sort v.type ≠ .const
  string : t.sort v.type = .string → v.mark? = none

/-- What may be an argument that is not for input only. -/
@[mk_iff]
structure MayGoOut (t : TypeTable) (v : Variable) : Prop where
  name : v.startsWithDigit = false
  scalar : t.sort v.type = .number .real → v.mark? ≠ none
  sized : v.mark? = some .array ∨ v.mark? = some .arrayRef → v.direction = .output → v.dims ≠ []
  const : t.sort v.type ≠ .const
  string : t.sort v.type = .string → v.dims ≠ []
  mx : t.sort v.type = .mx → v.direction ≠ .inout
  object : t.sort v.type = .object → t.isMxArray v.type = true

/-- What FORTRAN takes. -/
@[mk_iff]
structure FortranArg (t : TypeTable) (v : Variable) : Prop where
  object : t.sort v.type ≠ .object
  arrayRef : v.mark? ≠ some .arrayRef

/-- What FORTRAN returns. -/
@[mk_iff]
structure FortranResult (t : TypeTable) (v : Variable) : Prop where
  number : (t.sort v.type).isNumber = true
  bare : v.mark? = none

end Variable

/-- What a declaration must keep to be accepted. -/
@[mk_iff]
structure Routine.Permitted (t : TypeTable) (r : Routine) : Prop where
  results : ∀ v ∈ r.results, (∃ k, v.Shape t k) ∧ v.MayReturn t
  args : ∀ v ∈ r.args, (∃ k, v.Shape t k) ∧ (v.direction ≠ .input → v.MayGoOut t)
  fortran : r.fortran = true →
    (∀ v ∈ r.args, v.FortranArg t) ∧ ∀ v ∈ r.results, v.FortranResult t

namespace Variable

variable {Q : String → Prop} {t : TypeTable} {v w : Variable}

/-! ## Shapes -/

/-- A kind is assigned by what the type stands for. -/
theorem assign_eq (t : TypeTable) (v : Variable) :
    v.assign t = match t.sort v.type with
      | .number f => v.assignNumber f
      | .const =>
        if v.qualifier.isSome then .ok (v, .error (.constMarked v.name))
        else .ok ({ v with kind := .const, name := constName v.name }, {})
      | .string =>
        match v.qualifier with
        | none => .ok ({ v with kind := .string }, {})
        | some q =>
          if q.mark ≠ .array then .ok (v, .error (.stringMarked v.name))
          else if q.dims.length > 1 then .ok (v, .error .stringNotLinear)
          else .ok ({ v with kind := .string }, {})
      | .mx =>
        if v.qualifier.isSome then .ok (v, .error (.mxMarked v.name))
        else .ok ({ v with kind := .mx }, {})
      | .object => v.assignObject := by
  unfold assign TypeTable.sort TypeTable.field?
  grind

theorem mark?_eq_none : v.mark? = none ↔ v.qualifier = none := by simp [mark?]

theorem mark?_eq_some {m : Mark} :
    v.mark? = some m ↔ ∃ q, v.qualifier = some q ∧ q.mark = m := by
  simp [mark?]

theorem dims_of_qualifier {q : Qualifier} (h : v.qualifier = some q) : v.dims = q.dims := by
  simp [dims, h]

theorem assignNumber_of_mode {m : Mode} (f : Field) (h : v.mark? = m.mark?) :
    v.assignNumber f = .ok ({ v with kind := .number f m }, {}) := by
  cases m with
  | value => simp [assignNumber, mark?_eq_none.1 h]
  | pointer =>
    obtain ⟨q, hq, hm⟩ := mark?_eq_some.1 h
    simp [assignNumber, hq, hm]
  | reference =>
    obtain ⟨q, hq, hm⟩ := mark?_eq_some.1 h
    simp [assignNumber, hq, hm]

theorem assignObject_of_mode {m : Mode} (h : v.mark? = m.mark?) :
    v.assignObject = .ok ({ v with kind := .object m }, {}) := by
  cases m with
  | value => simp [assignObject, mark?_eq_none.1 h]
  | pointer =>
    obtain ⟨q, hq, hm⟩ := mark?_eq_some.1 h
    simp [assignObject, hq, hm]
  | reference =>
    obtain ⟨q, hq, hm⟩ := mark?_eq_some.1 h
    simp [assignObject, hq, hm]

/-- **A variable of a known shape gets its kind without a complaint,** and only a constant another
name. -/
theorem assign_of_shape {k : Kind} (h : v.Shape t k) :
    ∃ w, v.assign t = .ok (w, {}) ∧ w.kind = k ∧ (t.sort v.type ≠ .const → w.name = v.name) := by
  rw [assign_eq]
  cases h with
  | number f m sort mark =>
    rw [sort]
    exact ⟨_, assignNumber_of_mode f mark, rfl, fun _ => rfl⟩
  | array f sort mark planar =>
    obtain ⟨q, hq, hm⟩ := mark?_eq_some.1 mark
    rw [dims_of_qualifier hq] at planar
    rw [sort]
    exact ⟨{ v with kind := .array f }, by simp [assignNumber, hq, hm, planar], rfl, fun _ => rfl⟩
  | arrayRef sort mark planar =>
    obtain ⟨q, hq, hm⟩ := mark?_eq_some.1 mark
    rw [dims_of_qualifier hq] at planar
    rw [sort]
    exact ⟨{ v with kind := .arrayRef }, by simp [assignNumber, hq, hm, planar], rfl, fun _ => rfl⟩
  | const sort mark =>
    rw [sort]
    exact ⟨_, if_neg (by simp [mark?_eq_none.1 mark]), rfl, fun h => absurd rfl h⟩
  | string sort mark linear =>
    rw [sort]
    refine ⟨{ v with kind := .string }, ?_, rfl, fun _ => rfl⟩
    rcases mark with mark | mark
    · simp [mark?_eq_none.1 mark]
    · obtain ⟨q, hq, hm⟩ := mark?_eq_some.1 mark
      rw [dims_of_qualifier hq] at linear
      simp [hq, hm, linear]
  | mx sort mark =>
    rw [sort]
    exact ⟨_, if_neg (by simp [mark?_eq_none.1 mark]), rfl, fun _ => rfl⟩
  | object m sort mark =>
    rw [sort]
    exact ⟨_, assignObject_of_mode mark, rfl, fun _ => rfl⟩

theorem shape_of_assignNumber {f : Field} (hs : t.sort v.type = .number f)
    (h : v.assignNumber f = .ok (w, {})) : v.Shape t w.kind := by
  unfold assignNumber at h
  split at h
  case h_1 hq =>
    cases h
    exact .number f .value hs (mark?_eq_none.2 hq)
  case h_2 q hq =>
    dsimp only at h
    split at h
    case h_1 hm => cases h; exact .number f .pointer hs (mark?_eq_some.2 ⟨q, hq, hm⟩)
    case h_2 hm => cases h; exact .number f .reference hs (mark?_eq_some.2 ⟨q, hq, hm⟩)
    case h_3 hm =>
      split at h <;> cases h
      refine .array f hs (mark?_eq_some.2 ⟨q, hq, hm⟩) ?_
      rw [dims_of_qualifier hq]
      omega
    case h_4 hm =>
      split at h
      · split at h <;> cases h
        subst f
        refine .arrayRef hs (mark?_eq_some.2 ⟨q, hq, hm⟩) ?_
        rw [dims_of_qualifier hq]
        omega
      · cases h
    case h_5 => cases h

theorem shape_of_assignObject (hs : t.sort v.type = .object) (h : v.assignObject = .ok (w, {})) :
    v.Shape t w.kind := by
  unfold assignObject at h
  split at h
  case h_1 hq =>
    cases h
    exact .object .value hs (mark?_eq_none.2 hq)
  case h_2 q hq =>
    split at h <;> cases h
    · exact .object .pointer hs (mark?_eq_some.2 ⟨q, hq, ‹_›⟩)
    · exact .object .reference hs (mark?_eq_some.2 ⟨q, hq, ‹_›⟩)

/-- **A kind assigned without a complaint is that of a shape.** -/
theorem shape_of_assign (h : v.assign t = .ok (w, {})) : v.Shape t w.kind := by
  rw [assign_eq] at h
  cases hs : t.sort v.type with
  | number f =>
    rw [hs] at h
    exact shape_of_assignNumber hs h
  | const =>
    rw [hs] at h
    dsimp only at h
    split at h <;> cases h
    exact .const hs (mark?_eq_none.2 (Option.not_isSome_iff_eq_none.1 ‹_›))
  | string =>
    rw [hs] at h
    dsimp only at h
    split at h
    case h_1 hq =>
      cases h
      exact .string hs (Or.inl (mark?_eq_none.2 hq)) (by simp [dims, hq])
    case h_2 q hq =>
      split at h
      · cases h
      · split at h <;> cases h
        rename_i hm hl
        refine .string hs (Or.inr (mark?_eq_some.2 ⟨q, hq, not_not.1 hm⟩)) ?_
        rw [dims_of_qualifier hq]
        omega
  | mx =>
    rw [hs] at h
    dsimp only at h
    split at h <;> cases h
    exact .mx hs (mark?_eq_none.2 (Option.not_isSome_iff_eq_none.1 ‹_›))
  | object =>
    rw [hs] at h
    exact shape_of_assignObject hs h

/-! ## Findings -/

theorem mark?_ne_array (m : Mode) : m.mark? ≠ some .array := by cases m <;> simp [Mode.mark?]

theorem mark?_ne_arrayRef (m : Mode) : m.mark? ≠ some .arrayRef := by cases m <;> simp [Mode.mark?]

theorem returnFindings_eq_empty (h : v.Shape t w.kind) (hq : w.qualifier = v.qualifier) :
    w.returnFindings = {} ↔ v.MayReturn t := by
  have hmark : w.qualifier.isSome = v.mark?.isSome := by simp [mark?, hq]
  have hdims : w.dims = v.dims := by simp [dims, hq]
  unfold returnFindings
  rw [hmark, hdims, mayReturn_iff]
  generalize w.kind = k at h
  cases h with
  | number f m sort mark => simp [sort, mark, mark?_ne_array, mark?_ne_arrayRef]
  | array f sort mark planar => simp [sort, mark]
  | arrayRef sort mark planar => simp [mark]
  | const sort mark => simp [sort]
  | string sort mark linear =>
    rcases mark with mark | mark <;> simp [sort, mark]
  | mx sort mark => simp [sort, mark]
  | object m sort mark => simp [sort, mark, mark?_ne_array, mark?_ne_arrayRef]

theorem outputKindFindings_eq_empty (h : v.Shape t w.kind) (hq : w.qualifier = v.qualifier)
    (htype : w.type = v.type) (hdir : w.direction = v.direction)
    (hout : v.direction.isOutput = true) :
    v.startsWithDigit = false ∧ w.outputKindFindings t = {} ↔ v.MayGoOut t := by
  have hdims : w.dims = v.dims := by simp [dims, hq]
  unfold outputKindFindings
  rw [hdims, htype, hdir, mayGoOut_iff]
  generalize w.kind = k at h
  cases h with
  | number f m sort mark =>
    have hmode : m.mark? = none ↔ m = .value := by cases m <;> simp [Mode.mark?]
    simp [sort, mark, mark?_ne_array, mark?_ne_arrayRef, Kind.isObject, Kind.isArray, hmode]
  | array f sort mark planar => simp [sort, mark, Kind.isObject, Kind.isArray]
  | arrayRef sort mark planar => simp [sort, mark, Kind.isObject, Kind.isArray, hout]
  | const sort mark => simp [sort, Kind.isObject, Kind.isArray]
  | string sort mark linear =>
    simp only [sort, Kind.isObject, Kind.isArray]
    simp
    tauto
  | mx sort mark => simp [sort, mark, Kind.isObject, Kind.isArray]
  | object m sort mark =>
    simp [sort, mark, mark?_ne_array, mark?_ne_arrayRef, Kind.isObject, Kind.isArray]

/-- The rules on an argument. The name of a constant is another one when it is looked at, but a
constant cannot go out anyway. -/
theorem argFindings_eq_empty (hv : v.Written Q) (h : v.Shape t w.kind) (hframe : w.frame = v.frame)
    (hname : t.sort v.type ≠ .const → w.name = v.name) :
    w.argFindings t = {} ↔ (v.direction ≠ .input → v.MayGoOut t) := by
  simp only [frame, Variable.mk.injEq] at hframe
  obtain ⟨-, hdir, htype, hq, -⟩ := hframe
  unfold argFindings
  rw [hdir]
  by_cases hin : v.direction = .input
  · simp [hin]
  · have hout : v.direction.isOutput = true := by
      rcases hv.direction with hd | hd | hd
      · exact absurd hd hin
      · simp [hd, Direction.isOutput]
      · simp [hd, Direction.isOutput]
    rw [if_neg hin, Findings.append_eq_empty, forall_prop_of_true hin,
      ← outputKindFindings_eq_empty h hq htype hdir hout]
    by_cases hc : t.sort v.type = .const
    · have hkind : w.kind = .const := by
        generalize w.kind = k at h
        cases h <;> simp_all
      have : w.outputKindFindings t ≠ {} := by
        simp [outputKindFindings, hkind, Kind.isObject, Kind.isArray]
      simp [this]
    · have hdigit : w.startsWithDigit = v.startsWithDigit := by simp [startsWithDigit, hname hc]
      simp [hdigit]

theorem errors_toFortran (h : v.Shape t w.kind) :
    w.toFortran.2.errors = 0 ↔ v.FortranArg t := by
  rw [fortranArg_iff]
  unfold toFortran
  generalize w.kind = k at h
  cases h with
  | number f m sort mark => simp [sort, mark, mark?_ne_arrayRef]
  | array f sort mark planar => simp [sort, mark]
  | arrayRef sort mark planar => simp [mark]
  | const sort mark => simp [sort, mark]
  | string sort mark linear =>
    have href : v.mark? ≠ some .arrayRef := by
      rcases mark with mark | mark <;> simp [mark]
    simp [sort, href]
  | mx sort mark => simp [sort, mark]
  | object m sort mark => simp [sort]

theorem errors_fromFortran (h : v.Shape t w.kind) :
    w.fromFortran.errors = 0 ↔ v.FortranResult t := by
  rw [fortranResult_iff]
  unfold fromFortran
  generalize w.kind = k at h
  cases h with
  | number f m sort mark =>
    rw [sort, mark]
    cases m <;> cases f <;>
      simp [TypeSort.isNumber, Mode.mark?]
  | array f sort mark planar => simp [mark]
  | arrayRef sort mark planar => simp [mark]
  | const sort mark => simp [sort, TypeSort.isNumber]
  | string sort mark linear => simp [sort, TypeSort.isNumber]
  | mx sort mark => simp [sort, TypeSort.isNumber]
  | object m sort mark => simp [sort, TypeSort.isNumber]

/-- A kind is assigned without a complaint just to a variable of a known shape. -/
theorem errors_assign {f : Findings} (hw : v.assign t = .ok (w, f)) :
    f.errors = 0 ↔ ∃ k, v.Shape t k := by
  constructor
  · intro h
    have : f = {} := (strict_assign hw).eq_empty h
    subst f
    exact ⟨w.kind, shape_of_assign hw⟩
  · rintro ⟨k, hk⟩
    obtain ⟨w', hw', -⟩ := assign_of_shape hk
    rw [hw'] at hw
    cases hw
    rfl

theorem name_assign (hw : v.assign t = .ok (w, {})) (hc : t.sort v.type ≠ .const) :
    w.name = v.name := by
  obtain ⟨w', hw', -, hname⟩ := assign_of_shape (shape_of_assign hw)
  rw [hw'] at hw
  cases hw
  exact hname hc

theorem errors_arg {f : Findings} (hv : v.Written Q) (hw : v.assign t = .ok (w, f)) :
    (f ++ w.argFindings t).errors = 0 ↔
      (∃ k, v.Shape t k) ∧ (v.direction ≠ .input → v.MayGoOut t) := by
  rw [Findings.errors_append_eq_zero, errors_assign hw]
  refine and_congr_right fun hshape => ?_
  have : f = {} := (strict_assign hw).eq_empty ((errors_assign hw).2 hshape)
  subst f
  rw [← argFindings_eq_empty hv (shape_of_assign hw) (frame_assign hw) (name_assign hw)]
  exact ⟨(strict_argFindings t w).eq_empty, fun h => h ▸ rfl⟩

theorem errors_result {f : Findings} (hw : v.assign t = .ok (w, f)) :
    (f ++ w.returnFindings).errors = 0 ↔ (∃ k, v.Shape t k) ∧ v.MayReturn t := by
  rw [Findings.errors_append_eq_zero, errors_assign hw]
  refine and_congr_right fun hshape => ?_
  have : f = {} := (strict_assign hw).eq_empty ((errors_assign hw).2 hshape)
  subst f
  have hq : w.frame.qualifier = v.frame.qualifier := congrArg Variable.qualifier (frame_assign hw)
  rw [← returnFindings_eq_empty (shape_of_assign hw) hq]
  exact ⟨(strict_returnFindings w).eq_empty, fun h => h ▸ rfl⟩

end Variable

/-! ## Routines -/

/-- What holds of variables one by one holds of what became of them. -/
theorem forall_mem_iff_of_forall₂ {R : Variable → Variable → Prop} {P P' : Variable → Prop}
    {vs ws : List Variable} (h : List.Forall₂ R vs ws) (hP : ∀ v w, R v w → (P' w ↔ P v)) :
    (∀ w ∈ ws, P' w) ↔ ∀ v ∈ vs, P v := by
  induction h with
  | nil => simp
  | cons hvw _ ih => simp [hP _ _ hvw, ih]

section

variable {Q : String → Prop} {t : TypeTable} {vs : List Variable}

theorem errors_checkArgs (hvs : ∀ v ∈ vs, v.Written Q) :
    (checkArgs t vs).errors = 0 ↔
      ∀ v ∈ vs, (∃ k, v.Shape t k) ∧ (v.direction ≠ .input → v.MayGoOut t) := by
  induction vs with
  | nil => simp [checkArgs]
  | cons v vs ih =>
    have hv := hvs v (by simp)
    simp only [checkArgs]
    split
    · exact absurd ‹_› (Variable.assign_ne_error hv t _)
    · rename_i w f hw
      rw [Findings.errors_append_eq_zero, Variable.errors_arg hv hw,
        ih fun u hu => hvs u (List.mem_cons_of_mem v hu), List.forall_mem_cons]

/-- Arguments checked without errors have the kinds of their shapes. -/
theorem shape_checkArgs (hvs : ∀ v ∈ vs, v.Written Q) (h : (checkArgs t vs).errors = 0) :
    List.Forall₂ (fun v w => v.Shape t w.kind) vs (checkArgs t vs).value :=
  (assigned_checkArgs hvs h).imp fun _ _ hw => Variable.shape_of_assign hw.1

theorem errors_checkResults (hvs : ∀ v ∈ vs, v.Written Q) (hsingle : vs.length ≤ 1) :
    (checkResults t vs).errors = 0 ↔ ∀ v ∈ vs, (∃ k, v.Shape t k) ∧ v.MayReturn t := by
  cases vs with
  | nil => simp [checkResults]
  | cons v vs =>
    have : vs = [] := List.eq_nil_of_length_eq_zero (by simpa using hsingle)
    subst vs
    simp only [checkResults]
    split
    · exact absurd ‹_› (Variable.assign_ne_error (hvs v (by simp)) t _)
    · rename_i w f hw
      simp only [Variable.errors_result hw, List.mem_singleton, forall_eq]

theorem shape_checkResults (hvs : ∀ v ∈ vs, v.Written Q) (hsingle : vs.length ≤ 1)
    (h : (checkResults t vs).errors = 0) :
    List.Forall₂ (fun v w => v.Shape t w.kind) vs (checkResults t vs).value :=
  (assigned_checkResults hvs hsingle h).imp fun _ _ hw => Variable.shape_of_assign hw.1

end

namespace Routine

variable {Q : String → Prop} {t : TypeTable} {r : Routine}

theorem errors_checkFortran (hsingle : r.results.length ≤ 1) :
    r.checkFortran.errors = 0 ↔ (r.fortran = true →
      (∀ w ∈ r.args, w.toFortran.2.errors = 0) ∧ ∀ w ∈ r.results, w.fromFortran.errors = 0) := by
  unfold checkFortran
  split
  case isTrue hf =>
    rw [Findings.errors_append_eq_zero, forall_prop_of_true hf]
    refine and_congr ?_ ?_
    · rw [Findings.errors_all_eq_zero, List.map_map, List.forall_mem_map]
      rfl
    · cases hres : r.results with
      | nil => simp
      | cons v vs =>
        have : vs = [] := List.eq_nil_of_length_eq_zero (by simpa [hres] using hsingle)
        subst vs
        simp
  case isFalse hf => simp [hf]

end Routine

/-! ## Labels -/

namespace Variable

/-- All that the rules look at is the same. -/
structure SameUse (v w : Variable) : Prop where
  type : w.type = v.type
  mark : w.mark? = v.mark?
  dims : w.dims.length = v.dims.length
  direction : w.direction = v.direction
  name : w.name = v.name

variable {t : TypeTable} {v w : Variable}

theorem SameUse.dims_eq_nil (h : v.SameUse w) : w.dims = [] ↔ v.dims = [] := by
  rw [← List.length_eq_zero_iff, ← List.length_eq_zero_iff, h.dims]

theorem SameUse.shape_iff (h : v.SameUse w) {k : Kind} : w.Shape t k ↔ v.Shape t k := by
  obtain ⟨type, mark, dims, -, -⟩ := h
  constructor
  · intro hk
    cases hk <;> constructor <;> simp_all
  · intro hk
    cases hk <;> constructor <;> simp_all

theorem SameUse.mayReturn_iff (h : v.SameUse w) : w.MayReturn t ↔ v.MayReturn t := by
  simp only [Variable.mayReturn_iff, ne_eq, h.dims_eq_nil, h.mark, h.type]

theorem SameUse.mayGoOut_iff (h : v.SameUse w) : w.MayGoOut t ↔ v.MayGoOut t := by
  simp only [Variable.mayGoOut_iff, ne_eq, h.dims_eq_nil, h.mark, h.type, h.direction,
    startsWithDigit, h.name]

theorem SameUse.fortranArg_iff (h : v.SameUse w) : w.FortranArg t ↔ v.FortranArg t := by
  simp only [Variable.fortranArg_iff, h.mark, h.type]

theorem SameUse.fortranResult_iff (h : v.SameUse w) : w.FortranResult t ↔ v.FortranResult t := by
  simp only [Variable.fortranResult_iff, h.mark, h.type]

theorem sameUse_labelVariables (i o : Int) (vs : List Variable) :
    List.Forall₂ SameUse vs (labelVariables i o vs).1 := by
  induction vs generalizing i o with
  | nil => exact .nil
  | cons v vs ih => exact .cons ⟨rfl, rfl, rfl, rfl, rfl⟩ (ih _ _)

theorem length_labelDims (n : Int) (ds : List Dim) : (labelDims n ds).length = ds.length := by
  induction ds generalizing n with
  | nil => rfl
  | cons d ds ih => simp [labelDims, ih]

theorem sameUse_labelAllDims (n : Int) (vs : List Variable) :
    List.Forall₂ SameUse vs (labelAllDims n vs).1 := by
  induction vs generalizing n with
  | nil => exact .nil
  | cons v vs ih =>
    refine .cons ⟨rfl, ?_, ?_, rfl, rfl⟩ (ih _)
    · cases hq : v.qualifier <;> simp [mark?, hq]
    · cases hq : v.qualifier <;> simp [Variable.dims, hq, length_labelDims]

/-- Labels do not matter to what the rules look at. -/
theorem forall_mem_labelled {P : Variable → Prop} (hP : ∀ v w : Variable, v.SameUse w → (P w ↔ P v))
    (i o n : Int) (vs : List Variable) :
    (∀ w ∈ (labelAllDims n (labelVariables i o vs).1).1, P w) ↔ ∀ v ∈ vs, P v :=
  (forall_mem_iff_of_forall₂ (sameUse_labelAllDims n _) hP).trans
    (forall_mem_iff_of_forall₂ (sameUse_labelVariables i o vs) hP)

end Variable

namespace Routine

variable {Q : String → Prop} {t : TypeTable} {r : Routine}

theorem permitted_labelled (t : TypeTable) (r : Routine) :
    r.labelled.Permitted t ↔ r.Permitted t := by
  have results : (∀ w ∈ r.labelled.results, (∃ k, w.Shape t k) ∧ w.MayReturn t) ↔
      ∀ v ∈ r.results, (∃ k, v.Shape t k) ∧ v.MayReturn t :=
    Variable.forall_mem_labelled (fun v w h => by simp only [h.shape_iff, h.mayReturn_iff]) ..
  have args : (∀ w ∈ r.labelled.args, (∃ k, w.Shape t k) ∧ (w.direction ≠ .input → w.MayGoOut t)) ↔
      ∀ v ∈ r.args, (∃ k, v.Shape t k) ∧ (v.direction ≠ .input → v.MayGoOut t) :=
    Variable.forall_mem_labelled
      (fun v w h => by simp only [h.shape_iff, h.mayGoOut_iff, h.direction]) ..
  have fortranArgs : (∀ w ∈ r.labelled.args, w.FortranArg t) ↔ ∀ v ∈ r.args, v.FortranArg t :=
    Variable.forall_mem_labelled (fun v w h => h.fortranArg_iff) ..
  have fortranResults :
      (∀ w ∈ r.labelled.results, w.FortranResult t) ↔ ∀ v ∈ r.results, v.FortranResult t :=
    Variable.forall_mem_labelled (fun v w h => h.fortranResult_iff) ..
  rw [permitted_iff, permitted_iff, results, args, fortranArgs, fortranResults]
  rfl

/-- **A routine is checked without errors just if it is permitted.** -/
theorem errors_eq_zero_iff (hr : r.Written Q) : (r.check t).errors = 0 ↔ r.Permitted t := by
  have hl := hr.labelled
  have hres : ∀ v ∈ r.labelled.results, v.Written Q := fun v hv => (hl.results v hv).toWritten
  rw [hr.check_eq]
  dsimp only
  rw [Findings.errors_append_eq_zero, Findings.errors_append_eq_zero, ← permitted_labelled, permitted_iff,
    ← errors_checkResults hres hl.single, ← errors_checkArgs hl.args, ← and_assoc]
  refine and_congr_right fun ⟨hrs, has⟩ => ?_
  have hresults := shape_checkResults hres hl.single hrs
  have hargs := shape_checkArgs hl.args has
  rw [errors_checkFortran (hresults.length_eq ▸ hl.single)]
  refine imp_congr Iff.rfl (and_congr ?_ ?_)
  · exact forall_mem_iff_of_forall₂ hargs fun v w => Variable.errors_toFortran
  · exact forall_mem_iff_of_forall₂ hresults fun v w => Variable.errors_fromFortran

end Routine

/-! ## Rules of use -/

namespace Variable

/-- The rules of use for an argument, whether they are enforced or not. -/
structure InOrder (t : TypeTable) (v : Variable) : Prop where
  scalar : (t.sort v.type).isNumber = true → v.mark? = none → v.direction.isOutput = false
  arrayRef : v.mark? = some .arrayRef →
    v.direction = .output ∧ (v.dims.length = 1 ∨ v.dims.length = 2)
  gpu : v.device = .gpu → (t.sort v.type).isNumber = true ∧ v.mark? = some .array
  object : t.sort v.type = .object → t.isMxArray v.type = false → v.direction.isOutput = false
  const : t.sort v.type = .const → v.direction.isOutput = false
  string : t.sort v.type = .string → v.dims = [] → v.direction.isOutput = false

/-- The part of these rules that is enforced. -/
structure Enforced (t : TypeTable) (v : Variable) : Prop where
  scalar : t.sort v.type = .number .real → v.mark? = none → v.direction.isOutput = false
  arrayRef : v.mark? = some .arrayRef → v.direction = .output →
    v.dims.length = 1 ∨ v.dims.length = 2
  object : t.sort v.type = .object → t.isMxArray v.type = false → v.direction.isOutput = false
  const : t.sort v.type = .const → v.direction.isOutput = false
  string : t.sort v.type = .string → v.dims = [] → v.direction.isOutput = false

/-- The uses out of order that are not noticed. -/
inductive Overlooked (t : TypeTable) (v : Variable) : Prop
  | complexOutput (f : Field) (sort : t.sort v.type = .number f) (complex : f ≠ .real)
      (bare : v.mark? = none) (out : v.direction.isOutput = true)
  | arrayRefInput (mark : v.mark? = some .arrayRef) (direction : v.direction ≠ .output)
  | gpu (device : v.device = .gpu)
      (form : ¬ ((t.sort v.type).isNumber = true ∧ v.mark? = some .array))

variable {t : TypeTable} {v : Variable} {k : Kind}

theorem isOutput_eq_false (h : v.direction = .input) : v.direction.isOutput = false := by
  rw [h]
  rfl

theorem Shape.planar (h : v.Shape t k)
    (hm : v.mark? = some .array ∨ v.mark? = some .arrayRef) : v.dims.length ≤ 2 := by
  cases h with
  | number f m sort mark => simp [mark, mark?_ne_array, mark?_ne_arrayRef] at hm
  | array f sort mark planar => exact planar
  | arrayRef sort mark planar => exact planar
  | const sort mark => simp [mark] at hm
  | string sort mark linear => omega
  | mx sort mark => simp [mark] at hm
  | object m sort mark => simp [mark, mark?_ne_array, mark?_ne_arrayRef] at hm

theorem Shape.enforced (h : v.Shape t k) (hout : v.direction ≠ .input → v.MayGoOut t) :
    v.Enforced t := by
  by_cases hin : v.direction = .input
  · have := isOutput_eq_false hin
    exact ⟨fun _ _ => this, fun _ e => by simp [hin] at e, fun _ _ => this, fun _ => this,
      fun _ _ => this⟩
  · obtain ⟨-, scalar, sized, const, string, -, object⟩ := hout hin
    refine ⟨fun e m => absurd m (scalar e), fun m e => ?_, fun e m => ?_, fun e => absurd e const,
      fun e d => absurd d (string e)⟩
    · have hpos := List.length_pos_iff.2 (sized (Or.inr m) e)
      have hplanar := h.planar (Or.inr m)
      omega
    · rw [object e] at m
      cases m

/-- **Whatever is out of order in spite of the rules is overlooked.** -/
theorem Enforced.inOrder_iff (h : v.Enforced t) : v.InOrder t ↔ ¬ v.Overlooked t := by
  constructor
  · intro hv hlook
    cases hlook with
    | complexOutput f sort complex bare out =>
      have := hv.scalar (by rw [sort]; rfl) bare
      rw [out] at this
      cases this
    | arrayRefInput mark direction => exact direction (hv.arrayRef mark).1
    | gpu device form => exact form (hv.gpu device)
  · intro hlook
    refine ⟨fun e m => ?_, fun m => ?_, fun d => ?_, h.object, h.const, h.string⟩
    · cases hs : t.sort v.type with
      | number f =>
        by_cases hf : f = .real
        · subst f
          exact h.scalar hs m
        · by_contra hout
          exact hlook (.complexOutput f hs hf m (by simpa using hout))
      | _ => simp [hs, TypeSort.isNumber] at e
    · have hdir : v.direction = .output := by
        by_contra hd
        exact hlook (.arrayRefInput m hd)
      exact ⟨hdir, h.arrayRef m hdir⟩
    · by_contra hform
      exact hlook (.gpu d hform)

end Variable

namespace Ledger

/-- **The rules of use.** A declaration is accepted just if it is permitted. Each of its arguments
then keeps the enforced rules, and it is in order unless it is a complex scalar for output, an array
reference for anything but output, or something else than a numeric array on a GPU. A returned array
has one or two dimensions. -/
theorem usage_rules {file : String} {ts : List Token} {r : Routine}
    (hparse : Statement.parse file ts = .ok (.call r)) (l : Ledger) :
    let t := l.context.types
    let d := promote l.context.settings.promotion r
    ((l.checked r).errors = 0 ↔ d.Permitted t) ∧
      ((l.checked r).errors = 0 →
        (∀ v ∈ d.args, v.Enforced t ∧ (v.InOrder t ↔ ¬ v.Overlooked t)) ∧
        ∀ v ∈ d.results, v.mark? = some .array → v.dims.length = 1 ∨ v.dims.length = 2) := by
  intro t d
  have hr : r.Written fun _ => True := Statement.written_of_parse (fun _ _ _ => trivial) hparse
  have hd := written_promote (p := l.context.settings.promotion) (fun _ _ => trivial) hr
    (l.count + 1)
  have hiff : (l.checked r).errors = 0 ↔ d.Permitted t := by
    rw [checked, Routine.errors_eq_zero_iff hd, Routine.permitted_iff, Routine.permitted_iff]
  refine ⟨hiff, fun h => ?_⟩
  obtain ⟨results, args, -⟩ := hiff.1 h
  refine ⟨fun v hv => ?_, fun v hv hmark => ?_⟩
  · obtain ⟨⟨k, hk⟩, hout⟩ := args v hv
    have := hk.enforced hout
    exact ⟨this, this.inOrder_iff⟩
  · obtain ⟨⟨k, hk⟩, hreturn⟩ := results v hv
    have hpos := List.length_pos_iff.2 (hreturn.sized hmark)
    have hplanar := hk.planar (Or.inl hmark)
    omega

/-- A table with complex numbers and a type that is converted. -/
def usageLedger : Ledger :=
  { context := { types := TypeTable.initial.addComplex.add "mesh" .mxArray } }

/-- An array comes back, beside one by reference, an object, a text and what lies on a GPU. -/
def smoothTokens : List Token := Token.tokens 1
  ("double[m,2] q = smooth(output double[m]& x, output mesh c, inout cstring[80] s, "
    ++ "gpu inout double[] g, dcomplex z, int m);").toList

def smoothRoutine : Routine where
  name := "smooth"
  file := "a.mw"
  line := 1
  args := [
    { direction := .output, type := "double", name := "x"
      qualifier := some { mark := .arrayRef, dims := [{ text := "m" }] } },
    { direction := .output, type := "mesh", name := "c" },
    { direction := .inout, type := "cstring", name := "s"
      qualifier := some { mark := .array, dims := [{ text := "80" }] } },
    { device := .gpu, direction := .inout, type := "double", name := "g"
      qualifier := some { mark := .array } },
    { type := "dcomplex", name := "z" },
    { type := "int", name := "m" }]
  results := [{ direction := .output, type := "double", name := "q"
                qualifier := some { mark := .array, dims := [{ text := "m" }, { text := "2" }] } }]

theorem usage_rules_smoothRoutine :
    let t := usageLedger.context.types
    let d := promote usageLedger.context.settings.promotion smoothRoutine
    Statement.parse "a.mw" smoothTokens = .ok (.call smoothRoutine) ∧
      (usageLedger.checked smoothRoutine).errors = 0 ∧ d.Permitted t ∧
      (∀ v ∈ d.args, v.Enforced t ∧ (v.InOrder t ↔ ¬ v.Overlooked t)) ∧
      ∀ v ∈ d.results, v.mark? = some .array → v.dims.length = 1 ∨ v.dims.length = 2 := by
  intro t d
  have hparse : Statement.parse "a.mw" smoothTokens = .ok (.call smoothRoutine) := by decide +kernel
  have herrors : (usageLedger.checked smoothRoutine).errors = 0 := by decide +kernel
  obtain ⟨hiff, hrules⟩ := usage_rules hparse usageLedger
  exact ⟨hparse, herrors, hiff.1 herrors, hrules herrors⟩

/-- An array reference that is read, a complex scalar that is written, and a scalar on a GPU. -/
def strayTokens : List Token :=
  Token.tokens 1 "stray(double[n]& x, output dcomplex z, gpu int n);".toList

def strayRoutine : Routine where
  name := "stray"
  file := "a.mw"
  line := 1
  args := [
    { type := "double", name := "x"
      qualifier := some { mark := .arrayRef, dims := [{ text := "n" }] } },
    { direction := .output, type := "dcomplex", name := "z" },
    { device := .gpu, type := "int", name := "n" }]

/-- **Not all that is accepted is in order.** -/
theorem strayRoutine_accepted :
    let t := usageLedger.context.types
    let d := promote usageLedger.context.settings.promotion strayRoutine
    Statement.parse "a.mw" strayTokens = .ok (.call strayRoutine) ∧
      (usageLedger.checked strayRoutine).errors = 0 ∧ ∀ v ∈ d.args, ¬ v.InOrder t := by
  intro t d
  refine ⟨by decide +kernel, by decide +kernel, fun v hv h => ?_⟩
  simp only [d, promote, strayRoutine, List.map_cons, List.map_nil, List.mem_cons,
    List.not_mem_nil, or_false] at hv
  rcases hv with rfl | rfl | rfl
  · exact absurd (h.arrayRef rfl).1 (by decide)
  · exact absurd (h.scalar (by decide +kernel) rfl) (by decide)
  · exact absurd (h.gpu rfl).2 (by decide)

end Ledger

end MexBridge
