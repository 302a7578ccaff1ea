import MexBridge.Proofs.Stub.Blocks

/-!
# What the code for a variable tells of its kind

Each statement that reads or hands back a variable is made for one family of kinds, and the way the
variable is passed to the call tells the rest. So two arguments with the same code are shown with
the same kind (`SameCode.shownKind_eq`), and likewise two results (`SameResult.shownKind_eq`).
-/

namespace MexBridge

/-- Kinds read and handed back by the same statements. -/
inductive Family where
  | object
  | array
  | real
  | complex
  | string
  | mx
deriving DecidableEq, Repr

/-- The family that a statement is made for. -/
def Stmt.family? : Stmt → Option Family
  | .getObject .. => some .object
  | .getArray .. => some .array
  | .getGpuArray .. => some .array
  | .getString _ => some .string
  | .getSizedString .. => some .string
  | .getNumber .. => some .real
  | .getComplex .. => some .complex
  | .getMx _ => some .mx
  | .setConverted .. => some .object
  | .setPointer .. => some .object
  | .setArray .. => some .array
  | .setSame .. => some .array
  | .setGpuArray _ => some .array
  | .setNumber .. => some .real
  | .setComplex .. => some .complex
  | .setString .. => some .string
  | _ => none

/-- The family of a kind on the way in. Constants stay behind and array references start as null. -/
def Kind.readAs : Kind → Option Family
  | .object _ => some .object
  | .array _ => some .array
  | .number .real _ => some .real
  | .number _ _ => some .complex
  | .string => some .string
  | .mx => some .mx
  | _ => none

/-- The family of a kind on the way back. The wrapped function sets a MATLAB array by itself. -/
def Kind.writtenAs : Kind → Option Family
  | .mx => none
  | .arrayRef => some .array
  | k => k.readAs

/-- Kinds of one family, with what they must have in common. -/
inductive Kind.Related : Kind → Kind → Prop
  | object (m n : Mode) : Related (.object m) (.object n)
  | array (f e : Field) : Related (.array f) (.array e)
  | number (f e : Field) (m n : Mode) (shown : f.shown = e.shown) :
      Related (.number f m) (.number e n)
  | same (k : Kind) : Related k k
  | unread (k l : Kind) (left : k.readAs = none) (right : l.readAs = none) : Related k l

theorem Kind.related_of_readAs {k l : Kind} (h : k.readAs = l.readAs) : k.Related l := by
  cases k with
  | object m =>
    cases l with
    | object n => exact .object m n
    | number e n => cases e <;> cases h
    | _ => cases h
  | array f =>
    cases l with
    | array e => exact .array f e
    | number e n => cases e <;> cases h
    | _ => cases h
  | number f m =>
    cases l with
    | number e n => exact .number f e m n (by cases f <;> cases e <;> first | rfl | cases h)
    | _ => cases f <;> cases h
  | string =>
    cases l with
    | string => exact .same _
    | number e n => cases e <;> cases h
    | _ => cases h
  | mx =>
    cases l with
    | mx => exact .same _
    | number e n => cases e <;> cases h
    | _ => cases h
  | _ => exact .unread _ _ rfl h.symm

theorem Kind.eq_of_readAs_none {k : Kind} (h : k.readAs = none) :
    k = .unknown ∨ k = .arrayRef ∨ k = .const := by
  cases k with
  | number f m => cases f <;> cases h
  | unknown => exact Or.inl rfl
  | arrayRef => exact Or.inr (Or.inl rfl)
  | const => exact Or.inr (Or.inr rfl)
  | _ => cases h

theorem Kind.writtenAs_of_ne {k : Kind} (hmx : k ≠ .mx) (href : k ≠ .arrayRef) :
    k.writtenAs = k.readAs := by
  unfold writtenAs
  split
  · exact absurd rfl hmx
  · exact absurd rfl href
  · rfl

/-- A kind without the field of its numbers. -/
def Kind.fieldless : Kind → Kind
  | .number _ m => .number .real m
  | .array _ => .array .real
  | k => k

/-- The kind of a returned value, as what becomes of it and its mark tell. -/
def Disposal.kind : Disposal → Option Mark → Kind
  | .copiedString, _ => .string
  | .copiedNumber _, _ => .number .real .pointer
  | .copiedArray .., _ => .array .real
  | .returned, _ => .mx
  | .kept, none => .number .real .value
  | .kept, some .reference => .number .real .reference
  | _, none => .object .value
  | _, some .reference => .object .reference
  | _, _ => .object .pointer

/-- The stub handles two arguments in the same way. -/
structure Variable.SameCode (t : TypeTable) (v w : Variable) : Prop where
  labels : v.labels = w.labels
  read : v.getInput t = w.getInput t
  actual : v.actual = w.actual
  alloc : ∃ ss, v.alloc t false = .ok ss ∧ w.alloc t false = .ok ss
  write : ∃ ss, v.setResult t false = .ok ss ∧ w.setResult t false = .ok ss

/-- The stub handles two results in the same way; one converted in the call is not handed back. -/
structure Variable.SameResult (t : TypeTable) (v w : Variable) : Prop where
  labels : v.labels = w.labels
  disposal : ∃ d, v.disposal t = .ok d ∧ w.disposal t = .ok d
  write : v.kind.isNullable = false → v.setResult t true = w.setResult t true

namespace Variable

variable {p : Promotion} {t : TypeTable} {v w : Variable} {ss : List Stmt}

theorem family_getInput (hd : v.direction = .input ∨ v.direction = .inout) :
    (v.getInput t).head?.bind Stmt.family? = v.kind.readAs := by
  have hin : v.direction.isInput = true := by rcases hd with e | e <;> simp [e, Direction.isInput]
  have hout : v.direction ≠ .output := by rcases hd with e | e <;> simp [e]
  unfold getInput
  rw [if_neg hout]
  cases hk : v.kind with
  | array f => cases hg : v.onGpu <;> simp [hin, Stmt.family?, Kind.readAs]
  | number f m => cases f <;> rfl
  | string => cases hds : v.dims.isEmpty <;> simp [Stmt.family?, Kind.readAs]
  | _ => rfl

theorem setArray_eq_ok {byRef : Bool} (h : v.setArray byRef = .ok ss) : ∃ l shape,
    ss = [.setArray v.outLabel v.inLabel v.type v.kind.isComplex byRef l shape] := by
  obtain ⟨ds, -, h⟩ := bind_eq_ok.1 h
  exact ⟨_, _, (Except.ok.inj h).symm⟩

theorem family_setResult (hd : v.direction = .output) (h : v.setResult t false = .ok ss) :
    ss.head?.bind Stmt.family? = v.kind.writtenAs := by
  unfold setResult at h
  rw [if_neg (by simp [hd])] at h
  have harray : ∀ byRef, (if v.onGpu then .ok v.setGpu else v.setArray byRef) = .ok ss →
      ss.head?.bind Stmt.family? = some .array := by
    intro byRef h
    split at h
    · rw [← Except.ok.inj h]
      simp [setGpu, hd, Stmt.family?]
    · obtain ⟨l, shape, rfl⟩ := setArray_eq_ok h
      rfl
  cases hk : v.kind with
  | array f => rw [hk] at h; exact harray false h
  | arrayRef => rw [hk] at h; exact harray true h
  | object m =>
    simp only [hk, Bool.false_eq_true, if_false] at h
    split at h <;> rw [← Except.ok.inj h] <;> rfl
  | number f m => cases f <;> simp only [hk] at h <;> rw [← Except.ok.inj h] <;> rfl
  | _ => simp only [hk] at h; rw [← Except.ok.inj h]; rfl

/-! ## Modes -/

theorem mark?_inj {m n : Mode} (h : m.mark? = n.mark?) : m = n := by
  cases m <;> cases n <;> simp_all [Mode.mark?]

theorem Marked.object_eq {m n : Mode} (hv : v.Marked) (hw : w.Marked)
    (hmark : v.qualifier.map (·.mark) = w.qualifier.map (·.mark)) (hk : v.kind = .object m)
    (hk' : w.kind = .object n) : m = n :=
  mark?_inj (by rw [← hv.object m hk, hmark, hw.object n hk'])

theorem Marked.number_eq {f e : Field} {m n : Mode} (hv : v.Marked) (hw : w.Marked)
    (hmark : v.qualifier.map (·.mark) = w.qualifier.map (·.mark)) (hk : v.kind = .number f m)
    (hk' : w.kind = .number e n) (hpointer : m = .pointer ↔ n = .pointer) : m = n := by
  by_cases hm : m = .pointer
  · rw [hm, hpointer.1 hm]
  · have hn : n ≠ .pointer := mt hpointer.2 hm
    refine mark?_inj ?_
    rw [← (hv.number f m hk).resolve_left hm, hmark, (hw.number e n hk').resolve_left hn]

theorem actual_number {f : Field} {m : Mode} (hk : v.kind = .number f m) :
    v.actual = if m = .pointer then .address v.holder else .plain v.holder := by
  unfold actual
  cases m <;> simp [hk]

/-! ## Fields -/

theorem shown_eq {f e : Field} (h : (Kind.array f).isComplex = (Kind.array e).isComplex) :
    f.shown = e.shown := by
  cases f <;> cases e <;> simp_all [Kind.isComplex, Field.shown]

theorem alloc_gpu_eq_ok (hd : v.direction = .output) (hg : v.onGpu = true)
    (h : v.alloc t false = .ok ss) : ∃ m n,
    ss = [.allocGpuArray v.outLabel v.type v.kind.isComplex m n] := by
  unfold alloc at h
  rw [if_neg (by simp [hd]), if_pos hg] at h
  obtain ⟨ds, -, h⟩ := bind_eq_ok.1 h
  split at h
  · cases h
  · exact ⟨_, _, (Except.ok.inj h).symm⟩
  · exact ⟨_, _, (Except.ok.inj h).symm⟩

theorem setResult_array {f : Field} (hd : v.direction ≠ .input) (hg : v.onGpu = false)
    (hk : v.kind = .array f) (h : v.setResult t false = .ok ss) : ∃ l shape,
    ss = [.setArray v.outLabel v.inLabel v.type v.kind.isComplex false l shape] := by
  unfold setResult at h
  rw [if_neg hd, hk] at h
  simp only [hg, Bool.false_eq_true, if_false] at h
  exact setArray_eq_ok h

theorem getInput_array {f : Field} (hd : v.direction ≠ .output) (hg : v.onGpu = false)
    (hk : v.kind = .array f) : v.getInput t = [.getArray v.inLabel v.type v.arraySource] := by
  unfold getInput
  rw [if_neg hd, hk]
  simp [hg]

theorem arraySource_eq_checkedCopy (h : Numeric.isKnown v.type = true) :
    v.arraySource = .checkedCopy ↔ v.kind.isComplex = true := by
  unfold arraySource
  cases hc : v.kind.isComplex
  · simp
    split <;> simp
  · simp [h]

/-- Where the field of an array shows at all, it shows in how the array is taken, made or handed
back. -/
theorem SameCode.isComplex_eq {f e : Field} (h : SameCode t v w) (htype : v.type = w.type)
    (hdir : v.direction = w.direction) (hgpu : v.onGpu = w.onGpu)
    (hwritten : v.direction = .input ∨ v.direction = .output ∨ v.direction = .inout)
    (hk : v.kind = .array f) (hk' : w.kind = .array e) (hshown : v.hidesField = false) :
    v.kind.isComplex = w.kind.isComplex := by
  obtain ⟨ws, hwrite, hwrite'⟩ := h.write
  have hback : v.direction ≠ .input → v.onGpu = false → v.kind.isComplex = w.kind.isComplex := by
    intro hd hg
    obtain ⟨l, shape, rfl⟩ := setResult_array hd hg hk hwrite
    obtain ⟨l', shape', e⟩ := setResult_array (hdir ▸ hd) (hgpu ▸ hg) hk' hwrite'
    simp_all
  -- An input shows its field when it is read, an output on the GPU when it is made.
  rcases hwritten with hd | hd | hd
  · have hg : v.onGpu = false ∧ Numeric.isKnown v.type = true := by
      simpa [hidesField, hd] using hshown
    have hout : v.direction ≠ .output := by simp [hd]
    have hread := h.read
    rw [getInput_array hout hg.1 hk, getInput_array (hdir ▸ hout) (hgpu ▸ hg.1) hk'] at hread
    have hsource : v.arraySource = w.arraySource := by simp_all
    rw [Bool.eq_iff_iff, ← arraySource_eq_checkedCopy hg.2, hsource,
      arraySource_eq_checkedCopy (htype ▸ hg.2)]
  · cases hg : v.onGpu with
    | false => exact hback (by simp [hd]) hg
    | true =>
      obtain ⟨as, halloc, halloc'⟩ := h.alloc
      obtain ⟨m, n, rfl⟩ := alloc_gpu_eq_ok hd hg halloc
      obtain ⟨m', n', e⟩ := alloc_gpu_eq_ok (hdir ▸ hd) (hgpu ▸ hg) halloc'
      simp_all
  · refine hback (by simp [hd]) ?_
    simpa [hidesField, hd] using hshown

/-! ## Kinds -/

theorem hidesField_eq (htype : v.type = w.type) (hdir : v.direction = w.direction)
    (hgpu : v.onGpu = w.onGpu) : v.hidesField = w.hidesField := by
  simp [hidesField, htype, hdir, hgpu]

/-- On the way back array references are taken for arrays, but their marks tell them apart. -/
theorem related_of_writtenAs {k l : Kind} (h : k.writtenAs = l.writtenAs)
    (hk : k ≠ .const ∧ k ≠ .unknown) (hl : l ≠ .const ∧ l ≠ .unknown)
    (href : k = .arrayRef ↔ l = .arrayRef) : k.Related l := by
  by_cases hr : k = .arrayRef
  · rw [hr, href.1 hr]
    exact .same _
  have hr' : l ≠ .arrayRef := mt href.2 hr
  by_cases hm : k = .mx
  · by_cases hm' : l = .mx
    · rw [hm, hm']
      exact .same _
    · rw [Kind.writtenAs_of_ne hm' hr', hm] at h
      rcases Kind.eq_of_readAs_none h.symm with e | e | e <;> simp_all
  · by_cases hm' : l = .mx
    · rw [Kind.writtenAs_of_ne hm hr, hm'] at h
      rcases Kind.eq_of_readAs_none h with e | e | e <;> simp_all
    · rw [Kind.writtenAs_of_ne hm hr, Kind.writtenAs_of_ne hm' hr'] at h
      exact Kind.related_of_readAs h

/-- Arguments with the same code have kinds of one family. -/
theorem SameCode.related (h : SameCode t v w) (hdir : v.direction = w.direction)
    (hwritten : v.Written IsName) (sv : v.SoundArg) (sw : w.SoundArg)
    (href : v.kind = .arrayRef ↔ w.kind = .arrayRef) : v.kind.Related w.kind := by
  have hout : v.direction = .output → v.kind.Related w.kind := by
    intro hd
    have hd' : w.direction = .output := hdir ▸ hd
    obtain ⟨ss, hv, hw⟩ := h.write
    refine related_of_writtenAs ?_ ⟨fun hc => ?_, sv.known⟩ ⟨fun hc => ?_, sw.known⟩ href
    · rw [← family_setResult hd hv, ← family_setResult hd' hw]
    · simp [sv.const hc] at hd
    · simp [sw.const hc] at hd'
  have hin : v.direction = .input ∨ v.direction = .inout → v.kind.Related w.kind := by
    intro hd
    refine Kind.related_of_readAs ?_
    rw [← family_getInput hd, h.read, family_getInput (hdir ▸ hd)]
  rcases hwritten.direction with hd | hd | hd
  · exact hin (Or.inl hd)
  · exact hout hd
  · exact hin (Or.inr hd)

/-- **Arguments with the same code are shown with the same kind.** -/
theorem SameCode.shownKind_eq (h : SameCode t v w) (halike : v.WrittenAlike p w)
    (htype : v.type = w.type) (hwritten : v.Written IsName) (hv : v.Marked) (hw : w.Marked)
    (sv : v.SoundArg) (sw : w.SoundArg) : v.shownKind false = w.shownKind false := by
  have hdir := halike.direction
  have hgpu : v.onGpu = w.onGpu := by simp [onGpu, halike.device]
  have href : v.kind = .arrayRef ↔ w.kind = .arrayRef := by
    rw [hv.arrayRef, hw.arrayRef, isRef_eq_of_mark halike.mark]
  have hhides := hidesField_eq htype hdir hgpu
  have hrelated := h.related hdir hwritten sv sw href
  generalize hk : v.kind = k at hrelated
  generalize hk' : w.kind = l at hrelated
  cases hrelated with
  | object m n => simp [shownKind, hk, hk', hv.object_eq hw halike.mark hk hk']
  | array f e =>
    cases hh : v.hidesField with
    | true => simp [shownKind, hk, hk', hh, ← hhides]
    | false =>
      have hcomplex := h.isComplex_eq htype hdir hgpu hwritten.direction hk hk' hh
      rw [hk, hk'] at hcomplex
      simp [shownKind, hk, hk', hh, ← hhides, shown_eq hcomplex]
  | number f e m n hshown =>
    have hmode : m = n := by
      refine hv.number_eq hw halike.mark hk hk' ?_
      have hactual := h.actual
      rw [actual_number hk, actual_number hk'] at hactual
      by_cases hm : m = .pointer <;> by_cases hn : n = .pointer <;> simp_all
    simp [shownKind, hk, hk', hshown, hmode]
  | same => unfold shownKind; rw [hk, hk', hhides]
  | unread k l left right =>
    rcases Kind.eq_of_readAs_none left with rfl | rfl | rfl
    · exact absurd hk sv.known
    · simp [shownKind, hk, href.1 hk]
    · rcases Kind.eq_of_readAs_none right with rfl | rfl | rfl
      · exact absurd hk' sw.known
      · simp [href.2 hk'] at hk
      · simp [shownKind, hk, hk']

/-! ## Values and references -/

theorem SameCode.symm (h : SameCode t v w) : SameCode t w v := by
  obtain ⟨as, hv, hw⟩ := h.alloc
  obtain ⟨ws, hv', hw'⟩ := h.write
  exact ⟨h.labels.symm, h.read.symm, h.actual.symm, ⟨as, hw, hv⟩, ⟨ws, hw', hv'⟩⟩

theorem actual_eq_literal {s : String} : v.actual = .literal s ↔ v.kind = .const ∧ v.name = s := by
  unfold actual
  cases hk : v.kind with
  | object m => cases m <;> simp
  | number f m => cases m <;> simp
  | mx => by_cases hd : v.direction = .output <;> simp [hd]
  | _ => simp

theorem SameCode.const (h : SameCode t v w) (hk : v.kind = .const) :
    w.kind = .const ∧ v.name = w.name := by
  have hactual := h.actual
  rw [actual_eq_literal.2 ⟨hk, rfl⟩, eq_comm, actual_eq_literal] at hactual
  exact ⟨hactual.1, hactual.2.symm⟩

theorem SameCode.shownValue_eq (h : SameCode t v w) : v.shownValue = w.shownValue := by
  unfold shownValue
  by_cases hk : v.kind = .const
  · rw [if_pos hk, if_pos (h.const hk).1, (h.const hk).2]
  · rw [if_neg hk, if_neg fun e => hk (h.symm.const e).1]

/-- An array reference that is passed in is not read, as only a constant is not; one that is not
passed in has dimensions. -/
theorem SameCode.isSome_of_isRef (h : SameCode t v w) (hv : v.Marked) (hw : w.Marked)
    (sv : v.SoundArg) (sw : w.SoundArg) (hwritten : w.Written IsName)
    (hin : v.direction ≠ .output → v.inLabel ≠ unlabelled) (e : v.isRef = true) :
    w.qualifier.isSome = true := by
  have hk := hv.arrayRef.2 e
  have hlabels : v.inLabel = w.inLabel ∧ v.dims.map (·.label) = w.dims.map (·.label) := by
    have hlabels := h.labels
    simp only [Variable.labels, Prod.mk.injEq] at hlabels
    exact ⟨hlabels.1, hlabels.2.2⟩
  by_cases hd : v.direction = .output
  · have hdims : w.dims ≠ [] := by
      intro hnil
      rw [hnil] at hlabels
      exact sv.sized (Or.inr hk) hd (List.map_eq_nil_iff.1 hlabels.2)
    unfold dims at hdims
    cases hq : w.qualifier with
    | none => simp [hq] at hdims
    | some q => rfl
  · have hd' : w.direction = .input ∨ w.direction = .inout := by
      have hlabel := hin hd
      rw [hlabels.1] at hlabel
      have hinput := mt hwritten.inLabel hlabel
      rcases hwritten.direction with e | e | e <;> simp_all [Direction.isInput]
    have hread : w.kind.readAs = none := by
      rw [← family_getInput (t := t) hd', ← h.read]
      unfold getInput
      rw [if_neg hd, hk]
      rfl
    rcases Kind.eq_of_readAs_none hread with hk' | hk' | hk'
    · exact absurd hk' sw.known
    · exact Variable.isSome_of_isRef (hw.arrayRef.1 hk')
    · simp [(h.symm.const hk').1] at hk

/-! ## Results -/

/-- What becomes of a result tells its kind but for the field. -/
theorem fieldless_eq {d : Option Disposal} (hv : v.Marked) (sv : v.SoundResult)
    (h : v.disposal t = .ok d) :
    some v.kind.fieldless = d.map (·.kind (v.qualifier.map (·.mark))) := by
  cases disposes_disposal h with
  | nothing => exact absurd h (disposal_ne_none sv)
  | @convertedAddress m hk hm =>
    rw [hv.object m hk, hk]
    cases m <;> rfl
  | @keptNumber f m hk hm =>
    rw [(hv.number f m hk).resolve_left hm, hk]
    cases m with
    | pointer => exact absurd rfl hm
    | value | reference => rfl
  | converted hk | keptCopy hk | keptPointer hk | keptAddress hk =>
    rw [hv.object _ hk, hk]
    rfl
  | _ hk => rw [hk]; rfl

/-- Results show the field of numbers only, where they are not copied. -/
theorem shownKind_eq_fieldless (h : ∀ f m, v.kind = .number f m → m = .pointer) :
    v.shownKind true = v.kind.fieldless := by
  unfold shownKind
  cases hk : v.kind with
  | number f m => rw [h f m hk]; rfl
  | _ => rfl

theorem setResult_number {f : Field} {m : Mode} {isResult : Bool} (hd : v.direction = .output)
    (hk : v.kind = .number f m) : v.setResult t isResult = .ok [if f = .real
      then .setNumber v.outLabel v.holder else .setComplex v.outLabel v.type v.holder] := by
  unfold setResult
  rw [if_neg (by simp [hd]), hk]
  cases f <;> rfl

/-- **Results with the same code are shown with the same kind.** -/
theorem SameResult.shownKind_eq (h : SameResult t v w)
    (hmark : v.qualifier.map (·.mark) = w.qualifier.map (·.mark)) (hv : v.Marked) (hw : w.Marked)
    (sv : v.SoundResult) (sw : w.SoundResult) (hout : v.direction = .output)
    (hout' : w.direction = .output) : v.shownKind true = w.shownKind true := by
  obtain ⟨d, hd, hd'⟩ := h.disposal
  have hless : v.kind.fieldless = w.kind.fieldless := by
    rw [← Option.some.injEq, fieldless_eq hv sv hd, fieldless_eq hw sw hd', hmark]
  -- Only numbers that are not copied show their field, and those are kept and handed back.
  by_cases hn : ∃ f m, v.kind = .number f m ∧ m ≠ .pointer
  · obtain ⟨f, m, hk, hm⟩ := hn
    obtain ⟨e, hk'⟩ : ∃ e, w.kind = .number e m := by
      rw [hk] at hless
      cases hk' : w.kind <;> simp_all [Kind.fieldless]
    have hshown : f.shown = e.shown := by
      have hwrite := h.write (by cases m <;> simp_all [Kind.isNullable])
      rw [setResult_number hout hk, setResult_number hout' hk'] at hwrite
      cases f <;> cases e <;> simp_all [Field.shown]
    simp [shownKind, hk, hk', hshown]
  · have hpointer : ∀ f m, v.kind = .number f m → m = .pointer := by
      intro f m hk
      by_contra hm
      exact hn ⟨f, m, hk, hm⟩
    have hpointer' : ∀ f m, w.kind = .number f m → m = .pointer := by
      intro f m hk
      rw [hk] at hless
      cases hk' : v.kind <;> simp_all [Kind.fieldless]
    rw [shownKind_eq_fieldless hpointer, hless, shownKind_eq_fieldless hpointer']

end Variable

end MexBridge
