import MexBridge.Proofs.Stub.Indices

/-!
# Which stubs can be written

Three things can stop a stub: a local of no known type, dimensions of a variable that has no place
for them, and an output on the GPU without dimensions to allocate it by. A check without errors
rules out the first, and the second but for such outputs (`Routine.Vetted`). So the stub of a
checked routine is written exactly if all its outputs on the GPU have dimensions
(`Routine.Vetted.mainStatements_iff`); else one of them tells the fault
(`Routine.Vetted.mainStatements_eq_error`).
-/

namespace MexBridge

/-- What a check without errors, made with the types `t`, tells of an argument. -/
structure Variable.VettedArg (t : TypeTable) (v : Variable) : Prop extends v.SoundArg where
  marked : v.kind.isArray = true ∨ v.kind = .arrayRef → v.qualifier.isSome = true
  field : ∀ f, v.kind = .array f → t.field? v.type = some f
  string : v.kind = .string → v.type = "cstring"
  stringSized : v.kind = .string → v.direction ≠ .input → v.dims ≠ []
  object : v.kind.isObject = true → v.direction ≠ .input → t.isMxArray v.type = true

/-- What it tells of a result. -/
structure Variable.VettedResult (v : Variable) : Prop extends v.SoundResult where
  marked : v.kind.isArray = true → v.qualifier.isSome = true
  output : v.direction = .output
  onCpu : v.onGpu = false

structure Routine.Vetted (t : TypeTable) (r : Routine) : Prop where
  args : ∀ v ∈ r.args, v.VettedArg t
  results : ∀ v ∈ r.results, v.VettedResult
  single : r.results.length ≤ 1

namespace Variable

variable {Q : String → Prop} {t : TypeTable} {v w : Variable}

theorem isSome_of_dims (h : v.dims ≠ []) : v.qualifier.isSome = true := by
  unfold dims at h
  cases hq : v.qualifier with
  | none => simp [hq] at h
  | some q => rfl

theorem Admits.marked_array (h : v.Admits t v.kind)
    (hk : v.kind.isArray = true ∨ v.kind = .arrayRef) : v.qualifier.isSome = true := by
  generalize v.kind = k at h hk
  cases h <;> simp_all [Kind.isArray]

theorem ArgPassed.vetted (h : v.ArgPassed t) : v.VettedArg t := by
  have hadmits := h.admits
  have hallowed := h.allowed
  unfold argFindings outputKindFindings at hallowed
  refine ⟨h.sound, hadmits.marked_array, ?_, ?_, ?_, ?_⟩
  · intro f hf
    rw [hf] at hadmits
    cases hadmits
    assumption
  · intro hs
    rw [hs] at hadmits
    cases hadmits
    assumption
  · intro hs hd hdims
    simp [hs, hd, hdims, Kind.isObject, Kind.isArray] at hallowed
  · intro ho hd
    cases hmx : t.isMxArray v.type with
    | true => rfl
    | false => simp [ho, hd, hmx] at hallowed

/-- FORTRAN touches numbers only. -/
theorem VettedArg.finished {fortran : Bool} (h : v.VettedArg t) (hw : v.Finished fortran w) :
    w.VettedArg t := by
  have hsound := h.toSoundArg.finished hw
  unfold Finished at hw
  split at hw
  · obtain ⟨rfl, -⟩ := hw
    revert hsound
    unfold toFortran
    split
    case h_4 =>
      intro hsound
      exact ⟨hsound, by simp [Kind.isArray], by simp, by simp, by simp, by simp [Kind.isObject]⟩
    all_goals exact fun _ => h
  · exact hw ▸ h

end Variable

theorem Routine.vetted_check {Q : String → Prop} {t : TypeTable} {r : Routine} (hr : r.Written Q)
    (h : (r.check t).errors = 0) : (r.check t).value.Vetted t := by
  have hpassed := passed_of_errors hr h
  have hwritten := hpassed.written hr.labelled
  refine ⟨?_, ?_, hwritten.single⟩
  · intro w hw
    obtain ⟨v, hv, hvw⟩ := hpassed.args w hw
    exact hv.vetted.finished hvw
  · intro w hw
    have hres := hwritten.results w hw
    refine ⟨hpassed.soundResult w hw, fun hk => ?_, hres.output, ?_⟩
    · exact (hpassed.results w hw).admits.marked_array (Or.inl hk)
    · simp [Variable.onGpu, hres.onCpu]

/-- An output on the GPU without dimensions to allocate it by. -/
def Variable.Unsized (v : Variable) : Prop := v.onGpu = true ∧ v.direction = .output ∧ v.dims = []
deriving Decidable

/-- What stops the stub of a routine with such an output. -/
def Variable.sizeFault (v : Variable) : Fault :=
  if v.qualifier.isSome then .missingDimension else .missingQualifier

/-! ## Parts that succeed, and parts that fail -/

/-- The part gives statements. -/
def Succeeds (x : Except Fault (List Stmt)) : Prop := ∃ ss, x = .ok ss

theorem Succeeds.pure (ss : List Stmt) : Succeeds (.ok ss) := ⟨ss, rfl⟩

theorem Succeeds.ne_error {x : Except Fault (List Stmt)} {f : Fault} (h : Succeeds x) :
    x ≠ .error f := by
  obtain ⟨ss, rfl⟩ := h
  simp

theorem Succeeds.bind {α : Type} {x : Except Fault α} {f : α → Except Fault (List Stmt)}
    (hx : ∃ a, x = .ok a) (hf : ∀ a, Succeeds (f a)) : Succeeds (x >>= f) := by
  obtain ⟨a, rfl⟩ := hx
  exact hf a

namespace Routine

theorem bind_eq_error {α β : Type} {f : Fault} {x : Except Fault α} {k : α → Except Fault β}
    (h : x >>= k = .error f) : x = .error f ∨ ∃ a, x = .ok a ∧ k a = .error f := by
  cases x with
  | error e =>
    cases h
    exact Or.inl rfl
  | ok a => exact Or.inr ⟨a, rfl, h⟩

theorem exists_ok_of_mapM {α β : Type} {f : α → Except Fault β} {as : List α} {bs : List β}
    (h : as.mapM f = .ok bs) : ∀ a ∈ as, ∃ b ∈ bs, f a = .ok b := by
  induction as generalizing bs with
  | nil => simp
  | cons a as ih =>
    rw [List.mapM_cons] at h
    obtain ⟨b, hb, h⟩ := bind_eq_ok.1 h
    obtain ⟨bs', hbs, h⟩ := bind_eq_ok.1 h
    cases h
    intro a' ha'
    rcases List.mem_cons.1 ha' with rfl | ha'
    · exact ⟨b, List.mem_cons_self .., hb⟩
    · obtain ⟨b', hmem, hb'⟩ := ih hbs a' ha'
      exact ⟨b', List.mem_cons_of_mem _ hmem, hb'⟩

theorem mapM_eq_error {α β : Type} {f : Fault} {g : α → Except Fault β} {as : List α}
    (h : as.mapM g = .error f) : ∃ a ∈ as, g a = .error f := by
  induction as with
  | nil => cases h
  | cons a as ih =>
    rw [List.mapM_cons] at h
    rcases bind_eq_error h with h | ⟨b, -, h⟩
    · exact ⟨a, by simp, h⟩
    · rcases bind_eq_error h with h | ⟨bs, -, h⟩
      · obtain ⟨a', ha', h⟩ := ih h
        exact ⟨a', by simp [ha'], h⟩
      · cases h

theorem collect_eq_error {f : Fault} {g : Variable → Except Fault (List Stmt)}
    {vs : List Variable} (h : collect g vs = .error f) : ∃ v ∈ vs, g v = .error f := by
  rcases bind_eq_error h with h | ⟨sss, -, h⟩
  · exact mapM_eq_error h
  · cases h

theorem succeeds_collect {f : Variable → Except Fault (List Stmt)} {vs : List Variable} :
    Succeeds (collect f vs) ↔ ∀ v ∈ vs, Succeeds (f v) := by
  constructor
  · rintro ⟨ss, h⟩ v hv
    exact ⟨_, (collect_eq_ok h).2 v hv⟩
  · intro h
    cases hc : collect f vs with
    | ok ss => exact .pure ss
    | error e =>
      obtain ⟨v, hv, he⟩ := collect_eq_error hc
      exact absurd he (h v hv).ne_error

end Routine

namespace Variable

variable {t t' : TypeTable} {v : Variable} {isResult : Bool}

theorem succeeds_localType (hknown : v.kind ≠ .unknown) (hconst : v.kind ≠ .const) :
    ∃ type, v.localType = .ok type := by
  unfold localType
  cases hk : v.kind with
  | unknown => exact absurd hk hknown
  | const => exact absurd hk hconst
  | _ => exact ⟨_, rfl⟩

theorem succeeds_dimLabels (h : v.qualifier.isSome = true) : ∃ ds, v.dimLabels = .ok ds := by
  obtain ⟨q, hq⟩ := Option.isSome_iff_exists.1 h
  exact ⟨_, by rw [dimLabels, hq]⟩

theorem succeeds_declareInput (h : v.kind ≠ .unknown) : Succeeds v.declareInput := by
  unfold declareInput
  split
  · exact .pure _
  · rename_i hguard
    refine .bind (succeeds_localType h fun hc => hguard (Or.inr hc)) fun type => ?_
    split <;> exact .pure _

theorem succeeds_declareOutput (hknown : v.kind ≠ .unknown)
    (hconst : v.direction = .output → v.kind ≠ .const) : Succeeds v.declareOutput := by
  unfold declareOutput
  split
  · exact .pure _
  · rename_i hguard
    have hd : v.direction = .output := by
      by_cases hd : v.direction = .output
      · exact hd
      · exact absurd (Or.inl hd) hguard
    refine .bind (succeeds_localType hknown (hconst hd)) fun type => ?_
    split <;> exact .pure _

/-- There is nothing to allocate an unsized output by. -/
theorem alloc_of_unsized (h : v.Unsized) : v.alloc t isResult = .error v.sizeFault := by
  obtain ⟨hg, hd, hdims⟩ := h
  rw [alloc, if_neg (by simp [hd]), if_pos hg, sizeFault]
  cases hq : v.qualifier with
  | none =>
    have hlabels : v.dimLabels = .error .missingQualifier := by rw [dimLabels, hq]
    rw [hlabels]
    rfl
  | some q =>
    obtain ⟨ds, hds⟩ := succeeds_dimLabels (by rw [hq]; rfl)
    have hnil : ds = [] := by simpa [hdims] using dims_of_dimLabels hds
    rw [hds, hnil]
    rfl

theorem succeeds_alloc_of_sized
    (hmarked : v.kind.isArray = true ∨ v.kind = .string ∧ v.direction = .output →
      v.qualifier.isSome = true)
    (h : ¬ v.Unsized) : Succeeds (v.alloc t isResult) := by
  unfold alloc
  by_cases hd : v.direction = .output
  · rw [if_neg (by simp [hd])]
    by_cases hg : v.onGpu = true
    · rw [if_pos hg]
      have hdims : v.dims ≠ [] := fun e => h ⟨hg, hd, e⟩
      obtain ⟨ds, hds⟩ := succeeds_dimLabels (isSome_of_dims hdims)
      have hne : ds ≠ [] := by simpa [dims_of_dimLabels hds] using hdims
      rw [hds]
      cases ds with
      | nil => exact absurd rfl hne
      | cons m ds =>
        cases ds with
        | nil => exact .pure _
        | cons n ds => cases ds <;> exact .pure _
    · rw [if_neg hg]
      cases hk : v.kind with
      | object m => dsimp only; split <;> exact .pure _
      | array f =>
        exact .bind (succeeds_dimLabels (hmarked (Or.inl (by simp [hk, Kind.isArray]))))
          fun ds => .pure _
      | string => exact .bind (succeeds_dimLabels (hmarked (Or.inr ⟨hk, hd⟩))) fun ds => .pure _
      | _ => exact .pure _
  · rw [if_pos hd]
    exact .pure _

theorem succeeds_alloc
    (hmarked : v.kind.isArray = true ∨ v.kind = .string ∧ v.direction = .output →
      v.qualifier.isSome = true) :
    Succeeds (v.alloc t isResult) ↔ ¬ v.Unsized := by
  refine ⟨fun h hv => ?_, succeeds_alloc_of_sized hmarked⟩
  exact h.ne_error (alloc_of_unsized hv)

theorem alloc_eq_error {f : Fault}
    (hmarked : v.kind.isArray = true ∨ v.kind = .string ∧ v.direction = .output →
      v.qualifier.isSome = true)
    (h : v.alloc t isResult = .error f) : v.Unsized ∧ f = v.sizeFault := by
  by_cases hv : v.Unsized
  · rw [alloc_of_unsized hv] at h
    cases h
    exact ⟨hv, rfl⟩
  · exact absurd h (succeeds_alloc_of_sized hmarked hv).ne_error

theorem succeeds_setArray {byRef : Bool} (h : v.qualifier.isSome = true) :
    Succeeds (v.setArray byRef) :=
  .bind (succeeds_dimLabels h) fun _ => .pure _

theorem succeeds_setResult
    (hmarked : v.kind.isArray = true ∨ v.kind = .arrayRef → v.qualifier.isSome = true) :
    Succeeds (v.setResult t isResult) := by
  unfold setResult
  split
  · exact .pure _
  · cases hk : v.kind with
    | object m =>
      dsimp only
      split
      · split <;> exact .pure _
      · exact .pure _
    | array f =>
      dsimp only
      split
      · exact .pure _
      · exact succeeds_setArray (hmarked (Or.inl (by simp [hk, Kind.isArray])))
    | arrayRef =>
      dsimp only
      split
      · exact .pure _
      · exact succeeds_setArray (hmarked (Or.inr hk))
    | number f m => cases f <;> exact .pure _
    | _ => exact .pure _

theorem succeeds_disposal (h : v.VettedResult) : ∃ d, v.disposal t = .ok d := by
  unfold disposal
  cases hk : v.kind with
  | object m => cases m <;> exact ⟨_, rfl⟩
  | array f =>
    obtain ⟨ds, hds⟩ := succeeds_dimLabels (h.marked (by simp [hk, Kind.isArray]))
    exact ⟨_, by rw [hds]; rfl⟩
  | number f m => cases m <;> exact ⟨_, rfl⟩
  | _ => exact ⟨_, rfl⟩

end Variable

namespace Routine

variable {t : TypeTable} {c : Context} {r : Routine}

theorem Vetted.succeeds_declarations (h : r.Vetted t) : Succeeds r.declarations := by
  have hins : Succeeds (collect (·.declareInput) r.args) :=
    succeeds_collect.2 fun v hv => Variable.succeeds_declareInput (h.args v hv).known
  have houts : Succeeds (collect (·.declareOutput) (r.keptResults ++ r.args)) := by
    refine succeeds_collect.2 fun v hv => ?_
    rcases List.mem_append.1 hv with hv | hv
    · have hres := h.results v (mem_of_keptResults hv)
      exact Variable.succeeds_declareOutput hres.known fun _ => hres.const
    · have harg := h.args v hv
      refine Variable.succeeds_declareOutput harg.known fun hd hc => ?_
      have := harg.const hc
      rw [hd] at this
      cases this
  exact .bind hins fun _ => .bind houts fun _ => .pure _

theorem Vetted.marked_output (h : r.Vetted t) {v : Variable} (hv : v ∈ r.args)
    (hk : v.kind.isArray = true ∨ v.kind = .string ∧ v.direction = .output) :
    v.qualifier.isSome = true := by
  rcases hk with hk | ⟨hk, hd⟩
  · exact (h.args v hv).marked (Or.inl hk)
  · exact Variable.isSome_of_dims ((h.args v hv).stringSized hk (by simp [hd]))

theorem Vetted.succeeds_keptAllocations (h : r.Vetted t) :
    Succeeds (collect (·.alloc c.types true) r.keptResults) := by
  refine succeeds_collect.2 fun v hv => ?_
  have hres := h.results v (mem_of_keptResults hv)
  have hnull : v.kind.isNullable = false := isNullable_of_keptResults h.single hv
  refine Variable.succeeds_alloc_of_sized (fun hk => ?_) ?_
  · rcases hk with hk | ⟨hk, -⟩
    · exact hres.marked hk
    · simp [hk, Kind.isNullable] at hnull
  · simp [Variable.Unsized, hres.onCpu]

theorem Vetted.succeeds_allocations (h : r.Vetted t) :
    Succeeds (r.allocations c.types) ↔ ∀ v ∈ r.args, ¬ v.Unsized := by
  have hargs : Succeeds (collect (·.alloc c.types false) r.args) ↔ ∀ v ∈ r.args, ¬ v.Unsized :=
    succeeds_collect.trans
      (forall₂_congr fun v hv => Variable.succeeds_alloc (h.marked_output hv))
  rw [← hargs]
  constructor
  · rintro ⟨ss, hss⟩
    obtain ⟨-, -, h2⟩ := allocations_eq_ok hss
    exact succeeds_collect.2 fun v hv => ⟨_, h2 v hv⟩
  · exact fun has => .bind h.succeeds_keptAllocations fun _ => .bind has fun _ => .pure _

theorem Vetted.succeeds_callStatements (h : r.Vetted t) : Succeeds (r.callStatements c) := by
  unfold callStatements
  cases hres : r.results with
  | nil => exact .pure _
  | cons v vs =>
    exact .bind (Variable.succeeds_disposal (h.results v (by simp [hres]))) fun _ => .pure _

theorem Vetted.succeeds_resultWrites (h : r.Vetted t) : Succeeds (r.resultWrites c.types) := by
  have hkept : Succeeds (collect (·.setResult c.types true) r.keptResults) := by
    refine succeeds_collect.2 fun v hv => ?_
    have hres := h.results v (mem_of_keptResults hv)
    refine Variable.succeeds_setResult fun hk => ?_
    rcases hk with hk | hk
    · exact hres.marked hk
    · exact absurd hk hres.arrayRef
  have hargs : Succeeds (collect (·.setResult c.types false) r.args) :=
    succeeds_collect.2 fun v hv => Variable.succeeds_setResult (h.args v hv).marked
  exact .bind hkept fun _ => .bind hargs fun _ => .pure _

/-- **A checked routine gets its stub exactly if its outputs on the GPU have dimensions.** -/
theorem Vetted.mainStatements_iff (h : r.Vetted t) :
    Succeeds (r.mainStatements c) ↔ ∀ v ∈ r.args, ¬ v.Unsized := by
  rw [← h.succeeds_allocations (c := c)]
  constructor
  · rintro ⟨ss, hss⟩
    exact (mainStatements_eq_ok hss).allocs
  · intro hallocs
    exact .bind h.succeeds_declarations fun _ => .bind hallocs fun _ =>
      .bind h.succeeds_callStatements fun _ => .bind h.succeeds_resultWrites fun _ => .pure _

/-! ## The fault of a stub that cannot be written -/

theorem Vetted.allocations_eq_error {f : Fault} (h : r.Vetted t)
    (hf : r.allocations c.types = .error f) : ∃ v ∈ r.args, v.Unsized ∧ f = v.sizeFault := by
  rcases bind_eq_error hf with hf | ⟨rs, -, hf⟩
  · exact absurd hf h.succeeds_keptAllocations.ne_error
  · rcases bind_eq_error hf with hf | ⟨as, -, hf⟩
    · obtain ⟨v, hv, hf⟩ := collect_eq_error hf
      exact ⟨v, hv, Variable.alloc_eq_error (h.marked_output hv) hf⟩
    · cases hf

/-- All parts but the allocations succeed. -/
theorem Vetted.mainStatements_eq_error {f : Fault} (h : r.Vetted t)
    (hf : r.mainStatements c = .error f) : ∃ v ∈ r.args, v.Unsized ∧ f = v.sizeFault := by
  rcases bind_eq_error hf with hf | ⟨ds, -, hf⟩
  · exact absurd hf h.succeeds_declarations.ne_error
  rcases bind_eq_error hf with hf | ⟨as, -, hf⟩
  · exact h.allocations_eq_error hf
  rcases bind_eq_error hf with hf | ⟨cs, -, hf⟩
  · exact absurd hf h.succeeds_callStatements.ne_error
  rcases bind_eq_error hf with hf | ⟨ws, -, hf⟩
  · exact absurd hf h.succeeds_resultWrites.ne_error
  · cases hf

end Routine

theorem Group.stub_eq_error {c : Context} {g : Group} {f : Fault}
    (hsign : g.first.isSignable = true) (h : g.stub c = .error f) :
    g.first.mainStatements c = .error f := by
  have hsigned : g.first.signed c.settings.promotion
      = .ok (g.first.signature c.settings.promotion) := if_pos hsign
  rw [stub, hsigned] at h
  rcases Routine.bind_eq_error h with h | ⟨main, -, h⟩
  · cases h
  · rcases Routine.bind_eq_error h with h | ⟨main, -, h⟩
    · exact h
    · cases h

/-- A routine that can be signed has its stub as soon as it has its statements. -/
theorem Group.stub_of_mainStatements {c : Context} {g : Group} {main : List Stmt}
    (hsign : g.first.isSignable = true) (hmain : g.first.mainStatements c = .ok main) :
    g.stub c = .ok (g.stubHead (g.first.signature c.settings.promotion)
      ++ Code.render (main.flatMap Stmt.code) ++ "\nmw_err_label:\n"
      ++ Code.render ((g.first.releases c.types).flatMap Stmt.code) ++ stubTail) := by
  have hsigned : g.first.signed c.settings.promotion
      = .ok (g.first.signature c.settings.promotion) := if_pos hsign
  rw [stub, hsigned, hmain, render_flatMap, render_flatMap]
  rfl

end MexBridge
