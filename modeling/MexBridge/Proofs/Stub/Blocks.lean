import MexBridge.Proofs.Ledger.Accepted
import MexBridge.Proofs.Stub.Anonymous

/-!
# What each variable adds to a stub

The statements of a stage come one block a variable. A block that is not empty belongs to a labelled
variable and carries its label, and labels differ; so where two routines have the same labels and
the same stub up to names, they have the same blocks (`Parts.reads_eq`, `allocs_eq`, `writes_eq`).
-/

namespace MexBridge

/-- The label of the variable that a statement reads, makes room for or hands back. -/
def Stmt.label : Stmt → Int
  | .getObject k .. => k
  | .getArray k .. => k
  | .getGpuArray k _ => k
  | .getString k => k
  | .getSizedString k _ => k
  | .getNumber k _ => k
  | .getComplex k _ => k
  | .getMx k => k
  | .allocObject k _ => k
  | .allocArray k .. => k
  | .nullArray k _ => k
  | .allocString k _ => k
  | .allocGpuArray k .. => k
  | .setConverted k .. => k
  | .setPointer k _ => k
  | .setArray k .. => k
  | .setNumber k _ => k
  | .setComplex k .. => k
  | .setString k _ => k
  | .setSame k _ => k
  | .setGpuArray k => k
  | _ => unlabelled

/-- All statements carry the label `k`; where there is no label there is no statement. -/
def IsBlock (k : Int) (ss : List Stmt) : Prop := ∀ s ∈ ss, s.label = k ∧ k ≠ unlabelled

/-- No label comes twice. -/
def Distinct (ks : List Int) : Prop := ks.Pairwise fun j k => k ≠ unlabelled → j ≠ k

section

variable {α : Type} {label : α → Int} {block : α → List Stmt} {vs ws : List α}

theorem filter_block {k : Int} {ss : List Stmt} (hss : IsBlock k ss)
    (hvs : ∀ v ∈ vs, IsBlock (label v) (block v))
    (hd : ∀ j ∈ vs.map label, j ≠ unlabelled → k ≠ j) :
    (ss ++ vs.flatMap block).filter (·.label = k) = ss := by
  have hself : ss.filter (·.label = k) = ss :=
    List.filter_eq_self.2 fun s hs => by simpa using (hss s hs).1
  have hrest : (vs.flatMap block).filter (·.label = k) = [] := by
    rw [List.filter_eq_nil_iff]
    intro s hs
    obtain ⟨v, hv, hs⟩ := List.mem_flatMap.1 hs
    obtain ⟨hlabel, hne⟩ := hvs v hv s hs
    have := hd (label v) (List.mem_map_of_mem hv) hne
    simpa [hlabel] using this.symm
  rw [List.filter_append, hself, hrest, List.append_nil]

/-- Statements are dealt out to distinct labels in one way only. -/
theorem blocks_inj (hlabels : vs.map label = ws.map label)
    (hvs : ∀ v ∈ vs, IsBlock (label v) (block v)) (hws : ∀ w ∈ ws, IsBlock (label w) (block w))
    (hd : Distinct (vs.map label)) (h : vs.flatMap block = ws.flatMap block) :
    vs.map block = ws.map block := by
  induction vs generalizing ws with
  | nil => rw [List.map_eq_nil_iff.1 hlabels.symm]
  | cons v vs ih =>
    cases ws with
    | nil => simp at hlabels
    | cons w ws =>
      obtain ⟨hlabel, hlabels⟩ : label v = label w ∧ vs.map label = ws.map label := by
        simpa using hlabels
      obtain ⟨hd1, hd2⟩ := List.pairwise_cons.1 hd
      obtain ⟨hv, hvs⟩ := List.forall_mem_cons.1 hvs
      obtain ⟨hw, hws⟩ := List.forall_mem_cons.1 hws
      simp only [List.flatMap_cons] at h
      -- The label of `v` picks its block out of all statements, on both sides.
      have hvw : block v = block w := by
        rw [← filter_block hv hvs hd1, h, hlabel]
        exact filter_block hw hws (by rw [← hlabels, ← hlabel]; exact hd1)
      rw [hvw] at h
      rw [List.map_cons, List.map_cons, hvw, ih hlabels hvs hws hd2 (List.append_cancel_left h)]

end

/-- The labels of those that have one differ, and the others have none. -/
theorem distinct_labels {label : Variable → Int} {isLabelled : Variable → Bool}
    {vs : List Variable} (hnodup : ((vs.filter isLabelled).map label).Nodup)
    (hun : ∀ v ∈ vs, isLabelled v = false → label v = unlabelled) : Distinct (vs.map label) := by
  induction vs with
  | nil => exact List.Pairwise.nil
  | cons v vs ih =>
    obtain ⟨hv, hun⟩ := List.forall_mem_cons.1 hun
    cases hl : isLabelled v with
    | false =>
      rw [List.filter_cons_of_neg (by simp [hl])] at hnodup
      refine List.pairwise_cons.2 ⟨fun k _ hk => ?_, ih hnodup hun⟩
      rw [hv hl]
      exact hk.symm
    | true =>
      rw [List.filter_cons_of_pos hl, List.map_cons, List.nodup_cons] at hnodup
      refine List.pairwise_cons.2 ⟨fun k hk hne => ?_, ih hnodup.2 hun⟩
      rintro rfl
      obtain ⟨w, hw, e⟩ := List.mem_map.1 hk
      refine hnodup.1 (List.mem_map.2 ⟨w, List.mem_filter.2 ⟨hw, ?_⟩, e⟩)
      rcases Bool.eq_false_or_eq_true (isLabelled w) with hl' | hl'
      · exact hl'
      · exact absurd (e.symm.trans (hun w hw hl')) hne

/-! ## The blocks of a variable -/

/-- The value of the call is copied at once. -/
def Disposal.isCopied : Disposal → Bool
  | .copiedString => true
  | .copiedNumber _ => true
  | .copiedArray .. => true
  | _ => false

namespace Variable

variable {t : TypeTable} {v : Variable} {s : Stmt} {isResult : Bool}

theorem label_getInput (h : s ∈ v.getInput t) : s.label = v.inLabel ∧ v.direction ≠ .output := by
  have hmakes : v.Makes t false .read s := makes_getInput h
  cases hmakes <;> exact ⟨rfl, ‹_›⟩

theorem label_alloc (h : s ∈ made (v.alloc t isResult)) :
    s.label = v.outLabel ∧ v.direction = .output := by
  cases makes_alloc h <;> exact ⟨rfl, ‹_›⟩

theorem label_setResult (h : s ∈ made (v.setResult t isResult)) :
    s.label = v.outLabel ∧ v.direction ≠ .input := by
  cases makes_setResult h <;> simp_all [Stmt.label]

theorem isNullable_eq {d : Option Disposal} (h : v.disposal t = .ok d) :
    v.kind.isNullable = d.any (·.isCopied) := by
  cases disposes_disposal h with
  | keptNumber hk hm => simp [hk, hm, Kind.isNullable, Disposal.isCopied]
  | nothing hk => rcases hk with hk | hk | hk <;> rw [hk] <;> rfl
  | _ hk => rw [hk]; rfl

end Variable

/-! ## The statements of one stage -/

theorem filter_stage_eq {ss ts : List Stmt} (h : ss.map Stmt.masked = ts.map Stmt.masked)
    {st : Stage} (hst : st.named = false) :
    ss.filter (·.stage = some st) = ts.filter (·.stage = some st) := by
  have hmasked : ∀ us : List Stmt, us.filter (·.stage = some st)
      = (us.map Stmt.masked).filter (·.stage = some st) := by
    intro us
    rw [List.filter_map]
    simp only [Function.comp_def, stage_masked]
    exact (map_masked_of_stage (fun s hs => by simpa using (List.mem_filter.1 hs).2) hst).symm
  rw [hmasked, h, ← hmasked]

theorem filter_stage {ss : List Stmt} {st st' : Stage} (h : ∀ s ∈ ss, s.stage = some st') :
    ss.filter (·.stage = some st) = if st' = st then ss else [] := by
  split
  · subst st'
    exact List.filter_eq_self.2 fun s hs => by simpa using h s hs
  · rw [List.filter_eq_nil_iff]
    intro s hs
    simpa [h s hs]

theorem filter_stage_blank {ss : List Stmt} {st st' : Stage} (hne : st' ≠ st)
    (h : ∀ s ∈ ss, s.stage = some st' ∨ s = .blank) : ss.filter (·.stage = some st) = [] := by
  rw [List.filter_eq_nil_iff]
  intro s hs
  rcases h s hs with h | rfl
  · simpa [h]
  · simp [Stmt.stage]

namespace Routine

/-- The part of the plan that one stage is made of. -/
def part (c : Context) (r : Routine) : Stage → List Stmt
  | .read => r.inputReads c.types
  | .alloc => made (r.allocations c.types)
  | .call => made (r.callStatements c)
  | .write => made (r.resultWrites c.types)
  | _ => []

variable {c : Context} {r : Routine} {ss : List Stmt}

theorem Parts.filter_stage (h : r.Parts c ss) {st : Stage}
    (hst : st ∈ [Stage.read, .alloc, .call, .write]) :
    ss.filter (·.stage = some st) = r.part c st := by
  have hne : Stage.declare ≠ st ∧ Stage.readDim ≠ st := by
    constructor <;> rintro rfl <;> simp at hst
  rw [h.eq]
  simp only [List.filter_append, filter_stage_blank hne.1 fun _ => stage_declarations,
    filter_stage_blank hne.2 fun _ => stage_dimReads,
    MexBridge.filter_stage fun _ => stage_dimChecks (r := r),
    MexBridge.filter_stage fun _ => stage_inputReads (r := r) (t := c.types),
    MexBridge.filter_stage fun _ => stage_inputChecks (r := r),
    MexBridge.filter_stage fun _ => stage_allocations (r := r) (t := c.types),
    MexBridge.filter_stage fun _ => stage_callStatements (r := r) (c := c),
    MexBridge.filter_stage fun _ => stage_resultWrites (r := r) (t := c.types)]
  simp only [List.mem_cons, List.not_mem_nil, or_false] at hst
  rcases hst with rfl | rfl | rfl | rfl <;> simp [part, Stmt.stage]

end Routine

/-! ## Labels of accepted routines -/

namespace Routine.Accepted

variable {p : Promotion} {r : Routine}

theorem inLabel_ne (h : r.Accepted p) {v : Variable} (hv : v ∈ r.args)
    (hd : v.direction ≠ .output) : v.inLabel ≠ unlabelled := by
  obtain ⟨n, hright⟩ := h.right
  have hin : v.direction.isInput = true := by
    rcases (h.written.args v hv).direction with e | e | e <;> simp_all [Direction.isInput]
  have hmem : v.inLabel ∈ r.rightPlaces := by
    simp only [rightPlaces, inLabels, List.mem_append, List.mem_map, List.mem_filter]
    exact Or.inl (Or.inr ⟨v, ⟨hv, hin⟩, rfl⟩)
  rw [hright, mem_labelsFrom] at hmem
  unfold unlabelled
  omega

theorem variable_written (h : r.Accepted p) {v : Variable} (hv : v ∈ r.results ++ r.args) :
    v.Written IsName := by
  rcases List.mem_append.1 hv with hv | hv
  · exact (h.written.results v hv).toWritten
  · exact h.written.args v hv

theorem outLabel_ne (h : r.Accepted p) {v : Variable} (hv : v ∈ r.results ++ r.args)
    (hd : v.direction ≠ .input) : v.outLabel ≠ unlabelled := by
  obtain ⟨n, hleft⟩ := h.left
  have hout : v.direction.isOutput = true := by
    rcases (h.variable_written hv).direction with e | e | e <;> simp_all [Direction.isOutput]
  have hmem : v.outLabel ∈ outLabels (r.results ++ r.args) :=
    List.mem_map_of_mem (List.mem_filter.2 ⟨hv, hout⟩)
  rw [hleft, mem_labelsFrom] at hmem
  unfold unlabelled
  omega

theorem distinct_in (h : r.Accepted p) : Distinct (r.args.map (·.inLabel)) := by
  obtain ⟨n, hright⟩ := h.right
  have hnodup := nodup_labelsFrom 0 n
  rw [← hright, rightPlaces] at hnodup
  exact distinct_labels hnodup.of_append_left.of_append_right
    fun v hv => (h.written.args v hv).inLabel

theorem distinct_out (h : r.Accepted p) : Distinct ((r.results ++ r.args).map (·.outLabel)) := by
  obtain ⟨n, hleft⟩ := h.left
  have hnodup := nodup_labelsFrom 0 n
  rw [← hleft] at hnodup
  exact distinct_labels hnodup fun v hv => (h.variable_written hv).outLabel

end Routine.Accepted

/-! ## Equal stubs -/

/-- The labels of a variable and of its dimensions. -/
def Variable.labels (v : Variable) : Int × Int × List Int :=
  (v.inLabel, v.outLabel, v.dims.map (·.label))

/-- The stubs of `f` and `g` are the same up to their numbers and to names in remarks and messages,
and look for each variable in the same places. -/
structure Routine.SameStub (c : Context) (f g : Routine) : Prop where
  main : maskAll (f.mainStatements c) = maskAll (g.mainStatements c)
  releases : f.releases c.types = g.releases c.types
  args : f.args.map Variable.labels = g.args.map Variable.labels
  results : f.results.map Variable.labels = g.results.map Variable.labels

instance (c : Context) (f g : Routine) : Decidable (f.SameStub c g) :=
  decidable_of_iff (maskAll (f.mainStatements c) = maskAll (g.mainStatements c) ∧
    f.releases c.types = g.releases c.types ∧
    f.args.map Variable.labels = g.args.map Variable.labels ∧
    f.results.map Variable.labels = g.results.map Variable.labels)
    ⟨fun h => ⟨h.1, h.2.1, h.2.2.1, h.2.2.2⟩, fun h => ⟨h.1, h.2, h.3, h.4⟩⟩

namespace Routine

variable {p : Promotion} {c : Context} {f g : Routine} {ss ts : List Stmt}

theorem SameStub.planned (h : SameStub c f g) (hf : f.mainStatements c = .ok ss) :
    ∃ ts, g.mainStatements c = .ok ts ∧ ss.map Stmt.masked = ts.map Stmt.masked := by
  have hmain := h.main
  rw [hf] at hmain
  cases hg : g.mainStatements c with
  | error e => rw [hg] at hmain; cases hmain
  | ok ts =>
    rw [hg] at hmain
    exact ⟨ts, rfl, Except.ok.inj hmain⟩

/-- Equal stubs are equal stage by stage. -/
theorem SameStub.part_eq (h : SameStub c f g) (hf : f.mainStatements c = .ok ss) (st : Stage)
    (hst : st ∈ [Stage.read, .alloc, .call, .write]) : f.part c st = g.part c st := by
  obtain ⟨ts, hg, hmasked⟩ := h.planned hf
  rw [← (mainStatements_eq_ok hf).filter_stage hst, ← (mainStatements_eq_ok hg).filter_stage hst]
  refine filter_stage_eq hmasked ?_
  simp only [List.mem_cons, List.not_mem_nil, or_false] at hst
  rcases hst with rfl | rfl | rfl | rfl <;> rfl

theorem inLabel_of_labels {vs ws : List Variable}
    (h : vs.map Variable.labels = ws.map Variable.labels) :
    vs.map (·.inLabel) = ws.map (·.inLabel) := by
  simpa [Variable.labels, Function.comp_def] using congrArg (List.map (·.1)) h

theorem outLabel_of_labels {vs ws : List Variable}
    (h : vs.map Variable.labels = ws.map Variable.labels) :
    vs.map (·.outLabel) = ws.map (·.outLabel) := by
  simpa [Variable.labels, Function.comp_def] using congrArg (List.map (·.2.1)) h

/-- The variables that can have statements of their own, with whether they are results. -/
def handled (r : Routine) : List (Bool × Variable) :=
  r.keptResults.map (true, ·) ++ r.args.map (false, ·)

theorem mem_handled {x : Bool × Variable} (h : x ∈ f.handled) : x.2 ∈ f.results ++ f.args := by
  simp only [handled, List.mem_append, List.mem_map] at h
  rcases h with ⟨v, hv, rfl⟩ | ⟨v, hv, rfl⟩
  · exact List.mem_append_left _ (mem_of_keptResults hv)
  · exact List.mem_append_right _ hv

theorem distinct_handled (h : f.Accepted p) : Distinct (f.handled.map (·.2.outLabel)) := by
  have hd := h.distinct_out
  unfold handled keptResults
  split
  · rw [List.map_append] at hd
    have hargs : Distinct (f.args.map (·.outLabel)) := (List.pairwise_append.1 hd).2.1
    simpa [Function.comp_def] using hargs
  · simpa [Function.comp_def] using hd

/-- What the results and the arguments add to a stage is found again in equal stubs. -/
theorem handled_blocks_eq (F : Bool → Variable → List Stmt) (hf : f.Accepted p) (hg : g.Accepted p)
    (hF : ∀ b v, ∀ s ∈ F b v, s.label = v.outLabel ∧ v.direction ≠ .input)
    (hlabels : f.handled.map (·.2.outLabel) = g.handled.map (·.2.outLabel))
    (h : f.keptResults.flatMap (F true) ++ f.args.flatMap (F false)
      = g.keptResults.flatMap (F true) ++ g.args.flatMap (F false)) :
    f.handled.map (fun x => F x.1 x.2) = g.handled.map (fun x => F x.1 x.2) := by
  have hblock : ∀ r : Routine, r.Accepted p →
      ∀ x ∈ r.handled, IsBlock x.2.outLabel (F x.1 x.2) := by
    intro r hr x hx s hs
    obtain ⟨hlabel, hd⟩ := hF x.1 x.2 s hs
    exact ⟨hlabel, hr.outLabel_ne (mem_handled hx) hd⟩
  refine blocks_inj hlabels (hblock f hf) (hblock g hg) (distinct_handled hf) ?_
  simpa only [handled, List.flatMap_append, List.flatMap_map] using h

section

variable (hf : f.Accepted p) (hg : g.Accepted p) (h : SameStub c f g)
  (hss : f.mainStatements c = .ok ss)
include hf hg h hss

/-- Equal stubs make the same call. -/
theorem SameStub.call_eq :
    f.receiver?.isSome = g.receiver?.isSome ∧ f.call = g.call ∧
      f.disposal c.types = g.disposal c.types := by
  obtain ⟨ts, hts, -⟩ := h.planned hss
  have hcall := h.part_eq hss .call (by simp)
  obtain ⟨fs, hfs⟩ := (mainStatements_eq_ok hss).calls
  obtain ⟨gs, hgs⟩ := (mainStatements_eq_ok hts).calls
  simp only [part, hfs, hgs, made_ok] at hcall
  obtain ⟨d, hd, rfl⟩ := callStatements_eq_ok hfs
  obtain ⟨e, he, rfl⟩ := callStatements_eq_ok hgs
  obtain ⟨d, rfl⟩ := disposal_eq_ok hf.soundResult hd
  obtain ⟨e, rfl⟩ := disposal_eq_ok hg.soundResult he
  rw [hd, he]
  revert hcall
  cases f.receiver?.isSome <;> cases g.receiver?.isSome <;> cases c.settings.catches <;> simp
  all_goals grind

/-- Equal stubs read each argument in the same way. -/
theorem SameStub.reads_eq :
    f.args.map (·.getInput c.types) = g.args.map (·.getInput c.types) := by
  have hread := h.part_eq hss .read (by simp)
  obtain ⟨hreceiver, -⟩ := h.call_eq hf hg hss
  -- The receiver is read first, and has no label among the arguments.
  have hargs : f.args.flatMap (·.getInput c.types) = g.args.flatMap (·.getInput c.types) := by
    simp only [part, inputReads, hreceiver] at hread
    cases hr : g.receiver?.isSome <;> simp [hr] at hread
    · exact hread
    · exact hread.2
  have hblock : ∀ r : Routine, r.Accepted p →
      ∀ v ∈ r.args, IsBlock v.inLabel (v.getInput c.types) := by
    intro r hr v hv s hs
    obtain ⟨hlabel, hd⟩ := Variable.label_getInput hs
    exact ⟨hlabel, hr.inLabel_ne hv hd⟩
  exact blocks_inj (inLabel_of_labels h.args) (hblock f hf) (hblock g hg) hf.distinct_in hargs

theorem SameStub.nullableReturn_eq : f.nullableReturn = g.nullableReturn := by
  obtain ⟨-, -, hdisposal⟩ := h.call_eq hf hg hss
  have hlength : f.results.length = g.results.length := by
    simpa using congrArg List.length h.results
  obtain ⟨fs, hfs⟩ := (mainStatements_eq_ok hss).calls
  obtain ⟨d, hd, -⟩ := callStatements_eq_ok hfs
  unfold disposal at hdisposal hd
  unfold nullableReturn
  cases hfr : f.results with
  | nil =>
    have hgr : g.results = [] := by simpa [hfr, eq_comm] using hlength
    rw [hgr]
  | cons v vs =>
    cases hgr : g.results with
    | nil => simp [hfr, hgr] at hlength
    | cons w ws =>
      simp only [hfr, hgr] at hdisposal hd
      simp only [Variable.isNullable_eq hd, Variable.isNullable_eq (hdisposal ▸ hd)]

theorem SameStub.handled_labels :
    f.handled.map (·.2.outLabel) = g.handled.map (·.2.outLabel) := by
  have hargs := outLabel_of_labels h.args
  have hresults := outLabel_of_labels h.results
  unfold handled keptResults
  rw [h.nullableReturn_eq hf hg hss]
  split <;> simp_all [Function.comp_def]

/-- Equal stubs make room for the same variables, in the same way. -/
theorem SameStub.allocs_eq :
    f.handled.map (fun x => made (x.2.alloc c.types x.1))
      = g.handled.map (fun x => made (x.2.alloc c.types x.1)) := by
  obtain ⟨ts, hts, -⟩ := h.planned hss
  have halloc := h.part_eq hss .alloc (by simp)
  obtain ⟨fs, hfs⟩ := (mainStatements_eq_ok hss).allocs
  obtain ⟨gs, hgs⟩ := (mainStatements_eq_ok hts).allocs
  rw [part, part, hfs, hgs, made_ok, made_ok, (allocations_eq_ok hfs).1,
    (allocations_eq_ok hgs).1] at halloc
  refine handled_blocks_eq (fun b v => made (v.alloc c.types b)) hf hg ?_
    (h.handled_labels hf hg hss) halloc
  intro b v s hs
  obtain ⟨hlabel, hd⟩ := Variable.label_alloc hs
  exact ⟨hlabel, by simp [hd]⟩

/-- Equal stubs hand back the same variables, in the same way. -/
theorem SameStub.writes_eq :
    f.handled.map (fun x => made (x.2.setResult c.types x.1))
      = g.handled.map (fun x => made (x.2.setResult c.types x.1)) := by
  obtain ⟨ts, hts, -⟩ := h.planned hss
  have hwrite := h.part_eq hss .write (by simp)
  obtain ⟨fs, hfs⟩ := (mainStatements_eq_ok hss).writes
  obtain ⟨gs, hgs⟩ := (mainStatements_eq_ok hts).writes
  rw [part, part, hfs, hgs, made_ok, made_ok, (resultWrites_eq_ok hfs).1,
    (resultWrites_eq_ok hgs).1] at hwrite
  exact handled_blocks_eq (fun b v => made (v.setResult c.types b)) hf hg
    (fun b v s hs => Variable.label_setResult hs) (h.handled_labels hf hg hss) hwrite

end

end Routine

end MexBridge
