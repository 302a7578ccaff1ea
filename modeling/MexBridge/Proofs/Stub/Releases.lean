import Mathlib.Data.List.Flatten
import Mathlib.Data.List.Lattice
import Mathlib.Data.List.Pairwise
import MexBridge.Proofs.Stub.Ownership
import MexBridge.Proofs.Stub.Scope

/-!
# Buffers are released once, if the stub owns them

No two arguments share a local, so what each of them owns and releases adds up: the stub frees the
locals it has allocated (`Routine.Accounted.allocated_iff`) and destroys the handles it has made
(`Routine.Accounted.created_iff`), each once, as the text of its releases shows
(`Routine.Accounted.count_handed`).
-/

namespace MexBridge

namespace Stmt

variable {s : Stmt}

/-- Locals get values where dimensions and inputs are read, and where outputs are allocated. -/
theorem sources_of_stage (hdim : s.stage ≠ some .readDim) (hread : s.stage ≠ some .read)
    (halloc : s.stage ≠ some .alloc) : s.sources = [] := by
  cases s <;> first | rfl | simp [stage] at hdim hread halloc

end Stmt

/-- The locals that statements assign values of functions to, with the functions. -/
def assigned (ss : List Stmt) : List (Local × String) := ss.flatMap fun s => s.code.sources

/-- The locals that statements assign values of the functions `P` to. -/
def assignedFrom (P : String → Bool) (ss : List Stmt) : List Local :=
  ((assigned ss).filter fun p => P p.2).map (·.1)

theorem mem_assignedFrom {P : String → Bool} {ss : List Stmt} {x : Local} :
    x ∈ assignedFrom P ss ↔ ∃ f, (x, f) ∈ assigned ss ∧ P f = true := by
  simp [assignedFrom]

/-- The locals that statements hand to functions, with the functions. -/
def handed (ss : List Stmt) : List (String × Local) := ss.flatMap fun s => s.code.passed

namespace Routine

/-- A routine whose types are words, whose arguments share no local, and whose kept results have
nothing to release. -/
structure Regular (r : Routine) : Prop extends Worded r where
  directions : ∀ v ∈ r.args, v.direction = .input ∨ v.direction = .output ∨ v.direction = .inout
  kept : ∀ v ∈ r.keptResults, v.onGpu = false ∧ v.direction = .output ∧ v.kind.isNullable = false
  nodup : r.locals.Nodup

/-- A regular routine all of whose arguments are handled. -/
structure Accounted (r : Routine) : Prop extends Regular r where
  args : ∀ v ∈ r.args, v.Accounted

variable {c : Context} {r : Routine} {s : Stmt} {ss : List Stmt}

/-- The buffers of different arguments differ, as all locals of a stub do, and none is the object
that a method is called on. -/
theorem Regular.nodup_receiver_buffers (h : r.Regular) :
    (r.receiver?.toList.map (fun _ => Local.input 0) ++ r.args.flatMap Variable.buffers).Nodup := by
  have hsub : (r.receiver?.toList.map (fun _ => Local.input 0)
      ++ (r.args.flatMap (·.inputLocals) ++ r.args.flatMap (·.outputLocals))).Sublist r.locals := by
    unfold locals
    rw [List.flatMap_append, ← List.append_assoc]
    refine List.Sublist.trans ?_ (List.sublist_append_left _ _)
    exact List.Sublist.append (List.Sublist.refl _) (List.sublist_append_right _ _)
  refine (List.Perm.append_left _ ?_).nodup (h.nodup.sublist hsub)
  exact List.flatMap_append_perm r.args _ _

theorem Regular.nodup_buffers (h : r.Regular) : (r.args.flatMap Variable.buffers).Nodup :=
  h.nodup_receiver_buffers.sublist (List.sublist_append_right _ _)

/-- The text of every statement but the call can be read. -/
theorem Regular.readable (h : r.Regular) (hss : r.mainStatements c = .ok ss) :
    ∀ s ∈ ss, s.Readable := by
  intro s hs
  obtain ⟨g, hs⟩ := makes_mainStatements hss s (List.mem_append_left _ hs)
  cases hs with
  | getObject hthis => exact ⟨h.owner hthis, by simp⟩
  | arg hv hs => exact hs.readable (h.argTypes _ hv)
  | result hv hs => exact hs.readable (h.resultTypes _ (mem_of_keptResults hv))
  | _ => exact ⟨show IsWord "" by decide, by simp⟩

theorem stage_mainStatements (hss : r.mainStatements c = .ok ss) (hs : s ∈ ss) :
    s.stage ≠ some .release := by
  simp only [(mainStatements_eq_ok hss).eq, List.mem_append, List.mem_singleton] at hs
  rcases hs with (((((((hs | hs) | hs) | hs) | hs) | hs) | rfl) | hs) | hs
  · rcases stage_declarations hs with e | rfl
    · simp [e]
    · simp [Stmt.stage]
  · rcases stage_dimReads hs with e | rfl
    · simp [e]
    · simp [Stmt.stage]
  · simp [stage_dimChecks hs]
  · simp [stage_inputReads hs]
  · simp [stage_inputChecks hs]
  · simp [stage_allocations hs]
  · simp [Stmt.stage]
  · simp [stage_callStatements hs]
  · simp [stage_resultWrites hs]

/-- Before the error label nothing is released. -/
theorem Regular.isReleaser_handed (h : r.Regular) (hss : r.mainStatements c = .ok ss) :
    ∀ p ∈ handed (ss.filter (!·.isCall)), isReleaser p.1 = false := by
  intro p hp
  obtain ⟨s, hs, hp⟩ := List.mem_flatMap.1 hp
  obtain ⟨hs, hcall⟩ := List.mem_filter.1 hs
  exact Stmt.passed_code (h.readable hss s hs).type (by simpa using hcall)
    (stage_mainStatements hss hs) p hp

theorem Regular.spared (h : r.Regular) (hss : r.mainStatements c = .ok ss) :
    ∀ p ∈ handed (ss.filter (!·.isCall)), p.1 ∉ releasers :=
  fun p hp => notMem_releasers (h.isReleaser_handed hss p hp)

/-- The sources of locals are read off the statements. -/
theorem Regular.assigned_eq (h : r.Regular) (hss : r.mainStatements c = .ok ss) :
    assigned (ss.filter (!·.isCall)) = ss.flatMap Stmt.sources := by
  have hreadable := h.readable hss
  clear hss
  induction ss with
  | nil => rfl
  | cons s ss ih =>
    have ih := ih fun u hu => hreadable u (List.mem_cons_of_mem _ hu)
    cases hcall : s.isCall with
    | false =>
      have hs := Stmt.sources_code (hreadable s List.mem_cons_self) hcall
      simp [assigned, hcall, hs] at ih ⊢
      exact ih
    | true =>
      have hs : s.sources = [] := by cases s <;> simp [Stmt.isCall] at hcall; rfl
      simpa [assigned, hcall, hs] using ih

/-- They stand where dimensions and inputs are read, and outputs allocated. -/
theorem sources_eq (hss : r.mainStatements c = .ok ss) : ss.flatMap Stmt.sources =
    (r.dimReads ++ r.inputReads c.types ++ made (r.allocations c.types)).flatMap Stmt.sources := by
  have hnone {part : List Stmt}
      (hpart : ∀ s ∈ part, s.stage ∉ [some .readDim, some .read, some .alloc]) :
      part.flatMap Stmt.sources = [] := by
    refine List.flatMap_eq_nil_iff.2 fun s hs => ?_
    have := hpart s hs
    apply Stmt.sources_of_stage <;> intro e <;> simp [e] at this
  have hdecls : (made r.declarations).flatMap Stmt.sources = [] := hnone fun s hs => by
    rcases stage_declarations hs with e | rfl
    · simp [e]
    · simp [Stmt.stage]
  have hdims : r.dimChecks.flatMap Stmt.sources = [] :=
    hnone fun s hs => by simp [stage_dimChecks hs]
  have hinputs : r.inputChecks.flatMap Stmt.sources = [] :=
    hnone fun s hs => by simp [stage_inputChecks hs]
  have hcalls : (made (r.callStatements c)).flatMap Stmt.sources = [] :=
    hnone fun s hs => by simp [stage_callStatements hs]
  have hwrites : (made (r.resultWrites c.types)).flatMap Stmt.sources = [] :=
    hnone fun s hs => by simp [stage_resultWrites hs]
  rw [(mainStatements_eq_ok hss).eq]
  simp [hdecls, hdims, hinputs, hcalls, hwrites, Stmt.sources]

theorem Regular.mem_assigned (h : r.Regular) (hss : r.mainStatements c = .ok ss) {x : Local}
    {f : String} : (x, f) ∈ assigned (ss.filter (!·.isCall)) ↔ ∃ s ∈ ss, (x, f) ∈ s.sources := by
  rw [h.assigned_eq hss, List.mem_flatMap]

/-- What is made for an argument is part of the stub. -/
theorem mem_of_arg (hss : r.mainStatements c = .ok ss) {v : Variable} (hv : v ∈ r.args)
    (hs : s ∈ v.getInput c.types ++ made (v.alloc c.types false)
      ++ made (v.setResult c.types false)) : s ∈ ss := by
  obtain ⟨-, ⟨as, has⟩, -, ⟨ws, hws⟩, rfl⟩ := mainStatements_eq_ok hss
  rw [has, hws, made_ok, made_ok, (allocations_eq_ok has).1, (resultWrites_eq_ok hws).1]
  simp only [inputReads, List.mem_append, List.mem_flatMap] at hs ⊢
  rcases hs with (hs | hs) | hs
  · exact Or.inl (Or.inl (Or.inl (Or.inl (Or.inl (Or.inr (Or.inr ⟨v, hv, hs⟩))))))
  · exact Or.inl (Or.inl (Or.inl (Or.inr (Or.inr ⟨v, hv, hs⟩))))
  · exact Or.inr (Or.inr ⟨v, hv, hs⟩)

theorem Accounted.source_cases (h : r.Accounted) (hss : r.mainStatements c = .ok ss) {x : Local}
    {f : String} (hx : (x, f) ∈ assigned (ss.filter (!·.isCall))) :
    Ordinary f ∨ ∃ v ∈ r.args, v.Draws x f := by
  obtain ⟨s, hs, hx⟩ := (h.mem_assigned hss).1 hx
  obtain ⟨g, hs⟩ := makes_mainStatements hss s (List.mem_append_left _ hs)
  cases hs with
  | getDim hv hd =>
    obtain ⟨-, rfl⟩ := Prod.mk.inj (List.mem_singleton.1 hx)
    exact Or.inl ⟨by decide, by decide, by decide⟩
  | getObject hthis =>
    obtain ⟨-, rfl⟩ := Prod.mk.inj (List.mem_singleton.1 hx)
    exact Or.inl (ordinary_getter _ _)
  | arg hv hs => exact Or.inr ⟨_, hv, (h.args _ hv).draws hs hx⟩
  | result hv hs =>
    obtain ⟨hcpu, hout, hnull⟩ := h.kept _ hv
    rw [hs.sources_kept hcpu hout hnull] at hx
    cases hx
  | _ => cases hx

/-- What an argument draws from is a source of the stub. -/
theorem Accounted.mem_assigned_arg (h : r.Accounted) (hss : r.mainStatements c = .ok ss)
    {v : Variable} (hv : v ∈ r.args) {x : Local} {f : String}
    (hx : ∃ s ∈ v.getInput c.types ++ made (v.alloc c.types false), (x, f) ∈ s.sources) :
    (x, f) ∈ assigned (ss.filter (!·.isCall)) := by
  obtain ⟨s, hs, hx⟩ := hx
  exact (h.mem_assigned hss).2 ⟨s, mem_of_arg hss hv (List.mem_append_left _ hs), hx⟩

theorem alloc_eq_ok (hss : r.mainStatements c = .ok ss) {v : Variable} (hv : v ∈ r.args) :
    v.alloc c.types false = .ok (made (v.alloc c.types false)) := by
  obtain ⟨as, has⟩ := (mainStatements_eq_ok hss).allocs
  exact (allocations_eq_ok has).2.2 v hv

/-- The locals that the stub allocates are those its arguments own. -/
theorem Accounted.allocated_iff (h : r.Accounted) (hss : r.mainStatements c = .ok ss) {x : Local} :
    x ∈ assignedFrom allocates (ss.filter (!·.isCall)) ↔ x ∈ r.args.flatMap Variable.owned := by
  rw [mem_assignedFrom, List.mem_flatMap]
  constructor
  · rintro ⟨f, hx, hf⟩
    rcases h.source_cases hss hx with hord | ⟨v, hv, hdraws⟩
    · simp [hord.allocates] at hf
    · cases hdraws with
      | owned mem => exact ⟨v, hv, mem⟩
      | handle mem creates =>
        have : ∀ f ∈ creators, allocates f = false := by decide
        simp [this f creates] at hf
      | other _ _ _ hnot => simp [hnot] at hf
  · rintro ⟨v, hv, hx⟩
    obtain ⟨f, hf, hs⟩ := Variable.allocated (t := c.types) (alloc_eq_ok hss hv) hx
    exact ⟨f, h.mem_assigned_arg hss hv hs, hf⟩

/-- The handles that the stub makes are those of its arguments on the GPU. -/
theorem Accounted.created_iff (h : r.Accounted) (hss : r.mainStatements c = .ok ss) {x : Local} :
    x ∈ assignedFrom creators.contains (ss.filter (!·.isCall)) ↔
      x ∈ r.args.flatMap Variable.handles := by
  rw [mem_assignedFrom, List.mem_flatMap]
  constructor
  · rintro ⟨f, hx, hf⟩
    rw [List.contains_iff_mem] at hf
    rcases h.source_cases hss hx with hord | ⟨v, hv, hdraws⟩
    · exact absurd hf hord.creates
    · cases hdraws with
      | owned mem hallocates =>
        have : ∀ f ∈ creators, allocates f = false := by decide
        simp [this f hf] at hallocates
      | handle mem => exact ⟨v, hv, mem⟩
      | other _ _ _ _ hnot => exact absurd hf hnot
  · rintro ⟨v, hv, hx⟩
    obtain ⟨f, hf, hs⟩ := (h.args v hv).created (t := c.types) (alloc_eq_ok hss hv) hx
    exact ⟨f, h.mem_assigned_arg hss hv hs, List.contains_iff_mem.2 hf⟩

/-- What is accessed in place is owned by no argument, since no two share a local. -/
theorem Accounted.accessed (h : r.Accounted) (hss : r.mainStatements c = .ok ss) {x : Local}
    (hx : x ∈ assignedFrom accessors.contains (ss.filter (!·.isCall))) :
    x ∉ r.args.flatMap Variable.owned := by
  obtain ⟨f, hx, hf⟩ := mem_assignedFrom.1 hx
  rw [List.contains_iff_mem] at hf
  obtain ⟨ha, hc⟩ := of_mem_accessors f hf
  rcases h.source_cases hss hx with hord | ⟨v, hv, hdraws⟩
  · exact absurd hf hord.accesses
  · cases hdraws with
    | owned mem hallocates => simp [ha] at hallocates
    | handle mem creates => exact absurd creates hc
    | other mem howned =>
      intro hmem
      obtain ⟨w, hw, hxw⟩ := List.mem_flatMap.1 hmem
      have hne : v ≠ w := by
        rintro rfl
        exact howned hxw
      have : Std.Symm (Function.onFun List.Disjoint Variable.buffers) := ⟨fun _ _ hd => hd.symm⟩
      have hdisjoint := (List.nodup_flatMap.1 h.nodup_buffers).2.forall hv hw hne
      exact hdisjoint mem (Variable.owned_sublist.subset hxw)

/-! ## Releases -/

theorem Regular.releases_eq (h : r.Regular) (t : TypeTable) :
    r.releases t = r.args.flatMap (·.release t false) := by
  have hkept : r.keptResults.flatMap (·.release t true) = [] := by
    refine List.flatMap_eq_nil_iff.2 fun v hv => ?_
    obtain ⟨hcpu, hout, hnull⟩ := h.kept v hv
    exact Variable.release_kept hcpu hout hnull
  rw [releases, hkept, List.nil_append]

/-- The text of a release tells what it releases. -/
theorem Accounted.count_handed (h : r.Accounted) (t : TypeTable) (x : Local) :
    (handed (r.releases t)).count ("mxFree", x) = (r.args.flatMap Variable.owned).count x ∧
      (handed (r.releases t)).count ("mxGPUDestroyGPUArray", x)
        = (r.args.flatMap Variable.handles).count x := by
  have hone : ∀ s ∈ r.releases t, s.code.passed.count ("mxFree", x) = s.frees.count x ∧
      s.code.passed.count ("mxGPUDestroyGPUArray", x) = s.destroys.count x := by
    intro s hs
    have hstage := stage_releases hs
    have htype : IsWord s.typeName := by
      rw [h.releases_eq] at hs
      obtain ⟨v, hv, hs⟩ := List.mem_flatMap.1 hs
      exact (Variable.makes_release hs).isWord_typeName (h.args v hv).type
    cases s <;> simp [Stmt.stage] at hstage
    case free l =>
      rw [Stmt.passed_free]
      simp [Stmt.frees, Stmt.destroys, List.count_cons]
    case freeConverted type l =>
      -- The function for a class has an underscore in its name, the other two have none.
      have hpassed := Stmt.passed_freeConverted (show IsWord type from htype) l
      have hne : ∀ f ∈ releasers, "mxWrapFree_" ++ type ≠ f := by
        rintro f hf rfl
        exact underscore_notMem_releasers _ hf (by simp)
      have hfree := hne "mxFree" (by decide)
      have hdestroy := hne "mxGPUDestroyGPUArray" (by decide)
      rw [hpassed]
      simp [Stmt.frees, Stmt.destroys, hfree, hdestroy]
    case destroyGpu l =>
      rw [Stmt.passed_destroyGpu]
      simp [Stmt.frees, Stmt.destroys, List.count_cons]
  have hfrees : (r.releases t).flatMap Stmt.frees = r.args.flatMap Variable.owned := by
    rw [h.releases_eq, List.flatMap_assoc]
    exact List.flatMap_congr fun v hv => (h.args v hv).frees_release
  have hdestroys : (r.releases t).flatMap Stmt.destroys = r.args.flatMap Variable.handles := by
    rw [h.releases_eq, List.flatMap_assoc]
    exact List.flatMap_congr fun v hv => (h.args v hv).destroys_release
  rw [← hfrees, ← hdestroys, handed, List.count_flatMap, List.count_flatMap, List.count_flatMap,
    List.count_flatMap]
  exact ⟨congrArg List.sum (List.map_congr_left fun s hs => (hone s hs).1),
    congrArg List.sum (List.map_congr_left fun s hs => (hone s hs).2)⟩

theorem Accounted.nodup_owned (h : r.Accounted) : (r.args.flatMap Variable.owned).Nodup :=
  h.nodup_buffers.sublist (List.Sublist.flatMap_right _ fun _ _ => Variable.owned_sublist)

theorem Accounted.nodup_handles (h : r.Accounted) : (r.args.flatMap Variable.handles).Nodup :=
  h.nodup_buffers.sublist (List.Sublist.flatMap_right _ fun v hv => (h.args v hv).handles_sublist)

/-- Whatever is released after the error label starts as zero. -/
theorem Accounted.zeroed_releases (h : r.Accounted) {decls : List Stmt}
    (hdecls : r.declarations = .ok decls) (t : TypeTable) :
    ∀ x ∈ Code.locals ((r.releases t).flatMap Stmt.code), ∃ s ∈ decls, x ∈ s.code.zeroed := by
  intro x hx
  obtain ⟨y, hy, hx⟩ := List.mem_flatMap.1 hx
  obtain ⟨s, hs, hy⟩ := List.mem_flatMap.1 hy
  have hx := s.locals_code x (List.mem_flatMap.2 ⟨y, hy, hx⟩)
  rw [h.releases_eq] at hs
  obtain ⟨v, hv, hs⟩ := List.mem_flatMap.1 hs
  obtain ⟨rfl, hins, houts⟩ := declarations_eq_ok hdecls
  obtain ⟨u, hu, hzero⟩ := (h.args v hv).zeroed_release hs (hins v hv)
    (houts v (List.mem_append_right _ hv)) x hx
  refine ⟨u, ?_, hzero⟩
  simp only [List.mem_append, List.mem_flatMap] at hu ⊢
  rcases hu with hu | hu
  · exact Or.inl (Or.inl (Or.inl (Or.inr ⟨v, hv, hu⟩)))
  · exact Or.inl (Or.inl (Or.inr ⟨v, Or.inr hv, hu⟩))

end Routine

namespace Ledger

/-- A declaration checked without errors is regular, in whatever context. -/
theorem regular_checked {file : String} {ts : List Token} {r : Routine}
    (hparse : Statement.parse file ts = .ok (.call r))
    (hlex : ∀ u ∈ ts, ∃ line cs, u ∈ Token.tokens line cs) {l : Ledger}
    (h : (l.checked r).errors = 0) {r' : Routine} (hr' : r' = (l.checked r).value) :
    r'.Regular := by
  have hnames : Statement.NamesSatisfy IsName ts := by
    intro u hu hk
    obtain ⟨line, cs, hu⟩ := hlex u hu
    exact Token.isName_tokens hu hk
  have hr := written_promote (p := l.context.settings.promotion) (fun _ hs => hs.rename _)
    (Statement.written_of_parse hnames hparse) (l.count + 1)
  have hsound := Routine.sound_check hr h hr'.symm
  have hvetted : r'.Vetted l.context.types := hr' ▸ Routine.vetted_check hr h
  have hwritten : r'.Written IsName := hr' ▸ (Routine.passed_of_errors hr h).written hr.labelled
  obtain ⟨hright, hleft⟩ := Routine.places_check hr h hr'.symm
  refine ⟨hwritten.worded, fun v hv => (hsound.placed_arg hv).direction, fun v hv => ?_, ?_⟩
  · have hres := hvetted.results v (Routine.mem_of_keptResults hv)
    exact ⟨hres.onCpu, hres.output, Routine.isNullable_of_keptResults hvetted.single hv⟩
  · refine Routine.nodup_locals ?_ ?_ fun v hv => (hsound.placed_arg hv).direction
    · rw [hright]
      exact nodup_labelsFrom ..
    · rw [hleft]
      exact nodup_labelsFrom ..

/-- A routine checked in a context that a run reaches is accounted for, if only arrays live on the
GPU. -/
theorem accounted_checked {mex : String} {settings : Settings} {es : List Event} {file : String}
    {ts : List Token} {r : Routine} (hparse : Statement.parse file ts = .ok (.call r))
    (hlex : ∀ u ∈ ts, ∃ line cs, u ∈ Token.tokens line cs) {l : Ledger}
    (hl : l = run mex { context := .ofSettings settings } es) (h : (l.checked r).errors = 0)
    {r' : Routine} (hr' : r' = (l.checked r).value)
    (hgpu : ∀ v ∈ r'.args, v.onGpu = true → v.kind.isArray = true) : r'.Accounted := by
  have hregular := regular_checked hparse hlex h hr'
  have hvetted : r'.Vetted l.context.types :=
    hr' ▸ Routine.vetted_check (written_parsed hparse l) h
  have hreal {n : String} (hn : n ∈ TypeTable.builtin) : l.context.types.isScalar n = true :=
    hl ▸ isScalar_run mex settings es hn
  refine ⟨hregular, fun v hv => ?_⟩
  have hdir := hregular.directions v hv
  exact ⟨hregular.argTypes v hv, hdir, hgpu v hv,
    (hvetted.args v hv).borrowed (hreal (by decide)) (hreal (by decide)) hdir⟩

/-- **Buffers are released exactly once, and only if the stub owns them.** Take a declaration
checked without errors in a context that a run reaches, with only arrays on the GPU. Its stub is
written. Up to the error label, the call of the wrapped function apart, nothing is released. After
it, a local is freed once if the stub has assigned it memory it allocated, and else not at all;
never one that points into the data of an argument. Handles of GPU arrays are destroyed once if the
stub has made them, and else not at all. Whatever is released there is declared as zero, so that no
jump to the label meets a pointer that is not set. -/
theorem stub_releases {mex : String} {settings : Settings} {es : List Event} {file : String}
    {ts : List Token} {r : Routine} (hparse : Statement.parse file ts = .ok (.call r))
    (hlex : ∀ u ∈ ts, ∃ line cs, u ∈ Token.tokens line cs) {l : Ledger}
    (hl : l = run mex { context := .ofSettings settings } es) (h : (l.checked r).errors = 0)
    (c : Context) {g : Group} (hg : g.first = (l.checked r).value)
    (hgpu : ∀ v ∈ g.first.args, v.onGpu = true → v.kind.isArray = true) :
    ∃ decls rest, g.first.declarations = .ok decls ∧
      g.stub c = .ok (g.stubHead (g.first.signature c.settings.promotion)
        ++ Code.render ((decls ++ rest).flatMap Stmt.code) ++ "\nmw_err_label:\n"
        ++ Code.render ((g.first.releases c.types).flatMap Stmt.code) ++ Group.stubTail) ∧
      let main := (decls ++ rest).filter (!·.isCall)
      let after := g.first.releases c.types
      (∀ p ∈ handed main, p.1 ∉ releasers) ∧
      (∀ x, (handed after).count ("mxFree", x) = if x ∈ assignedFrom allocates main then 1 else 0) ∧
      (∀ x ∈ assignedFrom accessors.contains main, ("mxFree", x) ∉ handed after) ∧
      (∀ x, (handed after).count ("mxGPUDestroyGPUArray", x)
        = if x ∈ assignedFrom creators.contains main then 1 else 0) ∧
      ∀ x ∈ Code.locals (after.flatMap Stmt.code), ∃ s ∈ decls, x ∈ s.code.zeroed := by
  have haccounted := accounted_checked hparse hlex hl h hg hgpu
  have hr : r.Written fun _ => True := Statement.written_of_parse (fun _ _ _ => trivial) hparse
  have hr' := written_promote (p := l.context.settings.promotion) (fun _ _ => trivial) hr
    (l.count + 1)
  have hvetted : g.first.Vetted l.context.types := hg ▸ Routine.vetted_check hr' h
  have hsign : g.first.isSignable = true := by
    rw [hg]
    exact ((Routine.passed_of_errors hr' h).written hr'.labelled).callee.isSignable
  obtain ⟨ss, hss⟩ := (hvetted.mainStatements_iff (c := c)).2 fun v hv hu =>
    (hvetted.args v hv).sized (Or.inl (hgpu v hv hu.1)) hu.2.1 hu.2.2
  obtain ⟨decls, hdecls⟩ := (Routine.mainStatements_eq_ok hss).decls
  obtain ⟨rest, rfl⟩ : ∃ rest, ss = decls ++ rest := by
    have hparts := (Routine.mainStatements_eq_ok hss).eq
    simp only [hdecls, made_ok, List.append_assoc] at hparts
    exact ⟨_, hparts⟩
  have hcount := haccounted.count_handed c.types
  refine ⟨decls, rest, hdecls, Group.stub_of_mainStatements hsign hss, haccounted.spared hss,
    ?_, ?_, ?_, haccounted.zeroed_releases hdecls c.types⟩
  · intro x
    rw [(hcount x).1, haccounted.nodup_owned.count]
    simp only [haccounted.allocated_iff hss]
  · intro x hx hmem
    have hpos := List.count_pos_iff.2 hmem
    rw [(hcount x).1, List.count_pos_iff] at hpos
    exact haccounted.accessed hss hx hpos
  · intro x
    rw [(hcount x).2, haccounted.nodup_handles.count]
    simp only [haccounted.created_iff hss]

/-- A class whose objects user code makes from MATLAB arrays. -/
def meshEvents : List Event :=
  (Token.tokens 1 "typedef mxArray Mesh;".toList).map (.token "a.mw")

/-- Arrays read, copied, allocated and on the GPU, strings of both sorts, and a mesh. -/
def meshTokens : List Token := Token.tokens 2
  ("relax(double[n] a, inout double[n] b, output double[n] c, cstring s, output cstring[n] u, "
    ++ "gpu float[n] p, gpu output float[n] q, Mesh m);").toList

def meshRoutine : Routine where
  name := "relax"
  file := "a.mw"
  line := 2
  args :=
    let sized : Option Qualifier := some { mark := .array, dims := [{ text := "n" }] }
    [{ type := "double", name := "a", qualifier := sized },
      { direction := .inout, type := "double", name := "b", qualifier := sized },
      { direction := .output, type := "double", name := "c", qualifier := sized },
      { type := "cstring", name := "s" },
      { direction := .output, type := "cstring", name := "u", qualifier := sized },
      { device := .gpu, type := "float", name := "p", qualifier := sized },
      { device := .gpu, direction := .output, type := "float", name := "q", qualifier := sized },
      { type := "Mesh", name := "m" }]

theorem stub_releases_meshRoutine :
    let l := run "m" { context := .ofSettings {} } meshEvents
    let g : Group := { first := (l.checked meshRoutine).value }
    Statement.parse "a.mw" meshTokens = .ok (.call meshRoutine) ∧
      (l.checked meshRoutine).errors = 0 ∧
      (∀ v ∈ g.first.args, v.onGpu = true → v.kind.isArray = true) ∧
      (∃ text, g.stub l.context = .ok text) ∧
      (handed (g.first.releases l.context.types)).filter (·.1 ≠ "") =
        [("mxFree", .input 1), ("mxFree", .output 1), ("mxFree", .input 2), ("mxFree", .output 2),
          ("mxGPUDestroyGPUArray", .gpuInput 3), ("mxGPUDestroyGPUArray", .gpuOutput 3),
          ("mxWrapFree_Mesh", .input 4)] := by
  intro l g
  have hparse : Statement.parse "a.mw" meshTokens = .ok (.call meshRoutine) := by decide +kernel
  have herrors : (l.checked meshRoutine).errors = 0 := by decide +kernel
  have hgpu : ∀ v ∈ g.first.args, v.onGpu = true → v.kind.isArray = true := by decide +kernel
  obtain ⟨decls, rest, -, hstub, -⟩ :=
    stub_releases hparse (fun u hu => ⟨2, _, hu⟩) rfl herrors l.context (g := g) rfl hgpu
  exact ⟨hparse, herrors, hgpu, ⟨_, hstub⟩, by decide +kernel⟩

end Ledger

end MexBridge
