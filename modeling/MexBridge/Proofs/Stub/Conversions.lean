import Mathlib.Algebra.BigOperators.Group.List.Basic
import MexBridge.Proofs.Ledger.Filing
import MexBridge.Proofs.Stub.Releases

/-!
# Converted objects and their disposal

An object of a class that user code makes from MATLAB arrays comes from `mxWrapGet_T`, or from
`mxWrapAlloc_T` if it is only written, and goes to `mxWrapFree_T`. A stub makes one for each
argument of such a class, whatever its direction and however it is passed, and disposes of it after
the error label (`Variable.converted_making`, `Variable.disposed_release`). The object that a method
is called on is made in the same way, but nothing disposes of it: conversions and disposals balance
unless the stub is that of a method of such a class (`Ledger.conversions_balanced_iff`).
-/

namespace MexBridge

/-- How often statements assign a local an object converted to the class `T`. -/
def conversions (T : String) (x : Local) (ss : List Stmt) : Nat :=
  (assigned ss).count (x, "mxWrapGet_" ++ T) + (assigned ss).count (x, "mxWrapAlloc_" ++ T)

/-- How often statements dispose of a local as a converted object of the class `T`. -/
def disposals (T : String) (x : Local) (ss : List Stmt) : Nat :=
  (handed ss).count ("mxWrapFree_" ++ T, x)

namespace Stmt

/-- The local that a statement assigns a converted object to, with its class. -/
def converted : Stmt → List (Local × String)
  | .getObject k type .converted => [(.input k, type)]
  | .allocObject k type => [(.output k, type)]
  | _ => []

/-- The local whose converted object a statement disposes of, with its class. -/
def disposed : Stmt → List (Local × String)
  | .freeConverted type l => [(l, type)]
  | _ => []

/-- A function whose name starts otherwise converts nothing. -/
def Unconverting (f : String) : Prop :=
  ¬ "mxWrapGet_".toList <+: f.toList ∧ ¬ "mxWrapAlloc_".toList <+: f.toList

instance (f : String) : Decidable (Unconverting f) := inferInstanceAs (Decidable (_ ∧ _))

theorem Unconverting.ne {f : String} (h : Unconverting f) (T : String) :
    f ≠ "mxWrapGet_" ++ T ∧ f ≠ "mxWrapAlloc_" ++ T := by
  constructor
  · rintro rfl
    exact h.1 (by simp)
  · rintro rfl
    exact h.2 (by simp)

/-- So does one whose name goes on from such a start. -/
theorem unconverting_append {p : String}
    (hp : ∀ q ∈ ["mxWrapGet_", "mxWrapAlloc_"], ¬ p.toList <+: q.toList ∧ ¬ q.toList <+: p.toList)
    (type : String) : Unconverting (p ++ type) := by
  have hstart : ∀ q ∈ ["mxWrapGet_", "mxWrapAlloc_"], ¬ q.toList <+: (p ++ type).toList := by
    intro q hq hpre
    have hself : p.toList <+: (p ++ type).toList := by simp
    rcases List.prefix_or_prefix_of_prefix hself hpre with hle | hle
    · exact (hp q hq).1 hle
    · exact (hp q hq).2 hle
  exact ⟨hstart _ (by simp), hstart _ (by simp)⟩

theorem unconverting_scalarGetter (type : String) :
    Unconverting (Numeric.ofType type).scalarGetter :=
  Numeric.forall_ofType (P := fun n => Unconverting n.scalarGetter) (by decide) (by decide) type

theorem unconverting_getters (type : String) (source : ArraySource)
    (h : source = .inPlace → (Numeric.ofType type).direct = true) :
    ∀ f ∈ source.getters type, Unconverting f := by
  have hcopier : Unconverting ("mxWrapGetArray_" ++ Numeric.copierMark type ++ type) := by
    rw [String.append_assoc]
    exact unconverting_append (by decide) _
  cases source with
  | inPlace =>
    rcases Numeric.direct_iff.1 (h rfl) with rfl | rfl <;> decide
  | _ => simpa [ArraySource.getters] using hcopier

variable {s : Stmt} {x : Local} {T : String}

/-- A statement that draws on other functions converts nothing. -/
theorem count_of_unconverting {ps : List (Local × String)} (h : ∀ p ∈ ps, Unconverting p.2) :
    ps.count (x, "mxWrapGet_" ++ T) + ps.count (x, "mxWrapAlloc_" ++ T) = 0 := by
  have hget : ps.count (x, "mxWrapGet_" ++ T) = 0 :=
    List.count_eq_zero.2 fun hmem => ((h _ hmem).ne T).1 rfl
  have halloc : ps.count (x, "mxWrapAlloc_" ++ T) = 0 :=
    List.count_eq_zero.2 fun hmem => ((h _ hmem).ne T).2 rfl
  rw [hget, halloc]

theorem getter_ne_alloc (type : String) : "mxWrapGet_" ++ type ≠ "mxWrapAlloc_" ++ T := by
  intro e
  have := congrArg String.toList e
  simp at this

theorem count_sources (h : s.Readable) :
    s.sources.count (x, "mxWrapGet_" ++ T) + s.sources.count (x, "mxWrapAlloc_" ++ T)
      = s.converted.count (x, T) := by
  have hnone (hs : ∀ p ∈ s.sources, Unconverting p.2) (hc : s.converted = []) :
      s.sources.count (x, "mxWrapGet_" ++ T) + s.sources.count (x, "mxWrapAlloc_" ++ T)
        = s.converted.count (x, T) := by
    rw [count_of_unconverting hs, hc, List.count_nil]
  cases s with
  | getObject k type source =>
    cases source with
    | converted =>
      have hne := getter_ne_alloc (T := T) type
      simp [sources, converted, ObjectSource.getter, List.count_cons, hne]
    | plain =>
      refine hnone ?_ rfl
      simp only [sources, ObjectSource.getter, List.forall_mem_singleton]
      decide
    | cast =>
      refine hnone ?_ rfl
      simp only [sources, ObjectSource.getter, List.forall_mem_singleton]
      exact unconverting_append (by decide) type
  | allocObject k type =>
    have hne := (getter_ne_alloc (T := type) T).symm
    simp [sources, converted, List.count_cons, hne]
  | getArray k type source =>
    refine hnone ?_ rfl
    have := unconverting_getters type source fun e => h.direct k type (e ▸ rfl)
    simpa [sources] using this
  | getNumber k type =>
    refine hnone ?_ rfl
    simpa only [sources, List.forall_mem_singleton] using unconverting_scalarGetter type
  | _ => exact hnone (by simp [sources, Unconverting]) rfl

/-- The text of a release tells which object it disposes of. -/
theorem count_passed (h : IsWord s.typeName) (hs : s.stage = some .release) :
    s.code.passed.count ("mxWrapFree_" ++ T, x) = s.disposed.count (x, T) := by
  have hname (f : String) (hf : ¬ "mxWrapFree_".toList <+: f.toList) : f ≠ "mxWrapFree_" ++ T := by
    rintro rfl
    exact hf (by simp)
  have hempty := hname "" (by decide)
  cases s <;> simp [stage] at hs
  case free l =>
    have hfree := hname "mxFree" (by decide)
    simp [passed_free, disposed, hempty, hfree]
  case freeConverted type l =>
    rw [passed_freeConverted (show IsWord type from h)]
    simp [disposed, List.count_cons, hempty, and_comm]
  case destroyGpu l =>
    have hdestroy := hname "mxGPUDestroyGPUArray" (by decide)
    simp [passed_destroyGpu, disposed, hempty, hdestroy]

end Stmt

/-! ## What a variable has converted -/

namespace Variable

variable {t : TypeTable} {v : Variable}

/-- The object converted for an argument, with its class. -/
def conversion (t : TypeTable) (v : Variable) : List (Local × String) :=
  if v.kind.isObject && t.isMxArray v.type then [(v.holder, v.type)] else []

/-- An argument has an object converted where it is read, or made where it is only written. -/
theorem converted_making (hcpu : v.onGpu = false) :
    (v.getInput t ++ made (v.alloc t false)).flatMap Stmt.converted = v.conversion t := by
  by_cases hd : v.direction = .output
  · have hget : v.getInput t = [] := by simp [getInput, hd]
    rw [hget, List.nil_append, alloc, if_neg (by simp [hd]), if_neg (by simp [hcpu])]
    cases hk : v.kind with
    | object m =>
      cases ht : t.isMxArray v.type <;>
        simp [conversion, hk, ht, hd, Kind.isObject, Stmt.converted, holder]
    | array f =>
      cases v.dimLabels <;> simp [conversion, hk, Kind.isObject, bind, Except.bind, pure,
        Except.pure, Stmt.converted, made]
    | string =>
      cases v.dimLabels <;> simp [conversion, hk, Kind.isObject, bind, Except.bind, pure,
        Except.pure, Stmt.converted, made]
    | _ => simp [conversion, hk, Kind.isObject, Stmt.converted]
  · have halloc : made (v.alloc t false) = [] := by simp [alloc, hd]
    rw [halloc, List.append_nil, getInput, if_neg hd]
    cases hk : v.kind with
    | object m =>
      cases ht : t.isMxArray v.type with
      | true =>
        simp [conversion, hk, ht, hd, Kind.isObject, Stmt.converted, holder, getInput.objectSource]
      | false =>
        cases hp : t.isParent v.type <;>
          simp [conversion, hk, ht, hp, Kind.isObject, Stmt.converted, getInput.objectSource]
    | array f => simp [conversion, hk, hcpu, Kind.isObject, Stmt.converted]
    | number f m => cases f <;> simp [conversion, hk, Kind.isObject, Stmt.converted]
    | string => cases v.dims.isEmpty <;> simp [conversion, hk, Kind.isObject, Stmt.converted]
    | _ => simp [conversion, hk, Kind.isObject, Stmt.converted]

/-- What is disposed of for an argument is what was converted for it. -/
theorem disposed_release (hcpu : v.onGpu = false)
    (hdir : v.direction = .input ∨ v.direction = .output ∨ v.direction = .inout) :
    (v.release t false).flatMap Stmt.disposed = v.conversion t := by
  rw [release, if_neg (by simp [hcpu])]
  by_cases hk : (v.kind.isArray || v.kind == .string) = true
  · have hobj : v.kind.isObject = false := by
      cases e : v.kind <;> simp [e, Kind.isArray, Kind.isObject] at hk ⊢
    rw [if_pos hk, conversion, hobj]
    split
    · rfl
    · split <;> rfl
  · rw [if_neg hk, conversion]
    split
    · rcases hdir with e | e | e <;> simp [e, Direction.isInput, holder, Stmt.disposed]
    · rfl

theorem conversion_sublist : ((v.conversion t).map (·.1)).Sublist v.buffers := by
  unfold conversion
  split
  · rename_i hk
    have hmx : v.kind ≠ .mx := by
      intro e
      simp [e, Kind.isObject] at hk
    have hconst : v.kind ≠ .const := by
      intro e
      simp [e, Kind.isObject] at hk
    by_cases hd : v.direction = .output
    · simp [holder, buffers, inputLocals, outputLocals, hd, hmx]
    · simp [holder, buffers, inputLocals, outputLocals, hd, hconst]
  · simp

end Variable

/-! ## What a stub has converted -/

namespace Routine

variable {c : Context} {t : TypeTable} {r : Routine} {ss : List Stmt} {x : Local} {T : String}

/-- Is the routine a method of a class whose objects are converted? -/
def convertsReceiver (t : TypeTable) (r : Routine) : Bool :=
  r.receiver?.isSome && r.owner.any t.isMxArray

/-- The object that a method is called on, if it is converted. -/
def receiverConversion (t : TypeTable) (r : Routine) : List (Local × String) :=
  if r.convertsReceiver t then [(.input 0, r.ownerName)] else []

/-- The objects converted for a routine. -/
def converted (t : TypeTable) (r : Routine) : List (Local × String) :=
  r.receiverConversion t ++ r.args.flatMap (·.conversion t)

theorem converted_inputReads (t : TypeTable) (r : Routine) :
    (r.inputReads t).flatMap Stmt.converted = r.receiverConversion t
      ++ r.args.flatMap fun v => (v.getInput t).flatMap Stmt.converted := by
  rw [inputReads, List.flatMap_append, List.flatMap_assoc]
  congr 1
  unfold receiverConversion convertsReceiver
  cases r.receiver?.isSome with
  | false => rfl
  | true =>
    cases ho : r.owner with
    | none => rfl
    | some C =>
      cases hC : t.isMxArray C <;> cases hp : t.isParent C <;>
        simp [Variable.getInput.objectSource, hC, hp, Stmt.converted]

theorem Regular.converted_allocations (h : r.Regular) (hss : r.mainStatements c = .ok ss) :
    (made (r.allocations c.types)).flatMap Stmt.converted
      = r.args.flatMap fun v => (made (v.alloc c.types false)).flatMap Stmt.converted := by
  obtain ⟨as, has⟩ := (mainStatements_eq_ok hss).allocs
  have hkept : (r.keptResults.flatMap fun v => made (v.alloc c.types true)).flatMap Stmt.converted
      = [] := by
    refine List.flatMap_eq_nil_iff.2 fun s hs => ?_
    obtain ⟨v, hv, hs⟩ := List.mem_flatMap.1 hs
    obtain ⟨hcpu, hout, hnull⟩ := h.kept v hv
    have hnone := (Variable.makes_alloc hs).sources_kept hcpu hout hnull
    cases s with
    | getObject => simp [Stmt.sources] at hnone
    | allocObject => simp [Stmt.sources] at hnone
    | _ => rfl
  rw [has, made_ok, (allocations_eq_ok has).1, List.flatMap_append, hkept, List.nil_append,
    List.flatMap_assoc]

/-- What the text of a stub converts. -/
theorem Regular.conversions_eq (h : r.Regular) (hcpu : ∀ v ∈ r.args, v.onGpu = false)
    (hss : r.mainStatements c = .ok ss) :
    conversions T x (ss.filter (!·.isCall)) = (r.converted c.types).count (x, T) := by
  have hmem : ∀ s ∈ r.dimReads ++ r.inputReads c.types ++ made (r.allocations c.types), s ∈ ss := by
    intro s hs
    rw [(mainStatements_eq_ok hss).eq]
    simp only [List.mem_append] at hs ⊢
    rcases hs with (hs | hs) | hs <;> simp [hs]
  have hdims : r.dimReads.flatMap Stmt.converted = [] := by
    refine List.flatMap_eq_nil_iff.2 fun s hs => ?_
    rcases stage_dimReads hs with e | rfl
    · cases s <;> simp [Stmt.stage] at e; rfl
    · rfl
  have hargs : ((r.args.flatMap fun v => (v.getInput c.types).flatMap Stmt.converted)
      ++ r.args.flatMap fun v => (made (v.alloc c.types false)).flatMap Stmt.converted).Perm
        (r.args.flatMap (·.conversion c.types)) := by
    refine (List.flatMap_append_perm r.args _ _).trans (List.Perm.of_eq ?_)
    refine List.flatMap_congr fun v hv => ?_
    rw [← List.flatMap_append]
    exact Variable.converted_making (hcpu v hv)
  calc conversions T x (ss.filter (!·.isCall))
      = ((r.dimReads ++ r.inputReads c.types ++ made (r.allocations c.types)).flatMap
          Stmt.converted).count (x, T) := by
        rw [conversions, h.assigned_eq hss, sources_eq hss, List.count_flatMap, List.count_flatMap,
          List.count_flatMap, ← List.sum_map_add]
        refine congrArg List.sum (List.map_congr_left fun s hs => ?_)
        exact Stmt.count_sources (h.readable hss s (hmem s hs))
    _ = (r.converted c.types).count (x, T) := by
        rw [List.flatMap_append, List.flatMap_append, hdims, List.nil_append,
          converted_inputReads, h.converted_allocations hss, List.append_assoc, converted]
        exact (hargs.append_left _).count_eq _

/-- What the text of its releases disposes of. -/
theorem Regular.disposals_eq (h : r.Regular) (hcpu : ∀ v ∈ r.args, v.onGpu = false)
    (t : TypeTable) :
    disposals T x (r.releases t) = (r.args.flatMap (·.conversion t)).count (x, T) := by
  have htype : ∀ s ∈ r.releases t, IsWord s.typeName := by
    intro s hs
    rw [h.releases_eq] at hs
    obtain ⟨v, hv, hs⟩ := List.mem_flatMap.1 hs
    exact (Variable.makes_release hs).isWord_typeName (h.argTypes v hv)
  have hdisposed : (r.releases t).flatMap Stmt.disposed = r.args.flatMap (·.conversion t) := by
    rw [h.releases_eq, List.flatMap_assoc]
    exact List.flatMap_congr fun v hv =>
      Variable.disposed_release (hcpu v hv) (h.directions v hv)
  rw [← hdisposed, disposals, handed, List.count_flatMap, List.count_flatMap]
  refine congrArg List.sum (List.map_congr_left fun s hs => ?_)
  exact Stmt.count_passed (htype s hs) (stage_releases hs)

/-- No local has two objects converted for it: those of a stub differ. -/
theorem Regular.nodup_converted (h : r.Regular) (t : TypeTable) : (r.converted t).Nodup := by
  refine List.Nodup.of_map (·.1) ?_
  refine h.nodup_receiver_buffers.sublist ?_
  rw [converted, List.map_append, List.map_flatMap]
  refine List.Sublist.append ?_ (List.Sublist.flatMap_right _ fun _ _ => Variable.conversion_sublist)
  unfold receiverConversion convertsReceiver
  cases r.receiver? with
  | none => simp
  | some this => split <;> simp

theorem isMxArray_of_converted {p : Local × String} (hp : p ∈ r.converted t) :
    t.isMxArray p.2 = true := by
  rcases List.mem_append.1 hp with hp | hp
  · unfold receiverConversion convertsReceiver at hp
    split at hp
    · rename_i hthis
      obtain rfl := List.mem_singleton.1 hp
      cases ho : r.owner with
      | none => simp [ho] at hthis
      | some C => simpa [ownerName, ho] using (Bool.and_eq_true_iff.1 hthis).2
    · simp at hp
  · obtain ⟨v, -, hp⟩ := List.mem_flatMap.1 hp
    unfold Variable.conversion at hp
    split at hp
    · rename_i hv
      obtain rfl := List.mem_singleton.1 hp
      exact (Bool.and_eq_true_iff.1 hv).2
    · simp at hp

end Routine

namespace Ledger

/-- The stub of a declaration checked without errors is written, whatever the context, if only
arrays live on the GPU. -/
theorem stub_checked {file : String} {ts : List Token} {r : Routine}
    (hparse : Statement.parse file ts = .ok (.call r)) {l : Ledger}
    (h : (l.checked r).errors = 0) (c : Context) {g : Group} (hg : g.first = (l.checked r).value)
    (hgpu : ∀ v ∈ g.first.args, v.onGpu = true → v.kind.isArray = true) :
    ∃ ss, g.first.mainStatements c = .ok ss ∧
      g.stub c = .ok (g.stubHead (g.first.signature c.settings.promotion)
        ++ Code.render (ss.flatMap Stmt.code) ++ "\nmw_err_label:\n"
        ++ Code.render ((g.first.releases c.types).flatMap Stmt.code) ++ Group.stubTail) := by
  have hr := written_parsed hparse l
  have hvetted : g.first.Vetted l.context.types := hg ▸ Routine.vetted_check hr h
  have hsign : g.first.isSignable = true := hg ▸ isSignable_checked hparse
  obtain ⟨ss, hss⟩ := (hvetted.mainStatements_iff (c := c)).2 fun v hv hu =>
    (hvetted.args v hv).sized (Or.inl (hgpu v hv hu.1)) hu.2.1 hu.2.2
  exact ⟨ss, hss, Group.stub_of_mainStatements hsign hss⟩

/-- **Converted objects are disposed of, all but the one a method is called on.** Take a declaration
checked without errors in any context, with no argument on the GPU, and any context to write its
stub in. Up to the error label, the call of the wrapped function apart, no object is disposed of. A
local gets at most one converted object, of a class declared so; after the error label it is
disposed of once, and no other local is. The object that a method is called on is the only
exception: converted like any argument, it is not disposed of. So conversions and disposals balance
exactly if the routine is no method of a class whose objects are converted. -/
theorem conversions_balanced_iff {file : String} {ts : List Token} {r : Routine}
    (hparse : Statement.parse file ts = .ok (.call r))
    (hlex : ∀ u ∈ ts, ∃ line cs, u ∈ Token.tokens line cs) {l : Ledger}
    (h : (l.checked r).errors = 0) (c : Context) {g : Group} (hg : g.first = (l.checked r).value)
    (hgpu : ∀ v ∈ g.first.args, v.onGpu = false) :
    ∃ ss, g.first.mainStatements c = .ok ss ∧
      g.stub c = .ok (g.stubHead (g.first.signature c.settings.promotion)
        ++ Code.render (ss.flatMap Stmt.code) ++ "\nmw_err_label:\n"
        ++ Code.render ((g.first.releases c.types).flatMap Stmt.code) ++ Group.stubTail) ∧
      let main := ss.filter (!·.isCall)
      let after := g.first.releases c.types
      (∀ T x, disposals T x main = 0) ∧
      (∀ T x, conversions T x main ≤ 1 ∧
        (0 < conversions T x main → c.types.isMxArray T = true)) ∧
      (∀ T x, conversions T x main = disposals T x after +
        if g.first.convertsReceiver c.types = true ∧ x = .input 0 ∧ T = g.first.ownerName
        then 1 else 0) ∧
      ((∀ T x, conversions T x main = disposals T x after) ↔
        g.first.convertsReceiver c.types = false) := by
  have hregular := regular_checked hparse hlex h hg
  obtain ⟨ss, hss, hstub⟩ := stub_checked hparse h c hg fun v hv hu => by
    simp [hgpu v hv] at hu
  have hmain T x := hregular.conversions_eq (T := T) (x := x) hgpu hss
  have hafter T x := hregular.disposals_eq (T := T) (x := x) hgpu c.types
  have hsplit (T : String) (x : Local) :
      conversions T x (ss.filter (!·.isCall)) = disposals T x (g.first.releases c.types)
        + if g.first.convertsReceiver c.types = true ∧ x = .input 0 ∧ T = g.first.ownerName
          then 1 else 0 := by
    rw [hmain, hafter, Routine.converted, List.count_append, Nat.add_comm,
      Routine.receiverConversion]
    cases g.first.convertsReceiver c.types with
    | false => simp
    | true =>
      simp only [if_true, true_and, List.count_singleton, beq_iff_eq, Prod.mk.injEq]
      exact congrArg _ (if_congr (and_congr eq_comm eq_comm) rfl rfl)
  refine ⟨ss, hss, hstub, fun T x => ?_, fun T x => ⟨?_, fun hpos => ?_⟩, hsplit, ?_⟩
  · refine List.count_eq_zero.2 fun hmem => ?_
    have hfree := hregular.isReleaser_handed hss _ hmem
    simp [isReleaser] at hfree
  · rw [hmain]
    exact List.nodup_iff_count_le_one.1 (hregular.nodup_converted _) _
  · rw [hmain] at hpos
    exact Routine.isMxArray_of_converted (List.count_pos_iff.1 hpos)
  · constructor
    · intro hbalanced
      have hthis := (hbalanced g.first.ownerName (.input 0)).symm.trans
        (hsplit g.first.ownerName (.input 0))
      by_contra hne
      simp [hne] at hthis
    · intro hnone T x
      rw [hsplit, hnone]
      simp

/-- Meshes that come in, go out, do both, and are returned. -/
def refineTokens : List Token :=
  Token.tokens 2 "Mesh* r = refine(Mesh a, inout Mesh& b, output Mesh* c, int n);".toList

def refineRoutine : Routine where
  name := "refine"
  file := "a.mw"
  line := 2
  args :=
    [{ type := "Mesh", name := "a" },
      { direction := .inout, type := "Mesh", name := "b", qualifier := some { mark := .reference } },
      { direction := .output, type := "Mesh", name := "c", qualifier := some { mark := .pointer } },
      { type := "int", name := "n" }]
  results :=
    [{ direction := .output, type := "Mesh", name := "r", qualifier := some { mark := .pointer } }]

theorem conversions_balanced_refineRoutine :
    let l := run "m" { context := .ofSettings {} } meshEvents
    let g : Group := { first := (l.checked refineRoutine).value }
    Statement.parse "a.mw" refineTokens = .ok (.call refineRoutine) ∧
      (l.checked refineRoutine).errors = 0 ∧ (∀ v ∈ g.first.args, v.onGpu = false) ∧
      (∃ ss, g.first.mainStatements l.context = .ok ss ∧ ∀ T x,
        conversions T x (ss.filter (!·.isCall)) = disposals T x (g.first.releases l.context.types)) ∧
      (handed (g.first.releases l.context.types)).filter (·.1 ≠ "") =
        [("mxWrapFree_Mesh", .input 0), ("mxWrapFree_Mesh", .input 1),
          ("mxWrapFree_Mesh", .output 2)] := by
  intro l g
  have hparse : Statement.parse "a.mw" refineTokens = .ok (.call refineRoutine) := by
    decide +kernel
  have herrors : (l.checked refineRoutine).errors = 0 := by decide +kernel
  have hgpu : ∀ v ∈ g.first.args, v.onGpu = false := by decide +kernel
  obtain ⟨ss, hss, -, -, -, -, hiff⟩ := conversions_balanced_iff hparse (fun u hu => ⟨2, _, hu⟩)
    herrors l.context (g := g) rfl hgpu
  exact ⟨hparse, herrors, hgpu, ⟨ss, hss, hiff.2 (by decide +kernel)⟩, by decide +kernel⟩

/-- A method of a class whose objects are converted. -/
def surfaceTokens : List Token := Token.tokens 2 "double a = m->Mesh.surface();".toList

def surfaceRoutine : Routine where
  receiver := some "m"
  owner := some "Mesh"
  name := "surface"
  file := "a.mw"
  line := 2
  results := [{ direction := .output, type := "double", name := "a" }]

/-- The mesh that a method is called on is made from a MATLAB array and never disposed of. -/
theorem receiver_not_disposed :
    let l := run "m" { context := .ofSettings {} } meshEvents
    let g : Group := { first := (l.checked surfaceRoutine).value }
    Statement.parse "a.mw" surfaceTokens = .ok (.call surfaceRoutine) ∧
      (l.checked surfaceRoutine).errors = 0 ∧ (∀ v ∈ g.first.args, v.onGpu = false) ∧
      (g.first.mainStatements l.context).toOption.map
          (fun ss => conversions "Mesh" (.input 0) (ss.filter (!·.isCall))) = some 1 ∧
      disposals "Mesh" (.input 0) (g.first.releases l.context.types) = 0 := by
  decide +kernel

end Ledger

end MexBridge
