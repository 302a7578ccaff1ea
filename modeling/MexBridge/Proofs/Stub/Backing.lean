import MexBridge.Proofs.Stub.Calls

/-!
# What backs the statements of a stub

Say of which names the gateway file has definitions. If these are all that the types of a routine
call for (`Routine.Provided`), then every helper that its stub calls has one, but for the functions
of the runtime support that read real numbers (`Routine.Provided.backed`).
-/

namespace MexBridge

/-- The numbers that a value of a kind holds. -/
def Kind.field? : Kind → Option Field
  | .array f => some f
  | .arrayRef => some .real
  | .number f _ => some f
  | _ => none

/-- The functions of the runtime support that read a real number of another class than double. -/
def runtimeGetters : List String := ["mxWrapGetScalar_single", "mxWrapGetScalar_char"]

theorem Numeric.mem_runtimeGetters {type : String} :
    isHelper (ofType type).scalarGetter = true → (ofType type).scalarGetter ∈ runtimeGetters :=
  forall_ofType (P := fun n => isHelper n.scalarGetter = true → n.scalarGetter ∈ runtimeGetters)
    (by decide +kernel) (by decide) type

/-- Every helper that a statement calls is one of `P`, or reads a real number. -/
structure Stmt.Backed (P : String → Prop) (s : Stmt) : Prop where
  spelled : s.Spelled
  helpers : ∀ f ∈ s.helpers,
    P f ∨ ∃ k type, s = .getNumber k type ∧ f = (Numeric.ofType type).scalarGetter

/-- The helpers for the type of a variable are among `P`. -/
structure Variable.Provided (P : String → Prop) (v : Variable) : Prop where
  type : IsWord v.type
  getArray : ∀ f, v.kind.field? = some f →
    P ("mxWrapGetArray_" ++ Numeric.copierMark v.type ++ v.type)
  copy : ∀ f, v.kind.field? = some f → P ("mxWrapCopy_" ++ Numeric.copierMark v.type ++ v.type)
  result : ∀ f, v.kind.field? = some f → P ("mxWrapReturn_" ++ v.type)
  getScalar : ∀ f, v.kind.field? = some f → f ≠ .real →
    P ("mxWrapGetScalar_" ++ Numeric.copierMark v.type ++ v.type)

/-- The helpers for a routine are among `P`. -/
structure Routine.Provided (P : String → Prop) (t : TypeTable) (r : Routine) : Prop where
  results : ∀ v ∈ r.results, v.Provided P
  args : ∀ v ∈ r.args, v.Provided P
  parents : ∀ type, t.isParent type = true → P ("mxWrapGetP_" ++ type)
  fortran : r.fortran = true → P ("MWF77_" ++ r.name)
  name : IsWord r.name
  owner : r.receiver?.isSome = true → IsWord r.ownerName

namespace Stmt

variable {P : String → Prop} {s : Stmt} {type : String}

/-- The helpers called are among `P`, read off the code. -/
theorem Backed.calls (h : s.Backed P) {f : String} (hf : f ∈ s.calls)
    (hhelper : isHelper f = true) :
    P f ∨ f ∈ runtimeGetters ∧ ∃ k type, s = .getNumber k type := by
  rcases h.helpers f (mem_helpers h.spelled hf hhelper) with hP | ⟨k, type, hs, rfl⟩
  · exact Or.inl hP
  · exact Or.inr ⟨Numeric.mem_runtimeGetters hhelper, k, type, hs⟩

theorem backed_declare (h : IsLocalType type) (l : Local) (zeroed : Bool) (remark : String) :
    (Stmt.declare type l zeroed remark).Backed P := by
  refine ⟨⟨by simp [named], ?_⟩, by simp [helpers]⟩
  intro type' l' zeroed' remark' e
  cases e
  exact h

/-- A statement that names words only and calls no helper. -/
theorem backed_of_word (hnamed : ∀ n ∈ s.named, IsWord n) (hhelpers : s.helpers = [])
    (hstage : s.stage ≠ some .declare) : s.Backed P := by
  refine ⟨⟨hnamed, ?_⟩, by simp [hhelpers]⟩
  rintro type l zeroed remark rfl
  exact absurd rfl hstage

end Stmt

namespace Variable

variable {P : String → Prop} {t : TypeTable} {v : Variable} {s : Stmt} {isResult : Bool}

theorem isLocalType_localType {type : String} (h : v.localType = .ok type) (hv : IsWord v.type) :
    Stmt.IsLocalType type := by
  obtain ⟨f, hf, rfl, -⟩ := localType_form h hv
  exact hf.isLocalType

/-- Taking an object calls a helper only if a child class will do as well. -/
theorem backed_getObject {k : Int} {type : String} {source : ObjectSource} (htype : IsWord type)
    (hcast : source = .cast → P ("mxWrapGetP_" ++ type)) :
    (Stmt.getObject k type source).Backed P := by
  refine ⟨⟨by simpa [Stmt.named] using htype, by simp⟩, ?_⟩
  intro f hf
  cases source <;> simp [Stmt.helpers] at hf
  exact Or.inl (hf ▸ hcast rfl)

theorem isParent_of_objectSource {type : String} (h : getInput.objectSource t type = .cast) :
    t.isParent type = true := by
  unfold getInput.objectSource at h
  split at h
  · cases h
  split at h
  · assumption
  · cases h

theorem Makes.backed {g : Stage} (hs : v.Makes t isResult g s) (hv : v.Provided P)
    (hparents : ∀ type, t.isParent type = true → P ("mxWrapGetP_" ++ type)) : s.Backed P := by
  have htype := hv.type
  have hword {s : Stmt} (hnamed : ∀ n ∈ s.named, n = v.type) (hhelpers : s.helpers = [])
      (hstage : s.stage ≠ some .declare) : s.Backed P :=
    Stmt.backed_of_word (fun n hn => hnamed n hn ▸ htype) hhelpers hstage
  have hlocal {type : String} (h : v.localType = .ok type) :=
    Stmt.backed_declare (P := P) (isLocalType_localType h htype)
  cases hs with
  | input hd hk htype => exact hlocal htype ..
  | output hd hk htype => exact hlocal htype ..
  | gpuInput hd hk hg => exact Stmt.backed_declare (by decide) ..
  | gpuOutput hd hk hg => exact Stmt.backed_declare (by decide) ..
  | gpuDims hd hk hg => exact Stmt.backed_declare (by decide) ..
  | getObject hd hk =>
    exact backed_getObject htype fun e => hparents _ (isParent_of_objectSource e)
  | getArray hd hk hg =>
    refine ⟨⟨by simpa [Stmt.named] using htype, by simp⟩, fun g hg => ?_⟩
    have hget := hv.getArray _ (by rw [hk]; rfl)
    cases hsource : v.arraySource <;> simp [hsource, Stmt.helpers] at hg
    all_goals exact Or.inl (hg ▸ hget)
  | getNumber hd hk =>
    refine ⟨⟨by simpa [Stmt.named] using htype, by simp⟩, fun g hg => ?_⟩
    exact Or.inr ⟨_, _, rfl, List.mem_singleton.1 hg⟩
  | getComplex hd hk hf =>
    refine ⟨⟨by simpa [Stmt.named] using htype, by simp⟩, fun g hg => ?_⟩
    exact Or.inl (List.mem_singleton.1 hg ▸ hv.getScalar _ (by rw [hk]; rfl) hf)
  | setArray hd hk =>
    have hfield : ∃ f, v.kind.field? = some f := by
      split at hk
      · exact ⟨_, by rw [hk]; rfl⟩
      · cases e : v.kind <;> simp_all [Kind.isArray, Kind.field?]
    refine ⟨⟨by simpa [Stmt.named] using htype, by simp⟩, fun g hg => Or.inl ?_⟩
    exact List.mem_singleton.1 hg ▸ hv.copy _ hfield.choose_spec
  | _ => exact hword (by simp [Stmt.named]) rfl (by simp [Stmt.stage])

theorem provided_disposal {d : Disposal} (hv : v.Provided P) (hd : v.disposal t = .ok (some d)) :
    (∀ n ∈ d.named, IsWord n) ∧ ∀ f ∈ d.helpers, P f := by
  have hfound : (d.named = [v.type] ∨ d.named = []) ∧ (d.helpers = [] ∨
      v.kind.field?.isSome = true ∧ d.helpers = ["mxWrapReturn_" ++ v.type]) := by
    cases disposes_disposal hd <;> simp [Disposal.named, Disposal.helpers, Kind.field?, *]
  constructor
  · rcases hfound.1 with h | h <;> simp [h, hv.type]
  · rcases hfound.2 with hnone | ⟨hfield, hreturn⟩
    · simp [hnone]
    · obtain ⟨g, hg⟩ := Option.isSome_iff_exists.1 hfield
      simpa [hreturn] using hv.result g hg

end Variable

namespace Routine

variable {P : String → Prop} {t : TypeTable} {c : Context} {r : Routine} {s : Stmt}
  {ss : List Stmt}

theorem Provided.makes_backed (h : r.Provided P t) {g : Option Stage} (hs : r.Makes t g s) :
    s.Backed P := by
  cases hs with
  | receiver hthis =>
    have howner := Stmt.isLocalType_of_isWord (h.owner (by simp [hthis]))
    exact Stmt.backed_declare (howner.append (by decide)) ..
  | declareDim hv hd => exact Stmt.backed_declare (by decide) ..
  | getObject hthis =>
    refine Variable.backed_getObject (h.owner hthis) fun hcast => h.parents _ ?_
    cases ho : r.owner with
    | none => simp [ho] at hcast
    | some C =>
      rw [ownerName, ho]
      exact Variable.isParent_of_objectSource (by simpa [ho] using hcast)
  | arg hv hs => exact hs.backed (h.args _ hv) h.parents
  | result hv hs => exact hs.backed (h.results _ (mem_of_keptResults hv)) h.parents
  | call hd =>
    rename_i d
    have hdisposal : (∀ n ∈ d.named, IsWord n) ∧ ∀ f ∈ d.helpers, P f := by
      unfold disposal at hd
      split at hd
      · rename_i v vs hr
        exact Variable.provided_disposal (h.results v (by simp [hr])) hd
      · cases hd
        simp [Disposal.named, Disposal.helpers]
    have hcallee : (∀ n ∈ r.call.callee.named, IsWord n) ∧ ∀ f ∈ r.call.callee.helpers, P f := by
      unfold call
      dsimp only
      split
      · simp [Callee.named, Callee.helpers]
      split
      · rename_i hfortran
        simpa [Callee.named, Callee.helpers] using And.intro h.name (h.fortran hfortran)
      · simp [Callee.named, Callee.helpers]
    refine ⟨⟨List.forall_mem_append.2 ⟨hcallee.1, hdisposal.1⟩, by simp⟩, fun f hf => Or.inl ?_⟩
    exact (List.mem_append.1 hf).elim (hcallee.2 f) (hdisposal.2 f)
  | endTry =>
    exact Stmt.backed_of_word (by simpa [Stmt.named] using h.name) rfl (by simp [Stmt.stage])
  | _ => exact Stmt.backed_of_word (by simp [Stmt.named]) rfl (by simp [Stmt.stage])

/-- **What its types call for backs the whole stub.** -/
theorem Provided.backed (h : r.Provided P c.types) (hss : r.mainStatements c = .ok ss) :
    ∀ s ∈ ss ++ r.releases c.types, s.Backed P := by
  intro s hs
  obtain ⟨g, hs⟩ := makes_mainStatements hss s hs
  exact h.makes_backed hs

end Routine

end MexBridge
