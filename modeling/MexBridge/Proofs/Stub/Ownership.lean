import MexBridge.Proofs.Ledger.Run
import MexBridge.Proofs.Stub.Completion
import MexBridge.Proofs.Stub.Sources

/-!
# What a stub owns for its variables

How an array is taken is decided by what is known of its type, whether it is freed by the name of
its type alone. The two agree because `double` and `float` are real types in every context that a
run reaches (`Ledger.isScalar_run`). So what is freed for a variable is what was allocated for it
(`Variable.Accounted.frees_release`), and the locals that its statements draw from functions fall
into three sorts: memory it owns, handles it has made, and the rest (`Variable.Draws`).
-/

namespace MexBridge

/-! ## Types once known stay known -/

namespace Ledger

/-- The numeric types known from the start are known in every context a run reaches. -/
theorem isScalar_run (mex : String) (s : Settings) (es : List Event) {n : String}
    (hn : n ∈ TypeTable.builtin) :
    (run mex { context := .ofSettings s } es).context.types.isScalar n = true := by
  have hstart : (Context.ofSettings s).types.scalars = TypeTable.builtin := by
    unfold Context.ofSettings
    dsimp only
    split <;> rfl
  have hgrown := (grows_run mex { context := .ofSettings s } es).types .real (hstart ▸ hn)
  simpa [TypeTable.isScalar, TypeTable.ofField] using hgrown

end Ledger

/-! ## What a variable owns -/

/-- Is what the function returns to be freed? -/
def allocates (f : String) : Bool :=
  f == "mxMalloc" || f == "mxWrapGetString" || "mxWrapGetArray_".toList.isPrefixOf f.toList

/-- The functions that give access to data in place. -/
def accessors : List String :=
  ["mxGetDoubles", "mxGetSingles", "mxGetPr", "mxGetData", "mxGPUGetData", "mxGPUGetDataReadOnly"]

/-- The functions that make handles of GPU arrays. -/
def creators : List String := ["mxGPUCreateFromMxArray", "mxGPUCreateGPUArray"]

/-- A function that neither allocates nor creates nor gives access. -/
structure Ordinary (f : String) : Prop where
  allocates : allocates f = false
  creates : f ∉ creators
  accesses : f ∉ accessors

/-- A name that no name of another function starts, or is started by, makes ordinary functions. -/
theorem ordinary_append {p : String}
    (hp : ∀ f ∈ "mxMalloc" :: "mxWrapGetString" :: "mxWrapGetArray_" :: creators ++ accessors,
      ¬ p.toList <+: f.toList ∧ ¬ f.toList <+: p.toList) (type : String) :
    Ordinary (p ++ type) := by
  have hne : ∀ f ∈ "mxMalloc" :: "mxWrapGetString" :: "mxWrapGetArray_" :: creators ++ accessors,
      p ++ type ≠ f := by
    rintro f hf rfl
    exact (hp _ hf).1 (by simp)
  have hcopier : ¬ "mxWrapGetArray_".toList <+: (p ++ type).toList := by
    intro hpre
    have hself : p.toList <+: (p ++ type).toList := by simp
    have hname := hp "mxWrapGetArray_" (by simp)
    rcases List.prefix_or_prefix_of_prefix hself hpre with hle | hle
    · exact hname.1 hle
    · exact hname.2 hle
  refine ⟨?_, fun hf => ?_, fun hf => ?_⟩
  · have h1 := hne "mxMalloc" (by simp)
    have h2 := hne "mxWrapGetString" (by simp)
    rw [← List.isPrefixOf_iff_prefix, Bool.not_eq_true] at hcopier
    rw [allocates, beq_false_of_ne h1, beq_false_of_ne h2, hcopier]
    rfl
  · exact hne _ (by simp [hf]) rfl
  · exact hne _ (by simp [hf]) rfl

theorem ordinary_getter (source : ObjectSource) (type : String) :
    Ordinary (source.getter type) := by
  cases source with
  | converted => exact ordinary_append (by decide) type
  | plain =>
    show Ordinary "mxWrapGetP"
    exact ⟨by decide, by decide, by decide⟩
  | cast => exact ordinary_append (by decide) type

theorem allocates_copier (type : String) :
    allocates ("mxWrapGetArray_" ++ Numeric.copierMark type ++ type) = true := by
  have : "mxWrapGetArray_".toList
      <+: ("mxWrapGetArray_" ++ Numeric.copierMark type ++ type).toList := by
    simp [String.append_assoc]
  rw [← List.isPrefixOf_iff_prefix] at this
  simp only [allocates, this, Bool.or_true]

theorem of_mem_accessors : ∀ f ∈ accessors, allocates f = false ∧ f ∉ creators := by decide

/-- An array used in place is accessed. -/
theorem mem_accessors {type f : String} (h : (Numeric.ofType type).direct = true)
    (hf : f ∈ ArraySource.getters type .inPlace) : f ∈ accessors := by
  have hdouble : ∀ f ∈ ArraySource.getters "double" .inPlace, f ∈ accessors := by decide
  have hfloat : ∀ f ∈ ArraySource.getters "float" .inPlace, f ∈ accessors := by decide
  rcases Numeric.direct_iff.1 h with rfl | rfl
  · exact hdouble f hf
  · exact hfloat f hf

theorem ordinary_scalarGetter (type : String) : Ordinary (Numeric.ofType type).scalarGetter := by
  obtain ⟨h1, h2, h3⟩ := Numeric.forall_ofType (P := fun n => allocates n.scalarGetter = false ∧
    n.scalarGetter ∉ creators ∧ n.scalarGetter ∉ accessors) (by decide) (by decide) type
  exact ⟨h1, h2, h3⟩

theorem ordinary_alloc (type : String) : Ordinary ("mxWrapAlloc_" ++ type) :=
  ordinary_append (by decide) type

/-- The locals that a statement frees. -/
def Stmt.frees : Stmt → List Local
  | .free l => [l]
  | _ => []

/-- The handles that a statement destroys. -/
def Stmt.destroys : Stmt → List Local
  | .destroyGpu l => [l]
  | _ => []

namespace Variable

/-- The locals that carry a variable and its handles. -/
def buffers (v : Variable) : List Local := v.inputLocals ++ v.outputLocals

/-- The local whose memory the stub allocates for a variable. -/
def owned (v : Variable) : List Local :=
  if v.onGpu || !(v.kind.isArray || v.kind == .string) then []
  else if v.direction = .output then [.output v.outLabel]
  else if v.kind.isArray && v.arraySource == .inPlace then []
  else [.input v.inLabel]

/-- The handle that the stub makes for a variable on the GPU. -/
def handles (v : Variable) : List Local :=
  if v.onGpu then
    if v.direction = .output then [.gpuOutput v.outLabel] else [.gpuInput v.inLabel]
  else []

/-- What a stub needs of an argument to release all that it owns, and no more. -/
structure Accounted (v : Variable) : Prop where
  type : IsWord v.type
  direction : v.direction = .input ∨ v.direction = .output ∨ v.direction = .inout
  onGpu : v.onGpu = true → v.kind.isArray = true
  borrowed : v.kind.isArray = true ∨ v.kind = .string → v.direction ≠ .output →
    (v.isBorrowed = true ↔ v.kind.isArray = true ∧ v.arraySource = .inPlace)

/-- The function `f` gives the local `x` of a variable its value. -/
inductive Draws (v : Variable) (x : Local) (f : String) : Prop
  | owned (mem : x ∈ v.owned) (allocates : allocates f = true)
  | handle (mem : x ∈ v.handles) (creates : f ∈ creators)
  | other (mem : x ∈ v.buffers) (owned : x ∉ v.owned) (handles : x ∉ v.handles)
      (allocates : MexBridge.allocates f = false) (creates : f ∉ creators)

variable {t t' : TypeTable} {v : Variable} {s : Stmt} {ss : List Stmt} {isResult : Bool}

/-- A check finds `double` and `float` real, so an array of theirs that is only read is used in
place; and no other array is. -/
theorem VettedArg.borrowed (h : v.VettedArg t) (hdouble : t.isScalar "double" = true)
    (hfloat : t.isScalar "float" = true)
    (hdir : v.direction = .input ∨ v.direction = .output ∨ v.direction = .inout)
    (hk : v.kind.isArray = true ∨ v.kind = .string) (hd : v.direction ≠ .output) :
    v.isBorrowed = true ↔ v.kind.isArray = true ∧ v.arraySource = .inPlace := by
  by_cases htype : v.type = "double" ∨ v.type = "float"
  · have hscalar : t.isScalar v.type = true := by rcases htype with e | e <;> rw [e] <;> assumption
    have hdirect : (Numeric.ofType v.type).direct = true := Numeric.direct_iff.2 htype
    have hstring : v.kind ≠ .string := by
      intro e
      have := h.string e
      rcases htype with e' | e' <;> simp [this] at e'
    have harray := hk.resolve_right hstring
    have hcomplex : v.kind.isComplex = false := by
      cases e : v.kind with
      | array f =>
        have := h.field f e
        simp only [TypeTable.field?, hscalar, if_true, Option.some.injEq] at this
        rw [← this]
        rfl
      | _ => simp [e, Kind.isArray] at harray
    have hborrowed : v.isBorrowed = true ↔ v.direction ≠ .inout := by
      rcases htype with e | e <;> simp [isBorrowed, e]
    rw [hborrowed]
    rcases hdir with e | e | e
    · simp [arraySource, harray, hcomplex, hdirect, e]
    · exact absurd e hd
    · simp [arraySource, harray, hcomplex, hdirect, e]
  · have hborrowed : v.isBorrowed = false := by
      rw [not_or] at htype
      simp [isBorrowed, htype]
    rw [hborrowed]
    refine iff_of_false (by simp) fun hin => ?_
    exact htype (Numeric.direct_iff.1 (direct_of_arraySource hin.2))

section

variable (h : v.Accounted)

include h

theorem Accounted.draws_input (hd : v.direction ≠ .output) (hconst : v.kind ≠ .const)
    (harray : v.kind.isArray = false) (hstring : v.kind ≠ .string) {f : String} (hf : Ordinary f) :
    v.Draws (.input v.inLabel) f := by
  have hcpu : v.onGpu = false := by simpa [harray] using h.onGpu
  have howned : v.owned = [] := by simp [owned, harray, hstring]
  have hhandles : v.handles = [] := by simp [handles, hcpu]
  refine .other ?_ (by simp [howned]) (by simp [hhandles]) hf.allocates hf.creates
  simp [buffers, inputLocals, hd, hconst]

/-- **What is freed for a variable is what is allocated for it.** -/
theorem Accounted.frees_release : (v.release t isResult).flatMap Stmt.frees = v.owned := by
  unfold release
  by_cases hg : v.onGpu = true
  · rcases h.direction with e | e | e <;> simp [owned, hg, e, Stmt.frees]
  rw [if_neg hg]
  by_cases hk : (v.kind.isArray || v.kind == .string) = true
  · rw [if_pos hk]
    by_cases hd : v.direction = .output
    · simp [owned, hg, hk, hd, Stmt.frees]
    · have hkind : v.kind.isArray = true ∨ v.kind = .string := by simpa using hk
      have hb := h.borrowed hkind hd
      cases hborrowed : v.isBorrowed with
      | true =>
        obtain ⟨ha, hin⟩ := hb.1 hborrowed
        simp [owned, hd, ha, hin]
      | false =>
        have hin : (v.kind.isArray && v.arraySource == .inPlace) = false := by
          rw [hborrowed] at hb
          simpa using hb
        simp [owned, hg, hk, hd, hin, Stmt.frees]
  · have hnone : v.owned = [] := by simp [owned, hk]
    rw [if_neg hk, hnone]
    split
    · split
      · rfl
      · split <;> rfl
    · rfl

theorem Accounted.destroys_release : (v.release t isResult).flatMap Stmt.destroys = v.handles := by
  unfold release handles
  by_cases hg : v.onGpu = true
  · rcases h.direction with e | e | e <;> simp [hg, e, Stmt.destroys]
  · rw [if_neg hg, if_neg hg]
    split
    · split
      · rfl
      · split <;> rfl
    split
    · split
      · rfl
      · split <;> rfl
    · rfl

theorem Accounted.draws {g : Stage} (hs : v.Makes t isResult g s) {x : Local} {f : String}
    (hx : (x, f) ∈ s.sources) : v.Draws x f := by
  have howned (hg : v.onGpu = false) (hk : v.kind.isArray = true ∨ v.kind = .string) :
      v.owned = if v.direction = .output then [.output v.outLabel]
        else if v.kind.isArray && v.arraySource == .inPlace then [] else [.input v.inLabel] := by
    rw [owned, if_neg (by rcases hk with e | e <;> simp [hg, e])]
  -- On the GPU there is a handle to destroy, elsewhere perhaps a buffer to free, never both.
  have hgpu (hg : v.onGpu = true) : v.owned = [] := by simp [owned, hg]
  have hcpu (hg : v.onGpu = false) : v.handles = [] := by simp [handles, hg]
  cases hs with
  | getObject hd hk =>
    obtain ⟨rfl, rfl⟩ := Prod.mk.inj (List.mem_singleton.1 hx)
    exact h.draws_input hd (by simp [hk]) (by simp [hk, Kind.isArray]) (by simp [hk])
      (ordinary_getter _ _)
  | getNumber hd hk =>
    obtain ⟨rfl, rfl⟩ := Prod.mk.inj (List.mem_singleton.1 hx)
    exact h.draws_input hd (by simp [hk]) (by simp [hk, Kind.isArray]) (by simp [hk])
      (ordinary_scalarGetter _)
  | getString hd hk hdims =>
    obtain ⟨rfl, rfl⟩ := Prod.mk.inj (List.mem_singleton.1 hx)
    have hg : v.onGpu = false := by simpa [hk, Kind.isArray] using h.onGpu
    exact .owned (by simp [howned hg (Or.inr hk), hd, hk, Kind.isArray]) (by decide)
  | getSizedString hd hk hdims =>
    obtain ⟨rfl, rfl⟩ := Prod.mk.inj (List.mem_singleton.1 hx)
    have hg : v.onGpu = false := by simpa [hk, Kind.isArray] using h.onGpu
    exact .owned (by simp [howned hg (Or.inr hk), hd, hk, Kind.isArray]) (by decide)
  | getGpuArray hd hk hg =>
    have hinput : .input v.inLabel ∈ v.buffers := by simp [buffers, inputLocals, hd, hk]
    have hhandles : v.handles = [.gpuInput v.inLabel] := by simp [handles, hg, hd]
    simp [Stmt.sources] at hx
    rcases hx with ⟨rfl, rfl⟩ | ⟨rfl, rfl⟩
    · exact .handle (by simp [hhandles]) (by decide)
    · exact .other hinput (by simp [hgpu hg]) (by simp [hhandles]) (by decide) (by decide)
  | getArray hd hk hg =>
    have hinput : .input v.inLabel ∈ v.buffers := by simp [buffers, inputLocals, hd, hk]
    have howned := howned hg (Or.inl (by simp [hk, Kind.isArray]))
    obtain ⟨f', hf, e⟩ := List.mem_map.1 hx
    cases e
    cases hsource : v.arraySource with
    | inPlace =>
      rw [hsource] at hf
      obtain ⟨ha, hc⟩ := of_mem_accessors f (mem_accessors (direct_of_arraySource hsource) hf)
      exact .other hinput (by simp [howned, hd, hk, hsource, Kind.isArray]) (by simp [hcpu hg]) ha hc
    | _ =>
      obtain rfl : f = "mxWrapGetArray_" ++ Numeric.copierMark v.type ++ v.type := by
        simpa [hsource, ArraySource.getters] using hf
      exact .owned (by simp [howned, hd, hsource]) (allocates_copier _)
  | allocGpuArray hd hg hm hn =>
    have hmx : v.kind ≠ .mx := by
      intro e
      simpa [e, Kind.isArray] using h.onGpu hg
    have houtput : .output v.outLabel ∈ v.buffers := by simp [buffers, outputLocals, hd, hmx]
    have hhandles : v.handles = [.gpuOutput v.outLabel] := by simp [handles, hg, hd]
    simp [Stmt.sources] at hx
    rcases hx with ⟨rfl, rfl⟩ | ⟨rfl, rfl⟩
    · exact .handle (by simp [hhandles]) (by decide)
    · exact .other houtput (by simp [hgpu hg]) (by simp [hhandles]) (by decide) (by decide)
  | allocObject hd hg hk hr =>
    obtain ⟨rfl, rfl⟩ := Prod.mk.inj (List.mem_singleton.1 hx)
    have hf := ordinary_alloc v.type
    exact .other (by simp [buffers, outputLocals, hd, hk]) (by simp [owned, hk, Kind.isArray])
      (by simp [hcpu hg]) hf.allocates hf.creates
  | allocArray hd hg hk =>
    obtain ⟨rfl, rfl⟩ := Prod.mk.inj (List.mem_singleton.1 hx)
    exact .owned (by simp [howned hg (Or.inl (by simp [hk, Kind.isArray])), hd]) (by decide)
  | allocString hd hg hk =>
    obtain ⟨rfl, rfl⟩ := Prod.mk.inj (List.mem_singleton.1 hx)
    exact .owned (by simp [howned hg (Or.inr hk), hd]) (by decide)
  | _ => cases hx

omit h in
/-- What is owned has been allocated. -/
theorem allocated (ha : v.alloc t' isResult = .ok ss) {x : Local} (hx : x ∈ v.owned) :
    ∃ f, allocates f = true ∧ ∃ s ∈ v.getInput t ++ ss, (x, f) ∈ s.sources := by
  unfold owned at hx
  split at hx
  · simp at hx
  rename_i hkind
  simp only [Bool.or_eq_true, Bool.not_eq_true', not_or, Bool.not_eq_true,
    Bool.not_eq_false] at hkind
  obtain ⟨hg, hkind⟩ := hkind
  have hkind : v.kind.isArray = true ∨ v.kind = .string := by simpa using hkind
  -- An output is allocated before the call, an input by what reads it.
  split at hx
  · rename_i hd
    obtain rfl := List.mem_singleton.1 hx
    refine ⟨"mxMalloc", by decide, ?_⟩
    unfold alloc at ha
    rw [if_neg (by simp [hd]), if_neg (by simp [hg])] at ha
    cases hk : v.kind with
    | array | string =>
      simp only [hk] at ha
      obtain ⟨ds, -, hss⟩ := bind_eq_ok.1 ha
      cases hss
      exact ⟨_, List.mem_append_right _ (List.mem_singleton_self _), by simp [Stmt.sources]⟩
    | _ => simp [hk, Kind.isArray] at hkind
  rename_i hd
  split at hx
  · simp at hx
  rename_i hsource
  obtain rfl := List.mem_singleton.1 hx
  cases hk : v.kind with
  | array g =>
    have hget : v.getInput t = [.getArray v.inLabel v.type v.arraySource] := by
      simp [getInput, hd, hk, hg]
    refine ⟨_, allocates_copier v.type, _,
      List.mem_append_left _ (hget ▸ List.mem_singleton_self _), ?_⟩
    cases hs : v.arraySource with
    | inPlace => simp [hk, hs, Kind.isArray] at hsource
    | _ => simp [Stmt.sources, ArraySource.getters]
  | string =>
    cases hdims : v.dims.isEmpty with
    | true =>
      have hget : v.getInput t = [.getString v.inLabel] := by simp [getInput, hd, hk, hdims]
      exact ⟨"mxWrapGetString", by decide, _,
        List.mem_append_left _ (hget ▸ List.mem_singleton_self _), by simp [Stmt.sources]⟩
    | false =>
      have hget : v.getInput t = [.getSizedString v.inLabel (v.dims.map (·.label))] := by
        simp only [getInput, hd, hk, hdims, if_false, Bool.false_eq_true]
      exact ⟨"mxMalloc", by decide, _, List.mem_append_left _ (hget ▸ List.mem_singleton_self _),
        by simp [Stmt.sources]⟩
  | _ => simp [hk, Kind.isArray] at hkind

theorem Accounted.created (ha : v.alloc t' isResult = .ok ss) {x : Local} (hx : x ∈ v.handles) :
    ∃ f ∈ creators, ∃ s ∈ v.getInput t ++ ss, (x, f) ∈ s.sources := by
  unfold handles at hx
  split at hx
  swap
  · simp at hx
  rename_i hg
  split at hx
  · rename_i hd
    obtain rfl := List.mem_singleton.1 hx
    refine ⟨"mxGPUCreateGPUArray", by decide, ?_⟩
    unfold alloc at ha
    rw [if_neg (by simp [hd]), if_pos hg] at ha
    obtain ⟨ds, -, ha⟩ := bind_eq_ok.1 ha
    split at ha <;> cases ha <;>
      exact ⟨_, List.mem_append_right _ (List.mem_singleton_self _), by simp [Stmt.sources]⟩
  · rename_i hd
    obtain rfl := List.mem_singleton.1 hx
    have hin : v.direction.isInput = true := by
      rcases h.direction with e | e | e <;> simp_all [Direction.isInput]
    cases hk : v.kind with
    | array g =>
      have hget : v.getInput t = [.getGpuArray v.inLabel v.type] := by
        simp [getInput, hd, hk, hg, hin]
      exact ⟨"mxGPUCreateFromMxArray", by decide, _,
        List.mem_append_left _ (hget ▸ List.mem_singleton_self _), by simp [Stmt.sources]⟩
    | _ => simpa [hk, Kind.isArray] using h.onGpu hg

end

/-! ### Zero from the start -/

theorem zeroed_declareInput (h : v.declareInput = .ok ss) (hd : v.direction ≠ .output)
    (hk : v.kind.isPointerLocal = true) :
    (∃ s ∈ ss, .input v.inLabel ∈ s.code.zeroed) ∧
      (v.onGpu = true → ∃ s ∈ ss, .gpuInput v.inLabel ∈ s.code.zeroed) := by
  have hconst : v.kind ≠ .const := by
    intro e
    simp [e, Kind.isPointerLocal, Kind.isArray, Kind.isObject] at hk
  unfold declareInput at h
  rw [if_neg (by simp [hd, hconst])] at h
  obtain ⟨type, -, h⟩ := bind_eq_ok.1 h
  have hin (remark : String) := Stmt.zeroed_declare type remark (l := .input v.inLabel) (by simp)
  split at h <;> cases h
  · refine ⟨⟨_, List.mem_cons_self, ?_⟩,
      fun _ => ⟨_, List.mem_cons_of_mem _ List.mem_cons_self, ?_⟩⟩
    · rw [hk]
      exact hin _
    · exact Stmt.zeroed_declare _ _ (by simp)
  · refine ⟨⟨_, List.mem_cons_self, ?_⟩, fun hg => ?_⟩
    · rw [hk]
      exact hin _
    · simp_all

theorem zeroed_declareOutput (h : v.declareOutput = .ok ss) (hd : v.direction = .output)
    (hk : v.kind.isPointerLocal = true) :
    (∃ s ∈ ss, .output v.outLabel ∈ s.code.zeroed) ∧
      (v.onGpu = true → ∃ s ∈ ss, .gpuOutput v.outLabel ∈ s.code.zeroed) := by
  have hmx : v.kind ≠ .mx := by
    intro e
    simp [e, Kind.isPointerLocal, Kind.isArray, Kind.isObject] at hk
  unfold declareOutput at h
  rw [if_neg (by simp [hd, hmx])] at h
  obtain ⟨type, -, h⟩ := bind_eq_ok.1 h
  have hout (remark : String) := Stmt.zeroed_declare type remark (l := .output v.outLabel) (by simp)
  split at h <;> cases h
  · refine ⟨⟨_, List.mem_cons_self, ?_⟩,
      fun _ => ⟨_, List.mem_cons_of_mem _ List.mem_cons_self, ?_⟩⟩
    · rw [hk]
      exact hout _
    · exact Stmt.zeroed_declare _ _ (by simp)
  · refine ⟨⟨_, List.mem_cons_self, ?_⟩, fun hg => ?_⟩
    · rw [hk]
      exact hout _
    · simp_all

/-- What is released starts as zero. -/
theorem Accounted.zeroed_release (h : v.Accounted) (hs : s ∈ v.release t isResult)
    {ins outs : List Stmt} (hin : v.declareInput = .ok ins) (hout : v.declareOutput = .ok outs) :
    ∀ x ∈ s.locals, ∃ u ∈ ins ++ outs, x ∈ u.code.zeroed := by
  have hpointer : v.kind.isArray = true ∨ v.kind = .string ∨ v.kind.isObject = true →
      v.kind.isPointerLocal = true := by
    rintro (e | e | e) <;> simp [Kind.isPointerLocal, e]
  have inputs (hd : v.direction ≠ .output) (hk : v.kind.isPointerLocal = true) :
      ∃ u ∈ ins ++ outs, .input v.inLabel ∈ u.code.zeroed := by
    obtain ⟨u, hu, hx⟩ := (zeroed_declareInput hin hd hk).1
    exact ⟨u, List.mem_append_left _ hu, hx⟩
  have outputs (hd : v.direction = .output) (hk : v.kind.isPointerLocal = true) :
      ∃ u ∈ ins ++ outs, .output v.outLabel ∈ u.code.zeroed := by
    obtain ⟨u, hu, hx⟩ := (zeroed_declareOutput hout hd hk).1
    exact ⟨u, List.mem_append_right _ hu, hx⟩
  intro x hx
  cases makes_release hs with
  | destroyInput hd hg =>
    obtain rfl := List.mem_singleton.1 hx
    obtain ⟨u, hu, hx⟩ := (zeroed_declareInput hin hd (hpointer (Or.inl (h.onGpu hg)))).2 hg
    exact ⟨u, List.mem_append_left _ hu, hx⟩
  | destroyOutput hd hg =>
    obtain rfl := List.mem_singleton.1 hx
    obtain ⟨u, hu, hx⟩ := (zeroed_declareOutput hout hd (hpointer (Or.inl (h.onGpu hg)))).2 hg
    exact ⟨u, List.mem_append_right _ hu, hx⟩
  | freeInput hd hk => exact List.mem_singleton.1 hx ▸ inputs hd (hpointer (by tauto))
  | freeOutput hd hk => exact List.mem_singleton.1 hx ▸ outputs hd (hpointer (by tauto))
  | freeConvertedInput hd hk => exact List.mem_singleton.1 hx ▸ inputs hd (hpointer (by tauto))
  | freeConvertedOutput hd hk => exact List.mem_singleton.1 hx ▸ outputs hd (hpointer (by tauto))

theorem owned_sublist : v.owned.Sublist v.buffers := by
  unfold owned
  split
  · simp
  rename_i hk
  simp only [Bool.or_eq_true, Bool.not_eq_true', not_or, Bool.not_eq_false] at hk
  have hmx : v.kind ≠ .mx := by
    intro e
    simp [e, Kind.isArray] at hk
  have hconst : v.kind ≠ .const := by
    intro e
    simp [e, Kind.isArray] at hk
  split
  · rename_i hd
    simp [buffers, inputLocals, outputLocals, hd, hmx]
  rename_i hd
  split
  · simp
  · simp [buffers, inputLocals, outputLocals, hd, hconst]

theorem Accounted.handles_sublist (h : v.Accounted) : v.handles.Sublist v.buffers := by
  unfold handles
  split
  swap
  · simp
  rename_i hg
  have hk := h.onGpu hg
  have hpointer : v.hasHandles = true := by simp [hasHandles, Kind.isPointerLocal, hk, hg]
  obtain ⟨hconst, hmx⟩ := Kind.ne_of_isArray hk
  split
  · rename_i hd
    simp [buffers, inputLocals, outputLocals, hd, hmx, hpointer]
  · rename_i hd
    simp [buffers, inputLocals, outputLocals, hd, hconst, hpointer]

/-- A result kept in a local is not allocated. -/
theorem Makes.sources_kept {g : Stage} (hs : v.Makes t true g s) (hcpu : v.onGpu = false)
    (hout : v.direction = .output) (hnull : v.kind.isNullable = false) : s.sources = [] := by
  cases hs <;> simp_all [Kind.isNullable, Stmt.sources]

/-- Nor is it released. -/
theorem release_kept (hcpu : v.onGpu = false) (hout : v.direction = .output)
    (hnull : v.kind.isNullable = false) : v.release t true = [] := by
  unfold release
  rw [if_neg (by simp [hcpu])]
  cases hk : v.kind with
  | array g => simp [hk, Kind.isNullable] at hnull
  | string => simp [hk, Kind.isNullable] at hnull
  | _ => simp [Kind.isArray, Kind.isObject, hout, Direction.isInput]

/-! ### Texts that can be read -/

theorem Makes.typeName {g : Stage} (hs : v.Makes t isResult g s) :
    s.typeName = v.type ∨ s.typeName = "" := by
  cases hs <;> simp [Stmt.typeName]

theorem Makes.isWord_typeName {g : Stage} (hs : v.Makes t isResult g s) (h : IsWord v.type) :
    IsWord s.typeName := by
  rcases hs.typeName with e | e <;> rw [e]
  · exact h
  · decide

theorem Makes.readable {g : Stage} (hs : v.Makes t isResult g s) (h : IsWord v.type) :
    s.Readable := by
  refine ⟨hs.isWord_typeName h, ?_⟩
  intro k type e
  cases hs with
  | getArray hd hk hg =>
    obtain ⟨-, rfl, hsource⟩ := Stmt.getArray.inj e
    exact direct_of_arraySource hsource
  | _ => cases e

end Variable

end MexBridge
