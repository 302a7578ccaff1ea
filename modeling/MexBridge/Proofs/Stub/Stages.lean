import MexBridge.Proofs.Routine.Checking
import MexBridge.Stub.Plan

/-!
# The stages of a stub

Every statement belongs to one stage, and each part of a plan makes statements of its own stage
only. A part that can fail is opened once, by `collect_eq_ok` and `mainStatements_eq_ok`; after
that it is a walk over the variables like the others.

`Variable.Makes` and `Routine.Makes` say what statements there can be and what each of them tells
about its variable, so what holds of every statement of a stub is proved case by case
(`Routine.makes_mainStatements`). `Variable.Disposes` says the same of the value of the call.
-/

namespace MexBridge

inductive Stage where
  | declare
  | readDim
  | checkDim
  | read
  | check
  | alloc
  | record
  | call
  | write
  | release
deriving DecidableEq, Repr

/-- The stage a statement belongs to; blank lines belong to none. -/
def Stmt.stage : Stmt → Option Stage
  | .blank => none
  | .declare .. => some .declare
  | .getDim _ => some .readDim
  | .checkMatrix .. => some .checkDim
  | .checkLength .. => some .checkDim
  | .getObject .. => some .read
  | .getArray .. => some .read
  | .getGpuArray .. => some .read
  | .getString _ => some .read
  | .getSizedString .. => some .read
  | .getNumber .. => some .read
  | .getComplex .. => some .read
  | .getMx _ => some .read
  | .checkNonNull .. => some .check
  | .allocObject .. => some .alloc
  | .allocArray .. => some .alloc
  | .nullArray .. => some .alloc
  | .allocString .. => some .alloc
  | .allocGpuArray .. => some .alloc
  | .recordCall _ => some .record
  | .checkReceiver => some .call
  | .beginTry => some .call
  | .call .. => some .call
  | .endTry _ => some .call
  | .setConverted .. => some .write
  | .setPointer .. => some .write
  | .setArray .. => some .write
  | .setNumber .. => some .write
  | .setComplex .. => some .write
  | .setString .. => some .write
  | .setSame .. => some .write
  | .setGpuArray _ => some .write
  | .free _ => some .release
  | .freeConverted .. => some .release
  | .destroyGpu _ => some .release

/-- The statements made, none if making them failed. -/
def made : Except Fault (List Stmt) → List Stmt
  | .ok ss => ss
  | .error _ => []

@[simp] theorem made_ok (ss : List Stmt) : made (.ok ss) = ss := rfl

@[simp] theorem made_error (e : Fault) : made (.error e) = [] := rfl

namespace Routine

theorem mapM_eq_ok {f : Variable → Except Fault (List Stmt)} {vs : List Variable}
    {sss : List (List Stmt)} (h : vs.mapM f = .ok sss) :
    sss = vs.map (fun v => made (f v)) ∧ ∀ v ∈ vs, f v = .ok (made (f v)) := by
  induction vs generalizing sss with
  | nil => cases h; simp
  | cons v vs ih =>
    rw [List.mapM_cons] at h
    obtain ⟨ss, h1, h⟩ := bind_eq_ok.1 h
    obtain ⟨sss', h2, h⟩ := bind_eq_ok.1 h
    cases h
    obtain ⟨rfl, hall⟩ := ih h2
    refine ⟨by simp [h1], ?_⟩
    intro w hw
    rcases List.mem_cons.1 hw with rfl | hw
    · rw [h1]; rfl
    · exact hall w hw

/-- A part that succeeds succeeds on every variable, and is the walk over them. -/
theorem collect_eq_ok {f : Variable → Except Fault (List Stmt)} {vs : List Variable}
    {ss : List Stmt} (h : collect f vs = .ok ss) :
    ss = vs.flatMap (fun v => made (f v)) ∧ ∀ v ∈ vs, f v = .ok (made (f v)) := by
  obtain ⟨sss, h1, h2⟩ := bind_eq_ok.1 h
  obtain ⟨rfl, hall⟩ := mapM_eq_ok h1
  cases h2
  exact ⟨List.flatMap_def.symm, hall⟩

/-- The parts of a stub that can fail have all succeeded, and give these statements. -/
structure Parts (c : Context) (r : Routine) (ss : List Stmt) : Prop where
  decls : ∃ ds, r.declarations = .ok ds
  allocs : ∃ as, r.allocations c.types = .ok as
  calls : ∃ cs, r.callStatements c = .ok cs
  writes : ∃ ws, r.resultWrites c.types = .ok ws
  eq : ss = made r.declarations ++ r.dimReads ++ r.dimChecks ++ r.inputReads c.types
    ++ r.inputChecks ++ made (r.allocations c.types) ++ [.recordCall r.id] ++ made (r.callStatements c)
    ++ made (r.resultWrites c.types)

theorem mainStatements_eq_ok {c : Context} {r : Routine} {ss : List Stmt}
    (h : r.mainStatements c = .ok ss) : r.Parts c ss := by
  obtain ⟨ds, h1, h⟩ := bind_eq_ok.1 h
  obtain ⟨as, h2, h⟩ := bind_eq_ok.1 h
  obtain ⟨cs, h3, h⟩ := bind_eq_ok.1 h
  obtain ⟨ws, h4, h⟩ := bind_eq_ok.1 h
  cases h
  exact ⟨⟨ds, h1⟩, ⟨as, h2⟩, ⟨cs, h3⟩, ⟨ws, h4⟩, by simp [h1, h2, h3, h4]⟩

end Routine

/-! ## What is made of a variable -/

namespace Variable

/-- Only an array of `double` or `float` is used in place. -/
theorem direct_of_arraySource {v : Variable} (h : v.arraySource = .inPlace) :
    (Numeric.ofType v.type).direct = true := by
  unfold arraySource at h
  split at h
  · cases h
  split at h
  · rename_i hdirect
    exact (Bool.and_eq_true_iff.1 hdirect).1
  · cases h

section

variable (t : TypeTable) (isResult : Bool) (v : Variable)

/-- The statements that can be made of a variable, by stage, and what is known where one is. -/
inductive Makes : Stage → Stmt → Prop
  | input {type : String} (hd : v.direction ≠ .output) (hk : v.kind ≠ .const)
      (htype : v.localType = .ok type) :
    Makes .declare (.declare type (.input v.inLabel) v.kind.isPointerLocal v.name)
  | gpuInput (hd : v.direction ≠ .output) (hk : v.kind ≠ .const)
      (hg : (v.kind.isPointerLocal && v.onGpu) = true) :
    Makes .declare (.declare "mxGPUArray const" (.gpuInput v.inLabel) true v.name)
  | output {type : String} (hd : v.direction = .output) (hk : v.kind ≠ .mx)
      (htype : v.localType = .ok type) :
    Makes .declare (.declare type (.output v.outLabel) v.kind.isPointerLocal v.name)
  | gpuOutput (hd : v.direction = .output) (hk : v.kind ≠ .mx)
      (hg : (v.kind.isPointerLocal && v.onGpu) = true) :
    Makes .declare (.declare "mxGPUArray" (.gpuOutput v.outLabel) true v.name)
  | gpuDims (hd : v.direction = .output) (hk : v.kind ≠ .mx)
      (hg : (v.kind.isPointerLocal && v.onGpu) = true) :
    Makes .declare (.declare "mwSize" (.gpuDims v.outLabel) true v.name)
  | checkLength {n : Dim} (hd : v.direction ≠ .output) (hk : v.kind.isArray = true)
      (hn : n ∈ v.dims) : Makes .checkDim (.checkLength v.inLabel n.label v.name)
  | checkMatrix {m n : Dim} (hd : v.direction ≠ .output) (hk : v.kind.isArray = true)
      (hm : m ∈ v.dims) (hn : n ∈ v.dims) :
    Makes .checkDim (.checkMatrix v.inLabel m.label n.label v.name)
  | getObject {m : Mode} (hd : v.direction ≠ .output) (hk : v.kind = .object m) :
    Makes .read (.getObject v.inLabel v.type (getInput.objectSource t v.type))
  | getGpuArray {f : Field} (hd : v.direction ≠ .output) (hk : v.kind = .array f)
      (hg : v.onGpu = true) : Makes .read (.getGpuArray v.inLabel v.type)
  | getArray {f : Field} (hd : v.direction ≠ .output) (hk : v.kind = .array f)
      (hg : v.onGpu = false) : Makes .read (.getArray v.inLabel v.type v.arraySource)
  | getNumber {m : Mode} (hd : v.direction ≠ .output) (hk : v.kind = .number .real m) :
    Makes .read (.getNumber v.inLabel v.type)
  | getComplex {f : Field} {m : Mode} (hd : v.direction ≠ .output) (hk : v.kind = .number f m)
      (hf : f ≠ .real) : Makes .read (.getComplex v.inLabel v.type)
  | getString (hd : v.direction ≠ .output) (hk : v.kind = .string) (hdims : v.dims = []) :
    Makes .read (.getString v.inLabel)
  | getSizedString (hd : v.direction ≠ .output) (hk : v.kind = .string) (hdims : v.dims ≠ []) :
    Makes .read (.getSizedString v.inLabel (v.dims.map (·.label)))
  | getMx (hd : v.direction ≠ .output) (hk : v.kind = .mx) : Makes .read (.getMx v.inLabel)
  | checkNonNull (hd : v.direction ≠ .output) (hk : v.kind.isObject = true) :
    Makes .check (.checkNonNull v.inLabel v.name)
  | allocGpuArray {m : Int} {n : Option Int} (hd : v.direction = .output) (hg : v.onGpu = true)
      (hm : m ∈ v.dims.map (·.label)) (hn : ∀ k ∈ n, k ∈ v.dims.map (·.label)) :
    Makes .alloc (.allocGpuArray v.outLabel v.type v.kind.isComplex m n)
  | allocObject {m : Mode} (hd : v.direction = .output) (hg : v.onGpu = false)
      (hk : v.kind = .object m) (hr : isResult = false) :
    Makes .alloc (.allocObject v.outLabel v.type)
  | allocArray {f : Field} (hd : v.direction = .output) (hg : v.onGpu = false)
      (hk : v.kind = .array f) :
    Makes .alloc (.allocArray v.outLabel v.type (v.dims.map (·.label)))
  | nullArray (hd : v.direction = .output) (hk : v.kind = .arrayRef) :
    Makes .alloc (.nullArray v.outLabel v.type)
  | allocString (hd : v.direction = .output) (hg : v.onGpu = false) (hk : v.kind = .string) :
    Makes .alloc (.allocString v.outLabel (v.dims.map (·.label)))
  | setConverted {m : Mode} (hd : v.direction ≠ .input) (hk : v.kind = .object m) :
    Makes .write (.setConverted v.outLabel v.type v.holder)
  | setPointer {m : Mode} (hd : v.direction ≠ .input) (hk : v.kind = .object m)
      (hmx : t.isMxArray v.type = false) : Makes .write (.setPointer v.outLabel v.type)
  | setSame (hd : v.direction = .inout) : Makes .write (.setSame v.outLabel v.inLabel)
  | setGpuArray (hd : v.direction = .output) (hg : v.onGpu = true) :
    Makes .write (.setGpuArray v.outLabel)
  | setArray {byRef : Bool} (hd : v.direction ≠ .input)
      (hk : if byRef then v.kind = .arrayRef else v.kind.isArray = true) :
    Makes .write (.setArray v.outLabel v.inLabel v.type v.kind.isComplex byRef
      (if v.dims = [] then .input v.inLabel else v.holder) (.ofDims (v.dims.map (·.label))))
  | setNumber {m : Mode} (hd : v.direction ≠ .input) (hk : v.kind = .number .real m) :
    Makes .write (.setNumber v.outLabel v.holder)
  | setComplex {f : Field} {m : Mode} (hd : v.direction ≠ .input) (hk : v.kind = .number f m)
      (hf : f ≠ .real) : Makes .write (.setComplex v.outLabel v.type v.holder)
  | setString (hd : v.direction ≠ .input) (hk : v.kind = .string) :
    Makes .write (.setString v.outLabel v.holder)
  | destroyInput (hd : v.direction ≠ .output) (hg : v.onGpu = true) :
    Makes .release (.destroyGpu (.gpuInput v.inLabel))
  | destroyOutput (hd : v.direction = .output) (hg : v.onGpu = true) :
    Makes .release (.destroyGpu (.gpuOutput v.outLabel))
  | freeInput (hd : v.direction ≠ .output) (hk : v.kind.isArray = true ∨ v.kind = .string) :
    Makes .release (.free (.input v.inLabel))
  | freeOutput (hd : v.direction = .output) (hk : v.kind.isArray = true ∨ v.kind = .string) :
    Makes .release (.free (.output v.outLabel))
  | freeConvertedInput (hd : v.direction ≠ .output) (hk : v.kind.isObject = true) :
    Makes .release (.freeConverted v.type (.input v.inLabel))
  | freeConvertedOutput (hd : v.direction = .output) (hk : v.kind.isObject = true) :
    Makes .release (.freeConverted v.type (.output v.outLabel))

end

variable {t : TypeTable} {v : Variable} {s : Stmt} {isResult : Bool}

theorem Makes.stage {g : Stage} (h : v.Makes t isResult g s) : s.stage = some g := by
  cases h <;> rfl

theorem dims_of_dimLabels {ds : List Int} (h : v.dimLabels = .ok ds) :
    ds = v.dims.map (·.label) := by
  unfold Variable.dimLabels at h
  unfold Variable.dims
  split at h <;> cases h
  simp [*]

theorem of_mem_bind {α : Type} {x : Except Fault α} {f : α → Except Fault (List Stmt)}
    (h : s ∈ made (x >>= f)) : ∃ a, x = .ok a ∧ s ∈ made (f a) := by
  cases x with
  | error e => cases h
  | ok a => exact ⟨a, rfl, h⟩

theorem makes_declareInput (h : s ∈ made v.declareInput) : v.Makes t isResult .declare s := by
  unfold declareInput at h
  split at h
  · cases h
  · obtain ⟨hd, hk⟩ := not_or.1 ‹_›
    obtain ⟨type, htype, h⟩ := of_mem_bind h
    split at h
    · rcases List.mem_cons.1 h with rfl | h
      · exact .input hd hk htype
      · exact List.mem_singleton.1 h ▸ .gpuInput hd hk ‹_›
    · exact List.mem_singleton.1 h ▸ .input hd hk htype

theorem makes_declareOutput (h : s ∈ made v.declareOutput) : v.Makes t isResult .declare s := by
  unfold declareOutput at h
  split at h
  · cases h
  · obtain ⟨hd, hk⟩ : v.direction = .output ∧ v.kind ≠ .mx := by simp_all
    obtain ⟨type, htype, h⟩ := of_mem_bind h
    split at h
    · rcases List.mem_cons.1 h with rfl | h
      · exact .output hd hk htype
      rcases List.mem_cons.1 h with rfl | h
      · exact .gpuOutput hd hk ‹_›
      · exact List.mem_singleton.1 h ▸ .gpuDims hd hk ‹_›
    · exact List.mem_singleton.1 h ▸ .output hd hk htype

theorem makes_checkDims (h : s ∈ v.checkDims) : v.Makes t isResult .checkDim s := by
  unfold checkDims at h
  split at h
  · rename_i hguard
    obtain ⟨⟨hd, hk⟩, -⟩ := by simpa using hguard
    split at h
    · cases h
    · exact List.mem_singleton.1 h ▸ .checkLength hd hk (by simp [*])
    · exact List.mem_singleton.1 h ▸ .checkMatrix hd hk (by simp [*]) (by simp [*])
  · cases h

theorem makes_getInput (h : s ∈ v.getInput t) : v.Makes t isResult .read s := by
  unfold getInput at h
  split at h
  · cases h
  · rename_i hd
    split at h
    · exact List.mem_singleton.1 h ▸ .getObject hd ‹_›
    · split at h
      · split at h
        · exact List.mem_singleton.1 h ▸ .getGpuArray hd ‹_› ‹_›
        · cases h
      · exact List.mem_singleton.1 h ▸ .getArray hd ‹_› (by simp_all)
    · exact List.mem_singleton.1 h ▸ .getNumber hd ‹_›
    · exact List.mem_singleton.1 h ▸ .getComplex hd ‹_› ‹_›
    · split at h
      · exact List.mem_singleton.1 h ▸ .getString hd ‹_› (by simp_all)
      · exact List.mem_singleton.1 h ▸ .getSizedString hd ‹_› (by simp_all)
    · exact List.mem_singleton.1 h ▸ .getMx hd ‹_›
    · cases h

theorem makes_checkInput (h : s ∈ v.checkInput) : v.Makes t isResult .check s := by
  unfold checkInput at h
  split at h
  · cases h
  · split at h
    · exact List.mem_singleton.1 h ▸ .checkNonNull ‹_› (by simp [*, Kind.isObject])
    · exact List.mem_singleton.1 h ▸ .checkNonNull ‹_› (by simp [*, Kind.isObject])
    · cases h

theorem makes_alloc (h : s ∈ made (v.alloc t isResult)) : v.Makes t isResult .alloc s := by
  unfold alloc at h
  split at h
  · cases h
  · have hd : v.direction = .output := by simp_all
    split at h
    · obtain ⟨ds, hds, h⟩ := of_mem_bind h
      have hlabels := dims_of_dimLabels hds
      split at h
      · cases h
      · exact List.mem_singleton.1 h ▸
          .allocGpuArray hd ‹_› (by simp [← hlabels]) (by simp [← hlabels])
      · exact List.mem_singleton.1 h ▸ .allocGpuArray hd ‹_› (by simp [← hlabels]) (by simp)
    · have hg : v.onGpu = false := by simp_all
      split at h
      · split at h
        · exact List.mem_singleton.1 h ▸ .allocObject hd hg ‹_› (by simp_all)
        · cases h
      · obtain ⟨ds, hds, h⟩ := of_mem_bind h
        obtain rfl := dims_of_dimLabels hds
        exact List.mem_singleton.1 h ▸ .allocArray hd hg ‹_›
      · exact List.mem_singleton.1 h ▸ .nullArray hd ‹_›
      · obtain ⟨ds, hds, h⟩ := of_mem_bind h
        obtain rfl := dims_of_dimLabels hds
        exact List.mem_singleton.1 h ▸ .allocString hd hg ‹_›
      · cases h

theorem makes_setResult (h : s ∈ made (v.setResult t isResult)) : v.Makes t isResult .write s := by
  have harray (byRef : Bool) (hd : v.direction ≠ .input)
      (hk : if byRef then v.kind = .arrayRef else v.kind.isArray = true)
      (h : s ∈ made (if v.onGpu then .ok v.setGpu else v.setArray byRef)) :
      v.Makes t isResult .write s := by
    split at h
    · rw [made_ok, setGpu] at h
      split at h
      · exact List.mem_singleton.1 h ▸ .setSame ‹_›
      · exact List.mem_singleton.1 h ▸ .setGpuArray ‹_› ‹_›
      · cases h
    · obtain ⟨ds, hds, h⟩ := of_mem_bind h
      obtain rfl := dims_of_dimLabels hds
      rw [List.mem_singleton.1 h]
      simp only [List.isEmpty_iff, List.map_eq_nil_iff]
      exact .setArray hd hk
  unfold setResult at h
  split at h
  · cases h
  · rename_i hd
    split at h
    · split at h
      · split at h
        · cases h
        · exact List.mem_singleton.1 h ▸ .setConverted hd ‹_›
      · exact List.mem_singleton.1 h ▸ .setPointer hd ‹_› (by simp_all)
    · exact harray false hd (by simp [*, Kind.isArray]) h
    · exact harray true hd ‹_› h
    · exact List.mem_singleton.1 h ▸ .setNumber hd ‹_›
    · exact List.mem_singleton.1 h ▸ .setComplex hd ‹_› ‹_›
    · exact List.mem_singleton.1 h ▸ .setString hd ‹_›
    · cases h

theorem makes_release (h : s ∈ v.release t isResult) : v.Makes t isResult .release s := by
  unfold release at h
  split at h
  · split at h
    · exact List.mem_singleton.1 h ▸ .destroyInput (by simp [*]) ‹_›
    · exact List.mem_singleton.1 h ▸ .destroyInput (by simp [*]) ‹_›
    · exact List.mem_singleton.1 h ▸ .destroyOutput ‹_› ‹_›
    · cases h
  split at h
  · have hk : v.kind.isArray = true ∨ v.kind = .string := by simp_all
    split at h
    · exact List.mem_singleton.1 h ▸ .freeOutput ‹_› hk
    split at h
    · cases h
    · exact List.mem_singleton.1 h ▸ .freeInput ‹_› hk
  split at h
  · have hk : v.kind.isObject = true := by simp_all
    split at h
    · refine List.mem_singleton.1 h ▸ .freeConvertedInput (fun e => ?_) hk
      simp_all [Direction.isInput]
    split at h
    · exact List.mem_singleton.1 h ▸ .freeConvertedOutput (by simp_all) hk
    · cases h
  · cases h

/-- What can become of the value of a call, with what it tells about the result. -/
inductive Disposes (t : TypeTable) (v : Variable) : Option Disposal → Prop
  | convertedAddress {m : Mode} (hk : v.kind = .object m) (hm : m ≠ .pointer)
      (hmx : t.isMxArray v.type = true) : Disposes t v (some (.convertedAddress v.type))
  | converted (hk : v.kind = .object .pointer) (hmx : t.isMxArray v.type = true) :
    Disposes t v (some (.converted v.type))
  | keptCopy (hk : v.kind = .object .value) (hmx : t.isMxArray v.type = false) :
    Disposes t v (some (.keptCopy v.type))
  | keptPointer (hk : v.kind = .object .pointer) (hmx : t.isMxArray v.type = false) :
    Disposes t v (some .kept)
  | keptAddress (hk : v.kind = .object .reference) (hmx : t.isMxArray v.type = false) :
    Disposes t v (some .keptAddress)
  | copiedArray {f : Field} (hk : v.kind = .array f) :
    Disposes t v (some (.copiedArray v.type (v.dims.map (·.label))))
  | copiedNumber {f : Field} (hk : v.kind = .number f .pointer) :
    Disposes t v (some (.copiedNumber v.type))
  | keptNumber {f : Field} {m : Mode} (hk : v.kind = .number f m) (hm : m ≠ .pointer) :
    Disposes t v (some .kept)
  | copiedString (hk : v.kind = .string) : Disposes t v (some .copiedString)
  | returned (hk : v.kind = .mx) : Disposes t v (some .returned)
  | nothing (hk : v.kind = .unknown ∨ v.kind = .const ∨ v.kind = .arrayRef) : Disposes t v none

theorem disposes_disposal {d : Option Disposal} (h : v.disposal t = .ok d) : v.Disposes t d := by
  unfold disposal at h
  cases hk : v.kind with
  | object m =>
    cases hmx : t.isMxArray v.type <;> cases m <;> simp only [hk, hmx] at h <;> cases h
    · exact .keptCopy hk hmx
    · exact .keptPointer hk hmx
    · exact .keptAddress hk hmx
    · exact .convertedAddress hk (by simp) hmx
    · exact .converted hk hmx
    · exact .convertedAddress hk (by simp) hmx
  | array f =>
    simp only [hk] at h
    obtain ⟨ds, hds, h⟩ := bind_eq_ok.1 h
    cases h
    exact dims_of_dimLabels hds ▸ .copiedArray hk
  | number f m =>
    cases m <;> simp only [hk] at h <;> cases h
    · exact .keptNumber hk (by simp)
    · exact .copiedNumber hk
    · exact .keptNumber hk (by simp)
  | string => simp only [hk] at h; cases h; exact .copiedString hk
  | mx => simp only [hk] at h; cases h; exact .returned hk
  | _ => simp only [hk] at h; cases h; exact .nothing (by simp [hk])

/-- The value of a call can be handed back, if it may be returned. -/
theorem disposal_ne_none (h : v.SoundResult) : v.disposal t ≠ .ok none := by
  intro hd
  cases disposes_disposal hd with
  | nothing hk =>
    obtain ⟨hunknown, hconst, href⟩ := h
    simp_all

end Variable

namespace Routine

variable {c : Context} {t : TypeTable} {r : Routine} {s : Stmt} {ss : List Stmt}

theorem mem_of_keptResults {v : Variable} (h : v ∈ r.keptResults) : v ∈ r.results := by
  unfold keptResults at h
  split at h
  · simp at h
  · exact h

/-- Only the result at the head is asked whether it is nullable, but there is no other. -/
theorem isNullable_of_keptResults (hsingle : r.results.length ≤ 1) {v : Variable}
    (hv : v ∈ r.keptResults) : v.kind.isNullable = false := by
  unfold keptResults nullableReturn at hv
  cases hr : r.results with
  | nil => simp [hr] at hv
  | cons w ws =>
    have hws : ws = [] := List.eq_nil_of_length_eq_zero (by simpa [hr] using hsingle)
    subst hws
    cases hn : w.kind.isNullable <;> simp [hr, hn] at hv
    rw [hv, hn]

/-- The declaration of the receiver. -/
def receiverDeclaration (r : Routine) : List Stmt :=
  match r.receiver? with
  | some name => [.declare (r.ownerName ++ "*") (.input 0) true name]
  | none => []

/-- The blank line behind the declarations. -/
def declarationsEnd (r : Routine) : List Stmt :=
  if r.results.isEmpty && r.args.isEmpty && r.receiver?.isNone then [] else [.blank]

theorem declarations_eq_ok (h : r.declarations = .ok ss) :
    ss = r.receiverDeclaration ++ r.args.flatMap (fun v => made v.declareInput)
        ++ (r.keptResults ++ r.args).flatMap (fun v => made v.declareOutput)
        ++ (r.results ++ r.args).flatMap (·.declareDims) ++ r.declarationsEnd ∧
      (∀ v ∈ r.args, v.declareInput = .ok (made v.declareInput)) ∧
      ∀ v ∈ r.keptResults ++ r.args, v.declareOutput = .ok (made v.declareOutput) := by
  obtain ⟨ins, h1, h⟩ := bind_eq_ok.1 h
  obtain ⟨outs, h2, h⟩ := bind_eq_ok.1 h
  obtain ⟨rfl, hins⟩ := collect_eq_ok h1
  obtain ⟨rfl, houts⟩ := collect_eq_ok h2
  cases h
  exact ⟨rfl, hins, houts⟩

theorem collect_append_eq_ok {f g : Variable → Except Fault (List Stmt)} {us vs : List Variable}
    (h : (do return (← collect f us) ++ (← collect g vs)) = Except.ok ss) :
    ss = us.flatMap (fun v => made (f v)) ++ vs.flatMap (fun v => made (g v)) ∧
      (∀ v ∈ us, f v = .ok (made (f v))) ∧ ∀ v ∈ vs, g v = .ok (made (g v)) := by
  obtain ⟨xs, h1, h⟩ := bind_eq_ok.1 h
  obtain ⟨ys, h2, h⟩ := bind_eq_ok.1 h
  obtain ⟨rfl, hxs⟩ := collect_eq_ok h1
  obtain ⟨rfl, hys⟩ := collect_eq_ok h2
  cases h
  exact ⟨rfl, hxs, hys⟩

theorem allocations_eq_ok (h : r.allocations t = .ok ss) :
    ss = r.keptResults.flatMap (fun v => made (v.alloc t true))
        ++ r.args.flatMap (fun v => made (v.alloc t false)) ∧
      (∀ v ∈ r.keptResults, v.alloc t true = .ok (made (v.alloc t true))) ∧
      ∀ v ∈ r.args, v.alloc t false = .ok (made (v.alloc t false)) :=
  collect_append_eq_ok h

theorem resultWrites_eq_ok (h : r.resultWrites t = .ok ss) :
    ss = r.keptResults.flatMap (fun v => made (v.setResult t true))
        ++ r.args.flatMap (fun v => made (v.setResult t false)) ∧
      (∀ v ∈ r.keptResults, v.setResult t true = .ok (made (v.setResult t true))) ∧
      ∀ v ∈ r.args, v.setResult t false = .ok (made (v.setResult t false)) :=
  collect_append_eq_ok h

/-- What becomes of the value of the call of `r`. -/
def disposal (t : TypeTable) (r : Routine) : Except Fault (Option Disposal) :=
  match r.results with
  | v :: _ => v.disposal t
  | [] => .ok (some .dropped)

theorem disposal_eq_ok (h : ∀ v ∈ r.results, v.SoundResult) {d : Option Disposal}
    (hd : r.disposal t = .ok d) : ∃ e, d = some e := by
  cases d with
  | some e => exact ⟨e, rfl⟩
  | none =>
    unfold disposal at hd
    split at hd
    · rename_i v vs hr
      exact absurd hd (Variable.disposal_ne_none (h v (by simp [hr])))
    · cases hd

theorem callStatements_eq_ok (h : r.callStatements c = .ok ss) :
    ∃ d, r.disposal c.types = .ok d ∧
      ss = (if r.receiver?.isSome then [.checkReceiver] else [])
        ++ (if c.settings.catches then [.beginTry] else [])
        ++ (match d with | some d => [.call r.call d] | none => [])
        ++ (if c.settings.catches then [.endTry r.name] else []) := by
  unfold callStatements at h
  unfold disposal
  cases hr : r.results with
  | nil =>
    rw [hr] at h
    cases h
    exact ⟨_, rfl, rfl⟩
  | cons v vs =>
    rw [hr] at h
    obtain ⟨d, h1, h⟩ := bind_eq_ok.1 h
    cases h
    exact ⟨d, h1, rfl⟩

/-! ## What is made of a routine -/

section

variable (t : TypeTable) (r : Routine)

/-- The statements that can stand in the stub of a routine, by stage. -/
inductive Makes : Option Stage → Stmt → Prop
  | blank : Makes none .blank
  | receiver {name : String} (hthis : r.receiver? = some name) :
    Makes (some .declare) (.declare (r.ownerName ++ "*") (.input 0) true name)
  | declareDim {v : Variable} {d : Dim} (hv : v ∈ r.results ++ r.args) (hd : d ∈ v.dims) :
    Makes (some .declare) (.declare "mwSize" (.dim d.label) false d.text)
  | getDim {v : Variable} {d : Dim} (hv : v ∈ r.results ++ r.args) (hd : d ∈ v.dims) :
    Makes (some .readDim) (.getDim d.label)
  | getObject (hthis : r.receiver?.isSome = true) : Makes (some .read)
      (.getObject 0 r.ownerName (r.owner.elim .plain (Variable.getInput.objectSource t)))
  | arg {v : Variable} {g : Stage} {s : Stmt} (hv : v ∈ r.args) (hs : v.Makes t false g s) :
    Makes (some g) s
  | result {v : Variable} {g : Stage} {s : Stmt} (hv : v ∈ r.keptResults)
      (hs : v.Makes t true g s) : Makes (some g) s
  | recordCall : Makes (some .record) (.recordCall r.id)
  | checkReceiver (hthis : r.receiver?.isSome = true) : Makes (some .call) .checkReceiver
  | beginTry : Makes (some .call) .beginTry
  | call {d : Disposal} (hd : r.disposal t = .ok (some d)) : Makes (some .call) (.call r.call d)
  | endTry : Makes (some .call) (.endTry r.name)

end

theorem Makes.stage {g : Option Stage} (h : r.Makes t g s) : s.stage = g := by
  cases h with
  | arg hv hs => exact hs.stage
  | result hv hs => exact hs.stage
  | _ => rfl

/-- What is made of the results kept and of the arguments. -/
theorem makes_walk {f : Bool → Variable → List Stmt} {g : Stage}
    (hf : ∀ b v, ∀ s ∈ f b v, v.Makes t b g s)
    (h : s ∈ r.keptResults.flatMap (f true) ++ r.args.flatMap (f false)) :
    r.Makes t (some g) s := by
  rcases List.mem_append.1 h with h | h
  · obtain ⟨v, hv, h⟩ := List.mem_flatMap.1 h
    exact .result hv (hf true v s h)
  · obtain ⟨v, hv, h⟩ := List.mem_flatMap.1 h
    exact .arg hv (hf false v s h)

theorem makes_declarations (t : TypeTable) (h : s ∈ made r.declarations) :
    r.Makes t (some .declare) s ∨ s = .blank := by
  cases hd : r.declarations with
  | error e => simp [hd] at h
  | ok ss =>
    rw [hd, made_ok, (declarations_eq_ok hd).1] at h
    simp only [List.mem_append, List.mem_flatMap] at h
    rcases h with (((h | ⟨v, hv, h⟩) | ⟨v, hv, h⟩) | ⟨v, hv, h⟩) | h
    · unfold receiverDeclaration at h
      split at h
      · exact Or.inl (List.mem_singleton.1 h ▸ .receiver ‹_›)
      · cases h
    · exact Or.inl (.arg hv (Variable.makes_declareInput h))
    · exact Or.inl (hv.elim (fun hv => .result hv (Variable.makes_declareOutput h))
        fun hv => .arg hv (Variable.makes_declareOutput h))
    · obtain ⟨d, hd, rfl⟩ := List.mem_map.1 h
      exact Or.inl (.declareDim (List.mem_append.2 hv) hd)
    · unfold declarationsEnd at h
      split at h
      · cases h
      · exact Or.inr (List.mem_singleton.1 h)

theorem makes_dimReads (t : TypeTable) (h : s ∈ r.dimReads) :
    r.Makes t (some .readDim) s ∨ s = .blank := by
  unfold dimReads at h
  split at h
  · cases h
  · rcases List.mem_append.1 h with h | h
    · obtain ⟨v, hv, h⟩ := List.mem_flatMap.1 h
      obtain ⟨d, hd, rfl⟩ := List.mem_map.1 h
      exact Or.inl (.getDim hv hd)
    · exact Or.inr (List.mem_singleton.1 h)

theorem makes_dimChecks (t : TypeTable) (h : s ∈ r.dimChecks) : r.Makes t (some .checkDim) s := by
  obtain ⟨v, hv, h⟩ := List.mem_flatMap.1 h
  exact .arg hv (Variable.makes_checkDims h)

theorem makes_inputReads (h : s ∈ r.inputReads t) : r.Makes t (some .read) s := by
  rcases List.mem_append.1 h with h | h
  · split at h
    · exact List.mem_singleton.1 h ▸ .getObject ‹_›
    · cases h
  · obtain ⟨v, hv, h⟩ := List.mem_flatMap.1 h
    exact .arg hv (Variable.makes_getInput h)

theorem makes_inputChecks (t : TypeTable) (h : s ∈ r.inputChecks) : r.Makes t (some .check) s := by
  obtain ⟨v, hv, h⟩ := List.mem_flatMap.1 h
  exact .arg hv (Variable.makes_checkInput h)

theorem makes_allocations (h : s ∈ made (r.allocations t)) : r.Makes t (some .alloc) s := by
  cases ha : r.allocations t with
  | error e => simp [ha] at h
  | ok ss =>
    rw [ha, made_ok, (allocations_eq_ok ha).1] at h
    exact makes_walk (fun _ _ _ => Variable.makes_alloc) h

theorem makes_callStatements (h : s ∈ made (r.callStatements c)) :
    r.Makes c.types (some .call) s := by
  cases hc : r.callStatements c with
  | error e => simp [hc] at h
  | ok ss =>
    obtain ⟨d, hd, rfl⟩ := callStatements_eq_ok hc
    rw [hc, made_ok] at h
    simp only [List.mem_append] at h
    rcases h with ((h | h) | h) | h <;> split at h <;> simp at h <;> subst h
    · exact .checkReceiver ‹_›
    · exact .beginTry
    · exact .call hd
    · exact .endTry

theorem makes_resultWrites (h : s ∈ made (r.resultWrites t)) : r.Makes t (some .write) s := by
  cases hw : r.resultWrites t with
  | error e => simp [hw] at h
  | ok ss =>
    rw [hw, made_ok, (resultWrites_eq_ok hw).1] at h
    exact makes_walk (fun _ _ _ => Variable.makes_setResult) h

theorem makes_releases (h : s ∈ r.releases t) : r.Makes t (some .release) s :=
  makes_walk (f := fun b v => v.release t b) (fun _ _ _ => Variable.makes_release) h

/-- **Every statement of a stub is one that can be made of its routine.** -/
theorem makes_mainStatements (hss : r.mainStatements c = .ok ss) :
    ∀ s ∈ ss ++ r.releases c.types, ∃ g, r.Makes c.types g s := by
  intro s hs
  have hblank {g : Option Stage} (h : r.Makes c.types g s ∨ s = .blank) :
      ∃ g, r.Makes c.types g s := by
    rcases h with h | rfl
    · exact ⟨g, h⟩
    · exact ⟨none, .blank⟩
  simp only [(mainStatements_eq_ok hss).eq, List.mem_append, List.mem_singleton] at hs
  rcases hs with ((((((((hs | hs) | hs) | hs) | hs) | hs) | rfl) | hs) | hs) | hs
  · exact hblank (makes_declarations _ hs)
  · exact hblank (makes_dimReads _ hs)
  · exact ⟨_, makes_dimChecks _ hs⟩
  · exact ⟨_, makes_inputReads hs⟩
  · exact ⟨_, makes_inputChecks _ hs⟩
  · exact ⟨_, makes_allocations hs⟩
  · exact ⟨_, .recordCall⟩
  · exact ⟨_, makes_callStatements hs⟩
  · exact ⟨_, makes_resultWrites hs⟩
  · exact ⟨_, makes_releases hs⟩

/-! ## Each part makes statements of its stage -/

theorem stage_declarations (h : s ∈ made r.declarations) :
    s.stage = some .declare ∨ s = .blank :=
  (makes_declarations {} h).imp_left Makes.stage

theorem stage_dimReads (h : s ∈ r.dimReads) : s.stage = some .readDim ∨ s = .blank :=
  (makes_dimReads {} h).imp_left Makes.stage

theorem stage_dimChecks (h : s ∈ r.dimChecks) : s.stage = some .checkDim :=
  (makes_dimChecks {} h).stage

theorem stage_inputReads (h : s ∈ r.inputReads t) : s.stage = some .read :=
  (makes_inputReads h).stage

theorem stage_inputChecks (h : s ∈ r.inputChecks) : s.stage = some .check :=
  (makes_inputChecks {} h).stage

theorem stage_allocations (h : s ∈ made (r.allocations t)) : s.stage = some .alloc :=
  (makes_allocations h).stage

theorem stage_callStatements (h : s ∈ made (r.callStatements c)) : s.stage = some .call :=
  (makes_callStatements h).stage

theorem stage_resultWrites (h : s ∈ made (r.resultWrites t)) : s.stage = some .write :=
  (makes_resultWrites h).stage

theorem stage_releases (h : s ∈ r.releases t) : s.stage = some .release := (makes_releases h).stage

end Routine

end MexBridge
