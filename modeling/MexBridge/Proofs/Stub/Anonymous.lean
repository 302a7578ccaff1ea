import MexBridge.Proofs.Routine.Checking
import MexBridge.Proofs.Stub.Stages
import Mathlib.Data.List.Basic

/-!
# Stubs without names

The names of variables and the texts of dimensions show in a stub only in remarks and messages, and
not all of a kind shows. `Stmt.masked` takes names out of a statement and `Routine.anonymous` out of
a routine, with the part of each kind that no statement depends on; planning the stub commutes with
both (`masked_mainStatements`). So routines that are the same without names have the same stub up to
names.
-/

namespace MexBridge

/-- A statement without names of variables and without the number of its stub. -/
def Stmt.masked : Stmt → Stmt
  | .declare type l zeroed _ => .declare type l zeroed ""
  | .checkMatrix k rows cols _ => .checkMatrix k rows cols ""
  | .checkLength k n _ => .checkLength k n ""
  | .checkNonNull k _ => .checkNonNull k ""
  | .recordCall _ => .recordCall 0
  | s => s

def maskAll (ss : Except Fault (List Stmt)) : Except Fault (List Stmt) :=
  ss.map (List.map Stmt.masked)

/-- A statement with this name or number in it. -/
def Stmt.filled (slot : String × Int) : Stmt → Stmt
  | .declare type l zeroed _ => .declare type l zeroed slot.1
  | .checkMatrix k rows cols _ => .checkMatrix k rows cols slot.1
  | .checkLength k n _ => .checkLength k n slot.1
  | .checkNonNull k _ => .checkNonNull k slot.1
  | .recordCall _ => .recordCall slot.2
  | s => s

theorem exists_filled (s : Stmt) : ∃ slot, s.masked.filled slot = s := by
  cases s with
  | declare _ _ _ remark => exact ⟨(remark, 0), rfl⟩
  | checkMatrix _ _ _ name => exact ⟨(name, 0), rfl⟩
  | checkLength _ _ name => exact ⟨(name, 0), rfl⟩
  | checkNonNull _ name => exact ⟨(name, 0), rfl⟩
  | recordCall id => exact ⟨("", id), rfl⟩
  | _ => exact ⟨("", 0), rfl⟩

theorem exists_fill (ss : List Stmt) :
    ∃ slots, List.zipWith Stmt.filled slots (ss.map Stmt.masked) = ss := by
  induction ss with
  | nil => exact ⟨[], rfl⟩
  | cons s ss ih =>
    obtain ⟨slot, hs⟩ := exists_filled s
    obtain ⟨slots, hss⟩ := ih
    exact ⟨slot :: slots, by simp [hs, hss]⟩

theorem stage_masked (s : Stmt) : s.masked.stage = s.stage := by cases s <;> rfl

/-- The stages whose statements show names. -/
def Stage.named : Stage → Bool
  | .declare => true
  | .checkDim => true
  | .check => true
  | .record => true
  | _ => false

theorem masked_of_stage {s : Stmt} {st : Stage} (h : s.stage = some st) (hst : st.named = false) :
    s.masked = s := by
  cases s <;> cases h <;> cases hst <;> rfl

theorem map_masked_of_stage {ss : List Stmt} {st : Stage} (h : ∀ s ∈ ss, s.stage = some st)
    (hst : st.named = false) : ss.map Stmt.masked = ss :=
  (List.map_congr_left fun s hs => masked_of_stage (h s hs) hst).trans (List.map_id ss)

/-- A qualifier without the texts of its dimensions. -/
def Qualifier.anonymous (q : Qualifier) : Qualifier :=
  { q with dims := q.dims.map fun d => { d with text := "" } }

theorem Qualifier.anonymous_eq {q r : Qualifier} (hmark : q.mark = r.mark)
    (hdims : q.dims.map (·.label) = r.dims.map (·.label)) : q.anonymous = r.anonymous := by
  have hlabels : ∀ ds : List Dim, (ds.map fun d => { d with text := "" })
      = (ds.map (·.label)).map fun k => { text := "", label := k } := by
    intro ds
    rw [List.map_map]
    rfl
  simp only [anonymous, hmark, hlabels, hdims]

/-- Both precisions of complex numbers are handled alike. -/
def Field.shown : Field → Field
  | .single => .double
  | f => f

namespace Variable

/-- An array argument whose elements are handled alike, be they complex or not. -/
def hidesField (v : Variable) : Bool :=
  v.onGpu && v.direction != .output || v.direction == .input && !Numeric.isKnown v.type

/-- What the stub shows of the kind of a variable. -/
def shownKind (isResult : Bool) (v : Variable) : Kind :=
  match v.kind with
  | .number f m => .number (if isResult && m == .pointer then .real else f.shown) m
  | .array f => .array (if isResult || v.hidesField then .real else f.shown)
  | k => k

/-- A variable without its name and the texts of its dimensions; a constant is its name. -/
def anonymous (isResult : Bool) (v : Variable) : Variable :=
  { v with
    qualifier := v.qualifier.map Qualifier.anonymous
    name := if v.kind = .const then v.name else ""
    kind := v.shownKind isResult }

variable {t : TypeTable} {v : Variable} {b : Bool}

@[simp] theorem type_anonymous : (v.anonymous b).type = v.type := rfl

@[simp] theorem direction_anonymous : (v.anonymous b).direction = v.direction := rfl

@[simp] theorem inLabel_anonymous : (v.anonymous b).inLabel = v.inLabel := rfl

@[simp] theorem outLabel_anonymous : (v.anonymous b).outLabel = v.outLabel := rfl

@[simp] theorem kind_anonymous : (v.anonymous b).kind = v.shownKind b := rfl

@[simp] theorem onGpu_anonymous : (v.anonymous b).onGpu = v.onGpu := rfl

@[simp] theorem holder_anonymous : (v.anonymous b).holder = v.holder := rfl

theorem name_anonymous (h : v.kind ≠ .const) : (v.anonymous b).name = "" := by
  simp [anonymous, h]

@[simp] theorem dims_anonymous :
    (v.anonymous b).dims = v.dims.map fun d => { d with text := "" } := by
  unfold dims
  simp only [anonymous]
  cases v.qualifier <;> rfl

@[simp] theorem dimLabels_anonymous : (v.anonymous b).dimLabels = v.dimLabels := by
  unfold dimLabels
  simp only [anonymous]
  cases v.qualifier <;> simp [Qualifier.anonymous]

/-! What is asked of a kind is mostly the same of the kind shown. -/

@[simp] theorem isArray_shownKind : (v.shownKind b).isArray = v.kind.isArray := by
  unfold shownKind
  cases v.kind <;> rfl

@[simp] theorem isObject_shownKind : (v.shownKind b).isObject = v.kind.isObject := by
  unfold shownKind
  cases v.kind <;> rfl

@[simp] theorem isNullable_shownKind : (v.shownKind b).isNullable = v.kind.isNullable := by
  unfold shownKind
  cases hk : v.kind with
  | number f m => cases m <;> rfl
  | _ => rfl

@[simp] theorem shownKind_eq_const : v.shownKind b = .const ↔ v.kind = .const := by
  unfold shownKind
  cases v.kind <;> simp

@[simp] theorem shownKind_eq_mx : v.shownKind b = .mx ↔ v.kind = .mx := by
  unfold shownKind
  cases v.kind <;> simp

@[simp] theorem shownKind_eq_string : v.shownKind b = .string ↔ v.kind = .string := by
  unfold shownKind
  cases v.kind <;> simp

@[simp] theorem shownKind_beq_string : (v.shownKind b == .string) = (v.kind == .string) := by
  rw [Bool.eq_iff_iff]
  simp

@[simp] theorem isPointerLocal_shownKind :
    (v.shownKind b).isPointerLocal = v.kind.isPointerLocal := by
  simp [Kind.isPointerLocal]

theorem isComplex_shown (f : Field) :
    (Kind.array f.shown).isComplex = (Kind.array f).isComplex := by
  cases f <;> rfl

/-- A kind that is shown in full. -/
theorem isComplex_shownKind (h : v.hidesField = false) :
    (v.shownKind false).isComplex = v.kind.isComplex := by
  unfold shownKind
  cases hk : v.kind with
  | array f => simp [h, isComplex_shown]
  | number f m => cases f <;> rfl
  | _ => rfl

theorem localType_anonymous (h : v.kind ≠ .unknown) (h' : v.kind ≠ .const) :
    (v.anonymous b).localType = v.localType := by
  unfold localType
  rw [kind_anonymous]
  unfold shownKind
  cases hk : v.kind with
  | unknown => exact absurd hk h
  | const => exact absurd hk h'
  | _ => rfl

/-! ## Planning commutes with taking names out -/

theorem masked_declareInput (h : v.kind ≠ .unknown) :
    maskAll v.declareInput = (v.anonymous b).declareInput := by
  unfold declareInput
  by_cases hc : v.direction = .output ∨ v.kind = .const
  · simp [hc, maskAll, Except.map]
  · have hk : v.kind ≠ .const := fun e => hc (Or.inr e)
    simp only [direction_anonymous, kind_anonymous, shownKind_eq_const, hc, if_false,
      localType_anonymous h hk, isPointerLocal_shownKind, onGpu_anonymous]
    cases v.localType with
    | error e => rfl
    | ok type =>
      have hname : (v.anonymous b).name = "" := name_anonymous hk
      cases v.kind.isPointerLocal <;> cases v.onGpu <;>
        simp [maskAll, Except.map, bind, Except.bind, pure, Except.pure, Stmt.masked, hname]

theorem masked_declareOutput (h : v.kind ≠ .unknown)
    (hc : v.kind = .const → v.direction ≠ .output) :
    maskAll v.declareOutput = (v.anonymous b).declareOutput := by
  unfold declareOutput
  by_cases hd : v.direction ≠ .output ∨ v.kind = .mx
  · simp [hd, maskAll, Except.map]
  · have hk : v.kind ≠ .const := fun e => hd (Or.inl (hc e))
    simp only [direction_anonymous, kind_anonymous, shownKind_eq_mx, hd, if_false,
      localType_anonymous h hk, isPointerLocal_shownKind, onGpu_anonymous]
    cases v.localType with
    | error e => rfl
    | ok type =>
      have hname : (v.anonymous b).name = "" := name_anonymous hk
      cases v.kind.isPointerLocal <;> cases v.onGpu <;>
        simp [maskAll, Except.map, bind, Except.bind, pure, Except.pure, Stmt.masked, hname]

theorem masked_declareDims : v.declareDims.map Stmt.masked = (v.anonymous b).declareDims := by
  simp [declareDims, Stmt.masked, Function.comp_def]

theorem getDims_anonymous : (v.anonymous b).getDims = v.getDims := by
  simp [getDims, Function.comp_def]

theorem masked_checkDims : v.checkDims.map Stmt.masked = (v.anonymous b).checkDims := by
  unfold checkDims
  rw [show ((v.anonymous b).direction ≠ .output && (v.anonymous b).kind.isArray
      && !(v.anonymous b).onGpu) = (v.direction ≠ .output && v.kind.isArray && !v.onGpu) by
    rw [kind_anonymous, isArray_shownKind]; rfl]
  split
  · rename_i hc
    have hconst : v.kind ≠ .const := by
      rintro e
      simp [e, Kind.isArray] at hc
    have hname : (v.anonymous b).name = "" := name_anonymous hconst
    rw [dims_anonymous]
    rcases v.dims with _ | ⟨d, _ | ⟨e, ds⟩⟩ <;> simp [Stmt.masked, hname]
  · rfl

/-- An array on the CPU that hides its field has a type that is not known, and is copied. -/
theorem arraySource_anonymous (h : v.onGpu = false) :
    (v.anonymous false).arraySource = v.arraySource := by
  have hcomplex : ((v.shownKind false).isComplex && Numeric.isKnown v.type)
      = (v.kind.isComplex && Numeric.isKnown v.type) := by
    cases hh : v.hidesField with
    | false => rw [isComplex_shownKind hh]
    | true =>
      have hknown : Numeric.isKnown v.type = false := by simp_all [hidesField]
      simp [hknown]
  unfold arraySource
  rw [kind_anonymous, type_anonymous, hcomplex]
  rfl

theorem getInput_anonymous : (v.anonymous false).getInput t = v.getInput t := by
  unfold getInput
  by_cases hd : v.direction = .output
  · simp [hd]
  · have hd' : ¬(v.anonymous false).direction = .output := hd
    rw [if_neg hd, if_neg hd', kind_anonymous, dims_anonymous]
    unfold shownKind
    cases hk : v.kind with
    | array f =>
      cases hg : v.onGpu with
      | true => simp only [onGpu_anonymous, hg, if_true]; rfl
      | false => simp [hg, arraySource_anonymous hg]
    | number f m => cases f <;> rfl
    | string => cases hds : v.dims <;> simp
    | _ => rfl

theorem masked_checkInput : v.checkInput.map Stmt.masked = (v.anonymous b).checkInput := by
  unfold checkInput
  by_cases hd : v.direction = .output
  · simp [hd]
  · simp only [direction_anonymous, hd, if_false]
    rw [kind_anonymous]
    unfold shownKind
    cases hk : v.kind with
    | object m => cases m <;> simp [Stmt.masked, anonymous, hk]
    | _ => rfl

/-- A GPU array shows its field where it is made, and no result is one. -/
theorem alloc_anonymous (h : b = true → v.onGpu = false) :
    (v.anonymous b).alloc t b = v.alloc t b := by
  unfold alloc
  by_cases hd : v.direction ≠ .output
  · simp [hd]
  · have hd' : ¬(v.anonymous b).direction ≠ .output := hd
    rw [if_neg hd, if_neg hd', onGpu_anonymous, kind_anonymous, dimLabels_anonymous]
    cases hg : v.onGpu with
    | true =>
      have hb : b = false := by cases b <;> simp_all
      subst hb
      have hshown : v.hidesField = false := by simp_all [hidesField]
      rw [isComplex_shownKind hshown]
      rfl
    | false =>
      unfold shownKind
      cases hk : v.kind <;> rfl

theorem actual_anonymous : (v.anonymous false).actual = v.actual := by
  unfold actual
  rw [kind_anonymous]
  unfold shownKind
  cases hk : v.kind with
  | number f m => cases m <;> rfl
  | object m => cases m <;> rfl
  | const => simp [anonymous, hk]
  | _ => rfl

theorem disposal_anonymous : (v.anonymous true).disposal t = v.disposal t := by
  unfold disposal
  rw [kind_anonymous, dimLabels_anonymous]
  unfold shownKind
  cases hk : v.kind with
  | number f m => cases m <;> rfl
  | object m => cases m <;> rfl
  | _ => rfl

theorem setArray_anonymous {byRef : Bool} (h : v.hidesField = false) :
    (v.anonymous false).setArray byRef = v.setArray byRef := by
  unfold setArray
  rw [dimLabels_anonymous, kind_anonymous, isComplex_shownKind h]
  rfl

/-- An argument that goes back shows its field, but on the GPU. -/
theorem setResult_anonymous : (v.anonymous false).setResult t false = v.setResult t false := by
  unfold setResult
  by_cases hd : v.direction = .input
  · simp [hd]
  · have hd' : ¬(v.anonymous false).direction = .input := hd
    have hshown : v.onGpu = false → v.hidesField = false := by
      intro hg
      simp [hidesField, hg, hd]
    rw [if_neg hd, if_neg hd', kind_anonymous]
    unfold shownKind
    cases hk : v.kind with
    | array f =>
      cases hg : v.onGpu with
      | true => simp only [onGpu_anonymous, hg, if_true]; rfl
      | false => simp [hg, setArray_anonymous (hshown hg)]
    | arrayRef =>
      cases hg : v.onGpu with
      | true => simp only [onGpu_anonymous, hg, if_true]; rfl
      | false => simp [hg, setArray_anonymous (hshown hg)]
    | number f m => cases f <;> rfl
    | _ => rfl

/-- A kept result is no array and no pointer to a number, so it shows its field. -/
theorem setResult_anonymous_result (h : v.kind.isNullable = false) (href : v.kind ≠ .arrayRef) :
    (v.anonymous true).setResult t true = v.setResult t true := by
  unfold setResult
  by_cases hd : v.direction = .input
  · simp [hd]
  · have hd' : ¬(v.anonymous true).direction = .input := hd
    rw [if_neg hd, if_neg hd', kind_anonymous]
    unfold shownKind
    cases hk : v.kind with
    | array f => simp [hk, Kind.isNullable] at h
    | arrayRef => exact absurd hk href
    | number f m => cases m <;> cases f <;> simp_all [Kind.isNullable] <;> rfl
    | _ => rfl

theorem release_anonymous : (v.anonymous b).release t b = v.release t b := by
  unfold release
  rw [onGpu_anonymous, kind_anonymous, isArray_shownKind, shownKind_beq_string, isObject_shownKind]
  rfl

end Variable

/-! ## Routines -/

/-- A routine without names, its place and its number. -/
def Routine.anonymous (r : Routine) : Routine :=
  { r with
    file := ""
    line := 0
    id := 0
    args := r.args.map (·.anonymous false)
    results := r.results.map (·.anonymous true) }

/-- What every part of a plan needs to know of the routine. -/
structure Routine.Handled (r : Routine) : Prop where
  args : ∀ v ∈ r.args, v.SoundArg
  results : ∀ v ∈ r.results, v.SoundResult ∧ v.onGpu = false
  single : r.results.length ≤ 1

theorem masked_masked (s : Stmt) : s.masked.masked = s.masked := by cases s <;> rfl

theorem map_masked_masked (ss : List Stmt) :
    (ss.map Stmt.masked).map Stmt.masked = ss.map Stmt.masked := by
  simp [masked_masked]

theorem maskAll_maskAll (x : Except Fault (List Stmt)) : maskAll (maskAll x) = maskAll x := by
  cases x <;> simp [maskAll, Except.map, masked_masked]

namespace Routine

theorem maskAll_bind {x x' : Except Fault (List Stmt)} {f f' : List Stmt → Except Fault (List Stmt)}
    (hx : maskAll x = maskAll x')
    (hf : ∀ ss ss', ss.map Stmt.masked = ss'.map Stmt.masked → maskAll (f ss) = maskAll (f' ss')) :
    maskAll (x >>= f) = maskAll (x' >>= f') := by
  cases x with
  | error e =>
    cases x' with
    | error e' => exact hx
    | ok ss' => cases hx
  | ok ss =>
    cases x' with
    | error e' => cases hx
    | ok ss' => exact hf ss ss' (Except.ok.inj hx)

/-- Two parts one after the other. -/
theorem maskAll_append {x x' y y' : Except Fault (List Stmt)} (hx : maskAll x = maskAll x')
    (hy : maskAll y = maskAll y') :
    maskAll (do return (← x) ++ (← y)) = maskAll (do return (← x') ++ (← y')) :=
  maskAll_bind hx fun ss ss' hs => maskAll_bind hy fun ts ts' ht => by
    simp [maskAll, Except.map, pure, Except.pure, hs, ht]

theorem collect_cons (f : Variable → Except Fault (List Stmt)) (v : Variable) (vs : List Variable) :
    collect f (v :: vs) = do return (← f v) ++ (← collect f vs) := by
  unfold collect
  rw [List.mapM_cons]
  cases f v <;> cases vs.mapM f <;> rfl

theorem collect_append (f : Variable → Except Fault (List Stmt)) (vs ws : List Variable) :
    collect f (vs ++ ws) = do return (← collect f vs) ++ (← collect f ws) := by
  induction vs with
  | nil => rw [List.nil_append]; cases collect f ws <;> rfl
  | cons v vs ih =>
    rw [List.cons_append, collect_cons, ih, collect_cons]
    cases f v <;> cases collect f vs <;> cases collect f ws <;>
      simp [bind, Except.bind, pure, Except.pure]

theorem collect_map {f g : Variable → Except Fault (List Stmt)} {e : Variable → Variable}
    {vs : List Variable} (h : ∀ v ∈ vs, g (e v) = f v) : collect g (vs.map e) = collect f vs := by
  induction vs with
  | nil => rfl
  | cons v vs ih =>
    rw [List.map_cons, collect_cons, collect_cons, h v (by simp), ih fun w hw => h w (by simp [hw])]

theorem maskAll_collect {f g : Variable → Except Fault (List Stmt)} {e : Variable → Variable}
    {vs : List Variable} (h : ∀ v ∈ vs, maskAll (f v) = g (e v)) :
    maskAll (collect f vs) = maskAll (collect g (vs.map e)) := by
  induction vs with
  | nil => rfl
  | cons v vs ih =>
    rw [List.map_cons, collect_cons, collect_cons]
    refine maskAll_append ?_ (ih fun w hw => h w (by simp [hw]))
    rw [← h v (by simp), maskAll_maskAll]

theorem map_masked_flatMap {f g : Variable → List Stmt} {e : Variable → Variable}
    {vs : List Variable} (h : ∀ v ∈ vs, (f v).map Stmt.masked = g (e v)) :
    (vs.flatMap f).map Stmt.masked = (vs.map e).flatMap g := by
  rw [List.map_flatMap, List.flatMap_map]
  exact List.flatMap_congr h

section

variable {c : Context} {t : TypeTable} {r : Routine}

theorem keptResults_anonymous : r.anonymous.keptResults = r.keptResults.map (·.anonymous true) := by
  unfold keptResults nullableReturn anonymous
  cases hr : r.results with
  | nil => rfl
  | cons v vs => cases hn : v.kind.isNullable <;> simp [hn]

theorem masked_declareInputs (h : r.Handled) :
    maskAll (collect (·.declareInput) r.args)
      = maskAll (collect (·.declareInput) r.anonymous.args) :=
  maskAll_collect fun v hv => Variable.masked_declareInput (h.args v hv).known

theorem masked_declareOutputs (h : r.Handled) :
    maskAll (collect (·.declareOutput) (r.keptResults ++ r.args))
      = maskAll (collect (·.declareOutput) (r.anonymous.keptResults ++ r.anonymous.args)) := by
  rw [keptResults_anonymous, collect_append, collect_append]
  refine maskAll_append (maskAll_collect fun v hv => ?_) (maskAll_collect fun v hv => ?_)
  · have hv := (h.results v (mem_of_keptResults hv)).1
    exact Variable.masked_declareOutput hv.known fun e => absurd e hv.const
  · have hv := h.args v hv
    exact Variable.masked_declareOutput hv.known fun e => by simp [hv.const e]

theorem masked_allDims :
    ((r.results ++ r.args).flatMap (·.declareDims)).map Stmt.masked
      = (r.anonymous.results ++ r.anonymous.args).flatMap (·.declareDims) := by
  rw [List.flatMap_append, List.flatMap_append, List.map_append]
  exact congrArg₂ _ (map_masked_flatMap fun v _ => Variable.masked_declareDims)
    (map_masked_flatMap fun v _ => Variable.masked_declareDims)

theorem masked_declarations (h : r.Handled) :
    maskAll r.declarations = maskAll r.anonymous.declarations := by
  have hlast : (r.anonymous.results.isEmpty && r.anonymous.args.isEmpty
      && r.anonymous.receiver?.isNone)
      = (r.results.isEmpty && r.args.isEmpty && r.receiver?.isNone) := by
    simp [anonymous]
    rfl
  unfold declarations
  refine maskAll_bind (masked_declareInputs h) fun ins ins' hins => ?_
  refine maskAll_bind (masked_declareOutputs h) fun outs outs' houts => ?_
  rw [hlast, ← masked_allDims]
  simp only [maskAll, Except.map, pure, Except.pure, List.map_append, map_masked_masked, hins,
    houts]
  rfl

theorem dimReads_anonymous : r.anonymous.dimReads = r.dimReads := by
  have hdims : (r.anonymous.results ++ r.anonymous.args).flatMap (·.getDims)
      = (r.results ++ r.args).flatMap (·.getDims) := by
    simp [anonymous, List.flatMap_map, Variable.getDims_anonymous]
  unfold dimReads
  rw [hdims]

theorem masked_dimChecks : r.dimChecks.map Stmt.masked = r.anonymous.dimChecks :=
  map_masked_flatMap fun _ _ => Variable.masked_checkDims

theorem masked_inputChecks : r.inputChecks.map Stmt.masked = r.anonymous.inputChecks :=
  map_masked_flatMap fun _ _ => Variable.masked_checkInput

theorem inputReads_anonymous : r.anonymous.inputReads t = r.inputReads t := by
  have hargs : r.anonymous.args.flatMap (·.getInput t) = r.args.flatMap (·.getInput t) := by
    simp [anonymous, List.flatMap_map, Variable.getInput_anonymous]
  unfold inputReads
  rw [hargs]
  rfl

theorem allocations_anonymous (h : r.Handled) : r.anonymous.allocations t = r.allocations t := by
  have hresults : collect (·.alloc t true) r.anonymous.keptResults
      = collect (·.alloc t true) r.keptResults := by
    rw [keptResults_anonymous]
    exact collect_map fun v hv =>
      Variable.alloc_anonymous fun _ => (h.results v (mem_of_keptResults hv)).2
  have hargs : collect (·.alloc t false) r.anonymous.args = collect (·.alloc t false) r.args :=
    collect_map fun v _ => Variable.alloc_anonymous (by simp)
  unfold allocations
  rw [hresults, hargs]

theorem call_anonymous : r.anonymous.call = r.call := by
  have hargs : r.anonymous.args.map (·.actual) = r.args.map (·.actual) := by
    simp [anonymous, Variable.actual_anonymous]
  unfold call
  rw [hargs]
  rfl

theorem callStatements_anonymous : r.anonymous.callStatements c = r.callStatements c := by
  have hcall := call_anonymous (r := r)
  unfold callStatements
  rw [hcall]
  cases hr : r.results with
  | nil => simp only [anonymous, hr, List.map_nil]; rfl
  | cons v vs =>
    simp only [anonymous, hr, List.map_cons, Variable.disposal_anonymous]
    rfl

theorem resultWrites_anonymous (h : r.Handled) : r.anonymous.resultWrites t = r.resultWrites t := by
  have hresults : collect (·.setResult t true) r.anonymous.keptResults
      = collect (·.setResult t true) r.keptResults := by
    rw [keptResults_anonymous]
    exact collect_map fun v hv => Variable.setResult_anonymous_result
      (isNullable_of_keptResults h.single hv) (h.results v (mem_of_keptResults hv)).1.arrayRef
  have hargs : collect (·.setResult t false) r.anonymous.args
      = collect (·.setResult t false) r.args :=
    collect_map fun v _ => Variable.setResult_anonymous
  unfold resultWrites
  rw [hresults, hargs]

theorem releases_anonymous : r.anonymous.releases t = r.releases t := by
  unfold releases
  rw [keptResults_anonymous]
  simp [anonymous, List.flatMap_map, Variable.release_anonymous]

/-- **A stub shows of its routine only what is left without names.** -/
theorem masked_mainStatements (h : r.Handled) :
    maskAll (r.mainStatements c) = maskAll (r.anonymous.mainStatements c) := by
  unfold mainStatements
  rw [allocations_anonymous h, callStatements_anonymous, resultWrites_anonymous h,
    dimReads_anonymous, inputReads_anonymous, ← masked_dimChecks, ← masked_inputChecks]
  refine maskAll_bind (masked_declarations h) fun ds ds' hds => ?_
  cases r.allocations c.types with
  | error e => rfl
  | ok as =>
    cases r.callStatements c with
    | error e => rfl
    | ok cs =>
      cases r.resultWrites c.types with
      | error e => rfl
      | ok ws =>
        simp only [maskAll, Except.map, bind, Except.bind, pure, Except.pure, List.map_append,
          map_masked_masked, hds]
        rfl

end

end Routine

end MexBridge
