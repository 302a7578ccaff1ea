import MexBridge.Proofs.Routine.CallingConvention
import MexBridge.Proofs.Stub.Paths
import MexBridge.Proofs.Stub.Stages
import MexBridge.Stub.Printer
import Mathlib.Data.List.Perm.Basic

/-!
# The index discipline of a stub

Every index in a stub is a label, and `-1` is the label of what has none. In the stub of a checked
routine every index lies inside the lists of the MATLAB call, and on every path each left-hand
argument is set exactly once: by the call, by the function it calls, or after it.
-/

namespace MexBridge

/-! ## Code within its bounds -/

/-- A place in a list of `n`. -/
def Place (n : Nat) (k : Int) : Prop := 0 ≤ k ∧ k < n

/-- The local belongs to one of `m` right-hand or `n` left-hand arguments. -/
def Local.Within (m n : Nat) : Local → Prop
  | .input k => Place m k
  | .dim k => Place m k
  | .gpuInput k => Place m k
  | .output k => Place n k
  | .gpuOutput k => Place n k
  | .gpuDims k => Place n k

def Piece.Within (m n : Nat) : Piece → Prop
  | .loc l => l.Within m n
  | .rhs k => Place m k
  | .lhs k => Place n k
  | .lhsAddress k => Place n k
  | .fork (.null l) => l.Within m n
  | _ => True

def Actual.Within (m n : Nat) : Actual → Prop
  | .plain l => l.Within m n
  | .deref l => l.Within m n
  | .address l => l.Within m n
  | .slot k => Place n k
  | .literal _ => True

def Shape.Within (m : Nat) (i : Int) : Shape → Prop
  | .same => Place m i
  | .column ds => ∀ d ∈ ds, Place m d
  | .matrix r c => Place m r ∧ Place m c

/-- The value of a call that is not dropped goes to the first left-hand argument. -/
def Disposal.Within (m n : Nat) : Disposal → Prop
  | .dropped => True
  | .copiedArray _ ds => Place n 0 ∧ ∀ d ∈ ds, Place m d
  | _ => Place n 0

/-- All labels of a statement lie within the lists of the call. -/
def Stmt.Within (m n : Nat) : Stmt → Prop
  | .declare _ l _ _ => l.Within m n
  | .getDim k => Place m k
  | .checkMatrix k r c _ => Place m k ∧ Place m r ∧ Place m c
  | .checkLength k d _ => Place m k ∧ Place m d
  | .getObject k _ _ => Place m k
  | .getArray k _ _ => Place m k
  | .getGpuArray k _ => Place m k
  | .getString k => Place m k
  | .getSizedString k ds => Place m k ∧ ∀ d ∈ ds, Place m d
  | .getNumber k _ => Place m k
  | .getComplex k _ => Place m k
  | .getMx k => Place m k
  | .checkNonNull k _ => Place m k
  | .allocObject k _ => Place n k
  | .allocArray k _ ds => Place n k ∧ ∀ d ∈ ds, Place m d
  | .nullArray k _ => Place n k
  | .allocString k ds => Place n k ∧ ∀ d ∈ ds, Place m d
  | .allocGpuArray k _ _ r c => Place n k ∧ Place m r ∧ ∀ d ∈ c, Place m d
  | .checkReceiver => Place m 0
  | .call c d => (c.method → Place m 0) ∧ (∀ x ∈ c.args, x.Within m n) ∧ d.Within m n
  | .setConverted k _ l => Place n k ∧ l.Within m n
  | .setPointer k _ => Place n k
  | .setArray k i _ _ _ l shape => Place n k ∧ l.Within m n ∧ shape.Within m i
  | .setNumber k l => Place n k ∧ l.Within m n
  | .setComplex k _ l => Place n k ∧ l.Within m n
  | .setString k l => Place n k ∧ l.Within m n
  | .setSame k i => Place n k ∧ Place m i
  | .setGpuArray k => Place n k
  | .free l => l.Within m n
  | .freeConverted _ l => l.Within m n
  | .destroyGpu l => l.Within m n
  | _ => True

/-- All indices in the code lie within the lists of the call. -/
def Code.Within (m n : Nat) (c : Code) : Prop := ∀ x ∈ c, x.Within m n

namespace Code

variable {m n : Nat}

@[simp] theorem within_nil : Within m n [] := by simp [Within]

@[simp] theorem within_cons {x : Piece} {c : Code} :
    Within m n (x :: c) ↔ x.Within m n ∧ Within m n c := List.forall_mem_cons

@[simp] theorem within_append {a b : Code} : Within m n (a ++ b) ↔ Within m n a ∧ Within m n b :=
  List.forall_mem_append

@[simp] theorem within_text (s : String) : (Piece.text s).Within m n := trivial

@[simp] theorem within_loc {l : Local} : (Piece.loc l).Within m n ↔ l.Within m n := .rfl

@[simp] theorem within_rhs {k : Int} : (Piece.rhs k).Within m n ↔ Place m k := .rfl

@[simp] theorem within_lhs {k : Int} : (Piece.lhs k).Within m n ↔ Place n k := .rfl

@[simp] theorem within_lhsAddress {k : Int} : (Piece.lhsAddress k).Within m n ↔ Place n k := .rfl

@[simp] theorem within_otherwise (f : Fork) : (Piece.otherwise f).Within m n := trivial

@[simp] theorem within_join (f : Fork) : (Piece.join f).Within m n := trivial

theorem within_product {ds : List Int} (h : ∀ d ∈ ds, Place m d) : Within m n (product ds) := by
  fun_induction product ds <;> simp_all [Local.Within]

theorem within_either {f : Fork} {a b : Code} (hf : (Piece.fork f).Within m n) (ha : Within m n a)
    (hb : Within m n b) : Within m n (either f a b) := by
  simp [either, seq, hf, ha, hb]

theorem within_arraySource {k : Int} (h : Place m k) (type : String) (source : ArraySource) :
    Within m n (source.code k type) := by
  cases source with
  | inPlace =>
    simp only [ArraySource.code, seq, List.flatten_cons, List.flatten_nil, within_append]
    refine ⟨by simp [classCheck, h], within_either trivial ?_ ?_, within_nil⟩
    · simp [Local.Within, h]
    · split <;> simp [Local.Within, h]
  | _ => simp [ArraySource.code, seq, classCheck, Local.Within, h]

theorem within_extent {i : Int} {shape : Shape} (h : shape.Within m i) :
    Within m n (shape.extent i) := by
  cases shape <;> simp_all [Shape.extent, Shape.Within, seq, within_product, Local.Within]

theorem within_count {i : Int} {shape : Shape} (h : shape.Within m i) :
    Within m n (shape.count i) := by
  cases shape <;> simp_all [Shape.count, Shape.Within, sizeOfArgument, within_product, Local.Within]

theorem within_setArrayCode {margin : String} {k i : Int} {type : String} {isComplex : Bool}
    {l : Local} {shape : Shape} (hk : Place n k) (hl : l.Within m n) (hs : shape.Within m i) :
    Within m n (setArrayCode margin k i type isComplex l shape) := by
  cases h : (Numeric.ofType type).single <;>
    simp [setArrayCode, seq, h, hk, hl, within_extent hs, within_count hs]

theorem within_actuals {xs : List Actual} (h : ∀ x ∈ xs, x.Within m n) :
    Within m n (List.intercalate [Piece.text ", "] (xs.map (·.code))) := by
  refine forall_actuals trivial fun x hx => ?_
  have := h x hx
  cases x <;> simp_all [Actual.code, Actual.Within]

theorem within_call {x : Call} (hm : x.method → Place m 0) (hx : ∀ a ∈ x.args, a.Within m n) :
    Within m n x.code := by
  cases h : x.method <;> simp_all [Call.code, seq, within_actuals, Local.Within]

theorem within_disposal {a : Code} {d : Disposal} (ha : Within m n a) (hd : d.Within m n) :
    Within m n (d.code a) := by
  cases d with
  | copiedArray t ds =>
    simp only [Disposal.code]
    split <;> simp_all [seq, Disposal.Within, within_product, Local.Within]
  | _ => simp_all [Disposal.code, seq, Disposal.Within, Local.Within]

/-- A declaration names its local only. -/
theorem within_declareCode {l : Local} (h : l.Within m n) (type : String) (zeroed : Bool)
    (remark : String) : Within m n (declareCode type l zeroed remark) := by
  cases l <;> simpa [declareCode] using h

end Code

/-- A statement speaks of its own labels only. -/
theorem Stmt.within_code {m n : Nat} {s : Stmt} (h : s.Within m n) : Code.Within m n s.code := by
  open Code in
  cases s with
  | declare type l zeroed remark => exact within_declareCode h type zeroed remark
  | getArray k type source =>
    simpa [Stmt.code, seq, sizeOfArgument, Local.Within, Stmt.Within, within_arraySource h] using h
  | call x d => exact within_disposal (within_call h.1 h.2.1) h.2.2
  | setArray k i type isComplex byRef l shape =>
    obtain ⟨hk, hl, hs⟩ := h
    cases byRef with
    | true => exact within_either hk (by simp [hk]) (within_setArrayCode hk hl hs)
    | false => exact within_setArrayCode hk hl hs
  | setNumber k l =>
    obtain ⟨hk, hl⟩ := h
    exact within_either trivial (by simp [seq, hk, hl]) (by simp [seq, hk, hl])
  | setComplex k type l =>
    obtain ⟨hk, hl⟩ := h
    exact within_either trivial (by simp [seq, hk, hl]) (by simp [seq, hk, hl])
  | getObject k type source =>
    cases source <;> simpa [Stmt.code, seq, leaveOnError, Local.Within, Stmt.Within] using h
  | getNumber k type =>
    simp only [Stmt.code]
    split <;> simpa [seq, classCheck, leaveOnError, Local.Within, Stmt.Within] using h
  | allocGpuArray k type isComplex rows cols =>
    cases cols <;> simp_all [Stmt.code, seq, Local.Within, Stmt.Within]
  | _ =>
    simp_all [Stmt.code, seq, sizeOfArgument, classCheck, leaveOnError, Local.Within, Stmt.Within,
      within_product]

/-! ## Labels in the plan -/

/-- A variable whose labels are places in the lists of the call, as far as it travels. -/
structure Variable.Placed (m n : Nat) (v : Variable) : Prop where
  direction : v.direction = .input ∨ v.direction = .output ∨ v.direction = .inout
  input : v.direction.isInput = true → Place m v.inLabel
  output : v.direction.isOutput = true → Place n v.outLabel
  dims : ∀ d ∈ v.dims, Place m d.label

namespace Variable

variable {m n : Nat} {t : TypeTable} {v : Variable} {s : Stmt} {isResult : Bool}

theorem Placed.inLabel (h : v.Placed m n) (hd : v.direction ≠ .output) : Place m v.inLabel := by
  refine h.input ?_
  rcases h.direction with e | e | e <;> simp_all [Direction.isInput]

theorem Placed.outLabel (h : v.Placed m n) (hd : v.direction ≠ .input) : Place n v.outLabel := by
  refine h.output ?_
  rcases h.direction with e | e | e <;> simp_all [Direction.isOutput]

theorem Placed.holder (h : v.Placed m n) : v.holder.Within m n := by
  unfold Variable.holder
  split
  · exact h.outLabel (by simp [*])
  · exact h.inLabel ‹_›

theorem within_actual (h : v.Placed m n) : v.actual.Within m n := by
  have hholder := h.holder
  unfold actual
  split
  case h_3 =>
    split
    · exact h.outLabel (by simp [*])
    · exact hholder
  case h_5 => trivial
  all_goals exact hholder

theorem within_ofDims {i : Int} {ds : List Int} (hds : ∀ d ∈ ds, Place m d)
    (hi : ds = [] → Place m i) : (Shape.ofDims ds).Within m i := by
  unfold Shape.ofDims
  split
  · exact hi rfl
  · exact ⟨hds _ (by simp), hds _ (by simp)⟩
  · exact hds

/-- An array without dimensions takes them from the argument passed in, so there must be one. -/
theorem Makes.within {g : Stage} (hs : v.Makes t isResult g s) (h : v.Placed m n)
    (hsized : v.kind.isArray = true ∨ v.kind = .arrayRef → v.direction = .output → v.dims ≠ []) :
    s.Within m n := by
  have hin := h.inLabel
  have hout := h.outLabel
  have hholder := h.holder
  have hdims := h.dims
  cases hs with
  | setArray hd hk =>
    have hkind : v.kind.isArray = true ∨ v.kind = .arrayRef := by
      split at hk
      · exact Or.inr hk
      · exact Or.inl hk
    have hempty (e : v.dims = []) : Place m v.inLabel := hin fun ho => hsized hkind ho e
    refine ⟨hout hd, ?_, within_ofDims (by simpa using hdims) (by simpa using hempty)⟩
    split
    · exact hempty ‹_›
    · exact hholder
  | allocGpuArray hd hg hm hn =>
    have hlabels : ∀ d ∈ v.dims.map (·.label), Place m d := by simpa using hdims
    exact ⟨hout (by simp [hd]), hlabels _ hm, fun k hk => hlabels k (hn k hk)⟩
  | _ => simp_all [Stmt.Within, Local.Within]

/-- What becomes of a result that has the first place on the left. -/
theorem within_disposal (h : v.Placed m n) (h0 : Place n 0) {d : Disposal}
    (hd : v.disposal t = .ok (some d)) : d.Within m n := by
  cases disposes_disposal hd with
  | copiedArray hk => exact ⟨h0, by simpa using h.dims⟩
  | _ => exact h0

end Variable

/-! ## The statements of a stub -/

/-- A routine that the generator can handle, called with `m` right-hand and `n` left-hand
arguments. -/
structure Routine.Sound (m n : Nat) (r : Routine) : Prop where
  receiver : r.receiver?.isSome = true → Place m 0
  placed : ∀ v ∈ r.results ++ r.args, v.Placed m n
  args : ∀ v ∈ r.args, v.SoundArg
  results : ∀ v ∈ r.results, v.SoundResult
  returned : r.results = [] ∨ ∃ v, r.results = [v] ∧ v.direction = .output ∧ v.outLabel = 0
  left : outLabels (r.results ++ r.args) = labelsFrom 0 n

namespace Routine

variable {m n : Nat} {c : Context} {r : Routine} {s : Stmt} {ss : List Stmt}

theorem Sound.placed_arg (h : r.Sound m n) {v : Variable} (hv : v ∈ r.args) : v.Placed m n :=
  h.placed v (List.mem_append_right _ hv)

theorem Sound.placed_kept (h : r.Sound m n) {v : Variable} (hv : v ∈ r.keptResults) :
    v.Placed m n := h.placed v (List.mem_append_left _ (mem_of_keptResults hv))

/-- A result kept in a local is no array. -/
theorem Sound.kept_sized (h : r.Sound m n) {v : Variable} (hv : v ∈ r.keptResults) :
    v.kind.isArray = true ∨ v.kind = .arrayRef → v.direction = .output → v.dims ≠ [] := by
  rintro hk -
  have hres := (h.results v (mem_of_keptResults hv)).arrayRef
  rcases h.returned with e | ⟨w, e, -⟩
  · simp [keptResults, e] at hv
  · unfold keptResults nullableReturn at hv
    rw [e] at hv
    cases hw : w.kind <;> simp_all [Kind.isNullable, Kind.isArray]

theorem Sound.first_place (h : r.Sound m n) {v : Variable} (hv : r.results = [v]) : Place n 0 := by
  rcases h.returned with e | ⟨w, e, ho, h0⟩
  · simp [e] at hv
  · have := (h.placed w (by simp [e])).outLabel (by simp [ho])
    rwa [h0] at this

/-- A sound routine is called, and its value goes somewhere. -/
theorem Sound.disposal (h : r.Sound m n) {t : TypeTable} {d : Option Disposal}
    (hd : r.disposal t = .ok d) :
    ∃ d', d = some d' ∧ d'.Within m n := by
  rcases h.returned with e | ⟨v, e, -⟩
  · rw [Routine.disposal, e] at hd
    cases hd
    exact ⟨_, rfl, trivial⟩
  · rw [Routine.disposal, e] at hd
    cases d with
    | some d =>
      exact ⟨d, rfl, Variable.within_disposal (h.placed v (by simp [e])) (h.first_place e) hd⟩
    | none => exact absurd hd (Variable.disposal_ne_none (h.results v (by simp [e])))

theorem Sound.makes_within (h : r.Sound m n) {t : TypeTable} {g : Option Stage}
    (hs : r.Makes t g s) : s.Within m n := by
  cases hs with
  | receiver hthis => exact h.receiver (by simp [hthis])
  | declareDim hv hd => exact (h.placed _ hv).dims _ hd
  | getDim hv hd => exact (h.placed _ hv).dims _ hd
  | getObject hthis => exact h.receiver hthis
  | checkReceiver hthis => exact h.receiver hthis
  | arg hv hs => exact hs.within (h.placed_arg hv) (h.args _ hv).sized
  | result hv hs => exact hs.within (h.placed_kept hv) (h.kept_sized hv)
  | call hd =>
    obtain ⟨d, e, hwithin⟩ := h.disposal hd
    cases e
    refine ⟨h.receiver, fun x hx => ?_, hwithin⟩
    obtain ⟨v, hv, rfl⟩ := List.mem_map.1 hx
    exact Variable.within_actual (h.placed_arg hv)
  | _ => trivial

/-- **Every label in the plan of a sound routine is a place in the lists of its call.** -/
theorem Sound.within (h : r.Sound m n) (hss : r.mainStatements c = .ok ss) :
    ∀ s ∈ ss ++ r.releases c.types, s.Within m n := by
  intro s hs
  obtain ⟨g, hs⟩ := makes_mainStatements hss s hs
  exact h.makes_within hs

end Routine

/-! ## Left-hand arguments -/

/-- Only the call and the statements after it set anything. -/
theorem Stmt.sets_of_stage {s : Stmt} (hc : s.stage ≠ some .call) (hw : s.stage ≠ some .write) :
    s.sets = [] := by
  cases s <;> simp_all [Stmt.stage, Stmt.sets]

theorem flatMap_sets_of_stage {ss : List Stmt} {st : Option Stage}
    (h : ∀ s ∈ ss, s.stage = st ∨ s = .blank) (hc : st ≠ some .call) (hw : st ≠ some .write) :
    ss.flatMap Stmt.sets = [] := by
  rw [List.flatMap_eq_nil_iff]
  intro s hs
  rcases h s hs with e | rfl
  · exact s.sets_of_stage (e ▸ hc) (e ▸ hw)
  · rfl

def Stmt.isCall : Stmt → Bool
  | .call _ _ => true
  | _ => false

theorem Stmt.isCall_of_stage {s : Stmt} (hc : s.stage ≠ some .call) : s.isCall = false := by
  cases s <;> simp_all [Stmt.stage, Stmt.isCall]

theorem filter_isCall_of_stage {ss : List Stmt} {st : Option Stage}
    (h : ∀ s ∈ ss, s.stage = st ∨ s = .blank) (hc : st ≠ some .call) :
    ss.filter Stmt.isCall = [] := by
  rw [List.filter_eq_nil_iff]
  intro s hs
  rcases h s hs with e | rfl
  · simp [Stmt.isCall_of_stage (e ▸ hc)]
  · simp [Stmt.isCall]

namespace Variable

variable {t : TypeTable} {v : Variable} {ss : List Stmt}

/-- What stands as a literal in the call is the name of a variable. -/
theorem name_of_actual {s : String} (h : v.actual = .literal s) : v.name = s := by
  unfold actual at h
  split at h
  case h_3 => split at h <;> cases h
  case h_5 => exact Actual.literal.inj h
  all_goals cases h

theorem sets_actual :
    v.actual.sets = if v.kind = .mx ∧ v.direction = .output then [v.outLabel] else [] := by
  unfold actual
  split
  case h_3 => by_cases hd : v.direction = .output <;> simp [*, Actual.sets]
  all_goals simp_all [Actual.sets]

theorem sets_setArray {byRef : Bool} (h : v.setArray byRef = .ok ss) :
    ss.flatMap Stmt.sets = [v.outLabel] := by
  obtain ⟨ds, -, h⟩ := bind_eq_ok.1 h
  cases h
  rfl

theorem sets_setGpu (h : v.direction.isOutput = true) :
    v.setGpu.flatMap Stmt.sets = [v.outLabel] := by
  unfold setGpu
  cases hd : v.direction <;> simp_all [Direction.isOutput, Stmt.sets]

/-- What is set after the call for a variable that is handed back. -/
theorem sets_setResult {isResult : Bool} (ho : v.direction.isOutput = true)
    (h : v.setResult t isResult = .ok ss) :
    ss.flatMap Stmt.sets =
      if v.kind = .unknown ∨ v.kind = .mx ∨ v.kind = .const then []
      else if isResult = true ∧ v.kind.isObject = true ∧ t.isMxArray v.type = true then []
      else [v.outLabel] := by
  have hd : v.direction ≠ .input := by rintro e; simp [e, Direction.isOutput] at ho
  unfold setResult at h
  rw [if_neg hd] at h
  cases hk : v.kind with
  | object k =>
    simp only [hk] at h
    split at h
    · split at h <;> cases h <;> simp_all [Stmt.sets, Kind.isObject]
    · cases h
      simp_all [Stmt.sets]
  | array f =>
    simp only [hk] at h
    split at h
    · cases h; simp [sets_setGpu ho, Kind.isObject]
    · simp [sets_setArray h, Kind.isObject]
  | arrayRef =>
    simp only [hk] at h
    split at h
    · cases h; simp [sets_setGpu ho, Kind.isObject]
    · simp [sets_setArray h, Kind.isObject]
  | number f k => cases f <;> simp_all [Kind.isObject] <;> cases h <;> rfl
  | string => simp only [hk] at h; cases h; simp [Stmt.sets, Kind.isObject]
  | _ => simp only [hk] at h; cases h; simp

/-- What the call itself sets. -/
theorem sets_disposal {d : Disposal} (h : v.disposal t = .ok (some d)) :
    d.sets = if v.kind.isNullable = true ∨ v.kind = .mx ∨
      v.kind.isObject = true ∧ t.isMxArray v.type = true then [0] else [] := by
  cases disposes_disposal h with
  | keptNumber hk hm => simp [Disposal.sets, hk, hm, Kind.isObject, Kind.isNullable]
  | _ hk => simp [Disposal.sets, *, Kind.isObject, Kind.isNullable]

/-- Each argument is handed back once: by the function that fills its slot, or after the call. -/
theorem sets_arg (hv : v.SoundArg)
    (hdir : v.direction = .input ∨ v.direction = .output ∨ v.direction = .inout)
    (h : v.setResult t false = .ok ss) :
    v.actual.sets ++ ss.flatMap Stmt.sets = if v.direction.isOutput then [v.outLabel] else [] := by
  obtain ⟨hunknown, hconst, hmx, -⟩ := hv
  rw [sets_actual]
  rcases hdir with e | e | e
  · unfold setResult at h
    rw [if_pos e] at h
    cases h
    simp [e, Direction.isOutput]
  · rw [sets_setResult (by simp [e, Direction.isOutput]) h]
    grind [Direction.isOutput]
  · rw [sets_setResult (by simp [e, Direction.isOutput]) h]
    grind [Direction.isOutput]

end Variable

namespace Routine

variable {m n : Nat} {c : Context} {r : Routine} {ss ws : List Stmt}

/-- The value of the call is handed back once: by the call, or after it. -/
theorem Sound.sets_results (h : r.Sound m n) {d : Disposal} (hd : r.disposal c.types = .ok (some d))
    (hw : ∀ v ∈ r.keptResults, v.setResult c.types true = .ok (made (v.setResult c.types true))) :
    d.sets ++ (r.keptResults.flatMap fun v => made (v.setResult c.types true)).flatMap Stmt.sets
      = outLabels r.results := by
  rcases h.returned with e | ⟨v, e, ho, h0⟩
  · simp [Routine.disposal, keptResults, e] at hd ⊢
    subst hd
    rfl
  · have hd' : v.disposal c.types = .ok (some d) := by simpa [Routine.disposal, e] using hd
    have hv := h.results v (by simp [e])
    have hout : outLabels r.results = [0] := by simp [e, outLabels, ho, Direction.isOutput, h0]
    rw [hout, Variable.sets_disposal hd']
    cases hn : v.kind.isNullable with
    | true => simp [keptResults, nullableReturn, e, hn]
    | false =>
      have hkept : r.keptResults = [v] := by simp [keptResults, nullableReturn, e, hn]
      have hset := Variable.sets_setResult (by simp [ho, Direction.isOutput])
        (hw v (by simp [hkept]))
      simp only [hkept, List.flatMap_cons, List.flatMap_nil, List.append_nil]
      rw [hset, h0]
      obtain ⟨h1, h2, -⟩ := hv
      grind

theorem sets_callStatements (hcs : r.callStatements c = .ok ss) {d : Disposal}
    (hd : r.disposal c.types = .ok (some d)) :
    ss.flatMap Stmt.sets = d.sets ++ r.args.flatMap (·.actual.sets) := by
  obtain ⟨d', hd', rfl⟩ := callStatements_eq_ok hcs
  rw [hd] at hd'
  cases hd'
  cases r.receiver?.isSome <;> cases c.settings.catches <;>
    simp [Stmt.sets, Routine.call, List.flatMap_map]

theorem outLabels_eq_flatMap (vs : List Variable) :
    outLabels vs = vs.flatMap fun v => if v.direction.isOutput then [v.outLabel] else [] := by
  induction vs with
  | nil => rfl
  | cons v vs ih =>
    rw [List.flatMap_cons, ← ih]
    cases hv : v.direction.isOutput <;> simp [outLabels, hv]

theorem Sound.sets_args (h : r.Sound m n)
    (hw : ∀ v ∈ r.args, v.setResult c.types false = .ok (made (v.setResult c.types false))) :
    (r.args.flatMap (·.actual.sets)
      ++ (r.args.flatMap fun v => made (v.setResult c.types false)).flatMap Stmt.sets).Perm
      (outLabels r.args) := by
  rw [List.flatMap_assoc]
  refine (List.flatMap_append_perm ..).trans (.of_eq ?_)
  have hone : ∀ v ∈ r.args, v.actual.sets ++ (made (v.setResult c.types false)).flatMap Stmt.sets
      = if v.direction.isOutput then [v.outLabel] else [] := fun v hv =>
    Variable.sets_arg (h.args v hv) (h.placed_arg hv).direction (hw v hv)
  rw [outLabels_eq_flatMap]
  exact List.flatMap_congr hone

/-- **Every left-hand argument is set once.** -/
theorem Sound.sets (h : r.Sound m n) (hss : r.mainStatements c = .ok ss) :
    (ss.flatMap Stmt.sets).Perm (labelsFrom 0 n) := by
  obtain ⟨-, -, ⟨cs, hcs⟩, ⟨ws, hws⟩, rfl⟩ := mainStatements_eq_ok hss
  -- up to the call nothing is set
  have hbefore : (made r.declarations ++ r.dimReads ++ r.dimChecks ++ r.inputReads c.types
      ++ r.inputChecks ++ made (r.allocations c.types)
      ++ [Stmt.recordCall r.id]).flatMap Stmt.sets = [] := by
    simp only [List.flatMap_append]
    rw [flatMap_sets_of_stage (fun s => stage_declarations) (by decide) (by decide),
      flatMap_sets_of_stage (fun s => stage_dimReads) (by decide) (by decide),
      flatMap_sets_of_stage (fun s hs => Or.inl (stage_dimChecks hs)) (by decide) (by decide),
      flatMap_sets_of_stage (fun s hs => Or.inl (stage_inputReads hs)) (by decide) (by decide),
      flatMap_sets_of_stage (fun s hs => Or.inl (stage_inputChecks hs)) (by decide) (by decide),
      flatMap_sets_of_stage (fun s hs => Or.inl (stage_allocations hs)) (by decide) (by decide)]
    rfl
  obtain ⟨d, hd, -⟩ := callStatements_eq_ok hcs
  obtain ⟨d, rfl, -⟩ := h.disposal hd
  obtain ⟨rfl, hkept, hargs⟩ := resultWrites_eq_ok hws
  rw [hcs, hws, made_ok, made_ok, List.flatMap_append, List.flatMap_append, hbefore,
    List.nil_append, sets_callStatements hcs hd, List.flatMap_append]
  rw [← h.left, outLabels_append, ← h.sets_results hd hkept, List.append_assoc, List.append_assoc]
  refine List.Perm.append_left _ ((List.perm_append_comm_assoc ..).trans ?_)
  exact List.Perm.append_left _ (h.sets_args hargs)

/-- The one call of a stub does with the value what the results ask for. -/
theorem Sound.call_disposes (h : r.Sound m n) (hss : r.mainStatements c = .ok ss) :
    ∃ d, r.disposal c.types = .ok (some d) ∧
      (ss ++ r.releases c.types).filter Stmt.isCall = [.call r.call d] := by
  obtain ⟨-, -, ⟨cs, hcs⟩, -, rfl⟩ := mainStatements_eq_ok hss
  obtain ⟨d, hd, hcs'⟩ := callStatements_eq_ok hcs
  obtain ⟨d, rfl, -⟩ := h.disposal hd
  refine ⟨d, hd, ?_⟩
  have hcalls : cs.filter Stmt.isCall = [.call r.call d] := by
    rw [hcs']
    cases r.receiver?.isSome <;> cases c.settings.catches <;> rfl
  rw [hcs, made_ok]
  simp only [List.filter_append, hcalls]
  rw [filter_isCall_of_stage (fun s => stage_declarations) (by decide),
    filter_isCall_of_stage (fun s => stage_dimReads) (by decide),
    filter_isCall_of_stage (fun s hs => Or.inl (stage_dimChecks hs)) (by decide),
    filter_isCall_of_stage (fun s hs => Or.inl (stage_inputReads hs)) (by decide),
    filter_isCall_of_stage (fun s hs => Or.inl (stage_inputChecks hs)) (by decide),
    filter_isCall_of_stage (fun s hs => Or.inl (stage_allocations hs)) (by decide),
    filter_isCall_of_stage (fun s hs => Or.inl (stage_resultWrites hs)) (by decide),
    filter_isCall_of_stage (fun s hs => Or.inl (stage_releases hs)) (by decide)]
  rfl

end Routine

/-! ## The call in the code -/

/-- How the texts in a stub start that start with a name, the call of the wrapped function apart. -/
def ownStarts : List String := ["mxGetM(", "mxWrapGet_", "mxWrapGetP_", "real_", "imag_"]

/-- A text that starts with no name, or like one that stubs use on their own account. -/
def startsOwn (s : String) : Bool :=
  s.toList.head?.any (!Token.isNameHead ·) || ownStarts.any fun p => p.toList.isPrefixOf s.toList

@[simp] theorem startsOwn_append {a : String} (h : startsOwn a = true) (b : String) :
    startsOwn (a ++ b) = true := by
  rcases (Bool.or_eq_true_iff ..).1 h with h | h
  · cases e : a.toList <;> simp_all [startsOwn]
  · obtain ⟨p, hp, hpre⟩ := List.any_eq_true.1 h
    have hpre' : p.toList <+: (a ++ b).toList := by
      rw [String.toList_append]
      exact (List.isPrefixOf_iff_prefix.1 hpre).trans (List.prefix_append ..)
    refine (Bool.or_eq_true_iff ..).2 (Or.inr (List.any_eq_true.2 ⟨p, hp, ?_⟩))
    exact List.isPrefixOf_iff_prefix.2 hpre'

def Piece.isOwn : Piece → Bool
  | .text s => startsOwn s
  | _ => true

namespace Code

open Piece

/-- The pieces of code that are not the stub's own. -/
def foreign (c : Code) : Code := c.filter (!·.isOwn)

@[simp] theorem foreign_nil : foreign [] = [] := rfl

@[simp] theorem foreign_cons (x : Piece) (c : Code) :
    foreign (x :: c) = if x.isOwn then foreign c else x :: foreign c := by
  cases h : x.isOwn <;> simp [foreign, h]

@[simp] theorem foreign_append (a b : Code) : foreign (a ++ b) = foreign a ++ foreign b :=
  List.filter_append ..

@[simp] theorem foreign_product (ds : List Int) : foreign (product ds) = [] := by
  fun_induction product ds <;> simp +decide [isOwn, *]

theorem foreign_disposal (a : Code) (d : Disposal) : foreign (d.code a) = foreign a := by
  cases d with
  | copiedArray t ds =>
    simp only [Disposal.code]
    split <;> simp +decide [seq, isOwn, String.append_assoc]
  | _ => simp +decide [Disposal.code, seq, isOwn, String.append_assoc]

/-- Every piece of a statement is the stub's own, unless it calls the wrapped function. -/
theorem foreign_code {s : Stmt} (h : s.isCall = false) : foreign s.code = [] := by
  cases s with
  | declare type l zeroed remark =>
    cases l <;> cases zeroed <;>
      simp +decide [Stmt.code, declareCode, isOwn, String.append_assoc]
  | call x d => cases h
  | getArray k type source =>
    cases source <;> by_cases htype : type = "double" <;>
      simp +decide [Stmt.code, seq, either, sizeOfArgument, classCheck, ArraySource.code, isOwn,
        htype, String.append_assoc]
  | getObject k type source =>
    cases source <;> simp +decide [Stmt.code, seq, leaveOnError, isOwn, String.append_assoc]
  | getNumber k type =>
    by_cases htype : type = "char" <;>
      simp +decide [Stmt.code, seq, classCheck, leaveOnError, isOwn, htype, String.append_assoc]
  | allocGpuArray k type isComplex rows cols =>
    cases cols <;> simp +decide [Stmt.code, seq, isOwn, String.append_assoc]
  | setArray k i type isComplex byRef l shape =>
    cases byRef <;> cases shape <;> cases hsingle : (Numeric.ofType type).single <;>
      simp +decide [Stmt.code, setArrayCode, seq, either, Shape.extent, Shape.count,
        sizeOfArgument, isOwn, hsingle, String.append_assoc]
  | _ =>
    simp +decide [Stmt.code, seq, either, sizeOfArgument, classCheck, leaveOnError, isOwn,
      String.append_assoc]

theorem foreign_flatMap (ss : List Stmt) :
    foreign (ss.flatMap Stmt.code) = foreign ((ss.filter Stmt.isCall).flatMap Stmt.code) := by
  induction ss with
  | nil => rfl
  | cons s ss ih => cases h : s.isCall <;> simp [h, ih, foreign_code]

/-- The call names the function once, unless a constant among its arguments is spelled so. -/
theorem count_call {x : Call} (h : startsOwn (x.callee.text ++ "(") = false)
    (hargs : .literal (x.callee.text ++ "(") ∉ x.args) :
    (foreign x.code).count (.text (x.callee.text ++ "(")) = 1 := by
  have hpieces : ∀ y ∈ List.intercalate [Piece.text ", "] (x.args.map (·.code)), ∀ s,
      y = .text s → startsOwn s = true ∨ .literal s ∈ x.args := by
    refine forall_actuals (by simp +decide) fun a ha => ?_
    cases a <;> simp_all +decide [Actual.code]
  have hnone : .text (x.callee.text ++ "(") ∉
      foreign (List.intercalate [Piece.text ", "] (x.args.map (·.code))) := by
    intro hmem
    have := hpieces _ (List.mem_filter.1 hmem).1 _ rfl
    simp [h, hargs] at this
  cases hm : x.method <;>
    simp +decide [Call.code, seq, hm, isOwn, h, List.count_eq_zero.2 hnone]

end Code

/-- **The function is called once**, in the code as among the statements. -/
theorem Routine.Sound.called_once {c : Context} {r : Routine} {m n : Nat} {ss : List Stmt}
    (h : r.Sound m n) (hss : r.mainStatements c = .ok ss) :
    (∃ d, (ss ++ r.releases c.types).filter Stmt.isCall = [.call r.call d]) ∧
    (startsOwn (r.call.callee.text ++ "(") = false →
      (∀ v ∈ r.args, v.name ≠ r.call.callee.text ++ "(") →
      ((ss ++ r.releases c.types).flatMap Stmt.code).count
        (.text (r.call.callee.text ++ "(")) = 1) := by
  obtain ⟨d, -, hcalls⟩ := h.call_disposes hss
  refine ⟨⟨d, hcalls⟩, fun hown hnames => ?_⟩
  have hargs : .literal (r.call.callee.text ++ "(") ∉ r.call.args := by
    intro hmem
    obtain ⟨v, hv, hactual⟩ := List.mem_map.1 hmem
    exact hnames v hv (Variable.name_of_actual hactual)
  have hforeign := Code.foreign_flatMap (ss ++ r.releases c.types)
  rw [hcalls, List.flatMap_singleton, Stmt.code, Code.foreign_disposal] at hforeign
  rw [← Code.count_call hown hargs, ← hforeign, Code.foreign, List.count_filter]
  simp [Piece.isOwn, hown]

/-! ## Checked routines -/

theorem Routine.sound_check {Q : String → Prop} {t : TypeTable} {r s : Routine} (hr : r.Written Q)
    (h : (r.check t).errors = 0) (hs : (r.check t).value = s) :
    s.Sound s.inputTexts.length s.outputNames.length := by
  have hp := hs ▸ passed_of_errors hr h
  have hw := hp.written hr.labelled
  obtain ⟨hright, hleft⟩ := places_check hr h hs
  -- Places are numbered from 0 without gaps, so each one lies within its list.
  have hin : ∀ j ∈ s.rightPlaces, Place s.inputTexts.length j := by
    intro j hj
    rw [hright, mem_labelsFrom] at hj
    simpa [Place] using hj
  have hout : ∀ j ∈ outLabels (s.results ++ s.args), Place s.outputNames.length j := by
    intro j hj
    rw [hleft, mem_labelsFrom] at hj
    simpa [Place] using hj
  refine ⟨?_, ?_, hp.soundArg, hp.soundResult, ?_, hleft⟩
  · intro hthis
    obtain ⟨this, hthis⟩ := Option.isSome_iff_exists.1 hthis
    exact hin 0 (by simp [rightPlaces, hthis])
  · intro v hv
    refine ⟨?_, ?_, ?_, ?_⟩
    · rcases List.mem_append.1 hv with hv | hv
      · exact (hw.results v hv).direction
      · exact (hw.args v hv).direction
    · intro hi
      rcases List.mem_append.1 hv with hv | hv
      · simp [(hw.results v hv).output, Direction.isInput] at hi
      · refine hin _ (List.mem_append_left _ (List.mem_append_right _ ?_))
        exact List.mem_map_of_mem (List.mem_filter.2 ⟨hv, hi⟩)
    · intro ho
      exact hout _ (List.mem_map_of_mem (List.mem_filter.2 ⟨hv, ho⟩))
    · intro d hd
      refine hin _ (List.mem_append_right _ ?_)
      exact List.mem_map_of_mem (List.mem_flatMap.2 ⟨v, hv, hd⟩)
  · have hsingle := hw.single
    cases hres : s.results with
    | nil => exact Or.inl rfl
    | cons v vs =>
      have hvs : vs = [] := List.eq_nil_of_length_eq_zero (by simpa [hres] using hsingle)
      subst hvs
      have ho := (hw.results v (by simp [hres])).output
      refine Or.inr ⟨v, rfl, ho, ?_⟩
      rw [hres, List.singleton_append, outLabels,
        List.filter_cons_of_pos (by simp [ho, Direction.isOutput]),
        List.map_cons] at hleft
      cases hn : s.outputNames.length with
      | zero => simp [hn, labelsFrom] at hleft
      | succ n =>
        rw [hn, labelsFrom_succ] at hleft
        exact (List.cons.inj hleft).1

theorem Routine.sets_releases (t : TypeTable) (r : Routine) :
    (r.releases t).flatMap Stmt.sets = [] :=
  flatMap_sets_of_stage (fun _ hs => Or.inl (stage_releases hs)) (by decide) (by decide)

theorem count_labelsFrom (n : Nat) (k : Int) :
    (labelsFrom 0 n).count k = if 0 ≤ k ∧ k < n then 1 else 0 := by
  rw [(nodup_labelsFrom 0 n).count]
  simp [mem_labelsFrom]

theorem Group.stub_eq_ok {c : Context} {g : Group} {text : String} (h : g.stub c = .ok text) :
    ∃ signature main, g.first.mainStatements c = .ok main ∧
      text = g.stubHead signature ++ Code.render (main.flatMap Stmt.code) ++ "\nmw_err_label:\n"
        ++ Code.render ((g.first.releases c.types).flatMap Stmt.code) ++ stubTail := by
  obtain ⟨signature, -, h⟩ := bind_eq_ok.1 h
  obtain ⟨main, hmain, h⟩ := bind_eq_ok.1 h
  refine ⟨signature, main, hmain, ?_⟩
  rw [render_flatMap, render_flatMap]
  exact (Except.ok.inj h).symm

namespace Ledger

/-- **Index discipline.** For a declaration checked without errors in any state, and a stub written
for it in any context: all indices in the code are places in the lists of the MATLAB call, the
function is called once, and on every path each left-hand argument is set once and nothing else
is set. That the code calls it once is said of a function whose name starts like none that stubs
use, if no argument is spelled like the call. -/
theorem stub_indices {file : String} {ts : List Token} {r : Routine}
    (hparse : Statement.parse file ts = .ok (.call r)) (l : Ledger) (h : (l.checked r).errors = 0)
    {c : Context} {g : Group} {text : String} (hg : g.first = (l.checked r).value)
    (hstub : g.stub c = .ok text) :
    ∃ signature main, g.first.mainStatements c = .ok main ∧
      text = g.stubHead signature ++ Code.render (main.flatMap Stmt.code) ++ "\nmw_err_label:\n"
        ++ Code.render ((g.first.releases c.types).flatMap Stmt.code) ++ Group.stubTail ∧
      Code.Within g.first.inputTexts.length g.first.outputNames.length
        ((main ++ g.first.releases c.types).flatMap Stmt.code) ∧
      (∃ d, (main ++ g.first.releases c.types).filter Stmt.isCall = [.call g.first.call d]) ∧
      (startsOwn (g.first.call.callee.text ++ "(") = false →
        (∀ v ∈ g.first.args, v.name ≠ g.first.call.callee.text ++ "(") →
        ((main ++ g.first.releases c.types).flatMap Stmt.code).count
          (.text (g.first.call.callee.text ++ "(")) = 1) ∧
      ∀ (p : Path) (k : Int),
        (Code.sets (Code.along p [] ((main ++ g.first.releases c.types).flatMap Stmt.code))).count k
          = if 0 ≤ k ∧ k < g.first.outputNames.length then 1 else 0 := by
  have hr : r.Written fun _ => True := Statement.written_of_parse (fun _ _ _ => trivial) hparse
  have hr' := written_promote (p := l.context.settings.promotion) (fun _ _ => trivial) hr
    (l.count + 1)
  have hsound := Routine.sound_check hr' h hg.symm
  obtain ⟨signature, main, hmain, htext⟩ := Group.stub_eq_ok hstub
  obtain ⟨hcall, hcode⟩ := hsound.called_once hmain
  refine ⟨signature, main, hmain, htext, ?_, hcall, hcode, ?_⟩
  · intro x hx
    obtain ⟨s, hs, hx⟩ := List.mem_flatMap.1 hx
    exact Stmt.within_code (hsound.within hmain s hs) x hx
  · intro p k
    rw [sets_along, List.flatMap_append, Routine.sets_releases, List.append_nil,
      (hsound.sets hmain).count_eq, count_labelsFrom]

theorem stub_indices_scaleRoutine :
    let g : Group := { first := (({} : Ledger).checked scaleRoutine).value }
    (∃ text, g.stub {} = .ok text) ∧ (({} : Ledger).checked scaleRoutine).errors = 0 ∧
      g.first.inputTexts.length = 7 ∧ g.first.outputNames.length = 3 ∧
      ∃ main, g.first.mainStatements {} = .ok main ∧
        Code.Within 7 3 ((main ++ g.first.releases {}).flatMap Stmt.code) ∧
        ((main ++ g.first.releases {}).flatMap Stmt.code).count (.text "scale(") = 1 ∧
        ∀ (p : Path) (k : Int),
          (Code.sets (Code.along p [] ((main ++ g.first.releases {}).flatMap Stmt.code))).count k
            = if 0 ≤ k ∧ k < 3 then 1 else 0 := by
  intro g
  have hm : g.first.inputTexts.length = 7 := by decide +kernel
  have hn : g.first.outputNames.length = 3 := by decide +kernel
  obtain ⟨text, htext⟩ : ∃ text, g.stub {} = .ok text := by
    have hok : (g.stub {}).toBool = true := by decide +kernel
    cases h : g.stub {} with
    | ok text => exact ⟨text, rfl⟩
    | error e => simp [h, Except.toBool] at hok
  obtain ⟨_, main, hmain, -, hwithin, -, hcalled, hsets⟩ :=
    stub_indices parse_scaleTokens {} errors_scaleRoutine (g := g) rfl htext
  have hcallee : g.first.call.callee.text ++ "(" = "scale(" := by decide +kernel
  rw [hcallee] at hcalled
  rw [hm, hn] at hwithin
  rw [hn] at hsets
  exact ⟨⟨text, htext⟩, errors_scaleRoutine, hm, hn, main, hmain, hwithin,
    hcalled (by decide +kernel) (by decide +kernel), hsets⟩

end Ledger

end MexBridge
