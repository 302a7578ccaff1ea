import MexBridge.Proofs.Stub.Completion

/-!
# The locals of a variable

Each stage of a stub chooses the variables it handles by conditions of its own. What a stage names
of a variable is covered by the declarations made for it (`Variable.locals`), provided that only
arrays live on the GPU and that references to arrays are outputs (`Variable.Usable`).

Texts that a declaration brings in (names of functions and types, constants) are not locals.
-/

namespace MexBridge

/-! ## Locals in code -/

/-- The locals that a piece of code names. -/
def Piece.locals : Piece → List Local
  | .loc l => [l]
  | .fork (.null l) => [l]
  | _ => []

def Code.locals (c : Code) : List Local := c.flatMap Piece.locals

def Actual.locals : Actual → List Local
  | .plain l => [l]
  | .deref l => [l]
  | .address l => [l]
  | .slot _ => []
  | .literal _ => []

def Shape.locals : Shape → List Local
  | .same => []
  | .column ds => ds.map .dim
  | .matrix m n => [.dim m, .dim n]

def Disposal.locals : Disposal → List Local
  | .kept => [.output 0]
  | .keptAddress => [.output 0]
  | .keptCopy _ => [.output 0]
  | .copiedArray _ ds => ds.map .dim
  | _ => []

/-- The locals that a statement names. -/
def Stmt.locals : Stmt → List Local
  | .declare _ l _ _ => [l]
  | .getDim k => [.dim k]
  | .checkMatrix _ m n _ => [.dim m, .dim n]
  | .checkLength _ n _ => [.dim n]
  | .getObject k .. => [.input k]
  | .getArray k .. => [.input k]
  | .getGpuArray k _ => [.gpuInput k, .input k]
  | .getString k => [.input k]
  | .getSizedString k ds => .input k :: ds.map .dim
  | .getNumber k _ => [.input k]
  | .getComplex k _ => [.input k]
  | .getMx k => [.input k]
  | .checkNonNull k _ => [.input k]
  | .allocObject k _ => [.output k]
  | .allocArray k _ ds => .output k :: ds.map .dim
  | .nullArray k _ => [.output k]
  | .allocString k ds => .output k :: ds.map .dim
  | .allocGpuArray k _ _ m n => [.gpuDims k, .gpuOutput k, .output k, .dim m] ++ n.toList.map .dim
  | .checkReceiver => [.input 0]
  | .call c d => (if c.method then [.input 0] else []) ++ c.args.flatMap Actual.locals ++ d.locals
  | .setConverted _ _ l => [l]
  | .setPointer k _ => [.output k]
  | .setArray k _ _ _ byRef l shape => (if byRef then [.output k] else []) ++ l :: shape.locals
  | .setNumber _ l => [l]
  | .setComplex _ _ l => [l]
  | .setString _ l => [l]
  | .setGpuArray k => [.gpuOutput k]
  | .free l => [l]
  | .freeConverted _ l => [l]
  | .destroyGpu l => [l]
  | _ => []

namespace Code

@[simp] theorem locals_nil : locals [] = [] := rfl

@[simp] theorem locals_cons (x : Piece) (c : Code) : locals (x :: c) = x.locals ++ locals c := rfl

@[simp] theorem locals_append (a b : Code) : locals (a ++ b) = locals a ++ locals b :=
  List.flatMap_append

@[simp] theorem locals_text (s : String) : (Piece.text s).locals = [] := rfl

@[simp] theorem locals_loc (l : Local) : (Piece.loc l).locals = [l] := rfl

@[simp] theorem locals_rhs (k : Int) : (Piece.rhs k).locals = [] := rfl

@[simp] theorem locals_lhs (k : Int) : (Piece.lhs k).locals = [] := rfl

@[simp] theorem locals_lhsAddress (k : Int) : (Piece.lhsAddress k).locals = [] := rfl

@[simp] theorem locals_product (ds : List Int) : locals (product ds) = ds.map .dim := by
  fun_induction product ds <;> simp_all

theorem locals_either (f : Fork) (a b : Code) :
    locals (either f a b) = (Piece.fork f).locals ++ locals a ++ locals b := by
  simp [either, seq, Piece.locals]

theorem locals_arraySource (k : Int) (type : String) (source : ArraySource) :
    ∀ l ∈ locals (source.code k type), l = .input k := by
  cases source with
  | inPlace =>
    intro l hl
    simp only [ArraySource.code, seq, classCheck, List.flatten_cons, List.flatten_nil,
      locals_append, locals_either] at hl
    split at hl <;> simpa [Piece.locals] using hl
  | _ => simp [ArraySource.code, seq, classCheck]

@[simp] theorem locals_extent (i : Int) (shape : Shape) :
    locals (shape.extent i) = shape.locals := by
  cases shape <;> simp [Shape.extent, Shape.locals, seq]

@[simp] theorem locals_count (i : Int) (shape : Shape) : locals (shape.count i) = shape.locals := by
  cases shape <;> simp [Shape.count, Shape.locals, sizeOfArgument]

theorem locals_setArrayCode (margin : String) (k i : Int) (type : String) (isComplex : Bool)
    (l : Local) (shape : Shape) :
    ∀ x ∈ locals (setArrayCode margin k i type isComplex l shape), x ∈ l :: shape.locals := by
  intro x hx
  cases h : (Numeric.ofType type).single <;> simp [setArrayCode, seq, h] at hx <;> grind

theorem locals_actuals (xs : List Actual) :
    locals (List.intercalate [Piece.text ", "] (xs.map (·.code))) = xs.flatMap Actual.locals := by
  induction xs with
  | nil => simp
  | cons x xs ih =>
    have hx : locals x.code = x.locals := by cases x <;> simp [Actual.code, Actual.locals]
    cases xs with
    | nil => simpa using hx
    | cons y ys =>
      simp only [List.map_cons] at ih ⊢
      rw [List.intercalate_cons_cons, locals_append, locals_append, hx, ih]
      simp

theorem locals_call (x : Call) :
    locals x.code = (if x.method then [.input 0] else []) ++ x.args.flatMap Actual.locals := by
  cases h : x.method <;> simp [Call.code, seq, h, locals_actuals]

theorem locals_disposal (a : Code) (d : Disposal) :
    ∀ l ∈ locals (d.code a), l ∈ locals a ++ d.locals := by
  intro l hl
  cases d with
  | copiedArray t ds =>
    simp only [Disposal.code] at hl
    split at hl <;> (simp [seq, Disposal.locals] at hl ⊢; grind)
  | _ =>
    simp [Disposal.code, seq, Disposal.locals] at hl ⊢
    grind

end Code

/-- The code of a statement names no other locals. -/
theorem Stmt.locals_code (s : Stmt) : ∀ l ∈ s.code.locals, l ∈ s.locals := by
  open Code in
  intro l hl
  cases s with
  | declare type l' zeroed remark =>
    cases l' <;> simpa [Stmt.code, declareCode, Stmt.locals] using hl
  | getArray k type source =>
    have hsource := locals_arraySource k type source
    simp only [Stmt.code, seq, sizeOfArgument, List.flatten_cons, List.flatten_nil, locals_append,
      List.mem_append] at hl
    simp [Stmt.locals] at hl ⊢
    grind
  | call x d =>
    have := locals_disposal x.code d l hl
    rwa [locals_call] at this
  | setArray k i type isComplex byRef l' shape =>
    have hset := fun margin => locals_setArrayCode margin k i type isComplex l' shape
    cases byRef with
    | true =>
      simp only [Stmt.code, if_true, locals_either] at hl
      simp [Piece.locals, Stmt.locals] at hl ⊢
      grind
    | false => exact hset _ l hl
  | setNumber k l' => simpa [Stmt.code, locals_either, seq, Stmt.locals, Piece.locals] using hl
  | setComplex k type l' =>
    simpa [Stmt.code, locals_either, seq, Stmt.locals, Piece.locals] using hl
  | getObject k type source =>
    cases source <;> simpa [Stmt.code, seq, leaveOnError, Stmt.locals] using hl
  | getNumber k type =>
    simp only [Stmt.code] at hl
    split at hl <;> simpa [seq, classCheck, leaveOnError, Stmt.locals] using hl
  | allocGpuArray k type isComplex rows cols =>
    cases cols <;> simp [Stmt.code, seq, Stmt.locals] at hl ⊢ <;> grind
  | _ =>
    simp [Stmt.code, seq, sizeOfArgument, classCheck, leaveOnError, Stmt.locals] at hl ⊢ <;> grind

/-! ## What a variable declares -/

namespace Variable

/-- Has the variable a pointer on the GPU, with handles to go with it? -/
def hasHandles (v : Variable) : Bool := v.kind.isPointerLocal && v.onGpu

def inputLocals (v : Variable) : List Local :=
  if v.direction = .output ∨ v.kind = .const then []
  else .input v.inLabel :: if v.hasHandles then [.gpuInput v.inLabel] else []

def outputLocals (v : Variable) : List Local :=
  if v.direction ≠ .output ∨ v.kind = .mx then []
  else .output v.outLabel ::
    if v.hasHandles then [.gpuOutput v.outLabel, .gpuDims v.outLabel] else []

def dimLocals (v : Variable) : List Local := v.dims.map fun d => .dim d.label

/-- The locals declared for a variable. -/
def locals (v : Variable) : List Local := v.inputLocals ++ v.outputLocals ++ v.dimLocals

variable {t : TypeTable} {v : Variable} {s : Stmt} {ss : List Stmt} {isResult : Bool}

/-! ## What each stage names is declared -/

/-- A variable whose locals suffice for all stages of a stub written with the types `t`. -/
structure Usable (t : TypeTable) (v : Variable) : Prop where
  onGpu : v.onGpu = true → v.kind.isArray = true
  arrayRef : v.kind = .arrayRef → v.direction = .output
  sized : v.kind.isArray = true ∨ v.kind = .arrayRef → v.direction = .output → v.dims ≠ []
  object : v.kind.isObject = true → v.direction = .output ∨ v.direction = .input ∨
    t.isMxArray v.type = true

theorem mem_input (hd : v.direction ≠ .output) (hk : v.kind ≠ .const) :
    .input v.inLabel ∈ v.locals := by
  simp [locals, inputLocals, hd, hk]

theorem mem_output (hd : v.direction = .output) (hk : v.kind ≠ .mx) :
    .output v.outLabel ∈ v.locals := by
  simp [locals, outputLocals, hd, hk]

theorem mem_handles (hg : v.onGpu = true) (hk : v.kind.isArray = true) :
    if v.direction = .output then
      .gpuOutput v.outLabel ∈ v.locals ∧ .gpuDims v.outLabel ∈ v.locals
    else .gpuInput v.inLabel ∈ v.locals := by
  obtain ⟨hconst, hmx⟩ := Kind.ne_of_isArray hk
  split
  · simp [locals, outputLocals, hasHandles, Kind.isPointerLocal, *]
  · simp [locals, inputLocals, hasHandles, Kind.isPointerLocal, *]

theorem mem_holder (hconst : v.kind ≠ .const) (hmx : v.direction = .output → v.kind ≠ .mx) :
    v.holder ∈ v.locals := by
  unfold holder
  split
  · exact mem_output ‹_› (hmx ‹_›)
  · exact mem_input ‹_› hconst

theorem mem_dims : ∀ l ∈ (v.dims.map (·.label)).map Local.dim, l ∈ v.locals := by
  intro l hl
  exact List.mem_append_right _ (by simpa [dimLocals] using hl)

theorem locals_actual : ∀ l ∈ v.actual.locals, l ∈ v.locals := by
  unfold actual
  split
  case h_1 hk => simpa [Actual.locals] using mem_holder (by simp [hk]) (by simp [hk])
  case h_2 hk => simpa [Actual.locals] using mem_holder (by simp [hk]) (by simp [hk])
  case h_3 hk =>
    split
    · simp [Actual.locals]
    · simpa [Actual.locals] using mem_holder (by simp [hk]) (fun hd => absurd hd ‹_›)
  case h_4 hk => simpa [Actual.locals] using mem_holder (by simp [hk]) (by simp [hk])
  case h_5 => simp [Actual.locals]
  case h_6 hmx _ hconst =>
    simpa [Actual.locals] using mem_holder hconst fun _ => hmx

theorem locals_ofDims : ∀ l ∈ (Shape.ofDims (v.dims.map (·.label))).locals, l ∈ v.locals := by
  have hdims := v.mem_dims
  generalize v.dims.map (·.label) = ds at hdims ⊢
  unfold Shape.ofDims
  split
  · simp [Shape.locals]
  · simpa [Shape.locals] using hdims
  · simpa [Shape.locals] using hdims

theorem Makes.locals {g : Stage} (hs : v.Makes t isResult g s) (h : v.Usable t) :
    ∀ l ∈ s.locals, l ∈ v.locals := by
  have hin : v.direction ≠ .output → v.kind ≠ .const → .input v.inLabel ∈ v.locals := mem_input
  have hout : v.direction = .output → v.kind ≠ .mx → .output v.outLabel ∈ v.locals := mem_output
  have hholder : v.kind ≠ .const → v.kind ≠ .mx → v.holder ∈ v.locals :=
    fun hconst hmx => mem_holder hconst fun _ => hmx
  have hhandles : v.onGpu = true → v.kind.isArray = true ∧
      if v.direction = .output then
        .gpuOutput v.outLabel ∈ v.locals ∧ .gpuDims v.outLabel ∈ v.locals
      else .gpuInput v.inLabel ∈ v.locals :=
    fun hg => ⟨h.onGpu hg, mem_handles hg (h.onGpu hg)⟩
  have harray : v.kind.isArray = true → v.kind ≠ .const ∧ v.kind ≠ .mx := Kind.ne_of_isArray
  have hobject : v.kind.isObject = true → v.kind ≠ .const ∧ v.kind ≠ .mx := by
    intro hk
    constructor <;> rintro e <;> simp [e, Kind.isObject] at hk
  have hdims := v.mem_dims
  cases hs with
  | allocGpuArray hd hg hm hn =>
    have hlabel : ∀ k ∈ v.dims.map (·.label), .dim k ∈ v.locals := by simpa using hdims
    have hm := hlabel _ hm
    have hn := fun k hk => hlabel k (hn k hk)
    simp_all [Stmt.locals]
  | setPointer hd hk hmx =>
    have := h.object (by simp [hk, Kind.isObject])
    simp_all [Stmt.locals]
  | setArray hd hk =>
    rename_i byRef
    have hkind : v.kind.isArray = true ∨ v.kind = .arrayRef := by
      split at hk
      · exact Or.inr hk
      · exact Or.inl hk
    obtain ⟨hconst, hmx⟩ : v.kind ≠ .const ∧ v.kind ≠ .mx := hkind.elim harray fun e => by simp [e]
    -- without dimensions the array was passed in
    have hsource : (if v.dims = [] then .input v.inLabel else v.holder) ∈ v.locals := by
      split
      · exact hin (fun hd => h.sized hkind hd ‹_›) hconst
      · exact hholder hconst hmx
    have hofDims := v.locals_ofDims
    have href := h.arrayRef
    cases byRef <;> simp_all [Stmt.locals]
  | freeInput hd hk => grind [Stmt.locals]
  | freeOutput hd hk => grind [Stmt.locals]
  | _ => simp_all [Stmt.locals]

end Variable

end MexBridge
