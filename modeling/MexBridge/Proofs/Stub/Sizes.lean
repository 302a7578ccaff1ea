import Mathlib.Algebra.Group.Nat.Defs
import MexBridge.Proofs.Stub.Observed
import MexBridge.Proofs.Stub.Quotation
import MexBridge.Proofs.Stub.Releases

/-!
# Sizes agree

The size of an array is spelled four times in a stub: where a matrix that is passed in is checked
against the dimensions declared, where memory for an output is allocated, where the matrix that goes
back is made, and where the elements are copied into it. Each spelling is a product of dimensions,
or of the rows and columns of an argument. `Valuation.size` gives the value of such a text, whatever
its factors stand for. If the checks are passed, the values agree (`Ledger.stub_sizes`), so no copy
reads or writes beyond a buffer.
-/

namespace MexBridge

/-! ## The value of a size -/

/-- What the names and calls in sizes stand for. -/
abbrev Valuation := String → Nat

namespace Valuation

variable (z : Valuation)

def factor (s : String) : Nat := if s = "1" then 1 else z s

/-- The value of a product, as it is spelled in C. -/
def size (s : String) : Nat :=
  ((s.toList.splitOn '*').map fun cs => z.factor (String.ofList cs)).prod

@[simp] theorem size_one : z.size "1" = 1 := by
  simp [size, List.splitOn_eq_singleton, factor]

@[simp] theorem size_mul (s u : String) : z.size (s ++ "*" ++ u) = z.size s * z.size u := by
  have hsplit : (s ++ "*" ++ u).toList = s.toList ++ '*' :: u.toList := by simp
  rw [size, hsplit, List.splitOn_append_cons_self, List.map_append, List.prod_append]
  rfl

end Valuation

/-- The rows of a right-hand argument. -/
def rowsOf (k : Int) : String := "mxGetM(" ++ (Piece.rhs k).render ++ ")"

/-- The columns of a right-hand argument. -/
def columnsOf (k : Int) : String := "mxGetN(" ++ (Piece.rhs k).render ++ ")"

@[simp] theorem Piece.render_text (s : String) : (Piece.text s).render = s := rfl

@[simp] theorem Piece.render_loc (l : Local) : (Piece.loc l).render = l.name := rfl

namespace Code

@[simp] theorem render_nil : render [] = "" := rfl

@[simp] theorem render_append (a b : Code) : render (a ++ b) = render a ++ render b := by
  simp [render]

theorem render_sizeOfArgument (k : Int) :
    render (sizeOfArgument k) = rowsOf k ++ "*" ++ columnsOf k := by
  rw [← String.toList_inj]
  simp [sizeOfArgument, render, Piece.render, rowsOf, columnsOf]

theorem size_product (z : Valuation) (ds : List Int) :
    z.size (render (product ds)) = (ds.map fun k => z.size (Local.dim k).name).prod := by
  fun_induction product ds with
  | case1 => simp [render_cons]
  | case2 k => simp [render_cons]
  | case3 k ks hks ih =>
    have hrender : render (.loc (.dim k) :: .text "*" :: product ks)
        = (Local.dim k).name ++ "*" ++ render (product ks) := by
      simp [render_cons, String.append_assoc]
    rw [hrender, Valuation.size_mul, ih, List.map_cons, List.prod_cons]

end Code

namespace Shape

/-- The rows of a result matrix, as they are spelled. -/
def rows (i : Int) : Shape → String
  | .same => rowsOf i
  | .column ds => (Code.product ds).render
  | .matrix m _ => (Local.dim m).name

def columns (i : Int) : Shape → String
  | .same => columnsOf i
  | .column _ => "1"
  | .matrix _ n => (Local.dim n).name

theorem render_extent (i : Int) (shape : Shape) :
    (shape.extent i).render = shape.rows i ++ ", " ++ shape.columns i := by
  rw [← String.toList_inj]
  cases shape <;>
    simp [extent, Code.render, Code.seq, Piece.render, rows, columns, rowsOf, columnsOf]

/-- As many elements are copied as the matrix has. -/
theorem size_count (z : Valuation) (i : Int) (shape : Shape) :
    z.size (shape.count i).render = z.size (shape.rows i) * z.size (shape.columns i) := by
  cases shape with
  | same => rw [count, Code.render_sizeOfArgument, Valuation.size_mul]; rfl
  | column ds => simp [count, rows, columns]
  | matrix m n =>
    have hrender : Code.render [.loc (.dim m), .text "*", .loc (.dim n)]
        = (Local.dim m).name ++ "*" ++ (Local.dim n).name := by
      simp [Code.render_cons, String.append_assoc]
    rw [count, hrender, Valuation.size_mul]
    rfl

theorem size_count_ofDims (z : Valuation) (i : Int) {ds : List Int} (h : ds ≠ []) :
    z.size ((ofDims ds).count i).render = (ds.map fun k => z.size (Local.dim k).name).prod := by
  unfold ofDims
  split
  · exact absurd rfl h
  · simp [size_count, rows, columns]
  · exact Code.size_product z _

end Shape

/-! ## Texts that spell sizes -/

/-- The sizes that a statement compares before it goes on. -/
def Stmt.sizeTests : Stmt → List (String × String)
  | .checkMatrix k m n _ =>
    [(rowsOf k, (Local.dim m).name), (columnsOf k, (Local.dim n).name)]
  | .checkLength k n _ => [(rowsOf k ++ "*" ++ columnsOf k, (Local.dim n).name)]
  | _ => []

/-- Leaves for the end of the stub unless all sizes compared are the same. -/
def sizeGuard (tests : List (String × String)) (name newline : String) : String :=
  "    if (" ++ " ||\n        ".intercalate (tests.map fun t => t.1 ++ " != " ++ t.2)
    ++ ") \x7b\n        mw_err_txt_ = \"Bad argument size: " ++ name ++ "\";" ++ newline
    ++ "        goto mw_err_label;\n    \x7d\n\n"

namespace Stmt

theorem render_checkLength (k n : Int) (name : String) : (checkLength k n name).render
    = sizeGuard [(rowsOf k ++ "*" ++ columnsOf k, (Local.dim n).name)] name "" := by
  simp [render, code, Code.seq, Code.render_cons, Code.render_sizeOfArgument, sizeGuard,
    String.append_assoc]

theorem render_checkMatrix (k m n : Int) (name : String) : (checkMatrix k m n name).render
    = sizeGuard [(rowsOf k, (Local.dim m).name), (columnsOf k, (Local.dim n).name)] name "\n" := by
  have hrows (u : String) : "    if (" ++ ("mxGetM(" ++ u) = "    if (mxGetM(" ++ u := by
    simp [← String.append_assoc]
  have hcolumns (u : String) :
      " ||\n        " ++ ("mxGetN(" ++ u) = " ||\n        mxGetN(" ++ u := by
    simp [← String.append_assoc]
  have hne (u : String) : ")" ++ (" != " ++ u) = ") != " ++ u := by simp [← String.append_assoc]
  simp [render, code, Code.render_cons, sizeGuard, String.append_assoc, rowsOf, columnsOf, hrows,
    hcolumns, hne]

end Stmt

/-- The sizes pass all the tests of the statements. -/
def Valuation.Passes (z : Valuation) (ss : List Stmt) : Prop :=
  ∀ s ∈ ss, ∀ t ∈ s.sizeTests, z.size t.1 = z.size t.2

instance (z : Valuation) (ss : List Stmt) : Decidable (z.Passes ss) :=
  inferInstanceAs (Decidable (∀ s ∈ ss, ∀ t ∈ s.sizeTests, z.size t.1 = z.size t.2))

namespace Variable

/-- The size declared. -/
def extent (z : Valuation) (v : Variable) : Nat :=
  (v.dims.map fun d => z.size (Local.dim d.label).name).prod

/-- What there is to compare when a matrix is passed in: its length with one dimension, its rows and
columns with two. -/
def sizeTests (v : Variable) : List (String × String) :=
  match v.dims with
  | [] => []
  | [n] => [(rowsOf v.inLabel ++ "*" ++ columnsOf v.inLabel, (Local.dim n.label).name)]
  | m :: n :: _ =>
    [(rowsOf v.inLabel, (Local.dim m.label).name), (columnsOf v.inLabel, (Local.dim n.label).name)]

/-- Memory for `size` elements. -/
def mallocText (v : Variable) (size : String) : String :=
  "    " ++ v.holder.name ++ " = (" ++ v.type ++ "*) mxMalloc(" ++ size ++ "*sizeof(" ++ v.type
    ++ "));\n"

/-- A copy of the matrix passed in, which `check` looks at before. -/
def fetchText (v : Variable) (check : String) : String :=
  "    if (" ++ rowsOf v.inLabel ++ "*" ++ columnsOf v.inLabel ++ " != 0) \x7b\n" ++ check
    ++ "        " ++ v.holder.name
    ++ (" = mxWrapGetArray_" ++ Numeric.copierMark v.type ++ v.type ++ "(")
    ++ (Piece.rhs v.inLabel).render
    ++ ", &mw_err_txt_);\n        if (mw_err_txt_)\n            goto mw_err_label;\n"
    ++ "    \x7d else\n        " ++ v.holder.name ++ " = NULL;\n\n"

/-- A matrix of `rows` and `columns` on the left, with `count` elements copied into it. -/
def copyText (v : Variable) (rows columns count : String) : String :=
  let single := (Numeric.ofType v.type).single
  let place := (Piece.lhs v.outLabel).render
  "    " ++ place ++ (if single then " = mxCreateNumericMatrix(" else " = mxCreateDoubleMatrix(")
    ++ rows ++ ", " ++ columns ++ (if single then ", mxSINGLE_CLASS, " else ", ")
    ++ (if v.kind.isComplex then "mxCOMPLEX" else "mxREAL") ++ ");\n"
    ++ ("    mxWrapCopy_" ++ Numeric.copierMark v.type ++ v.type ++ "(") ++ place ++ ", "
    ++ v.holder.name ++ ", " ++ count ++ ");\n"

/-- Memory of size `room` for a string, of which `length` may be used. -/
def stringText (v : Variable) (room length : String) : String :=
  "    " ++ v.holder.name ++ " = (char*) mxMalloc(" ++ room
    ++ "*sizeof(char));\n    if (mxGetString(" ++ (Piece.rhs v.inLabel).render ++ ", "
    ++ v.holder.name ++ ", " ++ length
    ++ ") != 0) \x7b\n        mw_err_txt_ = \"Invalid string argument\";\n"
    ++ "        goto mw_err_label;\n    \x7d\n\n"

variable {t : TypeTable} {v : Variable} {s : Stmt} {ss : List Stmt} {f : Field}

theorem holder_output (hd : v.direction = .output) : v.holder = .output v.outLabel := if_pos hd

theorem holder_input (hd : v.direction ≠ .output) : v.holder = .input v.inLabel := if_neg hd

/-! ### The check -/

theorem checkDims_array (hd : v.direction ≠ .output) (hg : v.onGpu = false)
    (hk : v.kind = .array f) (hdims : v.dims ≠ []) : ∃ s newline, v.checkDims = [s] ∧
      s.sizeTests = v.sizeTests ∧ s.render = sizeGuard v.sizeTests v.name newline := by
  have hchecked : (v.direction ≠ .output && v.kind.isArray && !v.onGpu) = true := by
    simp [hd, hk, hg, Kind.isArray]
  unfold checkDims sizeTests
  rw [if_pos hchecked]
  rcases hv : v.dims with - | ⟨m, - | ⟨n, -⟩⟩
  · exact absurd hv hdims
  · exact ⟨_, "", rfl, rfl, Stmt.render_checkLength ..⟩
  · exact ⟨_, "\n", rfl, rfl, Stmt.render_checkMatrix ..⟩

/-- A matrix that passes its tests has the size declared. -/
theorem size_eq_extent (z : Valuation) (hdims : v.dims ≠ []) (hplanar : v.dims.length ≤ 2)
    (h : ∀ t ∈ v.sizeTests, z.size t.1 = z.size t.2) :
    z.size (rowsOf v.inLabel) * z.size (columnsOf v.inLabel) = v.extent z := by
  unfold sizeTests at h
  unfold extent
  match hv : v.dims with
  | [] => exact absurd hv hdims
  | [n] => simpa [hv] using h
  | [m, n] => simp_all
  | _ :: _ :: _ :: _ => simp [hv] at hplanar

/-! ### Inputs -/

theorem render_getArray (hd : v.direction = .inout) :
    ∃ check, (Stmt.getArray v.inLabel v.type v.arraySource).render = v.fetchText check := by
  have hsource : v.arraySource = .copy ∨ v.arraySource = .checkedCopy := by
    unfold arraySource
    simp only [hd]
    split
    · exact Or.inr rfl
    · exact Or.inl (if_neg (by simp))
  have hholder : v.holder = .input v.inLabel := holder_input (by simp [hd])
  unfold fetchText
  rcases hsource with e | e <;> rw [e]
  · refine ⟨"", ?_⟩
    simp [-String.reduceAppend, Stmt.render, Stmt.code, ArraySource.code, Code.seq,
      Code.render_cons, Code.render_sizeOfArgument, hholder, String.append_assoc]
  · refine ⟨(classCheck "        " v.inLabel "array" (Numeric.ofType v.type).mxClass).render, ?_⟩
    simp [-String.reduceAppend, Stmt.render, Stmt.code, ArraySource.code, Code.seq,
      Code.render_cons, Code.render_sizeOfArgument, hholder, String.append_assoc]

theorem getInput_string (hd : v.direction ≠ .output) (hk : v.kind = .string) (hdims : v.dims ≠ []) :
    v.getInput t = [.getSizedString v.inLabel (v.dims.map (·.label))] := by
  simp [getInput, hd, hk, hdims]

theorem render_getSizedString (hd : v.direction ≠ .output) (ds : List Int) :
    (Stmt.getSizedString v.inLabel ds).render
      = v.stringText (Code.product ds).render (Code.product ds).render := by
  unfold stringText
  simp [-String.reduceAppend, Stmt.render, Stmt.code, Code.seq, Code.render_cons, holder_input hd,
    String.append_assoc]

/-! ### Outputs -/

theorem alloc_array (hd : v.direction = .output) (hg : v.onGpu = false) (hk : v.kind = .array f)
    (h : v.alloc t false = .ok ss) :
    ss = [.allocArray v.outLabel v.type (v.dims.map (·.label))] := by
  unfold alloc at h
  rw [if_neg (by simp [hd]), if_neg (by simp [hg]), hk] at h
  obtain ⟨ds, hds, h⟩ := bind_eq_ok.1 h
  rw [← dims_of_dimLabels hds]
  exact (Except.ok.inj h).symm

theorem render_allocArray (hd : v.direction = .output) (ds : List Int) :
    (Stmt.allocArray v.outLabel v.type ds).render = v.mallocText (Code.product ds).render := by
  unfold mallocText
  simp [-String.reduceAppend, Stmt.render, Stmt.code, Code.seq, Code.render_cons, holder_output hd,
    String.append_assoc]

/-- An output has dimensions, and what is passed in without any is copied from where it came to. -/
theorem setResult_sized (hd : v.direction ≠ .input) (hg : v.onGpu = false) (hk : v.kind = .array f)
    (hsized : v.direction = .output → v.dims ≠ []) (h : v.setResult t false = .ok ss) :
    ss = [.setArray v.outLabel v.inLabel v.type v.kind.isComplex false v.holder
      (.ofDims (v.dims.map (·.label)))] := by
  unfold setResult at h
  rw [if_neg hd, hk] at h
  simp only [hg, Bool.false_eq_true, if_false] at h
  obtain ⟨ds, hds, h⟩ := bind_eq_ok.1 h
  obtain rfl := dims_of_dimLabels hds
  rw [← Except.ok.inj h]
  by_cases hdims : v.dims = []
  · have hin := holder_input fun e => hsized e hdims
    simp [hdims, hin]
  · simp [hdims]

theorem render_setArray (shape : MexBridge.Shape) :
    (Stmt.setArray v.outLabel v.inLabel v.type v.kind.isComplex false v.holder shape).render
      = v.copyText (shape.rows v.inLabel) (shape.columns v.inLabel)
        (shape.count v.inLabel).render := by
  unfold copyText
  simp [Stmt.render, Stmt.code, setArrayCode, Code.seq, Code.render_cons, Shape.render_extent,
    apply_ite Piece.render, String.append_assoc]

end Variable

/-! ## Where locals and places get their values -/

namespace Stmt

/-- The statement gives the local its value; the call of the wrapped function is left aside. -/
def Fills (x : Local) (s : Stmt) : Prop := s.isCall = false ∧ ∃ f, (x, f) ∈ s.code.sources

/-- On some path the statement sets a left-hand argument. -/
def Sets (k : Int) (s : Stmt) : Prop := ∃ p, k ∈ Code.sets (Code.along p [] s.code)

variable {k : Int} {s : Stmt} {f : String}

theorem sets_iff : s.Sets k ↔ k ∈ s.sets := by
  have hsets (p : Path) : Code.sets (Code.along p [] s.code) = s.sets := by
    simpa [Code.along, Code.sets] using s.completes p []
  unfold Sets
  simp only [hsets]
  constructor
  · rintro ⟨_, h⟩
    exact h
  · intro h
    exact ⟨⟨true, fun _ => true⟩, h⟩

theorem sets_setArray {i : Int} {type : String} {isComplex byRef : Bool} {l : Local}
    {shape : Shape} : (setArray k i type isComplex byRef l shape).Sets k :=
  sets_iff.2 (List.mem_singleton_self k)

theorem fills_iff {x : Local} (h : s.Readable) (hcall : s.isCall = false) :
    s.Fills x ↔ ∃ f, (x, f) ∈ s.sources := by
  rw [Fills, sources_code h hcall]
  exact and_iff_right hcall

end Stmt

namespace Variable

/-- Only reading and allocating give the locals of an argument their values. -/
theorem Makes.source {t : TypeTable} {v : Variable} {s : Stmt} {isResult : Bool} {g : Stage}
    (hs : v.Makes t isResult g s) {x : Local} {f : String} (hx : (x, f) ∈ s.sources) :
    (v.direction ≠ .output → v.kind ≠ .const) ∧
      (x = v.holder ∨ x = .gpuInput v.inLabel ∨ x = .gpuOutput v.outLabel) := by
  cases hs <;> simp_all [Stmt.sources, holder] <;> tauto

end Variable

namespace Routine

variable {m n : Nat} {c : Context} {r : Routine} {s : Stmt} {ss : List Stmt} {v w : Variable}

/-- No two arguments share a buffer. -/
theorem Regular.eq_of_mem_buffers (h : r.Regular) (hv : v ∈ r.args) (hw : w ∈ r.args) {x : Local}
    (hxv : x ∈ v.buffers) (hxw : x ∈ w.buffers) : v = w := by
  by_contra hne
  have : Std.Symm (Function.onFun List.Disjoint Variable.buffers) := ⟨fun _ _ hd => hd.symm⟩
  exact (List.nodup_flatMap.1 h.nodup_buffers).2.forall hv hw hne hxv hxw

/-- No two arguments share a place on the left. -/
theorem Sound.eq_of_outLabel (h : r.Sound m n) (hv : v ∈ r.args) (hw : w ∈ r.args)
    (hdv : v.direction = .output) (hdw : w.direction = .output)
    (heq : v.outLabel = w.outLabel) : v = w := by
  have hnodup : (outLabels r.args).Nodup := by
    have := h.left ▸ nodup_labelsFrom 0 n
    rw [outLabels_append] at this
    exact this.of_append_right
  exact List.inj_on_of_nodup_map hnodup (List.mem_filter.2 ⟨hv, by simp [hdv, Direction.isOutput]⟩)
    (List.mem_filter.2 ⟨hw, by simp [hdw, Direction.isOutput]⟩) heq

/-- No two arguments share the local that stands for them. -/
theorem Regular.eq_of_holder (h : r.Regular) (hsound : r.Sound m n) (hv : v ∈ r.args)
    (hw : w ∈ r.args) (hkv : v.direction ≠ .output → v.kind ≠ .const)
    (hkw : w.direction ≠ .output → w.kind ≠ .const) (heq : v.holder = w.holder) : v = w := by
  have hin {u : Variable} (hd : u.direction ≠ .output) (hk : u.kind ≠ .const) :
      .input u.inLabel ∈ u.buffers := by
    simp [Variable.buffers, Variable.inputLocals, hd, hk]
  unfold Variable.holder at heq
  split at heq <;> split at heq
  · exact hsound.eq_of_outLabel hv hw ‹_› ‹_› (by simpa using heq)
  · cases heq
  · cases heq
  · exact h.eq_of_mem_buffers hv hw (hin ‹_› (hkv ‹_›)) (heq ▸ hin ‹_› (hkw ‹_›))

/-- Only what is made of an argument fills the local that stands for it. -/
theorem Regular.makes_of_fills (h : r.Regular) (hsound : r.Sound m n)
    (hss : r.mainStatements c = .ok ss) (hv : v ∈ r.args)
    (hk : v.direction ≠ .output → v.kind ≠ .const) (hs : s ∈ ss) (hfills : s.Fills v.holder) :
    s.sources ≠ [] ∧ ∃ g, v.Makes c.types false g s := by
  obtain ⟨f, hf⟩ := (Stmt.fills_iff (h.readable hss s hs) hfills.1).1 hfills
  refine ⟨List.ne_nil_of_mem hf, ?_⟩
  obtain ⟨g, hs⟩ := makes_mainStatements hss s (List.mem_append_left _ hs)
  cases hs with
  | getDim hw hd =>
    have := (Prod.mk.inj (List.mem_singleton.1 hf)).1
    unfold Variable.holder at this
    split at this <;> cases this
  | getObject hthis =>
    -- the object that a method is called on has a local of its own
    have hzero := (Prod.mk.inj (List.mem_singleton.1 hf)).1
    have hdisjoint := (List.nodup_append.1 h.nodup_receiver_buffers).2.2
    obtain ⟨this, hthis⟩ := Option.isSome_iff_exists.1 hthis
    refine absurd hzero.symm (hdisjoint _ (by simp [hthis]) _ (List.mem_flatMap.2 ⟨v, hv, ?_⟩))
    unfold Variable.holder at hzero ⊢
    split
    · simp_all
    · simp [Variable.buffers, Variable.inputLocals, *]
  | arg hw hs =>
    obtain ⟨hkw, heq | heq | heq⟩ := hs.source hf
    · exact ⟨_, h.eq_of_holder hsound hv hw hk hkw heq ▸ hs⟩
    all_goals unfold Variable.holder at heq; split at heq <;> cases heq
  | result hw hs =>
    obtain ⟨hcpu, hout, hnull⟩ := h.kept _ hw
    rw [hs.sources_kept hcpu hout hnull] at hf
    cases hf
  | _ => cases hf

/-- A place on the left is set by one statement only. -/
theorem Sound.sets_unique (h : r.Sound m n) (hss : r.mainStatements c = .ok ss) {u : Stmt} {k : Int}
    (hs : s ∈ ss) (hu : u ∈ ss) (hks : s.Sets k) (hku : u.Sets k) : u = s := by
  by_contra hne
  have hnodup : (ss.flatMap Stmt.sets).Nodup := (h.sets hss).nodup_iff.2 (nodup_labelsFrom 0 n)
  have : Std.Symm (Function.onFun List.Disjoint Stmt.sets) := ⟨fun _ _ hd => hd.symm⟩
  exact (List.nodup_flatMap.1 hnodup).2.forall hu hs hne (Stmt.sets_iff.1 hku) (Stmt.sets_iff.1 hks)

theorem mem_of_dimChecks (hss : r.mainStatements c = .ok ss) (hs : s ∈ r.dimChecks) : s ∈ ss := by
  rw [(mainStatements_eq_ok hss).eq]
  simp [hs]

/-- Sizes are checked before anything is read. -/
theorem mem_before_of_dimChecks (hss : r.mainStatements c = .ok ss) {before after : List Stmt}
    (heq : ss = before ++ s :: after) (hstage : s.stage = some .read) {u : Stmt}
    (hu : u ∈ r.dimChecks) : u ∈ before := by
  have hparts := (mainStatements_eq_ok hss).eq
  rw [heq] at hparts
  simp only [List.append_assoc] at hparts
  rw [← List.append_assoc, ← List.append_assoc] at hparts
  have hnot : s ∉ made r.declarations ++ r.dimReads ++ r.dimChecks := by
    simp only [List.mem_append]
    rintro ((h | h) | h)
    · rcases stage_declarations h with e | rfl
      · simp [e] at hstage
      · simp [Stmt.stage] at hstage
    · rcases stage_dimReads h with e | rfl
      · simp [e] at hstage
      · simp [Stmt.stage] at hstage
    · simp [stage_dimChecks h] at hstage
  rcases List.append_eq_append_iff.1 hparts with ⟨as, hfirst, hrest⟩ | ⟨as, hfirst, -⟩
  · cases as with
    | nil =>
      rw [List.append_nil] at hfirst
      exact hfirst ▸ List.mem_append_right _ hu
    | cons a as =>
      obtain ⟨rfl, -⟩ := List.cons.inj hrest
      exact absurd (hfirst ▸ by simp) hnot
  · exact hfirst ▸ List.mem_append_left _ (List.mem_append_right _ hu)

end Routine

/-! ## Arrays that go back -/

namespace Variable

/-- The buffer of an array has room for `n` elements: as much memory is allocated for an output, and
the matrix passed in, of which any other array is a copy, has as many. -/
structure Buffered (z : Valuation) (ss : List Stmt) (n : Nat) (v : Variable) : Prop where
  filled : ∃ s ∈ ss, s.Fills v.holder
  allocated : v.direction = .output → ∀ s ∈ ss, s.Fills v.holder →
    ∃ size, s.render = v.mallocText size ∧ z.size size = n
  fetched : v.direction ≠ .output →
    z.size (rowsOf v.inLabel) * z.size (columnsOf v.inLabel) = n ∧
      ∀ s ∈ ss, s.Fills v.holder → ∃ check, s.render = v.fetchText check

/-- An array goes back as a matrix of `n` elements, and `n` elements are copied into it. -/
structure CopiedBack (z : Valuation) (ss : List Stmt) (n : Nat) (v : Variable) : Prop where
  set : ∃ s ∈ ss, s.Sets v.outLabel
  copied : ∀ s ∈ ss, s.Sets v.outLabel → ∃ rows columns count,
    s.render = v.copyText rows columns count ∧
      z.size rows * z.size columns = n ∧ z.size count = n

/-- The size of a matrix is compared with the one declared before the matrix is read. -/
structure CheckedFirst (ss : List Stmt) (v : Variable) : Prop where
  filled : ∃ s ∈ ss, s.Fills v.holder
  checked : ∀ before s after, ss = before ++ s :: after → s.Fills v.holder →
    ∃ u ∈ before, u.sizeTests = v.sizeTests ∧
      ∃ newline, u.render = sizeGuard v.sizeTests v.name newline

/-- A string is read into memory of the size declared, and told to be no longer. -/
structure StringFits (ss : List Stmt) (v : Variable) : Prop where
  filled : ∃ s ∈ ss, s.Fills v.holder
  bounded : ∀ s ∈ ss, s.Fills v.holder → ∃ room length, s.render = v.stringText room length ∧
    ∀ z : Valuation, z.size room = v.extent z ∧ z.size length = v.extent z

/-- The size of an array: the one declared, or else that of the matrix passed in. -/
def elements (z : Valuation) (v : Variable) : Nat :=
  if v.dims = [] then z.size (rowsOf v.inLabel) * z.size (columnsOf v.inLabel) else v.extent z

theorem elements_of_dims {v : Variable} (z : Valuation) (hdims : v.dims ≠ []) :
    v.elements z = v.extent z := if_neg hdims

theorem size_product_dims (v : Variable) (z : Valuation) :
    z.size (Code.product (v.dims.map (·.label))).render = v.extent z := by
  rw [Code.size_product, List.map_map]
  rfl

theorem size_count_ofDims (v : Variable) (z : Valuation) :
    z.size ((Shape.ofDims (v.dims.map (·.label))).count v.inLabel).render = v.elements z := by
  by_cases hdims : v.dims = []
  · rw [Shape.size_count, elements, if_pos hdims, hdims]
    rfl
  · rw [Shape.size_count_ofDims z _ (by simpa using hdims), List.map_map, elements_of_dims z hdims]
    rfl

end Variable

namespace Routine

variable {m n : Nat} {c : Context} {r : Routine} {ss : List Stmt} {v : Variable} {f : Field}

/-- A matrix is made for an array with as many elements as it has, and these are copied. -/
theorem Sound.copiedBack (h : r.Sound m n) (hss : r.mainStatements c = .ok ss) (hv : v ∈ r.args)
    (hg : v.onGpu = false) (hk : v.kind = .array f) (hd : v.direction ≠ .input) (z : Valuation) :
    v.CopiedBack z ss (v.elements z) := by
  obtain ⟨ws, hws⟩ := (mainStatements_eq_ok hss).writes
  have hsized := (h.args v hv).sized (Or.inl (by simp [hk, Kind.isArray]))
  have hset := Variable.setResult_sized hd hg hk hsized ((resultWrites_eq_ok hws).2.2 v hv)
  have hmem := mem_of_arg hss hv (List.mem_append_right _ (hset ▸ List.mem_singleton_self _))
  refine ⟨⟨_, hmem, Stmt.sets_setArray⟩, fun s hs hks => ?_⟩
  obtain rfl := h.sets_unique hss hmem hs Stmt.sets_setArray hks
  have hcount := v.size_count_ofDims z
  exact ⟨_, _, _, Variable.render_setArray _, by rw [← hcount, Shape.size_count], hcount⟩

/-- The local that stands for an argument is filled by one statement. -/
theorem Regular.filled_by (h : r.Regular) (hsound : r.Sound m n) (hss : r.mainStatements c = .ok ss)
    (hv : v ∈ r.args) (hk : v.direction ≠ .output → v.kind ≠ .const) {s : Stmt}
    (hs : s ∈ v.getInput c.types ++ made (v.alloc c.types false)) {f : String}
    (hf : (v.holder, f) ∈ s.sources)
    (honly : ∀ g u, v.Makes c.types false g u → u.sources ≠ [] → u = s) :
    (s ∈ ss ∧ s.Fills v.holder) ∧ ∀ u ∈ ss, u.Fills v.holder → u = s := by
  have hmem := mem_of_arg hss hv (List.mem_append_left _ hs)
  have hcall : s.isCall = false := by
    cases s <;> first | rfl | cases hf
  refine ⟨⟨hmem, (Stmt.fills_iff (h.readable hss _ hmem) hcall).2 ⟨f, hf⟩⟩, fun u hu hfills => ?_⟩
  obtain ⟨hne, g, hmakes⟩ := h.makes_of_fills hsound hss hv hk hu hfills
  exact honly g u hmakes hne

theorem Regular.filled_by_array (h : r.Regular) (hsound : r.Sound m n)
    (hss : r.mainStatements c = .ok ss) (hv : v ∈ r.args) (hg : v.onGpu = false)
    (hk : v.kind = .array f) (hd : v.direction ≠ .output) :
    let s := Stmt.getArray v.inLabel v.type v.arraySource
    (s ∈ ss ∧ s.Fills v.holder) ∧ ∀ u ∈ ss, u.Fills v.holder → u = s := by
  have hread : v.getInput c.types = [_] := Variable.getInput_array hd hg hk
  obtain ⟨f, hf⟩ : ∃ f, (v.holder, f)
      ∈ (Stmt.getArray v.inLabel v.type v.arraySource).sources := by
    rw [Variable.holder_input hd]
    cases hsource : v.arraySource <;> exact ⟨_, List.mem_cons_self⟩
  refine h.filled_by hsound hss hv (by simp [hk]) (by simp [hread]) hf fun g u hu hne => ?_
  cases hu <;> simp_all [Stmt.sources]

theorem Regular.buffered_output (h : r.Regular) (hsound : r.Sound m n)
    (hss : r.mainStatements c = .ok ss) (hv : v ∈ r.args) (hg : v.onGpu = false)
    (hk : v.kind = .array f) (hd : v.direction = .output) (z : Valuation) :
    v.Buffered z ss (v.elements z) := by
  have hdims := (hsound.args v hv).sized (Or.inl (by simp [hk, Kind.isArray])) hd
  have halloc := Variable.alloc_array hd hg hk (alloc_eq_ok hss hv)
  have hf : (v.holder, "mxMalloc") ∈
      (Stmt.allocArray v.outLabel v.type (v.dims.map (·.label))).sources := by
    rw [Variable.holder_output hd]
    exact List.mem_singleton_self _
  obtain ⟨hfilled, honly⟩ := h.filled_by hsound hss hv (by simp [hd]) (by simp [halloc]) hf
    fun g u hu hne => by cases hu <;> simp_all [Stmt.sources]
  refine ⟨⟨_, hfilled⟩, fun _ s hs hfills => ?_, fun hne => absurd hd hne⟩
  rw [honly s hs hfills]
  refine ⟨_, Variable.render_allocArray hd _, ?_⟩
  rw [v.size_product_dims, Variable.elements_of_dims z hdims]

/-- The buffer of an array holds as many elements as it has, if the matrix passed in is checked. -/
theorem Regular.buffered_inout (h : r.Regular) (hsound : r.Sound m n)
    (hss : r.mainStatements c = .ok ss) (hv : v ∈ r.args) (hg : v.onGpu = false)
    (hk : v.kind = .array f) (hplanar : v.dims.length ≤ 2) (hd : v.direction = .inout)
    {z : Valuation} (hz : z.Passes ss) :
    v.Buffered z ss (v.elements z) := by
  have hout : v.direction ≠ .output := by simp [hd]
  obtain ⟨hfilled, honly⟩ := h.filled_by_array hsound hss hv hg hk hout
  refine ⟨⟨_, hfilled⟩, fun e => absurd e hout, fun _ => ⟨?_, fun s hs hfills => ?_⟩⟩
  · unfold Variable.elements
    split
    · rfl
    · rename_i hdims
      obtain ⟨s, newline, hcheck, htests, -⟩ := Variable.checkDims_array hout hg hk hdims
      have hs : s ∈ ss := mem_of_dimChecks hss (List.mem_flatMap.2 ⟨v, hv, by simp [hcheck]⟩)
      exact Variable.size_eq_extent z hdims hplanar fun t ht => hz s hs t (htests ▸ ht)
  · rw [honly s hs hfills]
    exact Variable.render_getArray hd

theorem Regular.checkedFirst (h : r.Regular) (hsound : r.Sound m n)
    (hss : r.mainStatements c = .ok ss) (hv : v ∈ r.args) (hg : v.onGpu = false)
    (hk : v.kind = .array f) (hd : v.direction ≠ .output)
    (hdims : v.dims ≠ []) : v.CheckedFirst ss := by
  obtain ⟨hfilled, honly⟩ := h.filled_by_array hsound hss hv hg hk hd
  refine ⟨⟨_, hfilled⟩, fun before s after heq hfills => ?_⟩
  obtain ⟨u, newline, hcheck, htests, hrender⟩ := Variable.checkDims_array hd hg hk hdims
  obtain rfl := honly s (by simp [heq]) hfills
  have hu : u ∈ r.dimChecks := List.mem_flatMap.2 ⟨v, hv, by simp [hcheck]⟩
  exact ⟨u, mem_before_of_dimChecks hss heq rfl hu, htests, newline, hrender⟩

theorem Regular.stringFits (h : r.Regular) (hsound : r.Sound m n)
    (hss : r.mainStatements c = .ok ss) (hv : v ∈ r.args) (hk : v.kind = .string)
    (hd : v.direction ≠ .output) (hdims : v.dims ≠ []) :
    v.StringFits ss := by
  have hread : v.getInput c.types = [_] := Variable.getInput_string hd hk hdims
  have hf : (v.holder, "mxMalloc") ∈
      (Stmt.getSizedString v.inLabel (v.dims.map (·.label))).sources := by
    rw [Variable.holder_input hd]
    exact List.mem_singleton_self _
  obtain ⟨hfilled, honly⟩ := h.filled_by hsound hss hv (by simp [hk]) (by simp [hread]) hf
    fun g u hu hne => by cases hu <;> simp_all [Stmt.sources]
  refine ⟨⟨_, hfilled⟩, fun s hs hfills => ?_⟩
  rw [honly s hs hfills]
  exact ⟨_, _, Variable.render_getSizedString hd _,
    fun z => ⟨v.size_product_dims z, v.size_product_dims z⟩⟩

end Routine

/-! ## Every stub -/

theorem Kind.exists_of_isArray {k : Kind} (h : k.isArray = true) : ∃ f, k = .array f := by
  cases k <;> simp_all [Kind.isArray]

theorem Variable.eq_of_finished {fortran : Bool} {v w : Variable} {f : Field}
    (hw : v.Finished fortran w) (hk : w.kind = .array f) : w = v := by
  unfold Variable.Finished at hw
  split at hw
  · obtain ⟨rfl, -⟩ := hw
    unfold toFortran at hk ⊢
    split at hk <;> simp_all
  · exact hw

/-- The arrays of a routine checked without errors have two dimensions at most. -/
theorem Routine.planar_check {Q : String → Prop} {t : TypeTable} {r : Routine} (hr : r.Written Q)
    (h : (r.check t).errors = 0) {v : Variable} (hv : v ∈ (r.check t).value.args) {f : Field}
    (hk : v.kind = .array f) : v.dims.length ≤ 2 := by
  obtain ⟨w, hw, hvw⟩ := (passed_of_errors hr h).args v hv
  obtain rfl := Variable.eq_of_finished hvw hk
  have hadmits := hk ▸ hw.admits
  cases hadmits with
  | array _ q field marked mark planar => simpa [Variable.dims, marked] using planar

namespace Ledger

/-- **Sizes agree between allocation, check and copy.** Take a declaration checked without errors,
in whatever context, and any context to write its stub in. The stub is written unless an output on
the GPU has no dimensions. Give any values to the dimensions and to the rows and columns of the
arguments that pass the tests in the stub. Then the buffer of an array that goes back, the matrix
made for it and the number of elements copied into that have one size. It is the one declared; where
none is, it is that of the matrix passed in. An array with dimensions that is passed in is read only
after its size is checked. The memory for a string with dimensions is as long as the string may
be. -/
theorem stub_sizes {file : String} {ts : List Token} {r : Routine}
    (hparse : Statement.parse file ts = .ok (.call r))
    (hlex : ∀ u ∈ ts, ∃ line cs, u ∈ Token.tokens line cs) {l : Ledger}
    (h : (l.checked r).errors = 0) (c : Context) {g : Group} (hg : g.first = (l.checked r).value) :
    ((∃ ss, g.first.mainStatements c = .ok ss) ↔ ∀ v ∈ g.first.args, ¬ v.Unsized) ∧
    ∀ ss, g.first.mainStatements c = .ok ss →
      g.stub c = .ok (g.stubHead (g.first.signature c.settings.promotion)
        ++ Code.render (ss.flatMap Stmt.code) ++ "\nmw_err_label:\n"
        ++ Code.render ((g.first.releases c.types).flatMap Stmt.code) ++ Group.stubTail) ∧
      (∀ z : Valuation, z.Passes ss → ∀ v ∈ g.first.args, v.onGpu = false →
        v.kind.isArray = true → v.direction ≠ .input →
          v.Buffered z ss (v.elements z) ∧ v.CopiedBack z ss (v.elements z)) ∧
      (∀ v ∈ g.first.args, v.onGpu = false → v.kind.isArray = true → v.direction ≠ .output →
        v.dims ≠ [] → v.CheckedFirst ss) ∧
      ∀ v ∈ g.first.args, v.kind = .string → v.direction ≠ .output → v.dims ≠ [] →
        v.StringFits ss := by
  have hregular := regular_checked hparse hlex h hg
  have hr : r.Written fun _ => True := Statement.written_of_parse (fun _ _ _ => trivial) hparse
  have hr' := written_promote (p := l.context.settings.promotion) (fun _ _ => trivial) hr
    (l.count + 1)
  have hvetted : g.first.Vetted l.context.types := hg ▸ Routine.vetted_check hr' h
  have hsound := Routine.sound_check hr' h hg.symm
  have hsign : g.first.isSignable = true := by
    rw [hg]
    exact ((Routine.passed_of_errors hr' h).written hr'.labelled).callee.isSignable
  refine ⟨hvetted.mainStatements_iff, fun ss hss => ⟨Group.stub_of_mainStatements hsign hss, ?_, ?_,
    ?_⟩⟩
  · intro z hz v hv hcpu harray hd
    obtain ⟨f, hk⟩ := Kind.exists_of_isArray harray
    refine ⟨?_, hsound.copiedBack hss hv hcpu hk hd z⟩
    rcases hregular.directions v hv with e | e | e
    · exact absurd e hd
    · exact hregular.buffered_output hsound hss hv hcpu hk e z
    · have hplanar := Routine.planar_check hr' h (hg ▸ hv) hk
      exact hregular.buffered_inout hsound hss hv hcpu hk hplanar e hz
  · intro v hv hcpu harray hd hdims
    obtain ⟨f, hk⟩ := Kind.exists_of_isArray harray
    exact hregular.checkedFirst hsound hss hv hcpu hk hd hdims
  · intro v hv hk hd hdims
    exact hregular.stringFits hsound hss hv hk hd hdims

/-- Arrays with two dimensions, one and none, of either precision, and a string. -/
def gridTokens : List Token := Token.tokens 1
  ("smooth(inout double[m,n] a, output float[n,m] b, inout double[] c, double[n] x, "
    ++ "cstring[n] s);").toList

def gridRoutine : Routine where
  name := "smooth"
  file := "a.mw"
  line := 1
  args :=
    let sized (ds : List String) : Option Qualifier :=
      some { mark := .array, dims := ds.map fun d => { text := d } }
    [{ direction := .inout, type := "double", name := "a", qualifier := sized ["m", "n"] },
      { direction := .output, type := "float", name := "b", qualifier := sized ["n", "m"] },
      { direction := .inout, type := "double", name := "c", qualifier := sized [] },
      { type := "double", name := "x", qualifier := sized ["n"] },
      { type := "cstring", name := "s", qualifier := sized ["n"] }]

/-- A matrix of two rows and three columns for `a`, and a row of six for `x`. -/
def gridSizes : Valuation := fun s =>
  (([("dim4_", 2), ("mxGetM(prhs[0])", 2), ("dim5_", 3), ("mxGetN(prhs[0])", 3), ("dim6_", 5),
    ("dim7_", 7), ("mxGetM(prhs[1])", 4), ("mxGetN(prhs[1])", 9), ("dim8_", 6),
    ("mxGetN(prhs[2])", 6)] : List (String × Nat)).lookup s).getD 1

theorem stub_sizes_gridRoutine :
    let l : Ledger := { context := .ofSettings {} }
    let g : Group := { first := (l.checked gridRoutine).value }
    Statement.parse "a.mw" gridTokens = .ok (.call gridRoutine) ∧
      (l.checked gridRoutine).errors = 0 ∧
      g.first.args.map (·.elements gridSizes) = [6, 35, 36, 6, 1] ∧
      ∃ ss, g.first.mainStatements l.context = .ok ss ∧ gridSizes.Passes ss ∧
        (∀ v ∈ g.first.args, v.direction ≠ .input →
          v.Buffered gridSizes ss (v.elements gridSizes) ∧
            v.CopiedBack gridSizes ss (v.elements gridSizes)) ∧
        (∃ v ∈ g.first.args, v.direction = .input ∧ v.CheckedFirst ss) ∧
        ∃ v ∈ g.first.args, v.StringFits ss := by
  intro l g
  have hparse : Statement.parse "a.mw" gridTokens = .ok (.call gridRoutine) := by decide +kernel
  have herrors : (l.checked gridRoutine).errors = 0 := by decide +kernel
  have hpasses : gridSizes.Passes (made (g.first.mainStatements l.context)) := by decide +kernel
  have harrays : ∀ v ∈ g.first.args, v.direction ≠ .input →
      v.onGpu = false ∧ v.kind.isArray = true := by decide +kernel
  have hinput : ∃ v ∈ g.first.args, v.direction = .input ∧ v.onGpu = false ∧
      v.kind.isArray = true ∧ v.direction ≠ .output ∧ v.dims ≠ [] := by decide +kernel
  have hstring : ∃ v ∈ g.first.args, v.kind = .string ∧ v.direction ≠ .output ∧ v.dims ≠ [] := by
    decide +kernel
  obtain ⟨hwritten, hsizes⟩ :=
    stub_sizes hparse (fun u hu => ⟨1, _, hu⟩) herrors l.context (g := g) rfl
  obtain ⟨ss, hss⟩ := hwritten.2 (by decide +kernel)
  rw [hss, made_ok] at hpasses
  obtain ⟨-, hback, hchecked, hfits⟩ := hsizes ss hss
  obtain ⟨x, hx, hd, hcpu, harray, hout, hdims⟩ := hinput
  obtain ⟨s, hs, hk, hdir, hlength⟩ := hstring
  refine ⟨hparse, herrors, by decide +kernel, ss, hss, hpasses, fun v hv hne => ?_,
    ⟨x, hx, hd, hchecked x hx hcpu harray hout hdims⟩, s, hs, hfits s hs hk hdir hlength⟩
  obtain ⟨hcpu, harray⟩ := harrays v hv hne
  exact hback gridSizes hpasses v hv hcpu harray hne

end Ledger

end MexBridge
