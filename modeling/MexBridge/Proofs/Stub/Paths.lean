import MexBridge.Stub.Statement

/-!
# What code does along a path

Code forks on the layout of complex data and on null pointers. A `Path` settles every fork;
`Code.along` is the code on it and `Code.sets` the left-hand arguments that code sets. Forks open
and close within one statement, so the code of a list of statements is read statement by statement,
and on every path a statement sets the same arguments (`sets_along`).
-/

namespace MexBridge

/-- Which way every fork goes. -/
structure Path where
  interleaved : Bool
  isNull : Local → Bool

def Path.takes (p : Path) : Fork → Bool
  | .layout => p.interleaved
  | .null l => p.isNull l

namespace Code

/-- The code on a path. `st` tells for each open fork, the inner ones first, whether the side the
code is on is taken. -/
def along (p : Path) : List Bool → Code → Code
  | _, [] => []
  | st, .fork f :: c => along p (p.takes f :: st) c
  | st, .otherwise _ :: c => along p (st.modifyHead (!·)) c
  | st, .join _ :: c => along p st.tail c
  | st, x :: c => if st.all id then x :: along p st c else along p st c

/-- The text behind a left-hand argument that is set. -/
def assigns (s : String) : Bool := [' ', '=', ' '].isPrefixOf s.toList

/-- The left-hand arguments that code sets: those assigned to, and those whose address is given
away. -/
def sets : Code → List Int
  | [] => []
  | .lhs k :: .text s :: c => if assigns s then k :: sets c else sets c
  | .lhsAddress k :: c => k :: sets c
  | _ :: c => sets c

/-- A piece that neither forks nor speaks of the left-hand side. -/
def inert : Piece → Bool
  | .text _ => true
  | .loc _ => true
  | .rhs _ => true
  | _ => false

/-- A piece that does not fork. -/
def straight : Piece → Bool
  | .fork _ => false
  | .otherwise _ => false
  | .join _ => false
  | _ => true

/-! ## Code without forks -/

theorem along_straight (p : Path) (st : List Bool) {a : Code} (ha : a.all straight) (c : Code) :
    along p st (a ++ c) = (if st.all id then a else []) ++ along p st c := by
  induction a with
  | nil => simp
  | cons x a ih =>
    simp only [List.all_cons, Bool.and_eq_true] at ha
    have ih := ih ha.2
    cases x <;> simp_all [along, straight] <;> split <;> simp

/-- Of a fork the side taken is run. -/
theorem along_either (p : Path) (st : List Bool) (f : Fork) {a b : Code} (ha : a.all straight)
    (hb : b.all straight) (c : Code) :
    along p st (either f a b ++ c)
      = (if st.all id then (if p.takes f then a else b) else []) ++ along p st c := by
  simp only [either, seq, List.flatten_cons, List.flatten_nil, List.append_nil,
    List.append_assoc, List.cons_append, along, List.nil_append]
  rw [along_straight p _ ha]
  simp only [along]
  rw [along_straight p _ hb]
  simp only [along, List.modifyHead_cons, List.tail_cons]
  cases hs : st.all id <;> cases hf : p.takes f <;> simp_all

theorem straight_of_inert {a : Code} (ha : a.all inert) : a.all straight := by
  rw [List.all_eq_true] at ha ⊢
  intro x hx
  have := ha x hx
  cases x <;> simp_all [inert, straight]

/-! ## What code sets -/

@[simp] theorem sets_text (s : String) (c : Code) : sets (.text s :: c) = sets c := by simp [sets]

@[simp] theorem sets_loc (l : Local) (c : Code) : sets (.loc l :: c) = sets c := by simp [sets]

@[simp] theorem sets_rhs (k : Int) (c : Code) : sets (.rhs k :: c) = sets c := by simp [sets]

@[simp] theorem sets_lhsAddress (k : Int) (c : Code) : sets (.lhsAddress k :: c) = k :: sets c := by
  simp [sets]

theorem sets_lhs {s : String} (hs : assigns s) (k : Int) (c : Code) :
    sets (.lhs k :: .text s :: c) = k :: sets c := by simp [sets, hs]

theorem sets_lhs_used {s : String} (hs : assigns s = false) (k : Int) (c : Code) :
    sets (.lhs k :: .text s :: c) = sets c := by simp [sets, hs]

theorem sets_inert {a : Code} (ha : a.all inert) (c : Code) : sets (a ++ c) = sets c := by
  induction a with
  | nil => rfl
  | cons x a ih =>
    simp only [List.all_cons, Bool.and_eq_true] at ha
    cases x <;> simp_all [inert]

theorem assigns_append {s : String} (hs : assigns s) (t : String) : assigns (s ++ t) := by
  unfold assigns at hs ⊢
  rw [String.toList_append, List.isPrefixOf_iff_prefix] at *
  exact hs.trans (List.prefix_append _ _)

/-- On every path the code runs to its end and sets `ks`. -/
def Completes (a : Code) (ks : List Int) : Prop :=
  ∀ (p : Path) (c : Code), sets (along p [] (a ++ c)) = ks ++ sets (along p [] c)

theorem Completes.nil : Completes [] [] := fun _ _ => rfl

theorem Completes.append {a b : Code} {ks js : List Int} (ha : Completes a ks)
    (hb : Completes b js) : Completes (a ++ b) (ks ++ js) := by
  intro p c
  rw [List.append_assoc, ha, hb, List.append_assoc]

theorem completes_straight {a : Code} {ks : List Int} (ha : a.all straight)
    (h : ∀ c, sets (a ++ c) = ks ++ sets c) : Completes a ks := by
  intro p c
  rw [along_straight p [] ha]
  exact h _

theorem completes_inert {a : Code} (ha : a.all inert) : Completes a [] :=
  completes_straight (straight_of_inert ha) (sets_inert ha)

/-- A fork completes if both its sides do the same. -/
theorem completes_either {f : Fork} {a b : Code} {ks : List Int} (ha : a.all straight)
    (hb : b.all straight) (hsa : ∀ c, sets (a ++ c) = ks ++ sets c)
    (hsb : ∀ c, sets (b ++ c) = ks ++ sets c) : Completes (either f a b) ks := by
  intro p c
  rw [along_either p [] f ha hb]
  cases p.takes f
  · exact hsb _
  · exact hsa _

end Code

/-! ## What statements set -/

def Actual.sets : Actual → List Int
  | .slot k => [k]
  | _ => []

def Disposal.sets : Disposal → List Int
  | .dropped => []
  | .kept => []
  | .keptAddress => []
  | .keptCopy _ => []
  | _ => [0]

def Stmt.sets : Stmt → List Int
  | .call c d => d.sets ++ c.args.flatMap Actual.sets
  | .setConverted k _ _ => [k]
  | .setPointer k _ => [k]
  | .setArray k _ _ _ _ _ _ => [k]
  | .setNumber k _ => [k]
  | .setComplex k _ _ => [k]
  | .setString k _ => [k]
  | .setSame k _ => [k]
  | .setGpuArray k => [k]
  | _ => []

namespace Code

@[simp] theorem inert_product (ds : List Int) : (product ds).all inert := by
  fun_induction product ds <;> simp_all [inert]

@[simp] theorem inert_sizeOfArgument (k : Int) : (sizeOfArgument k).all inert := rfl

@[simp] theorem inert_classCheck (margin : String) (k : Int) (what cls : String) :
    (classCheck margin k what cls).all inert := rfl

@[simp] theorem inert_leaveOnError : leaveOnError.all inert := rfl

@[simp] theorem inert_extent (i : Int) (shape : Shape) : (shape.extent i).all inert := by
  cases shape <;> simp [Shape.extent, seq, inert]

@[simp] theorem inert_count (i : Int) (shape : Shape) : (shape.count i).all inert := by
  cases shape <;> simp [Shape.count, inert]

theorem inert_declareCode (type : String) (l : Local) (zeroed : Bool) (remark : String) :
    (declareCode type l zeroed remark).all inert := by
  cases l <;> rfl

theorem completes_seq {cs : List Code} (h : ∀ a ∈ cs, Completes a []) : Completes (seq cs) [] := by
  induction cs with
  | nil => exact .nil
  | cons a cs ih => exact (h a (by simp)).append (ih fun b hb => h b (by simp [hb]))

/-- An array used in place is reached in two ways, by the layout. -/
theorem completes_arraySource (k : Int) (type : String) (source : ArraySource) :
    Completes (source.code k type) [] := by
  cases source with
  | copy => exact completes_inert rfl
  | checkedCopy => exact completes_inert (by simp [ArraySource.code, seq, inert])
  | inPlace =>
    refine completes_seq ?_
    simp only [List.mem_cons, List.not_mem_nil, or_false, forall_eq_or_imp, forall_eq]
    refine ⟨completes_inert (inert_classCheck ..), completes_either rfl ?_ (fun _ => by simp) ?_⟩
    · split <;> rfl
    · split <;> simp

theorem completes_getArray (k : Int) (type : String) (source : ArraySource) :
    Completes (Stmt.getArray k type source).code [] := by
  refine completes_seq ?_
  simp only [List.mem_cons, List.not_mem_nil, or_false, forall_eq_or_imp, forall_eq]
  exact ⟨completes_inert rfl, completes_inert (inert_sizeOfArgument k), completes_inert rfl,
    completes_arraySource k type source, completes_inert rfl⟩

theorem straight_setArrayCode (margin : String) (k i : Int) (type : String) (isComplex : Bool)
    (l : Local) (shape : Shape) :
    (setArrayCode margin k i type isComplex l shape).all straight := by
  cases hs : (Numeric.ofType type).single <;>
    simp [setArrayCode, seq, straight, hs, -List.all_eq_true, straight_of_inert]

theorem sets_setArrayCode (margin : String) (k i : Int) (type : String) (isComplex : Bool)
    (l : Local) (shape : Shape) (c : Code) :
    sets (setArrayCode margin k i type isComplex l shape ++ c) = k :: sets c := by
  cases hs : (Numeric.ofType type).single <;>
    simp (disch := first | decide | simp) [setArrayCode, seq, hs, sets_lhs, sets_lhs_used,
      sets_inert]

theorem straight_actual (x : Actual) : x.code.all straight := by
  cases x <;> rfl

theorem sets_actual (x : Actual) (c : Code) : sets (x.code ++ c) = x.sets ++ sets c := by
  cases x <;> simp [Actual.code, Actual.sets]

/-- What holds of the comma and of the pieces of each argument holds of all pieces. -/
theorem forall_actuals {P : Piece → Prop} (hcomma : P (.text ", ")) {xs : List Actual}
    (h : ∀ x ∈ xs, ∀ y ∈ x.code, P y) :
    ∀ y ∈ List.intercalate [Piece.text ", "] (xs.map (·.code)), P y := by
  induction xs with
  | nil => simp
  | cons x xs ih =>
    obtain ⟨hx, hxs⟩ := List.forall_mem_cons.1 h
    cases xs with
    | nil => simpa using hx
    | cons z zs =>
      simp only [List.map_cons] at ih ⊢
      rw [List.intercalate_cons_cons]
      simpa [or_imp, forall_and, hcomma] using ⟨hx, ih hxs⟩

theorem straight_actuals (xs : List Actual) :
    (List.intercalate [Piece.text ", "] (xs.map (·.code))).all straight :=
  List.all_eq_true.2 (forall_actuals (P := (straight · = true)) rfl
    fun x _ => List.all_eq_true.1 (straight_actual x))

theorem sets_actuals (xs : List Actual) (c : Code) :
    sets (List.intercalate [Piece.text ", "] (xs.map (·.code)) ++ c)
      = xs.flatMap Actual.sets ++ sets c := by
  induction xs with
  | nil => rfl
  | cons x xs ih =>
    cases xs with
    | nil => simp [sets_actual]
    | cons y ys =>
      simp only [List.map_cons] at ih ⊢
      rw [List.intercalate_cons_cons]
      simp [sets_actual, ih]

theorem straight_call (x : Call) : x.code.all straight := by
  have := straight_actuals x.args
  cases h : x.method <;> simp_all [Call.code, seq, straight]

theorem sets_call (x : Call) (c : Code) :
    sets (x.code ++ c) = x.args.flatMap Actual.sets ++ sets c := by
  cases h : x.method <;> simp [Call.code, seq, h, sets_actuals]

theorem straight_disposal {a : Code} (ha : a.all straight) (d : Disposal) :
    (d.code a).all straight := by
  cases d with
  | copiedArray t dims =>
    simp only [Disposal.code]
    split <;> simp [seq, straight, -List.all_eq_true, straight_of_inert, ha]
  | _ => simp [Disposal.code, seq, straight, -List.all_eq_true, ha]

/-- A call that names a type. -/
theorem assigns_typed {s : String} (hs : assigns s) (type t : String) : assigns (s ++ type ++ t) :=
  assigns_append (assigns_append hs type) t

theorem sets_disposal {a : Code} {ks : List Int} (ha : ∀ c, sets (a ++ c) = ks ++ sets c)
    (d : Disposal) (c : Code) : sets (d.code a ++ c) = d.sets ++ ks ++ sets c := by
  cases d with
  | copiedArray t dims =>
    simp only [Disposal.code]
    split <;>
      simp (disch := first | simp; done | exact assigns_typed (by decide) _ _)
        [seq, ha, Disposal.sets, sets_lhs, sets_inert]
  | _ =>
    simp (disch := first | decide | exact assigns_typed (by decide) _ _)
      [Disposal.code, seq, ha, Disposal.sets, sets_lhs]

end Code

theorem Stmt.completes (s : Stmt) : Code.Completes s.code s.sets := by
  open Code in
  cases s with
  | call x d =>
    exact completes_straight (straight_disposal (straight_call x) d) (sets_disposal (sets_call x) d)
  | getArray k type source => exact completes_getArray k type source
  | declare type l zeroed remark => exact completes_inert (inert_declareCode type l zeroed remark)
  | setArray k i type isComplex byRef l shape =>
    have harray := fun margin => sets_setArrayCode margin k i type isComplex l shape
    cases byRef with
    | true =>
      refine completes_either rfl (straight_setArrayCode ..) (fun c => ?_) (harray _)
      simp (disch := decide) [sets_lhs, Stmt.sets]
    | false => exact completes_straight (straight_setArrayCode ..) (harray _)
  | setConverted k type l =>
    refine completes_straight rfl fun c => ?_
    simp [Stmt.code, Stmt.sets, sets_lhs, assigns_typed (s := " = mxWrapSet_") (by decide)]
  | setPointer k type =>
    refine completes_straight rfl fun c => ?_
    simp (disch := decide) [Stmt.code, Stmt.sets, sets_lhs]
  | setNumber k l =>
    refine completes_either rfl rfl (fun c => ?_) fun c => ?_ <;>
      simp (disch := decide) [seq, Stmt.sets, sets_lhs, sets_lhs_used]
  | setComplex k type l =>
    refine completes_either rfl rfl (fun c => ?_) fun c => ?_ <;>
      simp (disch := decide) [seq, Stmt.sets, sets_lhs, sets_lhs_used]
  | setString k l =>
    refine completes_straight rfl fun c => ?_
    simp (disch := decide) [Stmt.code, Stmt.sets, sets_lhs]
  | setSame k i =>
    refine completes_straight rfl fun c => ?_
    simp (disch := decide) [Stmt.code, Stmt.sets, sets_lhs]
  | setGpuArray k =>
    refine completes_straight rfl fun c => ?_
    simp (disch := decide) [Stmt.code, Stmt.sets, sets_lhs]
  | getObject k type source =>
    exact completes_inert (by cases source <;> simp [Stmt.code, seq, inert, -List.all_eq_true])
  | getNumber k type =>
    refine completes_inert ?_
    simp only [Stmt.code]
    split <;> simp [seq, inert, -List.all_eq_true]
  | allocGpuArray k type isComplex rows cols =>
    exact completes_inert (by cases cols <;> rfl)
  | _ => exact completes_inert (by simp [Stmt.code, seq, inert, -List.all_eq_true])

theorem completes_flatMap (ss : List Stmt) :
    Code.Completes (ss.flatMap Stmt.code) (ss.flatMap Stmt.sets) := by
  induction ss with
  | nil => exact .nil
  | cons s ss ih => exact s.completes.append ih

/-- On every path statements set what each of them sets. -/
theorem sets_along (p : Path) (ss : List Stmt) :
    Code.sets (Code.along p [] (ss.flatMap Stmt.code)) = ss.flatMap Stmt.sets := by
  simpa [Code.along, Code.sets] using completes_flatMap ss p []

theorem render_flatMap (ss : List Stmt) : Code.render (ss.flatMap Stmt.code) = renderAll ss := by
  induction ss with
  | nil => rfl
  | cons s ss ih =>
    simp only [Code.render, renderAll, List.flatMap_cons, List.map_append, List.map_cons,
      String.join_append, String.join_cons] at ih ⊢
    rw [ih]
    rfl

end MexBridge
