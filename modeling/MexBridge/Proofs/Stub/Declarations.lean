import MexBridge.Proofs.Stub.Sources
import MexBridge.Text.Blank

/-!
# The locals that code declares

The code of a stub is read for the locals it declares, with their types (`Code.declarations`): a
type stands before the local, and the end of a declarator behind it. The types that a stub writes
are words with stars and `const` (`Variable.localType_form`), so this finds what is declared for a
variable (`Variable.declared_declareInput`, `Variable.declared_declareOutput`). In statements that are
no declarations it finds nothing (`Stmt.declarations_code`).
-/

namespace MexBridge

namespace Code

/-- A character of a type. -/
def isTypeChar (c : Char) : Bool := isNameChar c || c == ' ' || c == '*'

/-- Cuts blanks off both ends of a text. -/
def unpadded (cs : List Char) : List Char := Text.dropEnd (· == ' ') (cs.dropWhile (· == ' '))

/-- The type that a text spells: words, stars and blanks, with a word among them. -/
def typeOf (s : String) : Option String :=
  if s.toList.all isTypeChar && s.toList.any isNameChar then some (String.ofList (unpadded s.toList))
  else none

/-- What can stand behind a local where it is declared: nothing, or zeros for it to hold. -/
def declaratorEnds : List (List Char) :=
  [[';'], ['=', '0', ';'], ['[', '2', ']', ' ', '=', ' ', '\x7b', '0', ',', '0', '\x7d', ';']]

/-- Does a text end the declaration of the local before it? -/
def endsDeclarator (cs : List Char) : Bool :=
  declaratorEnds.any (·.isPrefixOf (cs.dropWhile (· == ' ')))

/-- The locals that code declares, each after its type. -/
def declarations : Code → List (String × Local)
  | [] => []
  | .text s :: .loc l :: c =>
    match typeOf s with
    | some type => if endsDeclarator (lead c) then (type, l) :: declarations c else declarations c
    | none => declarations c
  | _ :: c => declarations c

end Code

/-- The locals that statements declare. -/
def declared (ss : List Stmt) : List Local := ss.flatMap fun s => s.code.declarations.map (·.2)

@[simp] theorem declared_nil : declared [] = [] := rfl

@[simp] theorem declared_cons (s : Stmt) (ss : List Stmt) :
    declared (s :: ss) = s.code.declarations.map (·.2) ++ declared ss := rfl

@[simp] theorem declared_append (ss us : List Stmt) :
    declared (ss ++ us) = declared ss ++ declared us := List.flatMap_append

theorem declared_flatMap {α : Type} (f : α → List Stmt) (vs : List α) :
    declared (vs.flatMap f) = vs.flatMap fun v => declared (f v) := List.flatMap_assoc

/-! ## Types -/

namespace Stmt

/-- A type that a local can have: words, and pointers to them. -/
def IsLocalType (type : String) : Prop := ∀ c ∈ type.toList, Code.isTypeChar c = true

instance (type : String) : Decidable (IsLocalType type) :=
  List.decidableBAll (fun c => Code.isTypeChar c = true) type.toList

theorem isLocalType_of_isWord {type : String} (h : IsWord type) : IsLocalType type :=
  fun c hc => by simp [Code.isTypeChar, h c hc]

theorem IsLocalType.append {s u : String} (hs : IsLocalType s) (hu : IsLocalType u) :
    IsLocalType (s ++ u) := by
  rw [IsLocalType, String.toList_append]
  exact List.forall_mem_append.2 ⟨hs, hu⟩

theorem IsLocalType.ne {type : String} (h : IsLocalType type) {x : Char}
    (hx : Code.isTypeChar x = false) : x ∉ type.toList := by
  intro hmem
  rw [h x hmem] at hx
  cases hx

end Stmt

/-- What the type of a local is made of: a word, with what may stand around it. -/
structure TypeForm where
  before : String := ""
  word : String
  behind : String := ""

namespace TypeForm

def text (f : TypeForm) : String := f.before ++ f.word ++ f.behind

/-- A pointer to constants, a pointer, or the type that the word names. -/
structure IsProper (f : TypeForm) : Prop where
  around : (f.before, f.behind) ∈ [("", ""), ("", "*"), ("const ", "*")]
  chars : IsWord f.word

variable {f : TypeForm}

theorem IsProper.isLocalType (h : f.IsProper) : Stmt.IsLocalType f.text := by
  have haround : ∀ x ∈ [("", ""), ("", "*"), ("const ", "*")],
      Stmt.IsLocalType x.1 ∧ Stmt.IsLocalType x.2 := by decide
  obtain ⟨hbefore, hbehind⟩ := haround _ h.around
  exact (hbefore.append (Stmt.isLocalType_of_isWord h.chars)).append hbehind

/-- A type starts and ends without a blank. -/
theorem IsProper.ends (h : f.IsProper) (hne : f.word ≠ "") : ∃ x cs y ds,
    f.text.toList = x :: cs ∧ x ≠ ' ' ∧ f.text.toList.reverse = y :: ds ∧ y ≠ ' ' := by
  obtain ⟨before, word, behind⟩ := f
  have hword := h.chars.ne (x := ' ') (by decide)
  replace hne : word.toList ≠ [] := fun e => hne (String.toList_eq_nil_iff.1 e)
  obtain ⟨x, cs, hx⟩ := List.exists_cons_of_ne_nil hne
  obtain ⟨y, ds, hy⟩ := List.exists_cons_of_ne_nil fun e => hne (List.reverse_eq_nil_iff.1 e)
  have hx' : x ≠ ' ' := hword x (by simp [hx])
  have hy' : y ≠ ' ' := hword y (by rw [← List.mem_reverse, hy]; simp)
  have haround := h.around
  simp only [List.mem_cons, Prod.mk.injEq, List.not_mem_nil, or_false] at haround
  rcases haround with ⟨rfl, rfl⟩ | ⟨rfl, rfl⟩ | ⟨rfl, rfl⟩
  · exact ⟨x, cs, y, ds, by simp [text, hx], hx', by simp [text, hy], hy'⟩
  · exact ⟨x, cs ++ ['*'], '*', y :: ds, by simp [text, hx], hx', by simp [text, hy], by decide⟩
  · exact ⟨'c', _, '*', _, by simp [text]; rfl, by decide, by simp [text]; rfl, by decide⟩

end TypeForm

namespace Code

theorem dropWhile_blanks (n : Nat) {x : Char} (hx : x ≠ ' ') (cs : List Char) :
    (List.replicate n ' ' ++ x :: cs).dropWhile (· == ' ') = x :: cs := by
  rw [List.dropWhile_append_of_pos (by simp [List.mem_replicate])]
  simp [hx]

/-- Blanks around a type do not count. -/
theorem typeOf_padded {f : TypeForm} (h : f.IsProper) (hne : f.word ≠ "") {s : String} (m n : Nat)
    (hs : s.toList = List.replicate m ' ' ++ f.text.toList ++ List.replicate n ' ') :
    typeOf s = some f.text := by
  obtain ⟨x, cs, y, ds, hx, hx', hy, hy'⟩ := h.ends hne
  have hblank (k : Nat) : (List.replicate k ' ').all isTypeChar = true := by
    rw [List.all_eq_true]
    intro c hc
    rw [List.eq_of_mem_replicate hc]
    decide
  have hall : s.toList.all isTypeChar = true := by
    rw [hs, List.all_append, List.all_append, hblank, hblank, List.all_eq_true.2 h.isLocalType]
    rfl
  have hany : s.toList.any isNameChar = true := by
    obtain ⟨c, hc⟩ := List.exists_mem_of_ne_nil f.word.toList
      fun e => hne (String.toList_eq_nil_iff.1 e)
    refine List.any_eq_true.2 ⟨c, ?_, h.chars c hc⟩
    simp [hs, TypeForm.text, hc]
  have hcut : unpadded s.toList = f.text.toList := by
    rw [unpadded, hs, List.append_assoc, hx, List.cons_append, dropWhile_blanks m hx',
      ← List.cons_append, ← hx, Text.dropEnd, List.reverse_append, List.reverse_replicate, hy,
      dropWhile_blanks n hy', ← hy, List.reverse_reverse]
  rw [typeOf, if_pos (by rw [hall, hany]; rfl), hcut, String.ofList_toList]

theorem toList_padRight (n : Nat) (s : String) :
    (Text.padRight n s).toList = s.toList ++ List.replicate (n - s.length) ' ' := by
  rw [Text.padRight, String.toList_append, String.toList_ofList]

end Code

namespace Stmt

/-- A declaration declares its local with its type; handles, which are pointers, apart. -/
theorem declarations_declare {f : TypeForm} (h : f.IsProper) (hne : f.word ≠ "") {l : Local}
    (hl : ∀ k, l ≠ .gpuInput k ∧ l ≠ .gpuOutput k) (zeroed : Bool) (remark : String) :
    (Stmt.declare f.text l zeroed remark).code.declarations = [(f.text, l)] := by
  have hwide : Code.typeOf ("    " ++ Text.padRight 10 f.text ++ "  ") = some f.text := by
    refine Code.typeOf_padded h hne 4 (10 - f.text.length + 2) ?_
    rw [List.replicate_add]
    simp [Code.toList_padRight]
  have hnarrow : Code.typeOf ("    " ++ Text.padRight 10 f.text ++ " ") = some f.text := by
    refine Code.typeOf_padded h hne 4 (10 - f.text.length + 1) ?_
    rw [List.replicate_add]
    simp [Code.toList_padRight]
  cases l with
  | gpuInput k => exact absurd rfl (hl k).1
  | gpuOutput k => exact absurd rfl (hl k).2
  | gpuDims k =>
    simp [code, declareCode, Code.declarations, hnarrow, Code.endsDeclarator, Code.declaratorEnds]
  | _ =>
    cases zeroed <;>
      simp [code, declareCode, Code.declarations, hwide, Code.endsDeclarator, Code.declaratorEnds]

theorem declarations_gpuInput (k : Int) (zeroed : Bool) (remark : String) :
    (Stmt.declare "mxGPUArray const" (.gpuInput k) zeroed remark).code.declarations
      = [("mxGPUArray const *", .gpuInput k)] := by
  have htype : Code.typeOf ("    " ++ Text.padRight 10 "mxGPUArray const" ++ " *")
      = some "mxGPUArray const *" := by decide +kernel
  simp [code, declareCode, Code.declarations, htype, Code.endsDeclarator, Code.declaratorEnds]

theorem declarations_gpuOutput (k : Int) (zeroed : Bool) (remark : String) :
    (Stmt.declare "mxGPUArray" (.gpuOutput k) zeroed remark).code.declarations
      = [("mxGPUArray *", .gpuOutput k)] := by
  have htype : Code.typeOf ("    " ++ Text.padRight 10 "mxGPUArray" ++ " *")
      = some "mxGPUArray *" := by decide +kernel
  simp [code, declareCode, Code.declarations, htype, Code.endsDeclarator, Code.declaratorEnds]

theorem declarations_mwSize {l : Local} (hl : ∀ k, l ≠ .gpuInput k ∧ l ≠ .gpuOutput k)
    (zeroed : Bool) (remark : String) :
    (Stmt.declare "mwSize" l zeroed remark).code.declarations = [("mwSize", l)] :=
  declarations_declare (f := { word := "mwSize" }) ⟨by decide, by decide⟩ (by decide) hl zeroed remark

end Stmt

/-! ## What a variable declares -/

namespace Variable

variable {v : Variable} {ss : List Stmt}

/-- The type of a local is its base type, or a pointer to it, perhaps to constants. -/
theorem localType_form {type : String} (h : v.localType = .ok type) (hv : IsWord v.type) :
    ∃ f : TypeForm, f.IsProper ∧ type = f.text ∧ (v.type ≠ "" → f.word ≠ "") := by
  have helement : IsWord (if v.onGpu then Numeric.gpuType v.type else v.type) ∧
      (v.type ≠ "" → (if v.onGpu then Numeric.gpuType v.type else v.type) ≠ "") := by
    split
    · refine ⟨Numeric.isWord_gpuType hv, fun hne => ?_⟩
      unfold Numeric.gpuType
      split <;> first | exact hne | decide
    · exact ⟨hv, id⟩
  unfold localType at h
  dsimp only at h
  generalize (if v.onGpu then Numeric.gpuType v.type else v.type) = element at h helement
  split at h
  case h_1 | h_2 =>
    cases h
    exact ⟨{ word := element, behind := "*" }, ⟨by simp, helement.1⟩, by simp [TypeForm.text],
      helement.2⟩
  case h_3 =>
    cases h
    exact ⟨{ before := "const ", word := element, behind := "*" }, ⟨by simp, helement.1⟩, rfl,
      helement.2⟩
  case h_4 =>
    cases h
    exact ⟨{ word := v.type }, ⟨by simp, hv⟩, by simp [TypeForm.text], id⟩
  case h_5 =>
    cases h
    exact ⟨{ word := "char", behind := "*" }, ⟨by decide, by decide⟩, rfl, by simp⟩
  case h_6 =>
    cases h
    split
    · exact ⟨{ before := "const ", word := "mxArray", behind := "*" }, ⟨by decide, by decide⟩, rfl,
        by simp⟩
    · exact ⟨{ word := "mxArray", behind := "*" }, ⟨by decide, by decide⟩, rfl, by simp⟩
  all_goals cases h

theorem declared_declareInput (h : v.declareInput = .ok ss) (hv : IsWord v.type)
    (hne : v.type ≠ "") : declared ss = v.inputLocals := by
  unfold declareInput at h
  unfold inputLocals hasHandles
  split at h
  · rw [if_pos ‹_›]
    cases h
    rfl
  · rw [if_neg ‹_›]
    obtain ⟨type, htype, h⟩ := bind_eq_ok.1 h
    obtain ⟨f, hf, rfl, hword⟩ := localType_form htype hv
    have hlocal := Stmt.declarations_declare hf (hword hne) (l := .input v.inLabel) (by simp)
      v.kind.isPointerLocal v.name
    split at h
    · cases h
      rw [if_pos ‹_›]
      simp [hlocal, Stmt.declarations_gpuInput]
    · cases h
      rw [if_neg ‹_›]
      simp [hlocal]

theorem declared_declareOutput (h : v.declareOutput = .ok ss) (hv : IsWord v.type)
    (hne : v.type ≠ "") : declared ss = v.outputLocals := by
  unfold declareOutput at h
  unfold outputLocals hasHandles
  split at h
  · rw [if_pos ‹_›]
    cases h
    rfl
  · rw [if_neg ‹_›]
    obtain ⟨type, htype, h⟩ := bind_eq_ok.1 h
    obtain ⟨f, hf, rfl, hword⟩ := localType_form htype hv
    have hlocal := Stmt.declarations_declare hf (hword hne) (l := .output v.outLabel) (by simp)
      v.kind.isPointerLocal v.name
    have hdims := Stmt.declarations_mwSize (l := .gpuDims v.outLabel) (by simp) true v.name
    split at h
    · cases h
      rw [if_pos ‹_›]
      simp [hlocal, hdims, Stmt.declarations_gpuOutput]
    · cases h
      rw [if_neg ‹_›]
      simp [hlocal]

theorem declared_declareDims : declared v.declareDims = v.dimLocals := by
  unfold declareDims dimLocals
  induction v.dims with
  | nil => rfl
  | cons d ds ih =>
    rw [List.map_cons, declared_cons, ih, Stmt.declarations_mwSize (by simp)]
    rfl

end Variable

/-! ## What declares nothing -/

namespace Code

variable {s : String} {c : Code}

@[simp] theorem declarations_nil : declarations [] = [] := rfl

/-- A piece that spells no type; an abbreviation, which `simp` can see through. -/
abbrev isUntyped : Piece → Bool
  | .text s => !(s.toList.all isTypeChar && s.toList.any isNameChar)
  | _ => true

@[simp] theorem declarations_cons {p : Piece} (h : isUntyped p = true) :
    declarations (p :: c) = declarations c := by
  cases p with
  | text s =>
    have hnone : typeOf s = none := if_neg fun hall => by
      rw [isUntyped, hall] at h
      cases h
    cases c with
    | nil => rfl
    | cons q e =>
      cases q with
      | loc l => simp only [declarations, hnone]
      | _ => rfl
  | _ => rfl

-- The empty product, the numeral `1`, could be a type, but text comes behind it.
@[simp] theorem declarations_product (ds : List Int) :
    declarations (product ds ++ .text s :: c) = declarations (.text s :: c) := by
  fun_induction product ds with
  | case1 => rfl
  | case2 k => rfl
  | case3 k ks hks ih => exact (declarations_cons (p := .text "*") (by decide)).trans ih

@[simp] theorem declarations_actuals (xs : List Actual) :
    declarations (List.intercalate [Piece.text ", "] (xs.map (·.code)) ++ .text s :: c)
      = declarations (.text s :: c) := by
  have hactual (x : Actual) (s : String) (c : Code) :
      declarations (x.code ++ .text s :: c) = declarations (.text s :: c) := by
    cases x with
    | deref l => exact declarations_cons (p := .text "*") (by decide)
    | address l => exact declarations_cons (p := .text "&") (by decide)
    | _ => rfl
  induction xs with
  | nil => rfl
  | cons x xs ih =>
    cases xs with
    | nil => simp [hactual]
    | cons y ys =>
      simp only [List.map_cons] at ih ⊢
      rw [List.intercalate_cons_cons, List.append_assoc, List.append_assoc]
      exact (hactual x _ _).trans ((declarations_cons (by decide)).trans ih)

@[simp] theorem declarations_call (call : Call) :
    declarations (call.code ++ .text s :: c) = declarations (.text s :: c) := by
  unfold Call.code
  split <;> simp +decide [seq]

theorem declarations_disposal (call : Call) (d : Disposal) :
    (d.code call.code).declarations = [] := by
  unfold Disposal.code
  split <;> (try split) <;> simp +decide [seq]

@[simp] theorem declarations_arraySource (source : ArraySource) (k : Int) (type : String) :
    declarations (source.code k type ++ c) = declarations c := by
  cases source <;> by_cases htype : type = "double" <;>
    simp +decide [ArraySource.code, either, seq, classCheck, htype]

@[simp] theorem declarations_setArrayCode {margin : String}
    (hmargin : margin.toList.any isNameChar = false) (k i : Int) (type : String) (isComplex : Bool)
    (l : Local) (shape : Shape) :
    declarations (setArrayCode margin k i type isComplex l shape ++ c) = declarations c := by
  have hblank : isUntyped (.text margin) = true := by simp [isUntyped, hmargin]
  cases shape <;> by_cases hsingle : (Numeric.ofType type).single = true <;>
    simp +decide [setArrayCode, Shape.extent, Shape.count, sizeOfArgument, seq, hsingle, hblank]

end Code

/-- Declarations declare, and nothing else does. -/
theorem Stmt.declarations_code {s : Stmt} (h : s.stage ≠ some .declare) :
    s.code.declarations = [] := by
  cases s with
  | declare type l zeroed remark => exact absurd rfl h
  | call c d => exact Code.declarations_disposal c d
  | getObject k type source => cases source <;> simp +decide [code, Code.seq, leaveOnError]
  | getNumber k type =>
    by_cases htype : type = "char" <;> simp +decide [code, Code.seq, classCheck, leaveOnError, htype]
  | allocGpuArray k type isComplex rows cols => cases cols <;> simp +decide [code, Code.seq]
  | setArray k i type isComplex byRef l shape =>
    cases byRef with
    | false =>
      rw [code, if_neg (by decide), ← List.append_nil (setArrayCode ..)]
      exact Code.declarations_setArrayCode (by decide) ..
    | true => simp +decide [code, Code.either, Code.seq]
  | _ => simp +decide [code, Code.either, Code.seq, classCheck, leaveOnError, sizeOfArgument]

end MexBridge
