import MexBridge.Proofs.Routine.SignatureText
import MexBridge.Proofs.Stub.Locals

/-!
# Where locals get their values and where they go

The code of a stub is read for two things: the functions whose values it assigns to locals
(`Code.sources`), and the functions it hands locals to (`Code.passed`). Names of types are part of
the text, so both readings take them for made of the characters of names (`Stmt.Readable`). Then
the code of each statement assigns what `Stmt.sources` lists (`Stmt.sources_code`), and only
releases hand a local to a function that releases it (`Stmt.passed_code`).
-/

namespace MexBridge

/-- A text of the characters of names. -/
def IsWord (s : String) : Prop := ∀ c ∈ s.toList, isNameChar c = true

instance (s : String) : Decidable (IsWord s) :=
  List.decidableBAll (fun c => isNameChar c = true) s.toList

theorem IsWord.append {s u : String} (hs : IsWord s) (hu : IsWord u) : IsWord (s ++ u) := by
  intro c hc
  rw [String.toList_append, List.mem_append] at hc
  exact hc.elim (hs c) (hu c)

/-- No mark is a character of a word. -/
theorem IsWord.ne {s : String} (hs : IsWord s) {x : Char} (hx : isNameChar x = false) :
    ∀ c ∈ s.toList, c ≠ x := by
  rintro c hc rfl
  rw [hs c hc] at hx
  cases hx

namespace Numeric

theorem isWord_gpuType {type : String} (h : IsWord type) : IsWord (gpuType type) := by
  unfold gpuType
  split
  · decide
  · decide
  · exact h

theorem isWord_copierMark (type : String) : IsWord (copierMark type) := by
  unfold copierMark
  split <;> decide

theorem isWord_scalarGetter (type : String) : IsWord (ofType type).scalarGetter :=
  forall_ofType (P := fun n => IsWord n.scalarGetter) (by decide) (by decide) type

end Numeric

namespace Code

/-- The text that code starts with. -/
def lead : Code → List Char
  | .text s :: c => s.toList ++ lead c
  | _ => []

/-- What follows a cast and the blanks behind it. -/
def afterCast : List Char → List Char
  | '(' :: cs => ((cs.dropWhile (· ≠ ')')).drop 1).dropWhile (· = ' ')
  | cs => cs

/-- The function that a text starts with a call of. -/
def called (cs : List Char) : Option String :=
  if (cs.dropWhile isNameChar).head? = some '(' then some (String.ofList (cs.takeWhile isNameChar))
  else none

/-- The function whose value the text behind a local assigns to it. -/
def sourceOf (cs : List Char) : Option String :=
  if [' ', '=', ' '].isPrefixOf cs then called (afterCast (cs.drop 3)) else none

/-- The locals that code assigns values of functions to, with the functions. -/
def sources : Code → List (Local × String)
  | [] => []
  | .loc l :: c => (sourceOf (lead c)).toList.map (l, ·) ++ sources c
  | _ :: c => sources c

/-- The function whose arguments are about to come, by the text before them read backwards. -/
def callee : List Char → Option String
  | '(' :: cs => some (String.ofList (cs.takeWhile isNameChar).reverse)
  | _ => none

/-- The locals that are first arguments of functions, with the functions. The text right before the
code is given, backwards. -/
def passedAfter : List Char → Code → List (String × Local)
  | _, [] => []
  | cs, .text s :: c => passedAfter (s.toList.reverse ++ cs) c
  | cs, .loc l :: c => (callee cs).toList.map (·, l) ++ passedAfter [] c
  | _, _ :: c => passedAfter [] c

def passed (c : Code) : List (String × Local) := passedAfter [] c

/-- The locals that code sets to zero. -/
def zeroed : Code → List Local
  | [] => []
  | .loc l :: c =>
    if ['=', '0', ';'].isPrefixOf ((lead c).dropWhile (· = ' ')) then l :: zeroed c else zeroed c
  | _ :: c => zeroed c

/-! ## Reading a text -/

@[simp] theorem lead_nil : lead [] = [] := rfl

@[simp] theorem lead_text (s : String) (c : Code) : lead (.text s :: c) = s.toList ++ lead c := rfl

@[simp] theorem lead_loc (l : Local) (c : Code) : lead (.loc l :: c) = [] := rfl

@[simp] theorem lead_rhs (k : Int) (c : Code) : lead (.rhs k :: c) = [] := rfl

@[simp] theorem lead_lhs (k : Int) (c : Code) : lead (.lhs k :: c) = [] := rfl

@[simp] theorem lead_otherwise (f : Fork) (c : Code) : lead (.otherwise f :: c) = [] := rfl

@[simp] theorem lead_join (f : Fork) (c : Code) : lead (.join f :: c) = [] := rfl

@[simp] theorem sources_nil : sources [] = [] := rfl

@[simp] theorem sources_text (s : String) (c : Code) : sources (.text s :: c) = sources c := rfl

@[simp] theorem sources_rhs (k : Int) (c : Code) : sources (.rhs k :: c) = sources c := rfl

@[simp] theorem sources_lhs (k : Int) (c : Code) : sources (.lhs k :: c) = sources c := rfl

@[simp] theorem sources_fork (f : Fork) (c : Code) : sources (.fork f :: c) = sources c := rfl

@[simp] theorem sources_otherwise (f : Fork) (c : Code) :
    sources (.otherwise f :: c) = sources c := rfl

@[simp] theorem sources_join (f : Fork) (c : Code) : sources (.join f :: c) = sources c := rfl

@[simp] theorem sources_loc (l : Local) (c : Code) :
    sources (.loc l :: c) = (sourceOf (lead c)).toList.map (l, ·) ++ sources c := rfl

theorem called_name {f : String} (h : IsWord f) (cs : List Char) :
    called (f.toList ++ '(' :: cs) = some f := by
  have hparen : isNameChar '(' = false := by decide
  simp [called, List.dropWhile_append_of_pos h, List.takeWhile_append_of_pos h, hparen]

theorem afterCast_cast {cs : List Char} (h : ∀ c ∈ cs, c ≠ ')') (rest : List Char) :
    afterCast ('(' :: (cs ++ ')' :: rest)) = rest.dropWhile (· = ' ') := by
  simp only [afterCast]
  rw [List.dropWhile_append_of_pos (by simpa using h)]
  simp

theorem afterCast_name {cs : List Char} (h : cs.head? ≠ some '(') : afterCast cs = cs := by
  unfold afterCast
  split
  · simp at h
  · rfl

/-- A local is assigned the value of `f`. -/
theorem sources_call {s f : String} (hf : IsWord f) (hne : f ≠ "")
    (h : s.toList = ' ' :: '=' :: ' ' :: (f.toList ++ ['('])) (l : Local) (c : Code) :
    sources (.loc l :: .text s :: c) = (l, f) :: sources c := by
  have hname : (f.toList ++ '(' :: lead c).head? ≠ some '(' := by
    cases e : f.toList with
    | nil => exact absurd (String.toList_eq_nil_iff.1 e) hne
    | cons x xs => simpa using hf.ne (by decide) x (by simp [e])
  simp [sourceOf, h, afterCast_name hname, called_name hf]

/-- A local is assigned the value of `f`, cast to a pointer or to another type. -/
theorem sources_cast {s f : String} (type : String) (mark blanks : List Char) (hf : IsWord f)
    (htype : IsWord type) (hmark : ∀ c ∈ mark, c ≠ ')') (hblanks : ∀ c ∈ blanks, c = ' ')
    (h : s.toList
      = ' ' :: '=' :: ' ' :: '(' :: (type.toList ++ mark ++ ')' :: (blanks ++ (f.toList ++ ['(']))))
    (l : Local) (c : Code) : sources (.loc l :: .text s :: c) = (l, f) :: sources c := by
  have hcast : ∀ x ∈ type.toList ++ mark, x ≠ ')' :=
    List.forall_mem_append.2 ⟨htype.ne (by decide), hmark⟩
  have hrest : (blanks ++ (f.toList ++ '(' :: lead c)).dropWhile (· = ' ')
      = f.toList ++ '(' :: lead c := by
    rw [List.dropWhile_append_of_pos (by simpa using hblanks)]
    cases e : f.toList with
    | nil => simp
    | cons x xs =>
      have := hf.ne (x := ' ') (by decide) x (by simp [e])
      simp [this]
  have hlead : lead (.text s :: c) = ' ' :: '=' :: ' ' :: '(' ::
      (type.toList ++ mark ++ ')' :: (blanks ++ (f.toList ++ '(' :: lead c))) := by
    simp [h]
  have hsource : sourceOf (lead (.text s :: c)) = some f := by
    rw [hlead]
    simp only [sourceOf, List.isPrefixOf, beq_self_eq_true, Bool.true_and, if_true,
      List.drop_succ_cons, List.drop_zero]
    rw [afterCast_cast hcast, hrest, called_name hf]
  rw [sources_loc, hsource]
  rfl

/-- Text that starts otherwise assigns nothing. -/
theorem sources_skip {s : String} (hs : s.toList.head?.any (· != ' ') = true) (l : Local)
    (c : Code) : sources (.loc l :: .text s :: c) = sources c := by
  cases e : s.toList with
  | nil => simp [e] at hs
  | cons x cs =>
    have hx : x ≠ ' ' := by simpa [e] using hs
    simp [e, sourceOf, List.isPrefixOf, hx.symm]

/-- Text in two pieces reads as text in one. -/
theorem sources_loc_text_text (l : Local) (s u : String) (c : Code) :
    sources (.loc l :: .text s :: .text u :: c) = sources (.loc l :: .text (s ++ u) :: c) := by
  simp

/-- A factor of a product is no target of an assignment. -/
theorem sources_product {c : Code} (h : sourceOf (lead c) = none) (ds : List Int) :
    sources (product ds ++ c) = sources c := by
  fun_induction product ds with
  | case1 => rfl
  | case2 k => simp [h]
  | case3 k ks _ ih => simp [ih, sourceOf]

end Code

/-- The function that an object is taken by. -/
def ObjectSource.getter (type : String) : ObjectSource → String
  | .converted => "mxWrapGet_" ++ type
  | .plain => "mxWrapGetP"
  | .cast => "mxWrapGetP_" ++ type

/-- The functions that an array is taken by; one used in place, by either layout. -/
def ArraySource.getters (type : String) : ArraySource → List String
  | .inPlace =>
    [(Numeric.ofType type).accessor.getD "", if type = "double" then "mxGetPr" else "mxGetData"]
  | _ => ["mxWrapGetArray_" ++ Numeric.copierMark type ++ type]

namespace Stmt

/-- The type that a statement names in its text. -/
def typeName : Stmt → String
  | .getObject _ type _ => type
  | .getArray _ type _ => type
  | .getGpuArray _ type => type
  | .getNumber _ type => type
  | .allocObject _ type => type
  | .allocArray _ type _ => type
  | .nullArray _ type => type
  | .allocGpuArray _ type .. => type
  | .setConverted _ type _ => type
  | .setComplex _ type _ => type
  | .freeConverted type _ => type
  | _ => ""

/-- A statement whose text can be read: its type is a word, and there is a way to use an array in
place. -/
structure Readable (s : Stmt) : Prop where
  type : IsWord s.typeName
  direct : ∀ k type, s = .getArray k type .inPlace → (Numeric.ofType type).direct = true

/-- The locals that a statement assigns values of functions to, with the functions. -/
def sources : Stmt → List (Local × String)
  | .getDim k => [(.dim k, "mxWrapGetScalar")]
  | .getObject k type source => [(.input k, source.getter type)]
  | .getArray k type source => (source.getters type).map (.input k, ·)
  | .getGpuArray k _ =>
    [(.gpuInput k, "mxGPUCreateFromMxArray"), (.input k, "mxGPUGetDataReadOnly")]
  | .getString k => [(.input k, "mxWrapGetString")]
  | .getSizedString k _ => [(.input k, "mxMalloc")]
  | .getNumber k type => [(.input k, (Numeric.ofType type).scalarGetter)]
  | .allocObject k type => [(.output k, "mxWrapAlloc_" ++ type)]
  | .allocArray k _ _ => [(.output k, "mxMalloc")]
  | .allocString k _ => [(.output k, "mxMalloc")]
  | .allocGpuArray k .. => [(.gpuOutput k, "mxGPUCreateGPUArray"), (.output k, "mxGPUGetData")]
  | _ => []

section

variable {k : Int} {type : String}

theorem sources_getObject {source : ObjectSource} (h : IsWord type) :
    (Stmt.getObject k type source).code.sources = [(.input k, source.getter type)] := by
  cases source <;> simp only [code, Code.seq, List.flatten_cons, List.cons_append, List.nil_append,
    Code.sources_text, Code.sources_loc_text_text]
  case converted =>
    have hget : IsWord ("mxWrapGet_" ++ type) := .append (by decide) h
    rw [Code.sources_call hget (by simp) (by simp)]
    rfl
  case plain =>
    rw [Code.sources_cast (f := "mxWrapGetP") type ['*'] [' '] (by decide) h
      (by simp) (by simp) (by simp)]
    rfl
  case cast =>
    have hget : IsWord ("mxWrapGetP_" ++ type) := .append (by decide) h
    rw [Code.sources_call hget (by simp) (by simp)]
    rfl

theorem sources_getArray {source : ArraySource} (h : IsWord type)
    (hin : source = .inPlace → (Numeric.ofType type).direct = true) :
    (Stmt.getArray k type source).code.sources = (source.getters type).map (.input k, ·) := by
  have hcopier : IsWord ("mxWrapGetArray_" ++ Numeric.copierMark type ++ type) :=
    .append (.append (by decide) (Numeric.isWord_copierMark type)) h
  cases source with
  | copy =>
    simp only [code, ArraySource.code, Code.seq, sizeOfArgument, List.flatten_cons,
      List.flatten_nil, List.cons_append, List.nil_append, Code.sources_text, Code.sources_rhs]
    rw [Code.sources_call hcopier (by simp) (by simp)]
    rfl
  | checkedCopy =>
    simp only [code, ArraySource.code, classCheck, Code.seq, sizeOfArgument, List.flatten_cons,
      List.flatten_nil, List.cons_append, List.nil_append, Code.sources_text, Code.sources_rhs]
    rw [Code.sources_call hcopier (by simp) (by simp)]
    rfl
  | inPlace =>
    rcases Numeric.direct_iff.1 (hin rfl) with rfl | rfl <;> rfl

theorem sources_getGpuArray (h : IsWord type) :
    (Stmt.getGpuArray k type).code.sources
      = [(.gpuInput k, "mxGPUCreateFromMxArray"), (.input k, "mxGPUGetDataReadOnly")] := by
  simp only [code, Code.sources_text, Code.sources_rhs]
  rw [Code.sources_call (f := "mxGPUCreateFromMxArray") (by decide) (by decide) rfl]
  simp only [Code.sources_text, Code.sources_rhs]
  rw [Code.sources_cast (f := "mxGPUGetDataReadOnly") _ [' ', '*'] [] (by decide)
    (Numeric.isWord_gpuType h) (by simp) (by simp) (by simp)]
  rfl

theorem sources_getSizedString (dims : List Int) :
    (Stmt.getSizedString k dims).code.sources = [(.input k, "mxMalloc")] := by
  simp only [code, Code.seq, List.flatten_cons, List.flatten_nil, List.cons_append, List.nil_append,
    Code.sources_text]
  rw [Code.sources_cast (f := "mxMalloc") "char" ['*'] [' '] (by decide) (by decide)
    (by simp) (by simp) (by simp), Code.sources_product rfl]
  simp only [Code.sources_text, Code.sources_rhs, Code.sources_loc]
  rw [Code.sources_product rfl]
  rfl

theorem sources_getNumber (h : IsWord type) :
    (Stmt.getNumber k type).code.sources = [(.input k, (Numeric.ofType type).scalarGetter)] := by
  simp only [code, Code.seq, classCheck, List.flatten_cons, List.flatten_nil, List.cons_append,
    List.nil_append, Code.sources_text, Code.sources_rhs]
  rw [Code.sources_cast type [] [' '] (Numeric.isWord_scalarGetter type) h
    (by simp) (by simp) (by simp)]
  split <;> rfl

theorem sources_allocObject (h : IsWord type) :
    (Stmt.allocObject k type).code.sources = [(.output k, "mxWrapAlloc_" ++ type)] := by
  have hget : IsWord ("mxWrapAlloc_" ++ type) := .append (by decide) h
  have htext : "();\n" = "(" ++ ");\n" := rfl
  simp only [code, Code.sources_text]
  rw [htext, ← String.append_assoc, ← Code.sources_loc_text_text,
    Code.sources_call hget (by simp) (by simp)]
  rfl

theorem sources_allocArray (type : String) (h : IsWord type) (dims : List Int) :
    (Stmt.allocArray k type dims).code.sources = [(.output k, "mxMalloc")] := by
  simp only [code, Code.seq, List.flatten_cons, List.flatten_nil, List.cons_append, List.nil_append,
    Code.sources_text]
  rw [Code.sources_cast (f := "mxMalloc") type ['*'] [' '] (by decide) h
    (by simp) (by simp) (by simp), Code.sources_product (by simp [Code.sourceOf])]
  rfl

theorem sources_nullArray (h : IsWord type) : (Stmt.nullArray k type).code.sources = [] := by
  have hcast : ∀ c ∈ type.toList ++ ['*'], c ≠ ')' :=
    List.forall_mem_append.2 ⟨h.ne (by decide), by simp⟩
  have hlead : Code.lead [.text (" = (" ++ type ++ "*) NULL;\n")]
      = ' ' :: '=' :: ' ' :: '(' :: (type.toList ++ ['*'] ++ ')' :: " NULL;\n".toList) := by
    simp
  simp only [code, Code.sources_text, Code.sources_loc]
  rw [hlead, Code.sourceOf, if_pos (by rfl)]
  simp only [List.drop_succ_cons, List.drop_zero]
  rw [Code.afterCast_cast hcast]
  rfl

theorem sources_allocString (dims : List Int) :
    (Stmt.allocString k dims).code.sources = [(.output k, "mxMalloc")] :=
  sources_allocArray "char" (by decide) dims

theorem sources_allocGpuArray {isComplex : Bool} {rows : Int} {cols : Option Int}
    (h : IsWord type) :
    (Stmt.allocGpuArray k type isComplex rows cols).code.sources
      = [(.gpuOutput k, "mxGPUCreateGPUArray"), (.output k, "mxGPUGetData")] := by
  have hcreate (u : String) (c : Code) :
      Code.sources (.loc (.gpuOutput k) :: .text (" = mxGPUCreateGPUArray(" ++ u ++ ", ") :: c)
        = (.gpuOutput k, "mxGPUCreateGPUArray") :: c.sources := by
    rw [String.append_assoc, ← Code.sources_loc_text_text,
      Code.sources_call (f := "mxGPUCreateGPUArray") (by decide) (by decide) rfl, Code.sources_text]
  have hget (c : Code) :
      Code.sources (.loc (.output k) ::
          .text (" = (" ++ Numeric.gpuType type ++ " *)mxGPUGetData(") :: c)
        = (.output k, "mxGPUGetData") :: c.sources :=
    Code.sources_cast _ [' ', '*'] [] (by decide) (Numeric.isWord_gpuType h) (by simp) (by simp)
      (by simp) _ _
  cases cols with
  | none =>
    simp only [code, Code.seq, List.flatten_cons, List.flatten_nil, List.cons_append,
      List.nil_append, Code.sources_text]
    rw [Code.sources_skip rfl, Code.sources_skip rfl, hcreate, Code.sources_skip (by simp), hget,
      Code.sources_skip rfl, Code.sources_nil]
  | some n =>
    simp only [code, Code.seq, List.flatten_cons, List.flatten_nil, List.cons_append,
      List.nil_append, Code.sources_text]
    rw [Code.sources_skip rfl, Code.sources_skip rfl, Code.sources_skip rfl, Code.sources_skip rfl,
      hcreate, Code.sources_skip (by simp), hget, Code.sources_skip rfl, Code.sources_nil]

theorem sources_setArrayCode (margin : String) (k i : Int) (type : String) (isComplex : Bool)
    (l : Local) (shape : Shape) (c : Code) :
    Code.sources (setArrayCode margin k i type isComplex l shape ++ c) = Code.sources c := by
  cases hs : (Numeric.ofType type).single <;> cases shape <;>
    simp [setArrayCode, Shape.extent, Shape.count, Code.seq, sizeOfArgument, hs, Code.sourceOf,
      Code.sources_product]

end

theorem sources_code {s : Stmt} (h : s.Readable) (hcall : s.isCall = false) :
    s.code.sources = s.sources := by
  cases s with
  | call c d => simp [isCall] at hcall
  | declare type l zeroed remark =>
    cases l <;> cases zeroed <;> simp [code, declareCode, sources, Code.sourceOf]
  | getDim k =>
    exact Code.sources_cast "mwSize" [] [' '] (by decide) (by decide) (by simp) (by simp)
      rfl (.dim k) _
  | getObject k type source => exact sources_getObject h.type
  | getArray k type source => exact sources_getArray h.type fun e => h.direct k type (e ▸ rfl)
  | getGpuArray k type => exact sources_getGpuArray h.type
  | getString k => exact Code.sources_call (by decide) (by decide) rfl (.input k) _
  | getSizedString k dims => exact sources_getSizedString dims
  | getNumber k type => exact sources_getNumber h.type
  | getMx k => rfl
  | allocObject k type => exact sources_allocObject h.type
  | allocArray k type dims => exact sources_allocArray type h.type dims
  | nullArray k type => exact sources_nullArray h.type
  | allocString k dims => exact sources_allocString dims
  | allocGpuArray k type isComplex rows cols => exact sources_allocGpuArray h.type
  | setArray k i type isComplex byRef l shape =>
    cases byRef with
    | false =>
      have := sources_setArrayCode "    " k i type isComplex l shape []
      rwa [List.append_nil] at this
    | true => simp [code, sources, Code.either, Code.seq, sources_setArrayCode]
  | _ =>
    simp [code, sources, Code.seq, Code.either, classCheck, sizeOfArgument, leaveOnError,
      Code.sourceOf]

end Stmt

/-! ## What is handed on -/

/-- The functions that release what a local holds. -/
def releasers : List String := ["mxFree", "mxGPUDestroyGPUArray"]

theorem underscore_notMem_releasers : ∀ f ∈ releasers, '_' ∉ f.toList := by decide

/-- Does the function release what a local holds, or an object converted for it? -/
def isReleaser (f : String) : Bool :=
  releasers.contains f || "mxWrapFree_".toList.isPrefixOf f.toList

theorem notMem_releasers {f : String} (h : isReleaser f = false) : f ∉ releasers := by
  rw [isReleaser, Bool.or_eq_false_iff] at h
  simpa using h.1

/-- A name that starts otherwise is none of a function that releases. -/
theorem isReleaser_append {p : String} (hmark : '_' ∈ p.toList)
    (hp : ¬ p.toList <+: "mxWrapFree_".toList ∧ ¬ "mxWrapFree_".toList <+: p.toList)
    (type : String) : isReleaser (p ++ type) = false := by
  have hlist : (p ++ type) ∉ releasers := fun hmem =>
    underscore_notMem_releasers _ hmem (by simp [hmark])
  have hstart : ¬ "mxWrapFree_".toList <+: (p ++ type).toList := by
    intro hpre
    have hself : p.toList <+: (p ++ type).toList := by simp
    rcases List.prefix_or_prefix_of_prefix hself hpre with hle | hle
    · exact hp.1 hle
    · exact hp.2 hle
  rw [← List.isPrefixOf_iff_prefix, Bool.not_eq_true] at hstart
  rw [isReleaser, hstart, Bool.or_false]
  simpa using hlist

namespace Code

theorem callee_word {f : String} (hf : IsWord f) {x : Char} (hx : isNameChar x = false)
    (cs : List Char) : callee ('(' :: (f.toList.reverse ++ x :: cs)) = some f := by
  have hrev : ∀ c ∈ f.toList.reverse, isNameChar c = true :=
    fun c hc => hf c (List.mem_reverse.1 hc)
  simp [callee, List.takeWhile_append_of_pos hrev, hx]

/-- A local right behind the text is not handed to a function that releases it. -/
def Spares (s : String) : Prop :=
  ∀ cs, ∀ f ∈ callee (s.toList.reverse ++ cs), isReleaser f = false

/-- Only a parenthesis opens a call. -/
theorem spares_plain {s : String} (hs : s.toList.getLast?.any (· != '(') = true) : Spares s := by
  intro cs
  have hcallee : callee (s.toList.reverse ++ cs) = none := by
    rw [← List.head?_reverse] at hs
    cases e : s.toList.reverse with
    | nil => simp [e] at hs
    | cons x xs =>
      rw [List.cons_append, callee]
      rintro ys h
      simp_all
  simp [hcallee]

theorem spares_call {s f : String} (u : String) (hf : IsWord f) (hr : isReleaser f = false)
    (h : s = u ++ " " ++ f ++ "(" ∨ s = u ++ ")" ++ f ++ "(") : Spares s := by
  intro cs
  have hcallee : ∀ x, isNameChar x = false → s.toList = u.toList ++ x :: (f.toList ++ ['(']) →
      callee (s.toList.reverse ++ cs) = some f := by
    intro x hx hs
    have hcs : s.toList.reverse ++ cs
        = '(' :: (f.toList.reverse ++ x :: (u.toList.reverse ++ cs)) := by
      simp [hs]
    rw [hcs, callee_word hf hx]
  have : callee (s.toList.reverse ++ cs) = some f := by
    rcases h with rfl | rfl
    · exact hcallee ' ' (by decide) (by simp)
    · exact hcallee ')' (by decide) (by simp)
  simpa [this] using hr

theorem spares_append {s u : String} (hu : Spares u) : Spares (s ++ u) := by
  intro cs
  simpa using hu (s.toList.reverse ++ cs)

/-- Every local behind a text is spared by it. -/
def Calm : Code → Prop
  | .text s :: .loc _ :: c => Spares s ∧ Calm c
  | _ :: c => Calm c
  | [] => True

/-- Calm code releases nothing, whatever text comes before it, unless it starts with a local. -/
theorem Calm.passedAfter {c : Code} (h : Calm c) {cs : List Char}
    (hcs : cs = [] ∨ ∀ l c', c ≠ .loc l :: c') :
    ∀ p ∈ passedAfter cs c, isReleaser p.1 = false := by
  fun_induction Calm c generalizing cs with
  | case1 s l c ih =>
    have hs : ∀ p ∈ (callee (s.toList.reverse ++ cs)).toList.map (·, l),
        isReleaser p.1 = false := by
      simpa using h.1 cs
    exact List.forall_mem_append.2 ⟨hs, ih h.2 (Or.inl rfl)⟩
  | case2 x c hx ih =>
    cases x with
    | text s =>
      exact ih h (Or.inr fun l c' e => hx s l c' rfl e)
    | loc l =>
      have : cs = [] := hcs.resolve_right fun hne => hne l c rfl
      subst this
      exact ih h (Or.inl rfl)
    | _ => exact ih h (Or.inl rfl)
  | case3 => simp [Code.passedAfter]

theorem calm_product {s u : String} {c : Code} (hs : Spares s) (hc : Calm (.text u :: c))
    (ds : List Int) : Calm (.text s :: (product ds ++ .text u :: c)) := by
  fun_induction product ds generalizing s with
  | case1 => exact hc
  | case2 k => exact ⟨hs, hc⟩
  | case3 k ks _ ih => exact ⟨hs, ih (spares_plain rfl)⟩

end Code

namespace Stmt

theorem calm_malloc (type : String) {u : String} {c : Code} (hc : Code.Calm (.text u :: c))
    (l : Local) (dims : List Int) :
    Code.Calm (.text "    " :: .loc l :: .text (" = (" ++ type ++ "*) mxMalloc(")
      :: (Code.product dims ++ .text u :: c)) :=
  ⟨Code.spares_plain rfl, Code.calm_product (Code.spares_append
    (Code.spares_call "*)" (f := "mxMalloc") (by decide) (by decide) (Or.inl rfl))) hc dims⟩

theorem calm_setArrayCode (margin : String) (k i : Int) (type : String) (isComplex : Bool)
    (l : Local) (shape : Shape) {c : Code} (hc : Code.Calm (.text ");\n" :: c)) :
    Code.Calm (setArrayCode margin k i type isComplex l shape ++ c) := by
  have hnumeric : Code.Spares " = mxCreateNumericMatrix(" :=
    Code.spares_call " =" (f := "mxCreateNumericMatrix") (by decide) (by decide) (Or.inl rfl)
  have hdouble : Code.Spares " = mxCreateDoubleMatrix(" :=
    Code.spares_call " =" (f := "mxCreateDoubleMatrix") (by decide) (by decide) (Or.inl rfl)
  cases shape with
  | same =>
    cases hs : (Numeric.ofType type).single <;>
      simp (disch := decide) [setArrayCode, Shape.extent, Shape.count, Code.seq, sizeOfArgument, hs,
        Code.Calm, Code.spares_plain, hc]
  | column ds =>
    have hcount : Code.Calm (.text ", " :: (Code.product ds ++ .text ");\n" :: c)) :=
      Code.calm_product (Code.spares_plain rfl) hc ds
    have hcopy (s u : String) : Code.Calm (.text ", 1" :: .text s :: .text u :: .lhs k :: .text ", "
        :: .loc l :: .text ", " :: (Code.product ds ++ .text ");\n" :: c)) :=
      ⟨Code.spares_plain rfl, hcount⟩
    cases hs : (Numeric.ofType type).single <;>
      simp only [setArrayCode, Shape.extent, Shape.count, Code.seq, hs, List.flatten_cons,
        List.flatten_nil, List.cons_append, List.nil_append, List.append_assoc]
    · exact Code.calm_product hdouble (hcopy _ _) ds
    · exact Code.calm_product hnumeric (hcopy _ _) ds
  | matrix m n =>
    cases hs : (Numeric.ofType type).single <;>
      simp (disch := decide) [setArrayCode, Shape.extent, Shape.count, Code.seq, hs, Code.Calm,
        Code.spares_plain, hnumeric, hdouble, hc]

theorem calm_code {s : Stmt} (h : IsWord s.typeName) (hcall : s.isCall = false)
    (hcomplex : ∀ k type l, s ≠ .setComplex k type l) (hrelease : s.stage ≠ some .release) :
    Code.Calm s.code := by
  cases s with
  | call c d => simp [isCall] at hcall
  | free l => simp [stage] at hrelease
  | freeConverted type l => simp [stage] at hrelease
  | destroyGpu l => simp [stage] at hrelease
  | declare type l zeroed remark =>
    cases l <;> exact ⟨Code.spares_append (Code.spares_plain rfl), trivial⟩
  | getObject k type source =>
    cases source <;>
      simp (disch := decide) [code, Code.seq, leaveOnError, Code.Calm, Code.spares_plain]
  | getArray k type source =>
    cases source with
    | inPlace =>
      simp only [code, ArraySource.code]
      split <;>
        simp (disch := decide) [classCheck, Code.seq, sizeOfArgument, Code.either, Code.Calm,
          Code.spares_plain]
    | _ =>
      simp (disch := decide) [code, ArraySource.code, classCheck, Code.seq, sizeOfArgument,
        Code.Calm, Code.spares_plain]
  | getNumber k type =>
    simp only [code]
    split <;>
      simp (disch := decide) [Code.seq, classCheck, leaveOnError, Code.Calm, Code.spares_plain]
  | getGpuArray k type =>
    have hget : Code.Spares (" = (" ++ Numeric.gpuType type ++ " *)mxGPUGetDataReadOnly(") :=
      Code.spares_append
        (Code.spares_call " *" (f := "mxGPUGetDataReadOnly") (by decide) (by decide) (Or.inr rfl))
    simp (disch := decide) [code, Code.Calm, Code.spares_plain, hget]
  | getSizedString k dims =>
    have hend : Code.Calm (.text ", " :: (Code.product dims
        ++ [.text ") != 0) \x7b\n        mw_err_txt_ = \"Invalid string argument\";\n",
          .text "        goto mw_err_label;\n    \x7d\n\n"])) := by
      refine Code.calm_product (Code.spares_plain rfl) ?_ dims
      trivial
    refine calm_malloc "char" (u := "*sizeof(char));\n    if (mxGetString(") ?_ (.input k) dims
    exact ⟨Code.spares_plain rfl, hend⟩
  | getComplex k type =>
    have hget : Code.Spares ("    mxWrapGetScalar_" ++ Numeric.copierMark type ++ type ++ "(&") :=
      Code.spares_append (Code.spares_plain rfl)
    simp [code, Code.seq, classCheck, Code.Calm, hget]
  | allocArray k type dims =>
    exact calm_malloc type (u := "*sizeof(" ++ type ++ "));\n") (c := []) trivial (.output k) dims
  | allocString k dims =>
    exact calm_malloc "char" (u := "*sizeof(char));\n") (c := []) trivial (.output k) dims
  | allocGpuArray k type isComplex rows cols =>
    have hclass (u : String) : Code.Spares (u ++ ", MX_GPU_DO_NOT_INITIALIZE);\n    ") :=
      Code.spares_append (Code.spares_plain rfl)
    have hget : Code.Spares (" = (" ++ Numeric.gpuType type ++ " *)mxGPUGetData(") :=
      Code.spares_append
        (Code.spares_call " *" (f := "mxGPUGetData") (by decide) (by decide) (Or.inr rfl))
    cases cols <;>
      simp (disch := decide) [code, Code.seq, Code.Calm, Code.spares_plain, hclass, hget]
  | setConverted k type l =>
    have hset : isReleaser ("mxWrapSet_" ++ type) = false :=
      isReleaser_append (by decide) (by decide) type
    have htext : " = mxWrapSet_" ++ type ++ "(" = " =" ++ " " ++ ("mxWrapSet_" ++ type) ++ "(" := by
      rw [← String.toList_inj]
      simp
    exact ⟨Code.spares_call " =" (.append (by decide) h) hset (Or.inl htext), trivial⟩
  | setPointer k type =>
    exact ⟨Code.spares_call " =" (f := "mxWrapCreateP") (by decide) (by decide) (Or.inl rfl),
      trivial⟩
  | setArray k i type isComplex byRef l shape =>
    cases byRef with
    | false =>
      have := calm_setArrayCode "    " k i type isComplex l shape (c := []) trivial
      rwa [List.append_nil] at this
    | true =>
      have := calm_setArrayCode "        " k i type isComplex l shape
        (c := [.join (.null (.output k))]) trivial
      simpa [code, Code.either, Code.seq, Code.Calm] using this
  | setComplex k type l => exact absurd rfl (hcomplex k type l)
  | setString k l =>
    exact ⟨Code.spares_call " =" (f := "mxCreateString") (by decide) (by decide) (Or.inl rfl),
      trivial⟩
  | setGpuArray k =>
    exact ⟨Code.spares_call " =" (f := "mxGPUCreateMxArrayOnGPU") (by decide) (by decide)
      (Or.inl rfl), trivial⟩
  | _ =>
    simp (disch := decide) [code, Code.seq, sizeOfArgument, leaveOnError, Code.either,
      Code.Calm, Code.spares_plain]

/-- The parts of a complex number are taken by functions named for its type; what comes before
their names is another text. -/
theorem passed_setComplex {type : String} (h : IsWord type) (k : Int) (l : Local) :
    ∀ p ∈ (Stmt.setComplex k type l).code.passed, p.1 = "real_" ++ type ∨ p.1 = "imag_" ++ type := by
  have hpart {f : String} (hf : IsWord f) (cs : List Char) :
      Code.callee ('(' :: (type.toList.reverse ++ (f.toList.reverse ++ ' ' :: cs)))
        = some (f ++ type) := by
    have := Code.callee_word (hf.append h) (x := ' ') (by decide) cs
    simpa using this
  have hre := hpart (f := "real_") (by decide)
  have him := hpart (f := "imag_") (by decide)
  simp at hre him
  simp [code, Code.either, Code.seq, Code.passed, Code.passedAfter, hre, him]

/-- Nothing is released before the error label. -/
theorem passed_code {s : Stmt} (h : IsWord s.typeName) (hcall : s.isCall = false)
    (hrelease : s.stage ≠ some .release) : ∀ p ∈ s.code.passed, isReleaser p.1 = false := by
  by_cases hcomplex : ∃ k type l, s = .setComplex k type l
  · obtain ⟨k, type, l, rfl⟩ := hcomplex
    intro p hp
    rcases passed_setComplex h k l p hp with e | e <;> rw [e]
    · exact isReleaser_append (by decide) (by decide) type
    · exact isReleaser_append (by decide) (by decide) type
  · refine (calm_code h hcall (fun k type l e => hcomplex ⟨k, type, l, e⟩) hrelease).passedAfter ?_
    exact Or.inl rfl

/-- A release reads as two calls: the test of the local calls a function without name. -/
theorem passed_guarded {s f : String} (hf : IsWord f) (u : List Char)
    (h : s.toList = u ++ ' ' :: (f.toList ++ ['('])) (l : Local) :
    Code.passed [.text "    if (", .loc l, .text s, .loc l, .text ");\n"] = [("", l), (f, l)] := by
  have hs : s.toList.reverse ++ [] = '(' :: (f.toList.reverse ++ ' ' :: u.reverse) := by simp [h]
  have hcallee : Code.callee (s.toList.reverse ++ []) = some f := by
    rw [hs, Code.callee_word hf (by decide)]
  simp only [Code.passed, Code.passedAfter, hcallee]
  rfl

theorem toList_gap (l : Local) : ∃ u, (code.gap l).toList = u ++ [' '] := by
  cases l with
  | output k => exact ⟨[], by simp [code.gap]⟩
  | _ => exact ⟨[' '], by simp [code.gap]⟩

theorem passed_free (l : Local) : (Stmt.free l).code.passed = [("", l), ("mxFree", l)] := by
  obtain ⟨u, hu⟩ := toList_gap l
  exact passed_guarded (by decide) (')' :: u) (by simp [hu]) l

theorem passed_freeConverted {type : String} (h : IsWord type) (l : Local) :
    (Stmt.freeConverted type l).code.passed = [("", l), ("mxWrapFree_" ++ type, l)] := by
  obtain ⟨u, hu⟩ := toList_gap l
  exact passed_guarded (.append (by decide) h) (')' :: u) (by simp [hu]) l

theorem passed_destroyGpu (l : Local) :
    (Stmt.destroyGpu l).code.passed = [("", l), ("mxGPUDestroyGPUArray", l)] :=
  passed_guarded (by decide) [')', ' '] (by decide) l

/-! ## What is set to zero -/

theorem zeroed_declare (type remark : String) {l : Local}
    (h : ∀ k, l ≠ .dim k ∧ l ≠ .gpuDims k) : l ∈ (Stmt.declare type l true remark).code.zeroed := by
  cases l with
  | dim k => exact absurd rfl (h k).1
  | gpuDims k => exact absurd rfl (h k).2
  | _ => simp [code, declareCode, Code.zeroed]

end Stmt

end MexBridge
