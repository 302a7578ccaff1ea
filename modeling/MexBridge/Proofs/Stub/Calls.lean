import MexBridge.Proofs.Stub.Anonymous
import MexBridge.Proofs.Stub.Declarations
import Mathlib.Tactic.ByContra

/-!
# The helpers that a stub calls

The code of a stub is read for the functions it calls: the names that stand right before opening
brackets (`Code.calls`). What the user writes freely is left out of the reading, such as the names
of variables in messages and the wrapped function itself (`Stmt.impersonal`). Of all calls, those of
helpers that the gateway file has to define are the ones `Stmt.helpers` lists (`Stmt.mem_helpers`).
-/

namespace MexBridge

/-- How the names of helpers start. -/
def helperStems : List String :=
  ["mxWrapGetArray_", "mxWrapCopy_", "mxWrapReturn_", "mxWrapGetScalar_", "mxWrapGetP_", "MWF77_"]

def isHelper (f : String) : Bool := helperStems.any fun p => p.toList.isPrefixOf f.toList

/-- How the names of functions start that user code provides for its types. -/
def conversionStems : List String :=
  ["mxWrapGet_", "mxWrapSet_", "mxWrapAlloc_", "mxWrapFree_", "real_", "imag_"]

theorem isWord_conversionStems : ∀ p ∈ conversionStems, IsWord p ∧ p ≠ "" := by decide

/-- A function that user code provides for a type is no helper, whatever the type. -/
theorem isHelper_conversion {p : String} (hp : p ∈ conversionStems) (type : String) :
    isHelper (p ++ type) = false := by
  have hapart : ∀ p ∈ conversionStems, ∀ f ∈ helperStems,
      ¬ p.toList <+: f.toList ∧ ¬ f.toList <+: p.toList := by decide
  unfold isHelper
  rw [List.any_eq_false]
  intro f hf hpre
  have hself : p.toList <+: (p ++ type).toList := by simp
  rcases List.prefix_or_prefix_of_prefix hself (List.isPrefixOf_iff_prefix.1 hpre) with hle | hle
  · exact (hapart p hp f hf).1 hle
  · exact (hapart p hp f hf).2 hle

theorem underscore_of_isHelper {f : String} (h : isHelper f = true) : '_' ∈ f.toList := by
  obtain ⟨p, hp, hpre⟩ := List.any_eq_true.1 h
  have hstems : ∀ p ∈ helperStems, '_' ∈ p.toList := by decide
  exact (List.isPrefixOf_iff_prefix.1 hpre).subset (hstems p hp)

namespace Code

/-- The name that a text ends with, backwards, where `w` is the name right before it. -/
def wordAfter (w cs : List Char) : List Char :=
  cs.foldl (fun w c => if isNameChar c then c :: w else []) w

/-- The names right before opening brackets in a text. -/
def callsIn (w : List Char) : List Char → List String
  | [] => []
  | c :: cs =>
    (if c = '(' ∧ w ≠ [] then [String.ofList w.reverse] else []) ++ callsIn (wordAfter w [c]) cs

/-- The functions that code calls. -/
def callsAfter : List Char → Code → List String
  | _, [] => []
  | w, .text s :: c => callsIn w s.toList ++ callsAfter (wordAfter w s.toList) c
  | _, _ :: c => callsAfter [] c

def calls (c : Code) : List String := callsAfter [] c

/-! ## Reading a text -/

theorem wordAfter_append (w as bs : List Char) :
    wordAfter w (as ++ bs) = wordAfter (wordAfter w as) bs := List.foldl_append

theorem callsIn_append (w as bs : List Char) :
    callsIn w (as ++ bs) = callsIn w as ++ callsIn (wordAfter w as) bs := by
  induction as generalizing w with
  | nil => rfl
  | cons a as ih =>
    rw [List.cons_append, callsIn, callsIn, ih, List.append_assoc]
    rfl

/-- Where there is no bracket, nothing is called. -/
theorem callsIn_eq_nil {cs : List Char} (h : '(' ∉ cs) (w : List Char) : callsIn w cs = [] := by
  induction cs generalizing w with
  | nil => rfl
  | cons c cs ih =>
    have hc : c ≠ '(' := fun e => h (by simp [e])
    rw [callsIn, if_neg (fun e => hc e.1), ih (fun hcs => h (List.mem_cons_of_mem c hcs))]
    rfl

theorem wordAfter_word {cs : List Char} (h : ∀ c ∈ cs, isNameChar c = true) (w : List Char) :
    wordAfter w cs = cs.reverse ++ w := by
  induction cs generalizing w with
  | nil => rfl
  | cons c cs ih =>
    obtain ⟨hc, hcs⟩ := List.forall_mem_cons.1 h
    calc wordAfter w (c :: cs) = wordAfter (c :: w) cs := by simp [wordAfter, hc]
      _ = (c :: cs).reverse ++ w := by rw [ih hcs]; simp

/-- A text that starts with a mark other than a bracket does not continue a name. -/
def Marked (s : String) : Prop := s.toList.head?.any (fun c => !isNameChar c && c != '(') = true

instance (s : String) : Decidable (Marked s) :=
  inferInstanceAs (Decidable (s.toList.head?.any (fun c => !isNameChar c && c != '(') = true))

theorem Marked.read {s : String} (h : Marked s) (w : List Char) :
    callsIn w s.toList = callsIn [] s.toList ∧ wordAfter w s.toList = wordAfter [] s.toList := by
  unfold Marked at h
  cases e : s.toList with
  | nil => simp [e] at h
  | cons c cs =>
    obtain ⟨hname, hparen⟩ : isNameChar c = false ∧ c ≠ '(' := by simpa [e] using h
    constructor
    · simp [callsIn, hparen, wordAfter, hname]
    · simp [wordAfter, hname]

/-- A text that calls no helper and does not end in a name. -/
structure Plain (s : String) : Prop where
  calls : ∀ f ∈ callsIn [] s.toList, isHelper f = false
  ends : wordAfter [] s.toList = []

instance (s : String) : Decidable (Plain s) :=
  have := List.decidableBAll (fun f => isHelper f = false) (callsIn [] s.toList)
  decidable_of_iff ((∀ f ∈ callsIn [] s.toList, isHelper f = false) ∧ wordAfter [] s.toList = [])
    ⟨fun h => ⟨h.1, h.2⟩, fun h => ⟨h.calls, h.ends⟩⟩

/-- No name that is called has an underscore, and the end is no name. -/
def isPlain (cs : List Char) : Bool :=
  (callsIn [] cs).all (!·.toList.contains '_') && (wordAfter [] cs).isEmpty

/-- What is written out in code is seen to be plain from the list of its characters. -/
theorem plain_literal {cs : List Char} (h : isPlain cs = true) : Plain (String.ofList cs) := by
  obtain ⟨hcalls, hends⟩ := (Bool.and_eq_true_iff ..).1 h
  refine ⟨?_, by rw [String.toList_ofList]; exact List.isEmpty_iff.1 hends⟩
  rw [String.toList_ofList]
  intro f hf
  by_contra hhelper
  have hmem := underscore_of_isHelper (Bool.not_eq_false _ ▸ hhelper)
  simpa [hmem] using List.all_eq_true.1 hcalls f hf

theorem marked_literal {c : Char} {cs : List Char} (h : (!isNameChar c && c != '(') = true) :
    Marked (String.ofList (c :: cs)) := by
  simpa [Marked] using h

/-- Two texts between which a name can be put. -/
structure Encloses (a b : String) : Prop where
  before : Plain a
  after : Plain b
  mark : Marked b

theorem encloses_literals {as bs : List Char} {c : Char} (ha : isPlain as = true)
    (hb : isPlain (c :: bs) = true) (hc : (!isNameChar c && c != '(') = true) :
    Encloses (String.ofList as) (String.ofList (c :: bs)) :=
  ⟨plain_literal ha, plain_literal hb, marked_literal hc⟩

/-- What is put in without brackets calls nothing, if a mark follows. -/
theorem plain_insert {s : String} (a : String) (cs : List Char) (b : String)
    (h : s.toList = a.toList ++ (cs ++ b.toList)) (hcs : '(' ∉ cs) (hab : Encloses a b) :
    Plain s := by
  obtain ⟨ha, hb, hmark⟩ := hab
  obtain ⟨hcalls, hends⟩ := hmark.read (wordAfter [] cs)
  constructor
  · rw [h, callsIn_append, callsIn_append, callsIn_eq_nil hcs, ha.ends, hcalls]
    exact List.forall_mem_append.2 ⟨ha.calls, hb.calls⟩
  · rw [h, wordAfter_append, wordAfter_append, ha.ends, hends, hb.ends]

theorem callsIn_call {s a b f : String} (h : s.toList = a.toList ++ (f.toList ++ '(' :: b.toList))
    (ha : Plain a) (hf : IsWord f) (hne : f ≠ "") :
    callsIn [] s.toList = callsIn [] a.toList ++ f :: callsIn [] b.toList := by
  have hparen : '(' ∉ f.toList := fun hmem => hf.ne (by decide) _ hmem rfl
  have hrev : f.toList.reverse ≠ [] := by simpa using hne
  have hmark : isNameChar '(' = false := by decide
  rw [h, callsIn_append, callsIn_append, callsIn_eq_nil hparen, ha.ends, wordAfter_word hf,
    List.append_nil, callsIn, if_pos ⟨rfl, hrev⟩]
  simp [wordAfter, hmark]

theorem wordAfter_call {s a b f : String} (h : s.toList = a.toList ++ (f.toList ++ '(' :: b.toList))
    (hb : Plain b) : wordAfter [] s.toList = [] := by
  have hcons : '(' :: b.toList = ['('] ++ b.toList := rfl
  rw [h, wordAfter_append, wordAfter_append, hcons, wordAfter_append]
  exact hb.ends

/-- A call of a function that is no helper. -/
theorem plain_call {s : String} (a : String) {f : String} (b : String)
    (h : s.toList = a.toList ++ (f.toList ++ '(' :: b.toList)) (ha : Plain a) (hb : Plain b)
    (hf : IsWord f) (hne : f ≠ "") (hother : isHelper f = false) : Plain s := by
  refine ⟨?_, wordAfter_call h hb⟩
  rw [callsIn_call h ha hf hne]
  exact List.forall_mem_append.2 ⟨ha.calls, List.forall_mem_cons.2 ⟨hother, hb.calls⟩⟩

/-! ## Reading code -/

/-- The helpers that code calls are all in a list. -/
def HelpersIn (hs : List String) (w : List Char) (c : Code) : Prop :=
  ∀ f ∈ callsAfter w c, isHelper f = true → f ∈ hs

section

variable {hs : List String} {w : List Char} {c : Code} {s : String}

@[simp] theorem helpersIn_nil : HelpersIn hs w [] := by simp [HelpersIn, callsAfter]

@[simp] theorem helpersIn_loc (l : Local) : HelpersIn hs w (.loc l :: c) ↔ HelpersIn hs [] c :=
  Iff.rfl

@[simp] theorem helpersIn_rhs (k : Int) : HelpersIn hs w (.rhs k :: c) ↔ HelpersIn hs [] c :=
  Iff.rfl

@[simp] theorem helpersIn_lhs (k : Int) : HelpersIn hs w (.lhs k :: c) ↔ HelpersIn hs [] c :=
  Iff.rfl

@[simp] theorem helpersIn_lhsAddress (k : Int) :
    HelpersIn hs w (.lhsAddress k :: c) ↔ HelpersIn hs [] c := Iff.rfl

@[simp] theorem helpersIn_fork (f : Fork) : HelpersIn hs w (.fork f :: c) ↔ HelpersIn hs [] c :=
  Iff.rfl

@[simp] theorem helpersIn_otherwise (f : Fork) :
    HelpersIn hs w (.otherwise f :: c) ↔ HelpersIn hs [] c := Iff.rfl

@[simp] theorem helpersIn_join (f : Fork) : HelpersIn hs w (.join f :: c) ↔ HelpersIn hs [] c :=
  Iff.rfl

theorem helpersIn_text : HelpersIn hs w (.text s :: c) ↔
    (∀ f ∈ callsIn w s.toList, isHelper f = true → f ∈ hs) ∧
      HelpersIn hs (wordAfter w s.toList) c :=
  List.forall_mem_append

theorem helpersIn_plain (h : Plain s) : HelpersIn hs [] (.text s :: c) ↔ HelpersIn hs [] c := by
  rw [helpersIn_text, h.ends]
  refine and_iff_right fun f hf hhelper => ?_
  rw [h.calls f hf] at hhelper
  cases hhelper

theorem helpersIn_marked (h : Marked s) (w : List Char) :
    HelpersIn hs w (.text s :: c) ↔ HelpersIn hs [] (.text s :: c) := by
  rw [helpersIn_text, helpersIn_text, (h.read w).1, (h.read w).2]

theorem helpersIn_call (a : String) {f : String} (b : String)
    (h : s.toList = a.toList ++ (f.toList ++ '(' :: b.toList)) (hf : IsWord f) (hne : f ≠ "")
    (hmem : f ∈ hs) (ha : Plain a) (hb : Plain b) :
    HelpersIn hs [] (.text s :: c) ↔ HelpersIn hs [] c := by
  rw [helpersIn_text, callsIn_call h ha hf hne, wordAfter_call h hb]
  refine and_iff_right (List.forall_mem_append.2 ⟨?_, List.forall_mem_cons.2 ⟨fun _ => hmem, ?_⟩⟩)
  · intro g hg hhelper
    simp [ha.calls g hg] at hhelper
  · intro g hg hhelper
    simp [hb.calls g hg] at hhelper

theorem helpersIn_product (h : Marked s) (ds : List Int) :
    HelpersIn hs [] (product ds ++ .text s :: c) ↔ HelpersIn hs [] (.text s :: c) := by
  fun_induction product ds with
  | case1 =>
    have hone :
        HelpersIn hs [] (.text "1" :: .text s :: c) ↔ HelpersIn hs ['1'] (.text s :: c) := by
      rw [helpersIn_text, callsIn_eq_nil (by decide)]
      exact and_iff_right (by simp)
    exact hone.trans (helpersIn_marked h _)
  | case2 k => rfl
  | case3 k ks _ ih => exact (helpersIn_plain (by decide)).trans ih

end

end Code

namespace Numeric

open Code (Plain)

/-- No text of the table holds a bracket, and its accessors are no helpers. -/
theorem plain_ofType (type : String) :
    '(' ∉ (ofType type).mxClass.toList ∧ '(' ∉ (ofType type).scalarClass.toList ∧
      Plain (" = " ++ (ofType type).accessor.getD "" ++ "(") :=
  forall_ofType (P := fun n => '(' ∉ n.mxClass.toList ∧ '(' ∉ n.scalarClass.toList ∧
    Plain (" = " ++ n.accessor.getD "" ++ "(")) (by decide) (by decide) type

end Numeric

/-! ## Reading statements -/

/-- Functions have names of the user's, FORTRAN routines those of the macros for them. -/
def Callee.impersonal : Callee → Callee
  | .fortran name => .fortran name
  | _ => .plain ""

/-- A constant is the user's. -/
def Actual.impersonal : Actual → Actual
  | .literal _ => .literal ""
  | x => x

def Call.impersonal (x : Call) : Call :=
  { x with callee := x.callee.impersonal, args := x.args.map Actual.impersonal }

/-- The constructor of a class is the user's. -/
def Disposal.impersonal : Disposal → Disposal
  | .keptCopy _ => .kept
  | d => d

def Callee.named : Callee → List String
  | .fortran name => [name]
  | _ => []

def Callee.helpers : Callee → List String
  | .fortran name => ["MWF77_" ++ name]
  | _ => []

def Disposal.named : Disposal → List String
  | .converted type => [type]
  | .convertedAddress type => [type]
  | .copiedNumber type => [type]
  | .copiedArray type _ => [type]
  | _ => []

def Disposal.helpers : Disposal → List String
  | .copiedNumber type => ["mxWrapReturn_" ++ type]
  | .copiedArray type _ => ["mxWrapReturn_" ++ type]
  | _ => []

namespace Stmt

/-- A statement without what the user writes freely: names of variables and functions, constants,
and constructors. -/
def impersonal : Stmt → Stmt
  | .call c d => .call c.impersonal d.impersonal
  | s => s.masked

/-- The functions that a statement calls, those with names of the user's apart. -/
def calls (s : Stmt) : List String := s.impersonal.code.calls

/-- The names of types and routines in the code of a statement; declarations are left out. -/
def named : Stmt → List String
  | .getObject _ type _ => [type]
  | .getArray _ type _ => [type]
  | .getGpuArray _ type => [type]
  | .getNumber _ type => [type]
  | .getComplex _ type => [type]
  | .allocObject _ type => [type]
  | .allocArray _ type _ => [type]
  | .nullArray _ type => [type]
  | .allocGpuArray _ type .. => [type]
  | .call c d => c.callee.named ++ d.named
  | .endTry name => [name]
  | .setConverted _ type _ => [type]
  | .setPointer _ type => [type]
  | .setArray _ _ type .. => [type]
  | .setComplex _ type _ => [type]
  | .freeConverted type _ => [type]
  | _ => []

/-- A statement whose calls can be read: its names are words, and what it declares has the type of a
local. -/
structure Spelled (s : Stmt) : Prop where
  named : ∀ n ∈ s.named, IsWord n
  declared : ∀ type l zeroed remark, s = .declare type l zeroed remark → IsLocalType type

/-- The helpers that a statement calls. A real number is read by one of the runtime support. -/
def helpers : Stmt → List String
  | .getObject _ type .cast => ["mxWrapGetP_" ++ type]
  | .getArray _ _ .inPlace => []
  | .getArray _ type _ => ["mxWrapGetArray_" ++ Numeric.copierMark type ++ type]
  | .getNumber _ type => [(Numeric.ofType type).scalarGetter]
  | .getComplex _ type => ["mxWrapGetScalar_" ++ Numeric.copierMark type ++ type]
  | .call c d => c.callee.helpers ++ d.helpers
  | .setArray _ _ type .. => ["mxWrapCopy_" ++ Numeric.copierMark type ++ type]
  | _ => []

section

open Code

variable {hs : List String} {c : Code} {k : Int} {type : String}

theorem helpersIn_classCheck {margin what cls : String} (hcls : '(' ∉ cls.toList)
    (hif : Plain (margin ++ "if( mxGetClassID("))
    (htext : Plain (margin ++ "    mw_err_txt_ = \"Invalid " ++ what ++ " argument, "))
    (hgoto : Plain (margin ++ "if (mw_err_txt_) goto mw_err_label;\n")) :
    HelpersIn hs [] (classCheck margin k what cls ++ c) ↔ HelpersIn hs [] c := by
  have hne : Plain (") != " ++ cls ++ " )\n") := 
    plain_insert ") != " _ " )\n" (by simp) hcls (encloses_literals rfl rfl rfl)
  have herr : Plain (margin ++ "    mw_err_txt_ = \"Invalid " ++ what ++ " argument, " ++ cls
      ++ " expected\";\n") :=
    plain_insert _ _ " expected\";\n" (by simp) hcls
      ⟨htext, plain_literal rfl, marked_literal rfl⟩
  simp only [classCheck, List.cons_append, List.nil_append, helpersIn_plain hif, helpersIn_rhs,
    helpersIn_plain hne, helpersIn_plain herr, helpersIn_plain hgoto]

theorem notMem_of_isWord {f : String} (hf : IsWord f) : '(' ∉ f.toList :=
  fun hmem => hf.ne (by decide) _ hmem rfl

/-- A cast to a type, or to pointers to it, calls nothing. -/
theorem plain_cast {s : String} (a b : String) (h : s = a ++ type ++ b) (htype : IsWord type)
    (hab : Encloses a b) : Plain s :=
  plain_insert a _ b (by simp [h]) (notMem_of_isWord htype) hab

/-- A call of a function that user code provides for a type. -/
theorem plain_conversion {s : String} (a p type b : String)
    (h : s.toList = a.toList ++ (p.toList ++ (type.toList ++ '(' :: b.toList)))
    (htype : IsWord type) (hp : p ∈ conversionStems) (ha : Plain a) (hb : Plain b) :
    Plain s := by
  obtain ⟨hword, hne⟩ := isWord_conversionStems p hp
  exact plain_call (f := p ++ type) a b (by simp [h]) ha hb (hword.append htype) (by simp [hne])
    (isHelper_conversion hp type)

theorem isWord_copier {stem : String} (hstem : IsWord stem) (htype : IsWord type) :
    IsWord (stem ++ Numeric.copierMark type ++ type) :=
  (hstem.append (Numeric.isWord_copierMark type)).append htype

theorem helpersIn_declare {l : Local} {zeroed : Bool} (h : IsLocalType type) :
    HelpersIn hs [] (Stmt.declare type l zeroed "").code := by
  have hpad : '(' ∉ (Text.padRight 10 type).toList := by
    simp [Text.padRight, h.ne (x := '(') (by decide)]
  have hwide : Plain ("    " ++ Text.padRight 10 type ++ "  ") :=
    plain_insert "    " _ "  " (by simp) hpad (encloses_literals rfl rfl rfl)
  have hstar : Plain ("    " ++ Text.padRight 10 type ++ " *") :=
    plain_insert "    " _ " *" (by simp) hpad (encloses_literals rfl rfl rfl)
  have hblank : Plain ("    " ++ Text.padRight 10 type ++ " ") :=
    plain_insert "    " _ " " (by simp) hpad (encloses_literals rfl rfl rfl)
  have hremark : remarkText "" = "/*           " := rfl
  cases l <;> cases zeroed <;>
    simp (disch := exact plain_literal rfl) [code, declareCode, hremark, helpersIn_plain,
      helpersIn_plain hwide, helpersIn_plain hstar, helpersIn_plain hblank]

theorem helpersIn_getObject {source : ObjectSource} (htype : IsWord type) :
    HelpersIn (helpers (.getObject k type source)) [] (Stmt.getObject k type source).code := by
  cases source with
  | converted =>
    have hget : Plain ("mxWrapGet_" ++ type ++ "(") :=
      plain_conversion "" "mxWrapGet_" type "" (by simp) htype (by simp [conversionStems])
        (plain_literal rfl) (plain_literal rfl)
    simp (disch := exact plain_literal rfl) [code, Code.seq, leaveOnError, helpersIn_plain,
      helpersIn_plain hget]
  | plain =>
    have hcast : Plain ("(" ++ type ++ "*) mxWrapGetP(") :=
      plain_cast "(" "*) mxWrapGetP(" rfl htype (encloses_literals rfl rfl rfl)
    have hformat : Plain (", \"" ++ type ++ ":%p\"") :=
      plain_insert ", \"" (type.toList ++ [':']) "%p\"" (by simp)
        (by simpa using notMem_of_isWord htype) (encloses_literals rfl rfl rfl)
    simp (disch := exact plain_literal rfl) [code, Code.seq, leaveOnError, helpersIn_plain,
      helpersIn_plain hcast, helpersIn_plain hformat]
  | cast =>
    have hget (c : Code) : HelpersIn ["mxWrapGetP_" ++ type] []
        (.text ("mxWrapGetP_" ++ type ++ "(") :: c) ↔ HelpersIn ["mxWrapGetP_" ++ type] [] c :=
      helpersIn_call (f := "mxWrapGetP_" ++ type) "" "" (by simp) (.append (by decide) htype)
        (by simp) (by simp) (plain_literal rfl) (plain_literal rfl)
    simp (disch := exact plain_literal rfl) [code, helpers, Code.seq, leaveOnError,
      helpersIn_plain, hget]

theorem helpersIn_getArray {source : ArraySource} (htype : IsWord type) :
    HelpersIn (helpers (.getArray k type source)) [] (Stmt.getArray k type source).code := by
  obtain ⟨hclass, -, haccess⟩ := Numeric.plain_ofType type
  have hcheck {hs : List String} {c : Code} :
      HelpersIn hs [] (classCheck "        " k "array" (Numeric.ofType type).mxClass ++ c)
        ↔ HelpersIn hs [] c :=
    helpersIn_classCheck hclass (by decide) (by decide) (by decide)
  have hcopy (c : Code) : HelpersIn ["mxWrapGetArray_" ++ Numeric.copierMark type ++ type] []
        (.text (" = mxWrapGetArray_" ++ Numeric.copierMark type ++ type ++ "(") :: c)
      ↔ HelpersIn ["mxWrapGetArray_" ++ Numeric.copierMark type ++ type] [] c :=
    helpersIn_call (f := "mxWrapGetArray_" ++ Numeric.copierMark type ++ type) " = " "" (by simp)
      (isWord_copier (by decide) htype) (by simp) (by simp) (plain_literal rfl) (plain_literal rfl)
  cases source with
  | copy =>
    simp (disch := exact plain_literal rfl) [code, ArraySource.code, helpers, Code.seq,
      sizeOfArgument, helpersIn_plain, hcopy]
  | checkedCopy =>
    simp (disch := exact plain_literal rfl) [code, ArraySource.code, helpers, Code.seq,
      sizeOfArgument, helpersIn_plain, hcheck, hcopy]
  | inPlace =>
    have hdata : Plain (" = (" ++ type ++ "*) mxGetData(") :=
      plain_cast " = (" "*) mxGetData(" rfl htype (encloses_literals rfl rfl rfl)
    simp only [code, ArraySource.code]
    split <;>
      simp (disch := exact plain_literal rfl) [Code.seq, Code.either, sizeOfArgument,
        helpersIn_plain, hcheck, helpersIn_plain haccess, helpersIn_plain hdata]

theorem helpersIn_getGpuArray (htype : IsWord type) :
    HelpersIn hs [] (Stmt.getGpuArray k type).code := by
  have hcast : Plain (" = (" ++ Numeric.gpuType type ++ " *)mxGPUGetDataReadOnly(") :=
    plain_cast " = (" " *)mxGPUGetDataReadOnly(" rfl (Numeric.isWord_gpuType htype)
      (encloses_literals rfl rfl rfl)
  simp (disch := exact plain_literal rfl) [code, helpersIn_plain, helpersIn_plain hcast]

theorem helpersIn_getSizedString (dims : List Int) :
    HelpersIn hs [] (Stmt.getSizedString k dims).code := by
  simp (disch := first | exact plain_literal rfl | exact marked_literal rfl) [code, Code.seq,
    helpersIn_plain, helpersIn_product]

theorem helpersIn_scalarCheck {c : Code} :
    HelpersIn hs [] (classCheck "    " k "scalar" (Numeric.ofType type).scalarClass ++ c)
      ↔ HelpersIn hs [] c := by
  obtain ⟨-, hclass, -⟩ := Numeric.plain_ofType type
  exact helpersIn_classCheck hclass (by decide) (by decide) (by decide)

theorem helpersIn_getNumber (htype : IsWord type) :
    HelpersIn (helpers (.getNumber k type)) [] (Stmt.getNumber k type).code := by
  have hcast : Plain (" = (" ++ type ++ ") ") :=
    plain_cast " = (" ") " rfl htype (encloses_literals rfl rfl rfl)
  have hne : (Numeric.ofType type).scalarGetter ≠ "" :=
    Numeric.forall_ofType (P := fun n => n.scalarGetter ≠ "") (by decide) (by decide) type
  have hget (c : Code) : HelpersIn [(Numeric.ofType type).scalarGetter] []
        (.text (" = (" ++ type ++ ") " ++ (Numeric.ofType type).scalarGetter ++ "(") :: c)
      ↔ HelpersIn [(Numeric.ofType type).scalarGetter] [] c :=
    helpersIn_call (" = (" ++ type ++ ") ") "" (by simp) (Numeric.isWord_scalarGetter type) hne
      (by simp) hcast (plain_literal rfl)
  simp only [code, helpers, Code.seq, List.flatten_cons, List.flatten_nil]
  split <;>
    simp (disch := exact plain_literal rfl) [leaveOnError, helpersIn_scalarCheck, helpersIn_plain, hget]

theorem helpersIn_getComplex (htype : IsWord type) :
    HelpersIn (helpers (.getComplex k type)) [] (Stmt.getComplex k type).code := by
  have hget (c : Code) : HelpersIn ["mxWrapGetScalar_" ++ Numeric.copierMark type ++ type] []
        (.text ("    mxWrapGetScalar_" ++ Numeric.copierMark type ++ type ++ "(&") :: c)
      ↔ HelpersIn ["mxWrapGetScalar_" ++ Numeric.copierMark type ++ type] [] c :=
    helpersIn_call (f := "mxWrapGetScalar_" ++ Numeric.copierMark type ++ type) "    " "&" (by simp)
      (isWord_copier (by decide) htype) (by simp) (by simp) (plain_literal rfl) (plain_literal rfl)
  simp (disch := exact plain_literal rfl) [code, helpers, Code.seq, helpersIn_scalarCheck,
    helpersIn_plain, hget]

theorem helpersIn_allocArray (type : String) (htype : IsWord type) (dims : List Int) :
    HelpersIn hs [] (Stmt.allocArray k type dims).code := by
  have hcast : Plain (" = (" ++ type ++ "*) mxMalloc(") :=
    plain_cast " = (" "*) mxMalloc(" rfl htype (encloses_literals rfl rfl rfl)
  have hsize : Plain ("*sizeof(" ++ type ++ "));\n") :=
    plain_cast "*sizeof(" "));\n" rfl htype (encloses_literals rfl rfl rfl)
  have hmark : Marked ("*sizeof(" ++ type ++ "));\n") := by
    simp only [Marked, String.toList_append]
    rfl
  simp (disch := exact plain_literal rfl) [code, Code.seq, helpersIn_plain,
    helpersIn_product hmark, helpersIn_plain hcast, helpersIn_plain hsize]

theorem helpersIn_allocGpuArray {isComplex : Bool} {rows : Int} {cols : Option Int}
    (htype : IsWord type) :
    HelpersIn hs [] (Stmt.allocGpuArray k type isComplex rows cols).code := by
  obtain ⟨hclass, -, -⟩ := Numeric.plain_ofType type
  have hcast : Plain (" = (" ++ Numeric.gpuType type ++ " *)mxGPUGetData(") :=
    plain_cast " = (" " *)mxGPUGetData(" rfl (Numeric.isWord_gpuType htype)
      (encloses_literals rfl rfl rfl)
  have hcreate : Plain (", " ++ (Numeric.ofType type).mxClass ++ ", "
      ++ (if isComplex then "mxCOMPLEX" else "mxREAL")
      ++ ", MX_GPU_DO_NOT_INITIALIZE);\n    ") := by
    cases isComplex with
    | false =>
      exact plain_insert ", " _ ", mxREAL, MX_GPU_DO_NOT_INITIALIZE);\n    " (by simp) hclass
        (encloses_literals rfl rfl rfl)
    | true =>
      exact plain_insert ", " _ ", mxCOMPLEX, MX_GPU_DO_NOT_INITIALIZE);\n    " (by simp) hclass
        (encloses_literals rfl rfl rfl)
  cases cols <;>
    simp (disch := exact plain_literal rfl) [code, Code.seq, helpersIn_plain,
      helpersIn_plain hcreate, helpersIn_plain hcast]

theorem helpersIn_actuals (xs : List Actual) :
    HelpersIn hs []
        (List.intercalate [Piece.text ", "] ((xs.map Actual.impersonal).map (·.code)) ++ c)
      ↔ HelpersIn hs [] c := by
  have hx (x : Actual) (c : Code) :
      HelpersIn hs [] (x.impersonal.code ++ c) ↔ HelpersIn hs [] c := by
    cases x <;> simp (disch := exact plain_literal rfl) [Actual.impersonal, Actual.code,
      helpersIn_plain]
  induction xs with
  | nil => simp
  | cons x xs ih =>
    cases xs with
    | nil => simpa using hx x c
    | cons y ys =>
      simp only [List.map_cons] at ih ⊢
      rw [List.intercalate_cons_cons, List.append_assoc, List.append_assoc, hx]
      exact (helpersIn_plain (by decide)).trans ih

/-- Of the call itself, only the name of a FORTRAN routine is read. -/
theorem helpersIn_callCode {x : Call} (hname : ∀ n ∈ x.callee.named, IsWord n)
    (hmem : ∀ f ∈ x.callee.helpers, f ∈ hs) :
    HelpersIn hs [] (x.impersonal.code ++ c) ↔ HelpersIn hs [] c := by
  have hcallee (c : Code) : HelpersIn hs [] (.text (x.callee.impersonal.text ++ "(") :: c)
      ↔ HelpersIn hs [] c := by
    cases hx : x.callee with
    | fortran name =>
      have hword : IsWord name := hname name (by simp [hx, Callee.named])
      exact helpersIn_call (f := "MWF77_" ++ name) "" "" (by simp [Callee.impersonal, Callee.text])
        (.append (by decide) hword) (by simp) (hmem _ (by simp [hx, Callee.helpers]))
        (plain_literal rfl) (plain_literal rfl)
    | _ =>
      show HelpersIn hs [] (.text ("" ++ "(") :: c) ↔ _
      exact helpersIn_plain (by decide)
  unfold Call.impersonal Call.code
  cases x.method <;> simp (disch := exact plain_literal rfl) only [Code.seq,
    Bool.false_eq_true, if_true, if_false, List.flatten_cons, List.flatten_nil, List.nil_append,
    List.append_nil, List.cons_append, List.append_assoc, helpersIn_loc, helpersIn_plain, hcallee,
    helpersIn_actuals]

theorem helpersIn_call_disposal {x : Call} {d : Disposal}
    (hname : ∀ n ∈ x.callee.named, IsWord n) (htype : ∀ n ∈ d.named, IsWord n) :
    HelpersIn (x.callee.helpers ++ d.helpers) [] (impersonal (.call x d)).code := by
  have hx {c : Code} : HelpersIn (x.callee.helpers ++ d.helpers) [] (x.impersonal.code ++ c)
      ↔ HelpersIn (x.callee.helpers ++ d.helpers) [] c :=
    helpersIn_callCode hname fun f hf => List.mem_append_left _ hf
  have hreturn {type : String} (htype : IsWord type)
      (hmem : "mxWrapReturn_" ++ type ∈ x.callee.helpers ++ d.helpers) (c : Code) :
      HelpersIn (x.callee.helpers ++ d.helpers) []
          (.text (" = mxWrapReturn_" ++ type ++ "(") :: c)
        ↔ HelpersIn (x.callee.helpers ++ d.helpers) [] c :=
    helpersIn_call (f := "mxWrapReturn_" ++ type) " = " "" (by simp) (.append (by decide) htype)
      (by simp) hmem (plain_literal rfl) (plain_literal rfl)
  cases d with
  | converted type =>
    have hset : Plain (" = mxWrapSet_" ++ type ++ "(") :=
      plain_conversion " = " "mxWrapSet_" type "" (by simp) (htype type (by simp [Disposal.named]))
        (by simp [conversionStems]) (plain_literal rfl) (plain_literal rfl)
    simp (disch := exact plain_literal rfl) [impersonal, Disposal.impersonal, code,
      Disposal.code, Code.seq, helpersIn_plain, helpersIn_plain hset, hx]
  | convertedAddress type =>
    have hset : Plain (" = mxWrapSet_" ++ type ++ "(&(") :=
      plain_conversion " = " "mxWrapSet_" type "&(" (by simp)
        (htype type (by simp [Disposal.named])) (by simp [conversionStems]) (plain_literal rfl)
        (plain_literal rfl)
    simp (disch := exact plain_literal rfl) [impersonal, Disposal.impersonal, code,
      Disposal.code, Code.seq, helpersIn_plain, helpersIn_plain hset, hx]
  | copiedNumber type =>
    have hreturn := hreturn (htype type (by simp [Disposal.named])) (by simp [Disposal.helpers])
    simp (disch := exact plain_literal rfl) [impersonal, Disposal.impersonal, code,
      Disposal.code, Code.seq, helpersIn_plain, hreturn, hx]
  | copiedArray type dims =>
    have hreturn := hreturn (htype type (by simp [Disposal.named])) (by simp [Disposal.helpers])
    simp only [impersonal, Disposal.impersonal, code, Disposal.code]
    split <;>
      simp (disch := first | exact plain_literal rfl | exact marked_literal rfl) [Code.seq,
        helpersIn_plain, helpersIn_product, hreturn, hx]
  | _ =>
    simp (disch := exact plain_literal rfl) [impersonal, Disposal.impersonal, code,
      Disposal.code, Code.seq, helpersIn_plain, hx]

theorem helpersIn_setArrayCode {margin : String} (hmargin : Plain margin) {i : Int}
    {isComplex : Bool} {l : Local} {shape : Shape} (htype : IsWord type)
    (hmem : "mxWrapCopy_" ++ Numeric.copierMark type ++ type ∈ hs) :
    HelpersIn hs [] (setArrayCode margin k i type isComplex l shape ++ c) ↔ HelpersIn hs [] c := by
  have hcopy (c : Code) : HelpersIn hs []
        (.text (margin ++ "mxWrapCopy_" ++ Numeric.copierMark type ++ type ++ "(") :: c)
      ↔ HelpersIn hs [] c :=
    helpersIn_call margin "" (by simp) (isWord_copier (by decide) htype) (by simp) hmem hmargin
      (plain_literal rfl)
  have hone {s : String} (h : Marked s) (c : Code) :
      HelpersIn hs [] (.text ", 1" :: .text s :: c) ↔ HelpersIn hs [] (.text s :: c) := by
    rw [helpersIn_text, callsIn_eq_nil (by decide), helpersIn_marked h]
    simp
  cases hsingle : (Numeric.ofType type).single <;> cases isComplex <;> cases shape <;>
    simp (disch := first | exact plain_literal rfl | exact marked_literal rfl) [setArrayCode,
      Shape.extent, Shape.count, Code.seq, sizeOfArgument, hsingle, helpersIn_plain,
      helpersIn_plain hmargin, helpersIn_product, hone, hcopy]

theorem helpersIn_setArray {i : Int} {isComplex byRef : Bool} {l : Local} {shape : Shape}
    (htype : IsWord type) :
    HelpersIn ["mxWrapCopy_" ++ Numeric.copierMark type ++ type] []
      (Stmt.setArray k i type isComplex byRef l shape).code := by
  have hcode {margin : String} (hmargin : Plain margin) (c : Code) :
      HelpersIn ["mxWrapCopy_" ++ Numeric.copierMark type ++ type] []
          (setArrayCode margin k i type isComplex l shape ++ c)
        ↔ HelpersIn ["mxWrapCopy_" ++ Numeric.copierMark type ++ type] [] c :=
    helpersIn_setArrayCode hmargin htype (List.mem_singleton_self _)
  cases byRef with
  | false =>
    have hplain : Plain "    " := plain_literal rfl
    have := (hcode hplain []).2 helpersIn_nil
    rwa [List.append_nil] at this
  | true =>
    simp (disch := exact plain_literal rfl) [code, Code.either, Code.seq, helpersIn_plain,
      hcode]

/-- **All helpers called are the ones listed.** -/
theorem mem_helpers {s : Stmt} (h : s.Spelled) {f : String} (hf : f ∈ s.calls)
    (hhelper : isHelper f = true) : f ∈ s.helpers := by
  suffices hin : HelpersIn s.helpers [] s.impersonal.code from hin f hf hhelper
  have hword {n : String} (hn : n ∈ s.named) : IsWord n := h.named n hn
  cases s with
  | declare type l zeroed remark => exact helpersIn_declare (h.declared type l zeroed remark rfl)
  | getObject k type source => exact helpersIn_getObject (hword (by simp [named]))
  | getArray k type source => exact helpersIn_getArray (hword (by simp [named]))
  | getGpuArray k type => exact helpersIn_getGpuArray (hword (by simp [named]))
  | getSizedString k dims => exact helpersIn_getSizedString dims
  | getNumber k type => exact helpersIn_getNumber (hword (by simp [named]))
  | getComplex k type => exact helpersIn_getComplex (hword (by simp [named]))
  | allocArray k type dims => exact helpersIn_allocArray type (hword (by simp [named])) dims
  | allocString k dims => exact helpersIn_allocArray "char" (by decide) dims
  | allocGpuArray k type isComplex rows cols =>
    exact helpersIn_allocGpuArray (hword (by simp [named]))
  | call c d =>
    exact helpersIn_call_disposal (fun n hn => hword (List.mem_append_left _ hn))
      fun n hn => hword (List.mem_append_right _ hn)
  | setArray k i type isComplex byRef l shape =>
    exact helpersIn_setArray (hword (by simp [named]))
  | allocObject k type =>
    have halloc : Plain (" = mxWrapAlloc_" ++ type ++ "();\n") :=
      plain_conversion " = " "mxWrapAlloc_" type ");\n" (by simp) (hword (by simp [named]))
        (by simp [conversionStems]) (plain_literal rfl) (plain_literal rfl)
    simp (disch := exact plain_literal rfl) [impersonal, masked, code, helpersIn_plain,
      helpersIn_plain halloc]
  | nullArray k type =>
    have hcast : Plain (" = (" ++ type ++ "*) NULL;\n") :=
      plain_cast " = (" "*) NULL;\n" rfl (hword (by simp [named])) (encloses_literals rfl rfl rfl)
    simp (disch := exact plain_literal rfl) [impersonal, masked, code, helpersIn_plain,
      helpersIn_plain hcast]
  | recordCall id =>
    have hzero : Int.repr 0 = "0" := rfl
    simp (disch := exact plain_literal rfl) [impersonal, masked, code, hzero,
      helpersIn_plain]
  | endTry name =>
    have htext : Plain ("        mw_err_txt_ = \"Caught C++ exception from " ++ name
        ++ "\";\n    \x7d\n") :=
      plain_cast "        mw_err_txt_ = \"Caught C++ exception from " "\";\n    \x7d\n" rfl
        (hword (by simp [named])) (encloses_literals rfl rfl rfl)
    simp (disch := exact plain_literal rfl) [impersonal, masked, code, Code.seq,
      leaveOnError, helpersIn_plain, helpersIn_plain htext]
  | setConverted k type l =>
    have hset : Plain (" = mxWrapSet_" ++ type ++ "(") :=
      plain_conversion " = " "mxWrapSet_" type "" (by simp) (hword (by simp [named]))
        (by simp [conversionStems]) (plain_literal rfl) (plain_literal rfl)
    simp (disch := exact plain_literal rfl) [impersonal, masked, code, helpersIn_plain,
      helpersIn_plain hset]
  | setPointer k type =>
    have hformat : Plain (", \"" ++ type ++ ":%p\");\n") :=
      plain_insert ", \"" (type.toList ++ [':']) "%p\");\n" (by simp)
        (by simpa using notMem_of_isWord (hword (by simp [named]))) (encloses_literals rfl rfl rfl)
    simp (disch := exact plain_literal rfl) [impersonal, masked, code, helpersIn_plain,
      helpersIn_plain hformat]
  | setComplex k type l =>
    have hre : Plain ("real_" ++ type ++ "(") :=
      plain_conversion "" "real_" type "" (by simp) (hword (by simp [named]))
        (by simp [conversionStems]) (plain_literal rfl) (plain_literal rfl)
    have him : Plain ("imag_" ++ type ++ "(") :=
      plain_conversion "" "imag_" type "" (by simp) (hword (by simp [named]))
        (by simp [conversionStems]) (plain_literal rfl) (plain_literal rfl)
    simp (disch := exact plain_literal rfl) [impersonal, masked, code, Code.either, Code.seq,
      helpersIn_plain, helpersIn_plain hre, helpersIn_plain him]
  | free l =>
    cases l <;>
      simp (disch := exact plain_literal rfl) [impersonal, masked, code, code.gap,
        helpersIn_plain]
  | freeConverted type l =>
    have hone : Plain (")" ++ " " ++ "mxWrapFree_" ++ type ++ "(") :=
      plain_conversion ") " "mxWrapFree_" type "" (by simp) (hword (by simp [named]))
        (by simp [conversionStems]) (plain_literal rfl) (plain_literal rfl)
    have htwo : Plain (")" ++ "  " ++ "mxWrapFree_" ++ type ++ "(") :=
      plain_conversion ")  " "mxWrapFree_" type "" (by simp) (hword (by simp [named]))
        (by simp [conversionStems]) (plain_literal rfl) (plain_literal rfl)
    cases l <;>
      simp (disch := exact plain_literal rfl) only [impersonal, masked, code, code.gap,
        helpersIn_plain, helpersIn_loc, helpersIn_nil, helpersIn_plain hone, helpersIn_plain htwo]
  | _ =>
    simp (disch := exact plain_literal rfl) [impersonal, masked, code, Code.seq, Code.either,
      sizeOfArgument, leaveOnError, helpersIn_plain]

end

end Stmt

end MexBridge
