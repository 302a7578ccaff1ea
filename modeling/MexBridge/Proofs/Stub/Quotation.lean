import MexBridge.Proofs.Stub.Backing
import MexBridge.Proofs.Text.Quotation
import MexBridge.Stub.Printer

/-!
# Literals and comments of a stub

Names of variables stand in remarks and in error texts, names of types in formats, and what the
declaration says in the comment and the signature before the stub. `Stmt.quotes` and `Group.quotes`
list all of these with the texts that are the same in every stub. Nothing else in a stub is a
literal or a comment (`Stmt.reads_render`, `Group.reads_stub`), if names are words and constants
open neither.
-/

namespace MexBridge

open CText

namespace Code

variable {c : Code} {q : Quote} {qs : List Quote} {s : String}

theorem render_cons (p : Piece) (c : Code) : render (p :: c) = p.render ++ render c := by
  simp [render]

theorem quiet_local (l : Local) : Quiet l.name := by
  cases l <;> exact quiet_around rfl (quiet_int _) rfl

@[simp] theorem reads_nil : Reads (render []) [] := reads_empty

theorem reads_text (h : Quiet s) : Reads (render (.text s :: c)) qs ↔ Reads (render c) qs := by
  rw [render_cons]
  exact reads_quiet_append h

@[simp] theorem reads_loc (l : Local) :
    Reads (render (.loc l :: c)) qs ↔ Reads (render c) qs := by
  rw [render_cons]
  exact reads_quiet_append (quiet_local l)

@[simp] theorem reads_rhs (k : Int) : Reads (render (.rhs k :: c)) qs ↔ Reads (render c) qs := by
  rw [render_cons]
  exact reads_quiet_append (quiet_around rfl (quiet_int k) rfl)

@[simp] theorem reads_lhs (k : Int) : Reads (render (.lhs k :: c)) qs ↔ Reads (render c) qs := by
  rw [render_cons]
  exact reads_quiet_append (quiet_around rfl (quiet_int k) rfl)

@[simp] theorem reads_lhsAddress (k : Int) :
    Reads (render (.lhsAddress k :: c)) qs ↔ Reads (render c) qs := by
  rw [render_cons]
  exact reads_quiet_append ((quiet_literal rfl).append (quiet_int k))

@[simp] theorem reads_fork (f : Fork) : Reads (render (.fork f :: c)) qs ↔ Reads (render c) qs := by
  rw [render_cons]
  cases f with
  | layout => exact reads_quiet_append (quiet_literal rfl)
  | null l => exact reads_quiet_append (quiet_around rfl (quiet_local l) rfl)

@[simp] theorem reads_otherwise (f : Fork) :
    Reads (render (.otherwise f :: c)) qs ↔ Reads (render c) qs := by
  rw [render_cons]
  cases f <;> exact reads_quiet_append (quiet_literal rfl)

@[simp] theorem reads_join (f : Fork) : Reads (render (.join f :: c)) qs ↔ Reads (render c) qs := by
  rw [render_cons]
  cases f <;> exact reads_quiet_append (quiet_literal rfl)

/-- A piece of text with a quote in it. -/
theorem reads_quote_cons (h : Reads s [q]) (hc : Reads (render c) qs) :
    Reads (render (.text s :: c)) (q :: qs) := by
  rw [render_cons]
  exact h.append fun _ => hc

@[simp] theorem reads_product (ds : List Int) :
    Reads (render (product ds ++ c)) qs ↔ Reads (render c) qs := by
  fun_induction product ds with
  | case1 => exact reads_text (quiet_literal rfl)
  | case2 k => exact reads_loc _
  | case3 k ks _ ih =>
    exact (reads_loc _).trans ((reads_text (quiet_literal rfl)).trans ih)

end Code

namespace Numeric

/-- The texts of the table are words. -/
theorem isWord_ofType (type : String) : IsWord (ofType type).mxClass ∧
    IsWord (ofType type).scalarClass ∧ IsWord ((ofType type).accessor.getD "") :=
  forall_ofType (P := fun n => IsWord n.mxClass ∧ IsWord n.scalarClass ∧
    IsWord (n.accessor.getD "")) (by decide) (by decide) type

theorem quiet_ofType (type : String) : Quiet (ofType type).mxClass ∧
    Quiet (ofType type).scalarClass ∧ Quiet ((ofType type).accessor.getD "") := by
  obtain ⟨hclass, hscalar, haccess⟩ := isWord_ofType type
  exact ⟨quiet_of_isWord hclass, quiet_of_isWord hscalar, quiet_of_isWord haccess⟩

end Numeric

/-! ## Statements -/

namespace Stmt

/-- The comment behind the declaration of a local. -/
def remark (l : Local) (text : String) : String :=
  " " ++ Text.padRight 10 text ++ match l with
    | .gpuDims _ => " dims"
    | _ => " "

/-- The literals and comments of a statement, in order. -/
def quotes : Stmt → List Quote
  | .declare _ l _ text => [.comment (remark l text)]
  | .checkMatrix _ _ _ name => [.literal ("Bad argument size: " ++ name) false]
  | .checkLength _ _ name => [.literal ("Bad argument size: " ++ name) false]
  | .getObject _ type .plain => [.literal (type ++ ":%p") false]
  | .getArray _ _ .copy => []
  | .getArray _ type _ =>
    [.literal ("Invalid array argument, " ++ (Numeric.ofType type).mxClass ++ " expected") false]
  | .getGpuArray _ _ => [.literal "Invalid array argument, gpuArray expected" false]
  | .getSizedString _ _ => [.literal "Invalid string argument" false]
  | .getNumber _ type =>
    [.literal ("Invalid scalar argument, " ++ (Numeric.ofType type).scalarClass ++ " expected")
      false]
  | .getComplex _ type =>
    [.literal ("Invalid scalar argument, " ++ (Numeric.ofType type).scalarClass ++ " expected")
      false]
  | .checkNonNull _ name => [.literal ("Argument " ++ name ++ " cannot be null") false]
  | .checkReceiver => [.literal "Cannot dispatch to NULL" false]
  | .endTry name => [.literal ("Caught C++ exception from " ++ name) false]
  | .setPointer _ type => [.literal (type ++ ":%p") false]
  | _ => []

end Stmt

/-- Where it is put into code, a constant opens neither a literal nor a comment. -/
structure CText.Passive (s : String) : Prop where
  quote : '"' ∉ s.toList
  single : '\'' ∉ s.toList
  comment : Uncommented s

/-- What the user wrote of a call is quiet, and its constants are passive. -/
structure Call.Tidy (x : Call) (d : Disposal) : Prop where
  callee : Quiet x.callee.text
  kept : ∀ type, d = .keptCopy type → Quiet type
  constants : ∀ s, Actual.literal s ∈ x.args → Passive s

/-- A statement in whose code no name opens a literal or a comment. -/
structure Stmt.Tidy (s : Stmt) : Prop where
  named : ∀ n ∈ s.named, IsWord n
  declared : ∀ type l zeroed remark, s = .declare type l zeroed remark → Quiet type
  called : ∀ x d, s = .call x d → x.Tidy d

namespace Stmt

open Code

variable {c : Code} {k : Int} {type : String} {qs : List Quote}

theorem quiet_of_isLocalType (h : IsLocalType type) : Quiet type := by
  intro c hc
  have hne {x : Char} (hx : isTypeChar x = false) : c ≠ x := by
    rintro rfl
    exact h.ne hx hc
  have hdouble : c ≠ '"' := hne (by decide)
  have hsingle : c ≠ '\'' := hne (by decide)
  have hslash : c ≠ '/' := hne (by decide)
  simp [isQuiet, hdouble, hsingle, hslash]

theorem reads_declare {l : Local} {zeroed : Bool} {text : String} (h : Quiet type) :
    Reads (Stmt.declare type l zeroed text).render [.comment (remark l text)] := by
  have hpad : Quiet (Text.padRight 10 type) := by
    refine h.append ?_
    rw [Quiet, String.toList_ofList]
    intro c hc
    rw [List.eq_of_mem_replicate hc]
    rfl
  have hremark (a : String) (ha : Quiet a) :
      Reads (a ++ (remarkText text ++ " */\n")) [.comment (" " ++ Text.padRight 10 text ++ " ")] :=
    reads_quote_in a _ "\n" (by simp [remarkText, Quote.written]) ha (quiet_literal rfl)
  have hdims : Reads ("[2] = \x7b0,0\x7d; " ++ remarkText text ++ " dims*/\n")
      [.comment (" " ++ Text.padRight 10 text ++ " dims")] :=
    reads_quote_in "[2] = \x7b0,0\x7d; " _ "\n" (by simp [remarkText, Quote.written])
      (quiet_literal rfl) (quiet_literal rfl)
  have hhead {as : List Char} (ha : as.all isQuiet = true) :
      Quiet ("    " ++ Text.padRight 10 type ++ String.ofList as) := quiet_around rfl hpad ha
  cases l with
  | gpuDims k =>
    refine (reads_text (hhead rfl)).2 ((reads_loc _).2 ?_)
    exact reads_quote_cons hdims reads_nil
  | input k =>
    refine (reads_text (hhead rfl)).2 ((reads_loc _).2 (reads_quote_cons (hremark _ ?_) reads_nil))
    split <;> exact quiet_literal rfl
  | output k =>
    refine (reads_text (hhead rfl)).2 ((reads_loc _).2 (reads_quote_cons (hremark _ ?_) reads_nil))
    split <;> exact quiet_literal rfl
  | _ =>
    refine (reads_text (hhead rfl)).2 ((reads_loc _).2 (reads_quote_cons (hremark _ ?_) reads_nil))
    exact quiet_literal rfl

/-- The error for an argument of a wrong class. -/
theorem reads_classCheck {margin what cls : String} (hcls : Quiet cls) (hmargin : Quiet margin)
    (hc : Reads (Code.render c) qs) :
    Reads (Code.render (classCheck margin k what cls ++ c))
      (.literal ("Invalid " ++ what ++ " argument, " ++ cls ++ " expected") false :: qs) := by
  have herror : Reads (margin ++ "    mw_err_txt_ = \"Invalid " ++ what ++ " argument, " ++ cls
      ++ " expected\";\n") [.literal ("Invalid " ++ what ++ " argument, " ++ cls ++ " expected")
        false] :=
    reads_quote_in (margin ++ "    mw_err_txt_ = ") _ ";\n"
      (by simp [Quote.written, closing]) (hmargin.append (quiet_literal rfl)) (quiet_literal rfl)
  simp (disch := first | exact quiet_around rfl hcls rfl |
      exact hmargin.append (quiet_literal rfl)) only
    [classCheck, List.cons_append, List.nil_append, reads_text, reads_rhs]
  refine reads_quote_cons herror ?_
  rwa [reads_text (hmargin.append (quiet_literal rfl))]

theorem reads_getObject {source : ObjectSource} (htype : Quiet type) :
    Reads (Stmt.getObject k type source).render (quotes (.getObject k type source)) := by
  cases source with
  | plain =>
    have hformat : Reads (", \"" ++ type ++ ":%p\"") [.literal (type ++ ":%p") false] :=
      reads_quote_in ", " _ "" (by simp [Quote.written, closing]) (quiet_literal rfl)
        (quiet_literal rfl)
    simp (disch := first | exact quiet_literal rfl | exact quiet_around rfl htype rfl) only
      [render, code, Code.seq, List.flatten_cons, List.cons_append, List.nil_append, reads_text,
        reads_loc, reads_rhs]
    refine reads_quote_cons hformat ?_
    simp (disch := exact quiet_literal rfl) [leaveOnError, reads_text]
  | _ =>
    simp (disch := first | exact quiet_literal rfl | exact quiet_around rfl htype rfl)
      [render, code, quotes, Code.seq, leaveOnError, reads_text]

theorem quiet_copier {a b : List Char} (ha : a.all isQuiet = true) (hb : b.all isQuiet = true)
    (htype : IsWord type) :
    Quiet (String.ofList a ++ Numeric.copierMark type ++ type ++ String.ofList b) := by
  have hmark := quiet_of_isWord (Numeric.isWord_copierMark type)
  exact (((quiet_literal ha).append hmark).append (quiet_of_isWord htype)).append
    (quiet_literal hb)

theorem reads_getArray {source : ArraySource} (htype : IsWord type) :
    Reads (Stmt.getArray k type source).render (quotes (.getArray k type source)) := by
  obtain ⟨hclass, -, haccess⟩ := Numeric.quiet_ofType type
  have hdata := quiet_of_isWord htype
  cases source with
  | copy =>
    simp (disch := first | exact quiet_literal rfl | exact quiet_copier rfl rfl htype)
      [render, code, quotes, ArraySource.code, Code.seq, sizeOfArgument, reads_text]
  | checkedCopy =>
    simp (disch := exact quiet_literal rfl) only [render, code, quotes, ArraySource.code,
      Code.seq, sizeOfArgument, List.flatten_cons, List.cons_append, List.nil_append,
      List.append_assoc, reads_text, reads_rhs]
    refine reads_classCheck hclass (quiet_literal rfl) ?_
    simp (disch := first | exact quiet_literal rfl | exact quiet_copier rfl rfl htype) [reads_text]
  | inPlace =>
    simp (disch := exact quiet_literal rfl) only [render, code, quotes, ArraySource.code,
      Code.seq, sizeOfArgument, List.flatten_cons, List.cons_append, List.nil_append,
      List.append_assoc, reads_text, reads_rhs]
    refine reads_classCheck hclass (quiet_literal rfl) ?_
    have haccess : Quiet (" = " ++ (Numeric.ofType type).accessor.getD "" ++ "(") :=
      quiet_around rfl haccess rfl
    split <;>
      simp (disch := first | exact quiet_literal rfl | exact quiet_around rfl hdata rfl)
        [Code.either, Code.seq, reads_text, reads_text haccess]

theorem reads_getGpuArray (htype : IsWord type) :
    Reads (Stmt.getGpuArray k type).render (quotes (.getGpuArray k type)) := by
  have hcast := quiet_of_isWord (Numeric.isWord_gpuType htype)
  have hremark : Reads "    // extract input GPU array pointer\n    if(!(mxIsGPUArray(" [] :=
    ⟨fun _ => rfl, fun h => absurd (by simp) h⟩
  have herror : Reads "        mw_err_txt_ = \"Invalid array argument, gpuArray expected\";\n"
      [.literal "Invalid array argument, gpuArray expected" false] :=
    reads_quote_in "        mw_err_txt_ = " _ ";\n" (by simp [Quote.written, closing])
      (quiet_literal rfl) (quiet_literal rfl)
  rw [render, code, render_cons]
  refine hremark.append fun _ => ?_
  rw [reads_rhs, reads_text (quiet_literal rfl)]
  refine reads_quote_cons herror ?_
  simp (disch := first | exact quiet_literal rfl | exact quiet_around rfl hcast rfl) [reads_text]

theorem reads_getSizedString (dims : List Int) :
    Reads (Stmt.getSizedString k dims).render (quotes (.getSizedString k dims)) := by
  have herror : Reads ") != 0) \x7b\n        mw_err_txt_ = \"Invalid string argument\";\n"
      [.literal "Invalid string argument" false] :=
    reads_quote_in ") != 0) \x7b\n        mw_err_txt_ = " _ ";\n"
      (by simp [Quote.written, closing]) (quiet_literal rfl) (quiet_literal rfl)
  simp (disch := exact quiet_literal rfl) only [render, code, Code.seq, List.flatten_cons,
    List.cons_append, List.nil_append, reads_text, reads_rhs, reads_loc, reads_product]
  refine reads_quote_cons herror ?_
  simp (disch := exact quiet_literal rfl) [reads_text]

theorem reads_getNumber (htype : IsWord type) :
    Reads (Stmt.getNumber k type).render (quotes (.getNumber k type)) := by
  obtain ⟨-, hclass, -⟩ := Numeric.quiet_ofType type
  have hgetter : Quiet (" = (" ++ type ++ ") " ++ (Numeric.ofType type).scalarGetter ++ "(") :=
    ((quiet_around rfl (quiet_of_isWord htype) rfl).append
      (quiet_of_isWord (Numeric.isWord_scalarGetter type))).append (quiet_literal rfl)
  simp only [render, code, Code.seq, List.flatten_cons]
  refine reads_classCheck hclass (quiet_literal rfl) ?_
  split <;>
    simp (disch := first | exact quiet_literal rfl | exact hgetter) [leaveOnError, reads_text]

theorem reads_getComplex (htype : IsWord type) :
    Reads (Stmt.getComplex k type).render (quotes (.getComplex k type)) := by
  obtain ⟨-, hclass, -⟩ := Numeric.quiet_ofType type
  simp only [render, code, Code.seq, List.flatten_cons]
  refine reads_classCheck hclass (quiet_literal rfl) ?_
  simp (disch := first | exact quiet_literal rfl | exact quiet_copier rfl rfl htype) [reads_text]

theorem reads_allocGpuArray {isComplex : Bool} {rows : Int} {cols : Option Int}
    (htype : IsWord type) : Reads (Stmt.allocGpuArray k type isComplex rows cols).render [] := by
  have hcast := quiet_of_isWord (Numeric.isWord_gpuType htype)
  have hclass : Quiet (", " ++ (Numeric.ofType type).mxClass ++ ", ") :=
    quiet_around rfl (Numeric.quiet_ofType type).1 rfl
  have hreality : Quiet (if isComplex then "mxCOMPLEX" else "mxREAL") := by
    split <;> exact quiet_literal rfl
  have hcreate := (hclass.append hreality).append
    (show Quiet ", MX_GPU_DO_NOT_INITIALIZE);\n    " from quiet_literal rfl)
  cases cols <;>
    simp (disch := first | exact quiet_literal rfl | exact quiet_around rfl hcast rfl)
      [render, code, Code.seq, reads_text, reads_text hcreate]

theorem reads_setArrayCode {margin : String} (hmargin : Quiet margin) {i : Int}
    {isComplex : Bool} {l : Local} {shape : Shape} (htype : IsWord type) :
    Reads (Code.render (setArrayCode margin k i type isComplex l shape ++ c)) qs
      ↔ Reads (Code.render c) qs := by
  have hmark := quiet_of_isWord (Numeric.isWord_copierMark type)
  have hcopy : Quiet (margin ++ "mxWrapCopy_" ++ Numeric.copierMark type ++ type ++ "(") :=
    (((hmargin.append (quiet_literal rfl)).append hmark).append (quiet_of_isWord htype)).append
      (quiet_literal rfl)
  cases hsingle : (Numeric.ofType type).single <;> cases isComplex <;> cases shape <;>
    simp (disch := exact quiet_literal rfl) [setArrayCode, Shape.extent, Shape.count, Code.seq,
      sizeOfArgument, hsingle, reads_text, reads_text hmargin, reads_text hcopy]

theorem reads_setArray {i : Int} {isComplex byRef : Bool} {l : Local} {shape : Shape}
    (htype : IsWord type) :
    Reads (Stmt.setArray k i type isComplex byRef l shape).render [] := by
  have hcode {margin : String} (hmargin : Quiet margin) (c : Code) :
      Reads (Code.render (setArrayCode margin k i type isComplex l shape ++ c)) []
        ↔ Reads (Code.render c) [] := reads_setArrayCode hmargin htype
  cases byRef with
  | false =>
    have hquiet : Quiet "    " := quiet_literal rfl
    have := (hcode hquiet []).2 reads_nil
    rwa [List.append_nil] at this
  | true =>
    simp (disch := exact quiet_literal rfl) [render, code, Code.either, Code.seq, reads_text,
      hcode]

/-- What follows an argument of the call does not make a `/` at its end open a comment. -/
theorem reads_actuals {xs : List Actual} (h : ∀ s, Actual.literal s ∈ xs → Passive s) :
    Reads (Code.render (List.intercalate [Piece.text ", "] (xs.map (·.code)) ++ .text ")" :: c)) qs
      ↔ Reads (Code.render (.text ")" :: c)) qs := by
  have hactual {x : Actual} (hx : ∀ s, x = .literal s → Passive s) {mark : String} (c : Code)
      (hmark : mark = ", " ∨ mark = ")") :
      Reads (Code.render (x.code ++ .text mark :: c)) qs
        ↔ Reads (Code.render (.text mark :: c)) qs := by
    cases x with
    | literal s =>
      obtain ⟨hquote, hsingle, hcomment⟩ := hx s rfl
      rw [Actual.code, List.singleton_append, render_cons, render_cons]
      rcases hmark with rfl | rfl
      · exact reads_constant_append hquote hsingle hcomment rfl (by decide)
      · exact reads_constant_append hquote hsingle hcomment rfl (by decide)
    | _ => simp (disch := exact quiet_literal rfl) [Actual.code, reads_text]
  induction xs with
  | nil => rfl
  | cons x xs ih =>
    obtain ⟨hx, hxs⟩ : (∀ s, x = .literal s → Passive s) ∧ ∀ s, .literal s ∈ xs → Passive s :=
      ⟨fun s e => h s (by simp [e]), fun s hs => h s (by simp [hs])⟩
    cases xs with
    | nil => simpa using hactual hx c (Or.inr rfl)
    | cons y ys =>
      rw [List.map_cons, List.map_cons, List.intercalate_cons_cons, List.append_assoc,
        List.append_assoc, List.singleton_append, hactual hx _ (Or.inl rfl),
        reads_text (quiet_literal rfl)]
      exact ih hxs

theorem reads_call {x : Call} {d : Disposal} (h : x.Tidy d) (htype : ∀ n ∈ d.named, IsWord n) :
    Reads (Stmt.call x d).render [] := by
  have hcall {c : Code} {qs : List Quote} :
      Reads (Code.render (x.code ++ c)) qs ↔ Reads (Code.render c) qs := by
    have hcallee := h.callee.append (show Quiet "(" from quiet_literal rfl)
    unfold Call.code
    cases x.method <;> simp (disch := exact quiet_literal rfl) [Code.seq, reads_text,
      reads_text hcallee, reads_actuals h.constants]
  have htype {n : String} (hn : n ∈ d.named) : Quiet n := quiet_of_isWord (htype n hn)
  cases d with
  | keptCopy type =>
    have hkept := h.kept type rfl
    simp (disch := first | exact quiet_literal rfl | exact quiet_around rfl hkept rfl)
      [render, code, Disposal.code, Code.seq, reads_text, hcall]
  | copiedArray type dims =>
    have hword := htype (List.mem_singleton_self type)
    simp only [render, code, Disposal.code]
    split <;>
      simp (disch := first | exact quiet_literal rfl | exact quiet_around rfl hword rfl)
        [Code.seq, reads_text, hcall]
  | converted type =>
    have hword := htype (List.mem_singleton_self type)
    simp (disch := first | exact quiet_literal rfl | exact quiet_around rfl hword rfl)
      [render, code, Disposal.code, Code.seq, reads_text, hcall]
  | convertedAddress type =>
    have hword := htype (List.mem_singleton_self type)
    simp (disch := first | exact quiet_literal rfl | exact quiet_around rfl hword rfl)
      [render, code, Disposal.code, Code.seq, reads_text, hcall]
  | copiedNumber type =>
    have hword := htype (List.mem_singleton_self type)
    simp (disch := first | exact quiet_literal rfl | exact quiet_around rfl hword rfl)
      [render, code, Disposal.code, Code.seq, reads_text, hcall]
  | _ =>
    simp (disch := exact quiet_literal rfl) [render, code, Disposal.code, Code.seq, reads_text,
      hcall]

/-- **The literals and comments of a statement are the ones listed.** -/
theorem reads_render {s : Stmt} (h : s.Tidy) : Reads s.render s.quotes := by
  have hword {n : String} (hn : n ∈ s.named) : IsWord n := h.named n hn
  have hquiet {n : String} (hn : n ∈ s.named) : Quiet n := quiet_of_isWord (hword hn)
  cases s with
  | declare type l zeroed text => exact reads_declare (h.declared type l zeroed text rfl)
  | checkMatrix k rows cols name =>
    have herror : Reads (") \x7b\n        mw_err_txt_ = \"Bad argument size: " ++ name ++ "\";\n")
        [.literal ("Bad argument size: " ++ name) false] :=
      reads_quote_in ") \x7b\n        mw_err_txt_ = " _ ";\n" (by simp [Quote.written, closing])
        (quiet_literal rfl) (quiet_literal rfl)
    simp (disch := exact quiet_literal rfl) only [render, code, reads_text, reads_rhs, reads_loc]
    exact reads_quote_cons herror ((reads_text (quiet_literal rfl)).2 reads_nil)
  | checkLength k n name =>
    have herror : Reads (") \x7b\n        mw_err_txt_ = \"Bad argument size: " ++ name ++ "\";")
        [.literal ("Bad argument size: " ++ name) false] :=
      reads_quote_in ") \x7b\n        mw_err_txt_ = " _ ";" (by simp [Quote.written, closing])
        (quiet_literal rfl) (quiet_literal rfl)
    simp (disch := exact quiet_literal rfl) only [render, code, Code.seq, sizeOfArgument,
      List.flatten_cons, List.cons_append, List.nil_append, reads_text, reads_rhs, reads_loc]
    exact reads_quote_cons herror ((reads_text (quiet_literal rfl)).2 reads_nil)
  | getObject k type source => exact reads_getObject (hquiet (List.mem_singleton_self type))
  | getArray k type source => exact reads_getArray (hword (List.mem_singleton_self type))
  | getGpuArray k type => exact reads_getGpuArray (hword (List.mem_singleton_self type))
  | getSizedString k dims => exact reads_getSizedString dims
  | getNumber k type => exact reads_getNumber (hword (List.mem_singleton_self type))
  | getComplex k type => exact reads_getComplex (hword (List.mem_singleton_self type))
  | checkNonNull k name =>
    have herror : Reads (") \x7b\n        mw_err_txt_ = \"Argument " ++ name
        ++ " cannot be null\";\n") [.literal ("Argument " ++ name ++ " cannot be null") false] :=
      reads_quote_in ") \x7b\n        mw_err_txt_ = " _ ";\n" (by simp [Quote.written, closing])
        (quiet_literal rfl) (quiet_literal rfl)
    simp (disch := exact quiet_literal rfl) only [render, code, reads_text, reads_loc]
    exact reads_quote_cons herror ((reads_text (quiet_literal rfl)).2 reads_nil)
  | checkReceiver =>
    have herror : Reads ") \x7b\n        mw_err_txt_ = \"Cannot dispatch to NULL\";\n"
        [.literal "Cannot dispatch to NULL" false] :=
      reads_quote_in ") \x7b\n        mw_err_txt_ = " _ ";\n" (by simp [Quote.written, closing])
        (quiet_literal rfl) (quiet_literal rfl)
    simp (disch := exact quiet_literal rfl) only [render, code, reads_text, reads_loc]
    exact reads_quote_cons herror ((reads_text (quiet_literal rfl)).2 reads_nil)
  | endTry name =>
    have herror : Reads ("        mw_err_txt_ = \"Caught C++ exception from " ++ name
        ++ "\";\n    \x7d\n") [.literal ("Caught C++ exception from " ++ name) false] :=
      reads_quote_in "        mw_err_txt_ = " _ ";\n    \x7d\n" (by simp [Quote.written, closing])
        (quiet_literal rfl) (quiet_literal rfl)
    simp (disch := exact quiet_literal rfl) only [render, code, Code.seq, List.flatten_cons,
      List.cons_append, reads_text]
    refine reads_quote_cons herror ?_
    simp (disch := exact quiet_literal rfl) [leaveOnError, reads_text]
  | setPointer k type =>
    have hformat : Reads (", \"" ++ type ++ ":%p\");\n") [.literal (type ++ ":%p") false] :=
      reads_quote_in ", " _ ");\n" (by simp [Quote.written, closing]) (quiet_literal rfl)
        (quiet_literal rfl)
    simp (disch := exact quiet_literal rfl) only [render, code, reads_text, reads_lhs, reads_loc]
    exact reads_quote_cons hformat reads_nil
  | allocGpuArray k type isComplex rows cols =>
    exact reads_allocGpuArray (hword (List.mem_singleton_self type))
  | call x d => exact reads_call (h.called x d rfl) fun n hn => hword (List.mem_append_right _ hn)
  | setArray k i type isComplex byRef l shape =>
    exact reads_setArray (hword (List.mem_singleton_self type))
  | recordCall id =>
    exact (reads_text (quiet_around rfl (quiet_int id) rfl)).2 reads_nil
  | setComplex k type l =>
    have htype := hquiet (List.mem_singleton_self type)
    simp (disch := first | exact quiet_literal rfl | exact quiet_around rfl htype rfl)
      [render, code, quotes, Code.either, Code.seq, reads_text]
  | free l =>
    cases l <;> simp (disch := exact quiet_literal rfl) [render, code, quotes, code.gap, reads_text]
  | freeConverted type l =>
    have htype := hquiet (List.mem_singleton_self type)
    cases l <;> simp (disch := first | exact quiet_literal rfl | exact quiet_around rfl htype rfl)
      [render, code, quotes, code.gap, reads_text]
  | allocObject k type =>
    have htype := hquiet (List.mem_singleton_self type)
    simp (disch := first | exact quiet_literal rfl | exact quiet_around rfl htype rfl)
      [render, code, quotes, reads_text]
  | allocArray k type dims =>
    have htype := hquiet (List.mem_singleton_self type)
    simp (disch := first | exact quiet_literal rfl | exact quiet_around rfl htype rfl)
      [render, code, quotes, Code.seq, reads_text]
  | nullArray k type =>
    have htype := hquiet (List.mem_singleton_self type)
    simp (disch := first | exact quiet_literal rfl | exact quiet_around rfl htype rfl)
      [render, code, quotes, reads_text]
  | setConverted k type l =>
    have htype := hquiet (List.mem_singleton_self type)
    simp (disch := first | exact quiet_literal rfl | exact quiet_around rfl htype rfl)
      [render, code, quotes, reads_text]
  | _ =>
    simp (disch := exact quiet_literal rfl) [render, code, quotes, Code.seq, Code.either,
      leaveOnError, reads_text]

end Stmt

/-! ## Stubs -/

namespace Routine

variable {c : Context} {r : Routine} {s : Stmt} {ss : List Stmt}

/-- Only the call of the routine is a call. -/
theorem call_of_mem (hss : r.mainStatements c = .ok ss) {x : Call} {d : Disposal}
    (h : .call x d ∈ ss ++ r.releases c.types) :
    x = r.call ∧ r.disposal c.types = .ok (some d) := by
  obtain ⟨g, h⟩ := makes_mainStatements hss _ h
  cases h with
  | call hd => exact ⟨rfl, hd⟩
  | arg hv hs => cases hs
  | result hv hs => cases hs

theorem provided_of_written (h : r.Written IsName) (t : TypeTable) :
    r.Provided (fun _ => True) t := by
  have hvariable {v : Variable} (hv : v.Written IsName) : v.Provided fun _ => True :=
    ⟨hv.type.chars, fun _ _ => trivial, fun _ _ => trivial, fun _ _ => trivial,
      fun _ _ _ => trivial⟩
  refine ⟨fun v hv => hvariable (h.results v hv).toWritten, fun v hv => hvariable (h.args v hv),
    fun _ _ => trivial, fun _ => trivial, h.callee.isNameChar_name, fun hthis => ?_⟩
  obtain ⟨this, hthis⟩ := Option.isSome_iff_exists.1 hthis
  exact (h.callee.isNameChar_receiver hthis).2

theorem quiet_callee (h : r.WrittenCallee IsName) : Quiet r.call.callee.text := by
  have hname : Quiet r.name := quiet_of_isWord h.isNameChar_name
  unfold call
  dsimp only
  split
  · rename_i hnew
    cases h with
    | constructor C receiver owner class_ name =>
      have howner : r.ownerName = C := by simp [ownerName, owner]
      rw [howner]
      exact (quiet_literal rfl).append (quiet_of_isWord class_.chars)
    | plain receiver owner name => exact absurd hnew name.2.2
    | method this C receiver owner this_ class_ name => exact absurd hnew name.2.2
  split
  · exact (quiet_literal rfl).append hname
  · exact hname

theorem type_of_keptCopy {t : TypeTable} {type : String}
    (h : r.disposal t = .ok (some (.keptCopy type))) : ∃ v ∈ r.results, v.type = type := by
  unfold disposal at h
  split at h
  · rename_i v vs hr
    refine ⟨v, by simp [hr], ?_⟩
    cases Variable.disposes_disposal h
    rfl
  · cases h

/-- Names are words, so only a constant could open a literal or a comment in the code. -/
theorem tidy_of_written (h : r.Written IsName)
    (hconst : ∀ v ∈ r.args, v.kind = .const → Passive v.name) (hss : r.mainStatements c = .ok ss) :
    ∀ s ∈ ss ++ r.releases c.types, s.Tidy := by
  intro s hs
  have hspelled := ((provided_of_written h c.types).backed hss s hs).spelled
  refine ⟨hspelled.named, ?_, ?_⟩
  · rintro type l zeroed remark rfl
    exact Stmt.quiet_of_isLocalType (hspelled.declared type l zeroed remark rfl)
  · rintro x d rfl
    obtain ⟨rfl, hd⟩ := call_of_mem hss hs
    refine ⟨quiet_callee h.callee, ?_, ?_⟩
    · rintro type rfl
      obtain ⟨v, hv, rfl⟩ := type_of_keptCopy hd
      exact quiet_of_isWord (h.results v hv).type.chars
    · intro name hname
      obtain ⟨v, hv, hactual⟩ := List.mem_map.1 hname
      have hkind : v.kind = .const ∧ v.name = name := by
        unfold Variable.actual at hactual
        grind
      exact hkind.2 ▸ hconst v hv hkind.1

end Routine

namespace Group

variable {c : Context} {g : Group}

/-- What the comment before a stub says. -/
def commentText (g : Group) : String :=
  " ---- " ++ g.first.file ++ ": " ++ toString g.first.line ++ " ----\n * " ++ g.first.text
    ++ (match g.twins with
      | r :: _ => " * Also at " ++ r.file ++ ": " ++ toString r.line ++ "\n"
      | [] => "")
    ++ " "

/-- The literals and comments of a stub, in order. -/
def quotes (c : Context) (g : Group) : List Quote :=
  .comment g.commentText :: .literal (g.first.signature c.settings.promotion) false
    :: (made (g.first.mainStatements c) ++ g.first.releases c.types).flatMap Stmt.quotes

theorem reads_comment (g : Group) : Reads g.comment [.comment g.commentText] := by
  refine reads_quote_in "" _ "\n" ?_ (quiet_literal rfl) (quiet_literal rfl)
  unfold comment commentText
  cases g.twins <;> simp [Quote.written]

theorem reads_stubHead (signature : String) (g : Group) :
    Reads (g.stubHead signature) [.comment g.commentText, .literal signature false] := by
  let id := toString g.first.id
  have hid : Quiet id := quiet_int g.first.id
  have hliteral : Reads ("static const char* stubids" ++ id ++ "_ = \"" ++ signature ++ "\";\n\n")
      [.literal signature false] :=
    reads_quote_in ("static const char* stubids" ++ id ++ "_ = ") _ ";\n\n"
      (by simp [Quote.written, closing]) (quiet_around rfl hid rfl) (quiet_literal rfl)
  have hopening : Quiet ("(int nlhs, mxArray* plhs[],\n"
      ++ "              int nrhs, const mxArray* prhs[])\n\x7b\n"
      ++ "    const char* mw_err_txt_ = 0;\n") := quiet_around rfl (quiet_literal rfl) rfl
  have heq : g.stubHead signature = g.comment
      ++ (("static const char* stubids" ++ id ++ "_ = \"" ++ signature ++ "\";\n\n")
      ++ ("void mexStub" ++ (id ++ ("(int nlhs, mxArray* plhs[],\n"
        ++ "              int nrhs, const mxArray* prhs[])\n\x7b\n"
        ++ "    const char* mw_err_txt_ = 0;\n")))) := by
    simp only [stubHead, id, String.append_assoc]
  rw [heq]
  refine (reads_comment g).append fun _ => hliteral.append fun _ => ?_
  exact ((quiet_literal rfl).append (hid.append hopening)).reads

theorem stub_of_written {text : String} (h : g.first.Written IsName) (hstub : g.stub c = .ok text) :
    ∃ main, g.first.mainStatements c = .ok main ∧
      text = g.stubHead (g.first.signature c.settings.promotion) ++ (renderAll main
        ++ ("\nmw_err_label:\n" ++ (renderAll (g.first.releases c.types) ++ stubTail))) := by
  obtain ⟨signature, hsigned, hstub⟩ := bind_eq_ok.1 hstub
  obtain ⟨main, hmain, hstub⟩ := bind_eq_ok.1 hstub
  have hsignature : signature = g.first.signature c.settings.promotion := by
    rw [Routine.signed, if_pos h.callee.isSignable] at hsigned
    exact (Except.ok.inj hsigned).symm
  refine ⟨main, hmain, ?_⟩
  rw [← Except.ok.inj hstub, hsignature]
  simp only [String.append_assoc]

/-- **The literals and comments of a stub are the ones listed,** if the names of its routine are
words and its constants, as far as the signature is safe, open no literal or comment. -/
theorem reads_stub {text : String} (h : g.first.Written IsName)
    (hconst : (Quote.literal (g.first.signature c.settings.promotion) false).Safe →
      ∀ v ∈ g.first.args, v.kind = .const → Passive v.name) (hstub : g.stub c = .ok text) :
    Reads text (g.quotes c) := by
  obtain ⟨main, hmain, heq⟩ := stub_of_written h hstub
  have htail : Quiet stubTail := quiet_literal rfl
  rw [heq, quotes, hmain, made_ok, List.flatMap_append]
  refine (reads_stubHead _ g).append fun hsafe => ?_
  have htidy := Routine.tidy_of_written h (hconst (hsafe _ (by simp))) hmain
  have hall {ss : List Stmt} (hss : ∀ s ∈ ss, s ∈ main ++ g.first.releases c.types) :
      Reads (renderAll ss) (ss.flatMap Stmt.quotes) :=
    reads_join fun s hs => Stmt.reads_render (htidy s (hss s hs))
  refine (hall fun s hs => List.mem_append_left _ hs).append fun _ => ?_
  rw [reads_quiet_append (quiet_literal rfl)]
  simpa using (hall fun s hs => List.mem_append_right _ hs).append fun _ => htail.reads

end Group

end MexBridge
