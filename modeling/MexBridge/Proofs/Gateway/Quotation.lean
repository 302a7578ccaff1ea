import MexBridge.Gateway.File
import MexBridge.Proofs.Gateway.Definitions
import MexBridge.Proofs.Stub.Quotable

/-!
# Literals and comments of a gateway file

What follows the user's lines in a gateway file holds literals and comments around texts of the
program, the names of classes, the quotes of its stubs, and the places where routines are declared.
`Gateway.quotes` lists them in order, and `reads_body` says that the list is complete. In a run
without errors the names in it are words, but for those of arguments and files; so it depends on
these alone whether the list is read back from the file.
-/

namespace MexBridge

open CText

namespace Gateway

variable {c : Context} {gs : List Group} {t : String} {qs : List Quote}

theorem reads_quote_append {s : String} {q : Quote} (hs : Reads s [q]) (ht : Reads t qs) :
    Reads (s ++ t) (q :: qs) :=
  hs.append fun _ => ht

/-- A quote around a name. -/
theorem reads_quote_around {a n b : String} {q : Quote} (h : Reads (a ++ (n ++ b)) [q])
    (ht : Reads t qs) : Reads (a ++ (n ++ (b ++ t))) (q :: qs) := by
  have hall := reads_quote_append h ht
  rwa [String.append_assoc, String.append_assoc] at hall

/-! ## Copiers and casts -/

theorem quiet_copiers (h : Quiet t) : Quiet (copiers t) := by
  delta copiers
  simp (disch := first | exact quiet_literal rfl | exact h) only [String.append_assoc,
    quiet_append_iff]
  exact quiet_literal rfl

theorem quiet_complexCopiers {part : String} (hpart : Quiet part) (h : Quiet t) :
    Quiet (complexCopiers part t) := by
  delta complexCopiers
  simp (disch := first | exact quiet_literal rfl | exact h | exact hpart) only
    [String.append_assoc, quiet_append_iff]
  exact quiet_literal rfl

theorem reads_copierSection (h : c.types.Worded) :
    Reads (copierSection c) [.comment " Array copier definitions "] := by
  have hquiet {n : String} (hn : n ∈ c.types.scalars ++ c.types.cscalars ++ c.types.zscalars) :
      Quiet n := quiet_of_isWord (h.numbers n hn)
  have hcomment : Reads "\n\n\n/* Array copier definitions */\n"
      [.comment " Array copier definitions "] :=
    reads_quote_in "\n\n\n" _ "\n" rfl (quiet_literal rfl) (quiet_literal rfl)
  have hreal : Quiet (String.join (((TypeTable.sorted c.types.scalars).filter
      (!c.usage.lacks ·)).map copiers)) := by
    refine quiet_join fun n hn => quiet_copiers (hquiet ?_)
    have hn := List.mem_mergeSort.1 (List.mem_filter.1 hn).1
    simp [hn]
  have hsingle : Quiet (String.join ((TypeTable.sorted c.types.cscalars).map
      (complexCopiers "float"))) := by
    refine quiet_join fun n hn => quiet_complexCopiers (quiet_literal rfl) (hquiet ?_)
    have hn := List.mem_mergeSort.1 hn
    simp [hn]
  have hdouble : Quiet (String.join ((TypeTable.sorted c.types.zscalars).map
      (complexCopiers "double"))) := by
    refine quiet_join fun n hn => quiet_complexCopiers (quiet_literal rfl) (hquiet ?_)
    have hn := List.mem_mergeSort.1 hn
    simp [hn]
  delta copierSection
  simp only [String.append_assoc]
  refine reads_quote_append hcomment ?_
  rw [reads_quiet_append hreal, reads_quiet_append hsingle, reads_quiet_append hdouble]
  exact (quiet_literal rfl).reads

theorem reads_castAttempt (h : Quiet t) :
    Reads (castAttempt t) [.literal (t ++ ":%p") false] := by
  have hformat : Reads ("    sscanf(pbuf, \"" ++ (t ++ ":%p\", &p_"))
      [.literal (t ++ ":%p") false] :=
    reads_quote_in "    sscanf(pbuf, " _ ", &p_" (by simp [Quote.written, closing])
      (quiet_literal rfl) (quiet_literal rfl)
  delta castAttempt
  simp (disch := first | exact quiet_literal rfl | exact h) only [String.append_assoc,
    reads_quiet_append]
  refine reads_quote_around hformat ?_
  simp (disch := first | exact quiet_literal rfl | exact h) only [reads_quiet_append]
  exact (quiet_literal rfl).reads

/-- The quotes of the function that takes a pointer to `parent` or to one of its children. -/
def castQuotes (parent : String) (children : List String) : List Quote :=
  .literal "mwptr" false :: .literal "Invalid pointer" false
    :: ((parent :: children).flatMap (fun t => [.literal (t ++ ":%p") false])
      ++ [.literal ("Invalid pointer to " ++ parent) false])

theorem reads_castGetter {parent : String} {children : List String} (hparent : IsWord parent)
    (hchildren : ∀ n ∈ children, IsWord n) :
    Reads (castGetter parent children) (castQuotes parent children) := by
  have hquiet := quiet_of_isWord hparent
  have hproperty : Reads "        mxArray* ap = mxGetProperty(a, 0, \"mwptr\");\n"
      [.literal "mwptr" false] :=
    reads_quote_in "        mxArray* ap = mxGetProperty(a, 0, " _ ");\n" rfl (quiet_literal rfl)
      (quiet_literal rfl)
  have hinvalid : Reads "        *e = \"Invalid pointer\";\n" [.literal "Invalid pointer" false] :=
    reads_quote_in "        *e = " _ ";\n" rfl (quiet_literal rfl) (quiet_literal rfl)
  have hattempts : Reads (String.join ((parent :: children).map castAttempt))
      ((parent :: children).flatMap fun t => [.literal (t ++ ":%p") false]) := by
    refine reads_join fun n hn => reads_castAttempt (quiet_of_isWord ?_)
    rcases List.mem_cons.1 hn with rfl | hn
    · exact hparent
    · exact hchildren n hn
  have herror : Reads ("    *e = \"Invalid pointer to " ++ (parent ++ "\";\n"))
      [.literal ("Invalid pointer to " ++ parent) false] :=
    reads_quote_in "    *e = " _ ";\n" (by simp [Quote.written, closing]) (quiet_literal rfl)
      (quiet_literal rfl)
  delta castGetter castQuotes
  simp (disch := first | exact quiet_literal rfl | exact hquiet) only [String.append_assoc,
    reads_quiet_append]
  refine reads_quote_append hproperty ?_
  simp (disch := first | exact quiet_literal rfl | exact hquiet) only [reads_quiet_append]
  refine reads_quote_append hinvalid ?_
  simp (disch := exact quiet_literal rfl) only [reads_quiet_append]
  refine hattempts.append fun _ => reads_quote_around herror ?_
  exact ((quiet_literal rfl).append (quiet_literal rfl)).reads

theorem reads_castSection {t : TypeTable} (h : t.Worded) :
    Reads (castSection t) (t.sortedClasses.flatMap fun x => castQuotes x.1 x.2) := by
  refine reads_join fun x hx => ?_
  obtain ⟨hparent, hchildren⟩ := h.classes x (List.mem_mergeSort.1 hx)
  exact reads_castGetter hparent hchildren

/-! ## FORTRAN -/

theorem lt_of_isNameChar {c : Char} (h : isNameChar c = true) : c.toNat < 128 := by
  have hletter (ha : c.isAlphanum = true) : c.toNat < 128 := by
    have hval : c.toNat = c.val.toNat := rfl
    delta Char.isAlphanum Char.isAlpha Char.isUpper Char.isLower Char.isDigit at ha
    simp [UInt32.le_iff_toNat_le] at ha
    omega
  simp only [isNameChar, Token.isNameTail, Bool.or_eq_true, beq_iff_eq] at h
  rcases h with (h | rfl) | rfl
  · exact hletter h
  · decide
  · decide

/-- Another case makes no other mark of a letter. -/
theorem isNameChar_case {c : Char} (h : isNameChar c = true) :
    isNameChar c.toUpper = true ∧ isNameChar c.toLower = true := by
  have htable : ∀ n < 128, isNameChar (Char.ofNat n) = true →
      isNameChar (Char.ofNat n).toUpper = true ∧ isNameChar (Char.ofNat n).toLower = true := by
    decide +kernel
  have hc := htable c.toNat (lt_of_isNameChar h)
  rw [Char.ofNat_toNat] at hc
  exact hc h

theorem isWord_upper {s : String} (h : IsWord s) : IsWord (Text.upper s) := by
  intro c hc
  rw [Text.upper, String.toList_ofList, List.mem_flatMap] at hc
  obtain ⟨d, hd, hc⟩ := hc
  rw [Text.upperChar, if_pos (lt_of_isNameChar (h d hd))] at hc
  rw [List.mem_singleton.1 hc]
  exact (isNameChar_case (h d hd)).1

theorem isNameChar_lowerAfter {before cs : List Char} (h : ∀ c ∈ cs, isNameChar c = true) :
    ∀ c ∈ Text.lowerAfter before cs, isNameChar c = true := by
  induction cs generalizing before with
  | nil => simp [Text.lowerAfter]
  | cons d ds ih =>
    obtain ⟨hd, hds⟩ := List.forall_mem_cons.1 h
    have hsmall := lt_of_isNameChar hd
    have hsigma : d ≠ 'Σ' := by
      rintro rfl
      exact absurd hsmall (by decide)
    rw [Text.lowerAfter, if_neg hsigma, Text.lowerChar, if_pos hsmall]
    exact List.forall_mem_cons.2 ⟨(isNameChar_case hd).2, ih hds⟩

theorem isWord_lower {s : String} (h : IsWord s) : IsWord (Text.lower s) := by
  rw [IsWord, Text.lower, String.toList_ofList]
  exact isNameChar_lowerAfter h

theorem isWord_mangled {s : String} (h : IsWord s) (m : Mangling) : IsWord (m.apply s) := by
  have hlower := isWord_lower h
  cases m <;> simp only [Mangling.apply]
  case capitals => exact isWord_upper h
  case oneUnderscore => exact hlower.append (by decide)
  case plain => exact hlower
  case f2c => split <;> exact hlower.append (by decide)

theorem mem_firstOfName {seen : List String} {rs : List Routine} {r : Routine}
    (h : r ∈ firstOfName seen rs) : r ∈ rs := by
  fun_induction firstOfName seen rs with
  | case1 => exact h
  | case2 seen s rs hseen ih => exact List.mem_cons_of_mem _ (ih h)
  | case3 seen s rs hseen ih =>
    rcases List.mem_cons.1 h with rfl | h
    · exact List.mem_cons_self ..
    · exact List.mem_cons_of_mem _ (ih h)

theorem exists_group {r : Routine} (h : r ∈ fortranRoutines gs) : ∃ g ∈ gs, g.first = r := by
  have hmem := (List.mem_filter.1 (mem_firstOfName h)).1
  exact List.mem_map.1 hmem

/-- The quotes around the names of FORTRAN routines. -/
def fortranQuotes : List Quote :=
  [.comment " f2c convention ", .literal "C" false, .comment " Prevent C++ name mangling ",
    .comment " end extern C "]

section

variable (hfirst : ∀ g ∈ gs, g.first.Written IsName)

include hfirst

theorem quiet_manglingLines (m : Mangling) : Quiet (manglingLines (fortranRoutines gs) m) := by
  refine quiet_join fun r hr => ?_
  obtain ⟨g, hg, rfl⟩ := exists_group hr
  have hname := (hfirst g hg).callee.isNameChar_name
  have hquiet := quiet_of_isWord hname
  have hmangled := quiet_of_isWord (isWord_mangled hname m)
  simp (disch := first | exact quiet_literal rfl | exact hquiet | exact hmangled) only
    [String.append_assoc, quiet_append_iff]
  exact quiet_literal rfl

theorem quiet_prototype {r : Routine} (hr : r ∈ fortranRoutines gs) : Quiet (prototype r) := by
  obtain ⟨g, hg, rfl⟩ := exists_group hr
  have hwritten := hfirst g hg
  have hname := quiet_of_isWord hwritten.callee.isNameChar_name
  have hargs : Quiet (", ".intercalate (g.first.args.map parameterType)) := by
    refine (forall_intercalate (quiet_literal rfl)).2 (List.forall_mem_map.2 fun v hv => ?_)
    unfold parameterType
    split
    · exact quiet_literal rfl
    · exact (quiet_of_isWord (hwritten.args v hv).type.chars).append (quiet_literal rfl)
  have hcall : Quiet ("MWF77_" ++ (g.first.name ++ ("("
      ++ (", ".intercalate (g.first.args.map parameterType) ++ ");\n")))) := by
    simp (disch := first | exact quiet_literal rfl | exact hname | exact hargs) only
      [quiet_append_iff]
    exact quiet_literal rfl
  unfold prototype
  simp only [String.append_assoc]
  split
  · rename_i v vs hresults
    have htype := (hwritten.results v (by simp [hresults])).type.chars
    exact ((quiet_of_isWord htype).append (quiet_literal rfl)).append hcall
  · exact (quiet_literal rfl).append hcall

theorem reads_fortran : Reads (fortranNames gs ++ fortranPrototypes gs) fortranQuotes := by
  have hconvention : Reads "#else /* f2c convention */\n" [.comment " f2c convention "] :=
    reads_quote_in "#else " _ "\n" rfl (quiet_literal rfl) (quiet_literal rfl)
  have hextern : Reads "#ifdef __cplusplus\nextern \"C\" \x7b " [.literal "C" false] :=
    reads_quote_in "#ifdef __cplusplus\nextern " _ " \x7b " rfl (quiet_literal rfl)
      (quiet_literal rfl)
  have hmangling : Reads "/* Prevent C++ name mangling */\n#endif\n\n"
      [.comment " Prevent C++ name mangling "] :=
    reads_quote_in "" _ "\n#endif\n\n" rfl (quiet_literal rfl) (quiet_literal rfl)
  have hsplit : "#ifdef __cplusplus\nextern \"C\" \x7b /* Prevent C++ name mangling */\n#endif\n\n"
      = "#ifdef __cplusplus\nextern \"C\" \x7b " ++ "/* Prevent C++ name mangling */\n#endif\n\n" :=
    rfl
  have hend : Reads "\n#ifdef __cplusplus\n\x7d /* end extern C */\n#endif\n\n"
      [.comment " end extern C "] :=
    reads_quote_in "\n#ifdef __cplusplus\n\x7d " _ "\n#endif\n\n" rfl (quiet_literal rfl)
      (quiet_literal rfl)
  have hlines := quiet_manglingLines hfirst
  have hprototypes : Quiet (String.join ((fortranRoutines gs).map prototype)) :=
    quiet_join fun r hr => quiet_prototype hfirst hr
  delta fortranNames fortranPrototypes fortranQuotes
  simp (disch := first | exact quiet_literal rfl | exact hlines _) only [String.append_assoc,
    reads_quiet_append]
  refine reads_quote_append hconvention ?_
  rw [reads_quiet_append (hlines _), reads_quiet_append (quiet_literal rfl), hsplit,
    String.append_assoc]
  refine reads_quote_append hextern (reads_quote_append hmangling ?_)
  simp (disch := first | exact quiet_literal rfl | exact hprototypes) only [reads_quiet_append]
  exact hend

end

/-! ## Dispatch -/

theorem quiet_tableSection (gs : List Group) : Quiet (tableSection gs) := by
  have hentry (k : Option Int) : Quiet (tableEntry k) := by
    cases k with
    | none => exact quiet_literal rfl
    | some k => exact (quiet_literal rfl).append (quiet_int k)
  have hentries : Quiet (String.join ((stubTable gs).map tableEntry)) :=
    quiet_join fun k _ => hentry k
  unfold tableSection
  split
  · exact quiet_literal rfl
  · simp (disch := first | exact quiet_literal rfl | exact hentries | exact quiet_int _) only
      [String.append_assoc, quiet_append_iff]
    exact quiet_literal rfl

/-- The quotes of the function MATLAB calls, up to the dispatch on signatures. -/
def entryQuotes : List Quote :=
  [.comment " ----\n ", .literal "Mex function installed" true,
    .comment " Fast path: integer stub ID ", .literal "Unknown function ID" false]

theorem reads_entryHead : Reads entryHead entryQuotes := by
  have hcomment : Reads "/* ----\n */\n" [.comment " ----\n "] :=
    reads_quote_in "" _ "\n" rfl (quiet_literal rfl) (quiet_literal rfl)
  have hinstalled : Reads "        mexPrintf(\"Mex function installed\\n\");\n"
      [.literal "Mex function installed" true] :=
    reads_quote_in "        mexPrintf(" _ ");\n" rfl (quiet_literal rfl) (quiet_literal rfl)
  have hpath : Reads "    /* Fast path: integer stub ID */\n"
      [.comment " Fast path: integer stub ID "] :=
    reads_quote_in "    " _ "\n" rfl (quiet_literal rfl) (quiet_literal rfl)
  have hunknown : Reads "            mexErrMsgTxt(\"Unknown function ID\");\n"
      [.literal "Unknown function ID" false] :=
    reads_quote_in "            mexErrMsgTxt(" _ ");\n" rfl (quiet_literal rfl) (quiet_literal rfl)
  delta entryHead entryQuotes
  simp only [String.append_assoc]
  refine reads_quote_append hcomment ?_
  simp (disch := exact quiet_literal rfl) only [reads_quiet_append]
  refine reads_quote_append hinstalled ?_
  simp (disch := exact quiet_literal rfl) only [reads_quiet_append]
  refine reads_quote_append hpath ?_
  simp (disch := exact quiet_literal rfl) only [reads_quiet_append]
  refine reads_quote_append hunknown ?_
  simp (disch := exact quiet_literal rfl) only [reads_quiet_append]
  exact (quiet_literal rfl).reads

theorem reads_entryId : Reads entryId [.literal "Identifier should be a string" false] := by
  have herror : Reads "        mexErrMsgTxt(\"Identifier should be a string\");\n"
      [.literal "Identifier should be a string" false] :=
    reads_quote_in "        mexErrMsgTxt(" _ ");\n" rfl (quiet_literal rfl) (quiet_literal rfl)
  delta entryId
  simp (disch := exact quiet_literal rfl) only [String.append_assoc, reads_quiet_append]
  exact herror

theorem quiet_signatureCase (g : Group) : Quiet (signatureCase g) := by
  delta signatureCase
  simp (disch := first | exact quiet_literal rfl | exact quiet_int _) only [String.append_assoc,
    quiet_append_iff]
  exact quiet_literal rfl

end Gateway

/-- What the profiler's report says of a group. -/
def Group.reportText (g : Group) : String :=
  "%d calls to " ++ g.first.file ++ ":" ++ toString g.first.line
    ++ (match g.twins with
      | r :: _ => " (" ++ r.file ++ ":" ++ toString r.line ++ ")"
      | [] => "")

namespace Gateway

variable {gs : List Group} {printer : String}

theorem reads_profileLine (hprinter : Quiet printer) (g : Group) :
    Reads (profileLine printer g) [.literal g.reportText true] := by
  have hid : Quiet (", mexprofrecord_[" ++ toString g.first.id ++ "]);\n") :=
    quiet_around rfl (quiet_int _) rfl
  refine reads_quote_in ("        " ++ printer) _
    (", mexprofrecord_[" ++ toString g.first.id ++ "]);\n") ?_
    ((quiet_literal rfl).append hprinter) hid
  unfold profileLine Group.reportText
  cases g.twins <;> simp [Quote.written, closing]

def reportQuotes (gs : List Group) : List Quote :=
  .literal "Profiler inactive" true :: gs.flatMap fun g => [.literal g.reportText true]

theorem reads_profileReport (hprinter : Quiet printer) (gs : List Group) :
    Reads (profileReport printer gs) (reportQuotes gs) := by
  have hinactive : Reads ("        if (!mexprofrecord_)\n            " ++ (printer
      ++ "\"Profiler inactive\\n\");\n")) [.literal "Profiler inactive" true] :=
    reads_quote_in ("        if (!mexprofrecord_)\n            " ++ printer) _ ");\n"
      (by simp [Quote.written, closing]) ((quiet_literal rfl).append hprinter) (quiet_literal rfl)
  delta profileReport reportQuotes
  simp only [String.append_assoc]
  exact reads_quote_around hinactive (reads_join fun g _ => reads_profileLine hprinter g)

/-- The quotes of the chain of comparisons. -/
def caseQuotes (gs : List Group) : List Quote :=
  .literal "*profile on*" false :: .literal "*profile off*" false
    :: .literal "*profile report*" false :: (reportQuotes gs
    ++ .literal "*profile log*" false :: .literal "Must have two string arguments" false
      :: .literal "w+" false :: .literal "Cannot open log for output" false
      :: (reportQuotes gs ++ [.literal "Unknown identifier" false]))

theorem reads_caseSection (gs : List Group) : Reads (caseSection gs) (caseQuotes gs) := by
  have hcases : Quiet (String.join (gs.map signatureCase)) :=
    quiet_join fun g _ => quiet_signatureCase g
  have hsize := quiet_int (maxFirstId gs + 1)
  have hon : Reads "    else if (strcmp(id, \"*profile on*\") == 0) \x7b\n"
      [.literal "*profile on*" false] :=
    reads_quote_in "    else if (strcmp(id, " _ ") == 0) \x7b\n" rfl (quiet_literal rfl)
      (quiet_literal rfl)
  have helse {name : String} {s : String}
      (hs : s.toList = "    \x7d else if (strcmp(id, ".toList
        ++ ((Quote.literal name false).written ++ ") == 0) \x7b\n".toList)) :
      Reads s [.literal name false] :=
    reads_quote_in _ _ _ hs (quiet_literal rfl) (quiet_literal rfl)
  have herror {text s : String}
      (hs : s.toList = "            mexErrMsgTxt(".toList
        ++ ((Quote.literal text false).written ++ ");\n".toList)) :
      Reads s [.literal text false] :=
    reads_quote_in _ _ _ hs (quiet_literal rfl) (quiet_literal rfl)
  have hlog : Reads "        logfp = fopen(id, \"w+\");\n" [.literal "w+" false] :=
    reads_quote_in "        logfp = fopen(id, " _ ");\n" rfl (quiet_literal rfl) (quiet_literal rfl)
  have hunknown : Reads "        mexErrMsgTxt(\"Unknown identifier\");\n"
      [.literal "Unknown identifier" false] :=
    reads_quote_in "        mexErrMsgTxt(" _ ");\n" rfl (quiet_literal rfl) (quiet_literal rfl)
  delta caseSection caseQuotes
  simp only [String.append_assoc]
  rw [reads_quiet_append hcases]
  refine reads_quote_append hon ?_
  simp (disch := first | exact quiet_literal rfl | exact hsize) only [reads_quiet_append]
  refine reads_quote_append (helse rfl) ?_
  simp (disch := exact quiet_literal rfl) only [reads_quiet_append]
  refine reads_quote_append (helse rfl) ?_
  refine (reads_profileReport (quiet_literal rfl) gs).append fun _ => ?_
  refine reads_quote_append (helse rfl) ?_
  simp (disch := exact quiet_literal rfl) only [reads_quiet_append]
  refine reads_quote_append (herror rfl) (reads_quote_append hlog ?_)
  rw [reads_quiet_append (quiet_literal rfl)]
  refine reads_quote_append (herror rfl) ?_
  refine (reads_profileReport (quiet_literal rfl) gs).append fun _ => ?_
  simp (disch := exact quiet_literal rfl) only [reads_quiet_append]
  exact hunknown

/-! ## The file -/

/-- The literals and comments of what follows the user's lines, in order. -/
def quotes (c : Context) (gs : List Group) : List Quote :=
  .comment " Array copier definitions "
    :: (c.types.sortedClasses.flatMap (fun x => castQuotes x.1 x.2)
      ++ ((if hasFortran gs then fortranQuotes else []) ++ (gs.flatMap (·.quotes c)
        ++ (entryQuotes ++ .literal "Identifier should be a string" false :: caseQuotes gs))))

theorem reads_stubs {c : Context} {stubs : List String}
    (h : ∀ g ∈ gs, ∀ text, g.stub c = .ok text → Reads text (g.quotes c))
    (hstubs : gs.mapM (·.stub c) = .ok stubs) :
    Reads (String.join stubs) (gs.flatMap (·.quotes c)) := by
  induction gs generalizing stubs with
  | nil =>
    cases hstubs
    exact reads_empty
  | cons g gs ih =>
    obtain ⟨hg, hgs⟩ := List.forall_mem_cons.1 h
    rw [List.mapM_cons] at hstubs
    obtain ⟨text, htext, hstubs⟩ := bind_eq_ok.1 hstubs
    obtain ⟨texts, htexts, hstubs⟩ := bind_eq_ok.1 hstubs
    cases hstubs
    rw [String.join_cons, List.flatMap_cons]
    exact (hg text htext).append fun _ => ih hgs htexts

/-- **The literals and comments of a gateway file are the ones listed,** if those of its stubs
are. -/
theorem reads_body {c : Context} {text : String} (htypes : c.types.Worded)
    (hfirst : ∀ g ∈ gs, g.first.Written IsName)
    (hstubs : ∀ g ∈ gs, ∀ text, g.stub c = .ok text → Reads text (g.quotes c))
    (hbody : body c gs = .ok text) : Reads text (quotes c gs) := by
  obtain ⟨joined, hjoined, hbody⟩ := bind_eq_ok.1 hbody
  obtain ⟨stubs, hmapM, hjoined⟩ := bind_eq_ok.1 hjoined
  cases hjoined
  cases hbody
  have hwidths : Quiet (if needsFixedWidths c.usage then "#include <stdint.h>\n\n" else "") := by
    split <;> exact quiet_literal rfl
  have hgpu : Quiet (if c.settings.gpu then "    mxInitGPU();\n" else "") := by
    split <;> exact quiet_literal rfl
  have hfortran : Reads (if hasFortran gs then fortranNames gs ++ fortranPrototypes gs else "")
      (if hasFortran gs then fortranQuotes else []) := by
    split
    · exact reads_fortran hfirst
    · exact reads_empty
  simp only [quotes, String.append_assoc]
  rw [reads_quiet_append hwidths]
  refine (reads_copierSection htypes).append fun _ => (reads_castSection htypes).append fun _ =>
    hfortran.append fun _ => (reads_stubs hstubs hmapM).append fun _ => ?_
  rw [reads_quiet_append (quiet_tableSection gs)]
  refine reads_entryHead.append fun _ => ?_
  rw [reads_quiet_append (quiet_literal rfl), reads_quiet_append hgpu,
    reads_quiet_append (quiet_literal rfl)]
  refine reads_quote_append reads_entryId ?_
  have hend : Quiet "\x7d\n\n" := quiet_literal rfl
  have hcases := (reads_caseSection gs).append fun _ => hend.reads
  rwa [List.append_nil] at hcases

/-! ## Names of the user -/

theorem safe_castQuotes {parent : String} {children : List String} (hparent : IsWord parent)
    (hchildren : ∀ n ∈ children, IsWord n) : ∀ q ∈ castQuotes parent children, q.Safe := by
  have hformat {n : String} (hn : IsWord n) : Verbatim (n ++ ":%p") :=
    verbatim_append.2 ⟨verbatim_of_isWord hn, verbatim_ofList rfl⟩
  have hattempts : ∀ q ∈ (parent :: children).flatMap fun t => [Quote.literal (t ++ ":%p") false],
      q.Safe := by
    rw [List.forall_mem_flatMap]
    intro n hn
    refine List.forall_mem_singleton.2 (hformat ?_)
    rcases List.mem_cons.1 hn with rfl | hn
    · exact hparent
    · exact hchildren n hn
  refine List.forall_mem_cons.2 ⟨verbatim_ofList rfl, List.forall_mem_cons.2
    ⟨verbatim_ofList rfl, List.forall_mem_append.2 ⟨hattempts, List.forall_mem_singleton.2 ?_⟩⟩⟩
  exact verbatim_append.2 ⟨verbatim_ofList rfl, verbatim_of_isWord hparent⟩

theorem verbatim_reportText (g : Group) :
    Verbatim g.reportText ↔ ∀ r ∈ g.shown, Verbatim r.file := by
  have hline (r : Routine) : Verbatim (toString r.line) := verbatim_int r.line
  have hcalls : Verbatim "%d calls to " := verbatim_ofList rfl
  have hcolon : Verbatim ":" := verbatim_ofList rfl
  unfold Group.reportText Group.shown
  cases g.twins with
  | nil =>
    have hend : Verbatim "" := verbatim_ofList rfl
    simp only [verbatim_append, hcalls, hcolon, hline, hend, true_and, and_true, List.take_nil,
      List.forall_mem_singleton]
  | cons r rs =>
    have hopening : Verbatim " (" := verbatim_ofList rfl
    have hclosing : Verbatim ")" := verbatim_ofList rfl
    simp only [verbatim_append, hcalls, hcolon, hline, hopening, hclosing, true_and, and_true,
      List.take_succ_cons, List.take_zero, List.forall_mem_cons, List.not_mem_nil,
      false_imp_iff, implies_true]

theorem safe_reportQuotes (gs : List Group) :
    (∀ q ∈ reportQuotes gs, q.Safe) ↔ ∀ g ∈ gs, ∀ r ∈ g.shown, Verbatim r.file := by
  have hinactive : (Quote.literal "Profiler inactive" true).Safe := verbatim_ofList rfl
  rw [reportQuotes, List.forall_mem_cons, and_iff_right hinactive, List.forall_mem_flatMap]
  exact forall₂_congr fun g _ => List.forall_mem_singleton.trans (verbatim_reportText g)

theorem safe_caseQuotes (gs : List Group) :
    (∀ q ∈ caseQuotes gs, q.Safe) ↔ ∀ g ∈ gs, ∀ r ∈ g.shown, Verbatim r.file := by
  have hcommands : ∀ q ∈ [Quote.literal "*profile on*" false, .literal "*profile off*" false,
      .literal "*profile report*" false], q.Safe := by decide +kernel
  have hlog : ∀ q ∈ [Quote.literal "*profile log*" false,
      .literal "Must have two string arguments" false, .literal "w+" false,
      .literal "Cannot open log for output" false], q.Safe := by decide +kernel
  have hunknown : ∀ q ∈ [Quote.literal "Unknown identifier" false], q.Safe := by decide +kernel
  have hparts : caseQuotes gs = [Quote.literal "*profile on*" false, .literal "*profile off*" false,
      .literal "*profile report*" false] ++ (reportQuotes gs ++ ([.literal "*profile log*" false,
      .literal "Must have two string arguments" false, .literal "w+" false,
      .literal "Cannot open log for output" false] ++ (reportQuotes gs
        ++ [.literal "Unknown identifier" false]))) := rfl
  rw [hparts]
  simp only [List.forall_mem_append, safe_reportQuotes]
  exact ⟨fun h => h.2.1, fun h => ⟨hcommands, h, hlog, h, hunknown⟩⟩

/-- Of what a gateway file quotes, only the quotes of stubs and the names of files need not be
safe. -/
theorem safe_iff {c : Context} (htypes : c.types.Worded) :
    (∀ q ∈ quotes c gs, q.Safe) ↔
      ∀ g ∈ gs, (∀ q ∈ g.quotes c, q.Safe) ∧ ∀ r ∈ g.shown, Verbatim r.file := by
  have hcopiers : (Quote.comment " Array copier definitions ").Safe := by decide +kernel
  have hcasts : ∀ x ∈ c.types.sortedClasses, ∀ q ∈ castQuotes x.1 x.2, q.Safe := by
    intro x hx
    obtain ⟨hparent, hchildren⟩ := htypes.classes x (List.mem_mergeSort.1 hx)
    exact safe_castQuotes hparent hchildren
  have hfortran : ∀ q ∈ if hasFortran gs then fortranQuotes else [], q.Safe := by
    split
    · decide +kernel
    · simp
  have hentry : ∀ q ∈ entryQuotes, q.Safe := by decide +kernel
  have hid : (Quote.literal "Identifier should be a string" false).Safe := by decide +kernel
  simp only [quotes, List.forall_mem_cons, List.forall_mem_append, List.forall_mem_flatMap,
    safe_caseQuotes]
  constructor
  · rintro ⟨-, -, -, hstubs, -, -, hfiles⟩ g hg
    exact ⟨hstubs g hg, hfiles g hg⟩
  · intro h
    exact ⟨hcopiers, hcasts, hfortran, fun g hg => (h g hg).1, hentry, hid, fun g hg => (h g hg).2⟩

end Gateway

namespace Group

open Text (Occurs occurs_left occurs_join)

variable {c : Context} {g : Group} {text : String}

/-- The comment and the signature are written as they are. -/
theorem occurs_stub (h : g.first.Written IsName) (hstub : g.stub c = .ok text) :
    Occurs ("/*" ++ g.commentText ++ "*/\n") text ∧
      Occurs ("static const char* stubids" ++ toString g.first.id ++ "_ = \""
        ++ g.first.signature c.settings.promotion ++ "\";\n") text := by
  obtain ⟨main, -, rfl⟩ := stub_of_written h hstub
  have hcomment : "/*" ++ g.commentText ++ "*/\n" = g.comment := by
    rw [← String.toList_inj]
    unfold comment commentText
    cases g.twins <;> simp
  rw [hcomment]
  have hhead (signature rest : String) : g.stubHead signature ++ rest = g.comment
      ++ ("static const char* stubids" ++ toString g.first.id ++ "_ = \"" ++ signature ++ "\";\n"
      ++ ("\nvoid mexStub" ++ (toString g.first.id ++ ("(int nlhs, mxArray* plhs[],\n"
        ++ ("              int nrhs, const mxArray* prhs[])\n\x7b\n"
        ++ ("    const char* mw_err_txt_ = 0;\n" ++ rest)))))) := by
    have hbreak : "\";\n\n" = "\";\n" ++ "\n" := rfl
    have hvoid : "\nvoid mexStub" = "\n" ++ "void mexStub" := rfl
    simp only [stubHead, hbreak, hvoid, String.append_assoc]
  rw [hhead]
  exact ⟨occurs_left .., (occurs_left ..).append_left _⟩

/-- So they stand in the file. -/
theorem occurs_body {gs : List Group} (hbody : Gateway.body c gs = .ok text) (hg : g ∈ gs)
    (h : g.first.Written IsName) :
    Occurs ("/*" ++ g.commentText ++ "*/\n") text ∧
      Occurs ("static const char* stubids" ++ toString g.first.id ++ "_ = \""
        ++ g.first.signature c.settings.promotion ++ "\";\n") text := by
  obtain ⟨stubs, hmapM, rest, rfl⟩ := Gateway.body_eq_ok hbody
  obtain ⟨stub, hmem, hstub⟩ := Routine.exists_ok_of_mapM hmapM g hg
  have hinside : Occurs stub (Gateway.definitions c gs ++ String.join stubs ++ rest) :=
    ((occurs_join hmem).append_left _).append_right _
  obtain ⟨hcomment, hsignature⟩ := occurs_stub h hstub
  exact ⟨hcomment.trans hinside, hsignature.trans hinside⟩

/-- A constant that opens no comment opens nothing in a call, as far as the signature is safe. -/
theorem passive_of_safe {p : Promotion} (h : g.first.Accepted p) (hs : g.first.Spelled)
    (hcomment : ∀ v ∈ g.first.args, v.kind = .const → Uncommented v.name)
    (hsafe : (Quote.literal (g.first.signature c.settings.promotion) false).Safe) :
    ∀ v ∈ g.first.args, v.kind = .const → Passive v.name := by
  intro v hv hconst
  have hverbatim := (Routine.verbatim_signature h.written (fun v hv => (h.soundResult v hv).const)
    c.settings.promotion).1 hsafe v hv hconst
  exact ⟨(verbatim_iff.1 hverbatim).1, hs.quote v hv hconst, hcomment v hv hconst⟩

/-- A signature is read back exactly if its constants hold neither a `"` nor a `\`. -/
theorem read_signature {p : Promotion} (h : g.first.Accepted p) (hs : g.first.Spelled)
    (q : Promotion) :
    read ("\"" ++ g.first.signature q ++ "\"") = (.code, [.literal (g.first.signature q).toList]) ↔
      ∀ v ∈ g.first.args, v.kind = .const → '"' ∉ v.name.toList ∧ '\\' ∉ v.name.toList := by
  have hread := (reads_quote (.literal (g.first.signature q) false)).iff
  have hwritten : String.ofList (Quote.literal (g.first.signature q) false).written
      = "\"" ++ g.first.signature q ++ "\"" := by
    rw [← String.toList_inj]
    simp [Quote.written, closing]
  have hmeant : [Quote.literal (g.first.signature q) false].map Quote.item
      = [.literal (g.first.signature q).toList] := by simp [Quote.item, ending]
  rw [hwritten, hmeant, List.forall_mem_singleton] at hread
  rw [hread]
  refine (Routine.verbatim_signature h.written (fun v hv => (h.soundResult v hv).const) q).trans ?_
  exact forall₂_congr fun v hv => imp_congr_right fun _ => hs.verbatim_name hv

/-- The comment before a stub ends at its own mark exactly if no name in it holds one. -/
theorem read_commentText (h : g.first.Written IsName) (hs : g.first.Spelled) :
    read ("/*" ++ g.commentText ++ "*/") = (.code, [.comment g.commentText.toList]) ↔
      (∀ r ∈ g.shown, Sealed r.file.toList) ∧ ∀ v ∈ g.first.args, Sealed v.name.toList := by
  have hread := (reads_quote (.comment g.commentText)).iff
  have hwritten : String.ofList (Quote.comment g.commentText).written
      = "/*" ++ g.commentText ++ "*/" := by
    rw [← String.toList_inj]
    simp [Quote.written]
  rw [hwritten, List.forall_mem_singleton] at hread
  refine hread.trans ((sealed_commentText g).trans ?_)
  rw [Routine.sealed_text h hs]

end Group

namespace Ledger

open Text (Occurs)

/-- **What is read back of the user's names.** Take a run without errors and the file written for
it. The signature of each stub is a literal that denotes it exactly if its constants hold neither a
`"` nor a `\`, and the comment before the stub ends at its own mark exactly if the names of files
and arguments in it hold no `*/`. If no constant, which is put into the call as it is, opens a
comment there, then the literals and comments of the whole file are the ones listed, each with the
text that was meant, exactly if all groups are quotable. -/
theorem quoted_as_meant_iff {mex : String} {s : Settings} {es : List Event} {text : String}
    (hes : Lexed es)
    (herr : (run mex { context := .ofSettings s } es).errors
      + (run mex { context := .ofSettings s } es).typeErrors = 0)
    (hbody : Gateway.body (run mex { context := .ofSettings s } es).context
      (run mex { context := .ofSettings s } es).groups = .ok text) :
    let l := run mex { context := .ofSettings s } es
    (∀ g ∈ l.groups,
      let signature := g.first.signature l.context.settings.promotion
      Occurs ("static const char* stubids" ++ toString g.first.id ++ "_ = \"" ++ signature
        ++ "\";\n") text ∧
      (CText.read ("\"" ++ signature ++ "\"") = (.code, [.literal signature.toList]) ↔
        ∀ v ∈ g.first.args, v.kind = .const → '"' ∉ v.name.toList ∧ '\\' ∉ v.name.toList) ∧
      Occurs ("/*" ++ g.commentText ++ "*/\n") text ∧
      (CText.read ("/*" ++ g.commentText ++ "*/") = (.code, [.comment g.commentText.toList]) ↔
        (∀ r ∈ g.shown, Sealed r.file.toList) ∧ ∀ v ∈ g.first.args, Sealed v.name.toList)) ∧
    ((∀ g ∈ l.groups, ∀ v ∈ g.first.args, v.kind = .const → Uncommented v.name) →
      (CText.read text = (.code, (Gateway.quotes l.context l.groups).map Quote.item) ↔
        ∀ g ∈ l.groups, g.Quotable)) := by
  intro l
  have hfirst : ∀ g ∈ l.groups, g.first ∈ l.routines :=
    fun g hg => Filed.mem_routines hg (List.mem_cons_self ..)
  have haccepted : ∀ g ∈ l.groups, g.first.Accepted (Context.ofSettings s).settings.promotion :=
    fun g hg => accepted_run hes herr _ (hfirst g hg)
  have hspelled : ∀ g ∈ l.groups, g.first.Spelled :=
    fun g hg => spelled_run hes herr _ (hfirst g hg)
  have htypes : l.context.types.Worded :=
    worded_run hes (by simp) (Context.worded_ofSettings s)
  refine ⟨fun g hg => ?_, fun hcomment => ?_⟩
  · obtain ⟨hcomment, hsignature⟩ := Group.occurs_body hbody hg (haccepted g hg).written
    exact ⟨hsignature, Group.read_signature (haccepted g hg) (hspelled g hg) _, hcomment,
      Group.read_commentText (haccepted g hg).written (hspelled g hg)⟩
  · have hreads : Reads text (Gateway.quotes l.context l.groups) := by
      refine Gateway.reads_body htypes (fun g hg => (haccepted g hg).written) ?_ hbody
      intro g hg stub
      exact Group.reads_stub (haccepted g hg).written
        (Group.passive_of_safe (haccepted g hg) (hspelled g hg) (hcomment g hg))
    rw [hreads.iff, Gateway.safe_iff htypes]
    refine forall₂_congr fun g hg => ?_
    obtain ⟨stubs, hmapM, -⟩ := Gateway.body_eq_ok hbody
    obtain ⟨stub, -, hstub⟩ := Routine.exists_ok_of_mapM hmapM g hg
    obtain ⟨-, main, hmain, -⟩ := Group.stub_eq_ok hstub
    exact (Group.quotable_iff (haccepted g hg) (hspelled g hg) hmain).symm

/-- Names in quotes, one of them a constant's, and a class with a child. -/
def boxEvents : List Event :=
  (Token.tokens 1 ("class Cube: Box; double r = f(const 'a - b', double[n] 'in x', Box& b); "
    ++ "FORTRAN g(inout int[n] y);").toList).map (.token "a.mw")

theorem quoted_as_meant_boxEvents :
    let l := run "gate" { context := .ofSettings {} } boxEvents
    let signature := "c o double = f(c i const a - b, c i double[x], c i Box&)"
    l.errors + l.typeErrors = 0 ∧ ∃ text, Gateway.body l.context l.groups = .ok text ∧
      Occurs ("static const char* stubids" ++ toString (1 : Int) ++ "_ = \"" ++ signature
        ++ "\";\n") text ∧
      CText.read ("\"" ++ signature ++ "\"") = (.code, [.literal signature.toList]) ∧
      CText.read text = (.code, (Gateway.quotes l.context l.groups).map Quote.item) := by
  intro l signature
  have hlexed : Lexed boxEvents := lexed_tokens _ _ _
  have herr : l.errors + l.typeErrors = 0 := by decide +kernel
  have hok : (Gateway.body l.context l.groups).isOk = true := by decide +kernel
  have hcomment : ∀ g ∈ l.groups, ∀ v ∈ g.first.args, v.kind = .const → Uncommented v.name := by
    decide +kernel
  have hquotable : ∀ g ∈ l.groups, g.Quotable := by decide +kernel
  have hbox : ∃ g ∈ l.groups, g.first.id = 1 ∧
      g.first.signature l.context.settings.promotion = signature := by decide +kernel
  cases hbody : Gateway.body l.context l.groups with
  | error e => simp [hbody, Except.isOk, Except.toBool] at hok
  | ok text =>
    obtain ⟨hstubs, hread⟩ := quoted_as_meant_iff hlexed herr hbody
    obtain ⟨g, hg, hid, hsignature⟩ := hbox
    obtain ⟨hoccurs, hliteral, -⟩ := hstubs g hg
    rw [hid, hsignature] at hoccurs
    rw [hsignature] at hliteral
    have hplain : ∀ v ∈ g.first.args, v.kind = .const →
        '"' ∉ v.name.toList ∧ '\\' ∉ v.name.toList :=
      fun v hv hconst => (hquotable g hg).literals v hv (Or.inl hconst)
    exact ⟨herr, text, rfl, hoccurs, hliteral.2 hplain, (hread hcomment).2 hquotable⟩

/-- A constant with a `"`, and a name with a `*/`. -/
def markedEvents : List Event :=
  (Token.tokens 1 "f(const 'a\"b'); g(double 'c*/d');".toList).map (.token "a.mw")

/-- There the literal denotes another text, and the comment ends too early. -/
theorem misquoted_markedEvents :
    let l := run "gate" { context := .ofSettings {} } markedEvents
    let signature := "f(c i const a\"b)"
    let comment := " ---- a.mw: 1 ----\n * g(double 'c*/d');\n "
    l.errors + l.typeErrors = 0 ∧ ∃ text, Gateway.body l.context l.groups = .ok text ∧
      Occurs ("static const char* stubids" ++ toString (1 : Int) ++ "_ = \"" ++ signature
        ++ "\";\n") text ∧
      CText.read ("\"" ++ signature ++ "\"") = (.literal [], [.literal "f(c i const a".toList]) ∧
      Occurs ("/*" ++ comment ++ "*/\n") text ∧
      (CText.read ("/*" ++ comment ++ "*/")).2
        = [.comment " ---- a.mw: 1 ----\n * g(double 'c".toList] := by
  intro l signature comment
  have hlexed : Lexed markedEvents := lexed_tokens _ _ _
  have herr : l.errors + l.typeErrors = 0 := by decide +kernel
  have hok : (Gateway.body l.context l.groups).isOk = true := by decide +kernel
  have hliteral : ∃ g ∈ l.groups, g.first.id = 1 ∧
      g.first.signature l.context.settings.promotion = signature := by decide +kernel
  have hcomment : ∃ g ∈ l.groups, g.commentText = comment := by decide +kernel
  cases hbody : Gateway.body l.context l.groups with
  | error e => simp [hbody, Except.isOk, Except.toBool] at hok
  | ok text =>
    have hoccurs : ∀ g ∈ l.groups, _ := fun g hg => Group.occurs_body hbody hg
      (accepted_run hlexed herr _ (Filed.mem_routines hg (List.mem_cons_self ..))).written
    obtain ⟨f, hf, hid, hsignature⟩ := hliteral
    obtain ⟨g, hg, htext⟩ := hcomment
    have hshown := (hoccurs f hf).2
    have hremark := (hoccurs g hg).1
    rw [hid, hsignature] at hshown
    rw [htext] at hremark
    exact ⟨herr, text, rfl, hshown, by decide +kernel, hremark, by decide +kernel⟩

end Ledger

end MexBridge
