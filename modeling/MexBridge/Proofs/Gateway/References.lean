import MexBridge.Proofs.Gateway.Dispatch
import MexBridge.Proofs.Gateway.Quotation

/-!
# What the entry function refers to

The function MATLAB calls refers to a table, to its size, and to the stubs with their signatures;
the table refers to stubs, too. The definitions of all of them come before, if there is a routine at
all (`entryReferences_defined`); and the function mentions nothing else that is generated
(`mem_mentions_entry`). Without a routine the table is left out, and the function refers to it
nevertheless (`apart_generated`).
-/

namespace MexBridge

namespace Text

/-- After each `a` comes a character other than `b`. -/
def isApart (a b : Char) : List Char → Bool
  | [] => true
  | x :: xs => (x != a || xs.head?.any (· != b)) && isApart a b xs

def Apart (a b : Char) (text : String) : Prop := isApart a b text.toList = true

variable {a b : Char} {s t : String} {cs ds : List Char}

theorem isApart_append (h : isApart a b cs = true) : isApart a b (cs ++ ds) = isApart a b ds := by
  induction cs with
  | nil => rfl
  | cons x xs ih =>
    obtain ⟨hx, hxs⟩ := Bool.and_eq_true_iff.1 h
    rw [List.cons_append, isApart, ih hxs, Bool.and_eq_right_iff_imp]
    intro _
    cases xs with
    | nil =>
      rw [Bool.or_eq_true_iff] at hx ⊢
      exact Or.inl (hx.resolve_right nofun)
    | cons y ys => exact hx

theorem isApart_of_append (h : isApart a b (cs ++ ds) = true) : isApart a b ds = true := by
  induction cs with
  | nil => exact h
  | cons x xs ih => exact ih (Bool.and_eq_true_iff.1 h).2

theorem isApart_of_not_mem (h : a ∉ cs) : isApart a b cs = true := by
  induction cs with
  | nil => rfl
  | cons x xs ih =>
    have hx : x ≠ a := fun heq => h (heq ▸ List.mem_cons_self ..)
    rw [isApart, ih fun hmem => h (List.mem_cons_of_mem _ hmem), bne_iff_ne.2 hx]
    rfl

theorem apart_literal (h : isApart a b cs = true) : Apart a b (String.ofList cs) := by
  rwa [Apart, String.toList_ofList]

theorem apart_of_isWord (h : IsWord t) (ha : MexBridge.isNameChar a = false) : Apart a b t :=
  isApart_of_not_mem fun hmem => h.ne ha a hmem rfl

theorem apart_int (k : Int) (ha : a ≠ '-') (hname : MexBridge.isNameChar a = false) :
    Apart a b (toString k) := by
  refine isApart_of_not_mem fun hmem => ?_
  rcases CText.mem_int hmem with heq | h
  · exact ha heq
  · rw [hname] at h
    cases h

theorem apart_append_iff (hs : Apart a b s) : Apart a b (s ++ t) ↔ Apart a b t := by
  rw [Apart, String.toList_append, isApart_append hs, Apart]

theorem apart_join {α : Type} {f : α → String} {xs : List α} (h : ∀ x ∈ xs, Apart a b (f x)) :
    Apart a b (String.join (xs.map f)) := by
  induction xs with
  | nil => exact apart_literal rfl
  | cons x xs ih =>
    obtain ⟨hx, hxs⟩ := List.forall_mem_cons.1 h
    rw [List.map_cons, String.join_cons, apart_append_iff hx]
    exact ih hxs

/-- What holds `a` with `b` behind does not occur. -/
theorem Apart.not_occurs (h : Apart a b t) (hpart : Occurs (String.ofList [a, b]) s) :
    ¬ Occurs s t := by
  intro hs
  obtain ⟨before, after, heq⟩ := hpart.trans hs
  rw [Apart, ← heq, String.toList_ofList, List.append_assoc] at h
  have hpair := isApart_of_append h
  simp [isApart] at hpair

end Text

namespace Gateway

open Text

/-- A name that is to be defined in a gateway file. -/
inductive Reference where
  | table
  | tableSize
  | stub (id : Int)
  | signature (id : Int)
deriving DecidableEq

namespace Reference

def name : Reference → String
  | .table => "mwStubs_"
  | .tableSize => "mwNumStubs_"
  | .stub id => "mexStub" ++ toString id
  | .signature id => "stubids" ++ toString id ++ "_"

/-- How its definition starts. -/
def definition : Reference → String
  | .table => "static mwStubFunc_t mwStubs_[] = \x7b\n"
  | .tableSize => "static int mwNumStubs_ = "
  | .stub id => "void mexStub" ++ toString id ++ "(int nlhs, mxArray* plhs[],\n"
      ++ "              int nrhs, const mxArray* prhs[])\n\x7b\n"
  | .signature id => "static const char* stubids" ++ toString id ++ "_ = \""

end Reference

/-- The names that the entry function refers to. -/
def entryReferences (gs : List Group) : List Reference :=
  [.table, .tableSize] ++ gs.flatMap fun g => [.signature g.first.id, .stub g.first.id]

/-- The names that the table refers to. -/
def tableReferences (gs : List Group) : List Reference :=
  (stubTable gs).filterMap fun k => k.map .stub

variable {c : Context} {gs : List Group} {g : Group} {r : Reference} {text : String}

/-! ## Uses -/

theorem signatureCase_eq (g : Group) :
    signatureCase g = "    else if (strcmp(id, " ++ ((Reference.signature g.first.id).name
      ++ (") == 0)\n        " ++ ((Reference.stub g.first.id).name
      ++ "(nlhs,plhs, nrhs-1,prhs+1);\n"))) := by
  have hsignature : "    else if (strcmp(id, stubids" = "    else if (strcmp(id, " ++ "stubids" :=
    by decide
  have hend : "_) == 0)\n" = "_" ++ ") == 0)\n" := by decide
  have hstub : "        mexStub" = "        " ++ "mexStub" := by decide
  have hgap : ") == 0)\n        " = ") == 0)\n" ++ "        " := by decide
  delta signatureCase
  simp only [Reference.name, hsignature, hend, hstub, hgap, String.append_assoc]

theorem occurs_signatureCase (g : Group) :
    Occurs (Reference.signature g.first.id).name (signatureCase g) ∧
      Occurs (Reference.stub g.first.id).name (signatureCase g) := by
  rw [signatureCase_eq]
  exact ⟨(occurs_left ..).append_left _,
    (((occurs_left ..).append_left _).append_left _).append_left _⟩

theorem occurs_entryHead :
    Occurs Reference.table.name entryHead ∧ Occurs Reference.tableSize.name entryHead := by
  have hline : "        if (stub_id > 0 && stub_id <= mwNumStubs_ && mwStubs_[stub_id])\n"
      = "        if (stub_id > 0 && stub_id <= " ++ (Reference.tableSize.name
        ++ (" && " ++ (Reference.table.name ++ "[stub_id])\n"))) := by decide
  -- The line stands in the midst, with five others behind it.
  have hinside {part : String} (hpart : Occurs part
      "        if (stub_id > 0 && stub_id <= mwNumStubs_ && mwStubs_[stub_id])\n") :
      Occurs part entryHead :=
    (((((hpart.append_left _).append_right _).append_right _).append_right _).append_right _)
      |>.append_right _
  rw [hline] at hinside
  exact ⟨hinside ((((occurs_left ..).append_left _).append_left _).append_left _),
    hinside ((occurs_left ..).append_left _)⟩

/-- The names are those that the text of the function refers to. -/
theorem occurs_entry (h : r ∈ entryReferences gs) : Occurs r.name (entry c gs) := by
  rcases List.mem_append.1 h with h | h
  · have hhead : Occurs r.name entryHead := by
      rcases List.mem_cons.1 h with rfl | h
      · exact occurs_entryHead.1
      · rw [List.mem_singleton.1 h]
        exact occurs_entryHead.2
    exact (((((hhead.append_right _).append_right _).append_right _).append_right _).append_right _)
      |>.append_right _
  · obtain ⟨g, hg, hr⟩ := List.mem_flatMap.1 h
    have hcase : Occurs r.name (signatureCase g) := by
      obtain ⟨hsignature, hstub⟩ := occurs_signatureCase g
      rcases List.mem_cons.1 hr with rfl | hr
      · exact hsignature
      · rw [List.mem_singleton.1 hr]
        exact hstub
    have hsection : Occurs r.name (caseSection gs) := by
      have hjoin := hcase.trans (occurs_join (List.mem_map_of_mem hg))
      delta caseSection
      dsimp only
      simp only [String.append_assoc]
      exact hjoin.append_right _
    exact (hsection.append_left _).append_right _

/-- The names are those that the text of the table refers to. -/
theorem occurs_table (h : r ∈ tableReferences gs) : Occurs r.name (tableSection gs) := by
  obtain ⟨k, hk, hr⟩ := List.mem_filterMap.1 h
  obtain ⟨id, rfl, rfl⟩ := Option.map_eq_some_iff.1 hr
  have hsome : ¬ maxId gs ≤ 0 := by
    intro hnone
    rw [stubTable, Int.toNat_of_nonpos hnone] at hk
    cases hk
  have hentry : Occurs (Reference.stub id).name (tableEntry (some id)) := by
    have hstub : ",\n    mexStub" = ",\n    " ++ "mexStub" := by decide
    rw [tableEntry, hstub, String.append_assoc]
    exact Occurs.append_left List.infix_rfl _
  have hjoin := hentry.trans (occurs_join (List.mem_map_of_mem hk))
  rw [tableSection, if_neg hsome]
  simp only [String.append_assoc]
  exact (((hjoin.append_right _).append_left _).append_left _).append_left _

/-! ## No other uses -/

/-- Whether a word is of the kind that the generated parts of a gateway file define. -/
def isGenerated (word : List Char) : Bool :=
  ["mwStub", "mwNumStub", "mexStub", "stubids", "mxWrap"].any (·.toList.isPrefixOf word)

def isGap (x : Char) : Bool := !Token.isNameTail x

/-- The words of this kind in a text. -/
def mentions (text : String) : List (List Char) := (text.toList.splitOnP isGap).filter isGenerated

section

variable {s t u : String}

/-- Two texts have their own words if the first one ends with none. -/
theorem mentions_append (h : s.toList.getLast?.all isGap = true) :
    mentions (s ++ t) = mentions s ++ mentions t := by
  unfold mentions
  rw [String.toList_append]
  rcases s.toList.eq_nil_or_concat with hs | ⟨cs, x, hs⟩
  · rw [hs]
    rfl
  · rw [hs] at h ⊢
    have hx : isGap x = true := by simpa using h
    rw [List.concat_append, List.concat_eq_append, List.splitOnP_append_cons _ _ hx,
      List.splitOnP_append_cons _ _ hx, List.filter_append, List.filter_append]
    simp [isGenerated]

theorem mentions_skip (h : s.toList.getLast?.all isGap = true ∧ mentions s = []) :
    mentions (s ++ t) = mentions t := by
  rw [mentions_append h.1, h.2, List.nil_append]

/-- They have, too, if the second one starts with none. -/
theorem mentions_append_open (h : t.toList.head?.any isGap = true) :
    mentions (s ++ (t ++ u)) = mentions s ++ mentions (t ++ u) := by
  unfold mentions
  rw [String.toList_append, String.toList_append]
  cases ht : t.toList with
  | nil =>
    rw [ht] at h
    cases h
  | cons x xs =>
    rw [ht] at h
    have hx : isGap x = true := h
    rw [List.cons_append, List.splitOnP_append_cons _ _ hx, ← List.nil_append (x :: _),
      List.splitOnP_append_cons [] _ hx, List.filter_append, List.filter_append]
    rfl

theorem mentions_word (h : ∀ x ∈ s.toList, Token.isNameTail x = true) :
    mentions s = [s.toList].filter isGenerated := by
  rw [mentions, List.splitOnP_eq_singleton fun x hx => by simp [isGap, h x hx]]

theorem isNameTail_repr (n : Nat) : ∀ x ∈ n.repr.toList, Token.isNameTail x = true := fun x hx => by
  simp [Token.isNameTail, Char.isAlphanum, CText.isDigit_repr hx]

theorem mentions_int (k : Int) : mentions (toString k) = [] := by
  have hrepr : ∀ n : Nat, mentions n.repr = [] := by
    intro n
    rw [mentions_word (isNameTail_repr n)]
    cases hdigits : n.repr.toList with
    | nil => rfl
    | cons x xs =>
      have hx : x.isDigit = true := CText.isDigit_repr (n := n) (by simp [hdigits])
      have hm : 'm' ≠ x := by
        rintro rfl
        cases hx
      have hs : 's' ≠ x := by
        rintro rfl
        cases hx
      simp [isGenerated, hm, hs]
  cases k with
  | ofNat n => exact hrepr n
  | negSucc n =>
    change mentions ("-" ++ (n + 1).repr) = []
    rw [mentions_skip (by decide), hrepr]

theorem mentions_name {k : Int} (hk : 0 ≤ k) : ∀ r ∈ [Reference.signature k, .stub k],
    mentions r.name = [r.name.toList] := by
  obtain ⟨n, rfl⟩ := Int.eq_ofNat_of_zero_le hk
  have hid : ∀ x ∈ (toString (n : Int)).toList, Token.isNameTail x = true := isNameTail_repr n
  intro r hr
  obtain ⟨hword, hgenerated⟩ : (∀ x ∈ r.name.toList, Token.isNameTail x = true) ∧
      isGenerated r.name.toList = true := by
    rcases List.mem_pair.1 hr with rfl | rfl
    · simp only [Reference.name, String.toList_append, List.forall_mem_append]
      exact ⟨⟨⟨List.all_eq_true.1 rfl, hid⟩, List.all_eq_true.1 rfl⟩, by simp [isGenerated]⟩
    · simp only [Reference.name, String.toList_append, List.forall_mem_append]
      exact ⟨⟨List.all_eq_true.1 rfl, hid⟩, by simp [isGenerated]⟩
  rw [mentions_word hword, List.filter_singleton, hgenerated]
  rfl

end

theorem mentions_signatureCases (hids : ∀ g ∈ gs, 0 ≤ g.first.id) (t : String) :
    mentions (String.join (gs.map signatureCase) ++ t)
      = (gs.flatMap fun g => [Reference.signature g.first.id, .stub g.first.id]).map (·.name.toList)
        ++ mentions t := by
  induction gs with
  | nil => rw [List.map_nil, String.join_nil, String.empty_append, List.flatMap_nil, List.map_nil,
      List.nil_append]
  | cons g gs ih =>
    obtain ⟨hid, hids⟩ := List.forall_mem_cons.1 hids
    have hname := mentions_name hid
    rw [List.map_cons, String.join_cons, signatureCase_eq]
    simp only [String.append_assoc]
    rw [mentions_skip (by decide), mentions_append_open (by decide), hname _ (by simp),
      mentions_skip (by decide), mentions_append_open (by decide), hname _ (by simp),
      mentions_skip (by decide), ih hids]
    rfl

theorem mentions_profileReport {printer : String} (t : String)
    (hprinter : printer.toList.getLast?.all isGap = true ∧ mentions printer = [])
    (hfiles : ∀ g ∈ gs, ∀ r ∈ g.members, mentions r.file = []) :
    mentions (profileReport printer gs ++ t) = mentions t := by
  have hlines : mentions (String.join (gs.map (profileLine printer)) ++ t) = mentions t := by
    induction gs with
    | nil => rw [List.map_nil, String.join_nil, String.empty_append]
    | cons g gs ih =>
      obtain ⟨hfile, hfiles⟩ := List.forall_mem_cons.1 hfiles
      have hfirst := hfile _ (List.mem_cons_self ..)
      rw [List.map_cons, String.join_cons, String.append_assoc, ← ih hfiles]
      generalize String.join _ ++ t = rest
      delta profileLine
      cases htwins : g.twins with
      | nil =>
        simp (disch := first | assumption | decide) only [String.append_assoc, String.empty_append,
          mentions_skip, mentions_append_open, mentions_int, hfirst, List.nil_append]
      | cons r rs =>
        have htwin := hfile r (by simp [Group.members, htwins])
        simp (disch := first | assumption | decide) only [String.append_assoc, mentions_skip,
          mentions_append_open, mentions_int, hfirst, htwin, List.nil_append]
  delta profileReport
  simp (disch := first | assumption | decide) only [String.append_assoc, mentions_skip, hlines]

theorem mentions_caseSection (hids : ∀ g ∈ gs, 0 ≤ g.first.id)
    (hfiles : ∀ g ∈ gs, ∀ r ∈ g.members, mentions r.file = []) (t : String) :
    mentions (caseSection gs ++ t)
      = (gs.flatMap fun g => [Reference.signature g.first.id, .stub g.first.id]).map (·.name.toList)
        ++ mentions t := by
  have hprint (u : String) : mentions (profileReport "mexPrintf(" gs ++ u) = mentions u :=
    mentions_profileReport u (by decide) hfiles
  have hlog (u : String) : mentions (profileReport "fprintf(logfp, " gs ++ u) = mentions u :=
    mentions_profileReport u (by decide) hfiles
  have hsize := mentions_int (maxFirstId gs + 1)
  delta caseSection
  dsimp only
  generalize profileReport "mexPrintf(" gs = print at hprint ⊢
  generalize profileReport "fprintf(logfp, " gs = log at hlog ⊢
  generalize toString (maxFirstId gs + 1) = size at hsize ⊢
  simp (disch := decide) only [String.append_assoc, mentions_signatureCases hids, mentions_skip,
    mentions_append_open, hprint, hlog, hsize, List.nil_append]

theorem mentions_entryHead (t : String) : mentions (entryHead ++ t)
    = [Reference.tableSize, .table, .table].map (·.name.toList) ++ mentions t := by
  delta entryHead
  simp (disch := decide) only [String.append_assoc, mentions_skip]
  -- Two lines are left in front: the test of the number, and the call.
  rw [mentions_append (by decide), mentions_append (by decide)]
  simp (disch := decide) only [mentions_skip]
  rfl

/-- **The entry function mentions what it refers to, and nothing else that is generated,** if the
names of the input files, which are in it, do not. -/
theorem mem_mentions_entry (hids : ∀ g ∈ gs, 0 ≤ g.first.id)
    (hfiles : ∀ g ∈ gs, ∀ r ∈ g.members, mentions r.file = []) {word : List Char} :
    word ∈ mentions (entry c gs) ↔ ∃ r ∈ entryReferences gs, r.name.toList = word := by
  have hentry : mentions (entry c gs)
      = [Reference.tableSize, .table, .table].map (·.name.toList) ++
        (gs.flatMap fun g => [Reference.signature g.first.id, .stub g.first.id]).map (·.name.toList)
        ++ mentions "\x7d\n\n" := by
    delta entry entryId
    simp only [String.append_assoc, mentions_entryHead]
    split <;> simp (disch := decide) only [mentions_skip, mentions_caseSection hids hfiles,
      List.append_assoc]
  have hend : mentions "\x7d\n\n" = [] := by decide
  rw [hentry, hend, List.append_nil, ← List.map_append, List.mem_map]
  refine exists_congr fun r => and_congr_left fun _ => ?_
  simp only [entryReferences, List.mem_append, List.mem_cons, List.not_mem_nil, or_false, or_self]
  exact or_congr_left or_comm

/-! ## Definitions -/

theorem occurs_stub_definition (h : g.stub c = .ok text) :
    Occurs (Reference.signature g.first.id).definition text ∧
      Occurs (Reference.stub g.first.id).definition text := by
  obtain ⟨signature, main, -, rfl⟩ := Group.stub_eq_ok h
  have hhead : g.stubHead signature = g.comment ++ ((Reference.signature g.first.id).definition
      ++ (signature ++ ("\";\n\n" ++ ((Reference.stub g.first.id).definition
      ++ "    const char* mw_err_txt_ = 0;\n")))) := by
    delta Group.stubHead Reference.definition
    simp only [String.append_assoc]
  have hinside {part : String} (hpart : Occurs part (g.stubHead signature)) (a b d : String) :
      Occurs part (g.stubHead signature ++ a ++ "\nmw_err_label:\n" ++ b ++ d) :=
    (((hpart.append_right _).append_right _).append_right _).append_right _
  constructor
  · refine hinside ?_ _ _ _
    rw [hhead]
    exact (occurs_left ..).append_left _
  · refine hinside ?_ _ _ _
    rw [hhead]
    exact ((((occurs_left ..).append_left _).append_left _).append_left _).append_left _

theorem exists_group_of_stubOf {id k : Int} (h : stubOf gs id = some k) :
    ∃ g ∈ gs, g.first.id = k := by
  obtain ⟨before, after, hids, -⟩ := List.lookup_eq_some_iff.1 h
  have hmem : (id, k) ∈ stubIds gs := by
    rw [← List.mem_reverse, hids]
    simp
  obtain ⟨g, hg, hk⟩ := List.mem_flatMap.1 hmem
  refine ⟨g, hg, ?_⟩
  rcases List.mem_cons.1 hk with hk | hk
  · exact (Prod.mk.inj hk).2.symm
  · obtain ⟨r, -, hr⟩ := List.mem_map.1 hk
    exact (Prod.mk.inj hr).2

theorem occurs_stubs {stubs : List String} (hstubs : gs.mapM (·.stub c) = .ok stubs) (hg : g ∈ gs) :
    Occurs (Reference.signature g.first.id).definition (String.join stubs) ∧
      Occurs (Reference.stub g.first.id).definition (String.join stubs) := by
  obtain ⟨stub, hmem, hstub⟩ := Routine.exists_ok_of_mapM hstubs g hg
  obtain ⟨hsignature, hdefinition⟩ := occurs_stub_definition hstub
  exact ⟨hsignature.trans (occurs_join hmem), hdefinition.trans (occurs_join hmem)⟩

/-- The stubs that the table refers to come before it. -/
theorem tableReferences_defined {stubs : List String} (hstubs : gs.mapM (·.stub c) = .ok stubs)
    (h : r ∈ tableReferences gs) : Occurs r.definition (String.join stubs) := by
  obtain ⟨k, hk, hr⟩ := List.mem_filterMap.1 h
  obtain ⟨id, rfl, rfl⟩ := Option.map_eq_some_iff.1 hr
  obtain ⟨i, -, hi⟩ := List.mem_map.1 hk
  obtain ⟨g, hg, rfl⟩ := exists_group_of_stubOf hi
  exact (occurs_stubs hstubs hg).2

theorem occurs_tableText (stubs : List Int) :
    Occurs Reference.table.definition (tableText stubs) ∧
      Occurs Reference.tableSize.definition (tableText stubs) := by
  have hopen : "static mwStubFunc_t mwStubs_[] = \x7b\n    NULL"
      = Reference.table.definition ++ "    NULL" := by decide
  delta tableText
  rw [hopen]
  simp only [String.append_assoc]
  exact ⟨((occurs_left ..).append_left _).append_left _,
    ((((((occurs_left ..).append_left _).append_left _).append_left _).append_left _).append_left _)
      |>.append_left _⟩

/-- **All that the entry function refers to is defined before it,** if there is a routine. -/
theorem entryReferences_defined {p : Promotion} {l : Ledger} {stubs : List String}
    (hfiled : l.Filed p) (hroutine : l.groups ≠ [])
    (hstubs : l.groups.mapM (·.stub c) = .ok stubs) (h : r ∈ entryReferences l.groups) :
    Occurs r.definition (String.join stubs ++ tableSection l.groups) := by
  have hcount : 1 ≤ l.count := by
    obtain ⟨g, hg⟩ := List.exists_mem_of_ne_nil _ hroutine
    have hid := hfiled.id_bounds (Ledger.Filed.mem_routines hg (List.mem_cons_self ..))
    omega
  obtain ⟨entries, -, htable, -⟩ := tableSection_eq hcount hfiled.ids
  rcases List.mem_append.1 h with h | h
  · obtain ⟨hdefined, hsize⟩ := occurs_tableText entries
    rw [htable]
    refine Occurs.append_left ?_ _
    rcases List.mem_cons.1 h with rfl | h
    · exact hdefined
    · rw [List.mem_singleton.1 h]
      exact hsize
  · obtain ⟨g, hg, hr⟩ := List.mem_flatMap.1 h
    obtain ⟨hsignature, hstub⟩ := occurs_stubs hstubs hg
    refine Occurs.append_right ?_ _
    rcases List.mem_cons.1 hr with rfl | hr
    · exact hsignature
    · rw [List.mem_singleton.1 hr]
      exact hstub

/-! ## Without a routine -/

section

variable {t : String}

theorem apart_copiers (h : IsWord t) : Apart ']' ' ' (copiers t) := by
  delta copiers
  simp (disch := first | exact apart_literal rfl | exact apart_of_isWord h rfl) only
    [String.append_assoc, apart_append_iff]
  exact apart_literal rfl

theorem apart_complexCopiers {part : String} (hpart : IsWord part) (h : IsWord t) :
    Apart ']' ' ' (complexCopiers part t) := by
  delta complexCopiers
  simp (disch := first | exact apart_literal rfl | exact apart_of_isWord h rfl |
    exact apart_of_isWord hpart rfl) only [String.append_assoc, apart_append_iff]
  exact apart_literal rfl

theorem apart_castGetter {children : List String} (h : ∀ n ∈ t :: children, IsWord n) :
    Apart ']' ' ' (castGetter t children) := by
  have hparent := h t (List.mem_cons_self ..)
  have hattempts : Apart ']' ' ' (String.join ((t :: children).map castAttempt)) := by
    refine apart_join fun n hn => ?_
    have hn := h n hn
    delta castAttempt
    simp (disch := first | exact apart_literal rfl | exact apart_of_isWord hn rfl) only
      [String.append_assoc, apart_append_iff]
    exact apart_literal rfl
  delta castGetter
  simp (disch := first | exact apart_literal rfl | exact apart_of_isWord hparent rfl |
    exact hattempts) only [String.append_assoc, apart_append_iff]
  exact apart_literal rfl

theorem apart_definitions (h : c.types.Worded) : Apart ']' ' ' (definitions c []) := by
  have hword {n : String} (hn : n ∈ c.types.scalars ++ c.types.cscalars ++ c.types.zscalars) :
      IsWord n := h.numbers n hn
  have hreal : Apart ']' ' ' (String.join (((TypeTable.sorted c.types.scalars).filter
      (!c.usage.lacks ·)).map copiers)) := by
    refine apart_join fun n hn => apart_copiers (hword ?_)
    simp [List.mem_mergeSort.1 (List.mem_filter.1 hn).1]
  have hsingle : Apart ']' ' ' (String.join ((TypeTable.sorted c.types.cscalars).map
      (complexCopiers "float"))) := by
    refine apart_join fun n hn => apart_complexCopiers (by decide) (hword ?_)
    simp [List.mem_mergeSort.1 hn]
  have hdouble : Apart ']' ' ' (String.join ((TypeTable.sorted c.types.zscalars).map
      (complexCopiers "double"))) := by
    refine apart_join fun n hn => apart_complexCopiers (by decide) (hword ?_)
    simp [List.mem_mergeSort.1 hn]
  have hcasts : Apart ']' ' ' (castSection c.types) := by
    refine apart_join fun x hx => ?_
    obtain ⟨hparent, hchildren⟩ := h.classes x (List.mem_mergeSort.1 hx)
    exact apart_castGetter (List.forall_mem_cons.2 ⟨hparent, hchildren⟩)
  delta definitions copierSection
  simp only [String.append_assoc]
  rw [apart_append_iff (by split <;> exact apart_literal rfl), apart_append_iff (apart_literal rfl),
    apart_append_iff hreal, apart_append_iff hsingle, apart_append_iff hdouble,
    apart_append_iff (apart_literal rfl), apart_append_iff hcasts]
  exact apart_literal rfl

theorem apart_entryHead : Apart ']' ' ' entryHead := by
  delta entryHead
  simp (disch := exact apart_literal rfl) only [String.append_assoc, apart_append_iff]
  exact apart_literal rfl

theorem apart_entryId : Apart ']' ' ' entryId := by
  delta entryId
  simp (disch := exact apart_literal rfl) only [String.append_assoc, apart_append_iff]
  exact apart_literal rfl

theorem apart_profileReport {printer : String} (h : Apart ']' ' ' printer) :
    Apart ']' ' ' (profileReport printer []) := by
  delta profileReport
  simp (disch := first | exact apart_literal rfl | exact h) only [String.append_assoc,
    apart_append_iff]
  exact apart_literal rfl

theorem apart_caseSection : Apart ']' ' ' (caseSection []) := by
  have hsize : Apart ']' ' ' (toString (maxFirstId [] + 1)) := apart_int _ (by decide) rfl
  have hprint : Apart ']' ' ' (profileReport "mexPrintf(" []) :=
    apart_profileReport (apart_literal rfl)
  have hlog : Apart ']' ' ' (profileReport "fprintf(logfp, " []) :=
    apart_profileReport (apart_literal rfl)
  have hcases : Apart ']' ' ' (String.join (([] : List Group).map signatureCase)) :=
    apart_join nofun
  delta caseSection
  dsimp only
  -- As variables the parts are not unfolded in the search for literals.
  generalize toString (maxFirstId [] + 1) = size at hsize ⊢
  generalize profileReport "mexPrintf(" [] = print at hprint ⊢
  generalize profileReport "fprintf(logfp, " [] = log at hlog ⊢
  generalize String.join (([] : List Group).map signatureCase) = cases at hcases ⊢
  simp (disch := first | assumption | exact apart_literal rfl) only [String.append_assoc,
    apart_append_iff]
  exact apart_literal rfl

theorem apart_entry : Apart ']' ' ' (entry c []) := by
  have hgpu : Apart ']' ' ' (if c.settings.gpu then "    mxInitGPU();\n" else "") := by
    split <;> exact apart_literal rfl
  delta entry
  simp only [String.append_assoc]
  rw [apart_append_iff apart_entryHead, apart_append_iff (apart_literal rfl),
    apart_append_iff hgpu, apart_append_iff (apart_literal rfl), apart_append_iff apart_entryId,
    apart_append_iff apart_caseSection]
  exact apart_literal rfl

theorem table_undefined (h : Apart ']' ' ' t) : ¬ Occurs Reference.table.definition t := by
  have hparts : Reference.table.definition
      = "static mwStubFunc_t mwStubs_[" ++ ("] " ++ "= \x7b\n") := by decide
  have hpair : Occurs "] " Reference.table.definition := by
    rw [hparts]
    exact (occurs_left ..).append_left _
  exact h.not_occurs hpair

/-- **Without a routine nothing that is generated defines the table** (`table_undefined`). -/
theorem apart_generated (h : c.types.Worded) :
    Apart ']' ' ' (definitions c [] ++ (tableSection [] ++ entry c [])) := by
  have htable : tableSection [] = "" := rfl
  rw [apart_append_iff (apart_definitions h), htable, String.empty_append]
  exact apart_entry

/-- What is generated does not start like a header. -/
theorem definitions_ne_header (c : Context) (gs : List Group) (t : Settings) (a b d : String) :
    definitions c gs ++ a ≠ header t b ++ d := by
  intro heq
  have hhead : (header t b).toList.head? = some '/' := by
    delta header headerParts banner
    simp only [List.cons_append, String.join_cons, String.toList_append, List.head?_append]
    rfl
  have hstart : (definitions c gs).toList.head? = some '#' ∨
      (definitions c gs).toList.head? = some '\n' := by
    delta definitions copierSection
    simp only [String.toList_append, List.head?_append]
    split
    · exact Or.inl rfl
    · exact Or.inr rfl
  have hfirst := congrArg (·.toList.head?) heq
  simp only [String.toList_append, List.head?_append, hhead, Option.some_or] at hfirst
  rcases hstart with hstart | hstart
  · rw [hstart] at hfirst
    cases hfirst
  · rw [hstart] at hfirst
    cases hfirst

theorem apart_header : Apart ']' ' ' (header {} "") := by
  have hparts : header {} "" = banner ++ ("" ++ "\n") := by
    rw [header, headerParts]
    simp [String.join_cons]
  rw [hparts]
  delta banner
  simp (disch := exact apart_literal rfl) only [String.append_assoc, apart_append_iff]
  exact apart_literal rfl

end

end Gateway

end MexBridge
