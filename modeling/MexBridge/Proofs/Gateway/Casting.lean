import Mathlib.Data.List.Count
import MexBridge.Gateway.Helpers
import MexBridge.Proofs.Ledger.Names
import MexBridge.Proofs.Text.Lines

/-!
# Cast functions

The cast function of a class tries the class itself and then its children, one attempt for each
entry of the class in the table of types. The table gets an entry each time that a child is
declared, so the entries are the children in the order of their declarations, the latest first
(`Registers`). A class that is declared twice, or declared a child of itself, is tried twice and
has its local pointer declared twice (`cast_is_chain_iff`).
-/

namespace MexBridge

/-! ## Declared children -/

/-- The pairs of child and parent that a statement declares. -/
def Statement.kin : Statement → List (String × String)
  | .inherits child parents => parents.map (child, ·)
  | _ => []

/-- The children of a class, in the order of their declarations. -/
def childrenIn (kin : List (String × String)) (parent : String) : List String :=
  (kin.filter (·.2 = parent)).map (·.1)

namespace Ledger

/-- The pairs that a step declares. -/
def kin (l : Ledger) : Event → List (String × String)
  | .token file t =>
    if t.isPunct ";" then
      match Statement.parse file (l.pending ++ [t]) with
      | .ok s => s.kin
      | .error _ => []
    else []
  | .endOfFile _ _ => []

/-- The pairs that a run declares. -/
def kinOf (mex : String) : Ledger → List Event → List (String × String)
  | _, [] => []
  | l, e :: es => l.kin e ++ kinOf mex (l.enter mex e).1 es

end Ledger

/-- Each parent has one entry, with its children as they were declared, the latest first. -/
structure TypeTable.Registers (classes : List (String × List String))
    (kin : List (String × String)) : Prop where
  nodup : (classes.map (·.1)).Nodup
  children : ∀ x ∈ classes, x.2 = (childrenIn kin x.1).reverse
  parents : ∀ parent, parent ∈ classes.map (·.1) ↔ childrenIn kin parent ≠ []

namespace TypeTable

variable {classes : List (String × List String)} {kin : List (String × String)}
  {child parent : String}

theorem keys_addChild (child : String) (classes : List (String × List String)) (parent : String) :
    (addChild child classes parent).map (·.1) = addName (classes.map (·.1)) parent := by
  fun_induction addChild child classes parent with
  | case1 parent => rfl
  | case2 cs rest parent => simp [addName]
  | case3 p cs rest parent hne ih =>
    rw [List.map_cons, ih]
    simp only [addName, List.map_cons, List.mem_cons, Ne.symm hne, false_or]
    split <;> rfl

/-- An entry is new, or the parent's with one more child, or one that was there. -/
theorem mem_addChild (hnodup : (classes.map (·.1)).Nodup) {x : String × List String}
    (hx : x ∈ addChild child classes parent) :
    x.1 ≠ parent ∧ x ∈ classes ∨
      x = (parent, [child]) ∧ parent ∉ classes.map (·.1) ∨
      ∃ cs, x = (parent, child :: cs) ∧ (parent, cs) ∈ classes := by
  fun_induction addChild child classes parent with
  | case1 parent => exact .inr (.inl ⟨by simpa using hx, by simp⟩)
  | case2 cs rest parent =>
    obtain ⟨hnotin, hnodup⟩ := List.nodup_cons.1 hnodup
    rcases List.mem_cons.1 hx with rfl | hmem
    · exact .inr (.inr ⟨cs, rfl, by simp⟩)
    · refine .inl ⟨?_, List.mem_cons_of_mem _ hmem⟩
      rintro rfl
      exact hnotin (List.mem_map.2 ⟨x, hmem, rfl⟩)
  | case3 p cs rest parent hne ih =>
    obtain ⟨hnotin, hnodup⟩ := List.nodup_cons.1 hnodup
    rcases List.mem_cons.1 hx with rfl | hx
    · exact .inl ⟨hne, by simp⟩
    · rcases ih hnodup hx with ⟨hne', hmem⟩ | ⟨rfl, hfresh⟩ | ⟨cs', rfl, hmem⟩
      · exact .inl ⟨hne', List.mem_cons_of_mem _ hmem⟩
      · exact .inr (.inl ⟨rfl, by simpa [Ne.symm hne] using hfresh⟩)
      · exact .inr (.inr ⟨cs', rfl, List.mem_cons_of_mem _ hmem⟩)

theorem childrenIn_concat (kin : List (String × String)) (child parent p : String) :
    childrenIn (kin ++ [(child, parent)]) p =
      childrenIn kin p ++ if parent = p then [child] else [] := by
  unfold childrenIn
  by_cases h : parent = p <;> simp [h]

theorem Registers.addChild (h : Registers classes kin) (child parent : String) :
    Registers (addChild child classes parent) (kin ++ [(child, parent)]) := by
  refine ⟨?_, ?_, ?_⟩
  · rw [keys_addChild]
    unfold addName
    split
    · exact h.nodup
    · rename_i hfresh
      exact List.nodup_append.2 ⟨h.nodup, List.nodup_singleton _, by grind⟩
  · intro x hx
    rw [childrenIn_concat]
    rcases mem_addChild h.nodup hx with ⟨hne, hmem⟩ | ⟨rfl, hfresh⟩ | ⟨cs, rfl, hmem⟩
    · rw [if_neg (Ne.symm hne), List.append_nil]
      exact h.children x hmem
    · have hnone : childrenIn kin parent = [] := by
        simpa using mt (h.parents parent).2 hfresh
      simp [hnone]
    · have := h.children _ hmem
      simp only at this
      simp [this]
  · intro p
    rw [keys_addChild, mem_addName, h.parents, childrenIn_concat]
    by_cases hp : parent = p
    · simp [hp]
    · simp [hp, Ne.symm hp]

theorem Registers.inherits {t : TypeTable} (h : Registers t.classes kin) (child : String)
    (parents : List String) :
    Registers (t.inherits child parents).classes (kin ++ parents.map (child, ·)) := by
  unfold TypeTable.inherits
  dsimp only
  generalize t.classes = classes at h
  induction parents generalizing classes kin with
  | nil => simpa using h
  | cons p ps ih => simpa using ih _ (h.addChild child p)

end TypeTable

namespace Ledger

variable {mex : String} {l : Ledger} {kin : List (String × String)}

theorem registers_enterStatement (h : TypeTable.Registers l.context.types.classes kin)
    (s : Statement) :
    TypeTable.Registers (l.enterStatement mex s).1.context.types.classes (kin ++ s.kin) := by
  cases s with
  | typedef space name =>
    simp only [enterStatement, Statement.kin, List.append_nil]
    split
    · rename_i s _
      cases s <;> exact h
    · exact h
  | inherits child parents => exact h.inherits child parents
  | call r =>
    simp only [Statement.kin, List.append_nil]
    exact h

theorem registers_enter (h : TypeTable.Registers l.context.types.classes kin) (e : Event) :
    TypeTable.Registers (l.enter mex e).1.context.types.classes (kin ++ l.kin e) := by
  rcases enter_cases mex l e with ⟨file, t, rfl, hstop, henter⟩ | ⟨hinner, -, hcontext⟩
  · rw [henter, Ledger.kin, if_pos hstop, enterTokens]
    cases parsed : Statement.parse file (l.pending ++ [t]) with
    | ok s => exact registers_enterStatement (l := { l with pending := [] }) h s
    | error e =>
      rw [List.append_nil]
      exact h
  · have hnone : l.kin e = [] := by
      cases e with
      | endOfFile file line => rfl
      | token file t => simp [Ledger.kin, hinner file t rfl]
    rwa [hnone, List.append_nil, hcontext]

/-- **The table lists the declared children.** -/
theorem registers_run (mex : String) (h : TypeTable.Registers l.context.types.classes kin)
    (es : List Event) :
    TypeTable.Registers (run mex l es).context.types.classes (kin ++ l.kinOf mex es) := by
  induction es generalizing l kin with
  | nil =>
    rw [kinOf, List.append_nil]
    exact h
  | cons e es ih =>
    rw [kinOf, ← List.append_assoc]
    exact ih (registers_enter h e)

theorem registers_ofSettings (settings : Settings) :
    TypeTable.Registers (Context.ofSettings settings).types.classes [] := by
  have hnone : (Context.ofSettings settings).types.classes = [] := by
    unfold Context.ofSettings
    dsimp only
    split <;> rfl
  rw [hnone]
  exact ⟨List.nodup_nil, by simp, by simp [childrenIn]⟩

end Ledger

/-! ## The lines of a cast function -/

/-- The lines of a text. -/
def Text.linesIn (text : String) : List String := (splitLines text.toList).map String.ofList

namespace Gateway

/-- A line that holds a name twice. -/
def twice (a b c t : String) : String := a ++ t ++ b ++ t ++ c

/-- The head of the cast function of class `t`. -/
def castHead : String → String := twice "" "* mxWrapGetP_" "(const mxArray* a, const char** e)\n"

/-- Declares the local pointer to `t`. -/
def castLocal : String → String := twice "    " "* p_" " = NULL;\n"

/-- Tries to read a pointer to `t`. -/
def castTry : String → String := twice "    sscanf(pbuf, \"" ":%p\", &p_" ");\n"

/-- The body of the cast function of `parent`: what follows its head, up to the closing brace. -/
def castBody (parent text : String) : List String :=
  (((Text.linesIn text).dropWhile (· ≠ castHead parent)).drop 1).takeWhile (· ≠ "\x7d\n")

/-- The class and its children are tried once each, nothing else is tried, and no local pointer is
declared twice. -/
def IsChain (parent : String) (children : List String) (body : List String) : Prop :=
  (∀ t, body.count (castTry t) = if t = parent ∨ t ∈ children then 1 else 0) ∧
    ∀ t, body.count (castLocal t) ≤ 1

/-! A line of a cast function is given by its parts, and the name of a class stands between them. -/

def fill (t : String) : List String → String
  | [] => ""
  | [part] => part
  | part :: parts => part ++ t ++ fill t parts

/-- The lines before the attempts. -/
def leadParts : List (List String) :=
  [["\x7b\n"],
    ["    char pbuf[128];\n"],
    ["    if (mxGetClassID(a) == mxDOUBLE_CLASS &&\n"],
    ["        mxGetM(a)*mxGetN(a) == 1 &&\n"],
    ["#if MX_HAS_INTERLEAVED_COMPLEX\n"],
    ["        ((mxIsComplex(a) ? ((*mxGetComplexDoubles(a)).real == 0 && "
      ++ "(*mxGetComplexDoubles(a)).imag == 0) : *mxGetDoubles(a) == 0))\n"],
    ["#else\n"],
    ["        *mxGetPr(a) == 0\n"],
    ["#endif\n"],
    ["        )\n"],
    ["        return NULL;\n"],
    ["    if (!mxIsChar(a)) \x7b\n"],
    ["#ifdef R2008OO\n"],
    ["        mxArray* ap = mxGetProperty(a, 0, \"mwptr\");\n"],
    ["        if (ap)\n"],
    ["            return mxWrapGetP_", "(ap, e);\n"],
    ["#endif\n"],
    ["        *e = \"Invalid pointer\";\n"],
    ["        return NULL;\n"],
    ["    \x7d\n"],
    ["    mxGetString(a, pbuf, sizeof(pbuf));\n"],
    ["\n"]]

/-- The lines of one attempt. -/
def attemptParts : List (List String) :=
  [["    ", "* p_", " = NULL;\n"],
    ["    sscanf(pbuf, \"", ":%p\", &p_", ");\n"],
    ["    if (p_", ")\n"],
    ["        return p_", ";\n"],
    ["\n"]]

/-- The lines after the attempts. -/
def refusalParts : List (List String) :=
  [["    *e = \"Invalid pointer to ", "\";\n"], ["    return NULL;\n"]]

/-- The lines between the head and the closing brace. -/
def bodyLines (parent : String) (children : List String) : List String :=
  leadParts.map (fill parent) ++
    (parent :: children).flatMap (fun t => attemptParts.map (fill t)) ++
    refusalParts.map (fill parent)

def getterLines (parent : String) (children : List String) : List String :=
  "\n" :: castHead parent :: bodyLines parent children ++ ["\x7d\n", "\n"]

theorem castAttempt_eq (t : String) : castAttempt t = String.join (attemptParts.map (fill t)) := by
  have hend : ";\n\n" = ";\n" ++ "\n" := by decide
  delta castAttempt attemptParts
  simp only [hend, List.map_cons, List.map_nil, fill, String.join_cons, String.join_nil,
    String.append_assoc, String.append_empty]

theorem join_map {α : Type} {f : α → String} {g : α → List String}
    (h : ∀ x, f x = String.join (g x)) (xs : List α) :
    String.join (xs.map f) = String.join (xs.flatMap g) := by
  induction xs with
  | nil => rfl
  | cons x xs ih =>
    rw [List.map_cons, List.flatMap_cons, String.join_cons, String.join_append, ih, h]

theorem castGetter_eq (parent : String) (children : List String) :
    castGetter parent children = String.join (getterLines parent children) := by
  have hread : "    mxGetString(a, pbuf, sizeof(pbuf));\n\n" =
    "    mxGetString(a, pbuf, sizeof(pbuf));\n" ++ "\n" := by decide
  have hend : "\x7d\n\n" = "\x7d\n" ++ "\n" := by decide
  delta castGetter getterLines bodyLines leadParts refusalParts castHead twice
  simp only [castAttempt_eq, join_map castAttempt_eq, hread, hend, List.map_cons, List.map_nil,
    List.flatMap_cons, fill, List.cons_append, List.nil_append, String.join_append,
    String.join_cons, String.join_nil, String.append_assoc, String.append_empty,
    String.empty_append]

/-! ## Lines told apart

The marks of a line, all that cannot stand in a name, do not depend on the class it is about. -/

def marks (s : String) : List Char := s.toList.filter (!isNameChar ·)

/-- Has the marks of a line that starts with `a` and ends with `c`. -/
def fits (a c : String) (ms : List Char) : Bool :=
  (marks a).isPrefixOf ms && (marks c).isSuffixOf ms

/-- The parts make one line. -/
def isLineOf : List String → Bool
  | [] => false
  | [part] => part.toList.getLast? == some '\n' && !part.toList.dropLast.contains '\n'
  | part :: parts => !part.toList.contains '\n' && isLineOf parts

theorem fill_eq_twice (a b c t : String) : fill t [a, b, c] = twice a b c t := by
  simp [fill, twice, String.append_assoc]

theorem marks_append (s t : String) : marks (s ++ t) = marks s ++ marks t := by
  simp [marks]

theorem fits_twice (a b c t : String) : fits a c (marks (twice a b c t)) = true := by
  rw [fits, Bool.and_eq_true, List.isPrefixOf_iff_prefix, List.isSuffixOf_iff_suffix]
  simp only [twice, marks_append, List.append_assoc]
  exact ⟨List.prefix_append _ _, by simp [← List.append_assoc]⟩

section Words

variable {t : String} (ht : IsWord t)

include ht

theorem marks_fill (parts : List String) : marks (fill t parts) = marks (String.join parts) := by
  have hnone : marks t = [] := by
    simpa [marks, List.filter_eq_nil_iff] using fun c hc => ht c hc
  fun_induction fill t parts with
  | case1 => rfl
  | case2 part => simp
  | case3 part parts _ ih => simp [marks_append, hnone, ih]

theorem isLine_fill {parts : List String} (h : isLineOf parts = true) :
    Text.IsLine (fill t parts).toList := by
  have hnewline : '\n' ∉ t.toList := by
    intro hmem
    exact absurd (ht _ hmem) (by decide)
  fun_induction fill t parts with
  | case1 => cases h
  | case2 part =>
    simp only [isLineOf, Bool.and_eq_true, beq_iff_eq, Bool.not_eq_true', List.contains_eq_mem,
      decide_eq_false_iff_not] at h
    obtain ⟨x, hx⟩ := List.getLast?_eq_some_iff.1 h.1
    exact ⟨x, hx, by simpa [hx] using h.2⟩
  | case3 part parts hne ih =>
    simp [isLineOf] at h
    obtain ⟨x, hx, hnot⟩ := ih h.2
    exact ⟨part.toList ++ t.toList ++ x, by simp [hx], by simp [h.1, hnewline, hnot]⟩

end Words

/-! ## Counting lines -/

theorem twice_injective (a b c : String) : Function.Injective (twice a b c) := by
  intro s t h
  have hlist : a.toList ++ (s.toList ++ (b.toList ++ (s.toList ++ c.toList))) =
      a.toList ++ (t.toList ++ (b.toList ++ (t.toList ++ c.toList))) := by
    simpa [twice] using congrArg String.toList h
  have hlength := congrArg List.length hlist
  simp only [List.length_append] at hlength
  have := List.append_inj_left (List.append_cancel_left hlist) (by omega)
  exact String.toList_inj.1 this

theorem count_of_filter {a b c : String} {ls ts : List String}
    (h : ls.filter (fun l => fits a c (marks l)) = ts.map (twice a b c)) (t : String) :
    ls.count (twice a b c t) = ts.count t := by
  rw [← List.count_filter (p := fun l => fits a c (marks l)) (fits_twice a b c t), h,
    List.count_map_of_injective _ _ (twice_injective a b c)]

variable {parent : String} {children : List String}

section Body

variable (h : ∀ t ∈ parent :: children, IsWord t)

include h

theorem exists_of_mem_bodyLines {l : String} (hl : l ∈ bodyLines parent children) :
    ∃ t, IsWord t ∧ ∃ parts ∈ leadParts ++ attemptParts ++ refusalParts, fill t parts = l := by
  have hparent : IsWord parent := h _ List.mem_cons_self
  simp only [bodyLines, List.mem_append, List.mem_map, List.mem_flatMap] at hl
  rcases hl with (⟨parts, hparts, e⟩ | ⟨t, ht, parts, hparts, e⟩) | ⟨parts, hparts, e⟩
  · exact ⟨parent, hparent, parts, by simp [hparts], e⟩
  · exact ⟨t, h t ht, parts, by simp [hparts], e⟩
  · exact ⟨parent, hparent, parts, by simp [hparts], e⟩

/-- A line that only attempts have is there once for each of them. -/
theorem count_bodyLines {a b c : String}
    (hnone : (leadParts ++ refusalParts).filter
      (fun parts => fits a c (marks (String.join parts))) = [])
    (hsome : attemptParts.filter (fun parts => fits a c (marks (String.join parts))) = [[a, b, c]])
    (t : String) : (bodyLines parent children).count (twice a b c t) =
      (parent :: children).count t := by
  have hfill {t : String} (ht : IsWord t) (ps : List (List String)) :
      (ps.map (fill t)).filter (fun l => fits a c (marks l)) =
        (ps.filter fun parts => fits a c (marks (String.join parts))).map (fill t) := by
    rw [List.filter_map]
    simp only [Function.comp_def, marks_fill ht]
  have hparent : IsWord parent := h _ List.mem_cons_self
  obtain ⟨hlead, hrefusal⟩ := List.append_eq_nil_iff.1 (List.filter_append .. ▸ hnone)
  refine count_of_filter ?_ t
  rw [bodyLines, List.filter_append, List.filter_append, hfill hparent, hfill hparent, hlead,
    hrefusal, List.filter_flatMap, List.map_nil, List.append_nil, List.nil_append,
    List.map_eq_flatMap]
  refine List.flatMap_congr fun t ht => ?_
  rw [hfill (h t ht), hsome, List.map_singleton, fill_eq_twice]

theorem count_castLocal (t : String) :
    (bodyLines parent children).count (castLocal t) = (parent :: children).count t :=
  count_bodyLines h (by decide +kernel) (by decide +kernel) t

theorem count_castTry (t : String) :
    (bodyLines parent children).count (castTry t) = (parent :: children).count t :=
  count_bodyLines h (by decide +kernel) (by decide +kernel) t

/-- A cast function has one head, its own. -/
theorem count_castHead (t : String) :
    (getterLines parent children).count (castHead t) = [parent].count t := by
  refine count_of_filter ?_ t
  have hhead := fits_twice "" "* mxWrapGetP_" "(const mxArray* a, const char** e)\n" parent
  generalize hp : fits "" "(const mxArray* a, const char** e)\n" = p at hhead ⊢
  have hnone : (leadParts ++ attemptParts ++ refusalParts ++ [["\x7d\n"], ["\n"]]).all
      (fun parts => !p (marks (String.join parts))) = true := hp ▸ by decide +kernel
  have hbody : (bodyLines parent children).filter (fun l => p (marks l)) = [] := by
    refine List.filter_eq_nil_iff.2 fun l hl => ?_
    obtain ⟨t, ht, parts, hparts, rfl⟩ := exists_of_mem_bodyLines h hl
    rw [marks_fill ht]
    simpa using List.all_eq_true.1 hnone parts (List.mem_append_left _ hparts)
  simp at hnone
  simp [getterLines, castHead, hhead, hbody, hnone]

theorem isLine_getterLines : ∀ l ∈ getterLines parent children, Text.IsLine l.toList := by
  have hline : ∀ parts ∈ leadParts ++ attemptParts ++ refusalParts, isLineOf parts = true := by
    decide +kernel
  have hbody : ∀ l ∈ bodyLines parent children, Text.IsLine l.toList := by
    intro l hl
    obtain ⟨t, ht, parts, hparts, rfl⟩ := exists_of_mem_bodyLines h hl
    exact isLine_fill ht (hline parts hparts)
  have hhead : Text.IsLine (castHead parent).toList := by
    rw [castHead, ← fill_eq_twice]
    exact isLine_fill (h _ List.mem_cons_self) (by decide +kernel)
  simp only [getterLines, List.cons_append, List.forall_mem_cons, List.forall_mem_append]
  exact ⟨⟨[], rfl, by simp⟩, hhead, hbody, ⟨['\x7d'], by decide, by decide⟩, ⟨[], rfl, by simp⟩,
    List.forall_mem_nil _⟩

theorem notMem_bodyLines : "\x7d\n" ∉ bodyLines parent children := by
  have hmarks : ∀ parts ∈ leadParts ++ attemptParts ++ refusalParts,
      marks (String.join parts) ≠ ['\x7d', '\n'] := by
    decide +kernel
  intro hmem
  obtain ⟨t, ht, parts, hparts, hfill⟩ := exists_of_mem_bodyLines h hmem
  refine hmarks parts hparts ?_
  rw [← marks_fill ht, hfill]
  decide

end Body

theorem linesIn_join {ls : List String} (h : ∀ l ∈ ls, Text.IsLine l.toList) :
    Text.linesIn (String.join ls) = ls := by
  have hlines : ∀ l ∈ ls.map String.toList, Text.IsLine l := by simpa using h
  have hsplit := Text.splitLines_flatten_append hlines []
  rw [List.append_nil, ← List.flatMap_def, ← String.toList_join] at hsplit
  rw [Text.linesIn, hsplit]
  simp [Text.splitLines, Function.comp_def]

variable {table : TypeTable}

theorem isWord_classes (h : table.Worded) {x : String × List String} (hx : x ∈ table.classes) :
    ∀ t ∈ x.1 :: x.2, IsWord t :=
  List.forall_mem_cons.2 (h.classes x hx)

theorem linesIn_castSection (h : table.Worded) :
    Text.linesIn (castSection table) =
      table.sortedClasses.flatMap fun x => getterLines x.1 x.2 := by
  have hjoin := join_map (fun x : String × List String => castGetter_eq x.1 x.2) table.sortedClasses
  refine (congrArg Text.linesIn hjoin).trans (linesIn_join ?_)
  intro l hl
  obtain ⟨x, hx, hl⟩ := List.mem_flatMap.1 hl
  exact isLine_getterLines (isWord_classes h (List.mem_mergeSort.1 hx)) l hl

/-- The body of a cast function is found in the section by its head. -/
theorem castBody_flatMap {classes : List (String × List String)}
    (hword : ∀ x ∈ classes, ∀ t ∈ x.1 :: x.2, IsWord t) (hnodup : (classes.map (·.1)).Nodup)
    (hmem : (parent, children) ∈ classes) :
    (((classes.flatMap fun x => getterLines x.1 x.2).dropWhile (· ≠ castHead parent)).drop
      1).takeWhile (· ≠ "\x7d\n") = bodyLines parent children := by
  induction classes with
  | nil => cases hmem
  | cons x classes ih =>
    obtain ⟨hx, hword⟩ := List.forall_mem_cons.1 hword
    obtain ⟨hnotin, hnodup⟩ := List.nodup_cons.1 hnodup
    rw [List.flatMap_cons]
    by_cases hparent : x.1 = parent
    · obtain rfl : x = (parent, children) := by
        rcases List.mem_cons.1 hmem with rfl | hmem
        · rfl
        · exact absurd (List.mem_map.2 ⟨_, hmem, hparent.symm⟩) hnotin
      have hblank : "\n" ≠ castHead parent := by
        intro h
        have hhead := fits_twice "" "* mxWrapGetP_" "(const mxArray* a, const char** e)\n" parent
        rw [← castHead, ← h] at hhead
        exact absurd hhead (by decide +kernel)
      have hbody : ∀ l ∈ bodyLines parent children, decide (l ≠ "\x7d\n") = true := by
        intro l hl
        simp only [decide_eq_true_eq]
        rintro rfl
        exact notMem_bodyLines hx hl
      have hrest (rest : List String) : (bodyLines parent children ++ "\x7d\n" :: rest).takeWhile
          (· ≠ "\x7d\n") = bodyLines parent children := by
        rw [List.takeWhile_append_of_pos hbody]
        simp
      simp only [getterLines, List.cons_append, List.append_assoc]
      rw [List.dropWhile_cons_of_pos (by simpa using hblank), List.dropWhile_cons_of_neg (by simp)]
      exact hrest _
    · -- The head stands in no other function, so the search goes on behind this one.
      have hpass : ∀ l ∈ getterLines x.1 x.2, decide (l ≠ castHead parent) = true := by
        have hcount := count_castHead hx parent
        rw [List.count_singleton, if_neg (by simpa using hparent), List.count_eq_zero] at hcount
        intro l hl
        simp only [decide_eq_true_eq]
        rintro rfl
        exact hcount hl
      rw [List.dropWhile_append_of_pos hpass]
      refine ih hword hnodup ?_
      rcases List.mem_cons.1 hmem with rfl | hmem
      · exact absurd rfl hparent
      · exact hmem

theorem castBody_castSection (h : table.Worded) (hnodup : (table.classes.map (·.1)).Nodup)
    (hmem : (parent, children) ∈ table.classes) :
    castBody parent (castSection table) = bodyLines parent children := by
  have hperm : table.sortedClasses.Perm table.classes := List.mergeSort_perm ..
  rw [castBody, linesIn_castSection h]
  refine castBody_flatMap ?_ ((hperm.map _).nodup_iff.2 hnodup) (hperm.mem_iff.2 hmem)
  exact fun x hx => isWord_classes h (hperm.mem_iff.1 hx)

theorem count_castHead_castSection (h : table.Worded) (t : String) :
    (Text.linesIn (castSection table)).count (castHead t) = (table.classes.map (·.1)).count t := by
  have hcount (classes : List (String × List String))
      (hword : ∀ x ∈ classes, ∀ t ∈ x.1 :: x.2, IsWord t) :
      (classes.flatMap fun x => getterLines x.1 x.2).count (castHead t) =
        (classes.map (·.1)).count t := by
    induction classes with
    | nil => rfl
    | cons x classes ih =>
      obtain ⟨hx, hword⟩ := List.forall_mem_cons.1 hword
      rw [List.flatMap_cons, List.count_append, count_castHead hx, ih hword, ← List.count_append]
      rfl
  have hperm : table.sortedClasses.Perm table.classes := List.mergeSort_perm ..
  rw [linesIn_castSection h, hcount, (hperm.map _).count_eq]
  exact fun x hx => isWord_classes h (hperm.mem_iff.1 hx)

/-- A chain has one attempt for each class. -/
theorem isChain_iff {body : List String}
    (htry : ∀ t, body.count (castTry t) = (parent :: children).count t)
    (hlocal : ∀ t, body.count (castLocal t) = (parent :: children).count t) :
    IsChain parent children body ↔ parent ∉ children ∧ children.Nodup := by
  rw [← List.nodup_cons, List.nodup_iff_count_le_one]
  refine ⟨fun h t => hlocal t ▸ h.2 t, fun h => ⟨fun t => ?_, fun t => hlocal t ▸ h t⟩⟩
  have hnodup := List.nodup_iff_count_le_one.2 h
  rw [htry]
  split
  · rename_i hmem
    exact List.count_eq_one_of_mem hnodup (List.mem_cons.2 hmem)
  · rename_i hmem
    exact List.count_eq_zero.2 (mt List.mem_cons.1 hmem)

end Gateway

namespace Ledger

open Gateway

section Runs

variable {mex : String} {settings : Settings} {es : List Event} (hes : Lexed es) {parent : String}

include hes

theorem worded_ofSettings_run :
    (run mex { context := .ofSettings settings } es).context.types.Worded :=
  worded_run hes (by simp) (Context.worded_ofSettings settings)

/-- The body of a cast function has an attempt for the class, and one for each declaration of a
child. -/
theorem count_castBody {children : List String}
    (hchildren : childrenIn (kinOf mex { context := .ofSettings settings } es) parent = children)
    (hsome : children ≠ []) {body : List String}
    (hbody : castBody parent
      (castSection (run mex { context := .ofSettings settings } es).context.types) = body) :
    (∀ t, body.count (castTry t) = (parent :: children).count t) ∧
      ∀ t, body.count (castLocal t) = (parent :: children).count t := by
  have hword : (run mex { context := .ofSettings settings } es).context.types.Worded :=
    worded_ofSettings_run hes
  have hreg := registers_run mex (l := { context := .ofSettings settings })
    (registers_ofSettings settings) es
  rw [List.nil_append] at hreg
  obtain ⟨x, hx, rfl⟩ := List.mem_map.1 ((hreg.parents parent).2 (hchildren ▸ hsome))
  have hentry : x.2 = children.reverse := by rw [hreg.children x hx, hchildren]
  have hlines : body = bodyLines x.1 children.reverse := by
    rw [← hbody]
    exact castBody_castSection hword hreg.nodup (hentry ▸ hx)
  have hwords : ∀ t ∈ x.1 :: children.reverse, IsWord t := by
    rw [← hentry]
    exact isWord_classes hword hx
  have hperm : (x.1 :: children.reverse).Perm (x.1 :: children) :=
    (List.reverse_perm children).cons _
  refine ⟨fun t => ?_, fun t => ?_⟩
  · rw [hlines, count_castTry hwords, hperm.count_eq]
  · rw [hlines, count_castLocal hwords, hperm.count_eq]

theorem count_castHead_run {table : TypeTable}
    (htable : (run mex { context := .ofSettings settings } es).context.types = table) :
    (Text.linesIn (castSection table)).count (castHead parent) =
      if childrenIn (kinOf mex { context := .ofSettings settings } es) parent = [] then 0
      else 1 := by
  subst htable
  have hreg := registers_run mex (l := { context := .ofSettings settings })
    (registers_ofSettings settings) es
  rw [List.nil_append] at hreg
  rw [count_castHead_castSection (worded_ofSettings_run hes)]
  split
  · rename_i hnone
    exact List.count_eq_zero.2 fun hmem => (hreg.parents parent).1 hmem hnone
  · rename_i hsome
    exact List.count_eq_one_of_mem hreg.nodup ((hreg.parents parent).2 hsome)

end Runs

/-- Each class with a declared child has one cast function. It tries the class itself and each of
its declared children as often as they were declared, with as many local pointers. So it is a chain
exactly if no child was declared twice and the class was not declared a child of itself. -/
theorem cast_is_chain_iff (mex : String) (settings : Settings) (es : List Event) (hes : Lexed es)
    (parent : String) :
    let children := childrenIn (kinOf mex { context := .ofSettings settings } es) parent
    let text := castSection (run mex { context := .ofSettings settings } es).context.types
    (Text.linesIn text).count (castHead parent) = (if children = [] then 0 else 1) ∧
    (children ≠ [] →
      (∀ t, (castBody parent text).count (castTry t) = (parent :: children).count t) ∧
      (∀ t, (castBody parent text).count (castLocal t) = (parent :: children).count t) ∧
      (IsChain parent children (castBody parent text) ↔ parent ∉ children ∧ children.Nodup)) := by
  intro children text
  refine ⟨count_castHead_run hes rfl, fun hsome => ?_⟩
  obtain ⟨htry, hlocal⟩ := count_castBody hes rfl hsome (rfl : _ = castBody parent text)
  exact ⟨htry, hlocal, isChain_iff htry hlocal⟩

/-- Two classes with two children each, and a call between the declarations. -/
def solidEvents : List Event :=
  (Token.tokens 1 ("class Cube : Solid, Box; f(Solid& s); "
    ++ "class Ball : Solid;").toList).map (.token "a.mw")

theorem cast_is_chain_solidEvents :
    let text := castSection (run "mex" { context := .ofSettings {} } solidEvents).context.types
    Lexed solidEvents ∧
      childrenIn (kinOf "mex" { context := .ofSettings {} } solidEvents) "Solid" =
        ["Cube", "Ball"] ∧
      (Text.linesIn text).count (castHead "Solid") = 1 ∧
      IsChain "Solid" ["Cube", "Ball"] (castBody "Solid" text) := by
  intro text
  have hes : Lexed solidEvents := lexed_tokens _ _ _
  have hchildren : childrenIn (kinOf "mex" { context := .ofSettings {} } solidEvents) "Solid" =
      ["Cube", "Ball"] := by decide +kernel
  have h := cast_is_chain_iff "mex" {} solidEvents hes "Solid"
  simp only [hchildren] at h
  exact ⟨hes, hchildren, h.1, (h.2 (by simp)).2.2.2 (by decide)⟩

/-- The same class line twice. -/
def repeatedEvents : List Event :=
  (Token.tokens 1 "class Cube : Solid; class Cube : Solid;".toList).map (.token "a.mw")

/-- A class line that is repeated makes its cast function declare the same pointer twice. -/
theorem not_chain_repeatedEvents :
    let body := castBody "Solid"
      (castSection (run "mex" { context := .ofSettings {} } repeatedEvents).context.types)
    body.count (castTry "Cube") = 2 ∧ body.count (castLocal "Cube") = 2 ∧
      ¬IsChain "Solid" ["Cube", "Cube"] body := by
  intro body
  have hchildren : childrenIn (kinOf "mex" { context := .ofSettings {} } repeatedEvents) "Solid" =
      ["Cube", "Cube"] := by decide +kernel
  have hes : Lexed repeatedEvents := lexed_tokens _ _ _
  obtain ⟨htry, hlocal⟩ := count_castBody hes hchildren (by simp) (rfl : _ = body)
  refine ⟨htry "Cube", hlocal "Cube", fun h => ?_⟩
  exact absurd ((isChain_iff htry hlocal).1 h).2 (by decide)

end Ledger

end MexBridge
