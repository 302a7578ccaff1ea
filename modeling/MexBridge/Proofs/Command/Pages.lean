import MexBridge.Proofs.Command.Outputs

/-!
# The pages of a batch

In a batch the source says where the MATLAB output goes. From one line that directs it to the next it is
a page (`Page`): the name of a file, and the text that all lines between the two have for it. The pages
of a source can be read off its lines (`pages`). A walk through a source that includes nothing puts each
of them into its file, and the last one for a file is what the file holds in the end
(`Walk.pages_filed`).

The name on an `@` line is all that follows the mark, with the blanks in its midst. It is to be the first
word, and it is if there is no other word on the line (`target_eq_prescribed_iff`).
-/

namespace MexBridge

/-! ## The names on lines -/

namespace SourceLine

variable {cs : List Char}

def firstWord (cs : List Char) : List Char :=
  (cs.dropWhile Text.isBlank).takeWhile (!Text.isBlank ·)

/-- The runs of letters, digits and underscores, each of them as long as can be. -/
def names (cs : List Char) : List (List Char) :=
  (cs.splitOnP (!Text.isNameChar ·)).filter (· ≠ [])

/-- The file that a line is to direct the MATLAB output to, outside blocks. The name is empty if the line
gives none. -/
def prescribed? (l : List Char) : Option (List Char) :=
  match classify (indent l).2 with
  | .function tail => some ((names (tail.takeWhile (· != '('))).getLastD [] ++ ['.', 'm'])
  | .redirect _ => some (firstWord ((indent l).2.drop 1))
  | _ => none

/-- The file that a line does direct the MATLAB output to. -/
def target? (l : List Char) : Option (List Char) :=
  match classify (indent l).2 with
  | .function tail => some (functionFile tail)
  | .redirect target => some target
  | _ => none

/-- What a line has for the file that it directs the MATLAB output to: the head of a function. -/
def head (l : List Char) : String :=
  match classify (indent l).2 with
  | .function tail => "function" ++ String.ofList tail ++ "\n"
  | _ => ""

theorem names_append_of_junk {junk : List Char} (h : ∀ c ∈ junk, Text.isNameChar c = false) :
    names (cs ++ junk) = names cs := by
  induction junk generalizing cs with
  | nil => rw [List.append_nil]
  | cons c junk ih =>
    have hrest : names (cs ++ [c] ++ junk) = names (cs ++ [c]) := ih fun d hd => h d (by simp [hd])
    rw [List.append_assoc, List.singleton_append] at hrest
    rw [hrest]
    unfold names
    rw [List.splitOnP_append_cons cs [] (by simp [h c])]
    simp

/-- A run at the end that nothing before it belongs to is the last one. -/
theorem getLastD_names_append {run : List Char} (h : ∀ c ∈ run, Text.isNameChar c = true)
    (hrun : run ≠ []) (hcs : ∀ c ∈ cs.getLast?, Text.isNameChar c = false) :
    (names (cs ++ run)).getLastD [] = run := by
  have hsplit : run.splitOnP (!Text.isNameChar ·) = [run] :=
    List.splitOnP_eq_singleton fun c hc => by simp [h c hc]
  rcases cs.eq_nil_or_concat with rfl | ⟨before, c, rfl⟩
  · simp [names, hsplit, hrun]
  · have hc : Text.isNameChar c = false := hcs c (by simp)
    unfold names
    rw [List.concat_append, List.splitOnP_append_cons before run (by simp [hc]), hsplit]
    simp [hrun]

/-- The file of a MATLAB function is named for the last name before the first parenthesis. -/
theorem functionFile_eq (tail : List Char) :
    functionFile tail = (names (tail.takeWhile (· != '('))).getLastD [] ++ ['.', 'm'] := by
  unfold functionFile
  dsimp only
  generalize tail.takeWhile (· != '(') = cs
  refine congrArg (· ++ ['.', 'm']) ?_
  -- From the end on: what belongs to no name, the last name, and all before it.
  let junk := cs.reverse.takeWhile (!Text.isNameChar ·)
  let named := cs.reverse.dropWhile (!Text.isNameChar ·)
  let run := named.takeWhile Text.isNameChar
  let before := named.dropWhile Text.isNameChar
  have hcs : cs = before.reverse ++ run.reverse ++ junk.reverse := by
    rw [← List.reverse_append, ← List.reverse_append, List.takeWhile_append_dropWhile,
      List.takeWhile_append_dropWhile, List.reverse_reverse]
  have hjunk : ∀ c ∈ junk.reverse, Text.isNameChar c = false := by
    intro c hc
    simpa using List.all_eq_true.1 List.all_takeWhile c (List.mem_reverse.1 hc)
  have hrun : ∀ c ∈ run.reverse, Text.isNameChar c = true := fun c hc =>
    List.all_eq_true.1 List.all_takeWhile c (List.mem_reverse.1 hc)
  have hbefore : ∀ c ∈ before.reverse.getLast?, Text.isNameChar c = false := by
    intro c hc
    rw [List.getLast?_reverse] at hc
    have hhead := List.head?_dropWhile_not Text.isNameChar named
    rw [show (named.dropWhile Text.isNameChar).head? = some c from hc] at hhead
    exact hhead
  change run.reverse = _
  rw [hcs, names_append_of_junk hjunk]
  by_cases hempty : run = []
  · have hnamed : named = [] := by
      cases hn : named with
      | nil => rfl
      | cons c cs' =>
        have hhead := List.head?_dropWhile_not (!Text.isNameChar ·) cs.reverse
        rw [show cs.reverse.dropWhile (!Text.isNameChar ·) = c :: cs' from hn] at hhead
        simp [run, hn, show Text.isNameChar c = true by simpa using hhead] at hempty
    simp [run, before, hnamed, names]
  · exact (getLastD_names_append hrun (by simpa using hempty) hbefore).symm

/-- A text without the white space at its ends is its first word if there is none in its midst. -/
theorem trim_eq_firstWord_iff :
    Text.trim cs = firstWord cs ↔ ∀ c ∈ Text.trim cs, Text.isBlank c = false := by
  constructor
  · intro h c hc
    rw [h] at hc
    simpa using List.all_eq_true.1 List.all_takeWhile c hc
  · intro h
    let rest := cs.dropWhile Text.isBlank
    let blanks := (rest.reverse.takeWhile Text.isBlank).reverse
    have hrest : rest = Text.trim cs ++ blanks := by
      rw [Text.trim, Text.dropEnd, ← List.reverse_append, List.takeWhile_append_dropWhile,
        List.reverse_reverse]
    have hblanks : blanks.takeWhile (!Text.isBlank ·) = [] := by
      cases hb : blanks with
      | nil => rfl
      | cons c bs =>
        have hc : c ∈ rest.reverse.takeWhile Text.isBlank :=
          List.mem_reverse.1 (show c ∈ blanks by simp [hb])
        have hblank := List.all_eq_true.1 List.all_takeWhile c hc
        simp [hblank]
    have hword : ∀ c ∈ Text.trim cs, (!Text.isBlank c) = true := fun c hc => by simp [h c hc]
    change _ = rest.takeWhile (!Text.isBlank ·)
    rw [hrest, List.takeWhile_append_of_pos hword, hblanks, List.append_nil]

theorem redirect_eq_trim {target : List Char} (h : classify cs = .redirect target) :
    target = Text.trim (cs.drop 1) := by
  unfold classify at h
  split at h
  · split at h <;> cases h
  · split at h
    · cases h
    · split at h
      · cases h
      · split at h
        · cases h
        · split at h <;> cases h
          rfl

/-- **A line directs the output where it is to,** unless it is an `@` line with a second word. -/
theorem target_eq_prescribed_iff {l : List Char} : target? l = prescribed? l ↔
    ∀ target, classify (indent l).2 = .redirect target → ∀ c ∈ target, Text.isBlank c = false := by
  unfold target? prescribed?
  cases hc : classify (indent l).2 with
  | function tail => simp [functionFile_eq]
  | redirect target =>
    simp only [Option.some.injEq, redirect.injEq, forall_eq']
    rw [redirect_eq_trim hc]
    exact trim_eq_firstWord_iff
  | _ => simp

end SourceLine

/-! ## The pages of a source -/

/-- The MATLAB output from one line that directs it to the next: the name of the file it is for, which is
empty for none, and its text. -/
structure Page where
  target : String
  text : String
deriving DecidableEq, Repr

/-- The text of the last page for the file at a path. -/
def Folder.pageAt? (d : Folder) (gs : List Page) (q : Folder.Path) : Option ByteArray :=
  (gs.reverse.find? fun g => (d.place g.target).toOption = some q).map (·.text.toUTF8)

theorem Folder.pageAt?_cons (d : Folder) (g : Page) (gs : List Page) (q : Folder.Path) :
    d.pageAt? (g :: gs) q = (d.pageAt? gs q).or
      (if (d.place g.target).toOption = some q then some g.text.toUTF8 else none) := by
  unfold pageAt?
  rw [List.reverse_cons, List.find?_append, Option.map_or]
  by_cases hq : (d.place g.target).toOption = some q <;> simp [hq]

/-- What the next line of a file finds: what the tokens before it were read into, its number, and whether
it stands in a block of C. -/
structure Spot (ρ : Type) where
  reader : ρ
  line : Int
  inBlock : Bool

namespace Spot

variable {ρ : Type}

/-- The tokens of a line. -/
def tokens (s : Spot ρ) (l : List Char) : List Token :=
  if s.inBlock then []
  else match SourceLine.classify (SourceLine.indent l).2 with
    | .declaration body => Token.tokens s.line body
    | .opener => []
    | _ => [.otherLine s.line]

/-- The text that a line has for the page it is met on. -/
def text (s : Spot ρ) (l : List Char) : String :=
  if s.inBlock then ""
  else match SourceLine.classify (SourceLine.indent l).2 with
    | .text => String.ofList l
    | .brokenOpener => String.ofList (SourceLine.indent l).1 ++ String.ofList l
    | _ => String.ofList (SourceLine.indent l).1

/-- The page that a line begins, with the line's own text for it. -/
def page? (s : Spot ρ) (l : List Char) : Option Page :=
  if s.inBlock then none
  else (SourceLine.target? l).map fun target => ⟨String.ofList target, SourceLine.head l⟩

end Spot

section

variable {ρ : Type}

/-- Takes tokens one after the other. `answer` gives what a token is read into and the MATLAB text that
is added for it. -/
def hear (answer : Token → ρ → ρ × String) : List Token → ρ → ρ × String
  | [], r => (r, "")
  | t :: ts, r =>
    let first := answer t r
    let rest := hear answer ts first.1
    (rest.1, first.2 ++ rest.2)

/-- The text before the first page, and the pages. What is added for the tokens of a line comes after the
line's own text. -/
def pages (answer : Token → ρ → ρ × String) : Spot ρ → List (List Char) → String × List Page
  | _, [] => ("", [])
  | s, l :: ls =>
    let heard := hear answer (s.tokens l) s.reader
    let rest := pages answer ⟨heard.1, s.line + 1, SourceLine.opensBlock s.inBlock l⟩ ls
    match s.page? l with
    | none => (s.text l ++ heard.2 ++ rest.1, rest.2)
    | some g => (s.text l, ⟨g.target, g.text ++ heard.2 ++ rest.1⟩ :: rest.2)

/-- No line includes a file. -/
def includesNone : Bool → List (List Char) → Bool
  | _, [] => true
  | inBlock, l :: ls =>
    (SourceLine.includes? inBlock l).isNone && includesNone (SourceLine.opensBlock inBlock l) ls

/-- What a mode does with a token: of the desk it sees the name of the file, and it reports notices and
writes MATLAB text. -/
def WalkMode.Answers (m : WalkMode ρ) (answer : String → Token → ρ → ρ × String) : Prop :=
  ∀ t r d, ∃ ns, m.feed t r d
    = ((answer d.file t r).1, (d.report ns).writeMatlab (answer d.file t r).2)

end

/-- What a file holds once the MATLAB output is closed, with so much more written to it before. -/
def Desk.filed (d : Desk) (more : String) (q : Folder.Path) : Option ByteArray :=
  match d.matlab.filter (·.file = some q) with
  | some o => some (o.text ++ more).toUTF8
  | none => d.folder.get? q

/-- Where a file lies there are the folders on the way to it. -/
theorem Folder.holds_of_get? {d : Folder} {p : Folder.Path} {content : ByteArray}
    (h : d.get? p = some content) : d.Holds p := by
  intro q hq hne
  have hp : p ∈ d.files.map Prod.fst := by
    rw [← List.contains_iff_mem, ← isSome_lookup]
    exact Option.isSome_iff_exists.2 ⟨content, h⟩
  obtain ⟨f, hf, rfl⟩ := List.mem_map.1 hp
  unfold isFolder
  rw [Bool.or_eq_true, List.any_eq_true]
  exact Or.inr ⟨f, hf, by simp [List.isPrefixOf_iff_prefix, hq, hne]⟩

namespace Walk

variable {ρ : Type} {m : WalkMode ρ} {inc : String → Walk ρ → Walk ρ}
  {answer : String → Token → ρ → ρ × String} {F : Folder} {p q : Folder.Path} {c : Option (Option Folder.Path)}
  {w w' w'' : Walk ρ}
  {text text' : String} {s s' : Spot ρ}

/-! ## Writing a page -/

def spot (w : Walk ρ) : Spot ρ := ⟨w.reader, w.desk.line, w.inBlock⟩

/-- From one walk to another, which has come to the spot, by writing MATLAB text, whatever else is
written or reported. -/
structure Wrote (text : String) (s : Spot ρ) (w w' : Walk ρ) : Prop where
  spot : w'.spot = s
  halt : w'.halt = w.halt
  folder : w'.desk.folder = w.desk.folder
  file : w'.desk.file = w.desk.file
  matlab : w'.desk.matlab.map (fun o => (o.file, o.text))
    = w.desk.matlab.map fun o => (o.file, o.text ++ text)
  c : w'.desk.c.map (·.file) = w.desk.c.map (·.file)

theorem Wrote.trans (h : Wrote text s w w') (h' : Wrote text' s' w' w'') :
    Wrote (text ++ text') s' w w'' where
  spot := h'.spot
  halt := h'.halt.trans h.halt
  folder := h'.folder.trans h.folder
  file := h'.file.trans h.file
  matlab := by
    have hboth := congrArg (Option.map fun x => (x.1, x.2 ++ text')) h.matlab
    simp only [Option.map_map, Function.comp_def, String.append_assoc] at hboth
    exact h'.matlab.trans hboth
  c := h'.c.trans h.c

/-- A walk that differs only in ways that are no matter for the MATLAB output. -/
theorem wrote_nothing (hs : w'.spot = s) (hhalt : w'.halt = w.halt)
    (hfolder : w'.desk.folder = w.desk.folder) (hfile : w'.desk.file = w.desk.file)
    (hmatlab : w'.desk.matlab = w.desk.matlab)
    (hc : w'.desk.c.map (·.file) = w.desk.c.map (·.file)) : Wrote "" s w w' :=
  ⟨hs, hhalt, hfolder, hfile, by simp [hmatlab], hc⟩

theorem wrote_matlab (text : String) (w : Walk ρ) :
    Wrote text w.spot w (w.onDesk (.writeMatlab text)) :=
  ⟨rfl, rfl, rfl, rfl, by simp [onDesk, Desk.writeMatlab, Sheet.write, Function.comp_def], rfl⟩

theorem wrote_c (text : String) (w : Walk ρ) : Wrote "" w.spot w (w.onDesk (.writeC text)) :=
  wrote_nothing rfl rfl rfl rfl rfl
    (by simp [onDesk, Desk.writeC, Sheet.write, Function.comp_def])

theorem wrote_nextLine (w : Walk ρ) :
    Wrote "" { w.spot with line := w.desk.line + 1 } w (w.onDesk .nextLine) :=
  wrote_nothing rfl rfl rfl rfl rfl rfl

theorem wrote_feed (hm : m.Answers answer) (t : Token) (w : Walk ρ) :
    Wrote (answer w.desk.file t w.reader).2
      { w.spot with reader := (answer w.desk.file t w.reader).1 } w (w.feed m t) := by
  obtain ⟨ns, h⟩ := hm t w.reader w.desk
  unfold feed
  rw [h]
  exact ⟨rfl, rfl, rfl, rfl,
    by simp [Desk.writeMatlab, Desk.report, Sheet.write, Function.comp_def], rfl⟩

theorem wrote_feedAll (hm : m.Answers answer) (ts : List Token) (w : Walk ρ) :
    Wrote (hear (answer w.desk.file) ts w.reader).2
      { w.spot with reader := (hear (answer w.desk.file) ts w.reader).1 } w
      (ts.foldl (fun w t => w.feed m t) w) := by
  induction ts generalizing w with
  | nil => exact wrote_nothing rfl rfl rfl rfl rfl rfl
  | cons t ts ih =>
    have hfirst := wrote_feed hm t w
    have hrest := ih (w.feed m t)
    have hreader : (w.feed m t).reader = (answer w.desk.file t w.reader).1 :=
      congrArg Spot.reader hfirst.spot
    rw [hfirst.file, hfirst.spot, hreader] at hrest
    exact hfirst.trans hrest

/-- The end of a line that is no declaration. -/
theorem wrote_passLine (hm : m.Answers answer) (w : Walk ρ) :
    Wrote (answer w.desk.file (.otherLine w.desk.line) w.reader).2
      ⟨(answer w.desk.file (.otherLine w.desk.line) w.reader).1, w.desk.line + 1, w.inBlock⟩ w
      (w.passLine m) := by
  have h := (wrote_nextLine w).trans (wrote_feed hm (.otherLine w.desk.line) (w.onDesk .nextLine))
  rw [String.empty_append] at h
  exact h

theorem wrote_blockLine (l : List Char) (hblock : w.inBlock = true) :
    Wrote "" ⟨w.reader, w.desk.line + 1, !SourceLine.isCloser l⟩ w (w.blockLine l) := by
  unfold blockLine
  dsimp only
  cases SourceLine.isCloser l with
  | true => exact wrote_nothing rfl rfl rfl rfl rfl rfl
  | false =>
    have hspot : (w.onDesk .nextLine).spot = ⟨w.reader, w.desk.line + 1, true⟩ := by
      rw [← hblock]
      rfl
    exact (wrote_nextLine w).trans (hspot ▸ wrote_c (String.ofList l) (w.onDesk .nextLine))

/-- A line that is no declaration, once its own text is written. -/
theorem Wrote.passLine {v : Walk ρ} (hm : m.Answers answer) (h : Wrote text w.spot w v) :
    let heard := hear (answer w.desk.file) [.otherLine w.desk.line] w.reader
    Wrote (text ++ heard.2) ⟨heard.1, w.desk.line + 1, w.inBlock⟩ w (v.passLine m) := by
  have hpass := wrote_passLine hm v
  have hreader : v.reader = w.reader := congrArg Spot.reader h.spot
  have hline : v.desk.line = w.desk.line := congrArg Spot.line h.spot
  have hblock : v.inBlock = w.inBlock := congrArg Spot.inBlock h.spot
  rw [h.file, hreader, hline, hblock] at hpass
  simpa [hear] using h.trans hpass

theorem wrote_declarationLine (hm : m.Answers answer) (body : List Char) (w : Walk ρ) :
    let heard := hear (answer w.desk.file) (Token.tokens w.desk.line body) w.reader
    Wrote heard.2 ⟨heard.1, w.desk.line + 1, w.inBlock⟩ w (w.declarationLine m body) := by
  intro heard
  have hread := wrote_feedAll hm (Token.tokens w.desk.line body) w
  have hspot := congrArg (fun s : Spot ρ => { s with line := s.line + 1 }) hread.spot
  have hend : Wrote (heard.2 ++ "") ⟨heard.1, w.desk.line + 1, w.inBlock⟩ w
      (w.declarationLine m body) :=
    hread.trans (wrote_nothing hspot rfl rfl rfl rfl rfl)
  rw [String.append_empty] at hend
  exact hend

/-- What a line leads to that begins no page. -/
theorem wrote_takeLine (hm : m.Answers answer) {l : List Char} (hinc : w.included? l = none)
    (hpage : w.spot.page? l = none) :
    let heard := hear (answer w.desk.file) (w.spot.tokens l) w.reader
    Wrote (w.spot.text l ++ heard.2) ⟨heard.1, w.desk.line + 1, SourceLine.opensBlock w.inBlock l⟩ w
      (w.takeLine m inc l) := by
  have hspot : w.spot.inBlock = w.inBlock := rfl
  have hline : w.spot.line = w.desk.line := rfl
  unfold takeLine
  unfold Spot.page? SourceLine.target? at hpage
  unfold Spot.tokens Spot.text SourceLine.opensBlock
  rw [hspot] at hpage ⊢
  rw [hline]
  by_cases hblock : w.inBlock = true
  · simp only [if_pos hblock]
    exact wrote_blockLine l hblock
  · -- All lines but those of text have their indent written first.
    let indent := String.ofList (SourceLine.indent l).1
    let marked := w.onDesk (.writeMatlab indent)
    have hmarked : Wrote indent w.spot w marked := wrote_matlab _ w
    have hclosed : w.inBlock = false := by simpa using hblock
    rw [included?, if_neg hblock] at hinc
    rw [if_neg hblock] at hpage
    simp only [if_neg hblock]
    unfold openLine
    dsimp only
    cases hc : SourceLine.classify (SourceLine.indent l).2 with
    | text => simpa [hclosed] using (wrote_matlab (String.ofList l) w).passLine hm
    | brokenOpener =>
      have hcopied : Wrote (indent ++ String.ofList l) w.spot w
          (marked.onDesk (.writeMatlab (String.ofList l))) := hmarked.trans (wrote_matlab _ marked)
      simpa [hclosed] using hcopied.passLine hm
    | comment => simpa [hclosed] using hmarked.passLine hm
    | function tail => simp [hc] at hpage
    | «include» name => simp [hc] at hinc
    | redirect target => simp [hc] at hpage
    | code c =>
      have hcode : Wrote (indent ++ "") w.spot w (marked.onDesk (.writeC (String.ofList c))) :=
        hmarked.trans (wrote_c _ marked)
      rw [String.append_empty] at hcode
      simpa [hclosed] using hcode.passLine hm
    | opener => exact hmarked.trans (wrote_nothing rfl rfl rfl rfl rfl rfl)
    | declaration body =>
      have hread := hmarked.trans (wrote_declarationLine hm body marked)
      rw [show marked.inBlock = false from hclosed] at hread
      exact hread

theorem spot_direct (target : String) (w : Walk ρ) : (w.direct m target).spot = w.spot := by
  obtain ⟨_, _, _, _, _, h⟩ := fields_direct (m := m) target w
  rw [h]
  rfl

theorem file_direct (target : String) (w : Walk ρ) :
    (w.direct m target).desk.file = w.desk.file := by
  obtain ⟨_, _, _, _, _, h⟩ := fields_direct (m := m) target w
  rw [h]

variable (inc) in
/-- What a line leads to that begins a page: its indent is written, the output directed to the file of
the page and, unless that ends the walk, the rest of the line written there. -/
theorem turns_takeLine (hm : m.Answers answer) {l : List Char} {g : Page}
    (hpage : w.spot.page? l = some g) :
    let heard := hear (answer w.desk.file) (w.spot.tokens l) w.reader
    let v := (w.indented l).direct m g.target
    w.spot.text l = String.ofList (SourceLine.indent l).1 ∧ (v.halt = none →
      Wrote (g.text ++ heard.2) ⟨heard.1, w.desk.line + 1, SourceLine.opensBlock w.inBlock l⟩ v
        (w.takeLine m inc l)) := by
  intro heard v
  have hspot : v.spot = w.spot := spot_direct g.target (w.indented l)
  have hfile : v.desk.file = w.desk.file := file_direct g.target (w.indented l)
  have hreader : v.reader = w.reader := congrArg Spot.reader hspot
  have hline : v.desk.line = w.desk.line := congrArg Spot.line hspot
  have hinBlock : v.inBlock = w.inBlock := congrArg Spot.inBlock hspot
  have hclosed : w.inBlock = false := by
    rw [Bool.eq_false_iff]
    intro hblock
    rw [Spot.page?, show w.spot.inBlock = true from hblock] at hpage
    cases hpage
  have hpassed : ∀ {u : Walk ρ}, Wrote g.text v.spot v u →
      Wrote (g.text ++ (hear (answer w.desk.file) [.otherLine w.desk.line] w.reader).2)
        ⟨(hear (answer w.desk.file) [.otherLine w.desk.line] w.reader).1, w.desk.line + 1, false⟩ v
        (u.passLine m) := by
    intro u hu
    have hpass := hu.passLine hm
    dsimp only at hpass
    rwa [hfile, hreader, hline, hinBlock, hclosed] at hpass
  unfold Spot.page? SourceLine.target? SourceLine.head at hpage
  unfold heard Spot.tokens Spot.text SourceLine.opensBlock takeLine openLine
  simp only [show w.spot.inBlock = false from hclosed, hclosed, Bool.false_eq_true, if_false] at hpage ⊢
  -- Lines of two kinds begin a page, and both direct the output before anything else.
  cases hc : SourceLine.classify (SourceLine.indent l).2 with
  | function tail =>
    rw [hc] at hpage
    cases hpage
    refine ⟨rfl, fun hgoes => ?_⟩
    change Wrote _ _ v ((w.indented l).functionLine m tail)
    rw [functionLine_eq_direct, andThen_of_goes hgoes]
    exact hpassed (wrote_matlab _ v)
  | redirect target =>
    rw [hc] at hpage
    cases hpage
    refine ⟨rfl, fun hgoes => ?_⟩
    change Wrote _ _ v ((w.indented l).redirectLine m (String.ofList target))
    rw [redirectLine_eq_direct, andThen_of_goes hgoes]
    exact hpassed (wrote_nothing rfl rfl rfl rfl rfl rfl)
  | _ => simp [hc] at hpage

/-! ## Turning to the next page -/

/-- A walk in a batch through the file at `p`, which no output is for, with the folders of `F` and the C
output for `c`. The file of the MATLAB output is still empty. -/
structure InBatch (F : Folder) (p : Folder.Path) (c : Option (Option Folder.Path)) (w : Walk ρ) :
    Prop where
  goes : w.halt = none
  here : w.desk.folder.here = F.here
  isFolder : ∀ q, w.desk.folder.isFolder q = F.isFolder q
  source : w.desk.folder.get? p = F.get? p
  matlab : ∀ o ∈ w.desk.matlab, ∀ q, o.file = some q →
    q ≠ p ∧ w.desk.folder.get? q = some ByteArray.empty
  c : w.desk.c.map (·.file) = c

theorem Wrote.inBatch (h : Wrote text s w w') (hw : InBatch F p c w) : InBatch F p c w' where
  goes := h.halt.trans hw.goes
  here := h.folder.symm ▸ hw.here
  isFolder := h.folder.symm ▸ hw.isFolder
  source := h.folder.symm ▸ hw.source
  matlab := by
    intro o ho q hq
    have hmatlab := h.matlab
    rw [Option.mem_def.1 ho] at hmatlab
    obtain ⟨o', ho', heq⟩ := Option.map_eq_some_iff.1 hmatlab.symm
    rw [h.folder]
    exact hw.matlab o' ho' q ((congrArg Prod.fst heq).trans hq)
  c := h.c.trans hw.c

theorem Wrote.filed (h : Wrote text s w w') (more : String) (q : Folder.Path) :
    w'.desk.filed more q = w.desk.filed (text ++ more) q := by
  have hmatlab := h.matlab
  unfold Desk.filed
  rw [h.folder]
  cases hm : w.desk.matlab with
  | none =>
    rw [hm] at hmatlab
    rw [Option.map_eq_none_iff.1 hmatlab]
    rfl
  | some o =>
    rw [hm] at hmatlab
    obtain ⟨o', ho', heq⟩ := Option.map_eq_some_iff.1 hmatlab
    obtain ⟨hfile, htext⟩ := Prod.mk.inj heq
    rw [ho']
    by_cases hq : o.file = some q
    · simp [Option.filter, hfile, hq, htext, String.append_assoc]
    · simp [Option.filter, hfile, hq]

theorem filed_of_closed {d : Desk} (h : d.matlab = none) (more : String) (q : Folder.Path) :
    d.filed more q = d.folder.get? q := by
  rw [Desk.filed, h]
  rfl

/-- The MATLAB output is closed: its file is filed, and no folder comes or goes. -/
theorem InBatch.closeMatlab (h : InBatch F p c w) :
    InBatch F p c (w.onDesk .closeMatlab) ∧
      ∀ q, w.desk.closeMatlab.folder.get? q = w.desk.filed "" q := by
  have hfolder : w.desk.closeMatlab.folder = Sheet.closeAll w.desk.matlab.toList w.desk.folder := rfl
  cases hm : w.desk.matlab with
  | none =>
    rw [hm] at hfolder
    have hsame : w.desk.closeMatlab.folder = w.desk.folder := hfolder
    refine ⟨⟨h.goes, hsame ▸ h.here, hsame ▸ h.isFolder, hsame ▸ h.source, nofun, h.c⟩, fun q => ?_⟩
    rw [filed_of_closed hm, hsame]
  | some o =>
    rw [hm] at hfolder
    have hholds : ∀ q ∈ o.file.toList, w.desk.folder.Holds q := fun q hq =>
      Folder.holds_of_get? (h.matlab o hm q (by simpa using hq)).2
    have hcovers : w.desk.closeMatlab.folder.Covers o.file.toList w.desk.folder :=
      hfolder ▸ Sheet.covers_finish hholds (by simp) (Sheet.covers_land hholds (by simp) (.refl _ _))
    have hp : p ∉ o.file.toList := fun hp => (h.matlab o hm p (by simpa using hp)).1 rfl
    refine ⟨⟨h.goes, hcovers.here.symm.trans h.here, fun q => (hcovers.isFolder q).symm.trans (h.isFolder q),
      (hcovers.other p hp).symm.trans h.source, nofun, h.c⟩, fun q => ?_⟩
    unfold Desk.filed
    rw [hm]
    by_cases hq : o.file = some q
    · rw [hfolder, show (some o).toList = [o] from rfl,
        Sheet.get?_closeAll_self hq (h.matlab o hm q hq).2]
      simp [Option.filter, hq]
    · rw [← hcovers.other q (by simpa using hq)]
      simp [Option.filter, hq]

/-- The MATLAB output is directed to a file, or to none. -/
theorem InBatch.direct (hm : m.batching = true) (h : InBatch F p c w) {target : String}
    (htarget : target = "" ∨ ∃ q, F.place target = .ok q ∧ q ≠ p) :
    InBatch F p c (w.direct m target) ∧ ∀ more q, (w.direct m target).desk.filed more q
      = if (F.place target).toOption = some q then some more.toUTF8 else w.desk.filed "" q := by
  obtain ⟨hclosed, hfiled⟩ := h.closeMatlab
  -- The output in use is closed in both cases; only a name opens another one.
  rcases htarget with rfl | ⟨r, hplace, hr⟩
  · have heq : w.direct m "" = w.onDesk .closeMatlab := by
      unfold Walk.direct reopen
      rw [hm, if_pos rfl, if_pos rfl, andThen_of_goes hclosed.goes]
      simp
    rw [heq]
    refine ⟨hclosed, fun more q => ?_⟩
    rw [filed_of_closed rfl, show F.place "" = .error .missingFile from rfl]
    exact hfiled q
  · have hplace' : w.desk.closeMatlab.folder.place target = .ok r :=
      (Folder.place_congr hclosed.here hclosed.isFolder).2 hplace
    obtain ⟨hfolder, hmatlab, hgoes⟩ :=
      Command.direct_batch hm (Command.ne_empty_of_place hplace) hplace' h.goes
    have hholds := Folder.holds_place hplace'
    refine ⟨⟨hgoes, ?_, fun q => ?_, ?_, ?_, ?_⟩, fun more q => ?_⟩
    · rw [hfolder]
      exact hclosed.here
    · rw [hfolder]
      exact (Folder.isFolder_put hholds _ q).trans (hclosed.isFolder q)
    · rw [hfolder, Folder.get?_make_of_ne hr.symm]
      exact hclosed.source
    · rw [hmatlab, hfolder]
      rintro o ⟨⟩ q ⟨⟩
      exact ⟨hr, Folder.get?_make_self ..⟩
    · rw [c_direct]
      exact h.c
    · unfold Desk.filed
      rw [hmatlab, hfolder, hplace]
      by_cases hq : r = q
      · simp [Option.filter, Except.toOption, hq]
      · simp only [Option.filter, Except.toOption, Option.some.injEq, hq, decide_false,
          Bool.false_eq_true, if_false]
        rw [Folder.get?_make_of_ne (Ne.symm hq)]
        exact hfiled q

/-! ## Walking through a file -/

variable (inc) in
/-- **Each page is filed,** and none of them is put where the source lies. -/
theorem filed_lines (hbatch : m.batching = true) (hm : m.Answers answer) (ls : List (List Char))
    {w : Walk ρ} (hw : InBatch F p c w) (hinc : includesNone w.inBlock ls = true)
    (hplaces : ∀ g ∈ (pages (answer w.desk.file) w.spot ls).2,
      g.target = "" ∨ ∃ q, F.place g.target = .ok q ∧ q ≠ p) :
    (∀ n, InBatch F p c (w.lines m inc (ls.take n))) ∧
    ∀ q, (w.lines m inc ls).desk.filed "" q
      = (F.pageAt? (pages (answer w.desk.file) w.spot ls).2 q).or
          (w.desk.filed (pages (answer w.desk.file) w.spot ls).1 q) := by
  induction ls generalizing w with
  | nil => exact ⟨fun n => by rw [List.take_nil]; exact hw, fun q => rfl⟩
  | cons l ls ih =>
    obtain ⟨hl, hls⟩ := Bool.and_eq_true_iff.1 hinc
    have hincluded : w.included? l = none := Option.isNone_iff_eq_none.1 hl
    let heard := hear (answer w.desk.file) (w.spot.tokens l) w.reader
    let next : Spot ρ := ⟨heard.1, w.desk.line + 1, SourceLine.opensBlock w.inBlock l⟩
    let rest := pages (answer w.desk.file) next ls
    let v := w.takeLine m inc l
    have hlines : ∀ ls, w.lines m inc (l :: ls) = v.lines m inc ls := fun ls => by
      rw [lines_cons, hw.goes]
      rfl
    -- Once the line is dealt with, the induction takes care of the others.
    have hrest : InBatch F p c v → v.spot = next → v.desk.file = w.desk.file →
        (∀ g ∈ rest.2, g.target = "" ∨ ∃ q, F.place g.target = .ok q ∧ q ≠ p) →
        (∀ n, InBatch F p c (w.lines m inc ((l :: ls).take n))) ∧
        ∀ q, (w.lines m inc (l :: ls)).desk.filed "" q
          = (F.pageAt? rest.2 q).or (v.desk.filed rest.1 q) := by
      intro hv hspot hfile hplaces
      have hblock : v.inBlock = SourceLine.opensBlock w.inBlock l := congrArg Spot.inBlock hspot
      have hih := ih hv (hblock ▸ hls)
      rw [hspot, hfile] at hih
      obtain ⟨hbatches, hfiled⟩ := hih hplaces
      refine ⟨fun n => ?_, fun q => by rw [hlines]; exact hfiled q⟩
      cases n with
      | zero => exact hw
      | succ n =>
        rw [List.take_succ_cons, hlines]
        exact hbatches n
    cases hpage : w.spot.page? l with
    | none =>
      have heq : pages (answer w.desk.file) w.spot (l :: ls)
          = (w.spot.text l ++ heard.2 ++ rest.1, rest.2) := by
        rw [pages, hpage]
        rfl
      rw [heq] at hplaces ⊢
      have hwrote : Wrote (w.spot.text l ++ heard.2) next w v := wrote_takeLine hm hincluded hpage
      obtain ⟨hbatches, hfiled⟩ := hrest (hwrote.inBatch hw) hwrote.spot hwrote.file hplaces
      refine ⟨hbatches, fun q => ?_⟩
      rw [hfiled, hwrote.filed]
    | some g =>
      have heq : pages (answer w.desk.file) w.spot (l :: ls)
          = (w.spot.text l, ⟨g.target, g.text ++ heard.2 ++ rest.1⟩ :: rest.2) := by
        rw [pages, hpage]
        rfl
      rw [heq] at hplaces ⊢
      obtain ⟨htarget, hplaces⟩ := List.forall_mem_cons.1 hplaces
      obtain ⟨htext, hturn⟩ := turns_takeLine inc hm hpage
      have hindent : Wrote (w.spot.text l) w.spot w (w.indented l) := htext ▸ wrote_matlab _ w
      obtain ⟨hdirect, hturned⟩ := (hindent.inBatch hw).direct hbatch htarget
      have hwrote := hturn hdirect.goes
      have hfile : v.desk.file = w.desk.file := hwrote.file.trans (file_direct g.target _)
      obtain ⟨hbatches, hfiled⟩ := hrest (hwrote.inBatch hdirect) hwrote.spot hfile hplaces
      refine ⟨hbatches, fun q => ?_⟩
      rw [hfiled, hwrote.filed, hturned, hindent.filed, Folder.pageAt?_cons, String.append_empty,
        Option.or_assoc]
      by_cases hq : (F.place g.target).toOption = some q
      · rw [if_pos hq, if_pos hq]
        rfl
      · rw [if_neg hq, if_neg hq]
        rfl

/-- The source is read as it was found. -/
theorem InBatch.bytesFrom (h : InBatch F p c w) (hc : c ≠ some (some p)) {bytes : ByteArray}
    (hbytes : F.get? p = some bytes) : w.desk.current.bytesFrom p 0 = bytes := by
  have hwritten : p ∉ w.desk.written := by
    intro hp
    obtain ⟨o, ho, hfile⟩ := List.mem_filterMap.1 hp
    rcases List.mem_append.1 ho with ho | ho
    · exact (h.matlab o (by simpa using ho) p hfile).1 rfl
    · refine hc (h.c.symm.trans ?_)
      rw [Option.mem_toList.1 ho]
      exact congrArg some hfile
  rw [Desk.bytesFrom_current hwritten, Folder.bytesFrom, h.source, hbytes]
  exact ByteArray.extract_zero_size

/-- **Where the MATLAB output of a batch goes.** Let a walk go through a source that includes nothing,
with tokens for a reader that adds MATLAB text at most. Let all files that the source names be such that
they can be made, and neither them nor an output that is open be the source. Then the walk goes to the
end of the source, and a file that is not the C output holds the last page for it, or else what it held
before, or what was in the MATLAB output with the text before the first page.

The files are those that the lines are to name, but for `@` lines with white space in the midst of what
follows the mark: there it is all taken for the name. -/
theorem pages_filed (hbatch : m.batching = true) (hm : m.Answers answer) {name : String}
    {bytes : ByteArray} (hhalt : w.halt = none) (hfind : w.desk.current.find name = .ok p)
    (hbytes : w.desk.folder.get? p = some bytes)
    (hinc : includesNone false (Text.read bytes).1 = true)
    (hplaces : ∀ g ∈ (pages (answer name) ⟨w.reader, 1, false⟩ (Text.read bytes).1).2,
      g.target = "" ∨ ∃ q, w.desk.folder.place g.target = .ok q ∧ q ≠ p)
    (hmatlab : ∀ o ∈ w.desk.matlab, ∀ q, o.file = some q →
      q ≠ p ∧ w.desk.folder.get? q = some ByteArray.empty)
    (hc : w.desk.c.map (·.file) ≠ some (some p)) :
    (w.file m name).halt = (if (Text.read bytes).2 then none else some (.fault .notText)) ∧
    (∀ q, w.desk.c.map (·.file) ≠ some (some q) → (w.file m name).desk.closeOutputs.folder.get? q
      = (w.desk.folder.pageAt? (pages (answer name) ⟨w.reader, 1, false⟩ (Text.read bytes).1).2 q).or
          (w.desk.filed (pages (answer name) ⟨w.reader, 1, false⟩ (Text.read bytes).1).1 q)) ∧
    ∀ l, SourceLine.target? l = SourceLine.prescribed? l ↔
      ∀ target, SourceLine.classify (SourceLine.indent l).2 = .redirect target →
        ∀ c ∈ target, Text.isBlank c = false := by
  let F := w.desk.folder
  let start : Walk ρ := { w.onDesk (.moveTo name 1) with inBlock := false }
  let ls := (Text.read bytes).1
  have hstart : InBatch F p (w.desk.c.map (·.file)) start :=
    ⟨hhalt, rfl, fun _ => rfl, rfl, hmatlab, rfl⟩
  obtain ⟨hbatches, hfiled⟩ := filed_lines (included m maxDepth) hbatch hm ls hstart hinc
    hplaces
  have hend : InBatch F p (w.desk.c.map (·.file)) (start.lines m (included m maxDepth) ls) := by
    have hall := hbatches ls.length
    rwa [List.take_length] at hall
  -- The source stays as it is, so it is read as it was found.
  have hwalk : w.file m name
      = if (Text.read bytes).2 then start.lines m (included m maxDepth) ls
        else (start.lines m (included m maxDepth) ls).fail .notText := by
    unfold Walk.file
    rw [hfind]
    have hread := content_eq (w := start) hhalt fun n _ => (hbatches n).bytesFrom hc hbytes
    exact hread.trans (andThen_of_goes hend.goes)
  have hclosed : ∀ q, w.desk.c.map (·.file) ≠ some (some q) →
      (start.lines m (included m maxDepth) ls).desk.closeOutputs.folder.get? q
        = (start.lines m (included m maxDepth) ls).desk.filed "" q := by
    intro q hq
    obtain ⟨os, hos, hfolder⟩ := Command.exists_closing_desk (start.lines m (included m maxDepth) ls).desk
    rw [hfolder, Command.get?_closing_of_ne hos]
    · exact hend.closeMatlab.2 q
    · intro o ho hfile
      refine hq (hend.c.symm.trans ?_)
      rw [Option.mem_def.1 ho]
      exact congrArg some hfile
  refine ⟨?_, fun q hq => ?_, fun l => SourceLine.target_eq_prescribed_iff⟩
  · rw [hwalk]
    split
    · exact hend.goes
    · rfl
  · have hdesk : (w.file m name).desk = (start.lines m (included m maxDepth) ls).desk := by
      rw [hwalk]
      split <;> rfl
    rw [hdesk, hclosed q hq]
    exact hfiled q

/-- The ledger answers a token with MATLAB code. -/
def ledgerAnswer (mex file : String) (t : Token) (l : Ledger) : Ledger × String :=
  ((l.feed mex file t).1, (l.feed mex file t).2.matlab)

theorem answers_walkMode (mex : String) (batching listing : Bool) :
    (Command.walkMode mex batching listing).Answers (ledgerAnswer mex) := fun t l d =>
  ⟨(l.feed mex d.file t).2.notices, rfl⟩

/-- A desk with one file in its folder. -/
def sourceDesk (text : String) : Desk := { folder := { files := [(["a.mw"], text.toUTF8)] } }

/-- Two pages for one file, one for a function with a call, one for none, and a name in a block of C. -/
def pagedText : String := "@ b.m\nx\n@function y = g(x)\n# f();\n$[\n@ c.m\n$]\n@\nz\n  @ b.m\ny\n"

theorem pages_filed_pagedText :
    let w : Walk Ledger := { desk := sourceDesk pagedText, reader := {} }
    let last := w.file (Command.walkMode "m" true false) "a.mw"
    last.halt = none ∧
    last.desk.closeOutputs.folder.get? ["b.m"] = some "y\n".toUTF8 ∧
    last.desk.closeOutputs.folder.get? ["g.m"]
      = some "function y = g(x)\nmex_id_ = 1;\nm(mex_id_);\n".toUTF8 ∧
    last.desk.closeOutputs.folder.get? ["c.m"] = none := by
  intro w
  let gs := (pages (ledgerAnswer "m" "a.mw") ⟨w.reader, 1, false⟩ (Text.read pagedText.toUTF8).1).2
  have htargets : gs.map (·.target) = ["b.m", "g.m", "", "b.m"] := by decide +kernel
  have hplaces : ∀ g ∈ gs,
      g.target = "" ∨ ∃ q, w.desk.folder.place g.target = .ok q ∧ q ≠ ["a.mw"] := by
    intro g hg
    have hmem : g.target ∈ ["b.m", "g.m", "", "b.m"] := htargets ▸ List.mem_map_of_mem hg
    simp only [List.mem_cons, List.not_mem_nil, or_false] at hmem
    rcases hmem with hb | hg | hnone | hb
    · exact Or.inr ⟨["b.m"], by rw [hb]; decide +kernel, by decide⟩
    · exact Or.inr ⟨["g.m"], by rw [hg]; decide +kernel, by decide⟩
    · exact Or.inl hnone
    · exact Or.inr ⟨["b.m"], by rw [hb]; decide +kernel, by decide⟩
  obtain ⟨hhalt, hfiled, -⟩ := pages_filed (m := Command.walkMode "m" true false) (w := w) rfl
    (answers_walkMode "m" true false) rfl
    (show w.desk.current.find "a.mw" = .ok ["a.mw"] by decide +kernel)
    (show w.desk.folder.get? ["a.mw"] = some pagedText.toUTF8 by decide +kernel)
    (by decide +kernel) hplaces nofun nofun
  refine ⟨hhalt.trans (by decide +kernel), (hfiled ["b.m"] nofun).trans ?_,
    (hfiled ["g.m"] nofun).trans ?_, (hfiled ["c.m"] nofun).trans ?_⟩
  · decide +kernel
  · decide +kernel
  · decide +kernel

/-- **A second word on an `@` line becomes a part of the name.** The line is to name the file `b.m`. -/
theorem redirect_takes_all_words :
    let w : Walk (List Token) := { desk := sourceDesk "@ b.m ---\nx\n", reader := [] }
    let folder := (w.file { collector false with batching := true } "a.mw").desk.closeOutputs.folder
    SourceLine.prescribed? "@ b.m ---\n".toList = some "b.m".toList ∧
    folder.get? ["b.m"] = none ∧ folder.get? ["b.m ---"] = some "x\n".toUTF8 := by
  decide +kernel

end Walk

end MexBridge
