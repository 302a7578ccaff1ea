import MexBridge.Proofs.Text.Lines
import MexBridge.Source.Walk

/-!
# The stops of a walk

A walk stops at line after line. A stop is known by the file its line is read from and by the place
of the line there, counted from 1 (`Walk.stops`); neither is taken from what the desk keeps of them.
The reader is given just the tokens of the stops, and each has the number of its line less the number
of files included before it in the same file, since a line that includes a file is not counted
(`gave_file`).
-/

namespace MexBridge

/-- Taking a token does not move the desk. -/
structure WalkMode.Stays {ρ : Type} (m : WalkMode ρ) : Prop where
  file : ∀ t r d, (m.feed t r d).2.file = d.file
  line : ∀ t r d, (m.feed t r d).2.line = d.line

/-- A notice with which a walk ends. -/
def Notice.endsWalk : Notice → Bool
  | .cannotInclude _ => true
  | .cannotWrite _ => true
  | .tooDeep => true
  | _ => false

/-- A line that a walk has taken. -/
structure Stop where
  /-- The file it is read from. -/
  file : String
  /-- Its place among the lines of the file, from 1 on. -/
  number : Nat
  /-- How many lines before it in the file included another one. -/
  includes : Nat
  /-- Inside a block of C. -/
  inBlock : Bool
  line : List Char
deriving DecidableEq, Repr

namespace Stop

/-- The number that the tokens of the line have. -/
def shown (s : Stop) : Int := s.number - s.includes

/-- The tokens of the line: those of a declaration, and else one for the whole line, unless it stands
in a block of C or opens one. -/
def tokens (s : Stop) : List Token :=
  if s.inBlock then []
  else match SourceLine.classify (SourceLine.indent s.line).2 with
    | .declaration body => Token.tokens s.shown body
    | .include _ => []
    | .opener => []
    | _ => [.otherLine s.shown]

/-- The tokens with the file they stand in. -/
def entries (s : Stop) : List (String × Token) := s.tokens.map (s.file, ·)

end Stop

namespace Walk

variable {ρ : Type} {m : WalkMode ρ} {inc : String → Walk ρ → Walk ρ}

/-! ## What a reader is given -/

/-- From one reader to another by these tokens, each given while the desk was at the file beside
it. What is reported meanwhile comes from taking them. -/
inductive Fed (m : WalkMode ρ) : ρ → List Notice → List (String × Token) → ρ → List Notice → Prop
  | nil (r : ρ) (ns : List Notice) : Fed m r ns [] r ns
  | cons {r r' : ρ} {ns' : List Notice} {es : List (String × Token)} (d : Desk) (t : Token)
      (h : Fed m (m.feed t r d).1 (m.feed t r d).2.notices es r' ns') :
      Fed m r d.notices ((d.file, t) :: es) r' ns'

theorem Fed.append {r r' r'' : ρ} {ns ns' ns'' : List Notice} {es es' : List (String × Token)}
    (h : Fed m r ns es r' ns') (h' : Fed m r' ns' es' r'' ns'') : Fed m r ns (es ++ es') r'' ns'' := by
  induction h with
  | nil r ns => exact h'
  | cons d t _ ih => exact .cons d t (ih h')

/-- All that was reported, but for a last notice with which the walk has ended. -/
def Reported (ns : List Notice) (w : Walk ρ) : Prop :=
  w.desk.notices = ns ∨
    w.halt.isSome = true ∧ ∃ n : Notice, n.endsWalk = true ∧ w.desk.notices = ns ++ [n]

/-- From one walk to another by these tokens. -/
def Gave (m : WalkMode ρ) (es : List (String × Token)) (w w' : Walk ρ) : Prop :=
  ∃ ns, Fed m w.reader w.desk.notices es w'.reader ns ∧ w'.Reported ns

theorem Gave.append {es es' : List (String × Token)} {w w' w'' : Walk ρ} (h : Gave m es w w')
    (hhalt : w'.halt = none) (h' : Gave m es' w' w'') : Gave m (es ++ es') w w'' := by
  obtain ⟨ns, hfed, hns⟩ := h
  obtain ⟨ns', hfed', hns'⟩ := h'
  rcases hns with rfl | ⟨hend, -⟩
  · exact ⟨ns', hfed.append hfed', hns'⟩
  · rw [hhalt] at hend
    cases hend

theorem gave_stop {n : Notice} (hn : n.endsWalk = true) (w : Walk ρ) : Gave m [] w (w.stop n) :=
  ⟨w.desk.notices, .nil _ _, Or.inr ⟨rfl, n, hn, rfl⟩⟩

theorem gave_fail (f : Fault) (w : Walk ρ) : Gave m [] w (w.fail f) := ⟨_, .nil _ _, Or.inl rfl⟩

/-- The same reader at the same place. -/
structure Beside (w v : Walk ρ) : Prop where
  reader : v.reader = w.reader
  notices : v.desk.notices = w.desk.notices
  file : v.desk.file = w.desk.file
  line : v.desk.line = w.desk.line

theorem Beside.refl (w : Walk ρ) : w.Beside w := ⟨rfl, rfl, rfl, rfl⟩

theorem Beside.trans {w v u : Walk ρ} (h : w.Beside v) (h' : v.Beside u) : w.Beside u :=
  ⟨h'.reader.trans h.reader, h'.notices.trans h.notices, h'.file.trans h.file, h'.line.trans h.line⟩

theorem Gave.before {es : List (String × Token)} {w v w' : Walk ρ} (hs : w.Beside v)
    (h : Gave m es v w') : Gave m es w w' := by
  obtain ⟨ns, hfed, hns⟩ := h
  rw [hs.reader, hs.notices] at hfed
  exact ⟨ns, hfed, hns⟩

/-- No token is given, and the walk is where it was or has ended. -/
structure Waited (m : WalkMode ρ) (w v : Walk ρ) : Prop where
  gave : Gave m [] w v
  beside : v.halt = none → w.Beside v

theorem Beside.waited {w v : Walk ρ} (h : w.Beside v) : Waited m w v :=
  ⟨⟨_, h.reader ▸ .nil _ _, Or.inl h.notices⟩, fun _ => h⟩

theorem Waited.before {w v u : Walk ρ} (h : w.Beside v) (h' : Waited m v u) : Waited m w u :=
  ⟨h'.gave.before h, fun hu => h.trans (h'.beside hu)⟩

/-- By the tokens of one line to the next one, unless the walk has ended. -/
structure Took (m : WalkMode ρ) (ts : List Token) (w w' : Walk ρ) : Prop where
  gave : Gave m (if w'.halt.isSome then [] else ts.map (w.desk.file, ·)) w w'
  moved : w'.halt = none → w'.desk.file = w.desk.file ∧ w'.desk.line = w.desk.line + 1

theorem Took.before {ts : List Token} {w v w' : Walk ρ} (hs : w.Beside v) (h : Took m ts v w') :
    Took m ts w w' := by
  obtain ⟨hgave, hmoved⟩ := h
  rw [hs.file] at hgave
  rw [hs.file, hs.line] at hmoved
  exact ⟨hgave.before hs, hmoved⟩

theorem andThen_of_goes {f : Walk ρ → Walk ρ} {w : Walk ρ} (h : w.halt = none) :
    w.andThen f = f w := by
  rw [andThen, h]
  rfl

theorem goes_of_andThen {f : Walk ρ → Walk ρ} {w : Walk ρ} (h : (w.andThen f).halt = none) :
    w.halt = none := by
  by_cases hend : w.halt.isSome = true
  · rwa [andThen, if_pos hend] at h
  · simpa using hend

/-- Going on after what may have ended the walk. -/
theorem Waited.andThen {f : Walk ρ → Walk ρ} {ts : List Token} {w v : Walk ρ} (h : Waited m w v)
    (hf : w.Beside v → v.halt = none → Took m ts w (f v)) : Took m ts w (v.andThen f) := by
  unfold Walk.andThen
  split
  · rename_i hend
    refine ⟨?_, fun hv => ?_⟩
    · rw [if_pos hend]
      exact h.gave
    · rw [hv] at hend
      cases hend
  · rename_i hend
    have hv : v.halt = none := by simpa using hend
    exact hf (h.beside hv) hv

/-! ## Lines -/

theorem took_passLine (hm : m.Stays) {w v : Walk ρ} (hs : w.Beside v) (hv : v.halt = none) :
    Took m [.otherLine w.desk.line] w (v.passLine m) := by
  rw [← hs.line]
  refine .before hs ⟨?_, fun _ => ⟨hm.file .., hm.line ..⟩⟩
  have hhalt : (v.passLine m).halt = none := hv
  rw [hhalt]
  exact ⟨_, .cons v.desk.nextLine _ (.nil _ _), Or.inl rfl⟩

theorem waited_openBatch (name : String) (w : Walk ρ) : Waited m w (w.openBatch name) := by
  unfold openBatch
  split
  · rename_i d hd
    unfold Desk.openMatlab at hd
    cases hc : w.desk.folder.create name with
    | error f => rw [hc] at hd; cases hd
    | ok fp => rw [hc] at hd; cases hd; exact Beside.waited ⟨rfl, rfl, rfl, rfl⟩
  · split
    · exact ⟨gave_stop rfl w, fun h => by cases h⟩
    · exact ⟨gave_fail _ w, fun h => by cases h⟩

theorem closeMatlab_beside (w : Walk ρ) : w.Beside (w.onDesk .closeMatlab) := ⟨rfl, rfl, rfl, rfl⟩

/-- The name of an output may be printed on the way. -/
theorem print_beside (b : Bool) (name : String) (w : Walk ρ) :
    w.Beside (if b then w.onDesk (.print name) else w) ∧
      (if b then w.onDesk (.print name) else w).halt = w.halt := by
  split <;> exact ⟨⟨rfl, rfl, rfl, rfl⟩, rfl⟩

theorem took_functionLine (hm : m.Stays) (tail : List Char) (w : Walk ρ) :
    Took m [.otherLine w.desk.line] w (w.functionLine m tail) := by
  let name := String.ofList (SourceLine.functionFile tail)
  let v := if m.batching then (w.onDesk .closeMatlab).openBatch name else w
  have hwaited : Waited m w v := by
    simp only [v]
    split
    · exact .before w.closeMatlab_beside (waited_openBatch _ _)
    · exact (Beside.refl w).waited
  unfold functionLine
  refine hwaited.andThen fun hs hv => ?_
  obtain ⟨hprint, hhalt⟩ := print_beside m.listing name v
  exact took_passLine hm ((hs.trans hprint).trans ⟨rfl, rfl, rfl, rfl⟩) (hhalt.trans hv)

theorem took_redirectLine (hm : m.Stays) (target : String) (w : Walk ρ) :
    Took m [.otherLine w.desk.line] w (w.redirectLine m target) := by
  let v := if m.batching then
    let w := w.onDesk .closeMatlab
    if target = "" then w else w.openBatch target
  else w
  have hwaited : Waited m w v := by
    simp only [v]
    split
    · split
      · exact w.closeMatlab_beside.waited
      · exact .before w.closeMatlab_beside (waited_openBatch _ _)
    · exact (Beside.refl w).waited
  unfold redirectLine
  refine hwaited.andThen fun hs hv => ?_
  obtain ⟨hprint, hhalt⟩ := print_beside (m.listing && target ≠ "") target v
  exact took_passLine hm (hs.trans hprint) (hhalt.trans hv)

/-- The tokens of a declaration are given one by one, all at its place. -/
theorem fed_feedAll (hm : m.Stays) (ts : List Token) (w : Walk ρ) :
    let w' := ts.foldl (fun w t => w.feed m t) w
    Fed m w.reader w.desk.notices (ts.map (w.desk.file, ·)) w'.reader w'.desk.notices ∧
      w'.desk.file = w.desk.file ∧ w'.desk.line = w.desk.line ∧ w'.halt = w.halt := by
  induction ts generalizing w with
  | nil => exact ⟨.nil _ _, rfl, rfl, rfl⟩
  | cons t ts ih =>
    have hfile : (w.feed m t).desk.file = w.desk.file := hm.file ..
    have hline : (w.feed m t).desk.line = w.desk.line := hm.line ..
    obtain ⟨hfed, hfile', hline', hhalt⟩ := ih (w.feed m t)
    rw [hfile] at hfed
    exact ⟨.cons w.desk t hfed, hfile'.trans hfile, hline'.trans hline, hhalt⟩

theorem took_declarationLine (hm : m.Stays) (body : List Char) {w : Walk ρ} (h : w.halt = none) :
    Took m (Token.tokens w.desk.line body) w (w.declarationLine m body) := by
  obtain ⟨hfed, hfile, hline, hhalt⟩ := fed_feedAll hm (Token.tokens w.desk.line body) w
  have hhalt' : (w.declarationLine m body).halt = none := hhalt.trans h
  refine ⟨?_, fun _ => ⟨hfile, congrArg (· + 1) hline⟩⟩
  rw [hhalt']
  exact ⟨_, hfed, Or.inl rfl⟩

theorem took_blockLine (line : List Char) {w : Walk ρ} (h : w.halt = none) :
    Took m [] w (w.blockLine line) := by
  unfold blockLine
  dsimp only
  split
  all_goals
    refine ⟨?_, fun _ => ⟨rfl, rfl⟩⟩
    simp only [onDesk, h]
    exact ⟨_, .nil _ _, Or.inl rfl⟩

/-- What a walk does with a line. -/
def takeLine (m : WalkMode ρ) (inc : String → Walk ρ → Walk ρ) (l : List Char) (w : Walk ρ) :
    Walk ρ :=
  if w.inBlock then w.blockLine l else w.openLine m inc l

theorem lines_cons (l : List Char) (ls : List (List Char)) (w : Walk ρ) :
    w.lines m inc (l :: ls) = if w.halt.isSome then w else (w.takeLine m inc l).lines m inc ls :=
  rfl

theorem lines_of_halt {w : Walk ρ} (h : w.halt.isSome = true) (ls : List (List Char)) :
    w.lines m inc ls = w := by
  cases ls with
  | nil => rfl
  | cons l ls => rw [lines_cons, if_pos h]

theorem lines_append (ls ls' : List (List Char)) (w : Walk ρ) :
    w.lines m inc (ls ++ ls') = (w.lines m inc ls).lines m inc ls' := by
  induction ls generalizing w with
  | nil => rfl
  | cons l ls ih =>
    rw [List.cons_append, lines_cons, lines_cons]
    split
    · exact (lines_of_halt ‹_› ls').symm
    · exact ih _

/-- The file that a line outside blocks includes. -/
def included? (w : Walk ρ) (l : List Char) : Option String :=
  if w.inBlock then none
  else match SourceLine.classify (SourceLine.indent l).2 with
    | .include name => some (String.ofList name)
    | _ => none

/-- The walk with the indent of a line written, as an included file is come to. -/
def indented (l : List Char) (w : Walk ρ) : Walk ρ :=
  w.onDesk (.writeMatlab (String.ofList (SourceLine.indent l).1))

theorem takeLine_included {l : List Char} {name : String} {w : Walk ρ}
    (h : w.included? l = some name) : w.takeLine m inc l = inc name (w.indented l) := by
  unfold included? at h
  split at h
  · cases h
  · rw [takeLine, if_neg ‹_›, openLine]
    split at h
    · cases h
      simp only [*]
      rfl
    · cases h

/-- **A line that includes no file** gives its tokens, with the number the desk has come to. -/
theorem took_takeLine (hm : m.Stays) {s : Stop} {w : Walk ρ} (hhalt : w.halt = none)
    (hshown : s.shown = w.desk.line) (hblock : s.inBlock = w.inBlock)
    (h : w.included? s.line = none) : Took m s.tokens w (w.takeLine m inc s.line) := by
  unfold included? at h
  unfold takeLine Stop.tokens
  rw [hblock, hshown]
  split
  · exact took_blockLine _ hhalt
  · rw [if_neg ‹_›] at h
    have hmarked : w.Beside (w.indented s.line) := ⟨rfl, rfl, rfl, rfl⟩
    have hmarkedHalt : (w.indented s.line).halt = none := hhalt
    unfold openLine
    dsimp only
    cases hc : SourceLine.classify (SourceLine.indent s.line).2 with
    | text => exact took_passLine hm ⟨rfl, rfl, rfl, rfl⟩ hhalt
    | brokenOpener => exact took_passLine hm ⟨rfl, rfl, rfl, rfl⟩ hhalt
    | comment => exact took_passLine hm hmarked hmarkedHalt
    | function tail => exact .before hmarked (took_functionLine hm tail (w.indented s.line))
    | «include» name => rw [hc] at h; cases h
    | redirect target => exact .before hmarked (took_redirectLine hm _ (w.indented s.line))
    | code c => exact took_passLine hm ⟨rfl, rfl, rfl, rfl⟩ hhalt
    | opener =>
      refine ⟨?_, fun _ => ⟨rfl, rfl⟩⟩
      simp only [onDesk, hhalt]
      exact ⟨_, .nil _ _, Or.inl rfl⟩
    | declaration body => exact .before hmarked (took_declarationLine hm body hmarkedHalt)

/-! ## Files -/

/-- The lines that a walk is given of a file, from an offset on and after what is left unread. -/
def linesFrom (m : WalkMode ρ) (inc : String → Walk ρ → Walk ρ) (p : Folder.Path) :
    Nat → Nat → Unread → Walk ρ → List (List Char)
  | 0, _, _, _ => []
  | rounds + 1, offset, left, w =>
    let bytes := w.desk.current.bytesFrom p offset
    if bytes.isEmpty then
      if !left.cut.isEmpty then []
      else if left.text.isEmpty then []
      else
        let ls := [Text.unifyNewlines left.text]
        ls ++ linesFrom m inc p rounds offset {} (w.lines m inc ls)
    else
      match Text.decode (left.cut ++ bytes) with
      | none => []
      | some (text, cut) =>
        let (ls, rest) := Text.completeLines (left.text ++ text)
        ls ++ linesFrom m inc p rounds (offset + bytes.size) { text := rest, cut := cut }
          (w.lines m inc ls)

/-- The lines that a walk is given of a file. -/
def linesOf (m : WalkMode ρ) (inc : String → Walk ρ → Walk ρ) (p : Folder.Path) (w : Walk ρ) :
    List (List Char) :=
  w.linesFrom m inc p maxRounds 0 {}

/-- A walk through a file is a walk through the lines it is given, after which it may turn out that
the file holds no text. -/
theorem readOn_eq (m : WalkMode ρ) (inc : String → Walk ρ → Walk ρ) (p : Folder.Path)
    (rounds offset : Nat) (left : Unread) (w : Walk ρ) :
    let v := w.lines m inc (w.linesFrom m inc p rounds offset left)
    w.readOn m inc p rounds offset left = v ∨
      w.readOn m inc p rounds offset left = v.fail .notText := by
  induction rounds generalizing offset left w with
  | zero => exact Or.inl rfl
  | succ rounds ih =>
    have hnext : ∀ offset left ls,
        let u := w.lines m inc ls
        let v := w.lines m inc (ls ++ u.linesFrom m inc p rounds offset left)
        u.andThen (readOn m inc p rounds offset left) = v ∨
          u.andThen (readOn m inc p rounds offset left) = v.fail .notText := by
      intro offset left ls u v
      have hv : v = u.lines m inc (u.linesFrom m inc p rounds offset left) := lines_append ..
      rw [hv, andThen]
      split
      · exact Or.inl (lines_of_halt ‹_› _).symm
      · exact ih offset left u
    unfold readOn linesFrom
    dsimp only
    split
    · split
      · exact Or.inr rfl
      · split
        · exact Or.inl rfl
        · exact hnext _ _ _
    · cases Text.decode (left.cut ++ w.desk.current.bytesFrom p offset) with
      | none => exact Or.inr rfl
      | some read => exact hnext _ _ _

/-- Nothing comes after all that a file holds. -/
theorem bytesFrom_size {d : Folder} {p : Folder.Path} {bytes : ByteArray}
    (h : d.bytesFrom p 0 = bytes) : d.bytesFrom p bytes.size = ByteArray.empty := by
  subst h
  unfold Folder.bytesFrom
  cases d.get? p with
  | none => rfl
  | some content =>
    dsimp only
    rw [ByteArray.extract_eq_empty_iff]
    simp

/-- At the end of a file the last line is what was left of it. -/
theorem linesFrom_end {p : Folder.Path} {offset : Nat} {w : Walk ρ} {rest : List Char}
    (hend : w.desk.current.bytesFrom p offset = ByteArray.empty)
    (hlast : rest.isEmpty = false →
      (w.lines m inc [Text.unifyNewlines rest]).desk.current.bytesFrom p offset = ByteArray.empty)
    (rounds : Nat) :
    w.linesFrom m inc p (rounds + 2) offset { text := rest }
      = if rest.isEmpty then [] else [Text.unifyNewlines rest] := by
  rw [linesFrom, hend]
  change (if rest.isEmpty then [] else [Text.unifyNewlines rest] ++ _) = _
  cases hrest : rest.isEmpty with
  | true => rfl
  | false =>
    rw [linesFrom, hlast hrest]
    rfl

/-- **The lines that a walk is given of a file are those of its text,** unless the file changes while
they are walked through. -/
theorem linesOf_eq_splitLines {p : Folder.Path} {w : Walk ρ} {text : String}
    (h : ∀ n, (w.lines m inc ((Text.splitLines (Text.unifyNewlines text.toList)).take
      n)).desk.current.bytesFrom p 0 = text.toUTF8) :
    w.linesOf m inc p = Text.splitLines (Text.unifyNewlines text.toList) := by
  obtain ⟨ls, rest, hcomplete⟩ : ∃ ls rest, Text.completeLines text.toList = (ls, rest) :=
    ⟨_, _, rfl⟩
  have hlines := Text.completeLines_lines text.toList
  rw [hcomplete] at hlines
  dsimp only at hlines
  have hstart : w.desk.current.bytesFrom p 0 = text.toUTF8 := h 0
  have hcut : (w.lines m inc ls).desk.current.bytesFrom p text.toUTF8.size = ByteArray.empty := by
    have := h ls.length
    rw [← hlines, List.take_left] at this
    exact bytesFrom_size this
  have hlast : rest.isEmpty = false →
      ((w.lines m inc ls).lines m inc [Text.unifyNewlines rest]).desk.current.bytesFrom p
        text.toUTF8.size = ByteArray.empty := by
    intro hrest
    have := h (ls.length + 1)
    rw [← hlines, if_neg (by simp [hrest]), List.take_of_length_le (by simp), lines_append] at this
    exact bytesFrom_size this
  change w.linesFrom m inc p (1048573 + 3) 0 {} = _
  rw [linesFrom, hstart]
  by_cases hempty : text.toUTF8.isEmpty = true
  · have hsize : text.toUTF8.size = 0 := by simpa [ByteArray.isEmpty] using hempty
    rw [if_pos hempty, String.utf8ByteSize_eq_zero_iff.1 hsize]
    rfl
  · have hread : Text.decode (ByteArray.empty ++ text.toUTF8) = some (text.toList, ByteArray.empty) := by
      rw [ByteArray.empty_append, Text.decode_toUTF8]
    rw [if_neg hempty, hread]
    dsimp only
    rw [List.nil_append, hcomplete, Nat.zero_add]
    dsimp only
    rw [linesFrom_end hcut hlast, hlines]

/-- The stops at lines of a file, of which the first has the given number, after so many inclusions.
`inside` gives the stops in an included file. -/
def stopsOn (m : WalkMode ρ) (inc : String → Walk ρ → Walk ρ)
    (inside : String → Walk ρ → List Stop) (file : String) :
    Nat → Nat → List (List Char) → Walk ρ → List Stop
  | _, _, [], _ => []
  | number, includes, l :: ls, w =>
    if w.halt.isSome then []
    else
      let w' := w.takeLine m inc l
      match w.included? l with
      | some name =>
        inside name (w.indented l) ++ stopsOn m inc inside file (number + 1) (includes + 1) ls w'
      | none =>
        -- The walk may end at this line before its token is given.
        if w'.halt.isSome then []
        else
          { file := file, number := number, includes := includes, inBlock := w.inBlock, line := l }
            :: stopsOn m inc inside file (number + 1) includes ls w'

/-- The stops in an included file, with `room` for so many files inside each other. -/
def stopsInside (m : WalkMode ρ) : Nat → String → Walk ρ → List Stop
  | 0, _, _ => []
  | room + 1, name, w =>
    match w.desk.current.find name with
    | .error _ => []
    | .ok p =>
      let v := w.onDesk (.moveTo name 1)
      v.stopsOn m (included m room) (stopsInside m room) name 1 0 (v.linesOf m (included m room) p)

/-- The stops of a walk through a file. -/
def stops (m : WalkMode ρ) (name : String) (w : Walk ρ) : List Stop :=
  match w.desk.current.find name with
  | .error _ => []
  | .ok p =>
    let v := { w.onDesk (.moveTo name 1) with inBlock := false }
    v.stopsOn m (included m maxDepth) (stopsInside m maxDepth) name 1 0
      (v.linesOf m (included m maxDepth) p)

theorem stopsOn_of_halt {inside : String → Walk ρ → List Stop} {w : Walk ρ}
    (h : w.halt.isSome = true) (file : String) (number includes : Nat) (ls : List (List Char)) :
    w.stopsOn m inc inside file number includes ls = [] := by
  cases ls with
  | nil => rfl
  | cons l ls => rw [stopsOn, if_pos h]

/-- By the tokens of these stops, and back to the same place, unless the walk has ended. -/
structure Visited (m : WalkMode ρ) (ss : List Stop) (w w' : Walk ρ) : Prop where
  gave : Gave m (ss.flatMap Stop.entries) w w'
  back : w'.halt = none → w'.desk.file = w.desk.file ∧ w'.desk.line = w.desk.line

theorem gave_nil_self (w : Walk ρ) : Gave m [] w w := ⟨_, .nil _ _, Or.inl rfl⟩

/-- **A walk through lines gives the tokens of its stops.** The desk's count of lines is behind by
the lines that included a file. -/
theorem gave_lines (hm : m.Stays) {inside : String → Walk ρ → List Stop}
    (hinc : ∀ name w, Visited m (inside name w) w (inc name w)) (ls : List (List Char))
    (number includes : Nat) {w : Walk ρ} (hline : w.desk.line = number - includes) :
    Gave m ((w.stopsOn m inc inside w.desk.file number includes ls).flatMap Stop.entries) w
        (w.lines m inc ls) ∧
      ((w.lines m inc ls).halt = none → (w.lines m inc ls).desk.file = w.desk.file) := by
  induction ls generalizing number includes w with
  | nil => exact ⟨gave_nil_self w, fun _ => rfl⟩
  | cons l ls ih =>
    rw [lines_cons, stopsOn]
    by_cases hhalt : w.halt.isSome = true
    · rw [if_pos hhalt, if_pos hhalt]
      exact ⟨gave_nil_self w, fun _ => rfl⟩
    rw [if_neg hhalt, if_neg hhalt]
    generalize hw' : w.takeLine m inc l = w'
    -- After the line the walk has ended, or the lines that are left are walked through.
    have hrest : ∀ es number' includes', Gave m es w w' →
        (w'.halt = none → w'.desk.file = w.desk.file ∧
          w'.desk.line = (number' : Nat) - (includes' : Nat)) →
        Gave m (es ++ (w'.stopsOn m inc inside w.desk.file number' includes' ls).flatMap
          Stop.entries) w (w'.lines m inc ls) ∧
          ((w'.lines m inc ls).halt = none → (w'.lines m inc ls).desk.file = w.desk.file) := by
      intro es number' includes' hes hplace
      by_cases hend : w'.halt.isSome = true
      · rw [stopsOn_of_halt hend, lines_of_halt hend]
        refine ⟨by simpa using hes, fun h => ?_⟩
        rw [h] at hend
        cases hend
      · have hgoes : w'.halt = none := by simpa using hend
        obtain ⟨hfile', hline'⟩ := hplace hgoes
        have hih := ih _ _ hline'
        rw [hfile'] at hih
        exact ⟨hes.append hgoes hih.1, hih.2⟩
    cases hname : w.included? l with
    | some name =>
      have htake : w' = inc name (w.indented l) := hw'.symm.trans (takeLine_included hname)
      obtain ⟨hgave, hback⟩ := hinc name (w.indented l)
      rw [← htake] at hgave hback
      rw [List.flatMap_append]
      refine hrest _ _ _ (.before ⟨rfl, rfl, rfl, rfl⟩ hgave) fun h => ?_
      obtain ⟨hfile', hline'⟩ := hback h
      refine ⟨hfile', hline'.trans ?_⟩
      have : (w.indented l).desk.line = w.desk.line := rfl
      push_cast
      omega
    | none =>
      let s : Stop :=
        { file := w.desk.file, number := number, includes := includes, inBlock := w.inBlock, line := l }
      have htook : Took m s.tokens w (w.takeLine m inc l) :=
        took_takeLine hm (by simpa using hhalt) hline.symm rfl hname
      rw [hw'] at htook
      obtain ⟨hgave, hmoved⟩ := htook
      dsimp only
      split
      · rename_i hend
        rw [if_pos hend] at hgave
        have := hrest [] 0 0 hgave (fun h => by rw [h] at hend; cases hend)
        rwa [stopsOn_of_halt hend] at this
      · rename_i hend
        rw [if_neg hend] at hgave
        refine hrest _ _ _ hgave fun h => ?_
        obtain ⟨hfile', hline'⟩ := hmoved h
        refine ⟨hfile', hline'.trans ?_⟩
        push_cast
        omega

theorem gave_content (hm : m.Stays) {inside : String → Walk ρ → List Stop}
    (hinc : ∀ name w, Visited m (inside name w) w (inc name w)) (p : Folder.Path) {w : Walk ρ}
    (hline : w.desk.line = 1) :
    Gave m ((w.stopsOn m inc inside w.desk.file 1 0 (w.linesOf m inc p)).flatMap Stop.entries) w
        (w.content m inc p) ∧
      ((w.content m inc p).halt = none → (w.content m inc p).desk.file = w.desk.file) := by
  obtain ⟨hgave, hfile⟩ := gave_lines hm hinc (w.linesOf m inc p) 1 0 hline
  rcases readOn_eq m inc p maxRounds 0 {} w with h | h
  · rw [content, h]
    exact ⟨hgave, hfile⟩
  · rw [content, h]
    refine ⟨?_, fun hhalt => by cases hhalt⟩
    obtain ⟨ns, hfed, hns⟩ := hgave
    refine ⟨ns, hfed, ?_⟩
    rcases hns with hns | ⟨-, hns⟩
    · exact Or.inl hns
    · exact Or.inr ⟨rfl, hns⟩

theorem visited_included (hm : m.Stays) (room : Nat) (name : String) (w : Walk ρ) :
    Visited m (stopsInside m room name w) w (included m room name w) := by
  induction room generalizing name w with
  | zero => exact ⟨gave_stop rfl w, fun h => by cases h⟩
  | succ room ih =>
    unfold stopsInside Walk.included
    cases w.desk.current.find name with
    | error f =>
      dsimp only
      split
      · exact ⟨gave_stop rfl w, fun h => by cases h⟩
      · exact ⟨gave_fail f w, fun h => by cases h⟩
    | ok p =>
      obtain ⟨hgave, -⟩ := gave_content hm ih p (w := w.onDesk (.moveTo name 1)) rfl
      dsimp only
      unfold andThen
      split
      · rename_i hend
        refine ⟨hgave, fun h => ?_⟩
        rw [h] at hend
        cases hend
      · rename_i hend
        refine ⟨?_, fun _ => ⟨rfl, rfl⟩⟩
        obtain ⟨ns, hfed, hns⟩ := hgave
        refine ⟨ns, hfed, ?_⟩
        rcases hns with hns | ⟨hns, -⟩
        · exact Or.inl hns
        · exact absurd hns hend

/-- **A walk through a file gives the tokens of its stops,** and ends in the file. -/
theorem gave_file (hm : m.Stays) (name : String) (w : Walk ρ) :
    Gave m ((w.stops m name).flatMap Stop.entries) w (w.file m name) ∧
      ((w.file m name).halt = none → (w.file m name).desk.file = name) := by
  unfold stops file
  cases w.desk.current.find name with
  | error f => exact ⟨gave_fail f w, fun h => by cases h⟩
  | ok p =>
    exact gave_content hm (visited_included hm maxDepth) p
      (w := { w.onDesk (.moveTo name 1) with inBlock := false }) rfl

end Walk

end MexBridge
