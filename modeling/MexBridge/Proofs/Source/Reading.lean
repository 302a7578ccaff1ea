import Mathlib.Logic.Relation
import MexBridge.Proofs.Source.Stops

/-!
# Reading with a stack of files

A walk through a file that includes others can be taken line by line, with the files that wait for an
included one on a stack (`Reading.step`). A file is opened with all that it holds at the time; as long
as no file changes while it is open, the steps lead to where the walk ends (`runs_file`). They always
come to an end, since at most so many files wait, and each has finitely many lines (`passes`).
-/

namespace MexBridge

/-- The lines that bytes are read as, and whether they are a text to their end. -/
def Text.read (bytes : ByteArray) : List (List Char) × Bool :=
  match decode bytes with
  | none => ([], false)
  | some (text, cut) =>
    if cut.isEmpty then (splitLines (unifyNewlines text), true) else ((completeLines text).1, false)

/-- A file that is open. -/
structure OpenFile where
  path : Folder.Path
  /-- What it held when it was opened. -/
  held : ByteArray
  /-- The lines not read yet. -/
  unread : List (List Char)

namespace OpenFile

def ofBytes (p : Folder.Path) (bytes : ByteArray) : OpenFile :=
  { path := p, held := bytes, unread := (Text.read bytes).1 }

/-- Whether it is a text to its end. -/
def isText (f : OpenFile) : Bool := (Text.read f.held).2

end OpenFile

/-- A file that waits until the one it includes is read, with the place where it was left. -/
structure WaitingFile where
  source : OpenFile
  file : String
  line : Int

/-- A walk with the file it reads and those that wait, the last one left on top. -/
structure Reading (ρ : Type) where
  walk : Walk ρ
  source : OpenFile
  stack : List WaitingFile

namespace Reading

variable {ρ : Type} {m : WalkMode ρ}

/-- All files that are open. -/
def opened (s : Reading ρ) : List OpenFile := s.source :: s.stack.map (·.source)

/-- The start of a file. -/
def start (name : String) (p : Folder.Path) (w : Walk ρ) : Reading ρ where
  walk := { w.onDesk (.moveTo name 1) with inBlock := false }
  source := .ofBytes p (w.desk.current.bytesFrom p 0)
  stack := []

/-- Turns to a file, while the one that includes it waits. -/
def enter (name : String) (s : Reading ρ) : Reading ρ :=
  if Walk.maxDepth ≤ s.stack.length then { s with walk := s.walk.stop .tooDeep }
  else
    let stack :=
      { source := s.source, file := s.walk.desk.file, line := s.walk.desk.line } :: s.stack
    match s.walk.desk.current.find name with
    | .error f =>
      { s with
        walk := if f.ofFile then s.walk.stop (.cannotInclude name) else s.walk.fail f
        stack := stack }
    | .ok p =>
      { walk := s.walk.onDesk (.moveTo name 1)
        source := .ofBytes p (s.walk.desk.current.bytesFrom p 0)
        stack := stack }

/-- One line is taken, or the end of a file is noticed. There is no step at the end of it all. -/
def step (m : WalkMode ρ) (s : Reading ρ) : Option (Reading ρ) :=
  if s.walk.halt.isSome then none
  else match s.source.unread with
    | [] =>
      if !s.source.isText then some { s with walk := s.walk.fail .notText }
      else match s.stack with
        | [] => none
        | f :: fs =>
          some { walk := s.walk.onDesk (.moveTo f.file f.line), source := f.source, stack := fs }
    | l :: ls =>
      let source := { s.source with unread := ls }
      match s.walk.included? l with
      | some name => some ({ s with walk := s.walk.indented l, source := source }.enter name)
      | none =>
        some { s with walk := s.walk.takeLine m (fun _ w => w) l, source := source }

/-- Steps one after the other. -/
abbrev Runs (m : WalkMode ρ) : Reading ρ → Reading ρ → Prop :=
  Relation.ReflTransGen fun s s' => s.step m = some s'

/-- No file has changed since it was opened. -/
def Steady (s : Reading ρ) : Prop :=
  ∀ f ∈ s.opened, s.walk.desk.current.bytesFrom f.path 0 = f.held

end Reading

namespace Walk

variable {ρ : Type} {m : WalkMode ρ} {inc : String → Walk ρ → Walk ρ}

/-- How files are included does not matter to a line that includes none. -/
theorem takeLine_congr (inc inc' : String → Walk ρ → Walk ρ) {l : List Char} {w : Walk ρ}
    (h : w.included? l = none) : w.takeLine m inc l = w.takeLine m inc' l := by
  unfold takeLine
  split
  · rfl
  · rw [included?, if_neg ‹_›] at h
    unfold openLine
    dsimp only
    split <;> simp_all

/-! ## Files that do not change -/

/-- At the end of a file the line that was left is taken. -/
theorem readOn_end {p : Folder.Path} {offset : Nat} {w : Walk ρ} {rest : List Char}
    (hend : w.desk.current.bytesFrom p offset = ByteArray.empty)
    (hlast : rest.isEmpty = false → (w.lines m inc [Text.unifyNewlines rest]).halt = none →
      (w.lines m inc [Text.unifyNewlines rest]).desk.current.bytesFrom p offset = ByteArray.empty)
    (rounds : Nat) :
    w.readOn m inc p (rounds + 2) offset { text := rest }
      = w.lines m inc (if rest.isEmpty then [] else [Text.unifyNewlines rest]) := by
  rw [readOn, hend]
  change (if rest.isEmpty then w else _) = _
  cases hrest : rest.isEmpty with
  | true => rfl
  | false =>
    change (w.lines m inc [Text.unifyNewlines rest]).andThen _ = w.lines m inc [_]
    unfold andThen
    split
    · rfl
    · rename_i hgoes
      rw [readOn, hlast hrest (by simpa using hgoes)]
      rfl

theorem andThen_self (w : Walk ρ) : (w.andThen fun v => if true = true then v else v.fail .notText) = w := by
  unfold andThen
  split <;> rfl

theorem andThen_congr {f g : Walk ρ → Walk ρ} {w : Walk ρ} (h : w.halt = none → f w = g w) :
    w.andThen f = w.andThen g := by
  unfold andThen
  split
  · rfl
  · rename_i hgoes
    exact h (by simpa using hgoes)

/-- What comes after lines, unless they end the walk. -/
theorem andThen_lines {f : Walk ρ → Walk ρ} {ls ls' : List (List Char)} {w : Walk ρ}
    (h : (w.lines m inc ls).halt = none → f (w.lines m inc ls) = w.lines m inc (ls ++ ls')) :
    (w.lines m inc ls).andThen f = w.lines m inc (ls ++ ls') := by
  by_cases hend : (w.lines m inc ls).halt.isSome = true
  · rw [andThen, if_pos hend, lines_append, lines_of_halt (w := w.lines m inc ls) hend]
  · rw [andThen, if_neg hend]
    exact h (by simpa using hend)

/-- **A file that does not change is walked through as it was when it was opened**, in three rounds
at most. -/
theorem readOn_steady {p : Folder.Path} {w : Walk ρ} {bytes : ByteArray} (hhalt : w.halt = none)
    (hsteady : ∀ n, (w.lines m inc ((Text.read bytes).1.take n)).halt = none →
      (w.lines m inc ((Text.read bytes).1.take n)).desk.current.bytesFrom p 0 = bytes)
    (rounds : Nat) :
    w.readOn m inc p (rounds + 3) 0 {} = (w.lines m inc (Text.read bytes).1).andThen fun v =>
      if (Text.read bytes).2 then v else v.fail .notText := by
  have hstart : w.desk.current.bytesFrom p 0 = bytes := hsteady 0 hhalt
  have hcut : ({} : Unread).cut ++ bytes = bytes := ByteArray.empty_append
  rw [readOn, hstart]
  dsimp only
  by_cases hempty : bytes.isEmpty = true
  · have hbytes : bytes = "".toUTF8 :=
      ByteArray.size_eq_zero_iff.1 (by simpa [ByteArray.isEmpty] using hempty)
    have hread : Text.read bytes = ([], true) := by
      rw [hbytes, Text.read, Text.decode_toUTF8]
      rfl
    rw [if_pos hempty, hread]
    exact (andThen_of_goes hhalt).symm
  rw [if_neg hempty, hcut]
  cases hdecode : Text.decode bytes with
  | none =>
    have hread : Text.read bytes = ([], false) := by rw [Text.read, hdecode]
    rw [hread]
    exact (andThen_of_goes (f := fail .notText) hhalt).symm
  | some read =>
    obtain ⟨text, cut⟩ := read
    obtain ⟨ls, rest, hcomplete⟩ : ∃ ls rest, Text.completeLines text = (ls, rest) := ⟨_, _, rfl⟩
    have hlines := Text.completeLines_lines text
    dsimp only
    rw [hcomplete] at hlines
    rw [List.nil_append, hcomplete, Nat.zero_add]
    dsimp only at hlines ⊢
    -- One read takes all of the file, so a character cut off at its end stays cut off.
    by_cases hwhole : cut.isEmpty = true
    · have hnone : cut = ByteArray.empty :=
        ByteArray.size_eq_zero_iff.1 (by simpa [ByteArray.isEmpty] using hwhole)
      have hread : Text.read bytes
          = (ls ++ if rest.isEmpty then [] else [Text.unifyNewlines rest], true) := by
        rw [hlines, Text.read, hdecode]
        exact if_pos hwhole
      rw [hread] at hsteady ⊢
      subst hnone
      have hend : (w.lines m inc ls).halt = none →
          (w.lines m inc ls).desk.current.bytesFrom p bytes.size = ByteArray.empty := by
        intro h
        have := hsteady ls.length
        dsimp only at this
        rw [List.take_left] at this
        exact bytesFrom_size (this h)
      -- A last line without an end is taken only once nothing more comes.
      have hlast : rest.isEmpty = false →
          ((w.lines m inc ls).lines m inc [Text.unifyNewlines rest]).halt = none →
          ((w.lines m inc ls).lines m inc [Text.unifyNewlines rest]).desk.current.bytesFrom p
            bytes.size = ByteArray.empty := by
        intro hrest h
        have := hsteady (ls.length + 1)
        dsimp only at this
        rw [if_neg (by simp [hrest]), List.take_of_length_le (by simp), lines_append] at this
        exact bytesFrom_size (this h)
      rw [andThen_self]
      refine andThen_lines fun h => ?_
      rw [readOn_end (hend h) hlast, ← lines_append]
    · have hread : Text.read bytes = (ls, false) := by
        rw [Text.read, hdecode]
        dsimp only
        rw [if_neg hwhole, hcomplete]
      rw [hread] at hsteady ⊢
      refine andThen_congr fun h => ?_
      have hend : (w.lines m inc ls).desk.current.bytesFrom p bytes.size = ByteArray.empty := by
        have := hsteady ls.length
        dsimp only at this
        rw [List.take_length] at this
        exact bytesFrom_size (this h)
      rw [readOn, hend]
      dsimp only
      rw [if_pos (by rfl), if_pos (by simp [hwhole]), if_neg (by simp)]

theorem content_eq {p : Folder.Path} {w : Walk ρ} {bytes : ByteArray} (hhalt : w.halt = none)
    (hsteady : ∀ n, (w.lines m inc ((Text.read bytes).1.take n)).halt = none →
      (w.lines m inc ((Text.read bytes).1.take n)).desk.current.bytesFrom p 0 = bytes) :
    w.content m inc p = (w.lines m inc (Text.read bytes).1).andThen fun v =>
      if (Text.read bytes).2 then v else v.fail .notText :=
  readOn_steady hhalt hsteady 1048573

/-! ## Files that grow -/

theorem size_bytesFrom (d : Folder) (p : Folder.Path) (offset : Nat) :
    (d.bytesFrom p offset).size = (d.bytesFrom p 0).size - offset := by
  unfold Folder.bytesFrom
  split
  · simp
  · simp

/-- While a file holds `n` bytes at most, two rounds for each byte to come, and one for a line that
has no end, are enough: every round finds more bytes, takes such a line or is the last. -/
theorem readOn_of_size {p : Folder.Path} {n rounds rounds' : Nat} (offset : Nat) (left : Unread)
    (w : Walk ρ) (hsize : ∀ ls, ((w.lines m inc ls).desk.current.bytesFrom p 0).size ≤ n)
    (henough : 2 * (n - offset) + (if left.text.isEmpty then 0 else 1) < rounds)
    (hmore : rounds ≤ rounds') :
    w.readOn m inc p rounds' offset left = w.readOn m inc p rounds offset left := by
  induction rounds generalizing rounds' offset left w with
  | zero => omega
  | succ rounds ih =>
    obtain ⟨more, rfl⟩ : ∃ k, rounds' = k + 1 := ⟨rounds' - 1, by omega⟩
    have hgoes (ls ls' : List (List Char)) :
        (((w.lines m inc ls).lines m inc ls').desk.current.bytesFrom p 0).size ≤ n := by
      rw [← lines_append]
      exact hsize (ls ++ ls')
    have hbytes := size_bytesFrom w.desk.current p offset
    have hheld := hsize []
    rw [readOn, readOn]
    dsimp only
    split
    · split
      · rfl
      split
      · rfl
      · rename_i htext
        refine andThen_congr fun _ => ih offset {} _ (hgoes _) ?_ (by omega)
        rw [if_neg htext] at henough
        simpa using henough
    · rename_i hfound
      have hpos : 0 < (w.desk.current.bytesFrom p offset).size := by
        simpa [ByteArray.isEmpty, Nat.pos_iff_ne_zero] using hfound
      split
      · rfl
      · refine andThen_congr fun _ => ih _ _ _ (hgoes _) ?_ (by omega)
        change (w.desk.current.bytesFrom p 0).size ≤ n at hheld
        split <;> omega

/-- **The bound on rounds** makes no difference to a file that never holds more than 524287 bytes. -/
theorem content_eq_readOn {p : Folder.Path} {w : Walk ρ} {rounds : Nat}
    (hsize : ∀ ls, ((w.lines m inc ls).desk.current.bytesFrom p 0).size ≤ 524287)
    (hrounds : maxRounds ≤ rounds) : w.readOn m inc p rounds 0 {} = w.content m inc p :=
  readOn_of_size 0 {} w hsize (by decide) hrounds

end Walk

namespace Reading

variable {ρ : Type} {m : WalkMode ρ} {s : Reading ρ} {l : List Char} {rest : List (List Char)}

/-! ## Steps -/

theorem step_line (hhalt : s.walk.halt = none) (hunread : s.source.unread = l :: rest)
    (hinc : s.walk.included? l = none) (inc : String → Walk ρ → Walk ρ) :
    s.step m = some { s with
      walk := s.walk.takeLine m inc l, source := { s.source with unread := rest } } := by
  rw [step, hhalt, hunread, Walk.takeLine_congr inc (fun _ w => w) hinc]
  simp [hinc]

theorem step_enter {name : String} (hhalt : s.walk.halt = none)
    (hunread : s.source.unread = l :: rest) (hinc : s.walk.included? l = some name) :
    s.step m = some ({ s with
      walk := s.walk.indented l, source := { s.source with unread := rest } }.enter name) := by
  rw [step, hhalt, hunread]
  simp [hinc]

theorem step_return {f : WaitingFile} {fs : List WaitingFile} (hhalt : s.walk.halt = none)
    (hunread : s.source.unread = []) (htext : s.source.isText = true) (hstack : s.stack = f :: fs) :
    s.step m = some
      { walk := s.walk.onDesk (.moveTo f.file f.line), source := f.source, stack := fs } := by
  rw [step, hhalt, hunread, hstack]
  simp [htext]

theorem step_notText (hhalt : s.walk.halt = none) (hunread : s.source.unread = [])
    (htext : s.source.isText = false) :
    s.step m = some { s with walk := s.walk.fail .notText } := by
  rw [step, hhalt, hunread]
  simp [htext]

/-! ## Runs -/

/-- The reading comes to where these lines of the same file are left, unless the walk ends before.
If no file changes on the way, the walk is then `w`. -/
def Comes (m : WalkMode ρ) (s : Reading ρ) (rest : List (List Char)) (w : Walk ρ) : Prop :=
  ∃ s', Runs m s s' ∧
    (s'.walk.halt = none →
      s'.source = { s.source with unread := rest } ∧ s'.stack = s.stack) ∧
    ((∀ t, Runs m s t → t.Steady) → s'.walk = w)

/-- What is known of the lines of an included file, for a file that has room for it. -/
def Passes (m : WalkMode ρ) (room : Nat) : Prop :=
  ∀ (ls rest : List (List Char)) (s : Reading ρ), s.stack.length + room = Walk.maxDepth →
    s.walk.halt = none → s.source.unread = ls ++ rest →
    Comes m s rest (s.walk.lines m (Walk.included m room) ls)

/-- A file is read from its start to its end. -/
theorem comes_end {room : Nat} (hroom : Passes m room) {p : Folder.Path} {bytes : ByteArray}
    (hsource : s.source = .ofBytes p bytes) (hstack : s.stack.length + room = Walk.maxDepth)
    (hhalt : s.walk.halt = none) :
    ∃ s', Runs m s s' ∧
      (s'.walk.halt = none → s'.source = { s.source with unread := [] } ∧ s'.stack = s.stack ∧
        s'.source.isText = true) ∧
      ((∀ t, Runs m s t → t.Steady) →
        s'.walk = s.walk.content m (Walk.included m room) p) := by
  have hunread : s.source.unread = (Text.read bytes).1 := by
    rw [hsource]
    rfl
  obtain ⟨s', hrun, hgoes, hwalk⟩ :=
    hroom (Text.read bytes).1 [] s hstack hhalt (by rw [hunread, List.append_nil])
  have hcontent : (∀ t, Runs m s t → t.Steady) → s.walk.content m (Walk.included m room) p =
      s'.walk.andThen fun v => if (Text.read bytes).2 then v else v.fail .notText := by
    intro hsteady
    -- The file holds the same bytes wherever the reading has come to in it.
    have hbytes : ∀ n, (s.walk.lines m (Walk.included m room)
        ((Text.read bytes).1.take n)).halt = none →
        (s.walk.lines m (Walk.included m room)
          ((Text.read bytes).1.take n)).desk.current.bytesFrom p 0 = bytes := by
      intro n hn
      obtain ⟨t, ht, htgoes, htwalk⟩ := hroom ((Text.read bytes).1.take n)
        ((Text.read bytes).1.drop n) s hstack hhalt (by rw [hunread, List.take_append_drop])
      rw [← htwalk hsteady] at hn ⊢
      have := hsteady t ht t.source (by simp [opened])
      rw [(htgoes hn).1, hsource] at this
      exact this
    rw [Walk.content_eq hhalt hbytes, hwalk hsteady]
  by_cases hend : s'.walk.halt.isSome = true
  · refine ⟨s', hrun, fun h => by simp [h] at hend, fun hsteady => ?_⟩
    rw [hcontent hsteady, Walk.andThen, if_pos hend]
  have hgo : s'.walk.halt = none := by simpa using hend
  obtain ⟨hsource', hstack'⟩ := hgoes hgo
  have htext : s'.source.isText = (Text.read bytes).2 := by
    rw [hsource', hsource]
    rfl
  cases hread : (Text.read bytes).2 with
  | true =>
    refine ⟨s', hrun, fun _ => ⟨hsource', hstack', htext.trans hread⟩, fun hsteady => ?_⟩
    rw [hcontent hsteady, hread, Walk.andThen_self]
  | false =>
    have hstep := step_notText (m := m) hgo (by rw [hsource']) (htext.trans hread)
    refine ⟨_, hrun.tail hstep, fun h => (by cases h), fun hsteady => ?_⟩
    rw [hcontent hsteady, hread, Walk.andThen_of_goes hgo]
    rfl

/-- An included file is entered, read and left again. -/
theorem comes_entered {room : Nat} (hroom : Passes m room) {name : String} {p : Folder.Path}
    (hstack : s.stack.length + (room + 1) = Walk.maxDepth) (hhalt : s.walk.halt = none)
    (hfind : s.walk.desk.current.find name = .ok p) :
    ∃ s', Runs m (s.enter name) s' ∧
      (s'.walk.halt = none → s'.source = s.source ∧ s'.stack = s.stack) ∧
      ((∀ t, Runs m (s.enter name) t → t.Steady) →
        s'.walk = Walk.included m (room + 1) name s.walk) := by
  let f : WaitingFile :=
    { source := s.source, file := s.walk.desk.file, line := s.walk.desk.line }
  have henter : s.enter name =
      { walk := s.walk.onDesk (.moveTo name 1)
        source := .ofBytes p (s.walk.desk.current.bytesFrom p 0), stack := f :: s.stack } := by
    rw [enter, if_neg (by omega), hfind]
  obtain ⟨s', hrun, hgoes, hwalk⟩ := comes_end hroom (s := s.enter name) (p := p)
    (by rw [henter]) (by rw [henter, List.length_cons]; omega) (by rw [henter]; exact hhalt)
  have hincluded : Walk.included m (room + 1) name s.walk =
      ((s.enter name).walk.content m (Walk.included m room) p).andThen
        (Walk.onDesk (.moveTo s.walk.desk.file s.walk.desk.line)) := by
    rw [Walk.included, hfind, henter]
  rw [hincluded]
  by_cases hend : s'.walk.halt.isSome = true
  · refine ⟨s', hrun, fun h => by simp [h] at hend, fun hsteady => ?_⟩
    rw [← hwalk hsteady, Walk.andThen, if_pos hend]
  · have hgo : s'.walk.halt = none := by simpa using hend
    obtain ⟨hsource, hstack', htext⟩ := hgoes hgo
    rw [henter] at hstack'
    refine ⟨_, hrun.tail (step_return hgo (by rw [hsource]) htext hstack'), fun _ => ⟨rfl, rfl⟩,
      fun hsteady => ?_⟩
    rw [← hwalk hsteady, Walk.andThen_of_goes hgo]

theorem comes_line {room : Nat} (hroom : ∀ r, room = r + 1 → Passes m r)
    (hstack : s.stack.length + room = Walk.maxDepth) (hhalt : s.walk.halt = none)
    (hunread : s.source.unread = l :: rest) :
    Comes m s rest (s.walk.takeLine m (Walk.included m room) l) := by
  cases hinc : s.walk.included? l with
  | none =>
    exact ⟨_, .single (step_line hhalt hunread hinc _), fun _ => ⟨rfl, rfl⟩, fun _ => rfl⟩
  | some name =>
    rw [Walk.takeLine_included hinc]
    have hstep := step_enter (m := m) hhalt hunread hinc
    cases room with
    | zero =>
      rw [enter, if_pos (by simp only; omega)] at hstep
      exact ⟨_, .single hstep, fun h => (by cases h), fun _ => rfl⟩
    | succ room =>
      cases hfind : (s.walk.indented l).desk.current.find name with
      | error f =>
        rw [enter, if_neg (by simp only; omega), hfind] at hstep
        refine ⟨_, .single hstep, fun h => ?_, fun _ => ?_⟩
        · dsimp only at h
          split at h <;> cases h
        · rw [Walk.included, hfind]
      | ok p =>
        obtain ⟨s', hrun, hgoes, hwalk⟩ := comes_entered (hroom room rfl)
          (s := { s with walk := s.walk.indented l, source := { s.source with unread := rest } })
          hstack hhalt hfind
        exact ⟨s', .head hstep hrun, hgoes, fun hsteady => hwalk fun t ht => hsteady t (.head hstep ht)⟩

theorem passes_of_lines {room : Nat}
    (hline : ∀ {s : Reading ρ} {l : List Char} {rest : List (List Char)},
      s.stack.length + room = Walk.maxDepth → s.walk.halt = none → s.source.unread = l :: rest →
      Comes m s rest (s.walk.takeLine m (Walk.included m room) l)) : Passes m room := by
  intro ls rest s hstack hhalt hunread
  induction ls generalizing s with
  | nil =>
    refine ⟨s, .refl, fun _ => ⟨?_, rfl⟩, fun _ => rfl⟩
    rw [← List.nil_append rest, ← hunread]
  | cons l ls ih =>
    obtain ⟨s₁, hrun, hgoes, hwalk⟩ := hline hstack hhalt hunread
    by_cases hend : s₁.walk.halt.isSome = true
    · refine ⟨s₁, hrun, fun h => by simp [h] at hend, fun hsteady => ?_⟩
      rw [Walk.lines_cons, hhalt, ← hwalk hsteady, Walk.lines_of_halt hend]
      rfl
    · have hgo : s₁.walk.halt = none := by simpa using hend
      obtain ⟨hsource, hstack₁⟩ := hgoes hgo
      obtain ⟨s', hrun', hgoes', hwalk'⟩ := ih s₁ (hstack₁ ▸ hstack) hgo (by rw [hsource]; rfl)
      refine ⟨s', hrun.trans hrun', fun h => ?_, fun hsteady => ?_⟩
      · rw [hsource, hstack₁] at hgoes'
        exact hgoes' h
      · rw [Walk.lines_cons, hhalt, ← hwalk hsteady, hwalk' fun t ht => hsteady t (hrun.trans ht)]
        rfl

/-- **The lines of a file are come through, whatever they include.** -/
theorem passes (m : WalkMode ρ) (room : Nat) : Passes m room := by
  induction room with
  | zero => exact passes_of_lines (comes_line fun r h => by omega)
  | succ room ih =>
    refine passes_of_lines (comes_line fun r h => ?_)
    obtain rfl : room = r := by omega
    exact ih

/-- **Reading a file comes to an end,** and if no file changes meanwhile, it ends as the walk does. -/
theorem runs_file (m : WalkMode ρ) {name : String} {p : Folder.Path} {w : Walk ρ}
    (hhalt : w.halt = none) (hfind : w.desk.current.find name = .ok p) :
    ∃ s, Runs m (start name p w) s ∧ s.step m = none ∧
      (s.walk.halt = none → s.source.path = p ∧ s.source.unread = [] ∧ s.stack = []) ∧
      ((∀ t, Runs m (start name p w) t → t.Steady) → s.walk = w.file m name) := by
  obtain ⟨s, hrun, hgoes, hwalk⟩ :=
    comes_end (passes m Walk.maxDepth) (s := start name p w) rfl (Nat.zero_add _) hhalt
  refine ⟨s, hrun, ?_, fun h => ?_, fun hsteady => ?_⟩
  · cases h : s.walk.halt with
    | some e => rw [step, h]; rfl
    | none =>
      obtain ⟨hsource, hstack, htext⟩ := hgoes h
      have hunread : s.source.unread = [] := by rw [hsource]
      rw [step, h, hunread, hstack, htext]
      rfl
  · obtain ⟨hsource, hstack, -⟩ := hgoes h
    exact ⟨by rw [hsource]; rfl, by rw [hsource], hstack⟩
  · rw [hwalk hsteady, Walk.file, hfind]
    rfl

end Reading

end MexBridge
