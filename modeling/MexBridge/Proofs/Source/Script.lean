import MexBridge.Proofs.Source.Ending
import Mathlib.Data.List.Forall2

/-!
# The script of a walk

All that a walk does can be written down as a script, deed by deed: text for the outputs, lines that
direct the MATLAB output, tokens for the reader, and moves from line to line and from file to file
(`Walk.script`). To walk through a file is to perform its script (`plays_file`). So what is known of
single deeds is known of walks, and two walks with one script can be compared deed by deed.
-/

namespace MexBridge

/-- One thing that a walk does. -/
inductive Deed where
  /-- Text for the MATLAB output. -/
  | matlab (s : String)
  /-- Text for the C output. -/
  | c (s : String)
  /-- The MATLAB output is to go to a file, or to none. -/
  | direct (target : String)
  | token (t : Token)
  | nextLine
  | moveTo (file : String) (line : Int)
  /-- A block of C begins or ends. -/
  | block (inBlock : Bool)
  /-- A file is opened for reading. -/
  | read (p : Folder.Path)
  | stop (n : Notice)
  | fail (f : Fault)
deriving DecidableEq, Repr

namespace Deed

/-- The file that is opened for reading. -/
def read? : Deed → Option Folder.Path
  | .read p => some p
  | _ => none

/-- The name of the file that the MATLAB output is to go to. -/
def target? : Deed → Option String
  | .direct target => if target = "" then none else some target
  | _ => none

end Deed

namespace Walk

variable {ρ δ : Type} {m : WalkMode ρ} {inc : String → Walk ρ → Walk ρ}
  {inside : String → Walk ρ → List Deed}

/-- In a batch the MATLAB output is closed, and the one named is opened. -/
def reopen (m : WalkMode ρ) (target : String) (w : Walk ρ) : Walk ρ :=
  if m.batching then
    let w := w.onDesk .closeMatlab
    if target = "" then w else w.openBatch target
  else w

/-- Directs the MATLAB output to a file, or to none. -/
def direct (m : WalkMode ρ) (target : String) (w : Walk ρ) : Walk ρ :=
  (w.reopen m target).andThen fun w =>
    if m.listing && target ≠ "" then w.onDesk (.print target) else w

def perform (m : WalkMode ρ) : Deed → Walk ρ → Walk ρ
  | .matlab s, w => w.onDesk (.writeMatlab s)
  | .c s, w => w.onDesk (.writeC s)
  | .direct target, w => w.direct m target
  | .token t, w => w.feed m t
  | .nextLine, w => w.onDesk .nextLine
  | .moveTo file line, w => w.onDesk (.moveTo file line)
  | .block inBlock, w => { w with inBlock := inBlock }
  | .read _, w => w
  | .stop n, w => w.stop n
  | .fail f, w => w.fail f

/-- From one walk to another by things done one after the other, none of them after the walk has
ended. `act` tells what it is to do a thing. -/
inductive Plays (act : δ → Walk ρ → Walk ρ) : Walk ρ → List δ → Walk ρ → Prop
  | nil (w : Walk ρ) : Plays act w [] w
  | cons {w w' : Walk ρ} {d : δ} {ds : List δ} (hgoes : w.halt = none)
      (h : Plays act (act d w) ds w') : Plays act w (d :: ds) w'

section

variable {act : δ → Walk ρ → Walk ρ} {w w' w'' : Walk ρ} {ds ds' : List δ}

theorem Plays.append (h : Plays act w ds w') (h' : Plays act w' ds' w'') :
    Plays act w (ds ++ ds') w'' := by
  induction h with
  | nil w => exact h'
  | cons hgoes _ ih => exact .cons hgoes (ih h')

theorem Plays.single {d : δ} (hgoes : w.halt = none) : Plays act w [d] (act d w) :=
  .cons hgoes (.nil _)

/-- Where a script leads is fixed by where it starts. -/
theorem Plays.unique (h : Plays act w ds w') (h' : Plays act w ds w'') : w' = w'' := by
  induction h with
  | nil w => cases h'; rfl
  | cons _ _ ih => cases h' with | cons _ h' => exact ih h'

/-- What is done in other words, or to walks seen in another way. -/
theorem Plays.image {σ ε : Type} {act' : ε → Walk σ → Walk σ} {f : Walk ρ → Walk σ} {g : δ → ε}
    (hhalt : ∀ w, (f w).halt = w.halt)
    (hact : ∀ d w, w.halt = none → act' (g d) (f w) = f (act d w)) (h : Plays act w ds w') :
    Plays act' (f w) (ds.map g) (f w') := by
  induction h with
  | nil w => exact .nil (f w)
  | cons hgoes _ ih =>
    refine .cons ((hhalt _).trans hgoes) ?_
    rw [hact _ _ hgoes]
    exact ih

/-- What each deed keeps, a script keeps. -/
theorem Plays.induct {P : Walk ρ → Prop} (h : Plays act w ds w') (base : P w)
    (step : ∀ d ∈ ds, ∀ v : Walk ρ, v.halt = none → P v → P (act d v)) : P w' := by
  induction h with
  | nil w => exact base
  | cons hgoes _ ih =>
    exact ih (step _ (by simp) _ hgoes base) fun d hd => step d (by simp [hd])

/-- What two scripts keep if they are played side by side, from what each pair of things keeps. -/
theorem Plays.rel {σ ε : Type} {act' : ε → Walk σ → Walk σ} {R : Walk ρ → Walk σ → Prop}
    {L : δ → ε → Prop} {v v' : Walk σ} {es : List ε} (h : Plays act w ds w')
    (h' : Plays act' v es v') (hds : List.Forall₂ L ds es) (base : R w v)
    (step : ∀ d ∈ ds, ∀ e, L d e → ∀ w v, w.halt = none → R w v → R (act d w) (act' e v)) :
    R w' v' := by
  induction h generalizing v es with
  | nil w =>
    cases hds
    cases h'
    exact base
  | cons hgoes _ ih =>
    cases hds with
    | cons hd hds =>
      cases h' with
      | cons _ h' =>
        exact ih h' hds (step _ (by simp) _ hd _ _ hgoes base) fun d hd => step d (by simp [hd])

end

/-! ## Lines -/

/-- What is done after the output has been directed, unless that has ended the walk. -/
def afterDirect (m : WalkMode ρ) (target : String) (ds : List Deed) (w : Walk ρ) : List Deed :=
  .direct target :: if (w.direct m target).halt.isSome then [] else ds

/-- What is done at a line that includes no file. -/
def lineDeeds (m : WalkMode ρ) (l : List Char) (w : Walk ρ) : List Deed :=
  if w.inBlock then
    .nextLine :: if SourceLine.isCloser l then [.block false] else [.c (String.ofList l)]
  else
    let (indent, rest) := SourceLine.indent l
    let marked := Deed.matlab (String.ofList indent)
    let passed := [.nextLine, .token (.otherLine w.desk.line)]
    match SourceLine.classify rest with
    | .text => .matlab (String.ofList l) :: passed
    | .brokenOpener => marked :: .matlab (String.ofList l) :: passed
    | .comment => marked :: passed
    | .function tail =>
      marked :: (w.indented l).afterDirect m (String.ofList (SourceLine.functionFile tail))
        (.matlab ("function" ++ String.ofList tail ++ "\n") :: passed)
    | .include _ => []
    | .redirect target => marked :: (w.indented l).afterDirect m (String.ofList target) passed
    | .code c => marked :: .c (String.ofList c) :: passed
    | .opener => [marked, .nextLine, .block true]
    | .declaration body => marked :: (Token.tokens w.desk.line body).map .token ++ [.nextLine]

theorem plays_passLine {line : Int} {w : Walk ρ} (hline : w.desk.line = line)
    (hhalt : w.halt = none) :
    Plays (perform m) w [.nextLine, .token (.otherLine line)] (w.passLine m) := by
  subst hline
  exact .cons hhalt (.single hhalt)

theorem plays_feedAll (ts : List Token) {w : Walk ρ} (hhalt : w.halt = none) :
    Plays (perform m) w (ts.map .token) (ts.foldl (fun w t => w.feed m t) w) := by
  induction ts generalizing w with
  | nil => exact .nil w
  | cons t ts ih => exact .cons hhalt (ih (w := w.feed m t) hhalt)

/-- All that directing the output can change. -/
theorem fields_direct (target : String) (w : Walk ρ) : ∃ folder matlab stdout notices halt,
    w.direct m target =
      { w with
        desk := { w.desk with folder := folder, matlab := matlab, stdout := stdout, notices := notices }
        halt := halt } := by
  have hopen : ∀ w : Walk ρ, ∃ folder matlab notices halt, w.openBatch target =
      { w with
        desk := { w.desk with folder := folder, matlab := matlab, notices := notices }
        halt := halt } := by
    intro w
    unfold openBatch Desk.openMatlab
    cases w.desk.folder.create target with
    | ok r => exact ⟨_, _, _, _, rfl⟩
    | error f =>
      dsimp only [bind, Except.bind]
      split <;> exact ⟨_, _, _, _, rfl⟩
  have hreopen : ∃ folder matlab notices halt, w.reopen m target =
      { w with
        desk := { w.desk with folder := folder, matlab := matlab, notices := notices }
        halt := halt } := by
    unfold reopen
    split
    · dsimp only
      split
      · exact ⟨_, _, _, _, rfl⟩
      · exact hopen (w.onDesk .closeMatlab)
    · exact ⟨_, _, _, _, rfl⟩
  obtain ⟨folder, matlab, notices, halt, hreopen⟩ := hreopen
  unfold direct
  rw [hreopen]
  unfold andThen
  split
  · exact ⟨_, _, _, _, _, rfl⟩
  · split <;> exact ⟨_, _, _, _, _, rfl⟩

theorem reader_direct (target : String) (w : Walk ρ) : (w.direct m target).reader = w.reader := by
  obtain ⟨_, _, _, _, _, h⟩ := fields_direct (m := m) target w
  rw [h]

theorem c_direct (target : String) (w : Walk ρ) : (w.direct m target).desk.c = w.desk.c := by
  obtain ⟨_, _, _, _, _, h⟩ := fields_direct (m := m) target w
  rw [h]

/-- Directing the output does not move the desk. -/
theorem beside_direct {target : String} {w : Walk ρ} (h : (w.direct m target).halt = none) :
    w.Beside (w.direct m target) := by
  have hwaited : Waited m w (w.reopen m target) := by
    unfold reopen
    split
    · dsimp only
      split
      · exact w.closeMatlab_beside.waited
      · exact .before w.closeMatlab_beside (waited_openBatch _ _)
    · exact (Beside.refl w).waited
  have hgoes : (w.reopen m target).halt = none := goes_of_andThen h
  unfold direct
  rw [andThen_of_goes hgoes]
  exact (hwaited.beside hgoes).trans (print_beside _ _ _).1

/-- The output is directed and, unless that ends the walk, what comes next is done. -/
theorem plays_afterDirect {target : String} {ds : List Deed} {f : Walk ρ → Walk ρ} {w : Walk ρ}
    (hhalt : w.halt = none)
    (hf : (w.direct m target).halt = none → Plays (perform m) (w.direct m target) ds
      (f (w.direct m target))) :
    Plays (perform m) w (w.afterDirect m target ds) ((w.direct m target).andThen f) := by
  unfold afterDirect andThen
  refine .cons hhalt ?_
  change Plays (perform m) (w.direct m target) _ _
  split
  · exact .nil _
  · rename_i hgoes
    exact hf (by simpa using hgoes)

theorem andThen_of_ended {f : Walk ρ → Walk ρ} {w : Walk ρ} (h : w.halt.isSome = true) :
    w.andThen f = w :=
  if_pos h

theorem andThen_andThen {f g : Walk ρ → Walk ρ} (hf : ∀ w : Walk ρ, (f w).halt = w.halt) (w : Walk ρ) :
    (w.andThen f).andThen g = w.andThen fun w => g (f w) := by
  unfold andThen
  by_cases hend : w.halt.isSome = true
  · simp [hend]
  · simp [hend, hf]

/-- Outside batches an output is directed nowhere. -/
theorem direct_eq (hm : m.batching = false) {w : Walk ρ} (hhalt : w.halt = none) (target : String) :
    w.direct m target = if m.listing && target ≠ "" then w.onDesk (.print target) else w := by
  unfold direct reopen
  rw [hm]
  exact andThen_of_goes hhalt

theorem functionFile_ne_empty (tail : List Char) : String.ofList (SourceLine.functionFile tail) ≠ "" := by
  intro h
  have := congrArg String.toList h
  simp [SourceLine.functionFile] at this

theorem functionLine_eq_direct (tail : List Char) (w : Walk ρ) :
    w.functionLine m tail
      = (w.direct m (String.ofList (SourceLine.functionFile tail))).andThen fun w =>
          (w.onDesk (.writeMatlab ("function" ++ String.ofList tail ++ "\n"))).passLine m := by
  unfold direct reopen
  rw [andThen_andThen fun w => (print_beside _ _ w).2]
  simp only [functionFile_ne_empty, if_false, ne_eq, not_false_eq_true, decide_true, Bool.and_true]
  rfl

theorem redirectLine_eq_direct (target : String) (w : Walk ρ) :
    w.redirectLine m target = (w.direct m target).andThen (passLine m) := by
  unfold direct
  rw [andThen_andThen fun w => (print_beside _ _ w).2]
  rfl

/-- **A line is walked through by its deeds.** -/
theorem plays_takeLine {l : List Char} {w : Walk ρ} (hhalt : w.halt = none)
    (hinc : w.included? l = none) :
    Plays (perform m) w (w.lineDeeds m l) (w.takeLine m inc l) := by
  unfold takeLine lineDeeds
  split
  · unfold blockLine
    refine .cons hhalt ?_
    dsimp only
    split <;> exact .single hhalt
  · rw [included?, if_neg ‹_›] at hinc
    have hmarked : (w.indented l).halt = none := hhalt
    unfold openLine
    dsimp only
    cases hc : SourceLine.classify (SourceLine.indent l).2 with
    | text => exact .cons hhalt (plays_passLine rfl hhalt)
    | brokenOpener => exact .cons hhalt (.cons hhalt (plays_passLine rfl hhalt))
    | comment => exact .cons hhalt (plays_passLine rfl hhalt)
    | function tail =>
      refine .cons hhalt ?_
      change Plays (perform m) (w.indented l) _ ((w.indented l).functionLine m tail)
      rw [functionLine_eq_direct]
      exact plays_afterDirect hhalt fun hgoes =>
        .cons hgoes (plays_passLine (beside_direct hgoes).line hgoes)
    | «include» name =>
      rw [hc] at hinc
      cases hinc
    | redirect target =>
      refine .cons hhalt ?_
      change Plays (perform m) (w.indented l) _ ((w.indented l).redirectLine m (String.ofList target))
      rw [redirectLine_eq_direct]
      exact plays_afterDirect hhalt fun hgoes => plays_passLine (beside_direct hgoes).line hgoes
    | code c => exact .cons hhalt (.cons hhalt (plays_passLine rfl hhalt))
    | opener => exact .cons hhalt (.cons hhalt (.single hhalt))
    | declaration body =>
      exact .cons hhalt ((plays_feedAll _ hmarked).append (.single ((halt_feedAll _ _).trans hmarked)))

/-! ## Files -/

/-- What is done at a line. `inside` tells what is done in an included file. -/
def takeDeeds (m : WalkMode ρ) (inside : String → Walk ρ → List Deed) (l : List Char) (w : Walk ρ) :
    List Deed :=
  match w.included? l with
  | some name => .matlab (String.ofList (SourceLine.indent l).1) :: inside name (w.indented l)
  | none => w.lineDeeds m l

def scriptOn (m : WalkMode ρ) (inc : String → Walk ρ → Walk ρ)
    (inside : String → Walk ρ → List Deed) : List (List Char) → Walk ρ → List Deed
  | [], _ => []
  | l :: ls, w =>
    if w.halt.isSome then []
    else w.takeDeeds m inside l ++ scriptOn m inc inside ls (w.takeLine m inc l)

/-- What is done in a file from an offset on, after what is left unread. -/
def scriptFrom (m : WalkMode ρ) (inc : String → Walk ρ → Walk ρ)
    (inside : String → Walk ρ → List Deed) (p : Folder.Path) :
    Nat → Nat → Unread → Walk ρ → List Deed
  | 0, _, _, _ => []
  | rounds + 1, offset, left, w =>
    let bytes := w.desk.current.bytesFrom p offset
    if w.halt.isSome then []
    else if bytes.isEmpty then
      if !left.cut.isEmpty then [.fail .notText]
      else if left.text.isEmpty then []
      else
        let ls := [Text.unifyNewlines left.text]
        w.scriptOn m inc inside ls
          ++ scriptFrom m inc inside p rounds offset {} (w.lines m inc ls)
    else
      match Text.decode (left.cut ++ bytes) with
      | none => [.fail .notText]
      | some (text, cut) =>
        let (ls, rest) := Text.completeLines (left.text ++ text)
        w.scriptOn m inc inside ls
          ++ scriptFrom m inc inside p rounds (offset + bytes.size) { text := rest, cut := cut }
            (w.lines m inc ls)

/-- What is done in an included file, with `room` for so many files inside each other. -/
def scriptInside (m : WalkMode ρ) : Nat → String → Walk ρ → List Deed
  | 0, _, _ => [.stop .tooDeep]
  | room + 1, name, w =>
    match w.desk.current.find name with
    | .error f => [if f.ofFile then .stop (.cannotInclude name) else .fail f]
    | .ok p =>
      let v := w.onDesk (.moveTo name 1)
      .read p :: .moveTo name 1 ::
        (v.scriptFrom m (included m room) (scriptInside m room) p maxRounds 0 {}
          ++ if (v.content m (included m room) p).halt.isSome then []
            else [.moveTo w.desk.file w.desk.line])

/-- What is done in a file. -/
def script (m : WalkMode ρ) (name : String) (w : Walk ρ) : List Deed :=
  match w.desk.current.find name with
  | .error f => [.fail f]
  | .ok p =>
    let v := { w.onDesk (.moveTo name 1) with inBlock := false }
    .read p :: .moveTo name 1 :: .block false ::
      v.scriptFrom m (included m maxDepth) (scriptInside m maxDepth) p maxRounds 0 {}

theorem plays_take
    (hinc : ∀ name w, w.halt = none → Plays (perform m) w (inside name w) (inc name w))
    (l : List Char) {w : Walk ρ} (hhalt : w.halt = none) :
    Plays (perform m) w (w.takeDeeds m inside l) (w.takeLine m inc l) := by
  unfold takeDeeds
  split
  · rename_i name hname
    rw [takeLine_included hname]
    exact .cons hhalt (hinc name (w.indented l) hhalt)
  · exact plays_takeLine hhalt ‹_›

theorem plays_lines
    (hinc : ∀ name w, w.halt = none → Plays (perform m) w (inside name w) (inc name w))
    (ls : List (List Char)) (w : Walk ρ) :
    Plays (perform m) w (w.scriptOn m inc inside ls) (w.lines m inc ls) := by
  induction ls generalizing w with
  | nil => exact .nil w
  | cons l ls ih =>
    rw [lines_cons, scriptOn]
    split
    · exact .nil w
    · rename_i hgoes
      exact (plays_take hinc l (by simpa using hgoes)).append (ih _)

theorem plays_readOn
    (hinc : ∀ name w, w.halt = none → Plays (perform m) w (inside name w) (inc name w))
    (p : Folder.Path) (rounds offset : Nat) (left : Unread) (w : Walk ρ) :
    Plays (perform m) w (w.scriptFrom m inc inside p rounds offset left)
      (w.andThen (readOn m inc p rounds offset left)) := by
  induction rounds generalizing offset left w with
  | zero =>
    unfold andThen
    split <;> exact .nil w
  | succ rounds ih =>
    unfold andThen scriptFrom readOn
    dsimp only
    split
    · exact .nil w
    · rename_i hgoes
      have hhalt : w.halt = none := by simpa using hgoes
      split
      · split
        · exact .single hhalt
        · split
          · exact .nil w
          · exact (plays_lines hinc _ w).append (ih ..)
      · cases Text.decode (left.cut ++ w.desk.current.bytesFrom p offset) with
        | none => exact .single hhalt
        | some read => exact (plays_lines hinc _ w).append (ih ..)

theorem plays_content
    (hinc : ∀ name w, w.halt = none → Plays (perform m) w (inside name w) (inc name w))
    (p : Folder.Path) {w : Walk ρ} (hhalt : w.halt = none) :
    Plays (perform m) w (w.scriptFrom m inc inside p maxRounds 0 {}) (w.content m inc p) := by
  have h := plays_readOn hinc p maxRounds 0 {} w
  rwa [andThen_of_goes hhalt] at h

theorem plays_included (room : Nat) (name : String) (w : Walk ρ) (hhalt : w.halt = none) :
    Plays (perform m) w (w.scriptInside m room name) (w.included m room name) := by
  induction room generalizing name w with
  | zero => exact .single hhalt
  | succ room ih =>
    unfold scriptInside Walk.included
    cases w.desk.current.find name with
    | error f =>
      dsimp only
      split <;> exact .single hhalt
    | ok p =>
      have hcontent := plays_content ih p (w := w.onDesk (.moveTo name 1)) hhalt
      refine .cons hhalt (.cons hhalt (hcontent.append ?_))
      dsimp only [andThen]
      split
      · exact .nil _
      · rename_i hgoes
        exact .single (by simpa using hgoes)

/-- **To walk through a file is to perform its script.** -/
theorem plays_file (name : String) {w : Walk ρ} (hhalt : w.halt = none) :
    Plays (perform m) w (w.script m name) (w.file m name) := by
  unfold script file
  cases w.desk.current.find name with
  | error f => exact .single hhalt
  | ok p =>
    refine .cons hhalt (.cons hhalt (.cons hhalt ?_))
    exact plays_content (plays_included maxDepth) p
      (w := { w.onDesk (.moveTo name 1) with inBlock := false }) hhalt

end Walk

end MexBridge
