import MexBridge.Proofs.Source.Reading
import MexBridge.Except

/-!
# How reading ends

Whatever the files include, in cycles too, reading one of them comes to an end: to that of the file
itself, or to a refusal. At most so many files wait at a time. Apart from refusals, reading breaks off
only at a file that is not a text or at a name with a null character in it (`reading_ends`).
-/

namespace MexBridge

/-! ## Names that lead to no file -/

/-- No file can be opened under the name, and if that is not for the user to hear, the name has a null
character in it. -/
def Fault.OfName (name : List Char) (f : Fault) : Prop :=
  f.ofFile = true ∨ f = .brokenName ∧ '\x00' ∈ name

namespace Folder

variable {d : Folder} {f : Fault}

theorem follow_error {start : Path} {parts : List String} (h : d.follow start parts = .error f) :
    f.ofFile = true := by
  induction parts generalizing start with
  | nil => cases h
  | cons part parts ih =>
    unfold follow at h
    dsimp only at h
    split at h
    · exact ih h
    · split at h
      · exact ih h
      · split at h
        · cases h; rfl
        · split at h
          · exact ih h
          · split at h <;> cases h <;> rfl

theorem locate_error {start : Path} {parts : List String} (h : d.locate start parts = .error f) :
    f.ofFile = true := by
  unfold locate at h
  rcases bind_eq_error.1 h with hfollow | ⟨here, -, h⟩
  · exact follow_error hfollow
  · dsimp only at h
    split at h
    · cases h; rfl
    · split at h
      · cases h; rfl
      · split at h <;> cases h
        rfl

theorem route_error {name : String} (h : d.route name = .error f) : f.OfName name.toList := by
  unfold route at h
  split at h
  · cases h
    exact Or.inr ⟨rfl, ‹_›⟩
  · split at h
    · cases h
      exact Or.inl rfl
    · split at h <;> cases h
      exact Or.inl rfl

theorem find_error {name : String} (h : d.find name = .error f) : f.OfName name.toList := by
  unfold find at h
  rcases bind_eq_error.1 h with hroute | ⟨⟨start, parts⟩, -, h⟩
  · exact route_error hroute
  rcases bind_eq_error.1 h with hlocate | ⟨p, -, h⟩
  · exact Or.inl (locate_error hlocate)
  · split at h <;> cases h
    exact Or.inl rfl

theorem place_error {name : String} (h : d.place name = .error f) : f.OfName name.toList := by
  unfold place at h
  rcases bind_eq_error.1 h with hroute | ⟨⟨start, parts⟩, -, h⟩
  · exact route_error hroute
  · dsimp only at h
    split at h
    · rcases bind_eq_error.1 h with hfollow | ⟨here, -, h⟩
      · exact Or.inl (follow_error hfollow)
      · cases h
        exact Or.inl rfl
    · exact Or.inl (locate_error h)

end Folder

theorem Desk.openMatlab_error {batch : Bool} {name : String} {d : Desk} {f : Fault}
    (h : d.openMatlab batch name = .error f) : f.OfName name.toList := by
  unfold openMatlab Folder.create at h
  rcases bind_eq_error.1 h with h | ⟨folder, -, h⟩
  · rcases bind_eq_error.1 h with hplace | ⟨p, -, h⟩
    · exact Folder.place_error hplace
    · cases h
  · cases h

/-! ## Lines that end a walk -/

namespace SourceLine

/-- What stands on a line behind its mark. -/
def body : SourceLine → List Char
  | .text => []
  | .brokenOpener => []
  | .comment => []
  | .function tail => tail
  | .include name => name
  | .redirect target => target
  | .code rest => rest
  | .opener => []
  | .declaration body => body

/-- Whether a block of C is open after a line. -/
def opensBlock (inBlock : Bool) (l : List Char) : Bool :=
  if inBlock then !isCloser l else decide (classify (indent l).2 = .opener)

theorem mem_of_mem_dropEnd {p : Char → Bool} {c : Char} {cs : List Char}
    (h : c ∈ Text.dropEnd p cs) : c ∈ cs := by
  unfold Text.dropEnd at h
  rw [List.mem_reverse] at h
  exact List.mem_reverse.1 ((List.dropWhile_sublist p).subset h)

theorem mem_of_mem_trim {c : Char} {cs : List Char} (h : c ∈ Text.trim cs) : c ∈ cs :=
  (List.dropWhile_sublist _).subset (mem_of_mem_dropEnd h)

theorem mem_of_mem_after {word : String} {c : Char} {cs rest : List Char}
    (h : after? word cs = some rest) (hc : c ∈ rest) : c ∈ cs := by
  unfold after? at h
  split at h <;> cases h
  exact List.mem_of_mem_drop hc

theorem mem_of_mem_body {c : Char} {cs : List Char} (h : c ∈ (classify cs).body) : c ∈ cs := by
  unfold classify at h
  split at h
  · split at h <;> cases h
  · split at h
    · cases h
    · split at h
      · exact mem_of_mem_after ‹_› (mem_of_mem_dropEnd h)
      · split at h
        · exact mem_of_mem_after ‹_› (mem_of_mem_trim h)
        · split at h
          · exact List.mem_cons_of_mem _ (mem_of_mem_trim h)
          · exact List.mem_cons_of_mem _ h
          · exact List.mem_cons_of_mem _ (mem_of_mem_dropEnd h)
          · cases h

theorem mem_of_mem_indent {c : Char} {l : List Char} (h : c ∈ (indent l).2) : c ∈ l :=
  (List.dropWhile_sublist _).subset h

theorem mem_of_mem_functionFile {c : Char} {tail : List Char} (h : c ∈ functionFile tail) :
    c ∈ tail ∨ c ∈ ['.', 'm'] := by
  rcases List.mem_append.1 h with h | h
  · have hbefore := (List.dropWhile_sublist _).subset
      ((List.takeWhile_sublist _).subset (List.mem_reverse.1 h))
    exact Or.inl ((List.takeWhile_sublist _).subset (List.mem_reverse.1 hbefore))
  · exact Or.inr h

end SourceLine

namespace Walk

variable {ρ : Type} {m : WalkMode ρ} {inc : String → Walk ρ → Walk ρ}

/-- Still going, or ended with status 1, or broken off at a name with a null character from `l`. -/
def Quits (l : List Char) (w : Walk ρ) : Prop :=
  w.halt = none ∨ w.halt = some (.exit 1) ∨ w.halt = some (.fault .brokenName) ∧ '\x00' ∈ l

theorem quits_refused {name l : List Char} {f : Fault} (h : f.OfName name)
    (hname : '\x00' ∈ name → '\x00' ∈ l) (n : Notice) (w : Walk ρ) :
    (if f.ofFile then w.stop n else w.fail f).Quits l := by
  split
  · exact Or.inr (Or.inl rfl)
  · rcases h with h | ⟨rfl, hnull⟩
    · contradiction
    · exact Or.inr (Or.inr ⟨rfl, hname hnull⟩)

theorem quits_openBatch {name : String} {l : List Char} (hname : '\x00' ∈ name.toList → '\x00' ∈ l)
    {w : Walk ρ} (hhalt : w.halt = none) : (w.openBatch name).Quits l := by
  unfold openBatch
  split
  · exact Or.inl hhalt
  · exact quits_refused (Desk.openMatlab_error ‹_›) hname _ w

theorem Quits.andThen {l : List Char} {f : Walk ρ → Walk ρ} {w : Walk ρ} (h : w.Quits l)
    (hf : ∀ v : Walk ρ, v.halt = none → (f v).halt = none) : (w.andThen f).Quits l := by
  unfold Walk.andThen
  split
  · exact h
  · rename_i hgoes
    exact Or.inl (hf w (by simpa using hgoes))

theorem quits_functionLine {tail l : List Char} (htail : '\x00' ∈ tail → '\x00' ∈ l) {w : Walk ρ}
    (hhalt : w.halt = none) : (w.functionLine m tail).Quits l := by
  have hname : '\x00' ∈ (String.ofList (SourceLine.functionFile tail)).toList → '\x00' ∈ l := by
    intro h
    rw [String.toList_ofList] at h
    rcases SourceLine.mem_of_mem_functionFile h with h | h
    · exact htail h
    · exact absurd h (by decide)
  unfold functionLine
  refine Quits.andThen ?_ fun v hv => ?_
  · split
    · exact quits_openBatch hname hhalt
    · exact Or.inl hhalt
  · dsimp only
    split <;> exact hv

theorem quits_redirectLine {target : String} {l : List Char}
    (htarget : '\x00' ∈ target.toList → '\x00' ∈ l) {w : Walk ρ} (hhalt : w.halt = none) :
    (w.redirectLine m target).Quits l := by
  unfold redirectLine
  refine Quits.andThen ?_ fun v hv => ?_
  · dsimp only
    split
    · split
      · exact Or.inl hhalt
      · exact quits_openBatch htarget hhalt
    · exact Or.inl hhalt
  · dsimp only
    split <;> exact hv

theorem halt_feedAll (ts : List Token) (w : Walk ρ) :
    (ts.foldl (fun w t => w.feed m t) w).halt = w.halt := by
  induction ts generalizing w with
  | nil => rfl
  | cons t ts ih => exact ih (w.feed m t)

theorem null_of_body {l : List Char}
    (h : '\x00' ∈ (SourceLine.classify (SourceLine.indent l).2).body) : '\x00' ∈ l :=
  SourceLine.mem_of_mem_indent (SourceLine.mem_of_mem_body h)

theorem null_of_included {l : List Char} {name : String} {w : Walk ρ}
    (h : w.included? l = some name) (hnull : '\x00' ∈ name.toList) : '\x00' ∈ l := by
  unfold included? at h
  split at h
  · cases h
  · split at h <;> cases h
    rename_i hc
    rw [String.toList_ofList] at hnull
    exact null_of_body (by rwa [hc])

theorem quits_takeLine {l : List Char} {w : Walk ρ} (hhalt : w.halt = none)
    (hinc : w.included? l = none) : (w.takeLine m inc l).Quits l := by
  unfold takeLine
  split
  · unfold blockLine
    dsimp only
    split <;> exact Or.inl hhalt
  · rw [included?, if_neg ‹_›] at hinc
    have hnull := null_of_body (l := l)
    unfold openLine
    dsimp only
    cases hc : SourceLine.classify (SourceLine.indent l).2 with
    | text => exact Or.inl hhalt
    | brokenOpener => exact Or.inl hhalt
    | comment => exact Or.inl hhalt
    | function tail =>
      rw [hc] at hnull
      exact quits_functionLine hnull hhalt
    | «include» name =>
      rw [hc] at hinc
      cases hinc
    | redirect target =>
      rw [hc] at hnull
      exact quits_redirectLine (fun h => hnull (by rwa [String.toList_ofList] at h)) hhalt
    | code c => exact Or.inl hhalt
    | opener => exact Or.inl hhalt
    | declaration body => exact Or.inl ((halt_feedAll _ _).trans hhalt)

/-- Outside batches a head line goes to the output that is open. -/
theorem functionLine_eq (hm : m.batching = false) {w : Walk ρ} (hhalt : w.halt = none)
    (tail : List Char) :
    w.functionLine m tail =
      ((if m.listing then w.onDesk (.print (String.ofList (SourceLine.functionFile tail)))
        else w).onDesk (.writeMatlab ("function" ++ String.ofList tail ++ "\n"))).passLine m := by
  unfold functionLine
  rw [hm]
  exact andThen_of_goes hhalt

theorem redirectLine_eq (hm : m.batching = false) {w : Walk ρ} (hhalt : w.halt = none)
    (target : String) :
    w.redirectLine m target =
      (if m.listing && target ≠ "" then w.onDesk (.print target) else w).passLine m := by
  unfold redirectLine
  rw [hm]
  exact andThen_of_goes hhalt

theorem inBlock_print (p : Bool) (name : String) (w : Walk ρ) :
    (if p then w.onDesk (.print name) else w).inBlock = w.inBlock := by
  split <;> rfl

theorem inBlock_feedAll (ts : List Token) (w : Walk ρ) :
    (ts.foldl (fun w t => w.feed m t) w).inBlock = w.inBlock := by
  induction ts generalizing w with
  | nil => rfl
  | cons t ts ih => exact ih (w.feed m t)

/-- **Outside batches no line ends the walk** but one that includes a file, and whether a block is open
depends on the lines alone. -/
theorem goes_takeLine {l : List Char} {w : Walk ρ} (inc : String → Walk ρ → Walk ρ)
    (hm : m.batching = false) (hhalt : w.halt = none) (hinc : w.included? l = none) :
    (w.takeLine m inc l).halt = none ∧
      (w.takeLine m inc l).inBlock = SourceLine.opensBlock w.inBlock l := by
  unfold takeLine SourceLine.opensBlock
  split
  · unfold blockLine
    dsimp only
    cases SourceLine.isCloser l
    · exact ⟨hhalt, ‹_›⟩
    · exact ⟨hhalt, rfl⟩
  · rename_i hopen
    have hblock : w.inBlock = false := by simpa using hopen
    rw [included?, if_neg hopen] at hinc
    unfold openLine
    dsimp only
    -- Outside batches nothing is opened, so directing the output cannot fail.
    cases hc : SourceLine.classify (SourceLine.indent l).2 with
    | text => exact ⟨hhalt, hblock⟩
    | brokenOpener => exact ⟨hhalt, hblock⟩
    | comment => exact ⟨hhalt, hblock⟩
    | function tail =>
      change ((w.indented l).functionLine m tail).halt = none ∧
        ((w.indented l).functionLine m tail).inBlock = false
      rw [functionLine_eq hm (w := w.indented l) hhalt]
      exact ⟨(print_beside ..).2.trans hhalt, (inBlock_print ..).trans hblock⟩
    | «include» name =>
      rw [hc] at hinc
      cases hinc
    | redirect target =>
      change ((w.indented l).redirectLine m (String.ofList target)).halt = none ∧
        ((w.indented l).redirectLine m (String.ofList target)).inBlock = false
      rw [redirectLine_eq hm (w := w.indented l) hhalt]
      exact ⟨(print_beside ..).2.trans hhalt, (inBlock_print ..).trans hblock⟩
    | code c => exact ⟨hhalt, hblock⟩
    | opener => exact ⟨hhalt, rfl⟩
    | declaration body =>
      exact ⟨(halt_feedAll _ _).trans hhalt, (inBlock_feedAll _ _).trans hblock⟩

end Walk

/-! ## Files that stay as they are -/

namespace Desk

/-- The files that outputs are open for. -/
def written (d : Desk) : List Folder.Path := d.outputs.filterMap (·.file)

/-- The same files, and outputs open for the same ones. -/
structure Alike (d d' : Desk) : Prop where
  folder : d'.folder = d.folder
  outputs : d'.outputs.map (·.file) = d.outputs.map (·.file)

variable {d d' d'' : Desk}

theorem Alike.refl (d : Desk) : d.Alike d := ⟨rfl, rfl⟩

theorem Alike.trans (h : d.Alike d') (h' : d'.Alike d'') : d.Alike d'' :=
  ⟨h'.folder.trans h.folder, h'.outputs.trans h.outputs⟩

theorem alike_writeMatlab (s : String) (d : Desk) : d.Alike (d.writeMatlab s) := by
  refine ⟨rfl, ?_⟩
  unfold writeMatlab outputs
  cases d.matlab <;> rfl

theorem alike_writeC (s : String) (d : Desk) : d.Alike (d.writeC s) := by
  refine ⟨rfl, ?_⟩
  unfold writeC outputs
  cases d.c <;> simp [Sheet.write]

theorem alike_nextLine (d : Desk) : d.Alike d.nextLine := ⟨rfl, rfl⟩

theorem Alike.written (h : d.Alike d') : d'.written = d.written := by
  have := congrArg (List.filterMap id) h.outputs
  rwa [List.filterMap_map, List.filterMap_map] at this

theorem get?_landAll {p : Folder.Path} {os : List Sheet} (h : p ∉ os.filterMap (·.file))
    (files : Folder) : (Sheet.landAll os files).get? p = files.get? p := by
  induction os generalizing files with
  | nil => rfl
  | cons o os ih =>
    have hland : (o.land files).get? p = files.get? p := by
      unfold Sheet.land
      split
      · rename_i q hq
        refine Folder.get?_patch_of_ne (fun hp => h ?_) _ _ _
        simp [hp, hq]
      · rfl
    have hos : p ∉ os.filterMap (·.file) := by
      intro hp
      obtain ⟨o', ho', hfile⟩ := List.mem_filterMap.1 hp
      exact h (List.mem_filterMap.2 ⟨o', List.mem_cons_of_mem _ ho', hfile⟩)
    exact (ih hos _).trans hland

/-- A file that no output is for is read as it lies. -/
theorem bytesFrom_current {p : Folder.Path} (h : p ∉ d.written) (offset : Nat) :
    d.current.bytesFrom p offset = d.folder.bytesFrom p offset := by
  unfold Folder.bytesFrom current
  rw [get?_landAll h]

end Desk

/-- Nothing that is done with files depends on the source: no output is opened or closed. -/
structure WalkMode.Tidy {ρ : Type} (m : WalkMode ρ) : Prop where
  batching : m.batching = false
  feed : ∀ (t : Token) (r : ρ) (d : Desk), d.Alike (m.feed t r d).2

/-- Keeps all tokens. -/
def collector (listing : Bool) : WalkMode (List Token) :=
  { listing := listing, feed := fun t ts d => (ts ++ [t], d) }

theorem collector_tidy (listing : Bool) : (collector listing).Tidy := ⟨rfl, fun _ _ d => .refl d⟩

namespace Walk

variable {ρ : Type} {m : WalkMode ρ} {inc : String → Walk ρ → Walk ρ}

theorem alike_indented (l : List Char) (w : Walk ρ) : w.desk.Alike (w.indented l).desk :=
  Desk.alike_writeMatlab _ _

theorem alike_feed (hm : m.Tidy) (t : Token) (w : Walk ρ) : w.desk.Alike (w.feed m t).desk :=
  hm.feed t w.reader w.desk

theorem alike_passLine (hm : m.Tidy) {d : Desk} {w : Walk ρ} (h : d.Alike w.desk) :
    d.Alike (w.passLine m).desk :=
  (h.trans w.desk.alike_nextLine).trans (alike_feed hm _ (w.onDesk .nextLine))

theorem alike_feedAll (hm : m.Tidy) (ts : List Token) (w : Walk ρ) :
    w.desk.Alike (ts.foldl (fun w t => w.feed m t) w).desk := by
  induction ts generalizing w with
  | nil => exact .refl _
  | cons t ts ih => exact (alike_feed hm t w).trans (ih _)

theorem alike_andThen {f : Walk ρ → Walk ρ} (hf : ∀ w : Walk ρ, w.desk.Alike (f w).desk)
    (w : Walk ρ) : w.desk.Alike (w.andThen f).desk := by
  unfold andThen
  split
  · exact .refl _
  · exact hf w

theorem alike_print (b : Bool) (name : String) (w : Walk ρ) :
    w.desk.Alike (if b then w.onDesk (.print name) else w).desk := by
  split <;> exact ⟨rfl, rfl⟩

theorem alike_functionLine (hm : m.Tidy) (tail : List Char) (w : Walk ρ) :
    w.desk.Alike (w.functionLine m tail).desk := by
  unfold functionLine
  rw [hm.batching]
  refine alike_andThen (fun v => ?_) w
  exact alike_passLine hm ((alike_print _ _ v).trans (Desk.alike_writeMatlab _ _))

theorem alike_redirectLine (hm : m.Tidy) (target : String) (w : Walk ρ) :
    w.desk.Alike (w.redirectLine m target).desk := by
  unfold redirectLine
  rw [hm.batching]
  refine alike_andThen (fun v => ?_) w
  exact alike_passLine hm (alike_print _ _ v)

/-- A line that includes no file leaves all files as they are. -/
theorem alike_takeLine (hm : m.Tidy) {l : List Char} {w : Walk ρ} (hinc : w.included? l = none) :
    w.desk.Alike (w.takeLine m inc l).desk := by
  unfold takeLine
  split
  · unfold blockLine
    dsimp only
    split
    · exact ⟨rfl, rfl⟩
    · exact w.desk.alike_nextLine.trans (Desk.alike_writeC _ _)
  · rw [included?, if_neg ‹_›] at hinc
    have hindent := alike_indented l w
    unfold openLine
    dsimp only
    cases hc : SourceLine.classify (SourceLine.indent l).2 with
    | text => exact alike_passLine hm (Desk.alike_writeMatlab _ _)
    | brokenOpener => exact alike_passLine hm (hindent.trans (Desk.alike_writeMatlab _ _))
    | comment => exact alike_passLine hm hindent
    | function tail => exact hindent.trans (alike_functionLine hm tail _)
    | «include» name =>
      rw [hc] at hinc
      cases hinc
    | redirect target => exact hindent.trans (alike_redirectLine hm _ _)
    | code c => exact alike_passLine hm (hindent.trans (Desk.alike_writeC _ _))
    | opener => exact hindent.trans ⟨rfl, rfl⟩
    | declaration body => exact (hindent.trans (alike_feedAll hm _ _)).trans ⟨rfl, rfl⟩

end Walk

namespace Reading

variable {ρ : Type} {m : WalkMode ρ} {s s' : Reading ρ}

/-! ## What a step does -/

/-- The reading after the next line is taken off, and with the walk at `w`. -/
def past (s : Reading ρ) (rest : List (List Char)) (w : Walk ρ) : Reading ρ :=
  { s with walk := w, source := { s.source with unread := rest } }

/-- The file that is left where it is, to be gone on with later. -/
def waiting (s : Reading ρ) : WaitingFile :=
  { source := s.source, file := s.walk.desk.file, line := s.walk.desk.line }

/-- One step and what it depends on. -/
inductive Moved (m : WalkMode ρ) (s : Reading ρ) : Reading ρ → Prop
  | line {l : List Char} {rest : List (List Char)} (hunread : s.source.unread = l :: rest)
      (hinc : s.walk.included? l = none) :
      Moved m s (s.past rest (s.walk.takeLine m (fun _ w => w) l))
  | tooDeep {l : List Char} {rest : List (List Char)} {name : String}
      (hunread : s.source.unread = l :: rest) (hinc : s.walk.included? l = some name)
      (hfull : Walk.maxDepth ≤ s.stack.length) :
      Moved m s (s.past rest ((s.walk.indented l).stop .tooDeep))
  | refused {l : List Char} {rest : List (List Char)} {name : String} {f : Fault}
      (hunread : s.source.unread = l :: rest) (hinc : s.walk.included? l = some name)
      (hroom : s.stack.length < Walk.maxDepth)
      (hfind : (s.walk.indented l).desk.current.find name = .error f) :
      Moved m s
        { s.past rest (if f.ofFile then (s.walk.indented l).stop (.cannotInclude name)
            else (s.walk.indented l).fail f) with
          stack := (s.past rest (s.walk.indented l)).waiting :: s.stack }
  | entered {l : List Char} {rest : List (List Char)} {name : String} {p : Folder.Path}
      (hunread : s.source.unread = l :: rest) (hinc : s.walk.included? l = some name)
      (hroom : s.stack.length < Walk.maxDepth)
      (hfind : (s.walk.indented l).desk.current.find name = .ok p) :
      Moved m s
        { walk := (s.walk.indented l).onDesk (.moveTo name 1)
          source := .ofBytes p ((s.walk.indented l).desk.current.bytesFrom p 0)
          stack := (s.past rest (s.walk.indented l)).waiting :: s.stack }
  | returned {f : WaitingFile} {fs : List WaitingFile} (hunread : s.source.unread = [])
      (htext : s.source.isText = true) (hstack : s.stack = f :: fs) :
      Moved m s { walk := s.walk.onDesk (.moveTo f.file f.line), source := f.source, stack := fs }
  | notText (hunread : s.source.unread = []) (htext : s.source.isText = false) :
      Moved m s { s with walk := s.walk.fail .notText }

theorem moved_of_step (h : s.step m = some s') : s.walk.halt = none ∧ Moved m s s' := by
  unfold step at h
  split at h
  · cases h
  rename_i hgoes
  refine ⟨by simpa using hgoes, ?_⟩
  split at h
  · rename_i hunread
    split at h
    · cases h
      exact .notText hunread (by simpa using ‹(!s.source.isText) = true›)
    · rename_i htext
      split at h <;> cases h
      exact .returned hunread (by simpa using htext) ‹_›
  · rename_i l rest hunread
    dsimp only at h
    split at h
    · rename_i name hinc
      cases h
      unfold enter
      split
      · exact .tooDeep hunread hinc ‹_›
      · rename_i hroom
        have hroom : s.stack.length < Walk.maxDepth := Nat.lt_of_not_le hroom
        dsimp only
        split
        · exact .refused hunread hinc hroom ‹_›
        · exact .entered hunread hinc hroom ‹_›
    · rename_i hinc
      cases h
      exact .line hunread hinc

/-- **A file that is open after a step was open before,** or is opened by it. -/
theorem opened_of_moved (h : Moved m s s') {f : OpenFile} (hf : f ∈ s'.opened) :
    (∃ g ∈ s.opened, f.path = g.path ∧ f.held = g.held ∧ f.unread <:+ g.unread) ∨
      f = .ofBytes f.path (s'.walk.desk.current.bytesFrom f.path 0) := by
  -- The file being read, with the next line taken off.
  have hnext : ∀ {l rest}, s.source.unread = l :: rest →
      ∃ g ∈ s.opened, s.source.path = g.path ∧ s.source.held = g.held ∧ rest <:+ g.unread := by
    intro l rest hunread
    exact ⟨s.source, by simp [opened], rfl, rfl, hunread ▸ List.suffix_cons ..⟩
  have hold : ∀ {g}, g ∈ s.opened →
      ∃ g' ∈ s.opened, g.path = g'.path ∧ g.held = g'.held ∧ g.unread <:+ g'.unread :=
    fun hg => ⟨_, hg, rfl, rfl, List.suffix_refl _⟩
  have hstack : ∀ {g}, g ∈ s.stack.map (·.source) → g ∈ s.opened := List.mem_cons_of_mem _
  cases h with
  | line hunread hinc =>
    rcases List.mem_cons.1 hf with rfl | hf
    · exact Or.inl (hnext hunread)
    · exact Or.inl (hold (hstack hf))
  | tooDeep hunread hinc hfull =>
    rcases List.mem_cons.1 hf with rfl | hf
    · exact Or.inl (hnext hunread)
    · exact Or.inl (hold (hstack hf))
  | refused hunread hinc hroom hfind =>
    rcases List.mem_cons.1 hf with rfl | hf
    · exact Or.inl (hnext hunread)
    · rcases List.mem_cons.1 hf with rfl | hf
      · exact Or.inl (hnext hunread)
      · exact Or.inl (hold (hstack hf))
  | entered hunread hinc hroom hfind =>
    rcases List.mem_cons.1 hf with rfl | hf
    · exact Or.inr rfl
    · rcases List.mem_cons.1 hf with rfl | hf
      · exact Or.inl (hnext hunread)
      · exact Or.inl (hold (hstack hf))
  | returned hunread htext hwaiting =>
    refine Or.inl (hold (hstack ?_))
    rw [hwaiting]
    exact hf
  | notText hunread htext => exact Or.inl (hold hf)

/-! ## What holds all along -/

/-- Why reading may have ended, unless at the end of the file. -/
def Halted (s : Reading ρ) : Prop :=
  s.walk.halt = some (.exit 1) ∨
    s.walk.halt = some (.fault .notText) ∧ s.source.isText = false ∨
    s.walk.halt = some (.fault .brokenName) ∧ ∃ l ∈ (Text.read s.source.held).1, '\x00' ∈ l

structure Sound (s : Reading ρ) : Prop where
  depth : s.stack.length ≤ Walk.maxDepth
  unread : ∀ f ∈ s.opened, f.unread <:+ (Text.read f.held).1
  halted : s.walk.halt = none ∨ s.Halted

theorem sound_start (name : String) (p : Folder.Path) {w : Walk ρ} (hhalt : w.halt = none) :
    (start name p w).Sound where
  depth := Nat.zero_le _
  unread := by
    intro f hf
    rw [List.mem_singleton.1 hf]
    exact List.suffix_refl _
  halted := Or.inl hhalt

/-- A walk that quits at the next line has a reason to. -/
theorem halted_of_quits (hs : s.Sound) {l : List Char} {rest : List (List Char)}
    (hunread : s.source.unread = l :: rest) {w : Walk ρ} (hquits : w.Quits l)
    (stack : List WaitingFile) :
    w.halt = none ∨ Halted { s.past rest w with stack := stack } := by
  have hmem : l ∈ (Text.read s.source.held).1 :=
    (hs.unread s.source (by simp [opened])).subset (by simp [hunread])
  rcases hquits with h | h | ⟨h, hnull⟩
  · exact Or.inl h
  · exact Or.inr (Or.inl h)
  · exact Or.inr (Or.inr (Or.inr ⟨h, l, hmem, hnull⟩))

theorem Sound.step (hs : s.Sound) (h : s.step m = some s') : s'.Sound := by
  obtain ⟨hgoes, hmoved⟩ := moved_of_step h
  refine ⟨?_, ?_, ?_⟩
  · have hdepth := hs.depth
    cases hmoved with
    | line hunread hinc => exact hdepth
    | tooDeep hunread hinc hfull => exact hdepth
    | refused hunread hinc hroom hfind => exact hroom
    | entered hunread hinc hroom hfind => exact hroom
    | returned hunread htext hstack =>
      rw [hstack, List.length_cons] at hdepth
      exact Nat.le_of_succ_le hdepth
    | notText hunread htext => exact hdepth
  · intro f hf
    rcases opened_of_moved hmoved hf with ⟨g, hg, -, hheld, hunread⟩ | hnew
    · rw [hheld]
      exact hunread.trans (hs.unread g hg)
    · rw [hnew]
      exact List.suffix_refl _
  · cases hmoved with
    | line hunread hinc => exact halted_of_quits hs hunread (Walk.quits_takeLine hgoes hinc) _
    | tooDeep hunread hinc hfull => exact Or.inr (Or.inl rfl)
    | refused hunread hinc hroom hfind =>
      refine halted_of_quits hs hunread (Walk.quits_refused (Folder.find_error hfind) ?_ _ _) _
      exact Walk.null_of_included hinc
    | entered hunread hinc hroom hfind => exact Or.inl hgoes
    | returned hunread htext hstack => exact Or.inl hgoes
    | notText hunread htext => exact Or.inr (Or.inr (Or.inl ⟨rfl, htext⟩))

theorem Sound.runs (hs : s.Sound) (h : Runs m s s') : s'.Sound := by
  induction h with
  | refl => exact hs
  | tail _ hstep ih => exact ih.step hstep

/-- Every run leads on to the end. -/
theorem runs_to_end {t : Reading ρ} (hs : Runs m s s') (hend : s'.step m = none) (ht : Runs m s t) :
    Runs m t s' := by
  have hunique : Relator.RightUnique fun s s' : Reading ρ => s.step m = some s' :=
    fun s t u ht hu => Option.some.inj (ht.symm.trans hu)
  rcases Relation.ReflTransGen.total_of_right_unique hunique ht hs with h | h
  · exact h
  · cases h.cases_head with
    | inl h => exact h ▸ .refl
    | inr h =>
      obtain ⟨u, hstep, -⟩ := h
      rw [hend] at hstep
      cases hstep

/-! ## Readings that change no file -/

theorem alike_of_moved (hm : m.Tidy) (h : Moved m s s') : s.walk.desk.Alike s'.walk.desk := by
  cases h with
  | line hunread hinc => exact Walk.alike_takeLine hm hinc
  | tooDeep hunread hinc hfull => exact (Walk.alike_indented _ _).trans ⟨rfl, rfl⟩
  | @refused l rest name f hunread hinc hroom hfind =>
    refine (Walk.alike_indented l s.walk).trans ?_
    unfold past
    dsimp only
    split <;> exact ⟨rfl, rfl⟩
  | entered hunread hinc hroom hfind => exact (Walk.alike_indented _ _).trans ⟨rfl, rfl⟩
  | returned hunread htext hstack => exact ⟨rfl, rfl⟩
  | notText hunread htext => exact ⟨rfl, rfl⟩

theorem alike_runs (hm : m.Tidy) (h : Runs m s s') : s.walk.desk.Alike s'.walk.desk := by
  induction h with
  | refl => exact .refl _
  | tail _ hstep ih => exact ih.trans (alike_of_moved hm (moved_of_step hstep).2)

/-- No file is read while it is written. -/
def Apart (s : Reading ρ) : Prop := ∀ f ∈ s.opened, f.path ∉ s.walk.desk.written

theorem apart_of_unwritten (hm : m.Tidy) (hs : s.walk.desk.written = []) (h : Runs m s s') :
    s'.Apart := by
  intro f _
  rw [(alike_runs hm h).written, hs]
  exact List.not_mem_nil

theorem steady_start (name : String) (p : Folder.Path) (w : Walk ρ) : (start name p w).Steady := by
  intro f hf
  rw [List.mem_singleton.1 hf]
  rfl

theorem steady_step (hm : m.Tidy) (hs : s.Steady) (hapart : s.Apart) (hapart' : s'.Apart)
    (h : s.step m = some s') : s'.Steady := by
  intro f hf
  have hmoved := (moved_of_step h).2
  rcases opened_of_moved hmoved hf with ⟨g, hg, hpath, hheld, -⟩ | hnew
  · have hthen : s.walk.desk.current.bytesFrom g.path 0 = g.held := hs g hg
    rw [Desk.bytesFrom_current (hapart g hg)] at hthen
    rw [Desk.bytesFrom_current (hapart' f hf), (alike_of_moved hm hmoved).folder, hpath, hheld]
    exact hthen
  · exact (congrArg OpenFile.held hnew).symm

/-- **Files that are not written to do not change.** -/
theorem steady_runs (hm : m.Tidy) (hs : s.Steady) (hapart : ∀ t, Runs m s t → t.Apart)
    (h : Runs m s s') : s'.Steady := by
  induction h with
  | refl => exact hs
  | tail hrun hstep ih =>
    exact steady_step hm ih (hapart _ hrun) (hapart _ (hrun.tail hstep)) hstep

/-! ## The end -/

/-- **Reading always ends.** From the start of any file, whatever it includes, in cycles too, the steps
lead to one last state, at which there is no further step. At most ten files wait on the way. The last
state is the end of that file, or a refusal with status 1; and only if the file being read is not a text
to its end, or if one of its lines holds a null character, it may be a fault. As long as no file
changes while it is open, the walk has then come to where it comes to by itself. -/
theorem reading_ends {ρ : Type} (m : WalkMode ρ) {name : String} {p : Folder.Path} {w : Walk ρ}
    (hhalt : w.halt = none) (hfind : w.desk.current.find name = .ok p) :
    ∃ s, Runs m (start name p w) s ∧ s.step m = none ∧
      (∀ t, Runs m (start name p w) t → t.stack.length ≤ 10 ∧ Runs m t s) ∧
      (s.walk.halt = none ∧ s.source.path = p ∧ s.source.unread = [] ∧ s.stack = [] ∨
        s.walk.halt = some (.exit 1) ∨
        s.walk.halt = some (.fault .notText) ∧ s.source.isText = false ∨
        s.walk.halt = some (.fault .brokenName) ∧
          ∃ l ∈ (Text.read s.source.held).1, '\x00' ∈ l) ∧
      ((∀ t, Runs m (start name p w) t → t.Steady) → w.file m name = s.walk) := by
  obtain ⟨s, hrun, hend, hgoes, hwalk⟩ := runs_file m hhalt hfind
  have hstart := sound_start name p hhalt
  refine ⟨s, hrun, hend, fun t ht => ⟨(hstart.runs ht).depth, runs_to_end hrun hend ht⟩, ?_,
    fun hsteady => (hwalk hsteady).symm⟩
  rcases (hstart.runs hrun).halted with h | h
  · exact Or.inl ⟨h, hgoes h⟩
  · exact Or.inr h

/-- Two files that include each other. -/
def cyclicFolder : Folder :=
  { files := [(["main.mw"], "@include a.mw\n".toUTF8), (["a.mw"], "x\n@include main.mw\n".toUTF8)] }

/-- Reading either of them ends with status 1, after the other one was come to five times. -/
theorem reading_ends_cyclic :
    let m := collector false
    let w : Walk (List Token) := { desk := { folder := cyclicFolder }, reader := [] }
    ∃ s, Runs m (start "main.mw" ["main.mw"] w) s ∧ s.step m = none ∧ s.stack.length ≤ 10 ∧
      s.walk.halt = some (.exit 1) ∧ s.walk.reader = List.replicate 5 (.otherLine 1) ∧
      w.file m "main.mw" = s.walk := by
  intro m w
  obtain ⟨s, hrun, hend, hall, -, hwalk⟩ :=
    reading_ends m (w := w) rfl (show w.desk.current.find "main.mw" = .ok ["main.mw"] from rfl)
  have hfile := hwalk fun t ht => steady_runs (collector_tidy false) (steady_start _ _ w)
    (fun t ht => apart_of_unwritten (collector_tidy false) rfl ht) ht
  refine ⟨s, hrun, hend, (hall s hrun).1, ?_, ?_, hfile⟩
  · rw [← hfile]
    decide +kernel
  · rw [← hfile]
    decide +kernel

/-- A file whose first byte starts no character. -/
def noTextFolder : Folder := { files := [(["main.mw"], ⟨#[0xff, 0x0a]⟩)] }

/-- Reading it comes neither to its end nor to a refusal with status 1. -/
theorem reading_breaks_off :
    let w : Walk (List Token) := { desk := { folder := noTextFolder }, reader := [] }
    (w.file (collector false) "main.mw").halt = some (.fault .notText) := by
  decide +kernel

end Reading

end MexBridge
