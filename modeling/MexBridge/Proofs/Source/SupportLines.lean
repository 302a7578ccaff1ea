import MexBridge.Command.Run
import MexBridge.Proofs.Source.Routing
import MexBridge.Proofs.Source.Script

/-!
# Lines of C in a source

A line that starts with `$` is a line of C. It goes to the C output without its mark, and the
blanks before the mark go to the MATLAB output, unless the line starts with `$[`: such a line opens
a block if nothing but blanks follows, and else it is copied to the MATLAB output as a whole, with
its blanks twice, and the C output gets nothing (`Walk.support_line_iff`). `Walk.Meets` says which
lines a walk through a file comes to, those of included files among them.
-/

namespace MexBridge

open SourceLine

/-! ## Marks of C -/

namespace SourceLine

variable {l : List Char}

/-- A line that starts with `$` and opens no block. -/
def isSupport (l : List Char) : Bool := hasMark "$" l && !opensC l

/-- What a line of C is taken for. -/
theorem classify_support (hline : IsLine l) (h : isSupport l = true) :
    classify (indent l).2 = if hasMark "$[" l then .brokenOpener else .code (behind "$" l) := by
  obtain ⟨hmark, hopens⟩ : hasMark "$" l = true ∧ opensC l = false := by
    simpa [isSupport] using h
  have hfit : Fits (l.dropWhile isIndent) (classify (indent l).2) := fits_classify _
  have hother {c : Char} {rest : List Char} (hrest : l.dropWhile isIndent = c :: rest)
      (hne : '$' ≠ c) : False := by
    have hnot : hasMark "$" l = false := hasMark_other rfl hrest hne
    rw [hnot] at hmark
    cases hmark
  generalize classify (indent l).2 = k at hfit ⊢
  cases k with
  | text =>
    rw [show hasMark "$" l = false from hfit "$" (by simp)] at hmark
    cases hmark
  | brokenOpener =>
    obtain ⟨rest, hrest, -⟩ := hfit
    rw [if_pos (hasMark_append "$[" hrest).1]
  | comment =>
    obtain ⟨rest, hrest⟩ := hfit
    exact (hother hrest (by decide)).elim
  | function tail =>
    obtain ⟨rest, hrest, -⟩ := hfit
    exact (hother hrest (by decide)).elim
  | «include» name =>
    obtain ⟨rest, hrest⟩ := List.isPrefixOf_iff_prefix.1 hfit
    exact (hother hrest.symm (by decide)).elim
  | redirect target =>
    obtain ⟨⟨rest, hrest⟩, -⟩ := hfit
    exact (hother hrest (by decide)).elim
  | code rest =>
    obtain ⟨hrest, hnot⟩ := hfit
    rw [if_neg (by rw [show hasMark "$[" l = false from hnot]; simp), (hasMark_append "$" hrest).2]
  | opener =>
    obtain ⟨rest, hrest, hempty⟩ := hfit
    obtain ⟨hbracket, hbehind⟩ := hasMark_append "$[" hrest
    have hsuffix : IsLine rest := by
      refine IsLine.suffix (a := l.takeWhile isIndent ++ "$[".toList) ?_
      rwa [List.append_assoc, ← hrest, List.takeWhile_append_dropWhile]
    rw [opensC, hbracket, hbehind, ← isEmptyRest_eq hsuffix, hempty] at hopens
    cases hopens
  | declaration body =>
    obtain ⟨rest, hrest, -⟩ := hfit
    exact (hother hrest (by decide)).elim

end SourceLine

/-! ## Lines that a walk comes to -/

theorem Text.IsLine.isLine {l : List Char} (h : Text.IsLine l) : SourceLine.IsLine l := by
  obtain ⟨x, rfl, hx⟩ := h
  rwa [SourceLine.IsLine, List.dropLast_concat]

/-- What is read in portions is read in lines. -/
theorem Text.isLine_completeLines (cs : List Char) :
    (∀ l ∈ (completeLines cs).1, SourceLine.IsLine l) ∧
      SourceLine.IsLine (unifyNewlines (completeLines cs).2) := by
  obtain ⟨ls, x, held, hcomplete, hls, hnewline, hreturn, hheld⟩ := completeLines_eq cs
  rw [hcomplete]
  refine ⟨fun l hl => (hls l hl).isLine, ?_⟩
  rcases hheld with ⟨rfl, -⟩ | ⟨rfl, -⟩
  · rw [List.append_nil, unifyNewlines_of_notMem hreturn]
    exact fun hmem => hnewline (List.dropLast_subset x hmem)
  · rw [unifyNewlines_concat, unifyNewlines_of_notMem hreturn, SourceLine.IsLine,
      List.dropLast_concat]
    exact hnewline

/-- The reader writes nothing at a line that is no declaration. -/
def WalkMode.Discreet {ρ : Type} (m : WalkMode ρ) : Prop :=
  ∀ (n : Int) (r : ρ) (d : Desk),
    (m.feed (.otherLine n) r d).2.matlab.map (·.text) = d.matlab.map (·.text) ∧
      (m.feed (.otherLine n) r d).2.c.map (·.text) = d.c.map (·.text)

theorem Command.discreet_walkMode (mex : String) (batching listing : Bool) :
    (walkMode mex batching listing).Discreet := by
  intro n l d
  have hquiet : (l.feed mex d.file (.otherLine n)).2.matlab = "" := by
    change (l.dropPending d.file n false).2.matlab = ""
    unfold Ledger.dropPending
    split <;> rfl
  refine ⟨?_, rfl⟩
  change ((d.report _).writeMatlab (l.feed mex d.file (.otherLine n)).2.matlab).matlab.map _ = _
  rw [hquiet]
  simp [Desk.writeMatlab, Desk.report, Sheet.write, Function.comp_def]

namespace Walk

variable {ρ : Type} {m : WalkMode ρ} {inc : String → Walk ρ → Walk ρ}

theorem isLine_nil : SourceLine.IsLine (Text.unifyNewlines []) := by
  simp [SourceLine.IsLine, Text.unifyNewlines]

theorem isLine_linesFrom (p : Folder.Path) (rounds offset : Nat) (left : Unread) (w : Walk ρ)
    (hleft : SourceLine.IsLine (Text.unifyNewlines left.text)) :
    ∀ l ∈ w.linesFrom m inc p rounds offset left, SourceLine.IsLine l := by
  induction rounds generalizing offset left w with
  | zero => simp [linesFrom]
  | succ rounds ih =>
    unfold linesFrom
    dsimp only
    split
    · split
      · simp
      · split
        · simp
        · exact List.forall_mem_append.2 ⟨by simpa using hleft, ih _ _ _ isLine_nil⟩
    · cases Text.decode (left.cut ++ w.desk.current.bytesFrom p offset) with
      | none => simp
      | some read =>
        obtain ⟨hls, hrest⟩ := Text.isLine_completeLines (left.text ++ read.1)
        exact List.forall_mem_append.2 ⟨hls, ih _ _ _ hrest⟩

/-- Of a file that is walked through from `u` on, the walk comes to the line `l` as `v`. -/
structure Reaches (m : WalkMode ρ) (inc : String → Walk ρ → Walk ρ) (p : Folder.Path) (u : Walk ρ)
    (l : List Char) (v : Walk ρ) : Prop where
  split : ∃ ls rest, u.linesOf m inc p = ls ++ l :: rest ∧ v = u.lines m inc ls
  goes : v.halt = none

/-- A walk through a file from `u` on comes to the line `l` as `v`, in the file or in one that is
included, with room for `r` more files inside each other. -/
inductive Meets (m : WalkMode ρ) (p : Folder.Path) (u : Walk ρ) : Nat → List Char → Walk ρ → Prop
  | line {l : List Char} {v : Walk ρ} (h : Reaches m (included m maxDepth) p u l v) :
      Meets m p u maxDepth l v
  | inside {r : Nat} {l l' : List Char} {v v' : Walk ρ} {name : String} {q : Folder.Path}
      (h : Meets m p u (r + 1) l v) (hname : v.included? l = some name)
      (hfind : (v.indented l).desk.current.find name = .ok q)
      (h' : Reaches m (included m r) q ((v.indented l).onDesk (.moveTo name 1)) l' v') :
      Meets m p u r l' v'

variable {p : Folder.Path} {u v : Walk ρ} {l : List Char} {r : Nat}

theorem Meets.goes (h : Meets m p u r l v) : v.halt = none := by
  cases h with
  | line h => exact h.goes
  | inside _ _ _ h' => exact h'.goes

theorem Reaches.isLine (h : Reaches m inc p u l v) : SourceLine.IsLine l := by
  obtain ⟨ls, rest, hlines, -⟩ := h.split
  have hall : ∀ l ∈ u.linesOf m inc p, SourceLine.IsLine l :=
    isLine_linesFrom p maxRounds 0 {} u isLine_nil
  exact hall l (by simp [hlines])

theorem Meets.isLine (h : Meets m p u r l v) : SourceLine.IsLine l := by
  cases h with
  | line h => exact h.isLine
  | inside _ _ _ h' => exact h'.isLine

/-- From one walk to another by deeds. -/
def LeadsTo (m : WalkMode ρ) (w w' : Walk ρ) : Prop := ∃ ds, Plays (perform m) w ds w'

theorem LeadsTo.trans {w w' w'' : Walk ρ} (h : LeadsTo m w w') (h' : LeadsTo m w' w'') :
    LeadsTo m w w'' := by
  obtain ⟨ds, h⟩ := h
  obtain ⟨ds', h'⟩ := h'
  exact ⟨ds ++ ds', h.append h'⟩

theorem LeadsTo.refl (w : Walk ρ) : LeadsTo m w w := ⟨[], .nil w⟩

theorem leadsTo_perform (d : Deed) {w : Walk ρ} (hgoes : w.halt = none) :
    LeadsTo m w (perform m d w) := ⟨[d], .single hgoes⟩

theorem leadsTo_lines (r : Nat) (ls : List (List Char)) (w : Walk ρ) :
    LeadsTo m w (w.lines m (included m r) ls) :=
  ⟨_, plays_lines (plays_included r) ls w⟩

/-- After its lines, a file may turn out to be no text. -/
theorem leadsTo_readOn (p : Folder.Path) (rounds offset : Nat) (left : Unread) {w : Walk ρ}
    (hgoes : w.halt = none) :
    LeadsTo m (w.lines m inc (w.linesFrom m inc p rounds offset left))
      (w.readOn m inc p rounds offset left) := by
  induction rounds generalizing offset left w with
  | zero => exact .refl w
  | succ rounds ih =>
    have hnext (offset : Nat) (left : Unread) (ls : List (List Char)) :
        LeadsTo m
          (w.lines m inc (ls ++ (w.lines m inc ls).linesFrom m inc p rounds offset left))
          ((w.lines m inc ls).andThen (readOn m inc p rounds offset left)) := by
      rw [lines_append, andThen]
      split
      · rename_i hhalt
        rw [lines_of_halt hhalt]
        exact .refl _
      · rename_i hhalt
        exact ih offset left (by simpa using hhalt)
    unfold readOn linesFrom
    dsimp only
    split
    · split
      · exact leadsTo_perform (.fail .notText) hgoes
      · split
        · exact .refl w
        · exact hnext _ _ _
    · cases Text.decode (left.cut ++ w.desk.current.bytesFrom p offset) with
      | none => exact leadsTo_perform (.fail .notText) hgoes
      | some read => exact hnext _ _ _

/-- The walk comes to the line, takes it, and goes on from there to the end of the file. -/
theorem Reaches.leadsTo (h : Reaches m (included m r) p u l v) (hgoes : u.halt = none) :
    LeadsTo m u v ∧ LeadsTo m (v.takeLine m (included m r) l) (u.content m (included m r) p) := by
  obtain ⟨⟨ls, rest, hlines, rfl⟩, hhalt⟩ := h
  refine ⟨leadsTo_lines r ls u, ?_⟩
  have hend : LeadsTo m ((u.lines m (included m r) ls).takeLine m (included m r) l)
      (u.lines m (included m r) (u.linesOf m (included m r) p)) := by
    rw [hlines, lines_append, lines_cons, if_neg (by simp [hhalt])]
    exact leadsTo_lines r rest _
  exact hend.trans (leadsTo_readOn p maxRounds 0 {} hgoes)

theorem Meets.leadsTo (h : Meets m p u r l v) (hgoes : u.halt = none) :
    LeadsTo m u v ∧
      LeadsTo m (v.takeLine m (included m r) l) (u.content m (included m maxDepth) p) := by
  induction h with
  | line h => exact h.leadsTo hgoes
  | @inside r l l' v v' name q h hname hfind h' ih =>
    obtain ⟨hbefore, hafter⟩ := ih
    have hhalt : (v.indented l).halt = none := h.goes
    obtain ⟨hcome, hgo⟩ := h'.leadsTo hhalt
    refine ⟨?_, ?_⟩
    · have hindent : LeadsTo m v (v.indented l) := leadsTo_perform (.matlab _) h.goes
      have hmove : LeadsTo m (v.indented l) ((v.indented l).onDesk (.moveTo name 1)) :=
        leadsTo_perform (.moveTo name 1) hhalt
      exact hbefore.trans (hindent.trans (hmove.trans hcome))
    · refine hgo.trans (LeadsTo.trans ?_ hafter)
      rw [takeLine_included hname, included, hfind]
      dsimp only [andThen]
      split
      · exact .refl _
      · rename_i hgoes
        exact leadsTo_perform (.moveTo _ _) (by simpa using hgoes)

/-! ## What a line of C sends -/

/-- The outputs get these texts. -/
structure Gets (matlab c : List Char) (w w' : Walk ρ) : Prop where
  matlab : w'.desk.matlab.map (·.text) = w.desk.matlab.map (·.text ++ String.ofList matlab)
  c : w'.desk.c.map (·.text) = w.desk.c.map (·.text ++ String.ofList c)

theorem Gets.writeMatlab {a c : List Char} {w w' : Walk ρ} (h : Gets a c w w') (cs : List Char) :
    Gets (a ++ cs) c w (w'.onDesk (.writeMatlab (String.ofList cs))) := by
  refine ⟨map_text_trans h.matlab ?_, h.c⟩
  simp [onDesk, Desk.writeMatlab, Sheet.write, Function.comp_def]

theorem Gets.writeC {a c : List Char} {w w' : Walk ρ} (h : Gets a c w w') (cs : List Char) :
    Gets a (c ++ cs) w (w'.onDesk (.writeC (String.ofList cs))) := by
  refine ⟨h.matlab, map_text_trans h.c ?_⟩
  simp [onDesk, Desk.writeC, Sheet.write, Function.comp_def]

theorem gets_indented (l : List Char) (w : Walk ρ) :
    Gets (l.takeWhile isIndent) [] w (w.indented l) :=
  Gets.writeMatlab (a := []) ⟨by simp, by simp⟩ _

/-- The end of a line that is no declaration writes nothing. -/
theorem Gets.passLine (hm : m.Discreet) {a c : List Char} {w w' : Walk ρ} (h : Gets a c w w') :
    Gets a c w (w'.passLine m) := by
  obtain ⟨hmatlab, hc⟩ := hm w'.desk.line w'.reader w'.desk.nextLine
  exact ⟨hmatlab.trans h.matlab, hc.trans h.c⟩

/-- **A line of C** goes to the C output, unless it starts like an opener. -/
theorem gets_takeLine (inc : String → Walk ρ → Walk ρ) (hm : m.Discreet)
    (hline : SourceLine.IsLine l) (hl : isSupport l = true) {w : Walk ρ}
    (hopen : w.inBlock = false) :
    (hasMark "$[" l = false →
      Gets (l.takeWhile isIndent) (behind "$" l) w (w.takeLine m inc l)) ∧
    (hasMark "$[" l = true → Gets (l.takeWhile isIndent ++ l) [] w (w.takeLine m inc l)) := by
  have hindent := gets_indented l w
  rw [takeLine, if_neg (by simp [hopen]), openLine]
  dsimp only
  rw [classify_support hline hl]
  refine ⟨fun h => ?_, fun h => ?_⟩
  · rw [if_neg (by simp [h])]
    exact (hindent.writeC _).passLine hm
  · rw [if_pos h]
    exact (hindent.writeMatlab _).passLine hm

/-- A walk through any file takes each line of C that it comes to, in the file or in one that is
included, in one of two ways. The C output gets what follows the `$` and the MATLAB output the
blanks before it exactly if the line does not start with `$[`; else the C output gets nothing, and
the MATLAB output the blanks and then the whole line. -/
theorem support_line_iff (hm : m.Discreet) {w : Walk ρ} {name : String} {om oc : Sheet}
    (hhalt : w.halt = none) (hfind : w.desk.current.find name = .ok p)
    (hmet : Meets m p { w.onDesk (.moveTo name 1) with inBlock := false } r l v)
    (hopen : v.inBlock = false) (hl : isSupport l = true) (hmatlab : v.desk.matlab = some om)
    (hc : v.desk.c = some oc) :
    let next := v.takeLine m (included m r) l
    LeadsTo m w v ∧ LeadsTo m next (w.file m name) ∧
    (next.desk.c.map (·.text) = some (oc.text ++ String.ofList (behind "$" l)) ∧
        next.desk.matlab.map (·.text) = some (om.text ++ String.ofList (l.takeWhile isIndent)) ↔
      hasMark "$[" l = false) ∧
    (hasMark "$[" l = true →
      next.desk.c.map (·.text) = some oc.text ∧
        next.desk.matlab.map (·.text) =
          some (om.text ++ String.ofList (l.takeWhile isIndent) ++ String.ofList l)) := by
  intro next
  obtain ⟨hbefore, hafter⟩ := hmet.leadsTo hhalt
  have hstart : LeadsTo m w { w.onDesk (.moveTo name 1) with inBlock := false } :=
    (leadsTo_perform (.moveTo name 1) hhalt).trans (leadsTo_perform (.block false) hhalt)
  have hfile : w.file m name = { w.onDesk (.moveTo name 1) with inBlock := false }.content m
      (included m maxDepth) p := by
    simp only [file, hfind]
  obtain ⟨hplain, hbroken⟩ := gets_takeLine (included m r) hm hmet.isLine hl hopen
  have hgets {a b : List Char} (h : Gets a b v next) :
      next.desk.c.map (·.text) = some (oc.text ++ String.ofList b) ∧
        next.desk.matlab.map (·.text) = some (om.text ++ String.ofList a) :=
    ⟨by rw [h.c, hc]; rfl, by rw [h.matlab, hmatlab]; rfl⟩
  refine ⟨hstart.trans hbefore, hfile ▸ hafter, ⟨fun h => ?_, fun h => hgets (hplain h)⟩,
    fun h => ?_⟩
  · refine Bool.eq_false_iff.2 fun hbracket => ?_
    obtain ⟨rest, hrest⟩ := List.isPrefixOf_iff_prefix.1 hbracket
    have hbehind : behind "$" l = '[' :: rest := (hasMark_append "$" hrest.symm).2
    have hnone := h.1.symm.trans (hgets (hbroken hbracket)).1
    simp [hbehind, ← String.toList_inj] at hnone
  · obtain ⟨hnone, hall⟩ := hgets (hbroken h)
    rw [String.ofList_append, ← String.append_assoc] at hall
    exact ⟨by simpa using hnone, hall⟩

/-- A source that includes another one, with a line of C in it. -/
def includingWalk : Walk Ledger :=
  { desk :=
      { folder :=
          { files := [(["a.mw"], "x\n@include b.mw\n".toUTF8), (["b.mw"], "\t$ int g;\n".toUTF8)] }
        matlab := some {}
        c := some {} }
    reader := {} }

/-- The line of C is met in the file that is included, and goes where its mark says. -/
theorem support_line_included :
    let m := Command.walkMode "mex" false false
    ∃ v : Walk Ledger, LeadsTo m includingWalk v ∧
      LeadsTo m (v.takeLine m (included m 9) "\t$ int g;\n".toList) (includingWalk.file m "a.mw") ∧
      (v.takeLine m (included m 9) "\t$ int g;\n".toList).desk.c.map (·.text) = some " int g;\n" ∧
      (v.takeLine m (included m 9) "\t$ int g;\n".toList).desk.matlab.map (·.text) =
        some "x\n\t" := by
  intro m
  let u : Walk Ledger := { includingWalk.onDesk (.moveTo "a.mw" 1) with inBlock := false }
  let v : Walk Ledger := u.lines m (included m 10) ["x\n".toList]
  let inner : Walk Ledger := (v.indented "@include b.mw\n".toList).onDesk (.moveTo "b.mw" 1)
  have hmet : Meets m ["a.mw"] u 10 "@include b.mw\n".toList v :=
    .line ⟨⟨["x\n".toList], [], by decide +kernel, rfl⟩, by decide +kernel⟩
  have hname : v.included? "@include b.mw\n".toList = some "b.mw" := by decide +kernel
  have hfind : (v.indented "@include b.mw\n".toList).desk.current.find "b.mw" = .ok ["b.mw"] := rfl
  have hinner : inner.linesOf m (included m 9) ["b.mw"] = [] ++ ["\t$ int g;\n".toList] := by
    decide +kernel
  have hinside : Meets m ["a.mw"] u 9 "\t$ int g;\n".toList inner :=
    hmet.inside hname hfind ⟨⟨[], [], hinner, rfl⟩, by decide +kernel⟩
  have hm : m.Discreet := Command.discreet_walkMode "mex" false false
  obtain ⟨hbefore, hafter, hiff, -⟩ := support_line_iff hm rfl
    (show includingWalk.desk.current.find "a.mw" = .ok ["a.mw"] from rfl) hinside
    (by decide +kernel) (by decide +kernel) rfl rfl
  obtain ⟨hc, hmatlab⟩ := hiff.2 (by decide +kernel)
  exact ⟨inner, hbefore, hafter, hc, hmatlab⟩

/-- A line that starts like an opener. -/
def brokenWalk : Walk (List Token) :=
  { desk :=
      { folder := { files := [(["a.mw"], "  $[ int f;\n".toUTF8)] }
        matlab := some {}
        c := some {} }
    reader := [] }

/-- It is a line of C, but it goes to the MATLAB output, and its blanks go there twice. -/
theorem broken_opener_copied :
    let out := brokenWalk.file (collector false) "a.mw"
    isSupport "  $[ int f;\n".toList = true ∧ out.halt = none ∧
      out.desk.c.map (·.text) = some "" ∧
      out.desk.matlab.map (·.text) = some "    $[ int f;\n" := by
  decide +kernel

end Walk

end MexBridge
