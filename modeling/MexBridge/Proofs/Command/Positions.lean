import MexBridge.Proofs.Command.Reading
import MexBridge.Proofs.Ledger.Filing
import MexBridge.Proofs.Statement.Parsing

/-!
# Where statements and notices are placed

A statement is placed on the line of its first token and in the file of the token that ends it; so
are the notices about it, unless it is broken off, which is reported where that happens
(`Ledger.placeOf`). These places are those of stops of the walk, but for lines that include a file:
they are not counted, so what comes after them in the same file is placed too high
(`source_positions`).
-/

namespace MexBridge

theorem Token.line_of_mem_tokens {line : Int} {cs : List Char} {t : Token}
    (h : t ∈ Token.tokens line cs) : t.line = line := by
  fun_induction Token.tokens line cs with
  | case1 => simp at h
  | case2 => simp at h
  | case3 c r k text rest heq ih =>
    rcases List.mem_cons.1 h with rfl | h
    · rfl
    · exact ih h
  | case4 c r rest heq ih => exact ih h

/-- The tokens of a line have its number, less the files included before. -/
theorem Stop.line_of_mem_tokens {s : Stop} {t : Token} (h : t ∈ s.tokens) :
    t.line = s.number - s.includes := by
  unfold tokens at h
  split at h
  · simp at h
  · split at h
    · exact Token.line_of_mem_tokens h
    · simp at h
    · simp at h
    · rw [List.mem_singleton.1 h]
      rfl

theorem Grammar.Invocation.place_routine (file : String) (line : Int) (c : Grammar.Invocation) :
    (c.routine file line).file = file ∧ (c.routine file line).line = line := by
  obtain ⟨target, _, _, _, _⟩ := c
  cases target <;> exact ⟨rfl, rfl⟩

/-- A call stands in the file of its statement, on the line of the first token. -/
theorem Statement.place_of_parse {file : String} {ts : List Token} {r : Routine}
    (h : parse file ts = .ok (.call r)) : r.file = file ∧ r.line = (peek ts).line := by
  cases hs : statement file ts with
  | error e =>
    rw [parse, hs] at h
    cases h
  | ok x =>
    rw [parse, hs] at h
    obtain ⟨d, rfl, hd⟩ := (recognizes_statement file).sound hs
    have hcall : d.statement file = .call r := hd.trans (Except.ok.inj h)
    rw [line_peek]
    cases d with
    | typedef w space name stop => cases hcall
    | inherits w child colon parents stop => cases hcall
    | call c =>
      cases hcall
      exact c.place_routine file _
    | assignment v equals c =>
      cases hcall
      exact c.place_routine file _

/-- A notice about a statement points to a place. -/
def Notice.PointsTo (place : String → Int → Prop) : Notice → Prop
  | .badStatement file line _ => place file line
  | .complaint line _ => ∃ file, place file line
  | _ => True

theorem Notice.PointsTo.imp {p q : String → Int → Prop} (h : ∀ file line, p file line → q file line)
    {n : Notice} (hn : n.PointsTo p) : n.PointsTo q := by
  cases n with
  | badStatement file line fault => exact h _ _ hn
  | complaint line c =>
    obtain ⟨file, hfile⟩ := hn
    exact ⟨file, h _ _ hfile⟩
  | _ => trivial

namespace Ledger

/-! ## One step -/

/-- The line that a token is about: that of the statement it ends, or its own. -/
def placeOf (l : Ledger) (t : Token) : Int :=
  if t.isPunct ";" then (Statement.peek (l.pending ++ [t])).line else t.line

variable {mex file : String} {t : Token} {l : Ledger}

/-- A token that ends no statement is kept or drops those pending. -/
theorem feed_of_not_stop (mex file : String) (h : ¬ t.isPunct ";" = true) (l : Ledger) :
    (∃ ts, l.feed mex file t = ({ l with pending := ts }, {})) ∨
      ∃ atEnd, l.feed mex file t = l.dropPending file t.line atEnd := by
  unfold feed
  split
  · exact Or.inr ⟨false, rfl⟩
  · exact Or.inr ⟨true, rfl⟩
  · rw [if_neg h]
    exact Or.inl ⟨_, rfl⟩

theorem groups_feed (mex file : String) (h : ¬ t.isPunct ";" = true) (l : Ledger) :
    (l.feed mex file t).1.groups = l.groups := by
  rcases feed_of_not_stop mex file h l with ⟨ts, hts⟩ | ⟨atEnd, hdrop⟩
  · rw [hts]
  · rw [hdrop]
    exact (quiet_dropPending ..).groups

theorem place_of_mem_feed {r : Routine} (h : r ∈ (l.feed mex file t).1.routines) :
    r ∈ l.routines ∨ r.file = file ∧ r.line = l.placeOf t := by
  by_cases ht : t.isPunct ";" = true
  · rw [placeOf, if_pos ht]
    rw [feed_stop ht, enterTokens] at h
    cases hparse : Statement.parse file (l.pending ++ [t]) with
    | error e =>
      rw [hparse] at h
      exact Or.inl h
    | ok st =>
      rw [hparse] at h
      cases st with
      | typedef space name =>
        left
        simp only [enterStatement] at h
        split at h <;> exact h
      | inherits child parents => exact Or.inl h
      | call r' =>
        rcases List.mem_cons.1 ((perm_members_fileUnder ..).mem_iff.1 h) with rfl | h
        · right
          obtain ⟨hfile, hline⟩ := Statement.place_of_parse hparse
          have hhead := sameHead_checked l r'
          exact ⟨hhead.file.trans hfile, hhead.line.trans hline⟩
        · exact Or.inl h
  · left
    rw [routines, groups_feed mex file ht] at h
    exact h

theorem pointsTo_of_mem_feed {n : Notice} (h : n ∈ (l.feed mex file t).2.notices) :
    n.PointsTo fun f line => f = file ∧ line = l.placeOf t := by
  by_cases ht : t.isPunct ";" = true
  · rw [placeOf, if_pos ht]
    rw [feed_stop ht, enterTokens] at h
    cases hparse : Statement.parse file (l.pending ++ [t]) with
    | error e =>
      rw [hparse] at h
      rw [List.mem_singleton.1 h]
      exact ⟨rfl, rfl⟩
    | ok st =>
      rw [hparse] at h
      cases st with
      | typedef space name =>
        simp only [enterStatement] at h
        split at h
        · simp at h
        · rw [List.mem_singleton.1 h]
          trivial
      | inherits child parents => simp [enterStatement] at h
      | call r' =>
        obtain ⟨c, -, rfl⟩ := List.mem_map.1 h
        obtain ⟨-, hline⟩ := Statement.place_of_parse hparse
        have hhead := sameHead_checked l r'
        exact ⟨file, rfl, hhead.line.trans hline⟩
  · rw [placeOf, if_neg ht]
    rcases feed_of_not_stop mex file ht l with ⟨ts, hts⟩ | ⟨atEnd, hdrop⟩
    · rw [hts] at h
      simp at h
    · rw [hdrop, dropPending] at h
      split at h
      · simp at h
      · rw [List.mem_singleton.1 h]
        exact ⟨rfl, rfl⟩

/-! ## Runs -/

/-- One of these tokens stands in the file, and is about the line when its turn has come. -/
def Places (mex : String) (l : Ledger) (es : List (String × Token)) (file : String) (line : Int) :
    Prop :=
  ∃ before t after, es = before ++ (file, t) :: after ∧
    line = (l.run mex (events before)).placeOf t

theorem places_head (mex : String) (l : Ledger) (file : String) (t : Token)
    (es : List (String × Token)) : Places mex l ((file, t) :: es) file (l.placeOf t) :=
  ⟨[], t, es, rfl, rfl⟩

theorem Places.cons {e : String × Token} {es : List (String × Token)} {line : Int}
    (h : Places mex (l.feed mex e.1 e.2).1 es file line) : Places mex l (e :: es) file line := by
  obtain ⟨before, t, after, rfl, hline⟩ := h
  exact ⟨e :: before, t, after, rfl, hline⟩

theorem place_of_mem_run {es : List (String × Token)} {r : Routine}
    (h : r ∈ (l.run mex (events es)).routines) :
    r ∈ l.routines ∨ Places mex l es r.file r.line := by
  induction es generalizing l with
  | nil => exact Or.inl h
  | cons e es ih =>
    rcases ih (l := (l.feed mex e.1 e.2).1) h with h | h
    · rcases place_of_mem_feed h with h | ⟨hfile, hline⟩
      · exact Or.inl h
      · right
        rw [hfile, hline]
        exact places_head mex l e.1 e.2 es
    · exact Or.inr h.cons

theorem pointsTo_of_mem_notices {es : List (String × Token)} {n : Notice}
    (h : n ∈ l.notices mex (events es)) : n.PointsTo (Places mex l es) := by
  induction es generalizing l with
  | nil => simp [events, notices] at h
  | cons e es ih =>
    rcases List.mem_append.1 h with h | h
    · refine (pointsTo_of_mem_feed h).imp ?_
      rintro f line ⟨rfl, rfl⟩
      exact places_head mex l e.1 e.2 es
    · exact (ih h).imp fun f line hplace => hplace.cons

end Ledger

namespace Command

/-- **Tokens, routines and notices are where their lines are, less the files included before.** A
walk gives the tokens of its stops, each in its file. A token has the number of its line, less the
lines above it in that file that included another one, so it is the right one if there are none. The
lines of a file are those of its text, unless it changes while it is read. Routines and notices are
placed by these tokens: in the file of the one that ends the statement, on the line of the first one,
or where the statement is broken off. -/
theorem source_positions {ρ : Type} (m : WalkMode ρ) (hm : m.Stays) (name : String) (w : Walk ρ) :
    Walk.Gave m ((w.stops m name).flatMap Stop.entries) w (w.file m name) ∧
    (∀ s ∈ w.stops m name, ∀ t ∈ s.tokens,
      t.line = s.number - s.includes ∧ (t.line = s.number ↔ s.includes = 0)) ∧
    (∀ (inc : String → Walk ρ → Walk ρ) (p : Folder.Path) (u : Walk ρ) (text : String),
      (∀ n, (u.lines m inc ((Text.splitLines (Text.unifyNewlines text.toList)).take
        n)).desk.current.bytesFrom p 0 = text.toUTF8) →
      u.linesOf m inc p = Text.splitLines (Text.unifyNewlines text.toList)) ∧
    ∀ (mex : String) (batching listing : Bool) (w : Walk Ledger),
      let m := walkMode mex batching listing
      let es := (w.stops m name).flatMap Stop.entries
      (∀ r ∈ (w.file m name).reader.routines,
        r ∈ w.reader.routines ∨ w.reader.Places mex es r.file r.line) ∧
      ∀ n ∈ (w.file m name).desk.notices,
        n ∈ w.desk.notices ∨ n.endsWalk = true ∨ n.PointsTo (w.reader.Places mex es) := by
  refine ⟨(Walk.gave_file hm name w).1, ?_, fun inc p u text => Walk.linesOf_eq_splitLines, ?_⟩
  · intro s _ t ht
    have hline := Stop.line_of_mem_tokens ht
    exact ⟨hline, by omega⟩
  intro mex batching listing w m es
  obtain ⟨hledger, hreported⟩ := read_file mex batching listing name w
  refine ⟨fun r hr => ?_, fun n hn => ?_⟩
  · rw [hledger] at hr
    exact Ledger.place_of_mem_run hr
  · have hmem :
        n ∈ w.desk.notices ++ w.reader.notices mex (Ledger.events es) ∨ n.endsWalk = true := by
      rcases hreported with h | ⟨-, last, hlast, h⟩
      · rw [h] at hn
        exact Or.inl hn
      · rw [h] at hn
        rcases List.mem_append.1 hn with hn | hn
        · exact Or.inl hn
        · rw [List.mem_singleton.1 hn]
          exact Or.inr hlast
    rcases hmem with hmem | hlast
    · rcases List.mem_append.1 hmem with hmem | hmem
      · exact Or.inl hmem
      · exact Or.inr (Or.inr (Ledger.pointsTo_of_mem_notices hmem))
    · exact Or.inr (Or.inl hlast)

/-- A declaration, a file that holds another one on its second line, and a declaration after it. -/
def nestedFolder : Folder :=
  { files := [(["main.mw"], "# f(int x);\n@include b.mw\n# g(int x);\n".toUTF8),
      (["b.mw"], "%\n# h(int k);\n".toUTF8)] }

theorem source_positions_nested :
    let m := walkMode "m" false false
    let w : Walk Ledger := { desk := { folder := nestedFolder }, reader := {} }
    let ss := w.stops m "main.mw"
    ss = [⟨"main.mw", 1, 0, false, "# f(int x);\n".toList⟩, ⟨"b.mw", 1, 0, false, "%\n".toList⟩,
        ⟨"b.mw", 2, 0, false, "# h(int k);\n".toList⟩,
        ⟨"main.mw", 3, 1, false, "# g(int x);\n".toList⟩] ∧
    Walk.Gave m (ss.flatMap Stop.entries) w (w.file m "main.mw") ∧
    w.linesOf m (Walk.included m 9) ["b.mw"] = ["%\n".toList, "# h(int k);\n".toList] ∧
    (w.file m "main.mw").reader.routines.map (fun r => (r.name, r.file, r.line)) =
      [("f", "main.mw", 1), ("h", "b.mw", 2), ("g", "main.mw", 2)] ∧
    ∀ r ∈ (w.file m "main.mw").reader.routines,
      w.reader.Places "m" (ss.flatMap Stop.entries) r.file r.line := by
  intro m w ss
  obtain ⟨hgave, -, hlines, hplaces⟩ := source_positions m walkMode_stays "main.mw" w
  have unchanged : ∀ n, (w.lines m (Walk.included m 9) ((Text.splitLines (Text.unifyNewlines
      "%\n# h(int k);\n".toList)).take n)).desk.current.bytesFrom ["b.mw"] 0
        = "%\n# h(int k);\n".toUTF8 := by
    intro n
    match n with
    | 0 => decide +kernel
    | 1 => decide +kernel
    | n + 2 =>
      rw [List.take_of_length_le (Nat.le_trans (by decide +kernel : _ ≤ 2) (by omega))]
      decide +kernel
  refine ⟨by decide +kernel, hgave, ?_, by decide +kernel, fun r hr => ?_⟩
  · rw [hlines (Walk.included m 9) ["b.mw"] w _ unchanged]
    decide +kernel
  · rcases (hplaces "m" false false w).1 r hr with h | h
    · exact absurd h (by simp [w, Ledger.routines])
    · exact h

/-- Keeps all tokens, with the file the desk is at when they are given. -/
def recorder : WalkMode (List (String × Token)) :=
  { feed := fun t r d => (r ++ [(d.file, t)], d) }

def inclusionFolder : Folder :=
  { files := [(["main.mw"], "@include a.mw\nx\n".toUTF8), (["a.mw"], ByteArray.empty)] }

/-- The second line of a file, after one that includes another file, has the number 1. -/
theorem second_line_numbered_one :
    let w : Walk (List (String × Token)) := { desk := { folder := inclusionFolder }, reader := [] }
    w.stops recorder "main.mw" = [⟨"main.mw", 2, 1, false, "x\n".toList⟩] ∧
      (w.file recorder "main.mw").reader = [("main.mw", .otherLine 1)] := by
  decide +kernel

end Command

end MexBridge
