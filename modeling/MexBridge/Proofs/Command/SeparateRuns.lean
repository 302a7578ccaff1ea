import MexBridge.Proofs.Command.Outputs

/-!
# Outputs made in separate runs

A run that makes the MATLAB output and the C output, and runs that make only one of them, perform the
same script, as long as neither output is read. So each of the others is seen in the first one, by
looking away from what it does not make (`Walk.seen`), and both outputs can be made in separate runs
(`separate_runs`).
-/

namespace MexBridge

/-- The walk as it looks in another folder, with or without its outputs. -/
def Walk.seen (G : Folder) (matlab c : Bool) (w : Walk Ledger) : Walk Ledger :=
  { w with
    desk :=
      { w.desk with
        folder := G
        matlab := if matlab then w.desk.matlab else none
        c := if c then w.desk.c else none } }

namespace Command

section

variable {support : String} {o o' : Options} {G : Folder} {w w' : Walk Ledger}

/-- Each step is the same, whichever outputs are looked at. -/
theorem perform_seen (hmode : o'.mode = o.mode) (hbatching : o.batching = false) (G : Folder)
    (matlab c : Bool) (s : Step) (hhalt : w.halt = none) :
    perform support o' s (w.seen G matlab c) = (perform support o s w).seen G matlab c := by
  cases s with
  | header => cases c <;> rfl
  | deed d =>
    change (w.seen G matlab c).perform o'.mode d = (w.perform o.mode d).seen G matlab c
    rw [hmode]
    cases d with
    | matlab s => cases matlab <;> rfl
    | c s => cases c <;> rfl
    | direct target =>
      have hm : o.mode.batching = false := hbatching
      change (w.seen G matlab c).direct o.mode target = (w.direct o.mode target).seen G matlab c
      rw [Walk.direct_eq hm hhalt, Walk.direct_eq hm (w := w.seen G matlab c) hhalt]
      split <;> rfl
    | token t => cases matlab <;> rfl
    | _ => rfl
  | _ => rfl

/-- A run with other outputs comes to the same, seen without those that it does not have. -/
theorem plays_seen (hmode : o'.mode = o.mode) (hbatching : o.batching = false) (G : Folder)
    (matlab c : Bool) {ss : List Step} (h : Walk.Plays (perform support o) w ss w') :
    Walk.Plays (perform support o') (w.seen G matlab c) ss (w'.seen G matlab c) := by
  have himage : Walk.Plays (perform support o') (w.seen G matlab c) (ss.map id)
      (w'.seen G matlab c) :=
    h.image (fun _ => rfl) fun s w hhalt => perform_seen hmode hbatching G matlab c s hhalt
  rwa [List.map_id] at himage

/-! ## What holds all along -/

variable {pM pC : Folder.Path} {F : Folder}

/-- No file is touched, the outputs are for the files they were opened for, and a run that has ended
early has done so with status 1 or a fault. -/
structure Kept (F : Folder) (pM pC : Folder.Path) (w : Walk Ledger) : Prop where
  folder : w.desk.folder = F
  matlab : w.desk.matlab.map (·.file) = some (some pM)
  c : w.desk.c.map (·.file) = some (some pC)
  exit : ∀ k, w.halt = some (.exit k) → k = 1

theorem Kept.perform (hbatching : o.batching = false) (s : Step) (hhalt : w.halt = none)
    (h : Kept F pM pC w) : Kept F pM pC (perform support o s w) := by
  have hgoes : ∀ k, w.halt = some (.exit k) → k = 1 := fun k hk => by rw [hhalt] at hk; cases hk
  cases s with
  | header => exact ⟨h.folder, h.matlab, (Option.map_map ..).trans h.c, hgoes⟩
  | deed d =>
    cases d with
    | matlab s => exact ⟨h.folder, (Option.map_map ..).trans h.matlab, h.c, hgoes⟩
    | c s => exact ⟨h.folder, h.matlab, (Option.map_map ..).trans h.c, hgoes⟩
    | direct target =>
      have hm : o.mode.batching = false := hbatching
      change Kept F pM pC (w.direct o.mode target)
      rw [Walk.direct_eq hm hhalt]
      split <;> exact ⟨h.folder, h.matlab, h.c, hgoes⟩
    | token t => exact ⟨h.folder, (Option.map_map ..).trans h.matlab, h.c, hgoes⟩
    | stop n => exact ⟨h.folder, h.matlab, h.c, fun k hk => by cases hk; rfl⟩
    | fail f => exact ⟨h.folder, h.matlab, h.c, fun k hk => by cases hk⟩
    | _ => exact ⟨h.folder, h.matlab, h.c, hgoes⟩
  | _ => exact ⟨h.folder, h.matlab, h.c, hgoes⟩

end

end Command

/-! ## The calls in the MATLAB text -/

/-- A piece of MATLAB text: one of the source, or the call of a routine. -/
inductive MatlabPiece where
  | source (s : String)
  | call (r : Routine)

namespace MatlabPiece

def text (mex : String) : MatlabPiece → String
  | .source s => s
  | .call r => r.matlabCall mex

def routine? : MatlabPiece → Option Routine
  | .source _ => none
  | .call r => some r

end MatlabPiece

namespace Ledger

theorem routines_dropPending (l : Ledger) (file : String) (line : Int) (atEnd : Bool) :
    (l.dropPending file line atEnd).1.routines = l.routines :=
  congrArg (List.flatMap Group.members) (quiet_dropPending l file line atEnd).groups

theorem routines_finishFile (l : Ledger) (file : String) (line : Int) :
    (l.finishFile file line).1.routines = l.routines := by
  unfold finishFile
  dsimp only
  split <;> exact routines_dropPending l file line true

/-- A token that ends a call is answered by its MATLAB text as the routine is filed; any other gives no
text. -/
theorem feed_answer (mex file : String) (t : Token) (l : Ledger) :
    (l.feed mex file t).2.matlab = "" ∧ (l.feed mex file t).1.routines = l.routines ∨
      ∃ r : Routine, (l.feed mex file t).2.matlab = r.matlabCall mex ∧
        (l.feed mex file t).1.routines.Perm (r :: l.routines) := by
  have hdrop : ∀ atEnd, (l.dropPending file t.line atEnd).2.matlab = "" := by
    intro atEnd
    unfold dropPending
    split <;> rfl
  unfold feed
  split
  · exact Or.inl ⟨hdrop false, routines_dropPending ..⟩
  · exact Or.inl ⟨hdrop true, routines_dropPending ..⟩
  · split
    · unfold enterTokens
      split
      · rename_i s _
        cases s with
        | typedef space name =>
          refine Or.inl ?_
          unfold enterStatement
          dsimp only
          split <;> exact ⟨rfl, rfl⟩
        | inherits child parents => exact Or.inl ⟨rfl, rfl⟩
        | call r => exact Or.inr ⟨_, rfl, perm_members_fileUnder ..⟩
      · exact Or.inl ⟨rfl, rfl⟩
    · exact Or.inl ⟨rfl, rfl⟩

end Ledger

namespace Command

/-- The MATLAB output holds text of the source and the calls of the routines in the ledger. -/
def Shows (mex : String) (w : Walk Ledger) : Prop :=
  ∃ pieces : List MatlabPiece, ∃ s, w.desk.matlab = some s ∧
    s.text = String.join (pieces.map (·.text mex)) ∧
    (pieces.filterMap MatlabPiece.routine?).Perm w.reader.routines

section

variable {mex support : String} {o : Options} {w w' : Walk Ledger}

theorem Shows.congr (h : Shows mex w) (hmatlab : w'.desk.matlab = w.desk.matlab)
    (hroutines : w'.reader.routines = w.reader.routines) : Shows mex w' := by
  obtain ⟨pieces, s, hs, htext, hperm⟩ := h
  exact ⟨pieces, s, hmatlab.trans hs, htext, hroutines ▸ hperm⟩

/-- One more piece. -/
theorem Shows.add (h : Shows mex w) (piece : MatlabPiece)
    (hmatlab : w'.desk.matlab = w.desk.matlab.map (·.write (piece.text mex)))
    (hroutines : (piece.routine?.toList ++ w.reader.routines).Perm w'.reader.routines) :
    Shows mex w' := by
  obtain ⟨pieces, s, hs, htext, hperm⟩ := h
  refine ⟨pieces ++ [piece], s.write (piece.text mex), ?_, ?_, ?_⟩
  · rw [hmatlab, hs]
    rfl
  · simp [Sheet.write, htext, String.join_append, String.join_cons]
  · have hpiece : [piece].filterMap MatlabPiece.routine? = piece.routine?.toList := by
      cases piece <;> rfl
    rw [List.filterMap_append, hpiece]
    exact (List.perm_append_comm.trans (hperm.append_left _)).trans hroutines

theorem Shows.perform (hbatching : o.batching = false) (s : Step) (hhalt : w.halt = none)
    (h : Shows o.mex w) : Shows o.mex (perform support o s w) := by
  cases s with
  | deed d =>
    cases d with
    | matlab s => exact h.add (.source s) rfl (.refl _)
    | direct target =>
      have hm : o.mode.batching = false := hbatching
      change Shows o.mex (w.direct o.mode target)
      rw [Walk.direct_eq hm hhalt]
      split <;> exact h.congr rfl rfl
    | token t =>
      rcases w.reader.feed_answer o.mex w.desk.file t with ⟨htext, hroutines⟩ | ⟨r, htext, hperm⟩
      · refine h.add (.source "") ?_ (hroutines ▸ .refl _)
        exact congrArg (fun text => w.desk.matlab.map (·.write text)) htext
      · refine h.add (.call r) ?_ hperm.symm
        exact congrArg (fun text => w.desk.matlab.map (·.write text)) htext
    | _ => exact h.congr rfl rfl
  | finish => exact h.congr rfl (Ledger.routines_finishFile ..)
  | _ => exact h.congr rfl rfl

/-! ## Seeing one run in another -/

variable {o' : Options} {X : List Folder.Path} {F G : Folder} {v : Walk Ledger} {pM pC : Folder.Path}
  {n : Nat}

/-- **A run that makes fewer outputs is seen in the one that makes both.** -/
theorem inputFiles_seen (ho : Matching o o' X F) (hmode : o'.mode = o.mode)
    (hbatching : o.batching = false) {names : List String} {matlab c : Bool}
    (hfits : Walk.Fits o.mode X F (Step.deeds (steps support o false names w)))
    (h : Abreast X F w (w.seen G matlab c)) :
    inputFiles support o' false names (w.seen G matlab c)
      = (inputFiles support o false names w).seen G matlab c := by
  have hplays := plays_inputFiles support o' false names (w.seen G matlab c)
  rw [h.steps ho false names hfits] at hplays
  exact hplays.unique
    (plays_seen hmode hbatching G matlab c (plays_inputFiles support o false names w))

theorem complete_seen (G : Folder) (matlab : Bool) (w : Walk Ledger) :
    (w.seen G matlab true).andThen complete = (w.andThen complete).seen G matlab true := by
  unfold Walk.andThen
  change (if w.halt.isSome then w.seen G matlab true else complete (w.seen G matlab true)) = _
  split
  · rfl
  · by_cases hdone : w.reader.errors = 0 ∧ w.desk.c.isSome = true
    · cases hbody : Gateway.body w.reader.context w.reader.groups with
      | ok text =>
        rw [complete_done hdone hbody, complete_done (w := w.seen G matlab true) hdone hbody]
        rfl
      | error f =>
        rw [complete_error hdone hbody, complete_error (w := w.seen G matlab true) hdone hbody]
        rfl
    · rw [complete_alone hdone, complete_alone (w := w.seen G matlab true) hdone]

theorem complete_unseen (hstatus : (conclude (w.andThen complete)).2 = .status n) (G : Folder)
    (matlab : Bool) :
    (w.seen G matlab false).andThen complete = (w.andThen complete).seen G matlab false := by
  have halone : complete (w.seen G matlab false) = w.seen G matlab false :=
    complete_alone fun h => Bool.false_ne_true h.2
  by_cases hhalt : w.halt.isSome = true
  · rw [Walk.andThen_of_ended hhalt]
    exact Walk.andThen_of_ended hhalt
  · have hgoes : w.halt = none := by simpa using hhalt
    rw [Walk.andThen_of_goes hgoes] at hstatus ⊢
    rw [Walk.andThen_of_goes (w := w.seen G matlab false) hgoes, halone]
    have hcompleted := completed w
    generalize complete w = w' at hstatus hcompleted ⊢
    cases hcompleted with
    | alone => rfl
    | done => rfl
    | failed => cases hstatus

theorem Kept.complete (h : Kept F pM pC w) : Kept F pM pC (w.andThen complete) := by
  by_cases hhalt : w.halt.isSome = true
  · rwa [Walk.andThen_of_ended hhalt]
  · have hgoes : w.halt = none := by simpa using hhalt
    rw [Walk.andThen_of_goes hgoes]
    have hcompleted := completed w
    generalize Command.complete w = w' at hcompleted ⊢
    cases hcompleted with
    | alone => exact h
    | done => exact { h with c := (Option.map_map ..).trans h.c }
    | failed => exact { h with exit := fun k hk => by cases hk }

theorem Kept.outputs (h : Kept F pM pC w) : ∃ s t, w.desk.matlab = some s ∧
    s.file = some pM ∧ w.desk.c = some t ∧ t.file = some pC := by
  obtain ⟨s, hs, hsfile⟩ := Option.map_eq_some_iff.1 h.matlab
  obtain ⟨t, ht, htfile⟩ := Option.map_eq_some_iff.1 h.c
  exact ⟨s, t, hs, hsfile, ht, htfile⟩

/-- Without the C output the MATLAB output holds the same. -/
theorem Kept.matlab_seen (h : Kept F pM pC w) (hne : pM ≠ pC)
    (hF : F.get? pM = some ByteArray.empty) (hG : G.get? pM = some ByteArray.empty) :
    ∃ s, w.desk.matlab = some s ∧
      (conclude w).1.closeOutputs.folder.get? pM = some s.text.toUTF8 ∧
      (conclude (w.seen G true false)).1.closeOutputs.folder.get? pM = some s.text.toUTF8 := by
  obtain ⟨s, t, hs, hsfile, ht, htfile⟩ := h.outputs
  refine ⟨s, hs, get?_conclude_matlab hs hsfile ?_ (h.folder ▸ hF),
    get?_conclude_matlab (w := w.seen G true false) hs hsfile (fun _ ht => by cases ht) hG⟩
  rw [ht]
  rintro _ ⟨⟩
  rw [htfile]
  exact fun heq => hne (Option.some.inj heq).symm

/-- Without the MATLAB output the C output holds the same. -/
theorem Kept.c_seen (h : Kept F pM pC w) (hne : pM ≠ pC)
    (hF : F.get? pC = some ByteArray.empty) (hG : G.get? pC = some ByteArray.empty) :
    ∃ t, w.desk.c = some t ∧
      (conclude w).1.closeOutputs.folder.get? pC = some t.text.toUTF8 ∧
      (conclude (w.seen G false true)).1.closeOutputs.folder.get? pC = some t.text.toUTF8 := by
  obtain ⟨s, t, hs, hsfile, ht, htfile⟩ := h.outputs
  refine ⟨t, ht, get?_conclude_c ht htfile ?_ (h.folder ▸ hF),
    get?_conclude_c (w := w.seen G false true) ht htfile (fun _ hs => by cases hs) hG⟩
  rw [hs]
  rintro _ ⟨⟩
  rw [hsfile]
  exact fun heq => hne (Option.some.inj heq)

/-- What a run with both outputs, and the runs with one of them, leave behind. -/
structure Separate (pM pC : Folder.Path) (n : Nat) (s t : Sheet) (r rM rC : Desk × Ending) : Prop where
  matlab : r.1.folder.get? pM = some s.text.toUTF8
  matlab' : rM.1.folder.get? pM = some s.text.toUTF8
  c : r.1.folder.get? pC = some t.text.toUTF8
  c' : rC.1.folder.get? pC = some t.text.toUTF8
  notices : rM.1.notices = r.1.notices
  notices' : rC.1.notices = r.1.notices
  ending : rM.2 = .status n
  ending' : rC.2 = .status n

/-- Runs that end with a status have closed their outputs, which hold the same. -/
theorem Kept.separate {G' : Folder} {n : Nat} (h : Kept F pM pC w) (hne : pM ≠ pC)
    (hF : ∀ p ∈ [pM, pC], F.get? p = some ByteArray.empty)
    (hG : G.get? pM = some ByteArray.empty) (hG' : G'.get? pC = some ByteArray.empty)
    (hended : (conclude w).2 = .status n) :
    ∃ s t, w.desk.matlab = some s ∧ w.desk.c = some t ∧ Separate pM pC n s t (conclude w)
      (conclude (w.seen G true false)) (conclude (w.seen G' false true)) := by
  obtain ⟨s, hs, hmatlab, hmatlab'⟩ := h.matlab_seen hne (hF pM (by simp)) hG
  obtain ⟨t, ht, hc, hc'⟩ := h.c_seen hne (hF pC (by simp)) hG'
  have hending : ∀ (F' : Folder) (matlab c : Bool), (conclude (w.seen F' matlab c)).2 = .status n := by
    intro F' matlab c
    rw [← hended]
    exact ending_conclude rfl rfl
  rw [folder_conclude_of_status hended] at hmatlab hc
  rw [folder_conclude_of_status (hending ..)] at hmatlab' hc'
  refine ⟨s, t, hs, ht, hmatlab, hmatlab', hc, hc', ?_, ?_, hending .., hending ..⟩
  · rw [notices_conclude, notices_conclude]
    rfl
  · rw [notices_conclude, notices_conclude]
    rfl

/-- Where the runs start, they see the same but for the outputs. -/
theorem abreast_start {folder : Folder} (hX : ∀ p ∈ [pM, pC], folder.Holds p)
    (ps : List Folder.Path) (hps : ∀ p ∈ ps, p ∈ [pM, pC]) (matlab c : Bool) :
    let d := opened folder (some pM) (some pC)
    Abreast [pM, pC] d.folder (start o d) ((start o d).seen (ps.foldl Folder.make folder) matlab c) := by
  intro d
  have hcovers : d.folder.Covers [pM, pC] folder := Folder.covers_makeAll (fun _ hp => hp) hX
  have hsome : (d.folder.get? pM).isSome = true := by
    rw [show d.folder.get? pM = _ from Folder.get?_makeAll [pM, pC] folder pM]
    simp
  refine
    { files := .refl _ _, files' := Folder.covers_makeAll_makeAll hps hX, matlab := ?_, matlab' := ?_
      c := ?_, holdsC := ?_, file := rfl, line := rfl, inBlock := rfl, halt := rfl, reader := rfl }
  · rintro _ ⟨⟩ p ⟨⟩
    simp
  · cases matlab with
    | true =>
      rintro _ ⟨⟩ p ⟨⟩
      exact ⟨by simp, hsome⟩
    | false =>
      rintro _ ⟨⟩
  · cases c with
    | true => exact Or.inl rfl
    | false =>
      refine Or.inr ⟨rfl, ?_⟩
      rintro _ ⟨⟩ p ⟨⟩
      simp
  · rintro _ ⟨⟩ p ⟨⟩
    exact hcovers.holds.1 (hX pC (by simp))

/-- After a run without errors the C output ends with what its ledger comes to. -/
theorem Kept.completed (h : Kept F pM pC w)
    (hstatus : (conclude (w.andThen Command.complete)).2 = .status 0) :
    ∃ t before text, (w.andThen Command.complete).desk.c = some t ∧ t.text = before ++ text ∧
      Gateway.body w.reader.context w.reader.groups = .ok text := by
  obtain ⟨-, t, -, -, ht, -⟩ := h.outputs
  obtain ⟨hgoes, herrors, text, hbody⟩ := body_of_status (ht ▸ rfl) h.exit hstatus
  obtain ⟨-, s, hs, -, htext⟩ := complete_ok herrors ht hbody
  rw [Walk.andThen_of_goes hgoes]
  exact ⟨s, t.text, text, hs, htext, hbody⟩

end

/-- **The MATLAB output and the C output can be made in separate runs.** Outside batches, if both can
be opened, are different files and are not read, and if the run that makes both ends with a status, then
the runs that make one of them put the same into it, report the same and end with the same status. The
MATLAB output is text of the source and the calls, each with its id, of just the routines that the
C output, if there were no errors, is completed for. -/
theorem separate_runs {support : String} {both matlabOnly cOnly : List String} {folder : Folder}
    {o : Options} {m c : String} {pM pC : Folder.Path} {n : Nat}
    (hboth : Options.parse both = .ok { o with matlab := some m, c := some c })
    (hmatlab : Options.parse matlabOnly = .ok { o with matlab := some m, c := none })
    (hc : Options.parse cOnly = .ok { o with matlab := none, c := some c })
    (hbatching : o.batching = false)
    (hpM : folder.place m = .ok pM) (hpC : folder.place c = .ok pC) (hne : pM ≠ pC)
    (hreads : ∀ p ∈ Step.reads (script support both folder), p ∉ [pM, pC])
    (hstatus : (run support both folder).2 = .status n) :
    let r := run support both folder
    let rM := run support matlabOnly folder
    let rC := run support cOnly folder
    rM.1.folder.get? pM = r.1.folder.get? pM ∧ rC.1.folder.get? pC = r.1.folder.get? pC ∧
    rM.1.notices = r.1.notices ∧ rC.1.notices = r.1.notices ∧ rM.2 = r.2 ∧ rC.2 = r.2 ∧
    (o.help = false → o.inputs ≠ [] → ∃ (pieces : List MatlabPiece) (l : Ledger),
      rM.1.folder.get? pM = some (String.join (pieces.map (·.text o.mex))).toUTF8 ∧
      (pieces.filterMap MatlabPiece.routine?).Perm l.routines ∧
      (n = 0 → ∃ before text, Gateway.body l.context l.groups = .ok text ∧
        rC.1.folder.get? pC = some (before ++ text).toUTF8)) := by
  intro r rM rC
  by_cases hidle : o.help = true ∨ o.inputs = []
  · have hargs : both ≠ [] := args_ne_nil hboth fun h => nomatch congrArg (·.matlab) h
    have hargsM : matlabOnly ≠ [] := args_ne_nil hmatlab fun h => nomatch congrArg (·.matlab) h
    have hargsC : cOnly ≠ [] := args_ne_nil hc fun h => nomatch congrArg (·.c) h
    rw [show r = _ from (unstarted_idle hboth hidle).run hargs,
      show rM = _ from (unstarted_idle hmatlab hidle).run hargsM,
      show rC = _ from (unstarted_idle hc hidle).run hargsC]
    refine ⟨rfl, rfl, rfl, rfl, rfl, rfl, fun help inputs => ?_⟩
    exact absurd hidle (by simp [help, inputs])
  obtain ⟨help, inputs⟩ : o.help = false ∧ o.inputs ≠ [] := by simpa using hidle
  let oB : Options := { o with matlab := some m, c := some c }
  let oM : Options := { o with matlab := some m, c := none }
  let oC : Options := { o with matlab := none, c := some c }
  let d := opened folder (some pM) (some pC)
  let dM := opened folder (some pM) none
  let dC := opened folder none (some pC)
  let w := inputFiles support oB false o.inputs (start oB d)
  have hpathM : outputPath folder (some m) = .ok (some pM) := outputPath_eq_some.2 ⟨m, rfl, hpM⟩
  have hpathC : outputPath folder (some c) = .ok (some pC) := outputPath_eq_some.2 ⟨c, rfl, hpC⟩
  have hB : Started support both folder oB _ _ := started hboth help inputs hpathM hpathC
  have hM : Started support matlabOnly folder oM _ none := started hmatlab help inputs hpathM rfl
  have hC : Started support cOnly folder oC none _ := started hc help inputs rfl hpathC
  have hX : ∀ p ∈ [pM, pC], folder.Holds p := by
    simp [Folder.holds_place hpM, Folder.holds_place hpC]
  have hholds : ∀ p ∈ [pM, pC], d.folder.Holds p := fun p hp =>
    (Folder.covers_makeAll (fun _ hq => hq) hX).holds.1 (hX p hp)
  have hfits : Walk.Fits oB.mode [pM, pC] d.folder
      (Step.deeds (steps support oB false o.inputs (start oB d))) := by
    rw [hB.script] at hreads
    refine ⟨hreads, fun hb => ?_⟩
    cases hbatching.symm.trans hb
  -- The three runs, as they are seen in the first one.
  have hr : r = conclude (w.andThen complete) := hB.run
  have hended : (conclude (w.andThen complete)).2 = .status n := hr ▸ hstatus
  have hrM : rM = conclude ((w.andThen complete).seen dM.folder true false) := by
    have hseen : inputFiles support oM false o.inputs (start oM dM) = w.seen dM.folder true false :=
      inputFiles_seen (show Matching oB oM _ _ from ⟨hholds, rfl, hbatching⟩) rfl hbatching hfits
        (abreast_start hX [pM] (by simp) true false)
    rw [← complete_unseen hended, ← hseen]
    exact hM.run
  have hrC : rC = conclude ((w.andThen complete).seen dC.folder false true) := by
    have hseen : inputFiles support oC false o.inputs (start oC dC) = w.seen dC.folder false true :=
      inputFiles_seen (show Matching oB oC _ _ from ⟨hholds, rfl, hbatching⟩) rfl hbatching hfits
        (abreast_start hX [pC] (by simp) false true)
    rw [← complete_seen, ← hseen]
    exact hC.run
  have hkept : Kept d.folder pM pC w :=
    hB.plays.induct ⟨rfl, rfl, rfl, nofun⟩ fun s _ _ hgoes h => h.perform hbatching s hgoes
  obtain ⟨pieces, s', hs', htext, hperm⟩ : Shows o.mex w :=
    hB.plays.induct ⟨[], _, rfl, rfl, .refl _⟩ fun s _ _ hgoes h => h.perform hbatching s hgoes
  have hempty : ∀ (ps : List Folder.Path) (p : Folder.Path), p ∈ ps →
      (ps.foldl Folder.make folder).get? p = some ByteArray.empty := by
    intro ps p hp
    rw [Folder.get?_makeAll, if_pos hp]
  obtain ⟨s, t, hs, ht, hsame⟩ := hkept.complete.separate hne (hempty [pM, pC])
    (hempty [pM] pM (by simp)) (hempty [pC] pC (by simp)) hended
  rw [hr, hrM, hrC]
  refine ⟨hsame.matlab'.trans hsame.matlab.symm, hsame.c'.trans hsame.c.symm, hsame.notices,
    hsame.notices', hsame.ending.trans hended.symm, hsame.ending'.trans hended.symm, fun _ _ => ?_⟩
  obtain ⟨c', halt, -, hcompleted⟩ := keeps_complete w
  have hmatlab : (w.andThen complete).desk.matlab = w.desk.matlab := by rw [hcompleted]
  cases (hmatlab.symm.trans hs).symm.trans hs'
  refine ⟨pieces, w.reader, htext ▸ hsame.matlab', hperm, ?_⟩
  rintro rfl
  obtain ⟨t', before, text, ht', htext', hbody⟩ := hkept.completed hended
  cases ht.symm.trans ht'
  exact ⟨before, text, hbody, htext' ▸ hsame.c'⟩

def stubArgs : List String := ["-m", "m.m", "-c", "c.c", "a.mw"]

/-- Two calls around a line of MATLAB, the second one in an included file. -/
def stubFolder : Folder :=
  { files := [(["a.mw"], "# f();\nx\n@include b.mw\n".toUTF8),
      (["b.mw"], "# double y = g(int n);\n".toUTF8)] }

theorem separate_runs_stub :
    let r := run "" stubArgs stubFolder
    let rM := run "" ["-m", "m.m", "a.mw"] stubFolder
    let rC := run "" ["-c", "c.c", "a.mw"] stubFolder
    r.2 = .status 0 ∧ rM.1.folder.get? ["m.m"] = r.1.folder.get? ["m.m"] ∧
    rC.1.folder.get? ["c.c"] = r.1.folder.get? ["c.c"] ∧ rM.2 = .status 0 ∧ rC.2 = .status 0 ∧
    ∃ (pieces : List MatlabPiece) (l : Ledger),
      rM.1.folder.get? ["m.m"] = some (String.join (pieces.map (·.text "mexfunction"))).toUTF8 ∧
      (pieces.filterMap MatlabPiece.routine?).Perm l.routines ∧
      ∃ before text, Gateway.body l.context l.groups = .ok text ∧
        rC.1.folder.get? ["c.c"] = some (before ++ text).toUTF8 := by
  intro r rM rC
  have hstatus : r.2 = .status 0 := by decide +kernel
  obtain ⟨hM, hC, -, -, hendM, hendC, hcalls⟩ := separate_runs
    (o := { inputs := ["a.mw"] }) (m := "m.m") (c := "c.c")
    (show Options.parse stubArgs = .ok _ by decide +kernel)
    (show Options.parse ["-m", "m.m", "a.mw"] = .ok _ by decide +kernel)
    (show Options.parse ["-c", "c.c", "a.mw"] = .ok _ by decide +kernel)
    rfl (show stubFolder.place "m.m" = .ok ["m.m"] by decide +kernel)
    (show stubFolder.place "c.c" = .ok ["c.c"] by decide +kernel) (by decide)
    (show ∀ p ∈ Step.reads (script "" stubArgs stubFolder), p ∉ [["m.m"], ["c.c"]] by decide +kernel)
    hstatus
  obtain ⟨pieces, l, htext, hperm, hbody⟩ := hcalls rfl (by simp)
  exact ⟨hstatus, hM, hC, hendM.trans hstatus, hendC.trans hstatus, pieces, l, htext, hperm, hbody rfl⟩

end Command

end MexBridge
