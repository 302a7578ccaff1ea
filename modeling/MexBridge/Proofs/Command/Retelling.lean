import MexBridge.Proofs.Command.Outputs
import MexBridge.Proofs.Source.Retelling

/-!
# Runs on sources with other names

A run on sources that are the same but for names in declarations does the same step by step, but for
those names (`script_retold`), if no output is read.
-/

namespace MexBridge

namespace Command

namespace Step

/-- The same step, with another name or another line of C. -/
inductive Like : Step → Step → Prop
  | same (s : Step) : Like s s
  | deed {d d' : Deed} (h : d.Like d') : Like (.deed d) (.deed d')

theorem Like.all (ss : List Step) : List.Forall₂ Like ss ss := List.forall₂_same.2 fun s _ => .same s

end Step

section

variable {support : String} {o o' : Options} {w w' v v' : Walk Ledger} {X : List Folder.Path}
  {F F' : Folder}

open Walk (Pace Told Avoids Plays)

/-- Each step keeps two runs in pace. -/
theorem pace_perform (ht : Told o.mode o'.mode X F F') {s s' : Step} (hs : s.Like s')
    (havoids : Avoids o.mode X F (Step.deeds [s])) (h : Pace X F F' w v) :
    Pace X F F' (perform support o s w) (perform support o' s' v) := by
  cases hs with
  | deed hd => exact h.perform ht hd havoids
  | same =>
    cases s with
    | header =>
      exact { h with
        confined := h.confined.alike (Desk.alike_writeAllC _ _)
        confined' := h.confined'.alike (Desk.alike_writeAllC _ _)
        c := (fileC_perform (s := .header) v).trans (h.c.trans (fileC_perform (s := .header) w).symm) }
    | deed d => exact h.perform ht (.same d) havoids
    | _ =>
      exact { h with
        confined := h.confined.alike ⟨rfl, rfl⟩, confined' := h.confined'.alike ⟨rfl, rfl⟩ }

theorem pace_plays (ht : Told o.mode o'.mode X F F') {ss ss' : List Step}
    (hss : List.Forall₂ Step.Like ss ss') (havoids : Avoids o.mode X F (Step.deeds ss))
    (h : Pace X F F' w v) (hw : Plays (perform support o) w ss w')
    (hv : Plays (perform support o') v ss' v') : Pace X F F' w' v' := by
  refine hw.rel hv hss h fun s hs s' hlike w v _ h => ?_
  exact pace_perform ht hlike (havoids.of_sublist (Step.deeds_sublist hs)) h

/-- With an input file the same is done. -/
theorem pace_fileSteps (ht : Told o.mode o'.mode X F F') (headed : Bool) (name : String)
    (hhalt : w.halt = none)
    (havoids : Avoids o.mode X F (Step.deeds (fileSteps support o headed name w)))
    (h : Pace X F F' w v) :
    List.Forall₂ Step.Like (fileSteps support o headed name w) (fileSteps support o' headed name v) ∧
      (inputFile support o' headed name v).1 = (inputFile support o headed name w).1 := by
  have hbegin : Pace X F F' (perform support o .begin w) (perform support o' .begin v) :=
    pace_perform ht (.same _) Walk.avoids_nil h
  have hgoes : (perform support o .begin w).halt = none := hhalt
  rw [inputFile_eq, inputFile_eq]
  unfold fileSteps at havoids ⊢
  generalize perform support o .begin w = u at *
  generalize perform support o' .begin v = u' at *
  dsimp only at havoids ⊢
  rw [hbegin.find name]
  cases hfind : u.desk.current.find name with
  | error f => exact ⟨Step.Like.all _, rfl⟩
  | ok p =>
    rw [hfind] at havoids
    obtain ⟨x, hx⟩ : ∃ x, (if headed then u else perform support o .header u) = x := ⟨_, rfl⟩
    obtain ⟨x', hx'⟩ : ∃ x', (if headed then u' else perform support o' .header u') = x' := ⟨_, rfl⟩
    have hhead : Pace X F F' x x' ∧ x.halt = none := by
      subst hx hx'
      cases headed with
      | true => exact ⟨hbegin, hgoes⟩
      | false => exact ⟨pace_perform ht (.same .header) Walk.avoids_nil hbegin, hgoes⟩
    obtain ⟨hpace, hxgoes⟩ := hhead
    have hscript : Avoids o.mode X F (x.script o.mode name) := by
      rw [← Step.deeds_map (x.script o.mode name), ← hx]
      refine havoids.of_sublist (List.Sublist.filterMap _ ?_)
      exact ((List.sublist_append_left _ _).trans (List.sublist_append_right _ _)).cons _
    have hlike := hpace.script ht name hxgoes hscript
    have hend := (hpace.plays ht hlike hscript (Walk.plays_file name hxgoes)
      (Walk.plays_file name (hpace.halt.trans hxgoes))).halt
    dsimp only
    rw [hx, hx', readSteps, readSteps, hend]
    refine ⟨.cons (.same _) (List.rel_append (Step.Like.all _) (List.rel_append ?_ (Step.Like.all _))), rfl⟩
    rw [List.forall₂_map_left_iff, List.forall₂_map_right_iff]
    exact hlike.imp fun _ _ => .deed

/-- **Runs on sources that differ in names do the same but for those names.** -/
theorem pace_steps (ht : Told o.mode o'.mode X F F') (headed : Bool) (names : List String)
    (havoids : Avoids o.mode X F (Step.deeds (steps support o headed names w)))
    (h : Pace X F F' w v) :
    List.Forall₂ Step.Like (steps support o headed names w) (steps support o' headed names v) := by
  induction names generalizing headed w v with
  | nil => exact .nil
  | cons name names ih =>
    unfold steps at havoids ⊢
    rw [h.halt]
    split
    · exact .nil
    · rename_i hend
      have hgoes : w.halt = none := by simpa using hend
      rw [if_neg hend] at havoids
      have hfirst := havoids.of_sublist ((List.sublist_append_left _ _).filterMap _)
      obtain ⟨hlike, hheaded⟩ := pace_fileSteps ht headed name hgoes hfirst h
      have hnext := pace_plays ht hlike hfirst h (plays_inputFile support o headed name hgoes)
        (plays_inputFile support o' headed name (h.halt.trans hgoes))
      rw [hheaded]
      exact List.rel_append hlike
        (ih _ (havoids.of_sublist ((List.sublist_append_right _ _).filterMap _)) hnext)

end

/-! ## Outputs -/

/-- No output of a run is read. -/
structure AllUnread (folder : Folder) (o : Options) (ss : List Step) : Prop where
  matlab : ∀ p, outputPath folder o.matlab = .ok (some p) → p ∉ Step.reads ss
  c : ∀ p, outputPath folder o.c = .ok (some p) → p ∉ Step.reads ss
  targets : o.batching = true → ∀ name ∈ Step.targets ss, ∀ p, folder.place name = .ok p →
    p ∉ Step.reads ss

/-- The files that outputs of a run go to. -/
def outputFiles (folder : Folder) (o : Options) (matlab c : Option Folder.Path) (ss : List Step) :
    List Folder.Path :=
  matlab.toList ++ c.toList
    ++ if o.batching then (Step.targets ss).filterMap fun name => (folder.place name).toOption else []

section

variable {support : String} {args args' : List String} {o : Options} {s' : Settings}
  {folder folder' : Folder} {matlab c : Option Folder.Path} {ss : List Step} {R : List Folder.Path}
  {p : Folder.Path}

theorem mem_outputFiles : p ∈ outputFiles folder o matlab c ss ↔ matlab = some p ∨ c = some p ∨
    o.batching = true ∧ ∃ name ∈ Step.targets ss, folder.place name = .ok p := by
  have hplace : ∀ name, (folder.place name).toOption = some p ↔ folder.place name = .ok p := by
    intro name
    cases folder.place name <;> simp [Except.toOption]
  unfold outputFiles
  cases o.batching <;> simp [hplace]

theorem outputPath_sameNames (h : folder.SameNames folder') (name : Option String) :
    outputPath folder' name = outputPath folder name := by
  unfold outputPath
  simp only [h.place]

theorem sameNames_opened (h : folder.SameNames folder') (matlab c : Option Folder.Path) :
    (opened folder matlab c).folder.SameNames (opened folder' matlab c).folder := by
  unfold opened
  dsimp only
  generalize matlab.toList ++ c.toList = ps
  induction ps generalizing folder folder' with
  | nil => exact h
  | cons p ps ih => exact ih (h.put p _ _)

theorem agrees_opened (h : folder.Agrees R folder') (matlab c : Option Folder.Path) :
    (opened folder matlab c).folder.Agrees R (opened folder' matlab c).folder := by
  refine { sameNames_opened h.toSameNames matlab c with other := fun p hp => ?_ }
  unfold opened
  rw [Folder.get?_makeAll, Folder.get?_makeAll, h.other p hp]

theorem openC_eq_error {d : Desk} {n : String} {f : Fault} :
    d.openC n = .error f ↔ d.folder.place n = .error f := by
  unfold Desk.openC Folder.create
  cases d.folder.place n <;> simp [bind, Except.bind, pure, Except.pure]

/-- Outputs that cannot be opened in one folder cannot be opened in the other. -/
theorem openOutputs_error (h : folder.SameNames folder') {f : Fault}
    (hopen : openOutputs o { folder := folder } = .error f) :
    openOutputs o { folder := folder' } = .error f := by
  have hc : ∀ {d d' : Desk}, d.folder.SameNames d'.folder →
      openNamed Desk.openC o.c d = .error f → openNamed Desk.openC o.c d' = .error f := by
    intro d d' hnames herror
    unfold openNamed at herror ⊢
    generalize o.c.filter (· ≠ "") = name at herror ⊢
    cases name with
    | none => cases herror
    | some n => exact openC_eq_error.2 ((hnames.place n).trans (openC_eq_error.1 herror))
  unfold openOutputs at hopen ⊢
  generalize hname : o.matlab.filter (· ≠ "") = name
  rw [openNamed, hname] at hopen ⊢
  cases name with
  | none => exact hc h hopen
  | some m =>
    dsimp only at hopen ⊢
    have hplaces := h.place m
    cases hplace : folder.place m with
    | error f' =>
      rw [Desk.openMatlab_eq_error hplace] at hopen
      rw [Desk.openMatlab_eq_error (hplaces.trans hplace)]
      exact hopen
    | ok p =>
      rw [openMatlab_eq_ok.2 ⟨p, hplace, rfl⟩] at hopen
      rw [openMatlab_eq_ok.2 ⟨p, hplaces.trans hplace, rfl⟩]
      exact hc (h.put p _ _) hopen

theorem get?_opened (hp : p ∉ outputFiles folder o matlab c ss) :
    (opened folder matlab c).folder.get? p = folder.get? p := by
  have hnot : p ∉ matlab.toList ++ c.toList := fun hmem => hp (List.mem_append_left _ hmem)
  exact (Folder.get?_makeAll _ folder p).trans (if_neg hnot)

theorem holds_outputFiles (hmatlab : outputPath folder o.matlab = .ok matlab)
    (hc : outputPath folder o.c = .ok c) :
    ∀ p ∈ outputFiles folder o matlab c ss, (opened folder matlab c).folder.Holds p := by
  intro p hp
  refine (covers_opened hmatlab hc).holds.1 ?_
  rcases mem_outputFiles.1 hp with rfl | rfl | ⟨-, name, -, hplace⟩
  · exact holds_outputs hmatlab hc p (by simp)
  · exact holds_outputs hmatlab hc p (by simp)
  · exact Folder.holds_place hplace

theorem told_opened (hmatlab : outputPath folder o.matlab = .ok matlab)
    (hc : outputPath folder o.c = .ok c) (h : folder.Retold R folder') (ss : List Step)
    (s' : Settings) :
    Walk.Told o.mode { o with settings := s' }.mode (outputFiles folder o matlab c ss)
      (opened folder matlab c).folder (opened folder' matlab c).folder where
  quiet := quiet_mode o
  quiet' := quiet_mode _
  batching := rfl
  holds := holds_outputFiles hmatlab hc
  names := sameNames_opened h.toSameNames matlab c
  texts := by
    intro p hp
    have hp' : p ∉ outputFiles folder' o matlab c [] := fun hmem => hp (mem_outputFiles.2
      ((mem_outputFiles.1 hmem).imp_right (Or.imp_right fun ⟨hb, name, hname, _⟩ => by cases hname)))
    have hread : ∀ d d' : Folder, d'.get? p = d.get? p → d'.bytesFrom p 0 = d.bytesFrom p 0 := by
      intro d d' hget
      unfold Folder.bytesFrom
      rw [hget]
    rw [hread _ _ (get?_opened hp), hread _ _ (get?_opened hp')]
    by_cases hR : p ∈ R
    · exact h.texts p hR
    · rw [hread _ _ (h.other p hR)]
      exact .refl _

theorem avoids_opened (hmatlab : outputPath folder o.matlab = .ok matlab)
    (hc : outputPath folder o.c = .ok c) (h : AllUnread folder o ss) :
    Walk.Avoids o.mode (outputFiles folder o matlab c ss) (opened folder matlab c).folder
      (Step.deeds ss) where
  reads := by
    intro p hp hmem
    rcases mem_outputFiles.1 hmem with rfl | rfl | ⟨hb, name, hname, hplace⟩
    · exact h.matlab p hmatlab hp
    · exact h.c p hc hp
    · exact h.targets hb name hname p hplace hp
  opens := fun hb name hname p hplace =>
    mem_outputFiles.2 (Or.inr (Or.inr ⟨hb, name, hname, (covers_opened hmatlab hc).place.2 hplace⟩))

/-- Where the runs start. -/
theorem pace_start (h : folder.SameNames folder') (o' : Options) :
    Walk.Pace (outputFiles folder o matlab c ss) (opened folder matlab c).folder
      (opened folder' matlab c).folder (start o (opened folder matlab c))
      (start o' (opened folder' matlab c)) := by
  have hwritten : ∀ d : Folder, ∀ p ∈ (opened d matlab c).written, p ∈ outputFiles folder o matlab c ss := by
    intro d p hp
    refine List.mem_append_left _ ?_
    unfold Desk.written Desk.outputs opened at hp
    rw [List.filterMap_append] at hp
    cases matlab <;> cases c <;> exact hp
  exact
    { confined := ⟨.refl _ _, hwritten folder⟩, confined' := ⟨.refl _ _, hwritten folder'⟩
      names := sameNames_opened h matlab c, matlab := rfl, c := rfl, file := rfl, line := rfl
      inBlock := rfl, halt := rfl }

theorem alike_sameNames (h : folder.SameNames folder') (s' : Settings) :
    Alike o { o with settings := s' } folder folder' :=
  ⟨rfl, rfl, outputPath_sameNames h _, outputPath_sameNames h _, fun _ => openOutputs_error h⟩

/-- **A run on sources that differ in names does the same but for those names,** if no output is
read. -/
theorem script_retold (parsed : Options.parse args = .ok o)
    (parsed' : Options.parse args' = .ok { o with settings := s' })
    (h : folder.Retold (Step.reads (script support args folder)) folder')
    (hunread : AllUnread folder o (script support args folder)) :
    List.Forall₂ Step.Like (script support args folder) (script support args' folder') := by
  have halike := alike_sameNames (o := o) h.toSameNames s'
  cases (paired parsed parsed' halike : Paired support args folder _ args' folder' _) with
  | unstarted hw hv =>
    rw [hw.script, hv.script]
    exact .nil
  | started hw hv =>
    rw [hw.script] at h hunread
    rw [hw.script, hv.script]
    exact pace_steps (told_opened hw.matlab hw.c h _ s') false o.inputs
      (avoids_opened hw.matlab hw.c hunread) (pace_start h.toSameNames _)

end

end Command

end MexBridge
