import MexBridge.Proofs.Command.Accounting
import MexBridge.Proofs.Source.Lockstep

/-!
# The script of a run

What a run does with its input files is a script, too: the deeds of its walks, and what is done where a
file begins and ends (`Command.script`). Reading the input is performing the script
(`plays_inputFiles`), and two runs that differ in their outputs alone have the same one
(`Abreast.steps`).
-/

namespace MexBridge

namespace Command

/-- One thing that a run does with its input. -/
inductive Step where
  /-- An input file is come to. -/
  | begin
  /-- It cannot be read. -/
  | unreadable (name : String)
  /-- The header of the gateway file. -/
  | header
  | deed (d : Deed)
  /-- The file is summed up. -/
  | finish
deriving DecidableEq, Repr

namespace Step

def deed? : Step → Option Deed
  | .deed d => some d
  | _ => none

def deeds (ss : List Step) : List Deed := ss.filterMap deed?

theorem deeds_map (ds : List Deed) : deeds (ds.map .deed) = ds := by
  rw [deeds, List.filterMap_map]
  exact List.filterMap_some

theorem deeds_sublist {s : Step} {ss : List Step} (h : s ∈ ss) : (deeds [s]).Sublist (deeds ss) :=
  (List.singleton_sublist.2 h).filterMap _

/-- The files opened for reading. -/
def reads (ss : List Step) : List Folder.Path := (deeds ss).filterMap Deed.read?

/-- The names of the files that the MATLAB output is to go to. -/
def targets (ss : List Step) : List String := (deeds ss).filterMap Deed.target?

theorem targets_cons (s : Step) (ss : List Step) : targets (s :: ss) = targets [s] ++ targets ss := by
  unfold targets deeds
  rw [← List.filterMap_append, ← List.filterMap_append]
  rfl

theorem targets_direct {target : String} (h : target ≠ "") :
    targets [.deed (.direct target)] = [target] := by
  simp [targets, deeds, deed?, Deed.target?, h]

theorem targets_of_ne {s : Step} (h : ∀ target, target ≠ "" → s ≠ .deed (.direct target)) :
    targets [s] = [] := by
  cases s with
  | deed d =>
    cases d with
    | direct target =>
      have hempty : target = "" := by
        by_contra hne
        exact h target hne rfl
      rw [hempty]
      rfl
    | _ => rfl
  | _ => rfl

/-- A step that directs the MATLAB output to a file. -/
theorem mem_targets_singleton {name : String} {s : Step} :
    name ∈ targets [s] ↔ s = .deed (.direct name) ∧ name ≠ "" := by
  by_cases h : ∃ target, target ≠ "" ∧ s = .deed (.direct target)
  · obtain ⟨target, hne, rfl⟩ := h
    rw [targets_direct hne]
    simp only [List.mem_singleton, Step.deed.injEq, Deed.direct.injEq]
    constructor
    · rintro rfl
      exact ⟨rfl, hne⟩
    · exact fun heq => heq.1.symm
  · rw [targets_of_ne fun target hne heq => h ⟨target, hne, heq⟩]
    simp only [List.not_mem_nil, false_iff]
    exact fun heq => h ⟨name, heq.2, heq.1⟩

end Step

/-- The mode of the walks of a run. -/
def Options.mode (o : Options) : WalkMode Ledger := walkMode o.mex o.batching o.listing

def perform (support : String) (o : Options) : Step → Walk Ledger → Walk Ledger
  | .begin, w => { w with reader := { w.reader with typeErrors := 0 } }
  | .unreadable name, w => w.onDesk (.report [.unreadable name])
  | .header, w => w.onDesk (.writeAllC (Gateway.headerParts w.reader.context.settings support))
  | .deed d, w => w.perform o.mode d
  | .finish, w => finishFile w

/-- What is done in a file that can be read. -/
def readSteps (o : Options) (name : String) (w : Walk Ledger) : List Step :=
  (w.script o.mode name).map .deed
    ++ if (w.file o.mode name).halt.isSome then [] else [.finish]

/-- What is done with one input file. -/
def fileSteps (support : String) (o : Options) (headed : Bool) (name : String) (w : Walk Ledger) :
    List Step :=
  let w := perform support o .begin w
  .begin :: match w.desk.current.find name with
    | .error f => [if f.ofFile then .unreadable name else .deed (.fail f)]
    | .ok _ =>
      (if headed then [] else [.header])
        ++ readSteps o name (if headed then w else perform support o .header w)

/-- What is done with input files. -/
def steps (support : String) (o : Options) : Bool → List String → Walk Ledger → List Step
  | _, [], _ => []
  | headed, name :: names, w =>
    if w.halt.isSome then []
    else
      fileSteps support o headed name w
        ++ steps support o (inputFile support o headed name w).1 names
          (inputFile support o headed name w).2

/-- Where reading starts. -/
def start (o : Options) (d : Desk) : Walk Ledger :=
  { desk := d, reader := { context := .ofSettings o.settings } }

/-- What a run does with its input files, if it comes to them. -/
def script (support : String) (args : List String) (folder : Folder) : List Step :=
  match Options.parse args with
  | .error _ => []
  | .ok o =>
    if o.help || o.inputs.isEmpty then []
    else match openOutputs o { folder := folder } with
      | .error _ => []
      | .ok d => steps support o false o.inputs (start o d)

section

variable {support : String} {o o' : Options} {w w' v v' : Walk Ledger}

theorem inputFile_eq (support : String) (o : Options) (headed : Bool) (name : String)
    (w : Walk Ledger) : inputFile support o headed name w =
      let u := perform support o .begin w
      match u.desk.current.find name with
      | .error f =>
        (headed, if f.ofFile then perform support o (.unreadable name) u else u.fail f)
      | .ok _ =>
        (true, ((if headed then u else perform support o .header u).file o.mode name).andThen
          finishFile) :=
  rfl

theorem plays_deeds {ds : List Deed} (h : Walk.Plays (Walk.perform o.mode) w ds w') :
    Walk.Plays (perform support o) w (ds.map .deed) w' :=
  h.image (f := id) (fun _ => rfl) fun _ _ _ => rfl

theorem plays_inputFile (support : String) (o : Options) (headed : Bool) (name : String)
    (hhalt : w.halt = none) :
    Walk.Plays (perform support o) w (fileSteps support o headed name w)
      (inputFile support o headed name w).2 := by
  rw [inputFile_eq, fileSteps]
  refine .cons hhalt ?_
  have hgoes : (perform support o .begin w).halt = none := hhalt
  generalize perform support o .begin w = u at hgoes ⊢
  dsimp only
  cases u.desk.current.find name with
  | error f =>
    dsimp only
    split <;> exact .single hgoes
  | ok p =>
    generalize hv : (if headed then u else perform support o .header u) = v
    have hhead : Walk.Plays (perform support o) u (if headed then [] else [.header]) v ∧
        v.halt = none := by
      rw [← hv]
      split
      · exact ⟨.nil u, hgoes⟩
      · exact ⟨.single hgoes, hgoes⟩
    refine hhead.1.append ((plays_deeds (Walk.plays_file name hhead.2)).append ?_)
    unfold Walk.andThen
    split
    · exact .nil _
    · rename_i hend
      exact .single (by simpa using hend)

/-- **Reading the input files is performing their script.** -/
theorem plays_inputFiles (support : String) (o : Options) (headed : Bool) (names : List String)
    (w : Walk Ledger) :
    Walk.Plays (perform support o) w (steps support o headed names w)
      (inputFiles support o headed names w) := by
  induction names generalizing headed w with
  | nil => exact .nil w
  | cons name names ih =>
    unfold steps inputFiles
    split
    · exact .nil w
    · rename_i hgoes
      exact (plays_inputFile support o headed name (by simpa using hgoes)).append (ih _ _)

/-- The C output stays the one for its file. -/
theorem fileC_perform (s : Step) (w : Walk Ledger) :
    (perform support o s w).desk.c.map (·.file) = w.desk.c.map (·.file) := by
  cases s with
  | header => exact Option.map_map ..
  | deed d =>
    cases d with
    | c s => exact Option.map_map ..
    | direct target => exact congrArg (Option.map (·.file)) (Walk.c_direct target w)
    | _ => rfl
  | _ => rfl

theorem fileC_plays {ss : List Step} (h : Walk.Plays (perform support o) w ss w') :
    w'.desk.c.map (·.file) = w.desk.c.map (·.file) :=
  h.induct (P := fun u => u.desk.c.map (·.file) = w.desk.c.map (·.file)) rfl
    fun s _ u _ hu => (fileC_perform s u).trans hu

/-! ## Two runs in step -/

theorem quiet_mode (o : Options) : o.mode.Quiet where
  toStays := walkMode_stays
  folder := fun _ _ _ => rfl
  matlab := fun _ _ _ => Option.map_map ..
  c := fun _ _ _ => rfl

variable {X : List Folder.Path} {F : Folder}

/-- Two runs at the same place, with the same ledger. -/
structure Abreast (X : List Folder.Path) (F : Folder) (w v : Walk Ledger) : Prop
    extends Walk.Level X F w v where
  reader : v.reader = w.reader

/-- Two sets of options with which the input is read alike. -/
structure Matching (o o' : Options) (X : List Folder.Path) (F : Folder) : Prop where
  holds : ∀ p ∈ X, F.Holds p
  mex : o'.mex = o.mex
  batching : o'.batching = false

theorem Matching.comparable (h : Matching o o' X F) : Walk.Comparable o.mode o'.mode X F :=
  ⟨h.holds, quiet_mode o, quiet_mode o', h.batching⟩

theorem Abreast.perform (ho : Matching o o' X F) {s : Step}
    (hfits : Walk.Fits o.mode X F (Step.deeds [s])) (hhalt : w.halt = none) (h : Abreast X F w v) :
    Abreast X F (Command.perform support o s w) (Command.perform support o' s v) := by
  cases s with
  | begin => exact { h with reader := congrArg (fun l : Ledger => { l with typeErrors := 0 }) h.reader }
  | unreadable name => exact { h with }
  | header =>
    let parts := Gateway.headerParts w.reader.context.settings support
    have hparts : Command.perform support o' .header v = v.onDesk (.writeAllC parts) := by
      simp only [Command.perform, h.reader, parts]
    rw [hparts]
    exact { h.onC (f := (·.writeAll parts)) (fun _ => rfl) with reader := h.reader }
  | deed d =>
    refine { h.toLevel.perform ho.comparable hfits hhalt with reader := ?_ }
    cases d with
    | direct target =>
      exact (Walk.reader_direct ..).trans (h.reader.trans (Walk.reader_direct ..).symm)
    | token t =>
      change (v.reader.feed o'.mex v.desk.file t).1 = (w.reader.feed o.mex w.desk.file t).1
      rw [ho.mex, h.reader, h.file]
    | _ => exact h.reader
  | finish =>
    refine { h with reader := ?_ }
    change (v.reader.finishFile v.desk.file v.desk.line).1
      = (w.reader.finishFile w.desk.file w.desk.line).1
    rw [h.reader, h.file, h.line]

theorem Abreast.plays (ho : Matching o o' X F) {ss : List Step}
    (hfits : Walk.Fits o.mode X F (Step.deeds ss)) (h : Abreast X F w v)
    (hw : Walk.Plays (Command.perform support o) w ss w')
    (hv : Walk.Plays (Command.perform support o') v ss v') : Abreast X F w' v' := by
  refine hw.rel hv (List.forall₂_same.2 fun _ _ => rfl) h ?_
  rintro s hs _ rfl w v hgoes h
  exact h.perform ho (hfits.of_sublist (Step.deeds_sublist hs)) hgoes

/-- With an input file the same is done. -/
theorem Abreast.fileSteps (ho : Matching o o' X F) (headed : Bool) (name : String)
    (hhalt : w.halt = none)
    (hfits : Walk.Fits o.mode X F (Step.deeds (fileSteps support o headed name w)))
    (h : Abreast X F w v) :
    Command.fileSteps support o' headed name v = Command.fileSteps support o headed name w ∧
      (inputFile support o' headed name v).1 = (inputFile support o headed name w).1 := by
  have hbegin : Abreast X F (Command.perform support o .begin w)
      (Command.perform support o' .begin v) :=
    h.perform ho Walk.fits_nil hhalt
  have hgoes : (Command.perform support o .begin w).halt = none := hhalt
  rw [inputFile_eq, inputFile_eq]
  unfold Command.fileSteps at hfits ⊢
  generalize Command.perform support o .begin w = u at *
  generalize Command.perform support o' .begin v = u' at *
  have hcovers := hbegin.current ho.holds
  dsimp only at hfits ⊢
  cases hfind : u.desk.current.find name with
  | error f =>
    obtain ⟨f', hfind', hofFile, hsame⟩ := hcovers.find_error hfind
    rw [hfind']
    dsimp only
    rw [hofFile]
    refine ⟨?_, rfl⟩
    cases hf : f.ofFile with
    | true => rfl
    | false => rw [hsame hf]
  | ok p =>
    rw [hfind] at hfits
    generalize hv : (if headed then u else Command.perform support o .header u) = v at hfits ⊢
    obtain ⟨v', hv'⟩ : ∃ v', (if headed then u' else Command.perform support o' .header u') = v' :=
      ⟨_, rfl⟩
    have hhead : Abreast X F v v' ∧ v.halt = none ∧ v.desk.current.find name = .ok p := by
      subst hv hv'
      cases headed with
      | true => exact ⟨hbegin, hgoes, hfind⟩
      | false =>
        refine ⟨hbegin.perform (s := .header) ho Walk.fits_nil hgoes, hgoes, ?_⟩
        exact (Desk.Alike.find_current (Desk.alike_writeAllC _ u.desk) name).trans hfind
    obtain ⟨hlevel, hvgoes, hvfind⟩ := hhead
    have hscript : Walk.Fits o.mode X F (v.script o.mode name) := by
      rw [← Step.deeds_map (v.script o.mode name)]
      refine hfits.of_sublist (List.Sublist.filterMap _ ?_)
      exact ((List.sublist_append_left _ _).trans (List.sublist_append_right _ _)).cons _
    have hp : p ∉ X := by
      refine hscript.reads p ?_
      unfold Walk.script
      rw [hvfind]
      simp [Deed.read?]
    have hsame := hlevel.toLevel.script ho.comparable hvgoes hvfind hscript
    have hplays := Walk.plays_file (m := o'.mode) name (hlevel.halt.trans hvgoes)
    rw [hsame] at hplays
    have hend := (hlevel.toLevel.plays ho.comparable hscript (Walk.plays_file name hvgoes) hplays).halt
    rw [hcovers.find hp hfind]
    dsimp only
    rw [hv', readSteps, readSteps, hsame, hend]
    exact ⟨rfl, rfl⟩

/-- **Runs that differ in their outputs alone do the same with their input,** unless an output is
read. -/
theorem Abreast.steps (ho : Matching o o' X F) (headed : Bool) (names : List String)
    (hfits : Walk.Fits o.mode X F (Step.deeds (steps support o headed names w)))
    (h : Abreast X F w v) :
    Command.steps support o' headed names v = Command.steps support o headed names w := by
  induction names generalizing headed w v with
  | nil => rfl
  | cons name names ih =>
    unfold Command.steps at hfits ⊢
    rw [h.halt]
    split
    · rfl
    · rename_i hend
      have hgoes : w.halt = none := by simpa using hend
      rw [if_neg hend] at hfits
      have hfirst := hfits.of_sublist ((List.sublist_append_left _ _).filterMap _)
      obtain ⟨hsame, hheaded⟩ := h.fileSteps ho headed name hgoes hfirst
      have hv := plays_inputFile support o' headed name (h.halt.trans hgoes)
      rw [hsame] at hv
      have hnext := h.plays ho hfirst (plays_inputFile support o headed name hgoes) hv
      rw [hsame, hheaded, ih _ (hfits.of_sublist ((List.sublist_append_right _ _).filterMap _)) hnext]

end

end Command

end MexBridge
