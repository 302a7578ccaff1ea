import MexBridge.Command.Run
import MexBridge.Proofs.Ledger.Filing
import MexBridge.Proofs.Source.Actions
import MexBridge.Proofs.Stub.Completion

/-!
# Which runs of the command write their gateway file

All that reading the input does to the ledger is to enter tokens and ends of files in it
(`inputFiles_follows`), so what is known of runs of a ledger is known of the command. A run that
reads its input without an error completes the gateway file, unless a routine has an output on the
GPU without dimensions; then it breaks off with the fault of such an output (`run_completes`).
-/

namespace MexBridge

/-! ## The ledger of a run without errors -/

namespace Ledger

theorem vetted_run {mex : String} {c : Context} {es : List Event}
    (h : (run mex { context := c } es).errors + (run mex { context := c } es).typeErrors = 0) :
    ∀ r ∈ (run mex { context := c } es).routines, ∃ t, r.Vetted t := by
  refine routines_run (Q := fun _ => True) (fun _ _ _ => trivial) ?_ h
  intro l file ts r _ _ parsed h0
  exact ⟨l.context.types, Routine.vetted_check (written_parsed parsed l) h0⟩

theorem typeErrors_finishFile (file : String) (line : Int) (l : Ledger) :
    (l.finishFile file line).1.typeErrors = 0 := by
  unfold finishFile
  dsimp only
  split
  · assumption
  · rfl

/-- No stub has an output on the GPU without dimensions. -/
def Sized (l : Ledger) : Prop := ∀ g ∈ l.groups, ∀ v ∈ g.first.args, ¬ v.Unsized
deriving Decidable

end Ledger

/-! ## The stubs of a gateway file -/

namespace Gateway

theorem stub_of_body {c : Context} {gs : List Group} {text : String} (h : body c gs = .ok text) :
    ∀ g ∈ gs, ∃ s, g.stub c = .ok s := by
  obtain ⟨stubs, h, -⟩ := bind_eq_ok.1 h
  obtain ⟨ss, h, -⟩ := bind_eq_ok.1 h
  intro g hg
  obtain ⟨s, -, hs⟩ := Routine.exists_ok_of_mapM h g hg
  exact ⟨s, hs⟩

theorem stub_of_body_error {c : Context} {gs : List Group} {f : Fault} (h : body c gs = .error f) :
    ∃ g ∈ gs, g.stub c = .error f := by
  rcases Routine.bind_eq_error h with h | ⟨stubs, -, h⟩
  · rcases Routine.bind_eq_error h with h | ⟨ss, -, h⟩
    · exact Routine.mapM_eq_error h
    · cases h
  · cases h

end Gateway

namespace Command

/-! ## What reading the input does to the ledger -/

/-- `w'` comes after `w`: things were entered in the ledger, and the C output is as open as
before. -/
structure Follows (mex : String) (w w' : Walk Ledger) : Prop where
  entered : ∃ es, w'.reader = w.reader.run mex es
  output : w.desk.Keeps w'.desk

/-- No type errors are left to be counted, unless the walk was halted. -/
def Settled (w : Walk Ledger) : Prop := w.halt = none → w.reader.typeErrors = 0

variable {mex support : String} {o : Options} {w w' w'' : Walk Ledger}

theorem Follows.refl (w : Walk Ledger) : Follows mex w w := ⟨⟨[], rfl⟩, rfl⟩

theorem Follows.trans (h : Follows mex w w') (h' : Follows mex w' w'') : Follows mex w w'' := by
  obtain ⟨es, hes⟩ := h.entered
  obtain ⟨es', hes'⟩ := h'.entered
  refine ⟨⟨es ++ es', ?_⟩, h'.output.trans h.output⟩
  rw [hes', hes, Ledger.run, Ledger.run, Ledger.run, List.foldl_append]

theorem follows_action {batching listing : Bool}
    (h : Walk.Action (walkMode mex batching listing) w w') : Follows mex w w' := by
  cases h with
  | desk d h => exact ⟨⟨[], rfl⟩, h⟩
  | feed t => exact ⟨⟨[.token w.desk.file t], rfl⟩, rfl⟩
  | block b => exact ⟨⟨[], rfl⟩, rfl⟩
  | halt h => exact ⟨⟨[], rfl⟩, rfl⟩

theorem follows_path {batching listing : Bool}
    (h : Walk.Path (walkMode mex batching listing) w w') : Follows mex w w' := by
  induction h with
  | refl => exact .refl w
  | tail _ step ih => exact ih.trans (follows_action step)

theorem follows_finishFile (w : Walk Ledger) : Follows mex w (finishFile w) :=
  ⟨⟨[.endOfFile w.desk.file w.desk.line], rfl⟩, rfl⟩

theorem follows_file (o : Options) (name : String) (w : Walk Ledger) :
    Follows o.mex w ((w.file (walkMode o.mex o.batching o.listing) name).andThen finishFile) ∧
      Settled ((w.file (walkMode o.mex o.batching o.listing) name).andThen finishFile) := by
  have hfile := follows_path (Walk.path_file (m := walkMode o.mex o.batching o.listing) name w)
  unfold Walk.andThen
  split
  · rename_i hhalt
    exact ⟨hfile, fun h => by simp [h] at hhalt⟩
  · exact ⟨hfile.trans (follows_finishFile _), fun _ => Ledger.typeErrors_finishFile ..⟩

theorem inputFile_follows (support : String) (o : Options) (headed : Bool) (name : String)
    (hw : w.reader.typeErrors = 0) :
    Follows o.mex w (inputFile support o headed name w).2 ∧
      Settled (inputFile support o headed name w).2 := by
  have hreset : { w with reader := { w.reader with typeErrors := 0 } } = w := by rw [← hw]
  unfold inputFile
  rw [hreset]
  dsimp only
  split
  · dsimp only
    split
    · exact ⟨⟨⟨[], rfl⟩, rfl⟩, fun _ => hw⟩
    · exact ⟨⟨⟨[], rfl⟩, rfl⟩, fun _ => hw⟩
  · dsimp only
    split
    · exact follows_file o name w
    · have hheader : Follows o.mex w
          (w.onDesk (.writeAllC (Gateway.headerParts w.reader.context.settings support))) :=
        ⟨⟨[], rfl⟩, Desk.keeps_writeAllC _ _⟩
      obtain ⟨hfollows, hsettled⟩ := follows_file o name
        (w.onDesk (.writeAllC (Gateway.headerParts w.reader.context.settings support)))
      exact ⟨hheader.trans hfollows, hsettled⟩

/-- **Reading the input is a run of the ledger.** -/
theorem inputFiles_follows (support : String) (o : Options) (headed : Bool) (names : List String)
    (hw : Settled w) :
    Follows o.mex w (inputFiles support o headed names w) ∧
      Settled (inputFiles support o headed names w) := by
  induction names generalizing headed w with
  | nil => exact ⟨.refl w, hw⟩
  | cons name names ih =>
    unfold inputFiles
    split
    · exact ⟨.refl w, hw⟩
    · rename_i hhalt
      have herr : w.reader.typeErrors = 0 := hw (by simpa using hhalt)
      obtain ⟨hfile, hsettled⟩ := inputFile_follows support o headed name herr
      obtain ⟨hrest, hsettled⟩ := ih _ hsettled
      exact ⟨hfile.trans hrest, hsettled⟩

/-! ## From the options to the gateway file -/

/-- What reading the input comes to. -/
def reading (support : String) (o : Options) (folder : Folder) : Except Fault (Walk Ledger) := do
  let d ← openOutputs o { folder := folder }
  return inputFiles support o false o.inputs
    { desk := d, reader := { context := .ofSettings o.settings } }

/-- The command names a C output and has input, all of which is read without an error; `w` is what
reading it comes to. -/
structure ReadsClean (support : String) (args : List String) (folder : Folder) (o : Options)
    (w : Walk Ledger) : Prop where
  parsed : Options.parse args = .ok o
  help : o.help = false
  inputs : o.inputs ≠ []
  output : ∃ name, o.c = some name ∧ name ≠ ""
  read : reading support o folder = .ok w
  finished : w.halt = none
  errors : w.reader.errors = 0

/-- For input at hand it is enough to evaluate the reading; `p` is what else is checked of it. -/
theorem readsClean_of_any (support : String) {args : List String} (folder : Folder) {o : Options}
    (p : Walk Ledger → Bool) (parsed : Options.parse args = .ok o) (help : o.help = false)
    (inputs : o.inputs ≠ []) (output : ∃ name, o.c = some name ∧ name ≠ "")
    (h : (reading support o folder).toOption.any
      (fun w => w.halt = none && w.reader.errors = 0 && p w) = true) :
    ∃ w, ReadsClean support args folder o w ∧ p w = true := by
  cases hread : reading support o folder with
  | error f => simp [hread, Except.toOption] at h
  | ok w =>
    simp only [hread, Except.toOption, Option.any_some, Bool.and_eq_true, decide_eq_true_eq] at h
    obtain ⟨⟨hhalt, herrors⟩, hp⟩ := h
    exact ⟨w, ⟨parsed, help, inputs, output, hread, hhalt, herrors⟩, hp⟩

theorem isSome_openOutputs {d d' : Desk} (hc : ∃ name, o.c = some name ∧ name ≠ "")
    (h : openOutputs o d = .ok d') : d'.c.isSome = true := by
  obtain ⟨name, hname, hne⟩ := hc
  obtain ⟨d1, -, h⟩ := bind_eq_ok.1 h
  have hfilter : o.c.filter (· ≠ "") = some name := by simp [hname, hne]
  rw [openNamed, hfilter] at h
  obtain ⟨fp, -, h⟩ := bind_eq_ok.1 h
  cases h
  rfl

/-- A command with input processes it. -/
theorem run_eq_process {args : List String} (parsed : Options.parse args = .ok o)
    (help : o.help = false) (inputs : o.inputs ≠ []) (support : String) (folder : Folder) :
    run support args folder = process support o { folder := folder } := by
  have hargs : args ≠ [] := by
    rintro rfl
    cases parsed
    exact inputs rfl
  rw [run, if_neg (by simpa using hargs), parsed]
  simp only [help, Bool.false_eq_true, if_false, List.isEmpty_iff, inputs]

theorem isSome_c_of_reading {folder : Folder} (hc : ∃ name, o.c = some name ∧ name ≠ "")
    (h : reading support o folder = .ok w) : w.desk.c.isSome = true := by
  obtain ⟨d, hopen, hread⟩ := bind_eq_ok.1 h
  cases hread
  have hfollows := (inputFiles_follows support o false o.inputs
    (w := { desk := d, reader := { context := .ofSettings o.settings } }) fun _ => rfl).1
  exact hfollows.output.trans (isSome_openOutputs hc hopen)

namespace ReadsClean

variable {args : List String} {folder : Folder}

/-- What is left to do is to complete the gateway file. -/
theorem run_of_complete (h : ReadsClean support args folder o w) :
    ((complete w).halt = none → run support args folder
      = ((complete w).desk.closeOutputs, .status (complete w).reader.errors)) ∧
    ∀ f, (complete w).halt = some (.fault f) →
      run support args folder = ((complete w).desk, .fault f) := by
  obtain ⟨d, hopen, hread⟩ := bind_eq_ok.1 h.read
  cases hread
  simp +contextual only [run_eq_process h.parsed h.help h.inputs, process, hopen, Walk.andThen,
    h.finished, Option.isSome_none, Bool.false_eq_true, if_false, implies_true, and_self]

theorem isSome_c (h : ReadsClean support args folder o w) : w.desk.c.isSome = true :=
  isSome_c_of_reading h.output h.read

/-- The ledger is one that a run without errors comes to. -/
theorem exists_run (h : ReadsClean support args folder o w) :
    ∃ es, w.reader = Ledger.run o.mex { context := .ofSettings o.settings } es ∧
      w.reader.errors + w.reader.typeErrors = 0 := by
  obtain ⟨d, -, hread⟩ := bind_eq_ok.1 h.read
  have hw := h.finished
  have herrors := h.errors
  cases hread
  obtain ⟨hfollows, hsettled⟩ := inputFiles_follows support o false o.inputs
    (w := { desk := d, reader := { context := .ofSettings o.settings } }) fun _ => rfl
  obtain ⟨es, hes⟩ := hfollows.entered
  exact ⟨es, hes, by rw [herrors, hsettled hw]⟩

theorem vetted (h : ReadsClean support args folder o w) {g : Group} (hg : g ∈ w.reader.groups) :
    (∃ t, g.first.Vetted t) ∧ g.first.isSignable = true := by
  obtain ⟨es, hrun, herrors⟩ := h.exists_run
  have hmem : g.first ∈ w.reader.routines := Ledger.Filed.mem_routines hg (List.mem_cons_self ..)
  rw [hrun] at herrors hmem
  exact ⟨Ledger.vetted_run herrors _ hmem, (Ledger.filed_run ..).signable _ hmem⟩

theorem run_of_body {text : String} (h : ReadsClean support args folder o w)
    (hbody : Gateway.body w.reader.context w.reader.groups = .ok text) :
    run support args folder =
      ((w.desk.writeAllC ((Text.splitLines text.toList).map String.ofList)).closeOutputs,
        .status 0) := by
  have hcomplete : complete w
      = w.onDesk (.writeAllC ((Text.splitLines text.toList).map String.ofList)) := by
    rw [complete, if_pos ⟨h.errors, h.isSome_c⟩, hbody]
  have hrun := h.run_of_complete.1 (by rw [hcomplete]; exact h.finished)
  rw [hcomplete] at hrun
  rw [hrun, ← h.errors]
  rfl

theorem run_of_body_error {f : Fault} (h : ReadsClean support args folder o w)
    (hbody : Gateway.body w.reader.context w.reader.groups = .error f) :
    run support args folder = (w.desk, .fault f) := by
  have hcomplete : complete w = w.fail f := by
    rw [complete, if_pos ⟨h.errors, h.isSome_c⟩, hbody]
  have hrun := h.run_of_complete.2 f (by rw [hcomplete]; rfl)
  rw [hcomplete] at hrun
  exact hrun

theorem sized_of_body {text : String} (h : ReadsClean support args folder o w)
    (hbody : Gateway.body w.reader.context w.reader.groups = .ok text) : w.reader.Sized := by
  intro g hg
  obtain ⟨s, hs⟩ := Gateway.stub_of_body hbody g hg
  obtain ⟨_, main, hmain, -⟩ := Group.stub_eq_ok hs
  obtain ⟨⟨t, ht⟩, -⟩ := h.vetted hg
  exact ht.mainStatements_iff.1 ⟨main, hmain⟩

theorem unsized_of_body_error {f : Fault} (h : ReadsClean support args folder o w)
    (hbody : Gateway.body w.reader.context w.reader.groups = .error f) :
    ∃ g ∈ w.reader.groups, ∃ v ∈ g.first.args, v.Unsized ∧ f = v.sizeFault := by
  obtain ⟨g, hg, hf⟩ := Gateway.stub_of_body_error hbody
  obtain ⟨⟨t, ht⟩, hsign⟩ := h.vetted hg
  exact ⟨g, hg, ht.mainStatements_eq_error (Group.stub_eq_error hsign hf)⟩

end ReadsClean

/-- **Whatever is read without an error is generated, outputs on the GPU without dimensions apart.**
Where there are none, the gateway file is completed and the status is 0. Where there are, the run
breaks off, for want of a qualifier or of a dimension of one of them. -/
theorem run_completes {support : String} {args : List String} {folder : Folder} {o : Options}
    {w : Walk Ledger} (h : ReadsClean support args folder o w) :
    (w.reader.Sized → ∃ text, Gateway.body w.reader.context w.reader.groups = .ok text ∧
      run support args folder =
        ((w.desk.writeAllC ((Text.splitLines text.toList).map String.ofList)).closeOutputs,
          .status 0)) ∧
    (¬ w.reader.Sized → ∃ g ∈ w.reader.groups, ∃ v ∈ g.first.args, v.Unsized ∧
      run support args folder = (w.desk, .fault v.sizeFault)) := by
  cases hbody : Gateway.body w.reader.context w.reader.groups with
  | ok text =>
    refine ⟨fun _ => ⟨text, rfl, h.run_of_body hbody⟩, fun hnot => ?_⟩
    exact absurd (h.sized_of_body hbody) hnot
  | error f =>
    obtain ⟨g, hg, v, hv, hunsized, rfl⟩ := h.unsized_of_body_error hbody
    refine ⟨fun hsized => absurd hunsized (hsized g hg v hv), fun _ => ?_⟩
    exact ⟨g, hg, v, hv, hunsized, h.run_of_body_error hbody⟩

def blurArgs : List String := ["-mex", "blurmex", "-gpu", "-c", "blur.cc", "blur.mw"]

def blurOptions : Options :=
  { c := some "blur.cc", mex := "blurmex", inputs := ["blur.mw"], settings := { gpu := true } }

/-- An output on the GPU with dimensions, a method and a routine of FORTRAN. -/
def blurFolder : Folder :=
  { files := [(["blur.mw"],
      ("$ #include <blur.h>\n# blur(gpu output double[n] a, int n);\n"
        ++ "# int[3] w = k->Kernel.top();\n# FORTRAN scal(output int* k);\n").toUTF8)] }

theorem run_completes_blur : ∃ w, ReadsClean "" blurArgs blurFolder blurOptions w ∧
    w.reader.groups.length = 3 ∧ w.reader.Sized ∧ (run "" blurArgs blurFolder).2 = .status 0 := by
  have parsed : Options.parse blurArgs = .ok blurOptions := by decide +kernel
  obtain ⟨w, hw, hp⟩ := readsClean_of_any "" blurFolder
    (fun w => w.reader.groups.length = 3 && decide w.reader.Sized) parsed rfl (by decide)
    ⟨"blur.cc", rfl, by decide⟩ (by decide +kernel)
  simp only [Bool.and_eq_true, decide_eq_true_eq] at hp
  obtain ⟨text, -, hrun⟩ := (run_completes hw).1 hp.2
  exact ⟨w, hw, hp.1, hp.2, by rw [hrun]⟩

def countArgs : List String := ["-c", "count.cc", "count.mw"]

def countOptions : Options := { c := some "count.cc", inputs := ["count.mw"] }

def countFolder : Folder := { files := [(["count.mw"], "# count(gpu output int* k);\n".toUTF8)] }

/-- A number that goes out by way of a pointer has no dimensions. On the GPU it passes the check
all the same. -/
theorem run_faults_count : (∃ w, ReadsClean "" countArgs countFolder countOptions w) ∧
    (run "" countArgs countFolder).2 = .fault .missingDimension := by
  refine ⟨?_, by decide +kernel⟩
  have parsed : Options.parse countArgs = .ok countOptions := by decide +kernel
  obtain ⟨w, hw, -⟩ := readsClean_of_any "" countFolder (fun _ => true) parsed rfl (by decide)
    ⟨"count.cc", rfl, by decide⟩ (by decide +kernel)
  exact ⟨w, hw⟩

end Command

end MexBridge
