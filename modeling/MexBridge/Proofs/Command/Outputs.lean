import MexBridge.Proofs.Command.Script

/-!
# The outputs of a run

A run opens its outputs before it reads anything, in a folder that is the same otherwise
(`openOutputs_eq_ok`), and closes them when it ends (`conclude`). What a file holds then depends on the
outputs for that file alone (`get?_closeAll`).
-/

namespace MexBridge

/-! ## Closing -/

namespace Sheet

variable {p : Folder.Path} {d d' : Folder} {o : Sheet} {os : List Sheet}

theorem get?_land_of_ne (h : o.file ≠ some p) (d : Folder) : (o.land d).get? p = d.get? p := by
  unfold land
  split
  · rename_i q hq
    exact Folder.get?_patch_of_ne (fun heq => h (hq.trans (congrArg some heq.symm))) ..
  · rfl

theorem get?_finish_of_ne (h : o.file ≠ some p) (d : Folder) : (o.finish d).get? p = d.get? p := by
  unfold finish
  split
  · rename_i q hq
    exact Folder.get?_patch_of_ne (fun heq => h (hq.trans (congrArg some heq.symm))) ..
  · rfl

theorem get?_land_congr (h : d'.get? p = d.get? p) (o : Sheet) :
    (o.land d').get? p = (o.land d).get? p := by
  unfold land
  split
  · exact Folder.get?_patch_congr h ..
  · exact h

theorem get?_finish_congr (h : d'.get? p = d.get? p) (o : Sheet) :
    (o.finish d').get? p = (o.finish d).get? p := by
  unfold finish
  split
  · exact Folder.get?_patch_congr h ..
  · exact h

/-- In a row of changes to files, those to one file are all that counts for it. -/
theorem get?_foldl_filter {f : Sheet → Folder → Folder}
    (hne : ∀ o d, o.file ≠ some p → (f o d).get? p = d.get? p)
    (hcongr : ∀ o d d', d'.get? p = d.get? p → (f o d').get? p = (f o d).get? p)
    (os : List Sheet) (h : d'.get? p = d.get? p) :
    (os.foldl (fun d o => f o d) d').get? p
      = ((os.filter (·.file = some p)).foldl (fun d o => f o d) d).get? p := by
  induction os generalizing d d' with
  | nil => exact h
  | cons o os ih =>
    by_cases ho : o.file = some p
    · rw [List.filter_cons_of_pos (by simpa using ho)]
      exact ih (hcongr o d d' h)
    · rw [List.filter_cons_of_neg (by simpa using ho)]
      exact ih ((hne o d' ho).trans h)

/-- **What a file holds after closing depends on the sheets for it,** and on what it held before. -/
theorem get?_closeAll_filter (os : List Sheet) (h : d'.get? p = d.get? p) :
    (closeAll os d').get? p = (closeAll (os.filter (·.file = some p)) d).get? p := by
  refine get?_foldl_filter (fun o d ho => get?_finish_of_ne ho d)
    (fun o d d' h => get?_finish_congr h o) os ?_
  exact get?_foldl_filter (fun o d ho => get?_land_of_ne ho d)
    (fun o d d' h => get?_land_congr h o) os h

theorem get?_closeAll (os : List Sheet) (d : Folder) (p : Folder.Path) :
    (closeAll os d).get? p = (closeAll (os.filter (·.file = some p)) d).get? p :=
  get?_closeAll_filter os rfl

end Sheet

/-! ## Opening -/

namespace Folder

variable {X : List Path} {d d' : Folder} {p q : Path}

/-- The folder with the file empty, or made. -/
def make (d : Folder) (p : Path) : Folder := { d with files := put p ByteArray.empty d.files }

theorem get?_make_self (d : Folder) (p : Path) : (d.make p).get? p = some ByteArray.empty :=
  lookup_put_self ..

theorem get?_make_of_ne (h : q ≠ p) (d : Folder) : (d.make p).get? q = d.get? q :=
  lookup_put_of_ne h ..

/-- Files are made one after the other. -/
theorem get?_makeAll (ps : List Path) (d : Folder) (p : Path) :
    (ps.foldl make d).get? p = if p ∈ ps then some ByteArray.empty else d.get? p := by
  induction ps generalizing d with
  | nil => rfl
  | cons q ps ih =>
    rw [List.foldl_cons, ih]
    by_cases hps : p ∈ ps
    · simp [hps]
    · by_cases heq : p = q
      · simp [heq, get?_make_self]
      · simp [hps, heq, get?_make_of_ne heq]

theorem Covers.make (h : Covers X d d') (hp : p ∈ X) (hholds : d'.Holds p) : Covers X (d.make p) d' :=
  h.put_left hp hholds _

theorem covers_makeAll {ps : List Path} (hps : ∀ p ∈ ps, p ∈ X) (hX : ∀ p ∈ X, d.Holds p) :
    Covers X (ps.foldl Folder.make d) d :=
  List.foldlRecOn (motive := (Covers X · d)) ps _ (Covers.refl X d)
    fun _ h p hp => h.make (hps p hp) (hX p (hps p hp))

/-- Where some files are made, and where only a few of them. -/
theorem covers_makeAll_makeAll {ps : List Path} (hps : ∀ p ∈ ps, p ∈ X) (hX : ∀ p ∈ X, d.Holds p) :
    Covers X (X.foldl Folder.make d) (ps.foldl Folder.make d) := by
  have hall : Covers X (X.foldl Folder.make d) d := covers_makeAll (fun _ hp => hp) hX
  have hfew : Covers X (ps.foldl Folder.make d) d := covers_makeAll hps hX
  refine ⟨hfew.here.symm.trans hall.here, fun p => (hfew.isFolder p).symm.trans (hall.isFolder p),
    fun p hp => (hfew.other p hp).symm.trans (hall.other p hp), fun p hp => ?_⟩
  rw [get?_makeAll] at hp ⊢
  by_cases hpX : p ∈ X
  · simp [hpX]
  · rw [if_neg fun h => hpX (hps p h)] at hp
    rwa [if_neg hpX]

end Folder

namespace Command

/-- Where an output goes that an option may name. -/
def outputPath (folder : Folder) (name : Option String) : Except Fault (Option Folder.Path) :=
  match name.filter (· ≠ "") with
  | some n => (folder.place n).map some
  | none => .ok none

/-- A desk with outputs for these files open. -/
def opened (folder : Folder) (matlab c : Option Folder.Path) : Desk :=
  { folder := (matlab.toList ++ c.toList).foldl Folder.make folder
    matlab := matlab.map fun p => { file := some p }
    c := c.map fun p => { file := some p } }

section

variable {support : String} {args : List String} {folder : Folder} {o : Options} {d : Desk}
  {name : Option String} {p : Folder.Path}

theorem outputPath_eq_ok {path : Option Folder.Path} : outputPath folder name = .ok path ↔
    name.filter (· ≠ "") = none ∧ path = none ∨
      ∃ n p, name.filter (· ≠ "") = some n ∧ folder.place n = .ok p ∧ path = some p := by
  unfold outputPath
  cases name.filter (· ≠ "") with
  | none => simp [eq_comm]
  | some n =>
    cases hplace : folder.place n <;> simp [hplace, Except.map, @eq_comm _ path]

theorem ne_empty_of_place {n : String} (h : folder.place n = .ok p) : n ≠ "" := by
  rintro rfl
  cases h

theorem outputPath_eq_some : outputPath folder name = .ok (some p) ↔
    ∃ n, name = some n ∧ folder.place n = .ok p := by
  rw [outputPath_eq_ok]
  constructor
  · rintro (⟨-, h⟩ | ⟨n, q, hname, hplace, heq⟩)
    · cases h
    · cases heq
      exact ⟨n, (Option.filter_eq_some_iff.1 hname).1, hplace⟩
  · rintro ⟨n, rfl, hplace⟩
    exact Or.inr ⟨n, p, by simp [ne_empty_of_place hplace], hplace, rfl⟩

theorem openMatlab_eq_ok {n : String} {d' : Desk} : d.openMatlab false n = .ok d' ↔
    ∃ p, d.folder.place n = .ok p ∧
      d' = { d with folder := d.folder.make p, matlab := some { file := some p } } := by
  unfold Desk.openMatlab Folder.create
  cases d.folder.place n <;> simp [bind, Except.bind, pure, Except.pure, Folder.make, eq_comm]

theorem openC_eq_ok {n : String} {d' : Desk} : d.openC n = .ok d' ↔
    ∃ p, d.folder.place n = .ok p ∧
      d' = { d with folder := d.folder.make p, c := some { file := some p } } := by
  unfold Desk.openC Folder.create
  cases d.folder.place n <;> simp [bind, Except.bind, pure, Except.pure, Folder.make, eq_comm]

/-- Making one file is no matter for where another one can be made. -/
theorem place_make {n m : String} {q : Folder.Path} (hp : folder.place n = .ok p) :
    (folder.make p).place m = .ok q ↔ folder.place m = .ok q := by
  have h : (folder.make p).Covers [p] folder :=
    (Folder.Covers.refl _ _).make (by simp) (Folder.holds_place hp)
  exact h.place.symm

theorem openOutputs_eq_ok : openOutputs o { folder := folder } = .ok d ↔
    ∃ matlab c, outputPath folder o.matlab = .ok matlab ∧ outputPath folder o.c = .ok c ∧
      d = opened folder matlab c := by
  unfold openOutputs openNamed
  simp only [outputPath_eq_ok, bind_eq_ok]
  cases o.matlab.filter (· ≠ "") with
  | none =>
    cases o.c.filter (· ≠ "") with
    | none => simp [opened, eq_comm]
    | some c => simp [openC_eq_ok, opened]
  | some m =>
    simp only [openMatlab_eq_ok]
    cases o.c.filter (· ≠ "") with
    | none => simp [opened, eq_comm]
    | some c =>
      simp only [openC_eq_ok]
      constructor
      · rintro ⟨d', ⟨p, hp, rfl⟩, q, hq, rfl⟩
        exact ⟨some p, some q, Or.inr ⟨m, p, rfl, hp, rfl⟩,
          Or.inr ⟨c, q, rfl, (place_make hp).1 hq, rfl⟩, rfl⟩
      · rintro ⟨matlab, path, hm, hc, rfl⟩
        rcases hm with ⟨h, -⟩ | ⟨n, p, hn, hp, rfl⟩
        · cases h
        rcases hc with ⟨h, -⟩ | ⟨n', q, hn', hq, rfl⟩
        · cases h
        cases hn
        cases hn'
        exact ⟨_, ⟨p, hp, rfl⟩, q, (place_make hp).2 hq, rfl⟩

/-! ## Runs -/

/-- How a run ends, after its input is read and the gateway file completed. -/
def conclude (w : Walk Ledger) : Desk × Ending :=
  match w.halt with
  | none => (w.desk.closeOutputs, .status w.reader.errors)
  | some (.exit n) => (w.desk.abandonOutputs, .status n)
  | some (.fault f) => (w.desk, .fault f)

theorem notices_conclude (w : Walk Ledger) : (conclude w).1.notices = w.desk.notices := by
  unfold conclude
  split <;> rfl

theorem stdout_conclude (w : Walk Ledger) : (conclude w).1.stdout = w.desk.stdout := by
  unfold conclude
  split <;> rfl

theorem ending_conclude {w v : Walk Ledger} (hhalt : v.halt = w.halt)
    (herrors : v.reader.errors = w.reader.errors) : (conclude v).2 = (conclude w).2 := by
  unfold conclude
  rw [hhalt, herrors]
  split <;> rfl

/-- The files after a run, when the outputs that it broke off with are closed, too. -/
def remains (support : String) (args : List String) (folder : Folder) : Folder :=
  (run support args folder).1.closeOutputs.folder

/-- The gateway file is left alone, or completed, or completing it fails. -/
inductive Completed (w : Walk Ledger) : Walk Ledger → Prop
  | alone (h : ¬ (w.reader.errors = 0 ∧ w.desk.c.isSome)) : Completed w w
  | done {text : String} (errors : w.reader.errors = 0) (hc : w.desk.c.isSome = true)
      (body : Gateway.body w.reader.context w.reader.groups = .ok text) :
      Completed w (w.onDesk (.writeAllC ((Text.splitLines text.toList).map String.ofList)))
  | failed {f : Fault} (errors : w.reader.errors = 0) (hc : w.desk.c.isSome = true)
      (body : Gateway.body w.reader.context w.reader.groups = .error f) : Completed w (w.fail f)

theorem completed (w : Walk Ledger) : Completed w (complete w) := by
  unfold complete
  split
  · rename_i h
    split
    · exact .done h.1 h.2 ‹_›
    · exact .failed h.1 h.2 ‹_›
  · exact .alone ‹_›

/-- Completing the gateway file changes the text of the C output and whether the run goes on, and
nothing else. -/
theorem keeps_complete (w : Walk Ledger) : ∃ c halt,
    c.map (·.file) = w.desk.c.map (·.file) ∧
    w.andThen complete = { w with desk := { w.desk with c := c }, halt := halt } := by
  unfold Walk.andThen
  split
  · exact ⟨_, _, rfl, rfl⟩
  · have hcompleted := completed w
    generalize complete w = w' at hcompleted ⊢
    cases hcompleted with
    | alone => exact ⟨_, _, rfl, rfl⟩
    | done =>
      refine ⟨_, _, ?_, rfl⟩
      exact Option.map_map ..
    | failed => exact ⟨_, _, rfl, rfl⟩

theorem join_splitLines (text : String) :
    String.join ((Text.splitLines text.toList).map String.ofList) = text := by
  refine String.toList_inj.1 ?_
  rw [String.toList_join, List.flatMap_map]
  simp only [String.toList_ofList, List.flatMap_id', Text.flatten_splitLines]

theorem complete_alone {w : Walk Ledger} (h : ¬ (w.reader.errors = 0 ∧ w.desk.c.isSome = true)) :
    complete w = w :=
  if_neg h

theorem complete_error {w : Walk Ledger} {f : Fault} (h : w.reader.errors = 0 ∧ w.desk.c.isSome = true)
    (body : Gateway.body w.reader.context w.reader.groups = .error f) : complete w = w.fail f := by
  unfold complete
  rw [if_pos h, body]

theorem complete_done {w : Walk Ledger} {text : String}
    (h : w.reader.errors = 0 ∧ w.desk.c.isSome = true)
    (body : Gateway.body w.reader.context w.reader.groups = .ok text) :
    complete w = w.onDesk (.writeAllC ((Text.splitLines text.toList).map String.ofList)) := by
  unfold complete
  rw [if_pos h, body]

theorem complete_ok {w : Walk Ledger} {text : String} {t : Sheet} (errors : w.reader.errors = 0)
    (hc : w.desk.c = some t) (body : Gateway.body w.reader.context w.reader.groups = .ok text) :
    (complete w).halt = w.halt ∧
      ∃ s, (complete w).desk.c = some s ∧ s.file = t.file ∧ s.text = t.text ++ text := by
  let lines := (Text.splitLines text.toList).map String.ofList
  rw [complete_done ⟨errors, hc ▸ rfl⟩ body]
  exact ⟨rfl, t.writeAll lines, congrArg (Option.map (Sheet.writeAll lines)) hc, rfl,
    congrArg (t.text ++ ·) (join_splitLines text)⟩

theorem run_eq_conclude (parsed : Options.parse args = .ok o) (help : o.help = false)
    (inputs : o.inputs ≠ []) (hopen : openOutputs o { folder := folder } = .ok d) :
    run support args folder
      = conclude ((inputFiles support o false o.inputs (start o d)).andThen complete) := by
  rw [run_eq_process parsed help inputs]
  unfold process
  rw [hopen]
  rfl

theorem script_eq_steps (parsed : Options.parse args = .ok o) (help : o.help = false)
    (inputs : o.inputs ≠ []) (hopen : openOutputs o { folder := folder } = .ok d) :
    script support args folder = steps support o false o.inputs (start o d) := by
  unfold script
  rw [parsed]
  simp [help, inputs, hopen]

theorem run_unopened {f : Fault} (parsed : Options.parse args = .ok o) (help : o.help = false)
    (inputs : o.inputs ≠ []) (hopen : openOutputs o { folder := folder } = .error f) :
    run support args folder = ({ folder := folder }, .fault f) := by
  rw [run_eq_process parsed help inputs]
  unfold process
  rw [hopen]

/-- A command without input, or one that asks for help, says so and does nothing else. -/
theorem run_idle (parsed : Options.parse args = .ok o) (hargs : args ≠ [])
    (hidle : o.help = true ∨ o.inputs = []) :
    run support args folder
      = ({ folder := folder, notices := [.text (if o.help then helpText else usageText)] },
          .status 0) := by
  rw [run, if_neg (by simpa using hargs), parsed]
  dsimp only
  cases hhelp : o.help with
  | true => rfl
  | false =>
    have hinputs : o.inputs = [] := by simpa [hhelp] using hidle
    rw [hinputs]
    rfl

theorem script_idle (parsed : Options.parse args = .ok o) (hidle : o.help = true ∨ o.inputs = []) :
    script support args folder = [] := by
  unfold script
  rw [parsed]
  rcases hidle with h | h <;> simp [h]

theorem script_unopened {f : Fault} (parsed : Options.parse args = .ok o)
    (hopen : openOutputs o { folder := folder } = .error f) : script support args folder = [] := by
  unfold script
  rw [parsed]
  simp [hopen]

/-- A run that reads nothing, for which it may have a notice. -/
structure Unstarted (support : String) (args : List String) (folder : Folder) (ns : List Notice)
    (e : Ending) : Prop where
  script : script support args folder = []
  run : args ≠ [] → run support args folder = ({ folder := folder, notices := ns }, e)

/-- A run that reads its input files, with these outputs open. -/
structure Started (support : String) (args : List String) (folder : Folder) (o : Options)
    (matlab c : Option Folder.Path) : Prop where
  script : script support args folder
    = steps support o false o.inputs (start o (opened folder matlab c))
  run : run support args folder = conclude
    ((inputFiles support o false o.inputs (start o (opened folder matlab c))).andThen complete)
  matlab : outputPath folder o.matlab = .ok matlab
  c : outputPath folder o.c = .ok c

/-- Two commands with the same inputs, which name the same outputs. -/
structure Alike (o o' : Options) (folder folder' : Folder) : Prop where
  help : o'.help = o.help
  inputs : o'.inputs = o.inputs
  matlab : outputPath folder' o'.matlab = outputPath folder o.matlab
  c : outputPath folder' o'.c = outputPath folder o.c
  fails : ∀ f, openOutputs o { folder := folder } = .error f →
    openOutputs o' { folder := folder' } = .error f

/-- Either both runs read nothing, or both start with the same outputs open. -/
inductive Paired (support : String) (args : List String) (folder : Folder) (o : Options)
    (args' : List String) (folder' : Folder) (o' : Options) : Prop
  | unstarted {ns : List Notice} {e : Ending} (h : Unstarted support args folder ns e)
      (h' : Unstarted support args' folder' ns e)
      (never : o.help = false → o.inputs ≠ [] → ∀ matlab c, outputPath folder o.matlab = .ok matlab →
        outputPath folder o.c ≠ .ok c)
  | started {matlab c : Option Folder.Path} (h : Started support args folder o matlab c)
      (h' : Started support args' folder' o' matlab c)

variable {matlab c : Option Folder.Path} {args' : List String} {folder' : Folder} {o' : Options}

theorem Unstarted.remains {ns : List Notice} {e : Ending} (h : Unstarted support args folder ns e)
    (hargs : args ≠ []) : remains support args folder = folder :=
  congrArg (·.1.closeOutputs.folder) (h.run hargs)

theorem Started.plays (h : Started support args folder o matlab c) :
    Walk.Plays (perform support o) (start o (opened folder matlab c)) (Command.script support args folder)
      (inputFiles support o false o.inputs (start o (opened folder matlab c))) :=
  h.script ▸ plays_inputFiles ..

theorem Started.remains (h : Started support args folder o matlab c) :
    remains support args folder = (conclude ((inputFiles support o false o.inputs
      (start o (opened folder matlab c))).andThen complete)).1.closeOutputs.folder :=
  congrArg (·.1.closeOutputs.folder) h.run

theorem args_ne_nil (parsed : Options.parse args = .ok o) (h : o ≠ {}) : args ≠ [] := by
  rintro rfl
  cases parsed
  exact h rfl

theorem unstarted_idle (parsed : Options.parse args = .ok o) (hidle : o.help = true ∨ o.inputs = []) :
    Unstarted support args folder [.text (if o.help then helpText else usageText)] (.status 0) :=
  ⟨script_idle parsed hidle, fun hargs => run_idle parsed hargs hidle⟩

theorem started (parsed : Options.parse args = .ok o)
    (help : o.help = false) (inputs : o.inputs ≠ []) (hmatlab : outputPath folder o.matlab = .ok matlab)
    (hc : outputPath folder o.c = .ok c) : Started support args folder o matlab c :=
  have hopen := openOutputs_eq_ok.2 ⟨matlab, c, hmatlab, hc, rfl⟩
  ⟨script_eq_steps parsed help inputs hopen, run_eq_conclude parsed help inputs hopen, hmatlab, hc⟩

/-- **How two runs begin that are alike:** they ask for nothing, they cannot open their outputs, or
they read their inputs. -/
theorem paired (parsed : Options.parse args = .ok o) (parsed' : Options.parse args' = .ok o')
    (h : Alike o o' folder folder') : Paired support args folder o args' folder' o' := by
  by_cases hidle : o.help = true ∨ o.inputs = []
  · have hidle' : o'.help = true ∨ o'.inputs = [] := by rwa [h.help, h.inputs]
    refine .unstarted (unstarted_idle parsed hidle) (h.help ▸ unstarted_idle parsed' hidle') ?_
    exact fun help inputs => absurd hidle (by simp [help, inputs])
  obtain ⟨help, inputs⟩ : o.help = false ∧ o.inputs ≠ [] := by simpa using hidle
  have help' : o'.help = false := h.help.trans help
  have inputs' : o'.inputs ≠ [] := h.inputs ▸ inputs
  cases hopen : openOutputs o { folder := folder } with
  | error f =>
    refine .unstarted ⟨script_unopened parsed hopen, fun _ => run_unopened parsed help inputs hopen⟩
      ⟨script_unopened parsed' (h.fails f hopen),
        fun _ => run_unopened parsed' help' inputs' (h.fails f hopen)⟩ ?_
    intro _ _ matlab c hmatlab hc
    cases hopen.symm.trans (openOutputs_eq_ok.2 ⟨matlab, c, hmatlab, hc, rfl⟩)
  | ok d =>
    obtain ⟨matlab, c, hmatlab, hc, -⟩ := openOutputs_eq_ok.1 hopen
    exact .started (started parsed help inputs hmatlab hc)
      (started parsed' help' inputs' (h.matlab.trans hmatlab) (h.c.trans hc))

theorem closeOutputs_of_closed {d : Desk} (hm : d.matlab = none) (hc : d.c = none) :
    d.closeOutputs.folder = d.folder := by
  unfold Desk.closeOutputs Desk.closeIn Desk.outputs
  rw [hm, hc]
  rfl

/-- All outputs are closed, in one order or the other. -/
theorem exists_closing_desk (d : Desk) : ∃ os, os.Perm d.outputs ∧
    d.closeOutputs.folder = Sheet.closeAll os d.folder := by
  refine ⟨_, ?_, rfl⟩
  split
  · exact List.reverse_perm _
  · exact .refl _

theorem exists_closing (w : Walk Ledger) : ∃ os, os.Perm w.desk.outputs ∧
    (conclude w).1.closeOutputs.folder = Sheet.closeAll os w.desk.folder := by
  unfold conclude
  split
  · rw [closeOutputs_of_closed rfl rfl]
    exact exists_closing_desk _
  · rw [closeOutputs_of_closed rfl rfl]
    exact ⟨_, .refl _, rfl⟩
  · exact exists_closing_desk _

/-- The one output for a file has put its text there. -/
theorem get?_conclude_of_filter {w : Walk Ledger} {s : Sheet}
    (h : w.desk.outputs.filter (·.file = some p) = [s])
    (hempty : w.desk.folder.get? p = some ByteArray.empty) :
    (conclude w).1.closeOutputs.folder.get? p = some s.text.toUTF8 := by
  obtain ⟨os, hos, hfolder⟩ := exists_closing w
  have hfilter : os.filter (·.file = some p) = [s] := by
    rw [← List.perm_singleton, ← h]
    exact hos.filter _
  have hfile : s.file = some p := by
    have hs : s ∈ w.desk.outputs.filter (·.file = some p) := by rw [h]; simp
    simpa using (List.mem_filter.1 hs).2
  rw [hfolder, Sheet.get?_closeAll, hfilter]
  exact Sheet.get?_closeAll_self hfile hempty

/-- What a file holds after closing depends on the MATLAB output alone, unless it is the C output. -/
theorem get?_closing_of_ne {d : Desk} {os : List Sheet} (hos : os.Perm d.outputs)
    (hc : ∀ t ∈ d.c, t.file ≠ some p) :
    (Sheet.closeAll os d.folder).get? p = (Sheet.closeAll d.matlab.toList d.folder).get? p := by
  have hnone : d.c.toList.filter (·.file = some p) = [] := by
    rw [List.filter_eq_nil_iff]
    intro t ht
    simpa using hc t (by simpa using ht)
  have hperm : (os.filter (·.file = some p)).Perm (d.matlab.toList.filter (·.file = some p)) := by
    have hfilter := hos.filter (·.file = some p)
    rwa [Desk.outputs, List.filter_append, hnone, List.append_nil] at hfilter
  -- There is at most one MATLAB output, so the order is no matter.
  have hfilter : os.filter (·.file = some p) = d.matlab.toList.filter (·.file = some p) := by
    have hle : (d.matlab.toList.filter (·.file = some p)).length ≤ 1 :=
      Nat.le_trans (List.length_filter_le ..) Option.length_toList_le
    generalize d.matlab.toList.filter (·.file = some p) = ms at hperm hle ⊢
    cases ms with
    | nil => exact List.perm_nil.1 hperm
    | cons s ms =>
      obtain rfl : ms = [] := by simpa using hle
      exact List.perm_singleton.1 hperm
  rw [Sheet.get?_closeAll, hfilter, ← Sheet.get?_closeAll]

theorem get?_conclude_of_ne {w : Walk Ledger} (hc : ∀ t ∈ w.desk.c, t.file ≠ some p) :
    (conclude w).1.closeOutputs.folder.get? p
      = (Sheet.closeAll w.desk.matlab.toList w.desk.folder).get? p := by
  obtain ⟨os, hos, hfolder⟩ := exists_closing w
  rw [hfolder, get?_closing_of_ne hos hc]

/-- The file of the MATLAB output holds its text, if the C output is for another one. -/
theorem get?_conclude_matlab {w : Walk Ledger} {s : Sheet} (hs : w.desk.matlab = some s)
    (hfile : s.file = some p) (hc : ∀ t ∈ w.desk.c, t.file ≠ some p)
    (hempty : w.desk.folder.get? p = some ByteArray.empty) :
    (conclude w).1.closeOutputs.folder.get? p = some s.text.toUTF8 := by
  rw [get?_conclude_of_ne hc, hs]
  exact Sheet.get?_closeAll_self hfile hempty

/-- The file of the C output holds its text, if the MATLAB output is for another one. -/
theorem get?_conclude_c {w : Walk Ledger} {t : Sheet} (ht : w.desk.c = some t)
    (hfile : t.file = some p) (hm : ∀ s ∈ w.desk.matlab, s.file ≠ some p)
    (hempty : w.desk.folder.get? p = some ByteArray.empty) :
    (conclude w).1.closeOutputs.folder.get? p = some t.text.toUTF8 := by
  refine get?_conclude_of_filter ?_ hempty
  have hnone : w.desk.matlab.toList.filter (·.file = some p) = [] := by
    rw [List.filter_eq_nil_iff]
    intro s hs
    simpa using hm s (by simpa using hs)
  simp [Desk.outputs, ht, hfile, hnone]

/-- A file that no output is for stays as it is. -/
theorem get?_conclude_of_notMem {w : Walk Ledger} (h : p ∉ w.desk.written) :
    (conclude w).1.closeOutputs.folder.get? p = w.desk.folder.get? p := by
  obtain ⟨os, hos, hfolder⟩ := exists_closing w
  have hfilter : os.filter (·.file = some p) = [] := by
    rw [List.filter_eq_nil_iff]
    intro s hs hfile
    exact h (List.mem_filterMap.2 ⟨s, hos.subset hs, by simpa using hfile⟩)
  rw [hfolder, Sheet.get?_closeAll, hfilter]
  rfl

/-- Files that no output of a run is ever for stay as they were. -/
theorem get?_ended_of_notMem {X : List Folder.Path} {F : Folder} {w v : Walk Ledger}
    (h : Walk.Level X F w v) (hp : p ∉ X) (hc : w.desk.c.map (·.file) ≠ some (some p)) :
    (conclude (w.andThen complete)).1.closeOutputs.folder.get? p = F.get? p := by
  obtain ⟨c, halt, hfile, hcompleted⟩ := keeps_complete w
  rw [hcompleted, get?_conclude_of_notMem]
  · exact (h.files.other p hp).symm
  · intro hmem
    obtain ⟨s, hs, hsfile⟩ := List.mem_filterMap.1 hmem
    rcases List.mem_append.1 hs with hs | hs
    · exact hp (h.matlab _ (Option.mem_map_of_mem _ (Option.mem_toList.1 hs)) p hsfile)
    · refine hc (hfile.symm.trans ?_)
      rw [show c = some s from Option.mem_toList.1 hs]
      exact congrArg some hsfile

theorem folder_conclude_of_status {w : Walk Ledger} {n : Nat} (h : (conclude w).2 = .status n) :
    (conclude w).1.closeOutputs.folder = (conclude w).1.folder := by
  unfold conclude at h ⊢
  split
  · exact closeOutputs_of_closed rfl rfl
  · exact closeOutputs_of_closed rfl rfl
  · rename_i f hf
    rw [hf] at h
    cases h

/-- A run with a C output that ends with status 0 has read all its input without an error, and it has
completed the gateway file. -/
theorem body_of_status {w : Walk Ledger} (hc : w.desk.c.isSome = true)
    (hexit : ∀ k, w.halt = some (.exit k) → k = 1)
    (hstatus : (conclude (w.andThen complete)).2 = .status 0) :
    w.halt = none ∧ w.reader.errors = 0 ∧
      ∃ text, Gateway.body w.reader.context w.reader.groups = .ok text := by
  by_cases hhalt : w.halt.isSome = true
  · rw [Walk.andThen_of_ended hhalt] at hstatus
    unfold conclude at hstatus
    split at hstatus
    · rename_i hgoes
      rw [hgoes] at hhalt
      cases hhalt
    · rename_i k hk
      cases hexit k hk
      cases hstatus
    · cases hstatus
  · have hgoes : w.halt = none := by simpa using hhalt
    rw [Walk.andThen_of_goes hgoes] at hstatus
    have hcompleted := completed w
    generalize complete w = w' at hstatus hcompleted
    cases hcompleted with
    | alone halone =>
      unfold conclude at hstatus
      rw [hgoes] at hstatus
      exact absurd ⟨Ending.status.inj hstatus, hc⟩ halone
    | @done text errors _ body => exact ⟨hgoes, errors, text, body⟩
    | failed => cases hstatus

/-! ## Batches -/

/-- The files that the MATLAB output is directed to can be made, and neither they nor the file it goes
to at first are read. -/
structure OutputsUnread (folder : Folder) (matlab : Option String) (ss : List Step) : Prop where
  matlab : ∀ p, outputPath folder matlab = .ok (some p) → p ∉ Step.reads ss
  targets : ∀ name ∈ Step.targets ss, ∃ p, folder.place name = .ok p ∧ p ∉ Step.reads ss

/-- The files that the MATLAB output of a batch goes to. -/
def batchFiles (folder : Folder) (matlab : Option Folder.Path) (ss : List Step) : List Folder.Path :=
  matlab.toList ++ (Step.targets ss).filterMap fun name => (folder.place name).toOption

variable {ss : List Step}

theorem mem_batchFiles : p ∈ batchFiles folder matlab ss ↔
    matlab = some p ∨ ∃ name ∈ Step.targets ss, folder.place name = .ok p := by
  have hplace : ∀ name, (folder.place name).toOption = some p ↔ folder.place name = .ok p := by
    intro name
    cases folder.place name <;> simp [Except.toOption]
  simp [batchFiles, hplace, eq_comm]

theorem holds_outputs (hmatlab : outputPath folder o.matlab = .ok matlab)
    (hc : outputPath folder o.c = .ok c) : ∀ p ∈ matlab.toList ++ c.toList, folder.Holds p := by
  intro p hp
  have hnamed : ∀ {name : Option String}, outputPath folder name = .ok (some p) → folder.Holds p := by
    intro name h
    obtain ⟨n, -, hplace⟩ := outputPath_eq_some.1 h
    exact Folder.holds_place hplace
  rcases List.mem_append.1 hp with hp | hp
  · cases Option.mem_toList.1 hp
    exact hnamed hmatlab
  · cases Option.mem_toList.1 hp
    exact hnamed hc

/-- Opening the outputs is no matter for where other files can be made. -/
theorem covers_opened (hmatlab : outputPath folder o.matlab = .ok matlab)
    (hc : outputPath folder o.c = .ok c) :
    (opened folder matlab c).folder.Covers (matlab.toList ++ c.toList) folder :=
  Folder.covers_makeAll (fun _ hp => hp) (holds_outputs hmatlab hc)

/-- In a batch the MATLAB output is opened where it is directed to. -/
theorem direct_batch {ρ : Type} {m : WalkMode ρ} {w : Walk ρ} (hm : m.batching = true) {target : String}
    (hne : target ≠ "") (hplace : w.desk.closeMatlab.folder.place target = .ok p)
    (hhalt : w.halt = none) :
    (w.direct m target).desk.folder = w.desk.closeMatlab.folder.make p ∧
      (w.direct m target).desk.matlab = some { file := some p, batch := true } ∧
      (w.direct m target).halt = none := by
  let u := (w.onDesk .closeMatlab).openBatch target
  have hopen : u.desk.folder = w.desk.closeMatlab.folder.make p ∧
      u.desk.matlab = some { file := some p, batch := true } ∧ u.halt = none := by
    simp only [u]
    rw [Walk.openBatch_ok (w := w.onDesk .closeMatlab) hplace]
    exact ⟨rfl, rfl, hhalt⟩
  unfold Walk.direct Walk.reopen
  rw [hm, if_pos rfl, if_neg hne, Walk.andThen_of_goes hopen.2.2]
  split <;> exact hopen

/-- A batch and a run outside batches go through the same files. -/
theorem matching_batch (hmatlab : outputPath folder o.matlab = .ok matlab)
    (hc : outputPath folder o.c = .ok c) (hmex : o'.mex = o.mex) (hbatching : o'.batching = false) :
    Matching o o' (batchFiles folder matlab ss) (opened folder matlab c).folder := by
  refine ⟨fun p hp => (covers_opened hmatlab hc).holds.1 ?_, hmex, hbatching⟩
  rcases mem_batchFiles.1 hp with rfl | ⟨name, -, hplace⟩
  · exact holds_outputs hmatlab hc p (by simp)
  · exact Folder.holds_place hplace

theorem fits_batch (hmatlab : outputPath folder o.matlab = .ok matlab)
    (hc : outputPath folder o.c = .ok c) (h : OutputsUnread folder o.matlab ss) (m : WalkMode Ledger) :
    Walk.Fits m (batchFiles folder matlab ss) (opened folder matlab c).folder (Step.deeds ss) where
  reads := by
    intro p hp hmem
    rcases mem_batchFiles.1 hmem with rfl | ⟨name, hname, hplace⟩
    · exact h.matlab p hmatlab hp
    · obtain ⟨q, hq, hread⟩ := h.targets name hname
      cases hplace.symm.trans hq
      exact hread hp
  opens := by
    intro _ name hname
    obtain ⟨p, hplace, -⟩ := h.targets name hname
    exact ⟨p, mem_batchFiles.2 (Or.inr ⟨name, hname, hplace⟩), (covers_opened hmatlab hc).place.1 hplace⟩

/-- Where a batch and a run outside batches start, they see the same. -/
theorem abreast_batch (hmatlab : outputPath folder o.matlab = .ok matlab)
    (hc : outputPath folder o.c = .ok c) (hsettings : o'.settings = o.settings) (ss : List Step) :
    Abreast (batchFiles folder matlab ss) (opened folder matlab c).folder
      (start o (opened folder matlab c)) (start o' (opened folder matlab c)) := by
  have hholds := holds_outputs hmatlab hc
  have hcovers := covers_opened hmatlab hc
  refine
    { files := .refl _ _, files' := .refl _ _, matlab := ?_, matlab' := ?_, c := Or.inl rfl
      holdsC := ?_, file := rfl, line := rfl, inBlock := rfl, halt := rfl, reader := ?_ }
  · cases matlab with
    | none => rintro _ ⟨⟩
    | some pM =>
      rintro _ ⟨⟩ p ⟨⟩
      exact mem_batchFiles.2 (Or.inl rfl)
  · cases matlab with
    | none => rintro _ ⟨⟩
    | some pM =>
      rintro _ ⟨⟩ p ⟨⟩
      refine ⟨mem_batchFiles.2 (Or.inl rfl), ?_⟩
      rw [show (opened folder (some pM) c).folder.get? pM = _ from Folder.get?_makeAll _ folder pM]
      simp
  · cases c with
    | none => rintro _ ⟨⟩
    | some pC =>
      rintro _ ⟨⟩ p ⟨⟩
      exact hcovers.holds.1 (hholds pC (by simp))
  · unfold start
    rw [hsettings]

variable {listing listing' : Bool}

theorem alike_batch : Alike { o with batching := true, listing := listing }
    { o with batching := false, listing := listing' } folder folder :=
  ⟨rfl, rfl, rfl, rfl, fun _ h => h⟩

/-- A batch and a run outside batches can go through these steps side by side. -/
structure Beside (o o' : Options) (X : List Folder.Path) (d : Desk) (ss : List Step) : Prop where
  matching : Matching o o' X d.folder
  fits : Walk.Fits o.mode X d.folder (Step.deeds ss)
  abreast : Abreast X d.folder (start o d) (start o' d)

theorem beside_batch
    (hb : Started support args folder { o with batching := true, listing := listing } matlab c)
    (h : OutputsUnread folder o.matlab ss) (listing' : Bool) :
    Beside { o with batching := true, listing := listing }
      { o with batching := false, listing := listing' } (batchFiles folder matlab ss)
      (opened folder matlab c) ss where
  matching := matching_batch hb.matlab hb.c rfl rfl
  fits := fits_batch hb.matlab hb.c h _
  abreast := abreast_batch hb.matlab hb.c rfl _

/-- **A batch does the same with its input as a run outside batches,** if no MATLAB output is read. -/
theorem script_batch
    (parsed : Options.parse args = .ok { o with batching := true, listing := listing })
    (parsed' : Options.parse args' = .ok { o with batching := false, listing := listing' })
    (h : OutputsUnread folder o.matlab (script support args folder)) :
    script support args' folder = script support args folder := by
  cases (paired parsed parsed' alike_batch : Paired support args folder _ args' folder _) with
  | unstarted hb hs => rw [hb.script, hs.script]
  | started hb hs =>
    rw [hb.script] at h
    rw [hb.script, hs.script]
    have hbeside := beside_batch hb h listing'
    exact hbeside.abreast.steps hbeside.matching false o.inputs hbeside.fits

end

end Command

end MexBridge
