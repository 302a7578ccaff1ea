import MexBridge.Proofs.Command.Generation
import MexBridge.Proofs.Command.Reading
import MexBridge.Proofs.Statement.Parsing

/-!
# Errors reported and errors counted

Each notice of an error is counted once: parse errors at once, type errors when their file has been
read, after which its summary is given (`inputFile_reports`). So the status of a run that comes to
its end is the number of errors it has reported, and the gateway file is completed just if there are
none (`status_eq_errors`).
-/

namespace MexBridge

namespace Notice

/-- An error in the types of a statement. -/
def isTypeError : Notice → Bool
  | .complaint _ c => c.isError
  | .unknownSpace _ => true
  | _ => false

/-- What the status counts. -/
def isError (n : Notice) : Bool := n.isBadStatement || n.isTypeError

/-- About a statement: an error, or a warning. -/
def isOfStatement : Notice → Bool
  | .badStatement .. => true
  | .complaint .. => true
  | .unknownSpace _ => true
  | _ => false

/-- How a message starts. -/
def startsWith (word : String) (n : Notice) : Bool := word.toList.isPrefixOf n.message.toList

theorem startsWith_of_message {word rest : String} {n : Notice} (h : n.message = word ++ rest) :
    n.startsWith word = true := by
  rw [startsWith, h, String.toList_append, List.isPrefixOf_iff_prefix]
  exact List.prefix_append ..

/-- The words of a notice tell whether the status counts it. -/
inductive Worded (n : Notice) : Prop
  | parseError (h : n.isBadStatement = true) (words : n.startsWith "Parse error (" = true)
  | typeError (h : n.isTypeError = true)
      (words : n.startsWith "Error (" = true ∨ n.startsWith "Unrecognized typespace: " = true)
  | warning (h : n.isError = false) (words : n.startsWith "Warning (" = true)
  | unreadable (h : n.isError = false) (words : n.startsWith "Could not read " = true)
  | sum (h : n.isError = false) (file : String) (k : Nat)
      (words : n.message = file ++ ": " ++ toString k ++ " type errors detected\n")

theorem worded_of_isOfStatement {n : Notice} (h : n.isOfStatement = true) : n.Worded := by
  cases n with
  | badStatement file line fault =>
    have hmessage : (badStatement file line fault).message
        = "Parse error (" ++ (file ++ ":" ++ toString line ++ "): " ++ fault.text ++ "\n") := by
      show "Parse error (" ++ file ++ ":" ++ toString line ++ "): " ++ fault.text ++ "\n" = _
      simp only [String.append_assoc]
    exact .parseError rfl (startsWith_of_message hmessage)
  | complaint line c =>
    have hmessage : (complaint line c).message = (if c.isWarning then "Warning (" else "Error (")
        ++ (toString line ++ "): " ++ c.text ++ "\n") := by
      show (if c.isWarning then "Warning (" else "Error (") ++ toString line ++ "): " ++ c.text
        ++ "\n" = _
      simp only [String.append_assoc]
    cases hc : c.isWarning with
    | true =>
      rw [hc] at hmessage
      refine .warning ?_ (startsWith_of_message hmessage)
      simp [isError, isBadStatement, isTypeError, Complaint.isError, hc]
    | false =>
      rw [hc] at hmessage
      refine .typeError ?_ (Or.inl (startsWith_of_message hmessage))
      simp [isTypeError, Complaint.isError, hc]
  | unknownSpace space =>
    have hmessage : (unknownSpace space).message = "Unrecognized typespace: " ++ (space ++ "\n") :=
      String.append_assoc ..
    exact .typeError rfl (Or.inr (startsWith_of_message hmessage))
  | _ => cases h

/-- The sum of type errors, if there are any. -/
def summary (name : String) (k : Nat) : List Notice := if k = 0 then [] else [.typeErrors name k]

theorem countP_summary (name : String) (k : Nat) : (summary name k).countP isError = 0 := by
  unfold summary
  split <;> rfl

theorem countP_isError (ns : List Notice) :
    ns.countP isError = ns.countP isBadStatement + ns.countP isTypeError := by
  induction ns with
  | nil => rfl
  | cons n ns ih =>
    have hone : (if isError n then 1 else 0)
        = (if isBadStatement n then 1 else 0) + (if isTypeError n then 1 else 0) := by
      cases n with
      | complaint line c => exact (Nat.zero_add _).symm
      | _ => rfl
    rw [List.countP_cons, List.countP_cons, List.countP_cons, ih, hone]
    omega

end Notice

namespace Ledger

/-! ## One file -/

/-- These notices, all about statements, were given and their errors counted. -/
structure Tallied (l : Ledger) (ns : List Notice) (l' : Ledger) : Prop where
  errors : l'.errors = l.errors + ns.countP Notice.isBadStatement
  typeErrors : l'.typeErrors = l.typeErrors + ns.countP Notice.isTypeError
  statements : ∀ n ∈ ns, n.isOfStatement = true

theorem Tallied.refl (l : Ledger) : Tallied l [] l := ⟨rfl, rfl, by simp⟩

theorem Tallied.trans {l l' l'' : Ledger} {ns ns' : List Notice} (h : Tallied l ns l')
    (h' : Tallied l' ns' l'') : Tallied l (ns ++ ns') l'' := by
  refine ⟨?_, ?_, fun n hn => ?_⟩
  · rw [h'.errors, h.errors, List.countP_append, Nat.add_assoc]
  · rw [h'.typeErrors, h.typeErrors, List.countP_append, Nat.add_assoc]
  · rcases List.mem_append.1 hn with hn | hn
    · exact h.statements n hn
    · exact h'.statements n hn

theorem tallied_dropPending (file : String) (line : Int) (atEnd : Bool) (l : Ledger) :
    Tallied l (l.dropPending file line atEnd).2.notices (l.dropPending file line atEnd).1 := by
  unfold dropPending
  split
  · exact .refl l
  · exact ⟨rfl, rfl, by simp [Notice.isOfStatement]⟩
/-- A check counts the errors it reports. -/
theorem countP_complaints (line : Int) (t : TypeTable) (r : Routine) :
    ((r.check t).complaints.map (Notice.complaint line)).countP Notice.isTypeError
      = (r.check t).errors := by
  rw [List.countP_map, r.counted_check t]
  rfl

theorem tallied_enterStatement (mex : String) (l : Ledger) (st : Statement) :
    Tallied l (l.enterStatement mex st).2.notices (l.enterStatement mex st).1 := by
  cases st with
  | typedef space name =>
    simp only [enterStatement]
    split
    · exact ⟨rfl, rfl, by simp⟩
    · exact ⟨rfl, rfl, by simp [Notice.isOfStatement]⟩
  | inherits child parents => exact ⟨rfl, rfl, by simp [enterStatement]⟩
  | call r =>
    refine ⟨?_, ?_, ?_⟩
    · have hnone : ∀ (line : Int) (cs : List Complaint),
          (cs.map (Notice.complaint line)).countP Notice.isBadStatement = 0 := by
        intro line cs
        rw [List.countP_map, List.countP_eq_zero]
        simp [Notice.isBadStatement]
      exact (congrArg (l.errors + ·) (hnone _ _)).symm
    · exact congrArg (l.typeErrors + ·) (countP_complaints ..).symm
    · intro n hn
      obtain ⟨c, -, rfl⟩ := List.mem_map.1 hn
      rfl

/-- **One step counts what it reports.** -/
theorem tallied_feed (mex file : String) (t : Token) (l : Ledger) :
    Tallied l (l.feed mex file t).2.notices (l.feed mex file t).1 := by
  unfold feed
  split
  · exact tallied_dropPending ..
  · exact tallied_dropPending ..
  · split
    · unfold enterTokens
      split
      · rename_i st _
        have h := tallied_enterStatement mex { l with pending := [] } st
        exact ⟨h.errors, h.typeErrors, h.statements⟩
      · exact ⟨rfl, rfl, by simp [Notice.isOfStatement]⟩
    · exact ⟨rfl, rfl, by simp⟩

theorem tallied_run (mex : String) (es : List (String × Token)) (l : Ledger) :
    Tallied l (l.notices mex (events es)) (l.run mex (events es)) := by
  induction es generalizing l with
  | nil => exact .refl l
  | cons e es ih => exact (tallied_feed mex e.1 e.2 l).trans (ih _)

/-- At the end of a file its type errors are summed up and counted. -/
theorem finishFile_tallies (file : String) (line : Int) (l : Ledger) :
    ∃ ns, (l.finishFile file line).2.notices = ns ++ Notice.summary file (l.typeErrors +
        ns.countP Notice.isTypeError) ∧ (∀ n ∈ ns, n.isOfStatement = true) ∧
      (l.finishFile file line).1.errors = l.errors + l.typeErrors + ns.countP Notice.isError := by
  have h := tallied_dropPending file line true l
  refine ⟨(l.dropPending file line true).2.notices, ?_, h.statements, ?_⟩
  · rw [← h.typeErrors]
    unfold finishFile Notice.summary
    dsimp only
    split
    · rw [List.append_nil]
    · rfl
  · have herrors := h.errors
    have htypes := h.typeErrors
    rw [Notice.countP_isError]
    unfold finishFile
    dsimp only
    split
    · rename_i hzero
      dsimp only
      omega
    · dsimp only
      omega

end Ledger

namespace Command

/-- What is reported of an input file: that it cannot be read, or notices about its statements and
then the sum of the type errors among them. -/
inductive FileReport (name : String) : List Notice → Prop
  | unreadable : FileReport name [.unreadable name]
  | read (ns : List Notice) (h : ∀ n ∈ ns, n.isOfStatement = true) :
      FileReport name (ns ++ Notice.summary name (ns.countP Notice.isTypeError))

theorem worded_of_fileReport {name : String} {ns : List Notice} (h : FileReport name ns) :
    ∀ n ∈ ns, n.Worded := by
  cases h with
  | unreadable =>
    intro n hn
    rw [List.mem_singleton.1 hn]
    have hmessage : (Notice.unreadable name).message = "Could not read " ++ (name ++ "\n") :=
      String.append_assoc ..
    exact .unreadable rfl (Notice.startsWith_of_message hmessage)
  | read ns h =>
    intro n hn
    rcases List.mem_append.1 hn with hn | hn
    · exact Notice.worded_of_isOfStatement (h n hn)
    · unfold Notice.summary at hn
      split at hn
      · simp at hn
      · rw [List.mem_singleton.1 hn]
        exact .sum rfl name _ rfl

theorem exists_fileReport {names : List String} {reports : List (List Notice)}
    (h : List.Forall₂ FileReport names reports) {ns : List Notice} (hns : ns ∈ reports) :
    ∃ name, FileReport name ns := by
  induction h with
  | nil => simp at hns
  | cons hreport _ ih =>
    rcases List.mem_cons.1 hns with rfl | hns
    · exact ⟨_, hreport⟩
    · exact ih hns

/-- These notices were given and their errors counted. -/
structure Counted (w : Walk Ledger) (ns : List Notice) (w' : Walk Ledger) : Prop where
  notices : w'.desk.notices = w.desk.notices ++ ns
  errors : w'.reader.errors = w.reader.errors + ns.countP Notice.isError

variable {support : String} {o : Options}

/-- **A file read to its end** is reported in full and its errors are counted. -/
theorem file_reports (o : Options) (name : String) {w : Walk Ledger} (hw : w.reader.typeErrors = 0)
    (hhalt : ((w.file (walkMode o.mex o.batching o.listing) name).andThen finishFile).halt = none) :
    ∃ ns, FileReport name ns ∧
      Counted w ns ((w.file (walkMode o.mex o.batching o.listing) name).andThen finishFile) := by
  let m := walkMode o.mex o.batching o.listing
  let read := w.file m name
  let es := (w.stops m name).flatMap Stop.entries
  let first := w.reader.notices o.mex (Ledger.events es)
  have hread : read.halt = none := Walk.goes_of_andThen hhalt
  have hfile : read.desk.file = name := (Walk.gave_file walkMode_stays name w).2 hread
  obtain ⟨hledger, hreported⟩ := read_file o.mex o.batching o.listing name w
  have hnotices : read.desk.notices = w.desk.notices ++ first := by
    rcases hreported with h | ⟨h, -⟩
    · exact h
    · rw [show read.halt.isSome = false by rw [hread]; rfl] at h
      cases h
  have htally : Ledger.Tallied w.reader first read.reader := by
    have htally := Ledger.tallied_run o.mex es w.reader
    rwa [← hledger] at htally
  obtain ⟨last, hlast, hstatements, herrors⟩ :=
    Ledger.finishFile_tallies read.desk.file read.desk.line read.reader
  have hsum : read.reader.typeErrors + last.countP Notice.isTypeError
      = (first ++ last).countP Notice.isTypeError := by
    rw [htally.typeErrors, hw, Nat.zero_add, List.countP_append]
  refine ⟨_, .read (first ++ last) fun n hn => ?_, ?_⟩
  · rcases List.mem_append.1 hn with hn | hn
    · exact htally.statements n hn
    · exact hstatements n hn
  · rw [Walk.andThen_of_goes hread]
    refine ⟨?_, ?_⟩
    · show read.desk.notices ++ (read.reader.finishFile read.desk.file read.desk.line).2.notices = _
      rw [hlast, hfile, hsum, hnotices, List.append_assoc, List.append_assoc]
    · show (read.reader.finishFile read.desk.file read.desk.line).1.errors = _
      rw [herrors, htally.errors, htally.typeErrors, hw, List.countP_append, List.countP_append,
        Notice.countP_summary, Notice.countP_isError first]
      omega

/-- **An input file** is passed over or read to its end, unless the run is halted. -/
theorem inputFile_reports (support : String) (o : Options) (headed : Bool) (name : String)
    {w : Walk Ledger} (hhalt : (inputFile support o headed name w).2.halt = none) :
    ∃ ns, FileReport name ns ∧ Counted w ns (inputFile support o headed name w).2 := by
  unfold inputFile at hhalt ⊢
  dsimp only at hhalt ⊢
  cases hfind : Folder.find _ name with
  | error f =>
    rw [hfind] at hhalt
    dsimp only at hhalt ⊢
    split at hhalt
    · rename_i hf
      rw [if_pos hf]
      exact ⟨_, .unreadable, rfl, rfl⟩
    · cases hhalt
  | ok p =>
    rw [hfind] at hhalt
    dsimp only at hhalt ⊢
    cases headed with
    | true =>
      obtain ⟨ns, hns, hcounted⟩ := file_reports o name rfl hhalt
      exact ⟨ns, hns, hcounted.notices, hcounted.errors⟩
    | false =>
      obtain ⟨ns, hns, hcounted⟩ := file_reports o name rfl hhalt
      exact ⟨ns, hns, hcounted.notices, hcounted.errors⟩

theorem halt_of_inputFiles {headed : Bool} {names : List String} {w : Walk Ledger}
    (h : (inputFiles support o headed names w).halt = none) : w.halt = none := by
  cases names with
  | nil => exact h
  | cons name names =>
    rw [inputFiles] at h
    split at h
    · exact h
    · rename_i hend
      simpa using hend

theorem inputFiles_cons {w : Walk Ledger} (h : w.halt = none) (support : String) (o : Options)
    (headed : Bool) (name : String) (names : List String) :
    inputFiles support o headed (name :: names) w =
      inputFiles support o (inputFile support o headed name w).1 names
        (inputFile support o headed name w).2 := by
  rw [inputFiles, if_neg (by simp [h])]

theorem inputFiles_report (support : String) (o : Options) (headed : Bool) (names : List String)
    {w : Walk Ledger} (hhalt : (inputFiles support o headed names w).halt = none) :
    ∃ reports, List.Forall₂ FileReport names reports ∧
      Counted w reports.flatten (inputFiles support o headed names w) := by
  induction names generalizing headed w with
  | nil => exact ⟨[], .nil, by simp [inputFiles], rfl⟩
  | cons name names ih =>
    have hw : w.halt = none := halt_of_inputFiles hhalt
    rw [inputFiles_cons hw] at hhalt ⊢
    obtain ⟨ns, hns, hfile⟩ := inputFile_reports support o headed name (halt_of_inputFiles hhalt)
    obtain ⟨reports, hreports, hrest⟩ := ih _ hhalt
    refine ⟨ns :: reports, .cons hns hreports, ?_, ?_⟩
    · rw [hrest.notices, hfile.notices, List.append_assoc]
      rfl
    · rw [hrest.errors, hfile.errors, List.flatten_cons, List.countP_append, Nat.add_assoc]

/-! ## Whole runs -/

/-- The command has input, and reading it and completing the gateway file come to their end; `w` is
what reading comes to. -/
structure Returns (support : String) (args : List String) (folder : Folder) (o : Options)
    (w : Walk Ledger) : Prop where
  parsed : Options.parse args = .ok o
  help : o.help = false
  inputs : o.inputs ≠ []
  read : reading support o folder = .ok w
  finished : w.halt = none
  completed : (complete w).halt = none

/-- For input at hand it is enough to evaluate the reading. -/
theorem exists_returns (support : String) {args : List String} (folder : Folder) {o : Options}
    (parsed : Options.parse args = .ok o) (help : o.help = false) (inputs : o.inputs ≠ [])
    (h : (reading support o folder).toOption.any
      (fun w => w.halt = none && (complete w).halt = none) = true) :
    ∃ w, Returns support args folder o w := by
  cases hread : reading support o folder with
  | error f => simp [hread, Except.toOption] at h
  | ok w =>
    simp only [hread, Except.toOption, Option.any_some, Bool.and_eq_true, decide_eq_true_eq] at h
    exact ⟨w, parsed, help, inputs, hread, h.1, h.2⟩

theorem notices_openNamed {create : String → Desk → Except Fault Desk} {name : Option String}
    {d d' : Desk} (hcreate : ∀ name d', create name d = .ok d' → d'.notices = d.notices)
    (h : openNamed create name d = .ok d') : d'.notices = d.notices := by
  unfold openNamed at h
  split at h
  · exact hcreate _ _ h
  · cases h
    rfl

theorem notices_openOutputs {d d' : Desk} (h : openOutputs o d = .ok d') :
    d'.notices = d.notices := by
  obtain ⟨d1, hmatlab, hc⟩ := bind_eq_ok.1 h
  have hfirst : d1.notices = d.notices := by
    refine notices_openNamed (fun name d' h => ?_) hmatlab
    obtain ⟨fp, -, h⟩ := bind_eq_ok.1 h
    cases h
    rfl
  rw [← hfirst]
  refine notices_openNamed (fun name d' h => ?_) hc
  obtain ⟨fp, -, h⟩ := bind_eq_ok.1 h
  cases h
  rfl

namespace Returns

variable {args : List String} {folder : Folder} {w : Walk Ledger}

theorem run_eq (h : Returns support args folder o w) :
    run support args folder
      = ((complete w).desk.closeOutputs, .status (complete w).reader.errors) := by
  obtain ⟨d, hopen, hread⟩ := bind_eq_ok.1 h.read
  have hfinished := h.finished
  have hcompleted := h.completed
  cases hread
  simp only [run_eq_process h.parsed h.help h.inputs, process, hopen,
    Walk.andThen_of_goes hfinished, hcompleted]

/-- Completing the gateway file reports nothing and counts nothing. -/
theorem complete_counts (h : Returns support args folder o w) :
    (complete w).desk.notices = w.desk.notices ∧ (complete w).reader = w.reader := by
  have hcompleted := h.completed
  unfold complete at hcompleted ⊢
  split
  · rename_i hclean
    rw [if_pos hclean] at hcompleted
    cases hbody : Gateway.body w.reader.context w.reader.groups with
    | ok text => exact ⟨rfl, rfl⟩
    | error f => rw [hbody] at hcompleted; cases hcompleted
  · exact ⟨rfl, rfl⟩

theorem reports (h : Returns support args folder o w) :
    ∃ reports, List.Forall₂ FileReport o.inputs reports ∧ w.desk.notices = reports.flatten ∧
      w.reader.errors = reports.flatten.countP Notice.isError := by
  obtain ⟨d, hopen, hread⟩ := bind_eq_ok.1 h.read
  have hfinished := h.finished
  cases hread
  obtain ⟨reports, hreports, hcounted⟩ := inputFiles_report support o false o.inputs hfinished
  refine ⟨reports, hreports, ?_, ?_⟩
  · rw [hcounted.notices, show d.notices = [] from notices_openOutputs hopen]
    rfl
  · rw [hcounted.errors]
    exact Nat.zero_add _

end Returns

/-- **The status of a run is the number of errors it has reported.** Its notices are the reports of
its input files one after the other, each with the sum of its type errors if there are any. With a C
output the gateway file is completed if the status is 0, and left alone otherwise. -/
theorem status_eq_errors {support : String} {args : List String} {folder : Folder} {o : Options}
    {w : Walk Ledger} (h : Returns support args folder o w) :
    let out := run support args folder
    let status := out.1.notices.countP Notice.isError
    out.2 = .status status ∧
    (∀ n ∈ out.1.notices, n.Worded) ∧
    (∃ reports, List.Forall₂ FileReport o.inputs reports ∧ out.1.notices = reports.flatten) ∧
    ((∃ name, o.c = some name ∧ name ≠ "") →
      (status = 0 → ∃ text, Gateway.body w.reader.context w.reader.groups = .ok text ∧
        out.1 = (w.desk.writeAllC ((Text.splitLines text.toList).map String.ofList)).closeOutputs) ∧
      (status ≠ 0 → out.1 = w.desk.closeOutputs)) := by
  intro out status
  obtain ⟨reports, hreports, hnotices, herrors⟩ := h.reports
  obtain ⟨hsame, hreader⟩ := h.complete_counts
  have hout : out = ((complete w).desk.closeOutputs, .status (complete w).reader.errors) := h.run_eq
  have hall : out.1.notices = reports.flatten := by
    rw [hout]
    exact hsame.trans hnotices
  have hstatus : status = w.reader.errors := by
    rw [herrors, ← hall]
  refine ⟨?_, fun n hn => ?_, ⟨reports, hreports, hall⟩,
    fun hc => ⟨fun hzero => ?_, fun hpositive => ?_⟩⟩
  · rw [hout, hreader, hstatus]
  · rw [hall] at hn
    obtain ⟨ns, hns, hn⟩ := List.mem_flatten.1 hn
    obtain ⟨name, hreport⟩ := exists_fileReport hreports hns
    exact worded_of_fileReport hreport n hn
  · have hclean : w.reader.errors = 0 ∧ w.desk.c.isSome := 
      ⟨hstatus ▸ hzero, isSome_c_of_reading hc h.read⟩
    have hcompleted := h.completed
    rw [hout]
    rw [complete, if_pos hclean] at hcompleted ⊢
    cases hbody : Gateway.body w.reader.context w.reader.groups with
    | ok text => exact ⟨text, rfl, rfl⟩
    | error f => rw [hbody] at hcompleted; cases hcompleted
  · have hnot : ¬ (w.reader.errors = 0 ∧ w.desk.c.isSome) := by
      rw [← hstatus]
      exact fun hclean => hpositive hclean.1
    rw [hout, complete, if_neg hnot]

def mixedArgs : List String := ["-c", "o.cc", "a.mw", "no.mw", "b.mw"]

def mixedOptions : Options := { c := some "o.cc", inputs := ["a.mw", "no.mw", "b.mw"] }

/-- Two type errors and a warning in one file, a parse error in another. -/
def mixedFolder : Folder :=
  { files := [(["a.mw"], "# typedef real x;\n# f(output int x);\n# FORTRAN g(cstring s);\n".toUTF8),
      (["b.mw"], "# f(\n".toUTF8)] }

theorem status_eq_errors_mixed : (∃ w, Returns "" mixedArgs mixedFolder mixedOptions w) ∧
    (run "" mixedArgs mixedFolder).1.notices.map (·.isError) =
      [true, true, false, false, false, true] ∧
    (run "" mixedArgs mixedFolder).2 = .status 3 := by
  have parsed : Options.parse mixedArgs = .ok mixedOptions := by decide +kernel
  obtain ⟨w, hw⟩ := exists_returns "" mixedFolder parsed rfl (by decide) (by decide +kernel)
  have hcount : (run "" mixedArgs mixedFolder).1.notices.countP Notice.isError = 3 := by
    decide +kernel
  refine ⟨⟨w, hw⟩, by decide +kernel, ?_⟩
  exact (status_eq_errors hw).1.trans (congrArg _ hcount)

end Command

end MexBridge
