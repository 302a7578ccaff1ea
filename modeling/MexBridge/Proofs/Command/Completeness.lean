import MexBridge.Proofs.Command.Widening
import MexBridge.Proofs.Gateway.References

/-!
# Complete C outputs

The C output of a run without errors is a header, the lines of C of the sources, and what is
generated in the end. The header goes out before the first source that can be read, so it comes
first whenever there is one (`opening_steps`); without one there is no header. What is generated
defines all that its entry function refers to if there is a routine, and refers to a table that is
not there if there is none (`c_output_layout`).
-/

namespace MexBridge

/-- The name tokens of a line are names. -/
theorem Stop.isName_of_mem_tokens {s : Stop} {t : Token} (h : t ∈ s.tokens)
    (hk : t.kind = .ident) : IsName t.text := by
  unfold tokens at h
  split at h
  · cases h
  · split at h
    · exact Token.isName_tokens h hk
    · cases h
    · cases h
    · rw [List.mem_singleton.1 h] at hk
      cases hk

namespace Command

namespace Step

/-- The input file that cannot be read. -/
def unread? : Step → Option String
  | .unreadable name => some name
  | _ => none

/-- The input files that cannot be read. -/
def unread (ss : List Step) : List String := ss.filterMap unread?

/-- What a step writes to the C output. -/
def cText (header : String) : Step → String
  | .header => header
  | .deed (.c s) => s
  | _ => ""

/-- An input file is come to, or passed over. -/
def isIdle : Step → Bool
  | .begin => true
  | .unreadable _ => true
  | _ => false

/-- A file is opened for reading. -/
def isRead : Step → Bool
  | .deed (.read _) => true
  | _ => false

theorem cText_of_isIdle {s : Step} (h : s.isIdle = true) (header : String) :
    s.cText header = "" ∧ s.code? = none := by
  cases s with
  | begin => exact ⟨rfl, rfl⟩
  | unreadable name => exact ⟨rfl, rfl⟩
  | _ => cases h

theorem join_cText_of_isIdle {ss : List Step} (h : ∀ s ∈ ss, s.isIdle = true) (header : String) :
    String.join (ss.map (cText header)) = "" ∧ code ss = [] := by
  induction ss with
  | nil => exact ⟨rfl, rfl⟩
  | cons s ss ih =>
    obtain ⟨hs, hss⟩ := List.forall_mem_cons.1 h
    obtain ⟨htext, hcode⟩ := cText_of_isIdle hs header
    obtain ⟨ihtext, ihcode⟩ := ih hss
    refine ⟨?_, ?_⟩
    · rw [List.map_cons, String.join_cons, htext, ihtext, String.append_empty]
    · rw [code, List.filterMap_cons_none hcode]
      exact ihcode

/-- Without the header only lines of C are written. -/
theorem join_cText_of_ne {ss : List Step} (h : ∀ s ∈ ss, s ≠ .header) (header : String) :
    String.join (ss.map (cText header)) = String.join (code ss) := by
  induction ss with
  | nil => rfl
  | cons s ss ih =>
    obtain ⟨hs, hss⟩ := List.forall_mem_cons.1 h
    rw [code_cons, String.join_append, List.map_cons, String.join_cons, ih hss]
    refine congrArg (· ++ _) ?_
    cases s with
    | header => exact absurd rfl hs
    | deed d =>
      cases d with
      | c text =>
        change text = "" ++ text
        rw [String.empty_append]
      | _ => rfl
    | _ => rfl

end Step

section

variable {support : String} {o : Options} {w w' : Walk Ledger}

/-! ## Where the header goes out -/

theorem readSteps_plain {name : String} {s : Step} (h : s ∈ readSteps o name w) :
    s ≠ .header ∧ s.unread? = none := by
  rcases List.mem_append.1 h with h | h
  · obtain ⟨d, -, rfl⟩ := List.mem_map.1 h
    exact ⟨nofun, rfl⟩
  · split at h
    · cases h
    · rw [List.mem_singleton.1 h]
      exact ⟨nofun, rfl⟩

/-- What is done with an input file, and whether the header has gone out by then. -/
inductive Handled (o : Options) (headed : Bool) (name : String) (w' : Walk Ledger) :
    List Step → Bool → Prop
  | unreadable : Handled o headed name w' [.begin, .unreadable name] headed
  | failed (f : Fault) (halt : w'.halt = some (.fault f)) :
      Handled o headed name w' [.begin, .deed (.fail f)] headed
  | read (v : Walk Ledger) :
      Handled o headed name w'
        (.begin :: ((if headed then [] else [.header]) ++ readSteps o name v)) true

theorem handled_inputFile (support : String) (o : Options) (headed : Bool) (name : String)
    (w : Walk Ledger) :
    Handled o headed name (inputFile support o headed name w).2 (fileSteps support o headed name w)
      (inputFile support o headed name w).1 := by
  rw [inputFile_eq, fileSteps]
  generalize perform support o .begin w = u
  dsimp only
  cases u.desk.current.find name with
  | ok p => exact .read _
  | error f =>
    dsimp only
    split
    · exact .unreadable
    · exact .failed f rfl

variable {headed headed' : Bool} {name : String} {ss : List Step}

/-- A file that is read is not among those that cannot be. -/
theorem unread_read (headed : Bool) (name : String) (v : Walk Ledger) :
    Step.unread (.begin :: ((if headed then [] else [.header]) ++ readSteps o name v)) = [] := by
  refine List.filterMap_eq_nil_iff.2 fun s hs => ?_
  rcases List.mem_cons.1 hs with rfl | hs
  · rfl
  rcases List.mem_append.1 hs with hs | hs
  · split at hs
    · cases hs
    · rw [List.mem_singleton.1 hs]
      rfl
  · exact (readSteps_plain hs).2

theorem Handled.length_unread (h : Handled o headed name w ss headed') :
    (Step.unread ss).length ≤ 1 := by
  cases h with
  | unreadable => exact Nat.le_refl _
  | failed => exact Nat.zero_le _
  | read v =>
    rw [unread_read]
    exact Nat.zero_le _

theorem Handled.ne_header (h : Handled o true name w ss headed') :
    (∀ s ∈ ss, s ≠ .header) ∧ headed' = true := by
  cases h with
  | unreadable => exact ⟨by simp, rfl⟩
  | failed => exact ⟨by simp, rfl⟩
  | read v => exact ⟨List.forall_mem_cons.2 ⟨nofun, fun s hs => (readSteps_plain hs).1⟩, rfl⟩

theorem unread_append (ss ss' : List Step) :
    Step.unread (ss ++ ss') = Step.unread ss ++ Step.unread ss' :=
  List.filterMap_append

theorem length_unread_le (support : String) (o : Options) (headed : Bool) (names : List String)
    (w : Walk Ledger) :
    (Step.unread (steps support o headed names w)).length ≤ names.length := by
  induction names generalizing headed w with
  | nil => exact Nat.le_refl _
  | cons name names ih =>
    unfold steps
    split
    · exact Nat.zero_le _
    · have hfile := (handled_inputFile support o headed name w).length_unread
      have hrest := ih (inputFile support o headed name w).1 (inputFile support o headed name w).2
      rw [unread_append, List.length_append, List.length_cons]
      omega

/-- Once it has gone out, the header does not go out again. -/
theorem ne_header_of_headed (names : List String) (w : Walk Ledger) :
    ∀ s ∈ steps support o true names w, s ≠ .header := by
  induction names generalizing w with
  | nil => exact List.forall_mem_nil _
  | cons name names ih =>
    unfold steps
    split
    · exact List.forall_mem_nil _
    · obtain ⟨hfile, hheaded⟩ := (handled_inputFile support o true name w).ne_header
      rw [hheaded]
      exact List.forall_mem_append.2 ⟨hfile, ih _⟩

/-- What is done with input files before one of them can be read, and from there on. -/
inductive Opening (names : List String) (ss : List Step) : Prop
  /-- None can be read. -/
  | idle (unread : Step.unread ss = names) (idle : ∀ s ∈ ss, s.isIdle = true)
  /-- The header goes out, once and for all. -/
  | headed (before after : List Step) (unread : Step.unread ss ≠ names)
      (steps : ss = before ++ .header :: after) (idle : ∀ s ∈ before, s.isIdle = true)
      (once : ∀ s ∈ after, s ≠ .header)

/-- **The header comes first, as soon as one of the files can be read.** -/
theorem opening_steps (names : List String) (w : Walk Ledger)
    (hend : (inputFiles support o false names w).halt = none) :
    Opening names (steps support o false names w) := by
  induction names generalizing w with
  | nil => exact .idle rfl (List.forall_mem_nil _)
  | cons name names ih =>
    have hhalt : w.halt = none := halt_of_inputFiles hend
    rw [inputFiles_cons hhalt] at hend
    rw [steps, if_neg (by simp [hhalt])]
    have hgoes : (inputFile support o false name w).2.halt = none := halt_of_inputFiles hend
    have hfile := handled_inputFile support o false name w
    generalize (inputFile support o false name w).1 = headed at hfile hend ⊢
    generalize (inputFile support o false name w).2 = v at hfile hend hgoes ⊢
    generalize fileSteps support o false name w = ss at hfile ⊢
    cases hfile with
    | failed f hfault =>
      rw [hgoes] at hfault
      cases hfault
    | unreadable =>
      -- A file that cannot be read writes nothing, so the header is still to come.
      cases ih v hend with
      | idle hunread hidle =>
        refine .idle (congrArg (name :: ·) hunread) ?_
        exact List.forall_mem_cons.2 ⟨rfl, List.forall_mem_cons.2 ⟨rfl, hidle⟩⟩
      | headed before after hunread hsteps hidle honce =>
        refine .headed (.begin :: .unreadable name :: before) after ?_ ?_ ?_ honce
        · intro heq
          exact hunread (List.cons.inj heq).2
        · rw [hsteps]
          rfl
        · exact List.forall_mem_cons.2 ⟨rfl, List.forall_mem_cons.2 ⟨rfl, hidle⟩⟩
    | read u =>
      refine .headed [.begin] (readSteps o name u ++ steps support o true names v) ?_ rfl
        (by simp [Step.isIdle]) ?_
      · -- This file was read, so fewer are left unread than there are names.
        intro heq
        have hlength := congrArg List.length heq
        have hrest := length_unread_le support o true names v
        rw [unread_append, unread_read, List.nil_append, List.length_cons] at hlength
        omega
      · refine List.forall_mem_append.2 ⟨fun s hs => (readSteps_plain hs).1, ?_⟩
        exact ne_header_of_headed names v

/-- What is written to the C output while the input is read: the header, if a file could be read,
and the lines of C. -/
theorem Opening.text {names : List String} (h : Opening names ss) (header : String) :
    String.join (ss.map (Step.cText header))
      = (if Step.unread ss = names then "" else header) ++ String.join (Step.code ss) := by
  cases h with
  | idle hunread hidle =>
    obtain ⟨htext, hcode⟩ := Step.join_cText_of_isIdle hidle header
    rw [htext, hcode, if_pos hunread]
    rfl
  | headed before after hunread hsteps hidle honce =>
    obtain ⟨htext, hcode⟩ := Step.join_cText_of_isIdle hidle header
    have hafter : Step.code ss = Step.code after := by
      rw [hsteps]
      unfold Step.code at hcode ⊢
      rw [List.filterMap_append, hcode]
      rfl
    rw [if_neg hunread, hafter, hsteps, List.map_append, List.map_cons, String.join_append,
      String.join_cons, htext, String.empty_append, Step.join_cText_of_ne honce]
    rfl

/-! ## What a script writes -/

theorem settings_perform (s : Step) (w : Walk Ledger) :
    (perform support o s w).reader.context.settings = w.reader.context.settings := by
  have hmove (e : Ledger.Event) :
      (w.reader.enter o.mex e).1.context.settings = w.reader.context.settings := by
    cases Ledger.move_enter o.mex w.reader e with
    | quiet h _ => exact h.settings
    | entered _ _ _ _ _ h _ => exact h.settings
  cases s with
  | deed d =>
    cases d with
    | token t => exact hmove (.token w.desk.file t)
    | direct target => exact congrArg (·.context.settings) (Walk.reader_direct target w)
    | _ => rfl
  | finish => exact hmove (.endOfFile w.desk.file w.desk.line)
  | _ => rfl

/-- What was written to the C output, and the file it is for. -/
def written (w : Walk Ledger) : Option (Option Folder.Path × String) :=
  w.desk.c.map fun t => (t.file, t.text)

theorem written_perform (hsettings : w.reader.context.settings = o.settings) (s : Step) :
    written (perform support o s w)
      = (written w).map fun t => (t.1, t.2 ++ s.cText (Gateway.header o.settings support)) := by
  have hnone : written w = (written w).map fun t => (t.1, t.2 ++ "") := by simp
  cases s with
  | header =>
    change written (w.onDesk (.writeAllC (Gateway.headerParts w.reader.context.settings support)))
      = _
    rw [hsettings]
    unfold written
    rw [Option.map_map]
    exact Option.map_map ..
  | deed d =>
    cases d with
    | c s =>
      unfold written
      rw [Option.map_map]
      exact Option.map_map ..
    | direct target =>
      refine Eq.trans ?_ hnone
      exact congrArg (Option.map _) (Walk.c_direct target w)
    | _ => exact hnone
  | _ => exact hnone

/-- **A script writes what its steps write,** one after the other. -/
theorem written_plays (h : Walk.Plays (perform support o) w ss w')
    (hsettings : w.reader.context.settings = o.settings) :
    written w' = (written w).map fun t =>
      (t.1, t.2 ++ String.join (ss.map (Step.cText (Gateway.header o.settings support)))) := by
  induction h with
  | nil w => simp
  | @cons w w' s ss _ _ ih =>
    rw [ih ((settings_perform s w).trans hsettings), written_perform hsettings, Option.map_map]
    simp only [Function.comp_def, List.map_cons, String.join_cons, String.append_assoc]

/-- A run that has ended early has done so with status 1 or a fault. -/
theorem exit_perform (s : Step) (hhalt : w.halt = none) {k : Nat}
    (h : (perform support o s w).halt = some (.exit k)) : k = 1 := by
  have hgoes : w.halt ≠ some (.exit k) := by
    rw [hhalt]
    nofun
  cases s with
  | deed d =>
    cases d with
    | direct target =>
      have hquits : (w.direct o.mode target).Quits target.toList := by
        unfold Walk.direct
        refine Walk.Quits.andThen ?_ fun v hv => ?_
        · unfold Walk.reopen
          split
          · dsimp only
            split
            · exact Or.inl hhalt
            · exact Walk.quits_openBatch (fun h => h) hhalt
          · exact Or.inl hhalt
        · split <;> exact hv
      have hexit : (w.direct o.mode target).halt = some (.exit k) := h
      rcases hquits with hq | hq | ⟨hq, -⟩
      · rw [hq] at hexit
        cases hexit
      · rw [hq] at hexit
        cases hexit
        rfl
      · rw [hq] at hexit
        cases hexit
    | stop n =>
      cases h
      rfl
    | fail f => cases h
    | _ => exact absurd h hgoes
  | _ => exact absurd h hgoes

theorem exit_plays (h : Walk.Plays (perform support o) w ss w') (hhalt : w.halt = none) {k : Nat}
    (hexit : w'.halt = some (.exit k)) : k = 1 := by
  refine h.induct (P := fun u => ∀ k, u.halt = some (.exit k) → k = 1) ?_
    (fun s _ u hu _ k hk => exit_perform s hu hk) k hexit
  intro k hk
  rw [hhalt] at hk
  cases hk

/-! ## Names of types -/

theorem legible_inputFile (headed : Bool) (name : String) (h : w.reader.Legible) :
    (inputFile support o headed name w).2.reader.Legible := by
  rw [inputFile_eq]
  have hbegin : (perform support o .begin w).reader.Legible := ⟨h.types, h.pending⟩
  generalize perform support o .begin w = u at hbegin ⊢
  dsimp only
  cases u.desk.current.find name with
  | error f =>
    dsimp only
    split
    · exact hbegin
    · exact hbegin
  | ok p =>
    have hhead : (if headed then u else perform support o .header u).reader.Legible := by
      split
      · exact hbegin
      · exact hbegin
    generalize (if headed then u else perform support o .header u) = v at hhead ⊢
    have hread : (v.file o.mode name).reader.Legible := by
      unfold Options.mode
      rw [(read_file o.mex o.batching o.listing name v).1]
      refine hhead.run fun file t ht hk => ?_
      obtain ⟨e, he, heq⟩ := List.mem_map.1 ht
      obtain ⟨stop, -, hentry⟩ := List.mem_flatMap.1 he
      obtain ⟨t', ht', rfl⟩ := List.mem_map.1 hentry
      cases heq
      exact stop.isName_of_mem_tokens ht' hk
    dsimp only
    generalize v.file o.mode name = v at hread ⊢
    unfold Walk.andThen
    split
    · exact hread
    · have hend : (v.reader.enter o.mex (.endOfFile v.desk.file v.desk.line)).1.Legible :=
        hread.enter nofun
      exact hend

theorem legible_inputFiles (headed : Bool) (names : List String) (h : w.reader.Legible) :
    (inputFiles support o headed names w).reader.Legible := by
  induction names generalizing headed w with
  | nil => exact h
  | cons name names ih =>
    unfold inputFiles
    split
    · exact h
    · exact ih _ (legible_inputFile headed name h)

/-! ## The file of the C output -/

/-- Opening a file for reading changes nothing. -/
theorem plays_withoutReads (h : Walk.Plays (perform support o) w ss w') :
    Walk.Plays (perform support o) w (ss.filter (!·.isRead)) w' := by
  induction h with
  | nil w => exact .nil w
  | @cons w w' s ss hgoes _ ih =>
    by_cases hread : s.isRead = true
    · have hsame : perform support o s w = w := by
        cases s with
        | deed d =>
          cases d with
          | read p => rfl
          | _ => cases hread
        | _ => cases hread
      rw [List.filter_cons_of_neg (by simp [hread]), ← hsame]
      exact ih
    · rw [List.filter_cons_of_pos (by simpa using hread)]
      exact .cons hgoes ih

theorem reads_withoutReads (ss : List Step) : Step.reads (ss.filter (!·.isRead)) = [] := by
  refine List.filterMap_eq_nil_iff.2 fun d hd => ?_
  obtain ⟨s, hs, hdeed⟩ := List.mem_filterMap.1 hd
  have hread : s.isRead = false := by simpa using (List.mem_filter.1 hs).2
  cases s with
  | deed d' =>
    cases hdeed
    cases d with
    | read p => cases hread
    | _ => rfl
  | _ => cases hdeed

theorem targets_withoutReads (ss : List Step) :
    Step.targets (ss.filter (!·.isRead)) = Step.targets ss := by
  induction ss with
  | nil => rfl
  | cons s ss ih =>
    by_cases hread : s.isRead = true
    · have hnone : Step.targets [s] = [] := by
        refine Step.targets_of_ne fun target _ heq => ?_
        rw [heq] at hread
        cases hread
      rw [List.filter_cons_of_neg (by simp [hread]), ih, Step.targets_cons s, hnone,
        List.nil_append]
    · rw [List.filter_cons_of_pos (by simpa using hread), Step.targets_cons, ih,
        ← Step.targets_cons]

variable {folder : Folder} {matlab : Option Folder.Path} {p : Folder.Path}

/-- Whatever is read, the file of the C output is left alone as long as no MATLAB output is for
it. -/
theorem spared (hmatlab : outputPath folder o.matlab = .ok matlab)
    (hc : outputPath folder o.c = .ok (some p)) (hne : matlab ≠ some p)
    (hapart : o.batching = true → ∀ name ∈ Step.targets ss, folder.place name ≠ .ok p)
    (hw : Walk.Plays (perform support o) (start o (opened folder matlab (some p))) ss w) :
    w.desk.folder.get? p = some ByteArray.empty ∧ ∀ s ∈ w.desk.matlab, s.file ≠ some p := by
  have hnone : ∀ q, q ∉ Step.reads (ss.filter (!·.isRead)) := by
    intro q
    rw [reads_withoutReads]
    exact List.not_mem_nil
  refine spared_opened hmatlab hc
    ⟨fun q _ => hnone q, fun q _ => hnone q, fun _ _ _ q _ => hnone q⟩ hne ?_ (plays_withoutReads hw)
  rwa [targets_withoutReads]

/-- Without a file that can be read there is no routine. -/
theorem groups_of_isIdle (h : Walk.Plays (perform support o) w ss w')
    (hidle : ∀ s ∈ ss, s.isIdle = true) : w'.reader.groups = w.reader.groups := by
  refine h.induct (P := fun u => u.reader.groups = w.reader.groups) rfl fun s hs u _ hu => ?_
  have hs := hidle s hs
  cases s with
  | begin => exact hu
  | unreadable name => exact hu
  | _ => cases hs

/-- After reading, the C output holds what the script has written. -/
theorem exists_sheet {names : List String} (hopening : Opening names ss)
    (hw : Walk.Plays (perform support o) (start o (opened folder matlab (some p))) ss w) :
    ∃ t, w.desk.c = some t ∧ t.file = some p ∧
      t.text = (if Step.unread ss = names then "" else Gateway.header o.settings support)
        ++ String.join (Step.code ss) := by
  have hwritten := written_plays hw rfl
  rw [hopening.text] at hwritten
  obtain ⟨t, ht, heq⟩ := Option.map_eq_some_iff.1 hwritten
  obtain ⟨hfile, htext⟩ := Prod.mk.inj heq
  exact ⟨t, ht, hfile, htext.trans String.empty_append⟩

/-- The C output of a run with status 0 in the end. -/
theorem get?_c_of_body {t : Sheet} {text : String} (hgoes : w.halt = none)
    (herrors : w.reader.errors = 0) (ht : w.desk.c = some t) (hfile : t.file = some p)
    (hbody : Gateway.body w.reader.context w.reader.groups = .ok text)
    (hempty : w.desk.folder.get? p = some ByteArray.empty)
    (hmatlab : ∀ s ∈ w.desk.matlab, s.file ≠ some p) :
    (conclude (w.andThen complete)).1.closeOutputs.folder.get? p
      = some (t.text ++ text).toUTF8 := by
  obtain ⟨-, s, hs, hsfile, hstext⟩ := complete_ok herrors ht hbody
  obtain ⟨c, halt, -, hkeeps⟩ := keeps_complete w
  rw [← hstext]
  rw [← Walk.andThen_of_goes (f := complete) hgoes] at hs
  refine get?_conclude_c hs (hsfile.trans hfile) ?_ ?_
  · rw [hkeeps]
    exact hmatlab
  · rw [hkeeps]
    exact hempty

/-- A run with status 0 whose C output goes to `p`: what reading the input comes to, and what is in
the file in the end. -/
structure Finished (support : String) (args : List String) (folder : Folder) (o : Options)
    (p : Folder.Path) (w : Walk Ledger) (stubs : List String) : Prop where
  clean : ReadsClean support args folder o w
  legible : w.reader.Legible
  stubbed : w.reader.groups.mapM (·.stub w.reader.context) = .ok stubs
  opening : Opening o.inputs (script support args folder)
  idle : Step.unread (script support args folder) = o.inputs → w.reader.groups = []
  file : (run support args folder).1.folder.get? p
    = some ((if Step.unread (script support args folder) = o.inputs then ""
        else Gateway.header o.settings support)
      ++ String.join (Step.code (script support args folder))
      ++ Gateway.definitions w.reader.context w.reader.groups ++ String.join stubs
      ++ Gateway.tableSection w.reader.groups
      ++ Gateway.entry w.reader.context w.reader.groups).toUTF8

/-- **What a run with status 0 leaves in the C output.** The MATLAB output must not go there. -/
theorem exists_finished {args : List String} {n : String} (parsed : Options.parse args = .ok o)
    (help : o.help = false) (inputs : o.inputs ≠ []) (named : o.c = some n) (hn : n ≠ "")
    (hmatlab : ∀ p, folder.place n = .ok p → outputPath folder o.matlab ≠ .ok (some p))
    (htargets : o.batching = true → ∀ name ∈ Step.targets (script support args folder),
      ∀ p, folder.place n = .ok p → folder.place name ≠ .ok p)
    (hstatus : (run support args folder).2 = .status 0) :
    ∃ p w stubs, folder.place n = .ok p ∧ Finished support args folder o p w stubs := by
  cases hopen : openOutputs o { folder := folder } with
  | error f =>
    rw [run_unopened parsed help inputs hopen] at hstatus
    cases hstatus
  | ok d =>
    obtain ⟨matlab, c, hm, hc, rfl⟩ := openOutputs_eq_ok.1 hopen
    have hfilter : o.c.filter (· ≠ "") = some n := by simp [named, hn]
    obtain ⟨p, hplace, rfl⟩ : ∃ p, folder.place n = .ok p ∧ c = some p := by
      rcases outputPath_eq_ok.1 hc with ⟨hnone, -⟩ | ⟨n', p, hname, hplace, hp⟩
      · cases hfilter.symm.trans hnone
      · cases hfilter.symm.trans hname
        exact ⟨p, hplace, hp⟩
    obtain ⟨w, hw⟩ : ∃ w, inputFiles support o false o.inputs
        (start o (opened folder matlab (some p))) = w := ⟨_, rfl⟩
    have hplays : Walk.Plays (perform support o) (start o (opened folder matlab (some p)))
        (script support args folder) w := by
      rw [script_eq_steps parsed help inputs hopen, ← hw]
      exact plays_inputFiles ..
    have hread : reading support o folder = .ok w := by
      rw [reading, hopen, ← hw]
      rfl
    have hlegible : w.reader.Legible := by
      rw [← hw]
      exact legible_inputFiles false o.inputs ⟨Context.worded_ofSettings o.settings, nofun⟩
    have hrun : run support args folder = conclude (w.andThen complete) := by
      rw [← hw]
      exact run_eq_conclude parsed help inputs hopen
    -- The MATLAB output never goes to `p`, so the C output is alone there.
    obtain ⟨hempty, hother⟩ := spared hm hc
      (fun heq => hmatlab p hplace (hm.trans (congrArg Except.ok heq)))
      (fun hb name hname => htargets hb name hname p hplace) hplays
    rw [hrun] at hstatus
    have hisSome : w.desk.c.isSome = true := by
      rw [← Option.isSome_map, fileC_plays hplays]
      rfl
    obtain ⟨hgoes, herrors, text, hbody⟩ :=
      body_of_status hisSome (fun k hk => exit_plays hplays rfl hk) hstatus
    have hopening : Opening o.inputs (script support args folder) := by
      rw [script_eq_steps parsed help inputs hopen]
      rw [← hw] at hgoes
      exact opening_steps _ _ hgoes
    obtain ⟨t, ht, hfile, htext⟩ := exists_sheet hopening hplays
    obtain ⟨stubs, hstubs, rfl⟩ := Gateway.body_eq_entry hbody
    refine ⟨p, w, stubs, hplace, ⟨parsed, help, inputs, ⟨n, named, hn⟩, hread, hgoes, herrors⟩,
      hlegible, hstubs, hopening, fun hunread => ?_, ?_⟩
    · cases hopening with
      | idle _ hidle => exact groups_of_isIdle hplays hidle
      | headed _ _ hsome => exact absurd hunread hsome
    · rw [hrun, ← folder_conclude_of_status hstatus,
        get?_c_of_body hgoes herrors ht hfile hbody hempty hother, htext]
      simp only [String.append_assoc]

/-- Without a routine the pieces hold no definition of the table (`Gateway.table_undefined`). -/
theorem Finished.apart {args : List String} {stubs : List String}
    (h : Finished support args folder o p w stubs) (hnone : w.reader.groups = []) :
    Text.Apart ']' ' ' (Gateway.definitions w.reader.context w.reader.groups ++ String.join stubs
      ++ Gateway.tableSection w.reader.groups
      ++ Gateway.entry w.reader.context w.reader.groups) := by
  have hstubs := h.stubbed
  rw [hnone] at hstubs ⊢
  cases hstubs
  have hjoin : String.join [].reverse = "" := rfl
  rw [hjoin, String.append_empty, String.append_assoc]
  exact Gateway.apart_generated h.legible.types

end

open Text

/-- **The C output of a run with status 0, piece by piece.** It can be made where its option says.
The header goes out once and before all else if some input file can be read, and not at all if none
can; then come the lines of C of the sources, the helpers and the stubs, the table and the entry
function. If there is a routine, some file could be read, and whatever the table and the entry
function refer to is defined before them. If there is none, the entry function refers to a table
that nothing generated defines. The MATLAB output must not go to the same file. -/
theorem c_output_layout {support : String} {args : List String} {folder : Folder} {o : Options}
    {n : String} (parsed : Options.parse args = .ok o) (help : o.help = false)
    (inputs : o.inputs ≠ []) (named : o.c = some n) (hn : n ≠ "")
    (hmatlab : ∀ p, folder.place n = .ok p → outputPath folder o.matlab ≠ .ok (some p))
    (htargets : o.batching = true → ∀ name ∈ Step.targets (script support args folder),
      ∀ p, folder.place n = .ok p → folder.place name ≠ .ok p)
    (hstatus : (run support args folder).2 = .status 0) :
    let ss := script support args folder
    ∃ p w stubs, folder.place n = .ok p ∧ reading support o folder = .ok w ∧
      w.reader.groups.mapM (·.stub w.reader.context) = .ok stubs ∧ Opening o.inputs ss ∧
      let c := w.reader.context
      let gs := w.reader.groups
      let head := if Step.unread ss = o.inputs then "" else Gateway.header o.settings support
      let copied := String.join (Step.code ss)
      let defined := Gateway.definitions c gs ++ String.join stubs
      let table := Gateway.tableSection gs
      (run support args folder).1.folder.get? p
        = some (head ++ copied ++ (defined ++ table) ++ Gateway.entry c gs).toUTF8 ∧
      (∀ r ∈ Gateway.entryReferences gs, Occurs r.name (Gateway.entry c gs)) ∧
      ((∀ g ∈ gs, ∀ r ∈ g.members, Gateway.mentions r.file = []) → ∀ word,
        word ∈ Gateway.mentions (Gateway.entry c gs) ↔
          ∃ r ∈ Gateway.entryReferences gs, r.name.toList = word) ∧
      (gs ≠ [] → head = Gateway.header o.settings support ∧
        (∀ r ∈ Gateway.tableReferences gs, Occurs r.name table ∧ Occurs r.definition defined) ∧
        ∀ r ∈ Gateway.entryReferences gs, Occurs r.definition (defined ++ table)) ∧
      (gs = [] → ¬ Occurs Gateway.Reference.table.definition
        (defined ++ table ++ Gateway.entry c gs)) := by
  intro ss
  obtain ⟨p, w, stubs, hplace, h⟩ :=
    exists_finished parsed help inputs named hn hmatlab htargets hstatus
  obtain ⟨es, hes, -⟩ := h.clean.exists_run
  have hfiled := Ledger.filed_run o.mex (.ofSettings o.settings) es
  rw [← hes] at hfiled
  refine ⟨p, w, stubs, hplace, h.clean.read, h.stubbed, h.opening, ?_,
    fun r hr => Gateway.occurs_entry hr,
    fun hfiles word => Gateway.mem_mentions_entry (fun g hg => ?_) hfiles,
    fun hroutine => ⟨?_, fun r hr => ?_, fun r hr => ?_⟩, fun hnone => ?_⟩
  · rw [h.file]
    simp only [String.append_assoc]
    rfl
  · have hid := hfiled.id_bounds (Ledger.Filed.mem_routines hg (List.mem_cons_self ..))
    omega
  · exact if_neg fun hunread => hroutine (h.idle hunread)
  · exact ⟨Gateway.occurs_table hr, (Gateway.tableReferences_defined h.stubbed hr).append_left _⟩
  · rw [String.append_assoc]
    exact (Gateway.entryReferences_defined hfiled hroutine h.stubbed hr).append_left _
  · exact Gateway.table_undefined (h.apart hnone)

/-- Lines of C, and a routine with a twin. -/
def lateFolder : Folder :=
  { files := [(["a.mw"], "$ int f(int);\n# f(int x);\n$[\nint g;\n$]\n# f(int y);\n".toUTF8)] }

/-- The first input file is not there; the header comes before the lines of the second one. -/
theorem c_output_layout_late :
    let r := run "" ["-m", "m.m", "-c", "c.c", "no.mw", "a.mw"] lateFolder
    r.2 = .status 0 ∧ ∃ defined entry, r.1.folder.get? ["c.c"]
      = some (Gateway.header {} "" ++ " int f(int);\nint g;\n" ++ defined ++ entry).toUTF8 ∧
      (∀ ref ∈ [Gateway.Reference.table, .tableSize, .signature 1, .stub 1],
        Occurs ref.name entry ∧ Occurs ref.definition defined) ∧
      ∀ word ∈ Gateway.mentions entry,
        String.ofList word ∈ ["mwStubs_", "mwNumStubs_", "stubids1_", "mexStub1"] := by
  intro r
  let o : Options := { matlab := some "m.m", c := some "c.c", inputs := ["no.mw", "a.mw"] }
  have hparsed : Options.parse ["-m", "m.m", "-c", "c.c", "no.mw", "a.mw"] = .ok o := rfl
  have hplace : lateFolder.place "c.c" = .ok ["c.c"] := rfl
  have hmatlab : outputPath lateFolder (some "m.m") = .ok (some ["m.m"]) := rfl
  have hstatus : r.2 = .status 0 := by decide +kernel
  have hcode : Step.code (script "" ["-m", "m.m", "-c", "c.c", "no.mw", "a.mw"] lateFolder)
      = [" int f(int);\n", "int g;\n"] := by decide +kernel
  have hreferences : (reading "" o lateFolder).toOption.map
      (fun w => Gateway.entryReferences w.reader.groups)
      = some [.table, .tableSize, .signature 1, .stub 1] := by decide +kernel
  have hfiles : (reading "" o lateFolder).toOption.all (fun w =>
      w.reader.groups.all (·.members.all (·.file == "a.mw"))) = true := by decide +kernel
  have hapart : ∀ p, lateFolder.place "c.c" = .ok p →
      outputPath lateFolder (some "m.m") ≠ .ok (some p) := by
    intro p hp heq
    cases hplace.symm.trans hp
    exact absurd (Except.ok.inj (hmatlab.symm.trans heq)) (by decide)
  obtain ⟨p, w, stubs, hp, hread, -, -, hfile, huses, hmentions, hroutine, -⟩ :=
    c_output_layout hparsed rfl (by decide) rfl (by decide) hapart nofun hstatus
  cases hplace.symm.trans hp
  rw [hread] at hreferences hfiles
  have hreferences : Gateway.entryReferences w.reader.groups
      = [.table, .tableSize, .signature 1, .stub 1] := Option.some.inj hreferences
  have hgroups : w.reader.groups ≠ [] := by
    intro hnone
    rw [hnone] at hreferences
    cases hreferences
  obtain ⟨hhead, -, hdefined⟩ := hroutine hgroups
  have hcopied : String.join [" int f(int);\n", "int g;\n"] = " int f(int);\nint g;\n" := by decide
  rw [hhead, hcode, hcopied] at hfile
  refine ⟨hstatus, _, _, hfile, fun ref href => ?_, fun word hword => ?_⟩
  · rw [← hreferences] at href
    exact ⟨huses ref href, hdefined ref href⟩
  · have hnone : ∀ g ∈ w.reader.groups, ∀ r ∈ g.members, Gateway.mentions r.file = [] := by
      intro g hg r hr
      have hr : (r.file == "a.mw") = true :=
        List.all_eq_true.1 (List.all_eq_true.1 hfiles g hg) r hr
      rw [eq_of_beq hr]
      decide
    obtain ⟨ref, href, rfl⟩ := (hmentions hnone word).1 hword
    rw [hreferences] at href
    rw [String.ofList_toList]
    have hnames : ∀ ref ∈ [Gateway.Reference.table, .tableSize, .signature 1, .stub 1],
        ref.name ∈ ["mwStubs_", "mwNumStubs_", "stubids1_", "mexStub1"] := by decide
    exact hnames ref href

/-- An input file without a line has no routine, and one that is missing has no header, either. Yet
the run ends with status 0, and the entry function refers to a table that is not defined. -/
theorem c_output_incomplete :
    let folder : Folder := { files := [(["a.mw"], ByteArray.empty)] }
    ∀ name ∈ ["a.mw", "no.mw"],
      let r := run "" ["-c", "c.c", name] folder
      r.2 = .status 0 ∧ ∃ text : String, r.1.folder.get? ["c.c"] = some text.toUTF8 ∧
        Occurs Gateway.Reference.table.name text ∧
        ¬ Occurs Gateway.Reference.table.definition text ∧
        (name = "no.mw" → ∀ rest, text ≠ Gateway.header {} "" ++ rest) := by
  intro folder
  have hstatus : ∀ name ∈ ["a.mw", "no.mw"],
      (run "" ["-c", "c.c", name] folder).2 = .status 0 := by decide +kernel
  have hcode : ∀ name ∈ ["a.mw", "no.mw"],
      Step.code (script "" ["-c", "c.c", name] folder) = [] := by decide +kernel
  have hunread : Step.unread (script "" ["-c", "c.c", "no.mw"] folder) = ["no.mw"] := by
    decide +kernel
  have hgroups : ∀ name ∈ ["a.mw", "no.mw"],
      (reading "" { c := some "c.c", inputs := [name] } folder).toOption.all
        (fun w => w.reader.groups.isEmpty) = true := by decide +kernel
  have hplace : folder.place "c.c" = .ok ["c.c"] := rfl
  intro name hname r
  have hparsed : Options.parse ["-c", "c.c", name] = .ok { c := some "c.c", inputs := [name] } := by
    simp only [List.mem_cons, List.not_mem_nil, or_false] at hname
    rcases hname with rfl | rfl <;> rfl
  obtain ⟨p, w, stubs, hp, h⟩ := exists_finished hparsed rfl (by simp) rfl (by decide)
    (fun p _ heq => nomatch heq) nofun (hstatus name hname)
  cases hplace.symm.trans hp
  have hnone : w.reader.groups = [] := by
    have hempty := hgroups name hname
    rw [h.clean.read] at hempty
    exact List.isEmpty_iff.1 hempty
  have hfile := h.file
  rw [hcode name hname] at hfile
  refine ⟨hstatus name hname, _, hfile, ?_, Gateway.table_undefined ?_, ?_⟩
  · exact (Gateway.occurs_entry (List.mem_cons_self ..)).append_left _
  · have hhead : Apart ']' ' ' (if Step.unread (script "" ["-c", "c.c", name] folder) = [name]
        then "" else Gateway.header {} "") := by
      split
      · exact apart_literal rfl
      · exact Gateway.apart_header
    have hjoin : Apart ']' ' ' (String.join []) := apart_literal rfl
    have hapart := h.apart hnone
    simp only [String.append_assoc] at hapart ⊢
    rw [apart_append_iff hhead, apart_append_iff hjoin]
    exact hapart
  · rintro rfl rest
    have hjoin : String.join [] = "" := rfl
    rw [if_pos hunread, hjoin]
    simp only [String.append_assoc, String.empty_append]
    exact Gateway.definitions_ne_header _ _ _ _ _ _

end Command

end MexBridge
