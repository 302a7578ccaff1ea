import MexBridge.Proofs.Command.Retelling
import MexBridge.Proofs.Ledger.Widening

/-!
# Integer promotion is a renaming of types

With all integer types standing for 64 bits, a run makes the same of its sources as a run without that
makes of the sources with these types renamed, but for the copiers of `uint` and `ulong`
(`promotion_is_renaming`). Step by step the second run is where the first one is, in another folder and
with a twin of its ledger (`Turned.plays`).
-/

namespace MexBridge

/-! ## Folders that agree -/

namespace Folder.Agrees

variable {R : List Folder.Path} {d d' : Folder}

theorem put (h : d.Agrees R d') (p : Folder.Path) (content : ByteArray) :
    ({ d with files := Folder.put p content d.files } : Folder).Agrees R
      { d' with files := Folder.put p content d'.files } := by
  refine { h.toSameNames.put p content content with other := fun q hq => ?_ }
  by_cases heq : q = p
  · subst heq
    exact (lookup_put_self ..).trans (lookup_put_self ..).symm
  · exact (lookup_put_of_ne heq ..).trans ((h.other q hq).trans (lookup_put_of_ne heq ..).symm)

theorem closeAll (h : d.Agrees R d') (os : List Sheet) :
    (Sheet.closeAll os d).Agrees R (Sheet.closeAll os d') := by
  refine { Sheet.sameNames_closeAll rfl h.toSameNames with other := fun p hp => ?_ }
  rw [Sheet.get?_closeAll os d p]
  exact Sheet.get?_closeAll_filter os (h.other p hp)

end Folder.Agrees

/-- The walk in another folder, with another ledger. -/
def Walk.moved (G : Folder) (r : Ledger) (w : Walk Ledger) : Walk Ledger :=
  { w with desk := { w.desk with folder := G }, reader := r }

namespace Walk

variable {R : List Folder.Path} {G : Folder} {w : Walk Ledger}

theorem moved_openBatch (h : w.desk.folder.Agrees R G) (name : String) (r : Ledger) :
    ∃ G', (w.moved G r).openBatch name = (w.openBatch name).moved G' r ∧
      (w.openBatch name).desk.folder.Agrees R G' := by
  have hplaces := h.place name
  cases hplace : w.desk.folder.place name with
  | error f =>
    rw [openBatch_error hplace, openBatch_error (w := w.moved G r) (hplaces.trans hplace)]
    split <;> exact ⟨G, rfl, h⟩
  | ok p =>
    rw [openBatch_ok hplace, openBatch_ok (w := w.moved G r) (hplaces.trans hplace)]
    exact ⟨_, rfl, h.put p _⟩

theorem moved_direct (h : w.desk.folder.Agrees R G) (m : WalkMode Ledger) (target : String)
    (r : Ledger) : ∃ G', (w.moved G r).direct m target = (w.direct m target).moved G' r ∧
      (w.direct m target).desk.folder.Agrees R G' := by
  obtain ⟨G', heq, hagrees⟩ : ∃ G', (w.moved G r).reopen m target = (w.reopen m target).moved G' r ∧
      (w.reopen m target).desk.folder.Agrees R G' := by
    have hclosed : (w.onDesk .closeMatlab).desk.folder.Agrees R (Sheet.closeAll w.desk.matlab.toList G) :=
      h.closeAll _
    unfold reopen
    split
    · dsimp only
      split
      · exact ⟨_, rfl, hclosed⟩
      · exact moved_openBatch hclosed target r
    · exact ⟨G, rfl, h⟩
  unfold direct
  rw [heq]
  generalize w.reopen m target = u at hagrees ⊢
  unfold andThen
  change ∃ G', (if u.halt.isSome then _ else _) = _ ∧ _
  split
  · exact ⟨G', rfl, hagrees⟩
  · split <;> exact ⟨G', rfl, hagrees⟩

/-- The walk without its C output. -/
def withoutC (w : Walk Ledger) : Walk Ledger := { w with desk := { w.desk with c := none } }

/-- Directing the MATLAB output does not depend on the C output. -/
theorem direct_withoutC (m : WalkMode Ledger) (target : String) (w : Walk Ledger) :
    w.withoutC.direct m target = (w.direct m target).withoutC := by
  have hopen : ∀ w : Walk Ledger, w.withoutC.openBatch target = (w.openBatch target).withoutC := by
    intro w
    cases hplace : w.desk.folder.place target with
    | error f =>
      rw [openBatch_error hplace, openBatch_error (w := w.withoutC) hplace]
      split <;> rfl
    | ok p =>
      rw [openBatch_ok hplace, openBatch_ok (w := w.withoutC) hplace]
      rfl
  have heq : w.withoutC.reopen m target = (w.reopen m target).withoutC := by
    unfold reopen
    split
    · dsimp only
      split
      · rfl
      · exact hopen (w.onDesk .closeMatlab)
    · rfl
  unfold direct
  rw [heq]
  generalize w.reopen m target = u
  unfold andThen
  change (if u.halt.isSome then _ else _) = _
  split
  · rfl
  · split <;> rfl

end Walk

namespace Command

namespace Step

/-- The token that a step hands over; a file is ended by one. -/
def token? : Step → Option Token
  | .deed (.token t) => some t
  | .finish => some .finish
  | _ => none

def tokens (ss : List Step) : List Token := ss.filterMap token?

/-- The line of C that a step copies. -/
def code? : Step → Option String
  | .deed (.c s) => some s
  | _ => none

def code (ss : List Step) : List String := ss.filterMap code?

theorem tokens_cons (s : Step) (ss : List Step) : tokens (s :: ss) = tokens [s] ++ tokens ss := by
  unfold tokens
  rw [← List.filterMap_append]
  rfl

theorem code_cons (s : Step) (ss : List Step) : code (s :: ss) = code [s] ++ code ss := by
  unfold code
  rw [← List.filterMap_append]
  rfl

theorem Like.length_code {s s' : Step} (h : s.Like s') : (code [s']).length = (code [s]).length := by
  cases h with
  | same => rfl
  | deed hd => cases hd <;> rfl

end Step

section

variable {support : String} {o o' : Options} {w w' v v' : Walk Ledger} {R : List Folder.Path}
  {met types : List String} {ts us : List Token}

/-! ## A run on renamed types -/

/-- The second run is where the first one is, in a folder that agrees but for the files at `R` and with
a twin of its ledger. The tokens `ts` and `us` are to come. -/
structure Turned (R : List Folder.Path) (met types : List String) (ts us : List Token)
    (w v : Walk Ledger) : Prop where
  moved : v = w.moved v.desk.folder v.reader
  agrees : w.desk.folder.Agrees R v.desk.folder
  comes : Ledger.Comes met types ts us w.reader v.reader

theorem moved_feed {t u : Token} {r : Ledger} (G : Folder)
    (hreply : (r.feed o.mex w.desk.file u).2 = (w.reader.feed o.mex w.desk.file t).2) :
    (w.moved G r).feed o.mode u = (w.feed o.mode t).moved G (r.feed o.mex w.desk.file u).1 :=
  congrArg (fun reply : Reply => ({ w with
    desk := ({ w.desk with folder := G }.report reply.notices).writeMatlab reply.matlab
    reader := (r.feed o.mex w.desk.file u).1 } : Walk Ledger)) hreply

theorem moved_finishFile {r : Ledger} (G : Folder)
    (hreply : (r.finishFile w.desk.file w.desk.line).2
      = (w.reader.finishFile w.desk.file w.desk.line).2) :
    finishFile (w.moved G r)
      = (finishFile w).moved G (r.finishFile w.desk.file w.desk.line).1 :=
  congrArg (fun reply : Reply => ({ w with
    desk := { w.desk with folder := G }.report reply.notices
    reader := (r.finishFile w.desk.file w.desk.line).1 } : Walk Ledger)) hreply

theorem Turned.deed {d d' : Deed} (hd : d.Like d')
    (hcode : Step.code [.deed d'] = Step.code [.deed d])
    (h : Turned R met types (Step.tokens [.deed d] ++ ts) (Step.tokens [.deed d'] ++ us) w v) :
    ∃ met' types', met' ++ types' = met ++ types ∧
      Turned R met' types' ts us (w.perform o.mode d) (v.perform o.mode d') := by
  obtain ⟨hv, hagrees, hcomes⟩ := h
  generalize v.desk.folder = G at hv hagrees
  generalize v.reader = r at hv hcomes
  subst hv
  have htoken : ∀ {t u : Token}, Ledger.Comes met types (t :: ts) (u :: us) w.reader r →
      ∃ met' types', met' ++ types' = met ++ types ∧
        Turned R met' types' ts us (w.feed o.mode t) ((w.moved G r).feed o.mode u) := by
    intro t u hcomes
    obtain ⟨met', types', hmet, hnext, hreply⟩ := hcomes.feed o.mex w.desk.file
    rw [moved_feed G hreply]
    exact ⟨met', types', hmet, rfl, hagrees, hnext⟩
  cases hd with
  | token => exact htoken hcomes
  | c s s' =>
    cases hcode
    exact ⟨met, types, rfl, rfl, hagrees, hcomes⟩
  | same =>
    cases d with
    | token t => exact htoken hcomes
    | direct target =>
      obtain ⟨G', heq, hagrees'⟩ := Walk.moved_direct hagrees o.mode target r
      change ∃ met' types', _ ∧ Turned R met' types' ts us (w.direct o.mode target)
        ((w.moved G r).direct o.mode target)
      rw [heq]
      refine ⟨met, types, rfl, rfl, hagrees', ?_⟩
      rw [Walk.reader_direct]
      exact hcomes
    | _ => exact ⟨met, types, rfl, rfl, hagrees, hcomes⟩

theorem Turned.perform (hmode : o'.mode = o.mode) {s s' : Step} (hs : s.Like s')
    (hcode : Step.code [s'] = Step.code [s])
    (h : Turned R met types (Step.tokens [s] ++ ts) (Step.tokens [s'] ++ us) w v) :
    ∃ met' types', met' ++ types' = met ++ types ∧
      Turned R met' types' ts us (perform support o s w) (perform support o' s' v) := by
  have hdeed : ∀ {d d' : Deed}, d.Like d' → Step.code [.deed d'] = Step.code [.deed d] →
      Turned R met types (Step.tokens [.deed d] ++ ts) (Step.tokens [.deed d'] ++ us) w v →
      ∃ met' types', met' ++ types' = met ++ types ∧
        Turned R met' types' ts us (w.perform o.mode d) (v.perform o'.mode d') := by
    rw [hmode]
    exact fun hd hcode h => h.deed hd hcode
  cases hs with
  | deed hd => exact hdeed hd hcode h
  | same =>
    obtain ⟨hv, hagrees, hcomes⟩ := id h
    generalize v.desk.folder = G at hv hagrees
    generalize v.reader = r at hv hcomes
    cases s with
    | begin =>
      subst hv
      exact ⟨met, types, rfl, rfl, hagrees, { hcomes with typeErrors := rfl }⟩
    | unreadable name =>
      subst hv
      exact ⟨met, types, rfl, rfl, hagrees, hcomes⟩
    | header =>
      have hparts : Gateway.headerParts r.context.settings support
          = Gateway.headerParts w.reader.context.settings support := by
        rw [hcomes.context.settings]
        rfl
      subst hv
      refine ⟨met, types, rfl, ?_, hagrees, hcomes⟩
      exact congrArg (fun parts => (w.moved G r).onDesk (.writeAllC parts)) hparts
    | deed d => exact hdeed (.same d) hcode h
    | finish =>
      subst hv
      obtain ⟨hnext, hreply⟩ := hcomes.finishFile w.desk.file w.desk.line
      refine ⟨met, types, rfl, ?_⟩
      change Turned _ _ _ _ _ (finishFile w) (finishFile (w.moved G r))
      rw [moved_finishFile G hreply]
      exact ⟨rfl, hagrees, hnext⟩

/-- **All along the second run stays where the first one is,** and in the end all types have been met. -/
theorem Turned.plays (hmode : o'.mode = o.mode) {ss ss' : List Step}
    (hss : List.Forall₂ Step.Like ss ss') (hcode : Step.code ss' = Step.code ss)
    (h : Turned R met types (Step.tokens ss) (Step.tokens ss') w v)
    (hw : Walk.Plays (Command.perform support o) w ss w')
    (hv : Walk.Plays (Command.perform support o') v ss' v') :
    Turned R (met ++ types) [] [] [] w' v' := by
  induction hw generalizing v ss' met types with
  | nil w =>
    cases hss
    cases hv
    cases h.comes.done
    rwa [List.append_nil]
  | @cons w w' s ss _ _ ih =>
    cases hss with
    | @cons _ s' _ ss' hs hss =>
      cases hv with
      | cons _ hv =>
        -- A step copies a line of C in both runs or in neither, so the lines match one by one.
        rw [Step.code_cons, Step.code_cons s] at hcode
        rw [Step.tokens_cons, Step.tokens_cons s'] at h
        obtain ⟨hfirst, hrest⟩ := List.append_inj hcode hs.length_code
        obtain ⟨met', types', hmet, hnext⟩ := h.perform hmode hs hfirst
        rw [← hmet]
        exact ih hss hrest hnext hv

/-! ## The end of both runs -/

/-- Both gateway files are completed, or neither. -/
theorem Turned.complete (h : Turned R met [] [] [] w v) :
    (v.andThen complete).halt = (w.andThen complete).halt ∧
      ∀ t, w.desk.c = some t → ∃ s s', (w.andThen complete).desk.c = some s ∧
        (v.andThen complete).desk.c = some s' ∧ s.file = t.file ∧ s'.file = t.file ∧
        Gateway.Trimmed met s.text s'.text := by
  obtain ⟨hv, -, hcomes⟩ := h
  generalize v.desk.folder = G at hv
  generalize v.reader = r at hv hcomes
  subst hv
  have hsame : ∀ t, w.desk.c = some t → ∃ s s', w.desk.c = some s ∧ w.desk.c = some s' ∧
      s.file = t.file ∧ s'.file = t.file ∧ Gateway.Trimmed met s.text s'.text :=
    fun t ht => ⟨t, t, ht, ht, rfl, rfl, .refl met t.text⟩
  by_cases hhalt : w.halt.isSome = true
  · rw [Walk.andThen_of_ended hhalt, Walk.andThen_of_ended (w := w.moved G r) hhalt]
    exact ⟨rfl, hsame⟩
  · have hgoes : w.halt = none := by simpa using hhalt
    rw [Walk.andThen_of_goes hgoes, Walk.andThen_of_goes (w := w.moved G r) hgoes]
    by_cases hdone : w.reader.errors = 0 ∧ w.desk.c.isSome = true
    · have hdone' : r.errors = 0 ∧ w.desk.c.isSome = true := hcomes.errors.symm ▸ hdone
      -- Routines are on file with promoted types, so both bodies have the same stubs.
      have hfirst : ∀ g ∈ w.reader.groups, ∀ n ∈ g.first.baseTypes, widened n = n :=
        fun g hg => hcomes.promoted g.first (List.mem_flatMap.2 ⟨g, hg, by simp [Group.members]⟩)
      have hbodies := Gateway.body_twin hcomes.context hfirst
      obtain ⟨t, ht⟩ := Option.isSome_iff_exists.1 hdone.2
      rcases hbodies with ⟨f, hbody, hbody'⟩ | ⟨text, text', hbody, hbody', htrimmed⟩
      · rw [← hcomes.groups] at hbody'
        rw [complete_error hdone hbody, complete_error (w := w.moved G r) hdone' hbody']
        exact ⟨rfl, hsame⟩
      · rw [← hcomes.groups] at hbody'
        obtain ⟨hhalt, s, hs, hfile, htext⟩ := complete_ok hdone.1 ht hbody
        obtain ⟨hhalt', s', hs', hfile', htext'⟩ :=
          complete_ok (w := w.moved G r) hdone'.1 ht hbody'
        refine ⟨hhalt'.trans hhalt.symm, fun t' ht' => ?_⟩
        cases ht.symm.trans ht'
        refine ⟨s, s', hs, hs', hfile, hfile', ?_⟩
        rw [htext, htext']
        exact htrimmed.append_left t.text
    · have hdone' : ¬ (r.errors = 0 ∧ w.desk.c.isSome = true) := hcomes.errors.symm ▸ hdone
      rw [complete_alone hdone, complete_alone (w := w.moved G r) hdone']
      exact ⟨rfl, hsame⟩

/-- Both runs report the same and end alike. -/
theorem Turned.conclude (h : Turned R met [] [] [] w v) :
    (conclude (v.andThen Command.complete)).1.notices
        = (conclude (w.andThen Command.complete)).1.notices ∧
      (conclude (v.andThen Command.complete)).1.stdout
        = (conclude (w.andThen Command.complete)).1.stdout ∧
      (conclude (v.andThen Command.complete)).2 = (conclude (w.andThen Command.complete)).2 := by
  have hhalt := h.complete.1
  obtain ⟨c, halt, -, hw⟩ := keeps_complete w
  obtain ⟨c', halt', -, hv⟩ := keeps_complete v
  have hmoved := h.moved
  rw [notices_conclude, notices_conclude, stdout_conclude, stdout_conclude]
  refine ⟨?_, ?_, ending_conclude hhalt ?_⟩
  · rw [hw, hv, hmoved]
    rfl
  · rw [hw, hv, hmoved]
    rfl
  · rw [hw, hv]
    exact h.comes.errors

variable {p : Folder.Path}

/-- A file that is no C output holds the same in the end. -/
theorem Turned.get?_of_ne (h : Turned R met [] [] [] w v) (hp : p ∉ R)
    (hc : w.desk.c.map (·.file) ≠ some (some p)) :
    (Command.conclude (v.andThen Command.complete)).1.closeOutputs.folder.get? p
      = (Command.conclude (w.andThen Command.complete)).1.closeOutputs.folder.get? p := by
  have hother : ∀ {c : Option Sheet}, c.map (·.file) = w.desk.c.map (·.file) →
      ∀ t ∈ c, t.file ≠ some p := by
    rintro _ hfile t rfl heq
    exact hc (hfile.symm.trans (congrArg some heq))
  obtain ⟨c, halt, hfile, hw⟩ := keeps_complete w
  obtain ⟨c', halt', hfile', hv⟩ := keeps_complete v
  have hmoved := h.moved
  have hfileV : c'.map (·.file) = w.desk.c.map (·.file) := by
    rw [hfile', hmoved]
    rfl
  rw [hw, hv, get?_conclude_of_ne (hother hfileV), get?_conclude_of_ne (hother hfile)]
  have hmatlab : v.desk.matlab = w.desk.matlab := by
    rw [hmoved]
    rfl
  change (Sheet.closeAll v.desk.matlab.toList v.desk.folder).get? p
    = (Sheet.closeAll w.desk.matlab.toList w.desk.folder).get? p
  rw [hmatlab]
  exact (h.agrees.closeAll _).other p hp

/-- The C output is the same in the end but for the copiers of retired types. -/
theorem Turned.get?_c (h : Turned R met [] [] [] w v) (hp : p ∉ R)
    (hc : w.desk.c.map (·.file) = some (some p)) (hm : ∀ s ∈ w.desk.matlab, s.file ≠ some p)
    (hempty : w.desk.folder.get? p = some ByteArray.empty) :
    ∃ text text',
      (Command.conclude (w.andThen Command.complete)).1.closeOutputs.folder.get? p
        = some text.toUTF8 ∧
      (Command.conclude (v.andThen Command.complete)).1.closeOutputs.folder.get? p
        = some text'.toUTF8 ∧
      Gateway.Trimmed met text text' := by
  obtain ⟨t, ht, hfile⟩ := Option.map_eq_some_iff.1 hc
  obtain ⟨s, s', hs, hs', hsfile, hsfile', htrimmed⟩ := h.complete.2 t ht
  obtain ⟨c, halt, -, hw⟩ := keeps_complete w
  obtain ⟨c', halt', -, hv⟩ := keeps_complete v
  have hmoved := h.moved
  refine ⟨s.text, s'.text, get?_conclude_c hs (hsfile.trans hfile) ?_ ?_,
    get?_conclude_c hs' (hsfile'.trans hfile) ?_ ?_, htrimmed⟩
  · rw [hw]
    exact hm
  · rw [hw]
    exact hempty
  · rw [hv, hmoved]
    exact hm
  · rw [hv]
    exact (h.agrees.other p hp).trans hempty

/-! ## The file of the C output -/

theorem perform_withoutC (s : Step) (w : Walk Ledger) :
    perform support o s w.withoutC = (perform support o s w).withoutC := by
  cases s with
  | deed d =>
    cases d with
    | direct target => exact Walk.direct_withoutC o.mode target w
    | _ => rfl
  | _ => rfl

variable {X : List Folder.Path} {F : Folder}

theorem confined_perform (hX : ∀ p ∈ X, F.Holds p) {s : Step}
    (havoids : Walk.Avoids o.mode X F (Step.deeds [s])) (h : w.Confined X F) :
    (perform support o s w).Confined X F := by
  cases s with
  | header => exact h.alike (Desk.alike_writeAllC _ _)
  | deed d => exact h.perform hX (quiet_mode o) havoids
  | _ => exact h.alike ⟨rfl, rfl⟩

/-- As long as the MATLAB output does not go there, the file of the C output is left alone. -/
theorem spared_plays (hX : ∀ p ∈ X, F.Holds p) {ss : List Step}
    (havoids : Walk.Avoids o.mode X F (Step.deeds ss)) (h : w.withoutC.Confined X F)
    (hw : Walk.Plays (perform support o) w ss w') (hp : p ∉ X) :
    w'.desk.folder.get? p = F.get? p ∧ ∀ s ∈ w'.desk.matlab, s.file ≠ some p := by
  have hend : w'.withoutC.Confined X F := by
    refine hw.induct (P := fun u => u.withoutC.Confined X F) h fun s hs u _ hu => ?_
    rw [← perform_withoutC]
    exact confined_perform hX (havoids.of_sublist (Step.deeds_sublist hs)) hu
  refine ⟨(hend.files.other p hp).symm, fun s hs hfile => hp (hend.outputs p ?_)⟩
  refine List.mem_filterMap.2 ⟨s, ?_, hfile⟩
  exact List.mem_append_left _ (Option.mem_toList.2 hs)

/-- The C output is written when the run ends, unless a MATLAB output is for the same file. -/
theorem spared_opened {folder : Folder} {matlab : Option Folder.Path} {ss : List Step}
    (hmatlab : outputPath folder o.matlab = .ok matlab) (hc : outputPath folder o.c = .ok (some p))
    (hunread : AllUnread folder o ss) (hne : matlab ≠ some p)
    (hapart : o.batching = true → ∀ name ∈ Step.targets ss, folder.place name ≠ .ok p)
    (hw : Walk.Plays (perform support o) (start o (opened folder matlab (some p))) ss w) :
    w.desk.folder.get? p = some ByteArray.empty ∧ ∀ s ∈ w.desk.matlab, s.file ≠ some p := by
  -- Seen without the C output, the run is confined to the files of the MATLAB output.
  have hsubset : ∀ q ∈ outputFiles folder o matlab none ss,
      q ∈ outputFiles folder o matlab (some p) ss := by
    intro q hq
    rw [mem_outputFiles] at hq ⊢
    exact hq.imp_right (Or.imp_left nofun)
  have havoids : Walk.Avoids o.mode (outputFiles folder o matlab none ss)
      (opened folder matlab (some p)).folder (Step.deeds ss) :=
    { reads := fun q hq hmem => (avoids_opened hmatlab hc hunread).reads q hq (hsubset q hmem)
      opens := fun hb name hname q hplace => mem_outputFiles.2
        (Or.inr (Or.inr ⟨hb, name, hname, (covers_opened hmatlab hc).place.2 hplace⟩)) }
  have hconfined : (start o (opened folder matlab (some p))).withoutC.Confined
      (outputFiles folder o matlab none ss) (opened folder matlab (some p)).folder := by
    refine ⟨.refl _ _, fun q hq => mem_outputFiles.2 (Or.inl ?_)⟩
    cases matlab with
    | none => cases hq
    | some pM => exact congrArg some (List.mem_singleton.1 hq).symm
  have hp : p ∉ outputFiles folder o matlab none ss := by
    intro hmem
    rcases mem_outputFiles.1 hmem with h | h | ⟨hb, name, hname, hplace⟩
    · exact hne h
    · cases h
    · exact hapart hb name hname hplace
  obtain ⟨hget, hother⟩ := spared_plays
    (fun q hq => holds_outputFiles hmatlab hc q (hsubset q hq)) havoids hconfined hw hp
  refine ⟨hget.trans ((Folder.get?_makeAll _ folder p).trans (if_pos ?_)), hother⟩
  simp

end

/-- **Promoting all integers to 64 bits is the same as renaming their types.** A run that promotes, and
a run without promotion on sources in which the base types of all arguments and results are renamed,
report the same, end alike and leave the same files. Only the C output may have more in the first run:
the copiers of `uint` and of `ulong`, if these types are used. No output may be read, and the C output
must be apart from the MATLAB outputs. -/
theorem promotion_is_renaming {support : String} {args args' : List String} {folder folder' : Folder}
    {o : Options} {types : List String}
    (parsed : Options.parse args
      = .ok { o with settings := { o.settings with promotion := .wide } })
    (parsed' : Options.parse args'
      = .ok { o with settings := { o.settings with promotion := .native } })
    (hargs : args' ≠ [])
    (hsources : folder.Retold (Step.reads (script support args folder)) folder')
    (hcode : Step.code (script support args' folder') = Step.code (script support args folder))
    (htokens : Retyped widened (Step.tokens (script support args folder))
      (Step.tokens (script support args' folder')) types)
    (hunread : AllUnread folder o (script support args folder)) :
    let r := run support args folder
    let r' := run support args' folder'
    r'.1.notices = r.1.notices ∧ r'.1.stdout = r.1.stdout ∧ r'.2 = r.2 ∧
    (∀ p, p ∉ Step.reads (script support args folder) → outputPath folder o.c ≠ .ok (some p) →
      (remains support args' folder').get? p = (remains support args folder).get? p) ∧
    ∀ pC, outputPath folder o.c = .ok (some pC) → outputPath folder o.matlab ≠ .ok (some pC) →
      (o.batching = true → ∀ name ∈ Step.targets (script support args folder),
        folder.place name ≠ .ok pC) →
      (remains support args' folder').get? pC = (remains support args folder).get? pC ∨
      ∃ text text', (remains support args folder).get? pC = some text.toUTF8 ∧
        (remains support args' folder').get? pC = some text'.toUTF8 ∧
        Gateway.Trimmed types text text' := by
  intro r r'
  let oW : Options := { o with settings := { o.settings with promotion := .wide } }
  let oN : Options := { o with settings := { o.settings with promotion := .native } }
  have hne : args ≠ [] := args_ne_nil parsed fun h => by cases congrArg (·.settings.promotion) h
  have halike : Alike oW oN folder folder' := alike_sameNames hsources.toSameNames _
  cases (paired parsed parsed' halike : Paired support args folder _ args' folder' _) with
  | unstarted hw hv =>
    have hsame : ∀ p, folder'.get? p = folder.get? p :=
      fun p => hsources.other p (by simp [hw.script, Step.reads, Step.deeds])
    rw [show r = _ from hw.run hne, show r' = _ from hv.run hargs, hw.remains hne, hv.remains hargs]
    exact ⟨rfl, rfl, rfl, fun p _ _ => hsame p, fun p _ _ _ => Or.inl (hsame p)⟩
  | @started matlab c hw hv =>
    -- Both runs perform their scripts, which are the same but for names, and stay in step to the end.
    let S := script support args folder
    have hunreadW : AllUnread folder oW S := ⟨hunread.matlab, hunread.c, hunread.targets⟩
    let w := inputFiles support oW false o.inputs (start oW (opened folder matlab c))
    let v := inputFiles support oN false o.inputs (start oN (opened folder' matlab c))
    have hlike : List.Forall₂ Step.Like S (script support args' folder') :=
      script_retold parsed parsed' hsources hunreadW
    have hstart : Turned (Step.reads S) [] types (Step.tokens S)
        (Step.tokens (script support args' folder')) (start oW (opened folder matlab c))
        (start oN (opened folder' matlab c)) :=
      ⟨rfl, agrees_opened hsources.toAgrees matlab c, Ledger.comes_start rfl htokens⟩
    have hend : Turned (Step.reads S) types [] [] [] w v := hstart.plays rfl hlike hcode hw.plays hv.plays
    have hfileC : w.desk.c.map (·.file) = c.map some := by
      rw [fileC_plays hw.plays]
      exact Option.map_map ..
    obtain ⟨hnotices, hstdout, hending⟩ := hend.conclude
    rw [show r = _ from hw.run, show r' = _ from hv.run, hw.remains, hv.remains]
    refine ⟨hnotices, hstdout, hending, fun p hp hne => hend.get?_of_ne hp ?_, fun pC hpC hne hapart => ?_⟩
    · rw [hfileC]
      intro hp'
      obtain ⟨q, rfl, heq⟩ := Option.map_eq_some_iff.1 hp'
      cases heq
      exact hne hw.c
    · cases hw.c.symm.trans hpC
      obtain ⟨hempty, hm⟩ := spared_opened hw.matlab hw.c hunreadW
        (fun heq => hne (hw.matlab.trans (congrArg Except.ok heq))) hapart hw.plays
      exact Or.inr (hend.get?_c (hunread.c pC hpC) hfileC hm hempty)

/-- A line of C, a call with two types that stand for wider ones, and a line of MATLAB. -/
def narrowFolder : Folder :=
  { files := [(["a.mw"], "$ int f(unsigned);\n# int y = f(uint x);\nz\n".toUTF8)] }

def wideFolder : Folder :=
  { files := [(["a.mw"], "$ int f(unsigned);\n# int64_t y = f(uint64_t x);\nz\n".toUTF8)] }

open Grammar in
/-- The call. -/
def narrowCall (line : Int) : Derivation :=
  let name (s : String) : Word .ident := ⟨⟨.ident, s, line⟩, rfl⟩
  let sign (s : String) : Sign s := ⟨⟨.punct, s, line⟩, by simp [Token.isPunct]⟩
  .assignment ⟨name "int", .behind (name "y") none⟩ (sign "=")
    ⟨.plain (name "f"), sign "(",
      some (.one ⟨none, none, name "uint", .behind ⟨⟨.ident, "x", line⟩, Or.inl rfl⟩ none⟩),
      sign ")", sign ";"⟩

theorem retold_narrowFolder : narrowFolder.Retold [["a.mw"]] wideFolder where
  files := rfl
  folders := rfl
  here := rfl
  other := by
    intro p hp
    have hne : (p == ["a.mw"]) = false := by simpa using hp
    unfold Folder.get? wideFolder narrowFolder
    rw [List.lookup_cons, List.lookup_cons, hne]
  texts := by
    intro p hp
    cases List.mem_singleton.1 hp
    have hread : Text.read (narrowFolder.bytesFrom ["a.mw"] 0)
        = (["$ int f(unsigned);\n".toList, "# int y = f(uint x);\n".toList, "z\n".toList], true) := by
      decide +kernel
    have hread' : Text.read (wideFolder.bytesFrom ["a.mw"] 0)
        = (["$ int f(unsigned);\n".toList, "# int64_t y = f(uint64_t x);\n".toList, "z\n".toList],
            true) := by
      decide +kernel
    have htokens : Token.tokens 0 " int y = f(uint x);".toList = (narrowCall 0).tokens := by
      decide +kernel
    have htokens' : Token.tokens 0 " int64_t y = f(uint64_t x);".toList
        = ((narrowCall 0).retype widened).tokens := by
      decide +kernel
    refine ⟨?_, by rw [hread, hread']⟩
    rw [hread, hread']
    refine .cons (Or.inl rfl) (.cons (SourceLine.retold_declaration
      (show SourceLine.classify _ = .declaration " int y = f(uint x);".toList by decide +kernel)
      (show SourceLine.classify _ = .declaration " int64_t y = f(uint64_t x);".toList by decide +kernel)
      rfl ?_) (.cons (Or.inl rfl) .nil))
    rw [htokens, htokens']
    exact Grammar.like_tokens widened (narrowCall 0)

/-- The calls are renamed, the MATLAB text is the same, and the C text is but for the copiers of
`uint`. -/
theorem promotion_is_renaming_narrow :
    let args := ["-i8", "-m", "m.m", "-c", "c.c", "a.mw"]
    let args' := ["-m", "m.m", "-c", "c.c", "a.mw"]
    let r := run "" args narrowFolder
    let r' := run "" args' wideFolder
    r'.1.notices = r.1.notices ∧ r'.2 = r.2 ∧
    (remains "" args' wideFolder).get? ["m.m"] = (remains "" args narrowFolder).get? ["m.m"] ∧
    ((remains "" args' wideFolder).get? ["c.c"] = (remains "" args narrowFolder).get? ["c.c"] ∨
      ∃ text text', (remains "" args narrowFolder).get? ["c.c"] = some text.toUTF8 ∧
        (remains "" args' wideFolder).get? ["c.c"] = some text'.toUTF8 ∧
        Gateway.Trimmed ["int", "uint"] text text') := by
  intro args args' r r'
  have hreads : Step.reads (script "" args narrowFolder) = [["a.mw"]] := by decide +kernel
  have hmatlab : outputPath narrowFolder (some "m.m") = .ok (some ["m.m"]) := by decide +kernel
  have hc : outputPath narrowFolder (some "c.c") = .ok (some ["c.c"]) := by decide +kernel
  have htokens : Step.tokens (script "" args narrowFolder)
      = .otherLine 1 :: ((narrowCall 2).tokens ++ [.otherLine 3, .finish]) := by decide +kernel
  have htokens' : Step.tokens (script "" args' wideFolder)
      = .otherLine 1 :: (((narrowCall 2).retype widened).tokens ++ [.otherLine 3, .finish]) := by
    decide +kernel
  have hretyped : Retyped widened (Step.tokens (script "" args narrowFolder))
      (Step.tokens (script "" args' wideFolder)) ["int", "uint"] := by
    rw [htokens, htokens']
    exact .passed (Or.inl rfl) (.statement (narrowCall 2) (.passed (Or.inl rfl)
      (.passed (Or.inr rfl) (.unfinished (by simp) .nil))))
  have hcode : Step.code (script "" args narrowFolder) = [" int f(unsigned);\n"] := by decide +kernel
  have hcode' : Step.code (script "" args' wideFolder) = [" int f(unsigned);\n"] := by decide +kernel
  have hunread : AllUnread narrowFolder { inputs := ["a.mw"], matlab := some "m.m", c := some "c.c" }
      (script "" args narrowFolder) := by
    refine ⟨fun p hp => ?_, fun p hp => ?_, nofun⟩
    · cases hmatlab.symm.trans hp
      rw [hreads]
      decide
    · cases hc.symm.trans hp
      rw [hreads]
      decide
  obtain ⟨hnotices, -, hending, hother, hcopiers⟩ := promotion_is_renaming
    (o := { inputs := ["a.mw"], matlab := some "m.m", c := some "c.c" })
    (show Options.parse args = .ok _ by decide +kernel)
    (show Options.parse args' = .ok _ by decide +kernel) (by simp [args'])
    (hreads ▸ retold_narrowFolder)
    (hcode'.trans hcode.symm) hretyped hunread
  refine ⟨hnotices, hending, hother ["m.m"] ?_ ?_, hcopiers ["c.c"] hc ?_ nofun⟩
  · rw [hreads]
    decide
  · rw [hc]
    decide
  · rw [hmatlab]
    decide

/-- **No output may be read.** Here the output is directed to the source, and read from where the source
ends. With other names it ends elsewhere. -/
theorem promotion_rereads :
    let folder : Folder :=
      { files := [(["a.mw"], "@ a.mw\n# f(int x);\n# f(int x);\n@ b.m\n".toUTF8)] }
    let folder' : Folder :=
      { files := [(["a.mw"], "@ a.mw\n# f(int64_t x);\n# f(int64_t x);\n@ b.m\n".toUTF8)] }
    let args := ["-i8", "-mb", "a.mw"]
    let args' := ["-mb", "a.mw"]
    (run "" args folder).2 = .status 0 ∧ (run "" args' folder').2 = .status 0 ∧
    (remains "" args folder).get? ["b.m"] = some "\nmex_id_ = 2;\nmexfunction(mex_id_, x);\n".toUTF8 ∧
    (remains "" args' folder').get? ["b.m"] = some " = 2;\nmexfunction(mex_id_, x);\n".toUTF8 := by
  decide +kernel

end Command

end MexBridge
