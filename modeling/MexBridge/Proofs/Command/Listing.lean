import MexBridge.Proofs.Command.Outputs

/-!
# Listing the files of a batch

A run that lists files prints the names that its source directs the MATLAB output to, in order, and
opens none of them; a batch opens just these files (`listing_announces_batch`). The two would part if
the MATLAB output of the run were read: it then holds less in a batch, which has closed it
(`listing_misses_name`).
-/

namespace MexBridge

namespace Command

section

variable {support : String} {o : Options} {w w' : Walk Ledger}

/-! ## What is printed -/

theorem stdout_perform (hlisting : o.listing = true) (hbatching : o.batching = false) (s : Step)
    (hhalt : w.halt = none) :
    (perform support o s w).desk.stdout
      = w.desk.stdout ++ String.join ((Step.targets [s]).map (· ++ "\n")) := by
  cases s with
  | deed d =>
    cases d with
    | direct target =>
      have hm : o.mode.batching = false := hbatching
      have hl : o.mode.listing = true := hlisting
      change (w.direct o.mode target).desk.stdout = _
      rw [Walk.direct_eq hm hhalt, hl]
      by_cases hempty : target = ""
      · simp [hempty, Step.targets, Step.deeds, Step.deed?, Deed.target?]
      · simp [hempty, Step.targets, Step.deeds, Step.deed?, Deed.target?, Walk.onDesk, Desk.print,
          String.join_cons, String.append_assoc]
    | _ => exact String.append_empty.symm
  | _ => exact String.append_empty.symm

/-- **A run that lists files prints the names that the MATLAB output is directed to.** -/
theorem stdout_plays (hlisting : o.listing = true) (hbatching : o.batching = false) {ss : List Step}
    (h : Walk.Plays (perform support o) w ss w') :
    w'.desk.stdout = w.desk.stdout ++ String.join ((Step.targets ss).map (· ++ "\n")) := by
  induction h with
  | nil w => exact String.append_empty.symm
  | @cons w w' s ss hgoes _ ih =>
    rw [ih, stdout_perform hlisting hbatching s hgoes, Step.targets_cons s ss, List.map_append,
      String.join_append, String.append_assoc]

end

end Command

/-! ## What is opened -/

theorem Folder.has_put {d : Folder} {q : Folder.Path} (h : (d.get? q).isSome = true)
    (p : Folder.Path) (content : ByteArray) :
    (({ d with files := put p content d.files } : Folder).get? q).isSome = true := by
  by_cases heq : q = p
  · subst heq
    exact Option.isSome_iff_exists.2 ⟨content, lookup_put_self q content d.files⟩
  · exact (congrArg Option.isSome (lookup_put_of_ne heq content d.files)).trans h

theorem Sheet.has_closeAll {d : Folder} {q : Folder.Path} (h : (d.get? q).isSome = true)
    (os : List Sheet) : ((closeAll os d).get? q).isSome = true := by
  have hland : ((landAll os d).get? q).isSome = true := by
    refine List.foldlRecOn (motive := fun d : Folder => (d.get? q).isSome = true) os _ h
      fun d hd o _ => ?_
    unfold land
    split
    · exact Folder.has_put hd _ _
    · exact hd
  refine List.foldlRecOn (motive := fun d : Folder => (d.get? q).isSome = true) os _ hland
    fun d hd o _ => ?_
  unfold finish
  split
  · exact Folder.has_put hd _ _
  · exact hd

namespace Command

section

variable {support : String} {o o' : Options} {X : List Folder.Path} {F : Folder}
  {w w' v v' : Walk Ledger} {p : Folder.Path}

/-- All that directing the MATLAB output can do to files. -/
theorem folder_direct {ρ : Type} (m : WalkMode ρ) (target : String) (w : Walk ρ) :
    (w.direct m target).desk.folder = w.desk.folder ∨
      (w.direct m target).desk.folder = w.desk.closeMatlab.folder ∨
      ∃ p, (w.direct m target).desk.folder = w.desk.closeMatlab.folder.make p := by
  have hprint : ∀ (b : Bool) (u : Walk ρ),
      (u.andThen fun u => if b then u.onDesk (.print target) else u).desk.folder = u.desk.folder := by
    intro b u
    unfold Walk.andThen
    split
    · rfl
    · split <;> rfl
  unfold Walk.direct
  rw [hprint]
  unfold Walk.reopen
  split
  · dsimp only
    split
    · exact Or.inr (Or.inl rfl)
    · refine Or.inr ?_
      cases hplace : (w.onDesk .closeMatlab).desk.folder.place target with
      | ok p =>
        rw [Walk.openBatch_ok hplace]
        exact Or.inr ⟨p, rfl⟩
      | error f =>
        rw [Walk.openBatch_error hplace]
        refine Or.inl ?_
        split <;> rfl
  · exact Or.inl rfl

/-- A file that is there stays there. -/
theorem has_perform (h : (w.desk.folder.get? p).isSome = true) (s : Step) :
    ((perform support o s w).desk.folder.get? p).isSome = true := by
  cases s with
  | deed d =>
    cases d with
    | direct target =>
      have hclosed : (w.desk.closeMatlab.folder.get? p).isSome = true := Sheet.has_closeAll h _
      change ((w.direct o.mode target).desk.folder.get? p).isSome = true
      rcases folder_direct o.mode target w with hfolder | hfolder | ⟨q, hfolder⟩ <;> rw [hfolder]
      · exact h
      · exact hclosed
      · exact Folder.has_put hclosed _ _
    | _ => exact h
  | _ => exact h

/-- **A batch has opened all files that it was directed to.** -/
theorem has_plays (ho : Matching o o' X F) (hbatching : o.batching = true) {ss : List Step}
    (hfits : Walk.Fits o.mode X F (Step.deeds ss)) (h : Abreast X F w v)
    (hw : Walk.Plays (perform support o) w ss w') (hv : Walk.Plays (perform support o') v ss v')
    {name : String} (hname : name ∈ Step.targets ss) (hplace : F.place name = .ok p) :
    (w'.desk.folder.get? p).isSome = true := by
  induction hw generalizing v with
  | nil w => cases hname
  | @cons w w' s ss hgoes hw ih =>
    cases hv with
    | cons _ hv =>
      have hfirst : Walk.Fits o.mode X F (Step.deeds [s]) :=
        hfits.of_sublist (Step.deeds_sublist (by simp))
      rw [Step.targets_cons s ss] at hname
      rcases List.mem_append.1 hname with hname | hname
      · obtain ⟨rfl, hne⟩ := Step.mem_targets_singleton.1 hname
        refine hw.induct (P := fun u => (u.desk.folder.get? p).isSome = true) ?_
          fun s _ _ _ hu => has_perform hu s
        have hclosed := (h.toLevel.closeMatlab ho.holds).files.place.1 hplace
        have hopened : (w.direct o.mode name).desk.folder = _ :=
          (direct_batch (m := o.mode) hbatching hne hclosed hgoes).1
        change ((w.direct o.mode name).desk.folder.get? p).isSome = true
        rw [hopened, Folder.get?_make_self]
        rfl
      · exact ih (hfits.of_sublist ((List.sublist_cons_self s ss).filterMap _))
          (h.perform ho hfirst hgoes) hv hname

theorem has_conclude (h : (w.desk.folder.get? p).isSome = true) :
    ((conclude (w.andThen complete)).1.closeOutputs.folder.get? p).isSome = true := by
  obtain ⟨os, -, hfolder⟩ := exists_closing (w.andThen complete)
  obtain ⟨c, halt, -, hcompleted⟩ := keeps_complete w
  rw [hfolder]
  refine Sheet.has_closeAll ?_ os
  rw [hcompleted]
  exact h

end

/-- **A run that lists files announces what a batch writes.** If all files that the source directs the
MATLAB output to can be opened, and neither they nor the MATLAB output named by the command are read,
then the run prints, each on a line, the names that the batch opens, in the same order and as often,
whatever errors there are. The batch leaves these files, and but for the outputs that the command names
it changes no others. -/
theorem listing_announces_batch {support : String} {listArgs batchArgs : List String}
    {folder : Folder} {o : Options}
    (hlist : Options.parse listArgs = .ok { o with batching := false, listing := true })
    (hbatch : Options.parse batchArgs = .ok { o with batching := true, listing := false })
    (h : OutputsUnread folder o.matlab (script support batchArgs folder)) :
    let names := Step.targets (script support batchArgs folder)
    (run support listArgs folder).1.stdout = String.join (names.map (· ++ "\n")) ∧
    (∀ name ∈ names, ∃ p, folder.place name = .ok p ∧
      ((remains support batchArgs folder).get? p).isSome = true) ∧
    ∀ p, (remains support batchArgs folder).get? p ≠ folder.get? p →
      outputPath folder o.matlab = .ok (some p) ∨ outputPath folder o.c = .ok (some p) ∨
        ∃ name ∈ names, folder.place name = .ok p := by
  intro names
  have hlistArgs : listArgs ≠ [] := args_ne_nil hlist fun h => by cases congrArg (·.listing) h
  have hbatchArgs : batchArgs ≠ [] := args_ne_nil hbatch fun h => by cases congrArg (·.batching) h
  cases (paired hbatch hlist alike_batch : Paired support batchArgs folder _ listArgs folder _) with
  | unstarted hb hl =>
    have hnames : names = [] := congrArg Step.targets hb.script
    rw [hnames, hl.run hlistArgs, hb.remains hbatchArgs]
    exact ⟨rfl, nofun, fun p hp => absurd rfl hp⟩
  | @started matlab c hb hl =>
    have hbeside := beside_batch hb h true
    have hL := hl.plays
    rw [script_batch hbatch hlist h] at hL
    rw [hl.run, hb.remains, stdout_conclude]
    refine ⟨?_, fun name hname => ?_, fun p => ?_⟩
    · obtain ⟨c, halt, -, hcompleted⟩ := keeps_complete (inputFiles support
        { o with batching := false, listing := true } false o.inputs (start _ (opened folder matlab c)))
      rw [hcompleted]
      exact stdout_plays rfl rfl hL
    · obtain ⟨p, hplace, -⟩ := h.targets name hname
      refine ⟨p, hplace, has_conclude ?_⟩
      exact has_plays hbeside.matching rfl hbeside.fits hbeside.abreast hb.plays hL hname
        ((covers_opened hb.matlab hb.c).place.1 hplace)
    · contrapose!
      rintro ⟨hpM, hpC, htargets⟩
      have hlevel := (hbeside.abreast.plays hbeside.matching hbeside.fits hb.plays hL).toLevel
      have hnotMem : p ∉ matlab.toList ++ c.toList := by
        simp only [List.mem_append, Option.mem_toList, not_or]
        exact ⟨fun heq => hpM (heq ▸ hb.matlab), fun heq => hpC (heq ▸ hb.c)⟩
      rw [get?_ended_of_notMem hlevel,
        show (opened folder matlab c).folder.get? p = _ from Folder.get?_makeAll _ folder p,
        if_neg hnotMem]
      · intro hmem
        rcases mem_batchFiles.1 hmem with heq | ⟨name, hname, hplace⟩
        · exact hnotMem (by simp [heq])
        · exact htargets name hname hplace
      · rw [fileC_plays hb.plays]
        intro heq
        obtain ⟨s, hs, hfile⟩ := Option.map_eq_some_iff.1 heq
        obtain ⟨q, hq, rfl⟩ := Option.map_eq_some_iff.1 hs
        cases hfile
        exact hnotMem (by simp [hq])

/-- Two files, of which one is directed to twice, around a statement that does not parse. -/
def outlineFolder : Folder :=
  { files := [(["a.mw"], "@ b.m\n# f(;\n@include c.mw\n@ b.m\n".toUTF8),
      (["c.mw"], "@function y = g(x)\n".toUTF8)] }

theorem listing_announces_batch_outline :
    (run "" ["-m", "m.m", "-list", "a.mw"] outlineFolder).1.stdout = "b.m\ng.m\nb.m\n" ∧
    (∀ name ∈ ["b.m", "g.m", "b.m"], ∃ p, outlineFolder.place name = .ok p ∧
      ((remains "" ["-m", "m.m", "-mb", "a.mw"] outlineFolder).get? p).isSome = true) ∧
    ∀ p, (remains "" ["-m", "m.m", "-mb", "a.mw"] outlineFolder).get? p ≠ outlineFolder.get? p →
      outputPath outlineFolder (some "m.m") = .ok (some p) ∨
        outputPath outlineFolder none = .ok (some p) ∨
        ∃ name ∈ ["b.m", "g.m", "b.m"], outlineFolder.place name = .ok p := by
  have hnames : Step.targets (script "" ["-m", "m.m", "-mb", "a.mw"] outlineFolder)
      = ["b.m", "g.m", "b.m"] := by decide +kernel
  have hreads : Step.reads (script "" ["-m", "m.m", "-mb", "a.mw"] outlineFolder)
      = [["a.mw"], ["c.mw"]] := by decide +kernel
  have houtput : outputPath outlineFolder (some "m.m") = .ok (some ["m.m"]) := by decide +kernel
  have hb : outlineFolder.place "b.m" = .ok ["b.m"] := by decide +kernel
  have hg : outlineFolder.place "g.m" = .ok ["g.m"] := by decide +kernel
  have hunread : OutputsUnread outlineFolder (some "m.m")
      (script "" ["-m", "m.m", "-mb", "a.mw"] outlineFolder) := by
    refine ⟨?_, ?_⟩
    · rw [hreads, houtput]
      rintro _ ⟨⟩
      decide
    · rw [hnames, hreads]
      simp [hb, hg]
  have h := listing_announces_batch (o := { inputs := ["a.mw"], matlab := some "m.m" })
    (show Options.parse ["-m", "m.m", "-list", "a.mw"] = .ok _ by decide +kernel)
    (show Options.parse ["-m", "m.m", "-mb", "a.mw"] = .ok _ by decide +kernel) hunread
  rw [hnames] at h
  exact h

/-- The MATLAB output is read again after a batch has closed it. -/
def rereadFolder : Folder :=
  { files := [(["a.mw"], "# f();\n@ b.m\n@include m.m\n".toUTF8)] }

/-- **The MATLAB output named by the command must not be read:** all files directed to can be opened
and are not read, but the last name that the batch comes to is not announced. -/
theorem listing_misses_name :
    let names := Step.targets (script "" ["-mex", "@x", "-m", "m.m", "-mb", "a.mw"] rereadFolder)
    let reads := Step.reads (script "" ["-mex", "@x", "-m", "m.m", "-mb", "a.mw"] rereadFolder)
    names = ["b.m", "x(mex_id_);"] ∧ reads = [["a.mw"], ["m.m"]] ∧
    rereadFolder.place "b.m" = .ok ["b.m"] ∧
    rereadFolder.place "x(mex_id_);" = .ok ["x(mex_id_);"] ∧
    (run "" ["-mex", "@x", "-m", "m.m", "-list", "a.mw"] rereadFolder).1.stdout = "b.m\n" := by
  decide +kernel

end Command

end MexBridge
