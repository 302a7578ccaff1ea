import MexBridge.Proofs.Command.Outputs

/-!
# Splitting the MATLAB output

A batch goes from one file to the next with its MATLAB output where a run outside batches stays with
one file. Text is neither lost nor repeated: the files of the batch, one after the other, are the one
file (`batch_splits`), as long as they are apart from each other and from all else that is read or
written (`batch_fails_together`).
-/

namespace MexBridge

/-- What the files hold, one after the other. -/
def Folder.concat (d : Folder) : List Folder.Path → Option ByteArray
  | [] => some ByteArray.empty
  | p :: ps => do return (← d.get? p) ++ (← d.concat ps)

theorem Folder.concat_eq {d : Folder} {ps : List Folder.Path} {texts : List String}
    (h : List.Forall₂ (fun p text => d.get? p = some text.toUTF8) ps texts) :
    d.concat ps = some (String.join texts).toUTF8 := by
  induction h with
  | nil => rfl
  | cons hp _ ih => simp [concat, hp, ih, String.join_cons]

theorem Folder.concat_singleton (d : Folder) (p : Folder.Path) : d.concat [p] = d.get? p := by
  cases h : d.get? p <;> simp [concat, h]

namespace Command

/-- A batch has filled the files of `done` and is at `q`, and the run outside batches has the texts of
all of them in one. -/
structure Split (done : List (Folder.Path × String)) (q pM : Folder.Path) (w v : Walk Ledger) :
    Prop where
  matlab : ∃ s t, w.desk.matlab = some s ∧ s.file = some q ∧ v.desk.matlab = some t ∧
    t.file = some pM ∧ t.text = String.join (done.map (·.2)) ++ s.text
  done : ∀ page ∈ done, w.desk.folder.get? page.1 = some page.2.toUTF8
  empty : w.desk.folder.get? q = some ByteArray.empty
  empty' : v.desk.folder.get? pM = some ByteArray.empty

section

variable {support : String} {o o' : Options} {X : List Folder.Path} {F : Folder}
  {done : List (Folder.Path × String)} {p q pM : Folder.Path} {ps : List Folder.Path}
  {w w' v v' : Walk Ledger}

/-- The same is written to both. -/
theorem Split.write (h : Split done q pM w v) (text : String)
    (hw : w'.desk.matlab = w.desk.matlab.map (·.write text))
    (hv : v'.desk.matlab = v.desk.matlab.map (·.write text))
    (hfolder : w'.desk.folder = w.desk.folder) (hfolder' : v'.desk.folder = v.desk.folder) :
    Split done q pM w' v' := by
  obtain ⟨s, t, hs, hsfile, ht, htfile, htext⟩ := h.matlab
  refine ⟨⟨s.write text, t.write text, ?_, hsfile, ?_, htfile, ?_⟩, hfolder ▸ h.done,
    hfolder ▸ h.empty, hfolder' ▸ h.empty'⟩
  · rw [hw, hs]
    rfl
  · rw [hv, ht]
    rfl
  · simp [Sheet.write, htext, String.append_assoc]

theorem Split.congr (h : Split done q pM w v) (hw : w'.desk.matlab = w.desk.matlab)
    (hv : v'.desk.matlab = v.desk.matlab) (hfolder : w'.desk.folder = w.desk.folder)
    (hfolder' : v'.desk.folder = v.desk.folder) : Split done q pM w' v' :=
  ⟨hw.symm ▸ hv.symm ▸ h.matlab, hfolder ▸ h.done, hfolder ▸ h.empty, hfolder' ▸ h.empty'⟩

/-- The batch goes to a new file. -/
theorem Split.direct (ho : Matching o o' X F) (hbatching : o.batching = true) (habreast : Abreast X F w v)
    {target : String} (hplace : F.place target = .ok p) (hhalt : w.halt = none)
    (hnodup : (done.map (·.1) ++ q :: p :: ps).Nodup) (h : Split done q pM w v) :
    ∃ text, Split (done ++ [(q, text)]) p pM (w.direct o.mode target) (v.direct o'.mode target) := by
  obtain ⟨s, t, hs, hsfile, ht, htfile, htext⟩ := h.matlab
  obtain ⟨-, hrest, hapart⟩ := List.nodup_append.1 hnodup
  have hqp : q ≠ p := fun heq => (List.nodup_cons.1 hrest).1 (by simp [heq])
  have hclosed : w.desk.closeMatlab.folder = Sheet.closeAll [s] w.desk.folder := by
    unfold Desk.closeMatlab
    rw [hs]
    rfl
  have hopened := direct_batch (m := o.mode) hbatching (ne_empty_of_place hplace)
    ((habreast.toLevel.closeMatlab ho.holds).files.place.1 hplace) hhalt
  have hstays : (v.direct o'.mode target).desk.matlab = v.desk.matlab ∧
      (v.direct o'.mode target).desk.folder = v.desk.folder := by
    rw [Walk.direct_eq ho.batching (habreast.halt.trans hhalt)]
    split <;> exact ⟨rfl, rfl⟩
  refine ⟨s.text, ⟨_, t, hopened.2.1, rfl, hstays.1.trans ht, htfile, ?_⟩, fun page hpage => ?_, ?_,
    hstays.2 ▸ h.empty'⟩
  · simp [htext, String.join_append, String.join_cons]
  · rw [hopened.1, hclosed]
    rcases List.mem_append.1 hpage with hpage | hpage
    · have hmem : page.1 ∈ done.map (·.1) := List.mem_map_of_mem hpage
      have hother : s.file ≠ some page.1 := fun heq =>
        hapart _ hmem q (by simp) (Option.some.inj (heq.symm.trans hsfile))
      rw [Folder.get?_make_of_ne (hapart _ hmem p (by simp)), Sheet.get?_closeAll]
      rw [List.filter_cons_of_neg (by simpa using hother)]
      exact h.done page hpage
    · cases List.mem_singleton.1 hpage
      rw [Folder.get?_make_of_ne hqp]
      exact Sheet.get?_closeAll_self hsfile h.empty
  · rw [hopened.1, Folder.get?_make_self]

/-- All steps but those that direct the output do the same to both. -/
theorem Split.perform (ho : Matching o o' X F) (habreast : Abreast X F w v) {s : Step}
    (hs : ∀ target, s ≠ .deed (.direct target)) (h : Split done q pM w v) :
    Split done q pM (perform support o s w) (perform support o' s v) := by
  cases s with
  | deed d =>
    cases d with
    | matlab text => exact h.write text rfl rfl rfl rfl
    | direct target => exact absurd rfl (hs target)
    | token t =>
      refine h.write (w.reader.feed o.mex w.desk.file t).2.matlab rfl ?_ rfl rfl
      rw [← ho.mex, ← habreast.reader, ← habreast.file]
      rfl
    | _ => exact h.congr rfl rfl rfl rfl
  | _ => exact h.congr rfl rfl rfl rfl

/-- **A batch comes to its files one after the other,** with the text of each. -/
theorem Split.plays (ho : Matching o o' X F) (hbatching : o.batching = true) {ss : List Step}
    (hfits : Walk.Fits o.mode X F (Step.deeds ss)) (hnamed : .deed (.direct "") ∉ ss)
    (hplaces : (Step.targets ss).map F.place = ps.map .ok)
    (hnodup : (done.map (·.1) ++ q :: ps).Nodup)
    (hw : Walk.Plays (Command.perform support o) w ss w')
    (hv : Walk.Plays (Command.perform support o') v ss v') (habreast : Abreast X F w v)
    (h : Split done q pM w v) :
    ∃ done' q', done'.map (·.1) ++ [q'] = done.map (·.1) ++ q :: ps ∧ Split done' q' pM w' v' := by
  induction hw generalizing v done q ps with
  | nil w =>
    cases hv
    cases List.map_eq_nil_iff.1 hplaces.symm
    exact ⟨done, q, rfl, h⟩
  | @cons w w' s ss hgoes hw ih =>
    cases hv with
    | cons _ hv =>
      have hfirst : Walk.Fits o.mode X F (Step.deeds [s]) :=
        hfits.of_sublist (Step.deeds_sublist (by simp))
      have hlater := hfits.of_sublist ((List.sublist_cons_self s ss).filterMap _)
      have hnext : Abreast X F (Command.perform support o s w) (Command.perform support o' s v) :=
        habreast.perform ho hfirst hgoes
      rw [Step.targets_cons s ss] at hplaces
      -- Only where the output is directed anew does a file of the batch end.
      by_cases hs : ∃ target, s = .deed (.direct target)
      · obtain ⟨target, rfl⟩ := hs
        have hne : target ≠ "" := by
          rintro rfl
          exact hnamed (by simp)
        rw [Step.targets_direct hne] at hplaces
        obtain ⟨p, ps, rfl, hplace, hplaces⟩ := List.map_eq_cons_iff.1 hplaces.symm
        obtain ⟨text, hsplit⟩ := h.direct ho hbatching habreast hplace.symm hgoes hnodup
        have hpaths : (done ++ [(q, text)]).map (·.1) ++ p :: ps = done.map (·.1) ++ q :: p :: ps := by
          simp
        obtain ⟨done', q', hdone, hsplit⟩ := ih hlater (fun hmem => hnamed (by simp [hmem]))
          hplaces.symm (hpaths.symm ▸ hnodup) hv hnext hsplit
        exact ⟨done', q', hdone.trans hpaths, hsplit⟩
      · rw [Step.targets_of_ne fun target _ heq => hs ⟨target, heq⟩] at hplaces
        exact ih hlater (fun hmem => hnamed (by simp [hmem])) hplaces hnodup hv hnext
          (h.perform ho habreast fun target heq => hs ⟨target, heq⟩)

/-- What the batch leaves, and what the run outside batches does. -/
theorem Split.concat (h : Split done q pM w v) (hnodup : (done.map (·.1) ++ [q]).Nodup)
    (hc : ∀ p ∈ done.map (·.1) ++ [q], w.desk.c.map (·.file) ≠ some (some p))
    (hc' : v.desk.c.map (·.file) ≠ some (some pM)) :
    ∃ text, (conclude (v.andThen complete)).1.closeOutputs.folder.get? pM = some text ∧
      (conclude (w.andThen complete)).1.closeOutputs.folder.concat (done.map (·.1) ++ [q])
        = some text := by
  obtain ⟨s, t, hs, hsfile, ht, htfile, htext⟩ := h.matlab
  obtain ⟨cw, haltw, hcw, hw⟩ := keeps_complete w
  obtain ⟨cv, haltv, hcv, hv⟩ := keeps_complete v
  rw [hw, hv]
  have hother : ∀ {c : Option Sheet} {p : Folder.Path}, c.map (·.file) ≠ some (some p) →
      ∀ t ∈ c, t.file ≠ some p := by
    rintro c p hne t rfl heq
    exact hne (congrArg some heq)
  refine ⟨t.text.toUTF8, get?_conclude_matlab ht htfile (hother (hcv ▸ hc')) h.empty', ?_⟩
  rw [htext, show String.join (done.map (·.2)) ++ s.text = String.join (done.map (·.2) ++ [s.text]) by
    simp [String.join_append, String.join_cons]]
  refine Folder.concat_eq (List.rel_append ?_ (.cons ?_ .nil))
  · refine List.forall₂_map_left_iff.2 (List.forall₂_map_right_iff.2 (List.forall₂_same.2 ?_))
    intro page hpage
    have hmem : page.1 ∈ done.map (·.1) := List.mem_map_of_mem hpage
    refine (get?_conclude_of_notMem ?_).trans (h.done page hpage)
    intro hwritten
    obtain ⟨u, hu, hfile⟩ := List.mem_filterMap.1 hwritten
    rcases List.mem_append.1 hu with hu | hu
    · cases hs.symm.trans (Option.mem_toList.1 hu)
      refine (List.nodup_append.1 hnodup).2.2 _ hmem q (by simp) ?_
      exact Option.some.inj (hfile.symm.trans hsfile)
    · exact hother (hcw ▸ hc _ (List.mem_append_left _ hmem)) u (Option.mem_toList.1 hu) hfile
  · exact get?_conclude_matlab hs hsfile (hother (hcw ▸ hc q (by simp))) h.empty

end

/-- **Splitting the MATLAB output neither loses nor repeats text.** Let the output named by the command
and all files that the source directs it to be different files, none of them read or the C output, and
let no line direct it to no file. Then the files that a batch leaves, the named one first and the others
in the order in which they are opened, are one after the other what the run outside batches puts into the
named one. -/
theorem batch_splits {support : String} {args batchArgs : List String} {folder : Folder} {o : Options}
    {m : String} {pM : Folder.Path} {ps : List Folder.Path}
    (hsingle : Options.parse args = .ok { o with batching := false })
    (hbatch : Options.parse batchArgs = .ok { o with batching := true })
    (hm : o.matlab = some m) (hpM : folder.place m = .ok pM)
    (hnamed : .deed (.direct "") ∉ script support batchArgs folder)
    (hplaces : (Step.targets (script support batchArgs folder)).map folder.place = ps.map .ok)
    (hnodup : (pM :: ps).Nodup)
    (hreads : ∀ p ∈ Step.reads (script support batchArgs folder), p ∉ pM :: ps)
    (hc : ∀ p ∈ pM :: ps, outputPath folder o.c ≠ .ok (some p)) :
    (remains support args folder).get? pM = (remains support batchArgs folder).concat (pM :: ps) ∧
    (o.help = false → o.inputs ≠ [] → ∀ c, outputPath folder o.c = .ok c →
      ((remains support args folder).get? pM).isSome = true) := by
  have hargs : args ≠ [] := args_ne_nil hsingle fun h => by cases hm.symm.trans (congrArg (·.matlab) h)
  have hbatchArgs : batchArgs ≠ [] := args_ne_nil hbatch fun h => by cases congrArg (·.batching) h
  have hmatlab : outputPath folder o.matlab = .ok (some pM) := outputPath_eq_some.2 ⟨m, hm, hpM⟩
  have hpaired : Paired support batchArgs folder { o with batching := true, listing := o.listing } args
      folder { o with batching := false, listing := o.listing } := paired hbatch hsingle alike_batch
  cases hpaired with
  | unstarted hb hs never =>
    rw [hb.script] at hplaces
    cases List.map_eq_nil_iff.1 hplaces.symm
    rw [hs.remains hargs, hb.remains hbatchArgs]
    refine ⟨(Folder.concat_singleton ..).symm, fun help inputs c hpathC => ?_⟩
    exact absurd hpathC (never help inputs _ _ hmatlab)
  | @started matlab c hb hs =>
    cases hmatlab.symm.trans hb.matlab
    have hplaced : ∀ name ∈ Step.targets (script support batchArgs folder),
        ∃ p ∈ ps, folder.place name = .ok p := by
      intro name hname
      have hmem : folder.place name ∈ ps.map .ok := hplaces ▸ List.mem_map_of_mem hname
      obtain ⟨p, hp, hplace⟩ := List.mem_map.1 hmem
      exact ⟨p, hp, hplace.symm⟩
    have hunread : OutputsUnread folder o.matlab (script support batchArgs folder) := by
      refine ⟨fun p hp hread => ?_, fun name hname => ?_⟩
      · cases hmatlab.symm.trans hp
        exact hreads pM hread (by simp)
      · obtain ⟨p, hp, hplace⟩ := hplaced name hname
        exact ⟨p, hplace, fun hread => hreads p hread (by simp [hp])⟩
    have hbeside := beside_batch hb hunread o.listing
    have hS := hs.plays
    rw [script_batch hbatch hsingle hunread] at hS
    have hplacesF : (Step.targets (script support batchArgs folder)).map
        (opened folder (some pM) c).folder.place = ps.map .ok := by
      refine (List.map_congr_left fun name hname => ?_).trans hplaces
      obtain ⟨p, -, hplace⟩ := hplaced name hname
      exact ((covers_opened hb.matlab hb.c).place.1 hplace).trans hplace.symm
    have hempty : (opened folder (some pM) c).folder.get? pM = some ByteArray.empty := by
      rw [show (opened folder (some pM) c).folder.get? pM = _ from Folder.get?_makeAll _ folder pM]
      simp
    have hpaths : (([] : List (Folder.Path × String)).map (·.1) ++ pM :: ps).Nodup := hnodup
    obtain ⟨done, q, hdone, hsplit⟩ := Split.plays hbeside.matching rfl hbeside.fits hnamed hplacesF
      hpaths hb.plays hS hbeside.abreast ⟨⟨_, _, rfl, rfl, rfl, rfl, rfl⟩, nofun, hempty, hempty⟩
    have hdone : done.map (·.1) ++ [q] = pM :: ps := hdone
    have hapart : ∀ p ∈ pM :: ps, (opened folder (some pM) c).c.map (·.file) ≠ some (some p) := by
      intro p hp heq
      obtain ⟨s, hs, hfile⟩ := Option.map_eq_some_iff.1 heq
      obtain ⟨pC, rfl, rfl⟩ := Option.map_eq_some_iff.1 hs
      cases hfile
      exact hc p hp hb.c
    obtain ⟨text, hwhole, hparts⟩ := hsplit.concat (hdone ▸ hnodup)
      (by rw [hdone, fileC_plays hb.plays]; exact hapart)
      (by rw [fileC_plays hS]; exact hapart pM (by simp))
    rw [hdone] at hparts
    rw [hs.remains, hb.remains]
    refine ⟨hwhole.trans hparts.symm, fun _ _ _ _ => ?_⟩
    rw [show _ = some text from hwhole]
    rfl

/-- A call in each of three files, the last one reached from an included source. -/
def volumesFolder : Folder :=
  { files := [(["a.mw"], "# f();\n@ b.m\nx\n# f();\n@include c.mw\ny\n".toUTF8),
      (["c.mw"], "@function g\n# h();\n".toUTF8)] }

theorem batch_splits_volumes :
    let args := ["-m", "m.m", "a.mw"]
    let batchArgs := ["-m", "m.m", "-mb", "a.mw"]
    Step.targets (script "" batchArgs volumesFolder) = ["b.m", "g.m"] ∧
    (remains "" args volumesFolder).get? ["m.m"]
      = (remains "" batchArgs volumesFolder).concat [["m.m"], ["b.m"], ["g.m"]] ∧
    ((remains "" args volumesFolder).get? ["m.m"]).isSome = true := by
  intro args batchArgs
  have hsplits := batch_splits (o := { inputs := ["a.mw"], matlab := some "m.m" }) (m := "m.m")
    (show Options.parse args = .ok _ by decide +kernel)
    (show Options.parse batchArgs = .ok _ by decide +kernel) rfl
    (show volumesFolder.place "m.m" = .ok ["m.m"] by decide +kernel)
    (show .deed (.direct "") ∉ script "" batchArgs volumesFolder by decide +kernel)
    (show (Step.targets (script "" batchArgs volumesFolder)).map volumesFolder.place
      = [["b.m"], ["g.m"]].map .ok by decide +kernel)
    (by decide)
    (show ∀ p ∈ Step.reads (script "" batchArgs volumesFolder), p ∉ [["m.m"], ["b.m"], ["g.m"]] by
      decide +kernel)
    (show ∀ p ∈ [["m.m"], ["b.m"], ["g.m"]], outputPath volumesFolder none ≠ .ok (some p) by
      decide +kernel)
  exact ⟨by decide +kernel, hsplits.1, hsplits.2 rfl (by simp) none rfl⟩

def sourceFolder (text : String) : Folder := { files := [(["a.mw"], text.toUTF8)] }

/-- **The files must be apart.** The names that the output is directed to are different, can be opened
and are not read, but text is repeated if the named output is read, lost if two names are of one file,
and mixed with C if a name is that of the C output. -/
theorem batch_fails_together :
    (let folder := sourceFolder "x\n@ b.m\n@include m.m\n"
     let batchArgs := ["-m", "m.m", "-mb", "a.mw"]
     Step.targets (script "" batchArgs folder) = ["b.m"] ∧
     Step.reads (script "" batchArgs folder) = [["a.mw"], ["m.m"]] ∧
     (remains "" ["-m", "m.m", "a.mw"] folder).get? ["m.m"] = some "x\n".toUTF8 ∧
     (remains "" batchArgs folder).concat [["m.m"], ["b.m"]] = some "x\nx\n".toUTF8) ∧
    (let folder := sourceFolder "@ b.m\nx\n@ ./b.m\ny\n"
     let batchArgs := ["-m", "m.m", "-mb", "a.mw"]
     Step.targets (script "" batchArgs folder) = ["b.m", "./b.m"] ∧
     folder.place "b.m" = .ok ["b.m"] ∧ folder.place "./b.m" = .ok ["b.m"] ∧
     (remains "" ["-m", "m.m", "a.mw"] folder).get? ["m.m"] = some "x\ny\n".toUTF8 ∧
     (remains "" batchArgs folder).concat [["m.m"], ["b.m"], ["b.m"]] = some "y\ny\n".toUTF8) ∧
    (let folder := sourceFolder "@ b.m\nx\n# f(;\n"
     let batchArgs := ["-m", "m.m", "-c", "b.m", "-mb", "a.mw"]
     Step.targets (script "" batchArgs folder) = ["b.m"] ∧
     (remains "" ["-m", "m.m", "-c", "b.m", "a.mw"] folder).get? ["m.m"] = some "x\n".toUTF8 ∧
     (remains "" batchArgs folder).concat [["m.m"], ["b.m"]] ≠ some "x\n".toUTF8) := by
  refine ⟨?_, ?_, ?_⟩
  · decide +kernel
  · decide +kernel
  · decide +kernel

end Command

end MexBridge
