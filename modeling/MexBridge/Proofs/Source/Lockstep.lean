import MexBridge.Proofs.Source.Script
import MexBridge.Proofs.Source.Splicing

/-!
# Walks in step

Two walks through the same files do the same as long as they see the same files, whatever outputs each
of them has open. They see the same if they differ only in files that are not read (`Folder.Covers`),
and this stays so when the outputs of a batch are opened and closed, since no folder comes or goes with
a file (`Folder.isFolder_put`). So a walk that opens the files its source names and one that opens none
have the same script (`Level.script`), unless an output is read.
-/

namespace MexBridge

/-! ## Folders that differ in a few files -/

namespace Folder

variable {d d' d'' : Folder} {X : List Path} {p q : Path} {name : String}

/-- All folders on the way to the path are there. -/
def Holds (d : Folder) (p : Path) : Prop := ∀ q, q <+: p → q ≠ p → d.isFolder q = true

theorem isFolder_of_isPrefix (hq : q <+: p) (h : d.isFolder p = true) : d.isFolder q = true := by
  unfold isFolder at h ⊢
  simp only [Bool.or_eq_true, List.any_eq_true, Bool.and_eq_true, List.isPrefixOf_iff_prefix,
    bne_iff_ne] at h ⊢
  rcases h with (h | ⟨r, hr, h⟩) | ⟨f, hf, h, hne⟩
  · exact Or.inl (Or.inl (hq.trans h))
  · exact Or.inl (Or.inr ⟨r, hr, hq.trans h⟩)
  · refine Or.inr ⟨f, hf, hq.trans h, fun heq => hne ?_⟩
    subst heq
    exact h.eq_of_length (Nat.le_antisymm h.length_le hq.length_le)

/-- **No folder comes with a file** that can lie where it is put. -/
theorem isFolder_put (h : d.Holds p) (content : ByteArray) (q : Path) :
    ({ d with files := put p content d.files } : Folder).isFolder q = d.isFolder q := by
  have hany : ∀ d : Folder, (d.files.any fun f => q.isPrefixOf f.1 && q != f.1)
      = (d.files.map Prod.fst).any fun r => q.isPrefixOf r && q != r := by
    intro d
    rw [List.any_map]
    rfl
  by_cases hold : d.isFolder q = true
  · rw [hold]
    unfold isFolder at hold ⊢
    rw [hany] at hold ⊢
    rw [map_fst_put]
    split
    · exact hold
    · rw [List.any_append, ← Bool.or_assoc, hold, Bool.true_or]
  · have hnot : (q.isPrefixOf p && q != p) = false := by
      rw [Bool.eq_false_iff]
      intro hq
      rw [Bool.and_eq_true, List.isPrefixOf_iff_prefix, bne_iff_ne] at hq
      exact hold (h q hq.1 hq.2)
    unfold isFolder
    rw [hany, hany, map_fst_put]
    split
    · rfl
    · rw [List.any_append]
      simp [hnot]

theorem isFolder_follow {start here : Path} {parts : List String} (hstart : d.isFolder start = true)
    (h : d.follow start parts = .ok here) : d.isFolder here = true := by
  induction parts generalizing start with
  | nil =>
    cases h
    exact hstart
  | cons part parts ih =>
    unfold follow at h
    dsimp only at h
    split at h
    · exact ih hstart h
    · split at h
      · exact ih (isFolder_of_isPrefix (List.dropLast_prefix start) hstart) h
      · split at h
        · cases h
        · split at h
          · exact ih ‹_› h
          · split at h <;> cases h

theorem holds_locate {start : Path} {parts : List String} (hstart : d.isFolder start = true)
    (h : d.locate start parts = .ok p) : d.Holds p := by
  unfold locate at h
  obtain ⟨here, hfollow, h⟩ := bind_eq_ok.1 h
  dsimp only at h
  split at h
  · cases h
  · split at h
    · cases h
    · split at h <;> cases h
      intro q hq hne
      refine isFolder_of_isPrefix ?_ (isFolder_follow hstart hfollow)
      rcases List.prefix_concat_iff.1 hq with heq | hq
      · exact absurd heq hne
      · exact hq

theorem isFolder_of_route {start : Path} {parts : List String} (h : d.route name = .ok (start, parts)) :
    d.isFolder start = true := by
  unfold route at h
  split at h
  · cases h
  · split at h
    · cases h
    · split at h
      · cases h
      · cases h
        unfold isFolder
        split <;> simp [List.isPrefixOf_iff_prefix]

theorem place_eq_ok : d.place name = .ok p ↔ ∃ start parts, d.route name = .ok (start, parts) ∧
    parts.getLast? ≠ some "" ∧ d.locate start parts = .ok p := by
  unfold place
  rw [bind_eq_ok, Prod.exists]
  refine exists₂_congr fun start parts => and_congr_right fun _ => ?_
  dsimp only
  by_cases hlast : parts.getLast? = some ""
  · rw [if_pos hlast]
    constructor
    · intro h
      obtain ⟨here, -, h⟩ := bind_eq_ok.1 h
      cases h
    · exact fun h => absurd hlast h.1
  · rw [if_neg hlast]
    exact (and_iff_right hlast).symm

theorem find_eq_ok : d.find name = .ok p ↔ ∃ start parts, d.route name = .ok (start, parts) ∧
    d.locate start parts = .ok p ∧ (d.get? p).isSome = true := by
  unfold find
  rw [bind_eq_ok, Prod.exists]
  refine exists₂_congr fun start parts => and_congr_right fun _ => ?_
  rw [bind_eq_ok]
  constructor
  · rintro ⟨q, hlocate, h⟩
    split at h <;> cases h
    exact ⟨hlocate, ‹_›⟩
  · rintro ⟨hlocate, hsome⟩
    exact ⟨p, hlocate, if_pos hsome⟩

/-- A name that leads somewhere is refused in words for the user. -/
theorem ofFile_of_find {r : Path × List String} {f : Fault} (hroute : d.route name = .ok r)
    (h : d.find name = .error f) : f.ofFile = true := by
  unfold find at h
  rcases bind_eq_error.1 h with h | ⟨⟨start, parts⟩, -, h⟩
  · rw [hroute] at h
    cases h
  rcases bind_eq_error.1 h with hlocate | ⟨q, -, h⟩
  · exact locate_error hlocate
  · split at h <;> cases h
    rfl

/-- A file that can be made lies in folders that are there. -/
theorem holds_place (h : d.place name = .ok p) : d.Holds p := by
  obtain ⟨start, parts, hroute, -, hlocate⟩ := place_eq_ok.1 h
  exact holds_locate (isFolder_of_route hroute) hlocate

/-- The same folders; and the same files but for those at `X`, of which the first one may have more. -/
structure Covers (X : List Path) (d d' : Folder) : Prop where
  here : d'.here = d.here
  isFolder : ∀ p, d'.isFolder p = d.isFolder p
  other : ∀ p, p ∉ X → d'.get? p = d.get? p
  has : ∀ p, (d'.get? p).isSome = true → (d.get? p).isSome = true

theorem Covers.refl (X : List Path) (d : Folder) : Covers X d d :=
  ⟨rfl, fun _ => rfl, fun _ _ => rfl, fun _ h => h⟩

theorem Covers.trans (h : Covers X d d') (h' : Covers X d' d'') : Covers X d d'' where
  here := h'.here.trans h.here
  isFolder := fun p => (h'.isFolder p).trans (h.isFolder p)
  other := fun p hp => (h'.other p hp).trans (h.other p hp)
  has := fun p hp => h.has p (h'.has p hp)

theorem Covers.holds (h : Covers X d d') : d'.Holds p ↔ d.Holds p := by
  unfold Holds
  simp only [h.isFolder]

theorem follow_congr (hf : ∀ p, d'.isFolder p = d.isFolder p) {start here : Path}
    {parts : List String} (h : d.follow start parts = .ok here) :
    d'.follow start parts = .ok here := by
  induction parts generalizing start with
  | nil => exact h
  | cons part parts ih =>
    unfold follow at h ⊢
    dsimp only at h ⊢
    rw [hf]
    split at h
    · rw [if_pos ‹_›]
      exact ih h
    · rw [if_neg ‹_›]
      split at h
      · rw [if_pos ‹_›]
        exact ih h
      · rw [if_neg ‹_›]
        split at h
        · cases h
        · rw [if_neg ‹_›]
          split at h
          · rw [if_pos ‹_›]
            exact ih h
          · split at h <;> cases h

theorem locate_congr (hf : ∀ p, d'.isFolder p = d.isFolder p) {start : Path} {parts : List String}
    (h : d.locate start parts = .ok p) : d'.locate start parts = .ok p := by
  unfold locate at h ⊢
  obtain ⟨here, hfollow, h⟩ := bind_eq_ok.1 h
  exact bind_eq_ok.2 ⟨here, follow_congr hf hfollow, by simpa only [hf] using h⟩

theorem route_congr (hhere : d'.here = d.here) (name : String) : d'.route name = d.route name := by
  unfold route
  rw [hhere]

/-- Where a file can be made depends on the folders alone. -/
theorem place_congr (hhere : d'.here = d.here) (hf : ∀ p, d'.isFolder p = d.isFolder p) :
    d'.place name = .ok p ↔ d.place name = .ok p := by
  rw [place_eq_ok, place_eq_ok, route_congr hhere]
  constructor
  · rintro ⟨start, parts, hroute, hlast, hlocate⟩
    exact ⟨start, parts, hroute, hlast, locate_congr (fun p => (hf p).symm) hlocate⟩
  · rintro ⟨start, parts, hroute, hlast, hlocate⟩
    exact ⟨start, parts, hroute, hlast, locate_congr hf hlocate⟩

/-- A file can be made in both or in neither. -/
theorem Covers.place (h : Covers X d d') : d'.place name = .ok p ↔ d.place name = .ok p :=
  place_congr h.here h.isFolder

/-- A file that is found and is not one of those at `X` is found in both. -/
theorem Covers.find (h : Covers X d d') (hp : p ∉ X) (hfind : d.find name = .ok p) :
    d'.find name = .ok p := by
  obtain ⟨start, parts, hroute, hlocate, hsome⟩ := find_eq_ok.1 hfind
  refine find_eq_ok.2 ⟨start, parts, (route_congr h.here name).trans hroute,
    locate_congr h.isFolder hlocate, ?_⟩
  rwa [h.other p hp]

/-- A file that the first one does not have is not found in either, and for the same reason, as far as
the user can tell. -/
theorem Covers.find_error {f : Fault} (h : Covers X d d') (hfind : d.find name = .error f) :
    ∃ f', d'.find name = .error f' ∧ f'.ofFile = f.ofFile ∧ (f.ofFile = false → f' = f) := by
  have hsame := route_congr h.here name
  cases hroute : d.route name with
  | error e =>
    rw [hroute] at hsame
    have hf : Folder.find d name = .error e := by rw [Folder.find, hroute]; rfl
    have hf' : Folder.find d' name = .error e := by rw [Folder.find, hsame]; rfl
    cases hfind.symm.trans hf
    exact ⟨f, hf', rfl, fun _ => rfl⟩
  | ok r =>
    have hofFile := ofFile_of_find hroute hfind
    cases hfind' : Folder.find d' name with
    | error f' =>
      have hofFile' := ofFile_of_find (hsame.trans hroute) hfind'
      exact ⟨f', rfl, hofFile'.trans hofFile.symm, fun hf => by rw [hofFile] at hf; cases hf⟩
    | ok p =>
      obtain ⟨start, parts, hroute', hlocate, hsome⟩ := find_eq_ok.1 hfind'
      have hok : Folder.find d name = .ok p := find_eq_ok.2 ⟨start, parts, hsame.symm.trans hroute',
        locate_congr (fun p => (h.isFolder p).symm) hlocate, h.has p hsome⟩
      cases hfind.symm.trans hok

theorem get?_patch_congr (h : d'.get? q = d.get? q) (p : Path) (offset : Nat) (bytes : ByteArray) :
    (d'.patch p offset bytes).get? q = (d.patch p offset bytes).get? q := by
  by_cases heq : q = p
  · subst heq
    unfold patch
    rw [h]
    unfold get?
    rw [lookup_put_self, lookup_put_self]
  · rw [get?_patch_of_ne heq, get?_patch_of_ne heq, h]

/-- The first one may get one of the files at `X`, or other bytes in it. -/
theorem Covers.put_left (h : Covers X d d') (hp : p ∈ X) (hholds : d'.Holds p) (content : ByteArray) :
    Covers X { d with files := put p content d.files } d' where
  here := h.here
  isFolder := fun q => (h.isFolder q).trans (isFolder_put (h.holds.1 hholds) content q).symm
  other := by
    intro q hq
    have hne : q ≠ p := fun heq => hq (heq ▸ hp)
    exact (h.other q hq).trans (lookup_put_of_ne hne content d.files).symm
  has := by
    intro q hq
    by_cases heq : q = p
    · subst heq
      exact Option.isSome_iff_exists.2 ⟨content, lookup_put_self q content d.files⟩
    · have hget : (put p content d.files).lookup q = d.get? q := lookup_put_of_ne heq content d.files
      exact (congrArg Option.isSome hget).trans (h.has q hq)

/-- The second one may get other bytes in one of the files at `X`. -/
theorem Covers.put_right (h : Covers X d d') (hp : p ∈ X) (hholds : d.Holds p)
    (hsome : (d.get? p).isSome = true) (content : ByteArray) :
    Covers X d { d' with files := put p content d'.files } where
  here := h.here
  isFolder := fun q => (isFolder_put (h.holds.2 hholds) content q).trans (h.isFolder q)
  other := by
    intro q hq
    have hne : q ≠ p := fun heq => hq (heq ▸ hp)
    exact (lookup_put_of_ne hne content d'.files).trans (h.other q hq)
  has := by
    intro q hq
    by_cases heq : q = p
    · rwa [heq]
    · have hget : (put p content d'.files).lookup q = d'.get? q := lookup_put_of_ne heq content d'.files
      exact h.has q ((congrArg Option.isSome hget).symm.trans hq)

end Folder

/-! ## Outputs for those files -/

namespace Sheet

variable {X : List Folder.Path} {d d' : Folder} {o : Sheet}

theorem covers_land (hX : ∀ p ∈ X, d'.Holds p) (ho : ∀ p ∈ o.file, p ∈ X) (h : d.Covers X d') :
    (o.land d).Covers X d' := by
  unfold land
  split
  · exact h.put_left (ho _ ‹_›) (hX _ (ho _ ‹_›)) _
  · exact h

theorem covers_finish (hX : ∀ p ∈ X, d'.Holds p) (ho : ∀ p ∈ o.file, p ∈ X) (h : d.Covers X d') :
    (o.finish d).Covers X d' := by
  unfold finish
  split
  · exact h.put_left (ho _ ‹_›) (hX _ (ho _ ‹_›)) _
  · exact h

theorem covered_land (hX : ∀ p ∈ X, d.Holds p)
    (ho : ∀ p ∈ o.file, p ∈ X ∧ (d.get? p).isSome = true) (h : d.Covers X d') :
    d.Covers X (o.land d') := by
  unfold land
  split
  · obtain ⟨hp, hsome⟩ := ho _ ‹_›
    exact h.put_right hp (hX _ hp) hsome _
  · exact h

/-- One sheet lands in both. -/
theorem covers_land_land (ho : ∀ p ∈ o.file, d.Holds p) (h : d.Covers X d') :
    (o.land d).Covers X (o.land d') := by
  unfold land
  split
  · rename_i p hp
    have hholds := ho p hp
    refine ⟨h.here, fun q => ?_, fun q hq => Folder.get?_patch_congr (h.other q hq) .., fun q hq => ?_⟩
    · exact (Folder.isFolder_put (h.holds.2 hholds) _ q).trans
        ((h.isFolder q).trans (Folder.isFolder_put hholds _ q).symm)
    · by_cases heq : q = p
      · subst heq
        exact Option.isSome_iff_exists.2 ⟨_, Folder.lookup_put_self ..⟩
      · rw [Folder.get?_patch_of_ne heq] at hq ⊢
        exact h.has q hq
  · exact h

end Sheet

theorem Desk.alike_writeAllC (ss : List String) (d : Desk) : d.Alike (d.writeAllC ss) := by
  refine ⟨rfl, ?_⟩
  unfold writeAllC outputs
  cases d.c <;> simp [Sheet.writeAll]

/-- An output is opened where a file can be made. -/
theorem Desk.openMatlab_eq {d : Desk} {name : String} {p : Folder.Path}
    (h : d.folder.place name = .ok p) (batch : Bool) :
    d.openMatlab batch name = .ok
      { d with
        folder := { d.folder with files := Folder.put p ByteArray.empty d.folder.files }
        matlab := some { file := some p, batch := batch } } := by
  unfold openMatlab Folder.create
  rw [h]
  rfl

theorem Desk.openMatlab_eq_error {d : Desk} {name : String} {f : Fault}
    (h : d.folder.place name = .error f) (batch : Bool) : d.openMatlab batch name = .error f := by
  unfold openMatlab Folder.create
  rw [h]
  rfl

theorem Walk.openBatch_ok {ρ : Type} {w : Walk ρ} {name : String} {p : Folder.Path}
    (h : w.desk.folder.place name = .ok p) : w.openBatch name = w.onDesk fun d =>
      { d with
        folder := { d.folder with files := Folder.put p ByteArray.empty d.folder.files }
        matlab := some { file := some p, batch := true } } := by
  unfold openBatch
  rw [Desk.openMatlab_eq h]
  rfl

theorem Walk.openBatch_error {ρ : Type} {w : Walk ρ} {name : String} {f : Fault}
    (h : w.desk.folder.place name = .error f) :
    w.openBatch name = if f.ofFile then w.stop (.cannotWrite name) else w.fail f := by
  unfold openBatch
  rw [Desk.openMatlab_eq_error h]

/-- Taking a token neither moves the desk nor opens or closes an output, and it writes no C. -/
structure WalkMode.Quiet {ρ : Type} (m : WalkMode ρ) : Prop extends m.Stays where
  folder : ∀ t r d, (m.feed t r d).2.folder = d.folder
  matlab : ∀ t r d, (m.feed t r d).2.matlab.map (·.file) = d.matlab.map (·.file)
  c : ∀ t r d, (m.feed t r d).2.c = d.c

namespace Walk

variable {ρ σ : Type} {m : WalkMode ρ} {m' : WalkMode σ} {X : List Folder.Path} {F : Folder}
  {w w' : Walk ρ} {v v' : Walk σ}

/-- Two walks at the same place. Both see the files of `F` but for those at `X`, of which the first
walk has at least those of `F`, and the second at most. Their MATLAB outputs are for files at `X`; the C
output is the same, or the first one has it alone and it is for such a file, too. -/
structure Level (X : List Folder.Path) (F : Folder) (w : Walk ρ) (v : Walk σ) : Prop where
  files : w.desk.folder.Covers X F
  files' : F.Covers X v.desk.folder
  matlab : ∀ f ∈ w.desk.matlab.map (·.file), ∀ p ∈ f, p ∈ X
  matlab' : ∀ f ∈ v.desk.matlab.map (·.file), ∀ p ∈ f, p ∈ X ∧ (F.get? p).isSome = true
  c : v.desk.c = w.desk.c ∨ v.desk.c = none ∧ ∀ f ∈ w.desk.c.map (·.file), ∀ p ∈ f, p ∈ X
  holdsC : ∀ f ∈ w.desk.c.map (·.file), ∀ p ∈ f, F.Holds p
  file : v.desk.file = w.desk.file
  line : v.desk.line = w.desk.line
  inBlock : v.inBlock = w.inBlock
  halt : v.halt = w.halt

namespace Level

/-- What the first walk can read now, and what the second. -/
theorem current (hX : ∀ p ∈ X, F.Holds p) (h : Level X F w v) :
    w.desk.current.Covers X v.desk.current := by
  have hw : (Sheet.landAll w.desk.matlab.toList w.desk.folder).Covers X F := by
    have hmatlab := h.matlab
    cases hm : w.desk.matlab with
    | none => exact h.files
    | some o =>
      rw [hm] at hmatlab
      exact Sheet.covers_land hX (hmatlab _ rfl) h.files
  have hv : F.Covers X (Sheet.landAll v.desk.matlab.toList v.desk.folder) := by
    have hmatlab := h.matlab'
    cases hm : v.desk.matlab with
    | none => exact h.files'
    | some o =>
      rw [hm] at hmatlab
      exact Sheet.covered_land hX (hmatlab _ rfl) h.files'
  have hholds := h.holdsC
  unfold Desk.current Desk.outputs Sheet.landAll at *
  rw [List.foldl_append, List.foldl_append]
  rcases h.c with heq | ⟨hnone, hfile⟩
  · rw [heq]
    cases hc : w.desk.c with
    | none => exact hw.trans hv
    | some o =>
      rw [hc] at hholds
      refine Sheet.covers_land_land (fun p hp => ?_) (hw.trans hv)
      exact hw.holds.1 (hholds _ rfl p hp)
  · rw [hnone]
    refine Folder.Covers.trans ?_ hv
    cases hc : w.desk.c with
    | none => exact hw
    | some o =>
      rw [hc] at hfile
      exact Sheet.covers_land hX (hfile _ rfl) hw

theorem writeMatlab (h : Level X F w v) (s : String) :
    Level X F (w.onDesk (.writeMatlab s)) (v.onDesk (.writeMatlab s)) := by
  refine { h with matlab := ?_, matlab' := ?_ }
  · exact (Option.map_map ..).symm ▸ h.matlab
  · exact (Option.map_map ..).symm ▸ h.matlab'

/-- Both write the same to the C output. -/
theorem onC (h : Level X F w v) {f : Sheet → Sheet} (hf : ∀ o, (f o).file = o.file) :
    Level X F (w.onDesk fun d => { d with c := d.c.map f })
      (v.onDesk fun d => { d with c := d.c.map f }) := by
  have hfile : (w.desk.c.map f).map (·.file) = w.desk.c.map (·.file) := by
    rw [Option.map_map]
    exact congrArg (w.desk.c.map ·) (funext hf)
  refine { h with c := ?_, holdsC := hfile.symm ▸ h.holdsC }
  rcases h.c with heq | ⟨hnone, hX⟩
  · exact Or.inl (congrArg (Option.map f) heq)
  · exact Or.inr ⟨congrArg (Option.map f) hnone, hfile.symm ▸ hX⟩

theorem feed (hm : m.Quiet) (hm' : m'.Quiet) (h : Level X F w v) (t : Token) :
    Level X F (w.feed m t) (v.feed m' t) where
  files := (hm.folder ..).symm ▸ h.files
  files' := (hm'.folder ..).symm ▸ h.files'
  matlab := (hm.matlab ..).symm ▸ h.matlab
  matlab' := (hm'.matlab ..).symm ▸ h.matlab'
  c := by
    rw [show (w.feed m t).desk.c = w.desk.c from hm.c .., show (v.feed m' t).desk.c = v.desk.c from hm'.c ..]
    exact h.c
  holdsC := (hm.c ..).symm ▸ h.holdsC
  file := (hm'.file ..).trans (h.file.trans (hm.file ..).symm)
  line := (hm'.line ..).trans (h.line.trans (hm.line ..).symm)
  inBlock := h.inBlock
  halt := h.halt

theorem print (h : Level X F w v) (b b' : Bool) (name name' : String) :
    Level X F (if b then w.onDesk (.print name) else w) (if b' then v.onDesk (.print name') else v) := by
  cases b <;> cases b' <;> exact { h with }

theorem closeMatlab (hX : ∀ p ∈ X, F.Holds p) (h : Level X F w v) :
    Level X F (w.onDesk .closeMatlab) v := by
  refine { h with files := ?_, matlab := fun f hf => by cases hf }
  have hmatlab := h.matlab
  unfold onDesk Desk.closeMatlab
  dsimp only
  cases hm : w.desk.matlab with
  | none => exact h.files
  | some o =>
    rw [hm] at hmatlab
    exact Sheet.covers_finish hX (hmatlab _ rfl) (Sheet.covers_land hX (hmatlab _ rfl) h.files)

theorem openBatch (hX : ∀ p ∈ X, F.Holds p) {name : String} {p : Folder.Path} (hp : p ∈ X)
    (hplace : F.place name = .ok p) (h : Level X F w v) : Level X F (w.openBatch name) v := by
  rw [openBatch_ok (h.files.place.1 hplace)]
  refine { h with files := h.files.put_left hp (hX p hp) _, matlab := ?_ }
  rintro f hf q hq
  cases hf
  cases hq
  exact hp

/-- The first walk directs its output to a file at `X`, and the second leaves it where it is. -/
theorem direct (hX : ∀ p ∈ X, F.Holds p) (hm' : m'.batching = false) {target : String}
    (htarget : m.batching = true → target ≠ "" → ∃ p ∈ X, F.place target = .ok p)
    (hhalt : w.halt = none) (h : Level X F w v) :
    Level X F (w.direct m target) (v.direct m' target) := by
  have hopened : Level X F (w.reopen m target) v := by
    unfold reopen
    split
    · dsimp only
      split
      · exact h.closeMatlab hX
      · obtain ⟨p, hp, hplace⟩ := htarget ‹_› ‹_›
        exact (h.closeMatlab hX).openBatch hX hp hplace
    · exact h
  rw [direct_eq hm' (h.halt.trans hhalt)]
  unfold Walk.direct
  rw [andThen_of_goes (hopened.halt.symm.trans (h.halt.trans hhalt))]
  exact hopened.print _ _ _ _

end Level

/-- The modes of two walks that may be compared: the second one opens no outputs. -/
structure Comparable (m : WalkMode ρ) (m' : WalkMode σ) (X : List Folder.Path) (F : Folder) :
    Prop where
  holds : ∀ p ∈ X, F.Holds p
  quiet : m.Quiet
  quiet' : m'.Quiet
  batching : m'.batching = false

/-- What a script does to the files at `X`: it reads none, and all outputs it opens are among them. -/
structure Fits (m : WalkMode ρ) (X : List Folder.Path) (F : Folder) (ds : List Deed) : Prop where
  reads : ∀ p ∈ ds.filterMap Deed.read?, p ∉ X
  opens : m.batching = true → ∀ name ∈ ds.filterMap Deed.target?, ∃ p ∈ X, F.place name = .ok p

theorem fits_nil : Fits m X F [] where
  reads := fun p hp => by cases hp
  opens := fun _ name hname => by cases hname

theorem Fits.of_sublist {ds ds' : List Deed} (h : Fits m X F ds') (hds : ds.Sublist ds') :
    Fits m X F ds where
  reads := fun p hp => h.reads p ((hds.filterMap _).subset hp)
  opens := fun hb name hname => h.opens hb name ((hds.filterMap _).subset hname)

theorem Level.perform (hs : Comparable m m' X F) {d : Deed} (hfits : Fits m X F [d])
    (hhalt : w.halt = none) (h : Level X F w v) : Level X F (w.perform m d) (v.perform m' d) := by
  cases d with
  | matlab s => exact h.writeMatlab s
  | c s => exact h.onC fun _ => rfl
  | direct target =>
    refine h.direct hs.holds hs.batching (fun hb hne => hfits.opens hb target ?_) hhalt
    simp [Deed.target?, hne]
  | token t => exact h.feed hs.quiet hs.quiet' t
  | nextLine => exact { h with line := congrArg (· + 1) h.line }
  | moveTo file line => exact { h with file := rfl, line := rfl }
  | block inBlock => exact { h with inBlock := rfl }
  | read p => exact h
  | stop n => exact { h with halt := rfl }
  | fail f => exact { h with halt := rfl }

/-- **Two walks that perform one script stay level.** -/
theorem Level.plays (hs : Comparable m m' X F) {ds : List Deed} (hfits : Fits m X F ds)
    (h : Level X F w v) (hw : Plays (Walk.perform m) w ds w')
    (hv : Plays (Walk.perform m') v ds v') : Level X F w' v' := by
  refine hw.rel hv (List.forall₂_same.2 fun _ _ => rfl) h ?_
  rintro d hd _ rfl w v hgoes h
  exact h.perform hs (hfits.of_sublist (List.singleton_sublist.2 hd)) hgoes

/-! ## Their scripts -/

theorem Level.afterDirect (hs : Comparable m m' X F) {target : String} {ds : List Deed}
    (hfits : Fits m X F (w.afterDirect m target ds)) (hhalt : w.halt = none) (h : Level X F w v) :
    v.afterDirect m' target ds = w.afterDirect m target ds := by
  have hdirect : Fits m X F [.direct target] := by
    refine hfits.of_sublist (List.singleton_sublist.2 ?_)
    simp [Walk.afterDirect]
  have hlevel : Level X F (w.direct m target) (v.direct m' target) := h.perform hs hdirect hhalt
  unfold Walk.afterDirect
  rw [hlevel.halt]

theorem Level.lineDeeds (hs : Comparable m m' X F) {l : List Char} (hhalt : w.halt = none)
    (hfits : Fits m X F (w.lineDeeds m l)) (h : Level X F w v) :
    v.lineDeeds m' l = w.lineDeeds m l := by
  have hmarked : Level X F (w.indented l) (v.indented l) := h.writeMatlab _
  have hgoes : (w.indented l).halt = none := hhalt
  unfold Walk.lineDeeds at hfits ⊢
  rw [h.inBlock, h.line]
  split
  · rfl
  · rw [if_neg ‹_›] at hfits
    dsimp only at hfits ⊢
    cases hc : SourceLine.classify (SourceLine.indent l).2 with
    | function tail =>
      rw [hc] at hfits
      dsimp only
      rw [hmarked.afterDirect hs (hfits.of_sublist (List.sublist_cons_self _ _)) hgoes]
    | redirect target =>
      rw [hc] at hfits
      dsimp only
      rw [hmarked.afterDirect hs (hfits.of_sublist (List.sublist_cons_self _ _)) hgoes]
    | _ => rfl

/-- What the two walks do in included files, and that it is the same. -/
structure Included (m : WalkMode ρ) (m' : WalkMode σ) (X : List Folder.Path) (F : Folder)
    (inc : String → Walk ρ → Walk ρ) (inc' : String → Walk σ → Walk σ)
    (inside : String → Walk ρ → List Deed) (inside' : String → Walk σ → List Deed) : Prop where
  plays : ∀ name w, w.halt = none → Plays (perform m) w (inside name w) (inc name w)
  plays' : ∀ name v, v.halt = none → Plays (perform m') v (inside' name v) (inc' name v)
  same : ∀ name w v, Level X F w v → w.halt = none → Fits m X F (inside name w) →
    inside' name v = inside name w

namespace Level

variable {inc : String → Walk ρ → Walk ρ} {inc' : String → Walk σ → Walk σ}
  {inside : String → Walk ρ → List Deed} {inside' : String → Walk σ → List Deed}

theorem takeDeeds (hs : Comparable m m' X F) (hinc : Included m m' X F inc inc' inside inside')
    {l : List Char} (hhalt : w.halt = none) (hfits : Fits m X F (w.takeDeeds m inside l))
    (h : Level X F w v) : v.takeDeeds m' inside' l = w.takeDeeds m inside l := by
  have hsame : v.included? l = w.included? l := by
    unfold Walk.included?
    rw [h.inBlock]
  unfold Walk.takeDeeds at hfits ⊢
  rw [hsame]
  cases hname : w.included? l with
  | none =>
    rw [hname] at hfits
    exact h.lineDeeds hs hhalt hfits
  | some name =>
    rw [hname] at hfits
    have hmarked : Level X F (w.indented l) (v.indented l) := h.writeMatlab _
    exact congrArg _ (hinc.same name _ _ hmarked hhalt
      (hfits.of_sublist (List.sublist_cons_self _ _)))

/-- At the same lines the same is done. -/
theorem scriptOn (hs : Comparable m m' X F) (hinc : Included m m' X F inc inc' inside inside')
    (ls : List (List Char)) (hfits : Fits m X F (w.scriptOn m inc inside ls)) (h : Level X F w v) :
    v.scriptOn m' inc' inside' ls = w.scriptOn m inc inside ls := by
  induction ls generalizing w v with
  | nil => rfl
  | cons l ls ih =>
    unfold Walk.scriptOn at hfits ⊢
    rw [h.halt]
    split
    · rfl
    · rename_i hgoes
      have hhalt : w.halt = none := by simpa using hgoes
      rw [if_neg hgoes] at hfits
      have hhead := hfits.of_sublist (List.sublist_append_left _ _)
      have htake := h.takeDeeds hs hinc hhalt hhead
      have hv := plays_take hinc.plays' l (h.halt.trans hhalt)
      rw [htake] at hv ⊢
      have hlevel := h.plays hs hhead (plays_take hinc.plays l hhalt) hv
      rw [ih (hfits.of_sublist (List.sublist_append_right _ _)) hlevel]

/-- In the same file, unless it is one of those at `X`, the same is done. -/
theorem scriptFrom (hs : Comparable m m' X F) (hinc : Included m m' X F inc inc' inside inside')
    {p : Folder.Path} (hp : p ∉ X) (rounds offset : Nat) (left : Unread)
    (hfits : Fits m X F (w.scriptFrom m inc inside p rounds offset left)) (h : Level X F w v) :
    v.scriptFrom m' inc' inside' p rounds offset left
      = w.scriptFrom m inc inside p rounds offset left := by
  induction rounds generalizing offset left w v with
  | zero => rfl
  | succ rounds ih =>
    have hbytes : v.desk.current.bytesFrom p offset = w.desk.current.bytesFrom p offset := by
      unfold Folder.bytesFrom
      rw [(h.current hs.holds).other p hp]
    -- After some lines, which are the same, what is left of the file.
    have hnext : ∀ ls offset left,
        Fits m X F (w.scriptOn m inc inside ls
          ++ (w.lines m inc ls).scriptFrom m inc inside p rounds offset left) →
        v.scriptOn m' inc' inside' ls
            ++ (v.lines m' inc' ls).scriptFrom m' inc' inside' p rounds offset left
          = w.scriptOn m inc inside ls
            ++ (w.lines m inc ls).scriptFrom m inc inside p rounds offset left := by
      intro ls offset left hfits
      have hhead := hfits.of_sublist (List.sublist_append_left _ _)
      have hlines := h.scriptOn hs hinc ls hhead
      have hv := plays_lines hinc.plays' ls v
      rw [hlines] at hv ⊢
      have hlevel := h.plays hs hhead (plays_lines hinc.plays ls w) hv
      rw [ih _ _ (hfits.of_sublist (List.sublist_append_right _ _)) hlevel]
    unfold Walk.scriptFrom at hfits ⊢
    dsimp only at hfits ⊢
    rw [h.halt, hbytes]
    split
    · rfl
    · rw [if_neg ‹_›] at hfits
      split
      · rw [if_pos ‹_›] at hfits
        split
        · rfl
        · rw [if_neg ‹_›] at hfits
          split
          · rfl
          · rw [if_neg ‹_›] at hfits
            exact hnext _ _ _ hfits
      · rw [if_neg ‹_›] at hfits
        cases hread : Text.decode (left.cut ++ w.desk.current.bytesFrom p offset) with
        | none => rfl
        | some read =>
          rw [hread] at hfits
          exact hnext _ _ _ hfits

theorem content (hs : Comparable m m' X F) (hinc : Included m m' X F inc inc' inside inside')
    {p : Folder.Path} (hp : p ∉ X) (h : Level X F w v) (hhalt : w.halt = none)
    (hfits : Fits m X F (w.scriptFrom m inc inside p maxRounds 0 {})) :
    v.scriptFrom m' inc' inside' p maxRounds 0 {} = w.scriptFrom m inc inside p maxRounds 0 {} ∧
      Level X F (w.content m inc p) (v.content m' inc' p) := by
  have hfrom := h.scriptFrom hs hinc hp maxRounds 0 {} hfits
  have hv := plays_content hinc.plays' p (h.halt.trans hhalt)
  rw [hfrom] at hv
  exact ⟨hfrom, h.plays hs hfits (plays_content hinc.plays p hhalt) hv⟩

theorem scriptInside (hs : Comparable m m' X F) (room : Nat) (name : String) (w : Walk ρ) (v : Walk σ)
    (h : Level X F w v) (hhalt : w.halt = none) (hfits : Fits m X F (w.scriptInside m room name)) :
    v.scriptInside m' room name = w.scriptInside m room name := by
  induction room generalizing name w v with
  | zero => rfl
  | succ room ih =>
    have hcovers := h.current hs.holds
    unfold Walk.scriptInside at hfits ⊢
    cases hfind : w.desk.current.find name with
    | error f =>
      obtain ⟨f', hfind', hofFile, hsame⟩ := hcovers.find_error hfind
      rw [hfind']
      dsimp only
      rw [hofFile]
      cases hf : f.ofFile with
      | true => rfl
      | false => rw [hsame hf]
    | ok p =>
      rw [hfind] at hfits
      have hp : p ∉ X := hfits.reads p (by simp [Deed.read?])
      rw [hcovers.find hp hfind]
      have hmoved : Level X F (w.onDesk (.moveTo name 1)) (v.onDesk (.moveTo name 1)) :=
        { h with file := rfl, line := rfl }
      obtain ⟨hfrom, hlevel⟩ := hmoved.content hs
        ⟨plays_included room, plays_included room, ih⟩ hp hhalt
        (hfits.of_sublist (((List.sublist_append_left _ _).cons _).cons _))
      dsimp only
      rw [hfrom, hlevel.halt, h.file, h.line]

/-- **Walks in step do the same.** A walk that opens the outputs its source names, and one that opens
none, have the same script, if no output is read. -/
theorem script (hs : Comparable m m' X F) {name : String} {p : Folder.Path} (h : Level X F w v)
    (hhalt : w.halt = none) (hfind : w.desk.current.find name = .ok p)
    (hfits : Fits m X F (w.script m name)) : v.script m' name = w.script m name := by
  unfold Walk.script at hfits ⊢
  rw [hfind] at hfits ⊢
  have hp : p ∉ X := hfits.reads p (by simp [Deed.read?])
  rw [(h.current hs.holds).find hp hfind]
  have hmoved : Level X F { w.onDesk (.moveTo name 1) with inBlock := false }
      { v.onDesk (.moveTo name 1) with inBlock := false } :=
    { h with file := rfl, line := rfl, inBlock := rfl }
  obtain ⟨hfrom, -⟩ := hmoved.content hs
    ⟨plays_included maxDepth, plays_included maxDepth, scriptInside hs maxDepth⟩ hp hhalt
    (hfits.of_sublist ((((List.Sublist.refl _).cons _).cons _).cons _))
  dsimp only
  rw [hfrom]

end Level

end Walk

end MexBridge
