import MexBridge.Proofs.Source.Lockstep

/-!
# Walks with outputs in few places

A walk whose outputs are all for files at `X` leaves every other file as it is (`Confined.plays`). If it
reads none of those at `X`, each file is walked through line by line, as it was from the start
(`Confined.scriptFrom`).
-/

namespace MexBridge

/-- What the bytes of a file can be. -/
inductive Text.Held (bytes : ByteArray) : Prop
  | nothing (empty : bytes.isEmpty = true) (read : Text.read bytes = ([], true))
  | noText (empty : bytes.isEmpty = false) (decode : Text.decode bytes = none)
      (read : Text.read bytes = ([], false))
  | cutShort {text : List Char} {cut : ByteArray} (empty : bytes.isEmpty = false)
      (decode : Text.decode bytes = some (text, cut)) (hcut : cut.isEmpty = false)
      (read : Text.read bytes = ((Text.completeLines text).1, false))
  | text {text : List Char} (empty : bytes.isEmpty = false)
      (decode : Text.decode bytes = some (text, ByteArray.empty))
      (read : Text.read bytes = ((Text.completeLines text).1
        ++ if (Text.completeLines text).2.isEmpty then []
          else [Text.unifyNewlines (Text.completeLines text).2], true))

theorem Text.held (bytes : ByteArray) : Text.Held bytes := by
  by_cases hempty : bytes.isEmpty = true
  · have hbytes : bytes = "".toUTF8 :=
      ByteArray.size_eq_zero_iff.1 (by simpa [ByteArray.isEmpty] using hempty)
    refine .nothing hempty ?_
    rw [hbytes, Text.read, Text.decode_toUTF8]
    rfl
  · rw [Bool.not_eq_true] at hempty
    cases hdecode : Text.decode bytes with
    | none => exact .noText hempty hdecode (by rw [Text.read, hdecode])
    | some read =>
      obtain ⟨text, cut⟩ := read
      by_cases hcut : cut.isEmpty = true
      · obtain rfl : cut = ByteArray.empty :=
          ByteArray.size_eq_zero_iff.1 (by simpa [ByteArray.isEmpty] using hcut)
        refine .text hempty hdecode ?_
        rw [Text.completeLines_lines, Text.read, hdecode]
        rfl
      · refine .cutShort hempty hdecode (by simpa using hcut) ?_
        rw [Text.read, hdecode]
        exact if_neg hcut

section

variable {X : List Folder.Path} {F d : Folder} {os : List Sheet}

theorem Sheet.covers_landAll (hX : ∀ p ∈ X, F.Holds p) (hos : ∀ p ∈ os.filterMap (·.file), p ∈ X)
    (h : d.Covers X F) : (landAll os d).Covers X F := by
  refine List.foldlRecOn os _ (motive := (Folder.Covers X · F)) h fun d hd o ho => ?_
  exact covers_land hX (fun p hp => hos p (List.mem_filterMap.2 ⟨o, ho, hp⟩)) hd

theorem Sheet.covers_closeAll (hX : ∀ p ∈ X, F.Holds p) (hos : ∀ p ∈ os.filterMap (·.file), p ∈ X)
    (h : d.Covers X F) : (closeAll os d).Covers X F := by
  refine List.foldlRecOn os _ (motive := (Folder.Covers X · F)) (covers_landAll hX hos h)
    fun d hd o ho => ?_
  exact covers_finish hX (fun p hp => hos p (List.mem_filterMap.2 ⟨o, ho, hp⟩)) hd

end

/-- Taking a token leaves the files alone, and the outputs for the same ones. -/
theorem WalkMode.Quiet.alike {ρ : Type} {m : WalkMode ρ} (hm : m.Quiet) (t : Token) (r : ρ) (d : Desk) :
    d.Alike (m.feed t r d).2 := by
  refine ⟨hm.folder t r d, ?_⟩
  have hmatlab := congrArg Option.toList (hm.matlab t r d)
  rw [Option.toList_map, Option.toList_map] at hmatlab
  unfold Desk.outputs
  rw [List.map_append, List.map_append, hm.c, hmatlab]

namespace Walk

variable {ρ : Type} {m : WalkMode ρ} {X : List Folder.Path} {F : Folder} {w w' : Walk ρ}
  {ds ds' : List Deed}

/-- The outputs are for files at `X`, and all other files are those of `F`. -/
structure Confined (X : List Folder.Path) (F : Folder) (w : Walk ρ) : Prop where
  files : w.desk.folder.Covers X F
  outputs : ∀ p ∈ w.desk.written, p ∈ X

/-- What a script does to the files at `X`: it reads none, and an output that it opens is among them. -/
structure Avoids (m : WalkMode ρ) (X : List Folder.Path) (F : Folder) (ds : List Deed) : Prop where
  reads : ∀ p ∈ ds.filterMap Deed.read?, p ∉ X
  opens : m.batching = true → ∀ name ∈ ds.filterMap Deed.target?, ∀ p, F.place name = .ok p → p ∈ X

theorem Avoids.of_sublist (h : Avoids m X F ds') (hds : ds.Sublist ds') : Avoids m X F ds where
  reads := fun p hp => h.reads p ((hds.filterMap _).subset hp)
  opens := fun hb name hname => h.opens hb name ((hds.filterMap _).subset hname)

theorem Avoids.left {ds₁ ds₂ : List Deed} (h : Avoids m X F (ds₁ ++ ds₂)) : Avoids m X F ds₁ :=
  h.of_sublist (List.sublist_append_left ..)

theorem Avoids.right {ds₁ ds₂ : List Deed} (h : Avoids m X F (ds₁ ++ ds₂)) : Avoids m X F ds₂ :=
  h.of_sublist (List.sublist_append_right ..)

theorem Avoids.append {ds₁ ds₂ : List Deed} (h₁ : Avoids m X F ds₁) (h₂ : Avoids m X F ds₂) :
    Avoids m X F (ds₁ ++ ds₂) where
  reads := by
    intro p hp
    rw [List.filterMap_append, List.mem_append] at hp
    exact hp.elim (h₁.reads p) (h₂.reads p)
  opens := by
    intro hb name hname
    rw [List.filterMap_append, List.mem_append] at hname
    exact hname.elim (h₁.opens hb name) (h₂.opens hb name)

namespace Confined

/-- What can be read now. -/
theorem current (hX : ∀ p ∈ X, F.Holds p) (h : Confined X F w) : w.desk.current.Covers X F :=
  Sheet.covers_landAll hX h.outputs h.files

/-- A file that is not at `X` is read as it was. -/
theorem bytesFrom (hX : ∀ p ∈ X, F.Holds p) (h : Confined X F w) {p : Folder.Path} (hp : p ∉ X)
    (offset : Nat) : w.desk.current.bytesFrom p offset = F.bytesFrom p offset := by
  unfold Folder.bytesFrom
  rw [(h.current hX).other p hp]

theorem alike (h : Confined X F w) {w' : Walk ρ} (halike : w.desk.Alike w'.desk) : Confined X F w' where
  files := halike.folder ▸ h.files
  outputs := halike.written ▸ h.outputs

theorem closeMatlab (hX : ∀ p ∈ X, F.Holds p) (h : Confined X F w) :
    Confined X F (w.onDesk .closeMatlab) where
  files := by
    refine Sheet.covers_closeAll hX (fun p hp => h.outputs p ?_) h.files
    unfold Desk.written Desk.outputs
    rw [List.filterMap_append]
    exact List.mem_append_left _ hp
  outputs := by
    intro p hp
    refine h.outputs p ?_
    unfold Desk.written Desk.outputs
    rw [List.filterMap_append]
    exact List.mem_append_right _ hp

theorem openBatch (hX : ∀ p ∈ X, F.Holds p) {name : String}
    (hname : ∀ p, F.place name = .ok p → p ∈ X) (h : Confined X F w) (hmatlab : w.desk.matlab = none) :
    Confined X F (w.openBatch name) := by
  cases hplace : w.desk.folder.place name with
  | error f =>
    rw [openBatch_error hplace]
    split <;> exact h.alike ⟨rfl, rfl⟩
  | ok p =>
    have hp : p ∈ X := hname p (h.files.place.2 hplace)
    rw [openBatch_ok hplace]
    refine ⟨h.files.put_left hp (hX p hp) _, fun q hq => ?_⟩
    rcases List.mem_cons.1 hq with rfl | hq
    · exact hp
    · refine h.outputs q ?_
      unfold Desk.written Desk.outputs
      rw [hmatlab]
      exact hq

theorem direct (hX : ∀ p ∈ X, F.Holds p) {target : String}
    (htarget : m.batching = true → target ≠ "" → ∀ p, F.place target = .ok p → p ∈ X)
    (h : Confined X F w) : Confined X F (w.direct m target) := by
  have hopened : Confined X F (w.reopen m target) := by
    unfold reopen
    split
    · dsimp only
      split
      · exact h.closeMatlab hX
      · exact (h.closeMatlab hX).openBatch hX (htarget ‹_› ‹_›) rfl
    · exact h
  unfold Walk.direct andThen
  split
  · exact hopened
  · split
    · exact hopened.alike ⟨rfl, rfl⟩
    · exact hopened

theorem perform (hX : ∀ p ∈ X, F.Holds p) (hm : m.Quiet) {d : Deed} (havoids : Avoids m X F [d])
    (h : Confined X F w) : Confined X F (w.perform m d) := by
  cases d with
  | matlab s => exact h.alike (Desk.alike_writeMatlab s w.desk)
  | c s => exact h.alike (Desk.alike_writeC s w.desk)
  | direct target =>
    refine h.direct hX fun hb hne => havoids.opens hb target ?_
    simp [Deed.target?, hne]
  | token t => exact h.alike (hm.alike t w.reader w.desk)
  | _ => exact h.alike ⟨rfl, rfl⟩

theorem plays (hX : ∀ p ∈ X, F.Holds p) (hm : m.Quiet) (havoids : Avoids m X F ds)
    (h : Confined X F w) (hw : Plays (Walk.perform m) w ds w') : Confined X F w' :=
  hw.induct (P := Confined X F) h fun _ hd _ _ hu =>
    hu.perform hX hm (havoids.of_sublist (List.singleton_sublist.2 hd))

end Confined

/-! ## Files that do not change -/

section

variable {inc : String → Walk ρ → Walk ρ} {inside : String → Walk ρ → List Deed} {p : Folder.Path}

theorem scriptOn_of_halt (h : w.halt.isSome = true) (ls : List (List Char)) :
    w.scriptOn m inc inside ls = [] := by
  cases ls with
  | nil => rfl
  | cons l ls => exact if_pos h

theorem scriptOn_append (ls ls' : List (List Char)) (w : Walk ρ) :
    w.scriptOn m inc inside (ls ++ ls')
      = w.scriptOn m inc inside ls ++ (w.lines m inc ls).scriptOn m inc inside ls' := by
  induction ls generalizing w with
  | nil => rfl
  | cons l ls ih =>
    rw [List.cons_append, scriptOn, scriptOn, lines_cons]
    split
    · exact (scriptOn_of_halt ‹_› ls').symm
    · rw [ih, List.append_assoc]

/-- What is done after the lines of a file, which may not be a text to its end. -/
def closing (isText : Bool) (w : Walk ρ) : List Deed :=
  if w.halt.isSome || isText then [] else [.fail .notText]

/-- At the end of a file the line that was left is taken, and then what has come meanwhile. -/
theorem scriptFrom_last {offset : Nat} {rest : List Char}
    (hend : w.desk.current.bytesFrom p offset = ByteArray.empty) (rounds : Nat) :
    let ls := if rest.isEmpty then [] else [Text.unifyNewlines rest]
    w.scriptFrom m inc inside p (rounds + 1) offset { text := rest }
      = w.scriptOn m inc inside ls
        ++ if rest.isEmpty then [] else
          (w.lines m inc ls).scriptFrom m inc inside p rounds offset {} := by
  intro ls
  rw [scriptFrom, hend]
  by_cases hhalt : w.halt.isSome = true
  · rw [if_pos hhalt, scriptOn_of_halt hhalt, lines_of_halt hhalt]
    cases rounds with
    | zero => simp [scriptFrom]
    | succ rounds => simp [scriptFrom, hhalt]
  · rw [if_neg hhalt]
    change (if rest.isEmpty then [] else _) = _
    simp only [ls]
    cases rest.isEmpty <;> rfl

/-- A file that has not grown is done with. -/
theorem scriptFrom_done {offset : Nat}
    (hend : w.halt = none → w.desk.current.bytesFrom p offset = ByteArray.empty) (rounds : Nat) :
    w.scriptFrom m inc inside p rounds offset {} = [] := by
  cases rounds with
  | zero => rfl
  | succ rounds =>
    rw [scriptFrom]
    split
    · rfl
    · rename_i hgoes
      rw [hend (by simpa using hgoes)]
      rfl

/-- How reading a file begins: with all that it holds. -/
theorem scriptFrom_start {bytes : ByteArray} {text : List Char} {cut : ByteArray}
    (hhalt : w.halt = none) (hbytes : w.desk.current.bytesFrom p 0 = bytes)
    (hempty : bytes.isEmpty = false) (hdecode : Text.decode bytes = some (text, cut)) (rounds : Nat) :
    w.scriptFrom m inc inside p (rounds + 1) 0 {}
      = w.scriptOn m inc inside (Text.completeLines text).1
        ++ (w.lines m inc (Text.completeLines text).1).scriptFrom m inc inside p rounds bytes.size
          { text := (Text.completeLines text).2, cut := cut } := by
  have hcut : ({} : Unread).cut ++ bytes = bytes := ByteArray.empty_append
  rw [scriptFrom, hbytes]
  dsimp only
  rw [if_neg (by simp [hhalt]), if_neg (by simp [hempty]), hcut, hdecode, Nat.zero_add]
  rfl

theorem avoids_nil : Avoids m X F [] where
  reads := fun p hp => by cases hp
  opens := fun _ name hname => by cases hname

namespace Confined

variable (hX : ∀ p ∈ X, F.Holds p) (hm : m.Quiet)
  (hinc : ∀ name w, w.halt = none → Plays (Walk.perform m) w (inside name w) (inc name w))

include hX hm hinc

theorem lines {ls : List (List Char)} (havoids : Avoids m X F (w.scriptOn m inc inside ls))
    (h : Confined X F w) : Confined X F (w.lines m inc ls) :=
  h.plays hX hm havoids (plays_lines hinc ls w)

theorem lines_end (hp : p ∉ X) {ls : List (List Char)}
    (havoids : Avoids m X F (w.scriptOn m inc inside ls)) (h : Confined X F w) :
    (w.lines m inc ls).desk.current.bytesFrom p (F.bytesFrom p 0).size = ByteArray.empty :=
  bytesFrom_size ((h.lines hX hm hinc havoids).bytesFrom hX hp 0)

/-- What is avoided in reading a file is avoided at its lines. -/
theorem avoids_lines (hp : p ∉ X) (hhalt : w.halt = none) (h : Confined X F w)
    (havoids : Avoids m X F (w.scriptFrom m inc inside p maxRounds 0 {})) :
    Avoids m X F (w.scriptOn m inc inside (Text.read (F.bytesFrom p 0)).1) := by
  have hbytes := h.bytesFrom hX hp 0
  cases Text.held (F.bytesFrom p 0) with
  | nothing _ read => exact read ▸ avoids_nil
  | noText _ _ read => exact read ▸ avoids_nil
  | cutShort empty decode _ read =>
    rw [show maxRounds = 1048575 + 1 from rfl, scriptFrom_start hhalt hbytes empty decode] at havoids
    exact read ▸ havoids.left
  | text empty decode read =>
    rw [show maxRounds = 1048574 + 1 + 1 from rfl, scriptFrom_start hhalt hbytes empty decode] at havoids
    have hend := h.lines_end hX hm hinc hp havoids.left
    have hlast := havoids.right
    rw [scriptFrom_last hend] at hlast
    rw [read, scriptOn_append]
    exact havoids.left.append hlast.left

/-- **A file that does not change is walked through line by line.** -/
theorem scriptFrom (hp : p ∉ X) (hhalt : w.halt = none) (h : Confined X F w)
    (havoids : Avoids m X F (w.scriptOn m inc inside (Text.read (F.bytesFrom p 0)).1)) :
    w.scriptFrom m inc inside p maxRounds 0 {}
      = w.scriptOn m inc inside (Text.read (F.bytesFrom p 0)).1
        ++ (w.lines m inc (Text.read (F.bytesFrom p 0)).1).closing (Text.read (F.bytesFrom p 0)).2 := by
  have hbytes := h.bytesFrom hX hp 0
  have hnone : ByteArray.empty.isEmpty = true := rfl
  cases Text.held (F.bytesFrom p 0) with
  | nothing empty read =>
    rw [read, show maxRounds = 1048575 + 1 from rfl, Walk.scriptFrom, hbytes, if_neg (by simp [hhalt]),
      if_pos empty]
    simp [closing, Walk.scriptOn, hnone]
  | noText empty decode read =>
    have hcut : ({} : Unread).cut ++ F.bytesFrom p 0 = F.bytesFrom p 0 := ByteArray.empty_append
    rw [read, show maxRounds = 1048575 + 1 from rfl, Walk.scriptFrom, hbytes, if_neg (by simp [hhalt]),
      if_neg (by simp [empty]), hcut, decode]
    simp [closing, Walk.scriptOn, Walk.lines, hhalt]
  | cutShort empty decode hcut read =>
    rw [read] at havoids ⊢
    have hend := h.lines_end hX hm hinc hp havoids
    rw [show maxRounds = 1048574 + 1 + 1 from rfl, scriptFrom_start hhalt hbytes empty decode,
      Walk.scriptFrom, hend]
    simp only [closing, Bool.or_false]
    split
    · rfl
    · simp [hcut]
  | text empty decode read =>
    rw [read] at havoids ⊢
    have hend := h.lines_end hX hm hinc hp havoids
    rw [scriptOn_append] at havoids
    rw [show maxRounds = 1048574 + 1 + 1 from rfl, scriptFrom_start hhalt hbytes empty decode,
      scriptFrom_last (h.lines_end hX hm hinc hp havoids.left), scriptOn_append]
    rw [lines_append] at hend
    rw [scriptFrom_done fun _ => hend]
    simp [closing]

end Confined

end

end Walk

end MexBridge
