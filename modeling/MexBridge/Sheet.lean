import MexBridge.Folder

/-!
Text outputs. What is written to a sheet lands in its file in portions, and the rest when the
sheet is closed; so a file read while it is written, or written to by two sheets, shows how far
each of them has come.
-/

namespace MexBridge

/-- How far the bytes written have come on their way to a file. -/
structure Progress where
  /-- In the file. -/
  landed : Nat := 0
  /-- Passed on, and waiting for the portion to be full. -/
  held : Nat := 0
  /-- Waiting to be passed on. -/
  pending : Nat := 0
deriving DecidableEq, Repr

namespace Progress

/-- So many bytes wait to be passed on. -/
def maxPending : Nat := 8192

/-- The size of a portion. -/
def portion : Nat := 4096

/-- All bytes written. -/
def total (p : Progress) : Nat := p.landed + p.held + p.pending

/-- Passes on what is pending. Less than a portion is held as long as it fits. -/
def passOn (p : Progress) : Progress :=
  if p.pending < portion ∧ p.held + p.pending ≤ portion then
    { p with held := p.held + p.pending, pending := 0 }
  else if p.pending ≤ portion then
    { landed := p.landed + p.held, held := p.pending, pending := 0 }
  else { landed := p.total, held := 0, pending := 0 }

/-- After `n` more bytes were written. -/
def write (n : Nat) (p : Progress) : Progress :=
  let p := if p.pending + n > maxPending then p.passOn else p
  let p := { p with pending := p.pending + n }
  if p.pending ≥ maxPending then p.passOn else p

@[simp] theorem total_passOn (p : Progress) : p.passOn.total = p.total := by
  unfold passOn
  split
  · simp only [total]; omega
  · split <;> simp only [total] <;> omega

/-- Nothing written is lost on the way. -/
@[simp] theorem total_write (n : Nat) (p : Progress) : (p.write n).total = p.total + n := by
  have h (q : Progress) : ({ q with pending := q.pending + n } : Progress).total = q.total + n := by
    simp only [total]; omega
  unfold write
  dsimp only
  split <;> split <;> simp [h]

end Progress

/-- A text output: the file it is for, if any, and what was written. -/
structure Sheet where
  file : Option Folder.Path := none
  text : String := ""
  progress : Progress := {}
  /-- Opened for a batch, by a line of a source. -/
  batch : Bool := false

namespace Sheet

/-- Writes pieces one after the other. -/
def writeAll (ss : List String) (o : Sheet) : Sheet :=
  { o with
    text := o.text ++ String.join ss
    progress := ss.foldl (fun p s => p.write s.utf8ByteSize) o.progress }

def write (s : String) (o : Sheet) : Sheet :=
  { o with text := o.text ++ s, progress := o.progress.write s.utf8ByteSize }

/-- The folder with the part of the text that has landed. -/
def land (o : Sheet) (d : Folder) : Folder :=
  match o.file with
  | some p => d.patch p 0 (o.text.toUTF8.extract 0 o.progress.landed)
  | none => d

/-- The folder with the part of the text that had not landed. -/
def finish (o : Sheet) (d : Folder) : Folder :=
  match o.file with
  | some p =>
    let bytes := o.text.toUTF8
    d.patch p o.progress.landed (bytes.extract o.progress.landed bytes.size)
  | none => d

def landAll (os : List Sheet) (d : Folder) : Folder := os.foldl (fun d o => o.land d) d

/-- Closes sheets in order. -/
def closeAll (os : List Sheet) (d : Folder) : Folder :=
  os.foldl (fun d o => o.finish d) (landAll os d)

/-- Two parts of a text are the text, however far the first one goes. -/
theorem extract_append_rest (bytes : ByteArray) (n : Nat) :
    bytes.extract 0 n ++ bytes.extract n bytes.size = bytes := by
  rw [ByteArray.extract_append_extract, Nat.zero_min]
  apply ByteArray.ext
  rw [ByteArray.data_extract]
  exact Array.extract_eq_self_of_le (Nat.le_max_right n bytes.size)

/-- A file that was empty holds the text of the one sheet for it when that is closed. -/
theorem get?_closeAll_self {o : Sheet} {p : Folder.Path} {d : Folder} (hp : o.file = some p)
    (h : d.get? p = some ByteArray.empty) :
    (closeAll [o] d).get? p = some o.text.toUTF8 := by
  let bytes := o.text.toUTF8
  let n := o.progress.landed
  have hland : (o.land d).get? p = some (bytes.extract 0 n) := by
    have he (i : Nat) : ByteArray.empty.extract i ByteArray.empty.size = ByteArray.empty :=
      ByteArray.extract_eq_empty_iff.2 (by simp)
    simp only [land, hp]
    rw [Folder.get?_patch_self h, he, ByteArray.append_empty]
    exact congrArg some ByteArray.empty_append
  have hrest : (bytes.extract 0 n).extract (n + (bytes.extract n bytes.size).size)
      (bytes.extract 0 n).size = ByteArray.empty :=
    ByteArray.extract_eq_empty_iff.2 (by simp only [ByteArray.size_extract]; omega)
  have hstart : (bytes.extract 0 n).extract 0 n = bytes.extract 0 n := by
    simp [ByteArray.extract_extract]
  simp only [closeAll, landAll, List.foldl, finish, hp]
  rw [Folder.get?_patch_self hland, hrest, ByteArray.append_empty, hstart, extract_append_rest]

end Sheet

end MexBridge
