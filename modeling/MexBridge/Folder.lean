import MexBridge.Fault

/-!
The files a run can see, by path from the top. A name is taken apart at slashes; empty parts and
`.` stand for nothing, `..` leads back up, and a name with no slash in front starts from the
folder the run works in.
-/

namespace MexBridge

structure Folder where
  /-- The path of each file and what it holds. -/
  files : List (List String × ByteArray) := []
  /-- Paths of folders known beside those that hold files. -/
  folders : List (List String) := []
  /-- Where names start that have no slash in front. -/
  here : List String := []

namespace Folder

abbrev Path := List String

/-- The parts of a name between its slashes. -/
def pieces (name : String) : List String := (name.toList.splitOn '/').map String.ofList

/-- The parts of a path that lead somewhere. -/
def parts (name : String) : Path := (pieces name).filter fun p => p ≠ "" && p ≠ "."

def isFolder (d : Folder) (p : Path) : Bool :=
  p.isPrefixOf d.here || d.folders.any (p.isPrefixOf ·)
    || d.files.any fun f => p.isPrefixOf f.1 && p != f.1

def get? (d : Folder) (p : Path) : Option ByteArray := d.files.lookup p

/-- Puts a file in place of the one with its path, or after all others. -/
def put (p : Path) (content : ByteArray) : List (Path × ByteArray) → List (Path × ByteArray)
  | [] => [(p, content)]
  | f :: fs => if f.1 = p then (p, content) :: fs else f :: put p content fs

theorem lookup_put_self (p : Path) (content : ByteArray) (fs : List (Path × ByteArray)) :
    (put p content fs).lookup p = some content := by
  induction fs with
  | nil => simp [put]
  | cons f fs ih =>
    obtain ⟨q, old⟩ := f
    by_cases h : q = p
    · simp [put, h]
    · have hb : (p == q) = false := by simpa using Ne.symm h
      simp [put, h, List.lookup_cons, hb, ih]

theorem lookup_put_of_ne {p q : Path} (h : q ≠ p) (content : ByteArray)
    (fs : List (Path × ByteArray)) : (put p content fs).lookup q = fs.lookup q := by
  have hb : (q == p) = false := by simpa using h
  induction fs with
  | nil => simp [put, List.lookup_cons, hb]
  | cons f fs ih =>
    obtain ⟨p', old⟩ := f
    by_cases hp : p' = p
    · simp [put, hp, List.lookup_cons, hb]
    · simp [put, hp, List.lookup_cons, ih]

/-- The longest name a file or a folder can have, in bytes. -/
def maxName : Nat := 255

/-- Follows the folders a name goes through, from the one at `start`. -/
def follow (d : Folder) : Path → List String → Except Fault Path
  | start, [] => .ok start
  | start, part :: parts =>
    if part = "" ∨ part = "." then follow d start parts
    else if part = ".." then follow d start.dropLast parts
    else if part.utf8ByteSize > maxName then .error .nameTooLong
    else
      let p := start ++ [part]
      if d.isFolder p then follow d p parts
      else if (d.get? p).isSome then .error .notAFolder
      else .error .missingFile

/-- The longest name with all the folders it goes through, in bytes. -/
def maxPath : Nat := 4095

/-- Where a name starts, and the parts it is made of. -/
def route (d : Folder) (name : String) : Except Fault (Path × List String) :=
  if '\x00' ∈ name.toList then .error .brokenName
  else if name = "" then .error .missingFile
  else if name.utf8ByteSize > maxPath then .error .nameTooLong
  else .ok (if name.toList.head? = some '/' then [] else d.here, pieces name)

/-- The path of a file that is there or could be made, from the parts of its name. -/
def locate (d : Folder) (start : Path) (parts : List String) : Except Fault Path := do
  let last := parts.getLast?.getD ""
  let here ← d.follow start parts.dropLast
  if last = "" ∨ last = "." ∨ last = ".." then throw .notAFile
  if last.utf8ByteSize > maxName then throw .nameTooLong
  if d.isFolder (here ++ [last]) then throw .notAFile
  return here ++ [last]

/-- The path of a file that is there. -/
def find (d : Folder) (name : String) : Except Fault Path := do
  let (start, parts) ← d.route name
  let p ← d.locate start parts
  if (d.get? p).isSome then return p else throw .missingFile

/-- What a file holds from an offset on. -/
def bytesFrom (d : Folder) (p : Path) (offset : Nat) : ByteArray :=
  match d.get? p with
  | some content => content.extract offset content.size
  | none => ByteArray.empty

/-- The path of a file to be made. A slash at the end of its name asks for a folder, and none is
made here. -/
def place (d : Folder) (name : String) : Except Fault Path := do
  let (start, parts) ← d.route name
  if parts.getLast? = some "" then
    let named := (parts.reverse.dropWhile (· = "")).reverse
    let _ ← d.follow start named.dropLast
    throw .notAFile
  else d.locate start parts

/-- Makes a file empty, or makes it. -/
def create (d : Folder) (name : String) : Except Fault (Folder × Path) := do
  let p ← d.place name
  return ({ d with files := put p ByteArray.empty d.files }, p)

/-- Puts bytes into a file in place of those at an offset; what it holds beyond stays. -/
def patch (d : Folder) (p : Path) (offset : Nat) (bytes : ByteArray) : Folder :=
  let old := (d.get? p).getD ByteArray.empty
  let new := old.extract 0 offset ++ bytes ++ old.extract (offset + bytes.size) old.size
  { d with files := put p new d.files }

theorem get?_patch_self {d : Folder} {p : Path} {old : ByteArray} (h : d.get? p = some old)
    (offset : Nat) (bytes : ByteArray) :
    (d.patch p offset bytes).get? p
      = some (old.extract 0 offset ++ bytes ++ old.extract (offset + bytes.size) old.size) := by
  have hl : d.files.lookup p = some old := h
  simp [get?, patch, lookup_put_self, hl]

theorem get?_patch_of_ne {p q : Path} (h : q ≠ p) (d : Folder) (offset : Nat) (bytes : ByteArray) :
    (d.patch p offset bytes).get? q = d.get? q := by
  simp [get?, patch, lookup_put_of_ne h]

end Folder

end MexBridge
