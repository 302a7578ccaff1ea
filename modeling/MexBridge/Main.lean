import MexBridge.Command.Run
import MexBridge.Gateway.Support

/-!
The command line program. Files are read before the run and written after it: those its arguments
name, and those that files read so far include or direct output to.
-/

namespace MexBridge.Shell

/-- The names of files on the lines of a source. -/
def namesIn (content : ByteArray) : List String :=
  let text := ((Text.decode content).map (·.1)).getD []
  (Text.splitLines (Text.unifyNewlines text)).filterMap fun l =>
    match SourceLine.classify (SourceLine.indent l).2 with
    | .include name => some (String.ofList name)
    | .redirect target => some (String.ofList target)
    | .function tail => some (String.ofList (SourceLine.functionFile tail))
    | _ => none

/-- The names of files among options. -/
def namesOf (o : Command.Options) : List String := o.inputs ++ o.matlab.toList ++ o.c.toList

/-- The path from the top that a name leads to if every folder on its way is there. -/
def pathOf (here : Folder.Path) (name : String) : Folder.Path :=
  let start := if name.toList.head? = some '/' then [] else here
  (Folder.parts name).foldl (fun p part => if part = ".." then p.dropLast else p ++ [part]) start

def realName (p : Folder.Path) : String := "/" ++ "/".intercalate p

/-- The folders on the way to a path that are there. -/
def foldersTo (p : Folder.Path) : IO (List Folder.Path) :=
  ((List.range (p.length + 1)).map p.take).filterM fun q => do
    match ← (IO.FS.realPath (realName q)).toBaseIO with
    | .ok r => r.isDir
    | .error _ => return false

/-- Takes in the files named, and those named in them. -/
partial def load (names : List String) (folder : Folder) : IO Folder := do
  match names with
  | [] => return folder
  | name :: names =>
    let p := pathOf folder.here name
    if (folder.get? p).isSome || folder.folders.contains p then load names folder
    else
      let folder := { folder with folders := folder.folders ++ (← foldersTo p) }
      match ← (IO.FS.readBinFile (realName p)).toBaseIO with
      | .ok content =>
        load (namesIn content ++ names) { folder with files := folder.files ++ [(p, content)] }
      | .error _ => load names folder

/-- Writes what a run has changed. -/
def store (before after : Folder) : IO Unit :=
  after.files.forM fun (p, content) => do
    if (before.get? p).map (·.data) ≠ some content.data then
      IO.FS.writeBinFile (realName p) content

/-- The support code, which stands in the folder of the program (`_load_support`). -/
def support : IO String := do
  let file := (Folder.parts (← IO.appPath).toString).dropLast ++ ["mwrap_support.c"]
  match ← (IO.FS.readFile (realName file)).toBaseIO with
  | .ok text => return text
  | .error _ => return Gateway.supportText

def run (args : List String) : IO UInt32 := do
  let here := Folder.parts (← IO.currentDir).toString
  let names := (Command.Options.parse args).toOption.elim [] namesOf
  let before ← load names { here := here }
  let (desk, ending) := Command.run (← support) args before
  store before desk.folder
  IO.print desk.stdout
  IO.eprint (Notice.printed desk.notices)
  match ending with
  | .status n => return n.toUInt32
  | .fault f =>
    IO.eprintln ("error: " ++ f.message)
    return 1

end MexBridge.Shell

def main (args : List String) : IO UInt32 := MexBridge.Shell.run args
