import MexBridge.Command.Run
import MexBridge.Workload.Sample

/-!
Workloads: each puts one part of the library to work on a sample source of a chosen size, and
measures what came of it.
-/

namespace MexBridge

/-- A piece of work to be measured. -/
inductive Workload where
  /-- A whole run: its two outputs, its groups and its routines. -/
  | wholeRun
  /-- Walking through lines of all kinds: tokens, MATLAB text and C text. -/
  | reading
  /-- Entering declarations: groups, their signatures, and routines. -/
  | entering
  /-- The gateway file with C++ complex numbers and exceptions. -/
  | gateway
  | gatewayGpu
  | gatewayC99
  /-- Entering faulty statements: errors, type errors not yet summed up, and groups. -/
  | checking
  /-- The texts of routines and of promoted types. -/
  | rendering
  /-- The MATLAB calls of routines. -/
  | calling
  /-- A batch of outputs: routines and groups. -/
  | batching
deriving DecidableEq, Repr

/-- What a workload measures. -/
inductive Measure where
  | one (n : Nat)
  | many (ns : List Nat)
deriving DecidableEq, Repr

namespace Workload

/-- The size a workload has if none is chosen. -/
def defaultSize : Workload → Int
  | wholeRun => 200
  | reading => 1200
  | entering => 300
  | gateway => 300
  | gatewayGpu => 150
  | gatewayC99 => 200
  | checking => 200
  | rendering => 600
  | calling => 600
  | batching => 300

def mex : String := "mymex"

def support : String := "/* support */\n"

def folderOf (files : List (String × String)) : Folder :=
  { files := files.map fun f => (Folder.parts f.1, f.2.toUTF8) }

/-- A walk that starts with the given files and outputs of no file. -/
def start {ρ : Type} (files : List (String × String)) (reader : ρ) : Walk ρ :=
  { desk := { folder := folderOf files, matlab := some {}, c := some {} }, reader := reader }

def matlabSize {ρ : Type} (w : Walk ρ) : Nat := (w.desk.matlab.map (·.text.length)).getD 0

def cSize {ρ : Type} (w : Walk ρ) : Nat := (w.desk.c.map (·.text.length)).getD 0

/-- The walk after all declarations of a source are entered. -/
def enter (s : Settings) (batching : Bool) (name source : String) : Walk Ledger :=
  Command.finishFile ((start [(name, source)] { context := .ofSettings s }).file
    (Command.walkMode mex batching false) name)

def routines (l : Ledger) : List Routine := l.groups.flatMap Group.members

def total {α : Type} (size : α → Nat) (xs : List α) : Nat := xs.foldl (fun n x => n + size x) 0

/-- The size of the gateway file for a source, without C lines of the source. -/
def gatewaySize (s : Settings) (name source : String) : Measure :=
  let l := (enter s false name source).reader
  match Gateway.body l.context l.groups with
  | .ok body => .one ((Gateway.header s support).length + body.length)
  | .error _ => .one 0

/-- Counts tokens. -/
def countMode : WalkMode Nat := { feed := fun _ n d => (n + 1, d) }

/-- Types that a promotion may rename or note, and one that it never does. -/
def promotedTypes : List String := "double" :: "int" :: "long" :: notedTypes

/-- The promotion of each code; two codes stand for the same. -/
def promotions : List Promotion := [0, 1, 2, 3, 4].map Promotion.ofCode

def wholeRunOf (n : Int) : Measure :=
  let o : Command.Options := {
    mex := mex, settings := { cpp := true, catches := true }, inputs := ["./input.mw"] }
  let w := (Command.inputFiles support o false o.inputs
    (start [("./input.mw", compose n false)] { context := .ofSettings o.settings })).andThen
      Command.complete
  .many [cSize w, matlabSize w, w.reader.groups.length, w.reader.count]

def readingOf (n : Int) : Measure :=
  let w := (start [("./big.mw", mixed n), ("./inc.mw", includedText)] 0).file countMode "./big.mw"
  .many [w.reader, matlabSize w, cSize w]

def enteringOf (n : Int) : Measure :=
  let l := (enter {} false "./p.mw" (compose n false)).reader
  .many [l.groups.length, total (·.signature.length) l.groups, l.count]

def checkingOf (n : Int) : Measure :=
  let l := (enter { cpp := true } false "./err.mw" (faultyText n)).reader
  .many [l.errors, l.typeErrors, l.groups.length]

def renderingOf (n : Int) : Measure :=
  let s : Settings := { cpp := true, gpu := true }
  let rs := routines (enter s false "./a.mw" (compose n true)).reader
  .one (total (fun r => (r.signature s.promotion).length + r.text.length) rs
    + total (fun p => total (fun t => (p.rename t).length) promotedTypes) promotions)

def callingOf (n : Int) : Measure :=
  let rs := routines (enter { cpp := true } false "./m.mw" (compose n false)).reader
  .one (total (fun r => (r.matlabCall mex).length) rs)

def batchingOf (n : Int) : Measure :=
  let l := (enter {} true "./r.mw" (redirectedText n)).reader
  .many [l.count, l.groups.length]

/-- Does a workload of a given size. -/
def measure (n : Int) : Workload → Measure
  | wholeRun => wholeRunOf n
  | reading => readingOf n
  | entering => enteringOf n
  | gateway => gatewaySize { cpp := true, catches := true } "./c.mw" (compose n false)
  | gatewayGpu => gatewaySize { cpp := true, gpu := true } "./g.mw" (compose n true)
  | gatewayC99 => gatewaySize { c99 := true } "./c99.mw" (compose n false)
  | checking => checkingOf n
  | rendering => renderingOf n
  | calling => callingOf n
  | batching => batchingOf n

end Workload

end MexBridge
