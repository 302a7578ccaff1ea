import MexBridge.Command.Options
import MexBridge.Gateway.File
import MexBridge.Ledger
import MexBridge.Source.Walk

/-!
A run of the command: its options are read, its outputs opened, its input files walked through
one after the other with one ledger, and the gateway file completed if there was no error.
-/

namespace MexBridge.Command

def helpText : String :=
  "mwrap 1.3 - MEX file generator for MATLAB and Octave\n\nSyntax:\n"
    ++ "  mwrap [-mex outputmex] [-m output.m] [-c outputmex.c] [-mb] [-list]\n"
    ++ "        [-catch] [-i8] [-c99complex] [-cppcomplex] [-gpu] infile1 infile2 ...\n\n"
    ++ "  -mex outputmex -- specify the MATLAB mex function name\n"
    ++ "  -m output.m    -- generate the MATLAB stub called output.m\n"
    ++ "  -c outputmex.c -- generate the C file outputmex.c\n"
    ++ "  -mb            -- generate .m files specified with @ redirections\n"
    ++ "  -list          -- list files specified with @ redirections\n"
    ++ "  -catch         -- generate C++ exception handling code\n"
    ++ "  -i8            -- convert int, long, uint, ulong to int64_t, uint64_t\n"
    ++ "  -c99complex    -- add support code for C99 complex types\n"
    ++ "  -cppcomplex    -- add support code for C++ complex types\n"
    ++ "  -gpu           -- add support code for MATLAB gpuArray\n"

def usageText : String :=
  "Usage: mwrap [-mex outputmex] [-m output.m] [-c outputmex.c] infile1 ...\n"
    ++ "Try 'mwrap --help' for more information.\n"

def misuseText (m : Misuse) : String :=
  "usage: mwrap [--help] [-m MFILE] [-c CFILE] [-mex MEXFUNC] [-mb] [-list]\n"
    ++ "             [-catch] [-i8] [-c99complex] [-cppcomplex] [-gpu]\n"
    ++ "             [input_files ...]\nmwrap: error: " ++ m.text ++ "\n"

/-- How a run ended. -/
inductive Ending where
  /-- With a status, which is the number of errors if all input was read. -/
  | status (n : Nat)
  | fault (f : Fault)
deriving DecidableEq, Repr

/-- Enters a token in the ledger, where the desk has come to. -/
def feedLedger (mex : String) (t : Token) (l : Ledger) (d : Desk) : Ledger × Desk :=
  let (l, reply) := l.feed mex d.file t
  (l, (d.report reply.notices).writeMatlab reply.matlab)

def walkMode (mex : String) (batching listing : Bool) : WalkMode Ledger :=
  { batching := batching, listing := listing, feed := feedLedger mex }

/-- Sums up the file read last. -/
def finishFile (w : Walk Ledger) : Walk Ledger :=
  let (l, reply) := w.reader.finishFile w.desk.file w.desk.line
  { w with reader := l, desk := w.desk.report reply.notices }

/-- Walks through one input file; a file that cannot be read is reported and passed over. The
header goes out before the first file that can. -/
def inputFile (support : String) (o : Options) (headed : Bool) (name : String) (w : Walk Ledger) :
    Bool × Walk Ledger :=
  let w := { w with reader := { w.reader with typeErrors := 0 } }
  match w.desk.current.find name with
  | .error f =>
    (headed, if f.ofFile then w.onDesk fun d => d.report [.unreadable name] else w.fail f)
  | .ok _ =>
    let w := if headed then w
      else w.onDesk (.writeAllC (Gateway.headerParts w.reader.context.settings support))
    (true, (w.file (walkMode o.mex o.batching o.listing) name).andThen finishFile)

def inputFiles (support : String) (o : Options) : Bool → List String → Walk Ledger → Walk Ledger
  | _, [], w => w
  | headed, name :: names, w =>
    if w.halt.isSome then w
    else
      let (headed, w) := inputFile support o headed name w
      inputFiles support o headed names w

/-- Opens the output an option names, if it names one. -/
def openNamed (create : String → Desk → Except Fault Desk) (name : Option String) (d : Desk) :
    Except Fault Desk :=
  match name.filter (· ≠ "") with
  | some n => create n d
  | none => .ok d

def openOutputs (o : Options) (d : Desk) : Except Fault Desk := do
  openNamed Desk.openC o.c (← openNamed (Desk.openMatlab false) o.matlab d)

/-- Completes the gateway file if there was no error. -/
def complete (w : Walk Ledger) : Walk Ledger :=
  if w.reader.errors = 0 ∧ w.desk.c.isSome then
    match Gateway.body w.reader.context w.reader.groups with
    | .ok text =>
      w.onDesk (.writeAllC ((Text.splitLines text.toList).map String.ofList))
    | .error f => w.fail f
  else w

/-- A run with input files. -/
def process (support : String) (o : Options) (d : Desk) : Desk × Ending :=
  match openOutputs o d with
  | .error f => (d, .fault f)
  | .ok d =>
    let ledger : Ledger := { context := .ofSettings o.settings }
    let w := (inputFiles support o false o.inputs { desk := d, reader := ledger }).andThen complete
    match w.halt with
    | none => (w.desk.closeOutputs, .status w.reader.errors)
    | some (.exit n) => (w.desk.abandonOutputs, .status n)
    | some (.fault f) => (w.desk, .fault f)

/-- A run with the given arguments in a folder of files (`main`). -/
def run (support : String) (args : List String) (folder : Folder) : Desk × Ending :=
  let d : Desk := { folder := folder }
  if args.isEmpty then (d.report [.text helpText], .status 0)
  else
    match Options.parse args with
    | .error m => (d.report [.text (misuseText m)], .status 2)
    | .ok o =>
      if o.help then (d.report [.text helpText], .status 0)
      else if o.inputs.isEmpty then (d.report [.text usageText], .status 0)
      else process support o d

end MexBridge.Command
