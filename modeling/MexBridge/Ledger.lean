import MexBridge.Notice
import MexBridge.Routine.MatlabCall
import MexBridge.Routine.Signature
import MexBridge.Statement.Parser
import MexBridge.Types.Context

/-!
The ledger of a run: all that its declarations have come to. Tokens are collected up to a `;` and
entered as one statement; routines are numbered in the order they are entered, and filed under
their signatures.
-/

namespace MexBridge

/-- The state that statements are entered into (`Parser`). -/
structure Ledger where
  context : Context := {}
  /-- The tokens of a statement not yet finished. -/
  pending : List Token := []
  groups : List Group := []
  /-- The number of routines entered, the id of the last. -/
  count : Nat := 0
  /-- Type errors since the start of the file. -/
  typeErrors : Nat := 0
  /-- Errors counted so far. -/
  errors : Nat := 0

/-- What entering something gives back: notices, and text for the MATLAB output. -/
structure Reply where
  notices : List Notice := []
  matlab : String := ""

namespace Ledger

/-- Files a routine under its signature (`_add_func`). -/
def fileUnder (signature : String) (r : Routine) : List Group → List Group
  | [] => [{ signature := signature, first := r }]
  | g :: gs =>
    if g.signature = signature then { g with twins := g.twins ++ [r] } :: gs
    else g :: fileUnder signature r gs

def note (types : List String) (l : Ledger) : Ledger :=
  { l with context := l.context.note types }

/-- Numbers, checks and files a routine (`_finish_func`). -/
def enterRoutine (mex : String) (r : Routine) (l : Ledger) : Ledger × Reply :=
  let c := { r with id := l.count + 1 }.check l.context.types
  let r := c.value
  let l := l.note r.baseTypes
  ({ l with
      count := l.count + 1
      typeErrors := l.typeErrors + c.errors
      groups := fileUnder (r.signature l.context.settings.promotion) r l.groups },
    { notices := c.complaints.map (.complaint r.line), matlab := r.matlabCall mex })

/-- The routine as the promotion in force makes it. -/
def promote (p : Promotion) (r : Routine) : Routine :=
  { r with
    results := r.results.map fun v => { v with type := p.rename v.type }
    args := r.args.map fun v => { v with type := p.rename v.type } }

def enterStatement (mex : String) (l : Ledger) : Statement → Ledger × Reply
  | .typedef space name =>
    match TypeSpace.ofName? space with
    | some s =>
      ({ l with context := { l.context with types := l.context.types.add name s } }, {})
    | none =>
      ({ l with typeErrors := l.typeErrors + 1 }, { notices := [.unknownSpace space] })
  | .inherits child parents =>
    ({ l with context := { l.context with types := l.context.types.inherits child parents } }, {})
  | .call r => (l.note r.baseTypes).enterRoutine mex (promote l.context.settings.promotion r)

/-- Enters the statement that `ts` spell. One that cannot be parsed leaves its base types noted
and nothing else. -/
def enterTokens (mex file : String) (ts : List Token) (l : Ledger) : Ledger × Reply :=
  match Statement.parse file ts with
  | .ok s => l.enterStatement mex s
  | .error e =>
    ({ l.note e.types with errors := l.errors + 1 },
      { notices := [.badStatement file (Statement.peek ts).line e.fault] })

/-- Drops a statement that lacks its `;` (`_flush_pending`). -/
def dropPending (file : String) (line : Int) (atEnd : Bool) (l : Ledger) : Ledger × Reply :=
  if l.pending.isEmpty then (l, {})
  else
    ({ l with pending := [], errors := l.errors + 1 },
      { notices := [.badStatement file line (.unfinished atEnd)] })

/-- Takes one token, read in `file` (`feed`). -/
def feed (mex file : String) (t : Token) (l : Ledger) : Ledger × Reply :=
  match t.kind with
  | .otherLine => l.dropPending file t.line false
  | .eof => l.dropPending file t.line true
  | _ =>
    if t.isPunct ";" then { l with pending := [] }.enterTokens mex file (l.pending ++ [t])
    else ({ l with pending := l.pending ++ [t] }, {})

/-- Sums up a file read to its end (`finish_file`). -/
def finishFile (file : String) (line : Int) (l : Ledger) : Ledger × Reply :=
  let (l, reply) := l.dropPending file line true
  if l.typeErrors = 0 then (l, reply)
  else
    ({ l with errors := l.errors + l.typeErrors, typeErrors := 0 },
      { reply with notices := reply.notices ++ [.typeErrors file l.typeErrors] })

end Ledger

end MexBridge
