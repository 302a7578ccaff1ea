import MexBridge.Desk
import MexBridge.Source.Line
import MexBridge.Text.Decoding
import MexBridge.Text.Layout
import MexBridge.Token.Lexer

/-!
Walking through source files line by line. Text goes to the outputs as it is met, tokens go to
the one who reads them, and an included file is walked through in place of the line that names it.
-/

namespace MexBridge

/-- Why a walk ended early. -/
inductive Halt where
  /-- With a status, after a notice. -/
  | exit (status : Nat)
  | fault (f : Fault)
deriving DecidableEq, Repr

/-- The state of a walk; `ρ` is what its tokens are read into. -/
structure Walk (ρ : Type) where
  desk : Desk
  reader : ρ
  /-- Inside a block of C. -/
  inBlock : Bool := false
  halt : Option Halt := none

/-- What a walk is for. -/
structure WalkMode (ρ : Type) where
  /-- Each `@` line opens the output it names. -/
  batching : Bool := false
  /-- The names on `@` lines are printed. -/
  listing : Bool := false
  /-- Takes a token. -/
  feed : Token → ρ → Desk → ρ × Desk

namespace Walk

variable {ρ : Type}

def onDesk (f : Desk → Desk) (w : Walk ρ) : Walk ρ := { w with desk := f w.desk }

def stop (n : Notice) (w : Walk ρ) : Walk ρ :=
  { w with desk := w.desk.report [n], halt := some (.exit 1) }

def fail (f : Fault) (w : Walk ρ) : Walk ρ := { w with halt := some (.fault f) }

def feed (m : WalkMode ρ) (t : Token) (w : Walk ρ) : Walk ρ :=
  let (reader, desk) := m.feed t w.reader w.desk
  { w with reader := reader, desk := desk }

/-- Goes on to the next line, and tells the reader that this one was no declaration. -/
def passLine (m : WalkMode ρ) (w : Walk ρ) : Walk ρ :=
  (w.onDesk .nextLine).feed m (.otherLine w.desk.line)

/-- Opens the MATLAB output of a batch. -/
def openBatch (name : String) (w : Walk ρ) : Walk ρ :=
  match w.desk.openMatlab true name with
  | .ok d => { w with desk := d }
  | .error f => if f.ofFile then w.stop (.cannotWrite name) else w.fail f

/-- Goes on unless the walk has ended. -/
def andThen (f : Walk ρ → Walk ρ) (w : Walk ρ) : Walk ρ := if w.halt.isSome then w else f w

/-- `@function`: its file, and its head line for the output (`_handle_function`). -/
def functionLine (m : WalkMode ρ) (tail : List Char) (w : Walk ρ) : Walk ρ :=
  let name := String.ofList (SourceLine.functionFile tail)
  let w := if m.batching then (w.onDesk .closeMatlab).openBatch name else w
  w.andThen fun w =>
    let w := if m.listing then w.onDesk (.print name) else w
    (w.onDesk (.writeMatlab ("function" ++ String.ofList tail ++ "\n"))).passLine m

/-- `@`: closes the output, and opens the one named, if one is (`_handle_redirect`). -/
def redirectLine (m : WalkMode ρ) (target : String) (w : Walk ρ) : Walk ρ :=
  let w :=
    if m.batching then
      let w := w.onDesk .closeMatlab
      if target = "" then w else w.openBatch target
    else w
  w.andThen fun w =>
    let w := if m.listing && target ≠ "" then w.onDesk (.print target) else w
    w.passLine m

/-- A declaration after its `#` (`_handle_hash_line`). -/
def declarationLine (m : WalkMode ρ) (body : List Char) (w : Walk ρ) : Walk ρ :=
  ((Token.tokens w.desk.line body).foldl (fun w t => w.feed m t) w).onDesk .nextLine

/-- A line inside a block of C (`_handle_block_c`). -/
def blockLine (line : List Char) (w : Walk ρ) : Walk ρ :=
  let w := w.onDesk .nextLine
  if SourceLine.isCloser line then { w with inBlock := false }
  else w.onDesk (.writeC (String.ofList line))

/-- A line outside blocks (`_lex_stream`). The indent of a marked line goes to the MATLAB output. -/
def openLine (m : WalkMode ρ) (included : String → Walk ρ → Walk ρ) (line : List Char)
    (w : Walk ρ) : Walk ρ :=
  let (indent, rest) := SourceLine.indent line
  let marked := w.onDesk (.writeMatlab (String.ofList indent))
  match SourceLine.classify rest with
  | .text => (w.onDesk (.writeMatlab (String.ofList line))).passLine m
  | .brokenOpener => (marked.onDesk (.writeMatlab (String.ofList line))).passLine m
  | .comment => marked.passLine m
  | .function tail => marked.functionLine m tail
  | .include name => included (String.ofList name) marked
  | .redirect target => marked.redirectLine m (String.ofList target)
  | .code c => (marked.onDesk (.writeC (String.ofList c))).passLine m
  | .opener => { marked.onDesk .nextLine with inBlock := true }
  | .declaration body => marked.declarationLine m body

def lines (m : WalkMode ρ) (included : String → Walk ρ → Walk ρ) :
    List (List Char) → Walk ρ → Walk ρ
  | [], w => w
  | l :: ls, w =>
    if w.halt.isSome then w
    else lines m included ls (if w.inBlock then w.blockLine l else w.openLine m included l)

/-- What was read of a file and not walked through yet. -/
structure Unread where
  /-- The start of a line. -/
  text : List Char := []
  /-- The bytes of a character that is cut short. -/
  cut : ByteArray := ByteArray.empty

/-- Walks through a file from an offset on, after what is left unread. At its end the last line
is taken as it is; then, and whenever more has landed in the file meanwhile, reading goes on, for
at most so many rounds. -/
def readOn (m : WalkMode ρ) (included : String → Walk ρ → Walk ρ) (p : Folder.Path) :
    Nat → Nat → Unread → Walk ρ → Walk ρ
  | 0, _, _, w => w
  | rounds + 1, offset, left, w =>
    let bytes := w.desk.current.bytesFrom p offset
    if bytes.isEmpty then
      if !left.cut.isEmpty then w.fail .notText
      else if left.text.isEmpty then w
      else
        (w.lines m included [Text.unifyNewlines left.text]).andThen
          (readOn m included p rounds offset {})
    else
      match Text.decode (left.cut ++ bytes) with
      | none => w.fail .notText
      | some (text, cut) =>
        let (ls, rest) := Text.completeLines (left.text ++ text)
        (w.lines m included ls).andThen
          (readOn m included p rounds (offset + bytes.size) { text := rest, cut := cut })

/-- How often a file is read that grows while it is walked through. `_lex_stream` has no such bound.
A file that does not change takes three rounds at most; the bound can be reached only in a file that
the run itself writes to and that comes to hold more than 524287 bytes, with more landing in it in
every other round. -/
def maxRounds : Nat := 1048576

/-- Walks through a file that was opened. -/
def content (m : WalkMode ρ) (included : String → Walk ρ → Walk ρ) (p : Folder.Path)
    (w : Walk ρ) : Walk ρ :=
  w.readOn m included p maxRounds 0 {}

/-- Walks through an included file, with `room` for so many files inside each other, and comes back
to the place of the line that names it (`_handle_include`). -/
def included (m : WalkMode ρ) : Nat → String → Walk ρ → Walk ρ
  | 0, _, w => w.stop .tooDeep
  | room + 1, name, w =>
    match w.desk.current.find name with
    | .error f => if f.ofFile then w.stop (.cannotInclude name) else w.fail f
    | .ok p =>
      ((w.onDesk (.moveTo name 1)).content m (included m room) p).andThen
        (onDesk (.moveTo w.desk.file w.desk.line))

/-- How many included files may be open inside each other. -/
def maxDepth : Nat := 10

/-- Walks through a file from its start (`lex_file`). -/
def file (m : WalkMode ρ) (name : String) (w : Walk ρ) : Walk ρ :=
  match w.desk.current.find name with
  | .error f => w.fail f
  | .ok p => { w.onDesk (.moveTo name 1) with inBlock := false }.content m (included m maxDepth) p

end Walk

end MexBridge
