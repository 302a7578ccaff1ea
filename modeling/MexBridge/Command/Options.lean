import MexBridge.Text.Digit
import MexBridge.Text.Quoted
import MexBridge.Types.Context

/-!
The command line. An option may be cut short where that leaves one choice, a value may follow its
option in the next argument, after `=`, or directly after a one-letter option, and input files
stand together in one place. What follows the `=` of an option that takes no value is a one-letter
option with its value. After `--` every argument is a file.
-/

namespace MexBridge.Command

inductive Flag where
  | help
  | matlab
  | c
  | mex
  | batching
  | listing
  | catches
  | i8
  | c99
  | cpp
  | gpu
deriving DecidableEq, Repr

namespace Flag

def all : List Flag :=
  [.help, .matlab, .c, .mex, .batching, .listing, .catches, .i8, .c99, .cpp, .gpu]

def spelling : Flag → String
  | .help => "--help"
  | .matlab => "-m"
  | .c => "-c"
  | .mex => "-mex"
  | .batching => "-mb"
  | .listing => "-list"
  | .catches => "-catch"
  | .i8 => "-i8"
  | .c99 => "-c99complex"
  | .cpp => "-cppcomplex"
  | .gpu => "-gpu"

def takesValue : Flag → Bool
  | .matlab => true
  | .c => true
  | .mex => true
  | _ => false

def ofSpelling? (s : String) : Option Flag := all.find? (·.spelling == s)

end Flag

/-- What is wrong with a command line. -/
inductive Misuse where
  | ambiguous (arg : String) (choices : List Flag)
  | missingValue (f : Flag)
  | unwantedValue (f : Flag) (value : String)
  | unrecognized (args : List String)
deriving DecidableEq, Repr

def Misuse.text : Misuse → String
  | .ambiguous arg choices =>
    "ambiguous option: " ++ arg ++ " could match "
      ++ ", ".intercalate (choices.map (·.spelling))
  | .missingValue f => "argument " ++ f.spelling ++ ": expected one argument"
  | .unwantedValue f value =>
    "argument " ++ f.spelling ++ ": ignored explicit argument " ++ Text.quoted value
  | .unrecognized args => "unrecognized arguments: " ++ " ".intercalate args

/-- One argument, taken by itself. -/
inductive Arg where
  | file (s : String)
  | flag (f : Flag) (value : Option String)
  | unknown (s : String)
  /-- `--`, after which all are files. -/
  | divider
deriving DecidableEq, Repr

/-- A number below zero: digits, perhaps with a point before the last of them. -/
def isNegativeNumber (cs : List Char) : Bool :=
  match cs with
  | '-' :: r =>
    let r := if r.getLast? = some '\n' then r.dropLast else r
    let after := r.dropWhile Text.isDecimal
    match after with
    | [] => !r.isEmpty
    | '.' :: ds => !ds.isEmpty && ds.all Text.isDecimal
    | _ => false
  | _ => false

/-- Splits at the first `=`. -/
def splitValue (cs : List Char) : List Char × Option String :=
  match cs.dropWhile (· != '=') with
  | [] => (cs, none)
  | _ :: v => (cs.takeWhile (· != '='), some (String.ofList v))

/-- All readings of an argument that is no exact option: as a longer option cut short, or as a
one-letter option with its value. -/
def readings (cs : List Char) : List (Flag × Option String) :=
  if ['-', '-'].isPrefixOf cs then
    let (name, value) := splitValue cs
    (Flag.all.filter fun f => name.isPrefixOf f.spelling.toList).map fun f => (f, value)
  else
    Flag.all.filterMap fun f =>
      let name := f.spelling.toList
      if name = cs.take 2 then some (f, some (String.ofList (cs.drop 2)))
      else if cs.isPrefixOf name then some (f, none)
      else none

/-- Option, file or neither. -/
def classify (s : String) : Except Misuse Arg :=
  let cs := s.toList
  match cs with
  | '-' :: _ =>
    match Flag.ofSpelling? s with
    | some f => .ok (.flag f none)
    | none =>
      if cs.length = 1 then .ok (.file s)
      else
        let (name, value) := splitValue cs
        match value, Flag.ofSpelling? (String.ofList name) with
        | some v, some f => .ok (.flag f (some v))
        | _, _ =>
          match readings cs with
          | [(f, v)] => .ok (.flag f v)
          | [] => .ok (if isNegativeNumber cs || ' ' ∈ cs then .file s else .unknown s)
          | fs => .error (.ambiguous s (fs.map (·.1)))
  | _ => .ok (.file s)

/-- Takes apart an option without value that has one attached: the value is a one-letter option
and, unless it ends there, the value of that. Options with two dashes are left alone. -/
def Arg.split : Arg → List Arg
  | .flag f (some value) =>
    match f.takesValue || ['-', '-'].isPrefixOf f.spelling.toList, value.toList with
    | false, c :: rest =>
      match Flag.ofSpelling? (String.ofList ['-', c]) with
      | some g => [.flag f none, .flag g (if rest.isEmpty then none else some (String.ofList rest))]
      | none => [.flag f (some value)]
    | _, _ => [.flag f (some value)]
  | a => [a]

def classifyAll : List String → Except Misuse (List Arg)
  | [] => .ok []
  | "--" :: rest => .ok (.divider :: rest.map .file)
  | s :: rest => do return (← classify s).split ++ (← classifyAll rest)

structure Options where
  help : Bool := false
  matlab : Option String := none
  c : Option String := none
  mex : String := "mexfunction"
  batching : Bool := false
  listing : Bool := false
  settings : Settings := {}
  inputs : List String := []
deriving DecidableEq, Repr

namespace Options

/-- Sets an option. Where a value is wanted and there is none, no file is named, and the gateway
has the name `[]`. -/
def set (o : Options) (value : Option String) : Flag → Options
  | .help => { o with help := true }
  | .matlab => { o with matlab := value }
  | .c => { o with c := value }
  | .mex => { o with mex := value.getD "[]" }
  | .batching => { o with batching := true }
  | .listing => { o with listing := true }
  | .catches => { o with settings := { o.settings with catches := true } }
  | .i8 => { o with settings := { o.settings with promotion := .wide } }
  | .c99 => { o with settings := { o.settings with c99 := true } }
  | .cpp => { o with settings := { o.settings with cpp := true } }
  | .gpu => { o with settings := { o.settings with gpu := true } }

end Options

/-- Where the group of input files stands. -/
inductive Place where
  | before
  | inside
  | after
deriving DecidableEq, Repr

/-- The group ends with the first option behind it. -/
def Place.leave : Place → Place
  | .before => .before
  | _ => .after

/-- An attached value; `--` stands for none. -/
def attached (value : String) : Option String := if value = "--" then none else some value

/-- Goes through the arguments; files outside the first group and unknown options are extras. -/
def collect (o : Options) (extras : List String) :
    Place → List Arg → Except Misuse (Options × List String)
  | _, [] => .ok (o, extras)
  | p, .file s :: rest =>
    if p = .after then collect o (extras ++ [s]) p rest
    else collect { o with inputs := o.inputs ++ [s] } extras .inside rest
  | p, .divider :: rest =>
    if p = .after then collect o (extras ++ ["--"]) p rest
    else collect o extras .inside rest
  | p, .unknown s :: rest => collect o (extras ++ [s]) p.leave rest
  | p, .flag f (some v) :: rest =>
    if f.takesValue then collect (o.set (attached v) f) extras p.leave rest
    else .error (.unwantedValue f v)
  | p, .flag f none :: rest =>
    if f.takesValue then
      match rest with
      | .file s :: rest => collect (o.set (some s) f) extras p.leave rest
      | _ => .error (.missingValue f)
    else collect (o.set none f) extras p.leave rest

/-- The options an argument list sets (`_build_parser`). -/
def Options.parse (args : List String) : Except Misuse Options := do
  let (o, extras) ← collect {} [] .before (← classifyAll args)
  if extras.isEmpty then return o else throw (.unrecognized extras)

end MexBridge.Command
