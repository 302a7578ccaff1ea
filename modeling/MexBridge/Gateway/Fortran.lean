import MexBridge.Routine
import MexBridge.Text.LetterCase

/-!
FORTRAN routines in a gateway file: the linker name of each under four conventions, and a
prototype of each. A name used by several routines is written once, for the first of them.
-/

namespace MexBridge.Gateway

/-- Keeps the first of the routines with one name. -/
def firstOfName : List String → List Routine → List Routine
  | _, [] => []
  | seen, r :: rs =>
    if seen.contains r.name then firstOfName seen rs else r :: firstOfName (r.name :: seen) rs

/-- The FORTRAN routines, each name once (`_fortran_funcs`). -/
def fortranRoutines (gs : List Group) : List Routine :=
  firstOfName [] ((gs.map (·.first)).filter (·.fortran))

/-- Whether there is a FORTRAN routine (`has_fortran`). -/
def hasFortran (gs : List Group) : Bool := gs.any (·.first.fortran)

/-- How linker names are made. -/
inductive Mangling where
  | capitals
  | oneUnderscore
  | plain
  /-- One underscore, or two after a name that holds one. -/
  | f2c
deriving DecidableEq, Repr

def Mangling.apply (name : String) : Mangling → String
  | .capitals => Text.upper name
  | .oneUnderscore => Text.lower name ++ "_"
  | .plain => Text.lower name
  | .f2c => Text.lower name ++ (if '_' ∈ (Text.lower name).toList then "__" else "_")

def manglingLines (rs : List Routine) (m : Mangling) : String :=
  String.join (rs.map fun r => "#define MWF77_" ++ r.name ++ " " ++ m.apply r.name ++ "\n")

/-- The linker names of the FORTRAN routines (`mex_define_fnames`). -/
def fortranNames (gs : List Group) : String :=
  let rs := fortranRoutines gs
  "#if defined(MWF77_CAPS)\n" ++ manglingLines rs .capitals
    ++ "#elif defined(MWF77_UNDERSCORE1)\n" ++ manglingLines rs .oneUnderscore
    ++ "#elif defined(MWF77_UNDERSCORE0)\n" ++ manglingLines rs .plain
    ++ "#else /* f2c convention */\n" ++ manglingLines rs .f2c
    ++ "#endif\n\n"

/-- The type of a parameter in a prototype (`_mex_fortran_arg`). -/
def parameterType (v : Variable) : String :=
  if v.kind = .mx then "const mxArray*" else v.type ++ "*"

def prototype (r : Routine) : String :=
  (match r.results with | v :: _ => v.type ++ " " | [] => "MWF77_RETURN ")
    ++ "MWF77_" ++ r.name ++ "(" ++ ", ".intercalate (r.args.map parameterType) ++ ");\n"

/-- The prototypes of the FORTRAN routines (`mex_fortran_decls`). -/
def fortranPrototypes (gs : List Group) : String :=
  "#ifdef __cplusplus\nextern \"C\" \x7b /* Prevent C++ name mangling */\n#endif\n\n"
    ++ "#ifndef MWF77_RETURN\n#define MWF77_RETURN int\n#endif\n\n"
    ++ String.join ((fortranRoutines gs).map prototype)
    ++ "\n#ifdef __cplusplus\n\x7d /* end extern C */\n#endif\n\n"

end MexBridge.Gateway
