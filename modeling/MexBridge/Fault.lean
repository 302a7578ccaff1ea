import MexBridge.Kind

/-!
Failures that end a run: what the generator was asked for cannot be produced at all. Declarations
that pass through the parser meet few of these; routines put together by hand meet them all.
-/

namespace MexBridge

inductive Fault where
  /-- A local of this kind has no C type. -/
  | unknownKind (k : Kind) (name : String)
  /-- A numeric type with a mark no declaration can be written with. -/
  | unknownMark (mark : String)
  /-- An object with such a mark. -/
  | unknownObjectMark
  /-- The signature of a method without a class. -/
  | missingOwner
  /-- The dimensions of a variable without a qualifier. -/
  | missingQualifier
  /-- The first dimension of an array that has none. -/
  | missingDimension
  /-- A file to read or to write is not there, nor the folder it would be in. -/
  | missingFile
  /-- A folder stands where a file is wanted. -/
  | notAFile
  /-- A file stands where a folder is wanted. -/
  | notAFolder
  /-- A file whose name is longer than names may be. -/
  | nameTooLong
  /-- A file whose name holds a null character. -/
  | brokenName
  /-- A file that is not a text. -/
  | notText
deriving DecidableEq, Repr

/-- Whether the fault is that no file can be opened under a name. While sources are read these are
reported to the user; all other faults break the run off. -/
def Fault.ofFile : Fault → Bool
  | .missingFile => true
  | .notAFile => true
  | .notAFolder => true
  | .nameTooLong => true
  | _ => false

def Fault.message : Fault → String
  | .unknownKind k name => "Unknown tinfo " ++ toString k.code ++ " for " ++ name
  | .unknownMark mark => "Unknown qual '" ++ mark ++ "'"
  | _ => ""

end MexBridge
