import MexBridge.Notice
import MexBridge.Sheet

/-!
The desk a run works at: the files it sees, its open outputs, what it has printed, and the place
in the source it has come to.
-/

namespace MexBridge

structure Desk where
  folder : Folder := {}
  /-- The open MATLAB output. -/
  matlab : Option Sheet := none
  /-- The open C output. -/
  c : Option Sheet := none
  stdout : String := ""
  notices : List Notice := []
  /-- The file being read. -/
  file : String := ""
  /-- The number of the line being read. -/
  line : Int := 0

namespace Desk

def writeMatlab (s : String) (d : Desk) : Desk := { d with matlab := d.matlab.map (·.write s) }

def writeC (s : String) (d : Desk) : Desk := { d with c := d.c.map (·.write s) }

/-- Writes pieces to the C output one after the other. -/
def writeAllC (ss : List String) (d : Desk) : Desk := { d with c := d.c.map (·.writeAll ss) }

def report (ns : List Notice) (d : Desk) : Desk := { d with notices := d.notices ++ ns }

def print (s : String) (d : Desk) : Desk := { d with stdout := d.stdout ++ s ++ "\n" }

/-- The open outputs, the MATLAB output first. -/
def outputs (d : Desk) : List Sheet := d.matlab.toList ++ d.c.toList

/-- The files as they are read now, with what has landed of open outputs. -/
def current (d : Desk) : Folder := Sheet.landAll d.outputs d.folder

def closeMatlab (d : Desk) : Desk :=
  { d with folder := Sheet.closeAll d.matlab.toList d.folder, matlab := none }

/-- Closes the outputs in the given order. -/
def closeIn (order : List Sheet) (d : Desk) : Desk :=
  { d with folder := Sheet.closeAll order d.folder, matlab := none, c := none }

/-- Closes all outputs in the midst of a run. -/
def abandonOutputs (d : Desk) : Desk := d.closeIn d.outputs

/-- Closes all outputs at the end; the MATLAB output of a batch stays open longer than the C
output. -/
def closeOutputs (d : Desk) : Desk :=
  d.closeIn (if d.matlab.any (·.batch) then d.outputs.reverse else d.outputs)

/-- Opens a file as the MATLAB output. -/
def openMatlab (batch : Bool) (name : String) (d : Desk) : Except Fault Desk := do
  let (folder, p) ← d.folder.create name
  return { d with folder := folder, matlab := some { file := some p, batch := batch } }

/-- Opens a file as the C output. -/
def openC (name : String) (d : Desk) : Except Fault Desk := do
  let (folder, p) ← d.folder.create name
  return { d with folder := folder, c := some { file := some p } }

def moveTo (file : String) (line : Int) (d : Desk) : Desk := { d with file := file, line := line }

def nextLine (d : Desk) : Desk := { d with line := d.line + 1 }

end Desk

end MexBridge
