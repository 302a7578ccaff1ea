import MexBridge.Fault
import MexBridge.Routine
import MexBridge.Stub.Statement
import MexBridge.Types.Context

/-!
The statements of a stub, stage by stage: declare the locals, read and check the dimensions, take
the inputs, allocate the outputs, make the call, hand back the results, release what was taken.
Each stage walks the results and the arguments once.
-/

namespace MexBridge

namespace Variable

def onGpu (v : Variable) : Bool := v.device == .gpu

/-- The local that stands for a variable in the call and afterwards (`vname`). -/
def holder (v : Variable) : Local :=
  if v.direction = .output then .output v.outLabel else .input v.inLabel

/-- The labels of the dimensions. A variable without qualifier has no place for any. -/
def dimLabels (v : Variable) : Except Fault (List Int) :=
  match v.qualifier with
  | some q => .ok (q.dims.map (·.label))
  | none => .error .missingQualifier

/-- The C type of the local of a variable (`_declare_type`). -/
def localType (v : Variable) : Except Fault String :=
  let element := if v.onGpu then Numeric.gpuType v.type else v.type
  match v.kind with
  | .object _ => .ok (element ++ "*")
  | .array _ => .ok (element ++ "*")
  | .arrayRef => .ok ("const " ++ element ++ "*")
  | .number _ _ => .ok v.type
  | .string => .ok "char*"
  | .mx => .ok (if v.direction = .input then "const mxArray*" else "mxArray*")
  | .unknown => .error (.unknownKind v.kind v.name)
  | .const => .error (.unknownKind v.kind v.name)

/-! ## Declarations -/

/-- The local of what is passed in (`_declare_in_args`). -/
def declareInput (v : Variable) : Except Fault (List Stmt) :=
  if v.direction = .output ∨ v.kind = .const then .ok []
  else do
    let type ← v.localType
    let l := Stmt.declare type (.input v.inLabel) v.kind.isPointerLocal v.name
    if v.kind.isPointerLocal && v.onGpu then
      return [l, .declare "mxGPUArray const" (.gpuInput v.inLabel) true v.name]
    else return [l]

/-- The local of what is only handed back (`_declare_out_args`). -/
def declareOutput (v : Variable) : Except Fault (List Stmt) :=
  if v.direction ≠ .output ∨ v.kind = .mx then .ok []
  else do
    let type ← v.localType
    let l := Stmt.declare type (.output v.outLabel) v.kind.isPointerLocal v.name
    if v.kind.isPointerLocal && v.onGpu then
      return [l, .declare "mxGPUArray" (.gpuOutput v.outLabel) true v.name,
        .declare "mwSize" (.gpuDims v.outLabel) true v.name]
    else return [l]

/-- The locals of dimensions (`_declare_dim_args_var`). -/
def declareDims (v : Variable) : List Stmt :=
  v.dims.map fun d => .declare "mwSize" (.dim d.label) false d.text

/-! ## Dimensions -/

/-- Reads the dimensions of a variable (`_unpack_dims_var`). -/
def getDims (v : Variable) : List Stmt := v.dims.map fun d => .getDim d.label

/-- The size of an array passed in must be the one declared (`_check_dims`). -/
def checkDims (v : Variable) : List Stmt :=
  if v.direction ≠ .output && v.kind.isArray && !v.onGpu then
    match v.dims with
    | [] => []
    | [n] => [.checkLength v.inLabel n.label v.name]
    | m :: n :: _ => [.checkMatrix v.inLabel m.label n.label v.name]
  else []

/-! ## Inputs -/

/-- Known complex types are checked for their class before they are copied; known real types that
are only read are used in place (`_unpack_input_array`). -/
def arraySource (v : Variable) : ArraySource :=
  if v.kind.isComplex && Numeric.isKnown v.type then .checkedCopy
  else if (Numeric.ofType v.type).direct && v.direction == .input then .inPlace
  else .copy

/-- Reads what is passed in (`_unpack_inputs_var`). -/
def getInput (t : TypeTable) (v : Variable) : List Stmt :=
  if v.direction = .output then []
  else
    match v.kind with
    | .object _ => [.getObject v.inLabel v.type (objectSource t v.type)]
    | .array _ =>
      if v.onGpu then
        if v.direction.isInput then [.getGpuArray v.inLabel v.type] else []
      else [.getArray v.inLabel v.type v.arraySource]
    | .number .real _ => [.getNumber v.inLabel v.type]
    | .number _ _ => [.getComplex v.inLabel v.type]
    | .string =>
      if v.dims.isEmpty then [.getString v.inLabel]
      else [.getSizedString v.inLabel (v.dims.map (·.label))]
    | .mx => [.getMx v.inLabel]
    | _ => []
where
  /-- A child may stand in for a class that has children. -/
  objectSource (t : TypeTable) (type : String) : ObjectSource :=
    if t.isMxArray type then .converted
    else if t.isParent type then .cast
    else .plain

/-- An object passed by value or by reference must exist (`_check_inputs`). -/
def checkInput (v : Variable) : List Stmt :=
  if v.direction = .output then []
  else
    match v.kind with
    | .object .value => [.checkNonNull v.inLabel v.name]
    | .object .reference => [.checkNonNull v.inLabel v.name]
    | _ => []

/-! ## Outputs -/

/-- Room for an output; objects are made for arguments only, `isResult` tells results
(`_alloc_output`). -/
def alloc (t : TypeTable) (isResult : Bool) (v : Variable) : Except Fault (List Stmt) :=
  if v.direction ≠ .output then .ok []
  else if v.onGpu then do
    match ← v.dimLabels with
    | [] => .error .missingDimension
    | [m, n] => return [.allocGpuArray v.outLabel v.type v.kind.isComplex m (some n)]
    | m :: _ => return [.allocGpuArray v.outLabel v.type v.kind.isComplex m none]
  else
    match v.kind with
    | .object _ =>
      if !isResult && t.isMxArray v.type then .ok [.allocObject v.outLabel v.type] else .ok []
    | .array _ => do return [.allocArray v.outLabel v.type (← v.dimLabels)]
    | .arrayRef => .ok [.nullArray v.outLabel v.type]
    | .string => do return [.allocString v.outLabel (← v.dimLabels)]
    | _ => .ok []

/-! ## The call -/

/-- A variable as it stands in the call (`_make_call_args`). -/
def actual (v : Variable) : Actual :=
  match v.kind with
  | .object .value => .deref v.holder
  | .object .reference => .deref v.holder
  | .mx => if v.direction = .output then .slot v.outLabel else .plain v.holder
  | .number _ .pointer => .address v.holder
  | .const => .literal v.name
  | _ => .plain v.holder

/-- What becomes of a returned value; without a way to hand it back there is no call
(`_make_stmt`). -/
def disposal (t : TypeTable) (v : Variable) : Except Fault (Option Disposal) :=
  let converts := t.isMxArray v.type
  match v.kind with
  | .object .value => .ok (some (if converts then .convertedAddress v.type else .keptCopy v.type))
  | .object .pointer => .ok (some (if converts then .converted v.type else .kept))
  | .object .reference => .ok (some (if converts then .convertedAddress v.type else .keptAddress))
  | .array _ => do return some (.copiedArray v.type (← v.dimLabels))
  | .number _ .pointer => .ok (some (.copiedNumber v.type))
  | .number _ _ => .ok (some .kept)
  | .string => .ok (some .copiedString)
  | .mx => .ok (some .returned)
  | _ => .ok none

/-! ## Results -/

/-- A GPU array goes back as it is. -/
def setGpu (v : Variable) : List Stmt :=
  match v.direction with
  | .inout => [.setSame v.outLabel v.inLabel]
  | .output => [.setGpuArray v.outLabel]
  | _ => []

/-- The source of an array that goes back without declared dimensions is the one passed in
(`_marshal_array`). -/
def setArray (byRef : Bool) (v : Variable) : Except Fault (List Stmt) := do
  let dims ← v.dimLabels
  let source := if dims.isEmpty then .input v.inLabel else v.holder
  return [.setArray v.outLabel v.inLabel v.type v.kind.isComplex byRef source (.ofDims dims)]

/-- Hands a value back (`_marshal_result`). -/
def setResult (t : TypeTable) (isResult : Bool) (v : Variable) : Except Fault (List Stmt) :=
  if v.direction = .input then .ok []
  else
    match v.kind with
    | .object _ =>
      if t.isMxArray v.type then
        if isResult then .ok [] else .ok [.setConverted v.outLabel v.type v.holder]
      else .ok [.setPointer v.outLabel v.type]
    | .array _ => if v.onGpu then .ok v.setGpu else v.setArray false
    | .arrayRef => if v.onGpu then .ok v.setGpu else v.setArray true
    | .number .real _ => .ok [.setNumber v.outLabel v.holder]
    | .number _ _ => .ok [.setComplex v.outLabel v.type v.holder]
    | .string => .ok [.setString v.outLabel v.holder]
    | _ => .ok []

/-! ## Release -/

/-- An array that is only read may have been used in place. -/
def isBorrowed (v : Variable) : Bool :=
  v.direction ≠ .inout && (v.type == "double" || v.type == "float")

/-- Gives back the room of a variable (`_dealloc_var`). -/
def release (t : TypeTable) (isResult : Bool) (v : Variable) : List Stmt :=
  if v.onGpu then
    match v.direction with
    | .input => [.destroyGpu (.gpuInput v.inLabel)]
    | .inout => [.destroyGpu (.gpuInput v.inLabel)]
    | .output => [.destroyGpu (.gpuOutput v.outLabel)]
    | .other _ => []
  else if v.kind.isArray || v.kind == .string then
    if v.direction = .output then [.free (.output v.outLabel)]
    else if v.isBorrowed then []
    else [.free (.input v.inLabel)]
  else if v.kind.isObject && t.isMxArray v.type then
    if v.direction.isInput then [.freeConverted v.type (.input v.inLabel)]
    else if v.direction = .output && !isResult then [.freeConverted v.type (.output v.outLabel)]
    else []
  else []

end Variable

namespace Routine

/-- Statements for all variables, in order, or the first fault. -/
def collect (f : Variable → Except Fault (List Stmt)) (vs : List Variable) :
    Except Fault (List Stmt) := do
  return (← vs.mapM f).flatten

/-- The results that have locals of their own. -/
def keptResults (r : Routine) : List Variable := if r.nullableReturn then [] else r.results

/-- The locals of a stub (`_declare_args`). -/
def declarations (r : Routine) : Except Fault (List Stmt) := do
  let this := match r.receiver? with
    | some name => [Stmt.declare (r.ownerName ++ "*") (.input 0) true name]
    | none => []
  let ins ← collect (·.declareInput) r.args
  let outs ← collect (·.declareOutput) (r.keptResults ++ r.args)
  let dims := (r.results ++ r.args).flatMap (·.declareDims)
  let last := if r.results.isEmpty && r.args.isEmpty && r.receiver?.isNone then [] else [Stmt.blank]
  return this ++ ins ++ outs ++ dims ++ last

/-- Reads all dimensions (`_unpack_dims`). -/
def dimReads (r : Routine) : List Stmt :=
  match (r.results ++ r.args).flatMap (·.getDims) with
  | [] => []
  | ss => ss ++ [.blank]

/-- Checks all sizes (`_check_dims`). -/
def dimChecks (r : Routine) : List Stmt := r.args.flatMap (·.checkDims)

/-- Reads all that is passed in (`_unpack_inputs`). -/
def inputReads (t : TypeTable) (r : Routine) : List Stmt :=
  (if r.receiver?.isSome then
    let source := r.owner.elim .plain (Variable.getInput.objectSource t)
    [.getObject 0 r.ownerName source] else [])
    ++ r.args.flatMap (·.getInput t)

/-- Checks all objects (`_check_inputs`). -/
def inputChecks (r : Routine) : List Stmt := r.args.flatMap (·.checkInput)

/-- Makes room for all outputs (`_alloc_outputs`). -/
def allocations (t : TypeTable) (r : Routine) : Except Fault (List Stmt) := do
  return (← collect (·.alloc t true) r.keptResults) ++ (← collect (·.alloc t false) r.args)

/-- The call of the routine (`_make_call_expr`). -/
def call (r : Routine) : Call :=
  { method := r.receiver?.isSome
    callee :=
      if r.name = "new" then .constructor r.ownerName
      else if r.fortran then .fortran r.name
      else .plain r.name
    args := r.args.map (·.actual) }

/-- The call itself, on an object that exists, with C++ exceptions caught if so set
(`_make_stmt`). -/
def callStatements (c : Context) (r : Routine) : Except Fault (List Stmt) := do
  let disposal ← match r.results with
    | v :: _ => v.disposal c.types
    | [] => .ok (some .dropped)
  return (if r.receiver?.isSome then [.checkReceiver] else [])
    ++ (if c.settings.catches then [.beginTry] else [])
    ++ (match disposal with | some d => [.call r.call d] | none => [])
    ++ (if c.settings.catches then [.endTry r.name] else [])

/-- Hands all values back (`_marshal_results`). -/
def resultWrites (t : TypeTable) (r : Routine) : Except Fault (List Stmt) := do
  return (← collect (·.setResult t true) r.keptResults) ++ (← collect (·.setResult t false) r.args)

/-- Gives back all room (`_dealloc`). -/
def releases (t : TypeTable) (r : Routine) : List Stmt :=
  r.keptResults.flatMap (·.release t true) ++ r.args.flatMap (·.release t false)

/-- All a stub does up to its error label (`_print_mex_stub`). -/
def mainStatements (c : Context) (r : Routine) : Except Fault (List Stmt) := do
  return (← r.declarations) ++ r.dimReads ++ r.dimChecks ++ r.inputReads c.types ++ r.inputChecks
    ++ (← r.allocations c.types) ++ [.recordCall r.id] ++ (← r.callStatements c)
    ++ (← r.resultWrites c.types)

end Routine

end MexBridge
