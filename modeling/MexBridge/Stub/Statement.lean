import MexBridge.Stub.Code
import MexBridge.Stub.Numeric
import MexBridge.Text.Layout

/-!
Statements of a stub. Each constructor is one step of what a stub does; `code` is the C text of
the step.
-/

namespace MexBridge

/-- How a pointer to an object is taken from a MATLAB argument (`_cast_get_p`). -/
inductive ObjectSource where
  /-- Made from the argument by user code. -/
  | converted
  /-- Read from the argument. -/
  | plain
  /-- Read from the argument, where a child class will do as well. -/
  | cast
deriving DecidableEq, Repr

/-- How an array is taken from a MATLAB argument. -/
inductive ArraySource where
  /-- Copied, once the class of the argument is checked. -/
  | checkedCopy
  /-- Used in place, once the class of the argument is checked. -/
  | inPlace
  | copy
deriving DecidableEq, Repr

/-- An argument in the call of the wrapped function. -/
inductive Actual where
  | plain (l : Local)
  | deref (l : Local)
  | address (l : Local)
  /-- The place of a left-hand argument, for the function to fill. -/
  | slot (k : Int)
  | literal (text : String)
deriving DecidableEq, Repr

inductive Callee where
  | plain (name : String)
  | fortran (name : String)
  | constructor (type : String)
deriving DecidableEq, Repr

/-- The call of the wrapped function. -/
structure Call where
  /-- Called on the object in the first argument. -/
  method : Bool
  callee : Callee
  args : List Actual
deriving DecidableEq, Repr

/-- What becomes of the value of the call. -/
inductive Disposal where
  | dropped
  /-- Kept in a local. -/
  | kept
  /-- Its address is kept in a local. -/
  | keptAddress
  /-- A copy on the heap is kept in a local. -/
  | keptCopy (type : String)
  /-- It is the left-hand argument. -/
  | returned
  /-- Its target is converted by user code. -/
  | converted (type : String)
  /-- It is converted by user code through its address. -/
  | convertedAddress (type : String)
  /-- Its target is copied as a string. -/
  | copiedString
  /-- Its target is copied as one number. -/
  | copiedNumber (type : String)
  /-- Its target is copied as an array with these dimensions. -/
  | copiedArray (type : String) (dims : List Int)
deriving DecidableEq, Repr

/-- The shape of a result matrix. -/
inductive Shape where
  /-- That of the argument passed in. -/
  | same
  | column (dims : List Int)
  | matrix (rows cols : Int)
deriving DecidableEq, Repr

def Shape.ofDims : List Int → Shape
  | [] => .same
  | [m, n] => .matrix m n
  | ds => .column ds

inductive Stmt where
  | blank
  /-- Declares a local, with what it holds as a remark. -/
  | declare (type : String) (l : Local) (zeroed : Bool) (remark : String)
  | getDim (k : Int)
  | checkMatrix (k rows cols : Int) (name : String)
  | checkLength (k n : Int) (name : String)
  | getObject (k : Int) (type : String) (source : ObjectSource)
  | getArray (k : Int) (type : String) (source : ArraySource)
  | getGpuArray (k : Int) (type : String)
  | getString (k : Int)
  | getSizedString (k : Int) (dims : List Int)
  | getNumber (k : Int) (type : String)
  | getComplex (k : Int) (type : String)
  | getMx (k : Int)
  | checkNonNull (k : Int) (name : String)
  | allocObject (k : Int) (type : String)
  | allocArray (k : Int) (type : String) (dims : List Int)
  | nullArray (k : Int) (type : String)
  | allocString (k : Int) (dims : List Int)
  | allocGpuArray (k : Int) (type : String) (isComplex : Bool) (rows : Int) (cols : Option Int)
  | recordCall (id : Int)
  | checkReceiver
  | beginTry
  | call (c : Call) (d : Disposal)
  | endTry (name : String)
  | setConverted (k : Int) (type : String) (l : Local)
  | setPointer (k : Int) (type : String)
  /-- Copies an array into a new matrix; `k` is its place on the left, `i` on the right. -/
  | setArray (k i : Int) (type : String) (isComplex byRef : Bool) (l : Local) (shape : Shape)
  | setNumber (k : Int) (l : Local)
  | setComplex (k : Int) (type : String) (l : Local)
  | setString (k : Int) (l : Local)
  | setSame (k i : Int)
  | setGpuArray (k : Int)
  | free (l : Local)
  | freeConverted (type : String) (l : Local)
  | destroyGpu (l : Local)
deriving DecidableEq, Repr

def Actual.code : Actual → Code
  | .plain l => [l]
  | .deref l => ["*", l]
  | .address l => ["&", l]
  | .slot k => [.lhsAddress k]
  | .literal s => [s]

def Callee.text : Callee → String
  | .plain n => n
  | .fortran n => "MWF77_" ++ n
  | .constructor t => "new " ++ t

def Call.code (c : Call) : Code :=
  Code.seq [
    if c.method then [Local.input 0, "->"] else [],
    [Piece.text (c.callee.text ++ "(")],
    List.intercalate [Piece.text ", "] (c.args.map (·.code)),
    [")"]]

/-- The statement that makes the call. -/
def Disposal.code (call : Code) : Disposal → Code
  | .dropped => Code.seq [["    "], call, [";\n"]]
  | .kept => Code.seq [["    ", Local.output 0, " = "], call, [";\n"]]
  | .keptAddress => Code.seq [["    ", Local.output 0, " = &("], call, [");\n"]]
  | .keptCopy t => Code.seq [["    ", Local.output 0, " = new " ++ t ++ "("], call, [");\n"]]
  | .returned => Code.seq [["    ", .lhs 0, " = "], call, [";\n"]]
  | .converted t => Code.seq [["    ", .lhs 0, " = mxWrapSet_" ++ t ++ "("], call, [");\n"]]
  | .convertedAddress t =>
    Code.seq [["    ", .lhs 0, " = mxWrapSet_" ++ t ++ "(&("], call, ["));\n"]]
  | .copiedString => Code.seq [["    ", .lhs 0, " = mxWrapStrncpy("], call, [");\n"]]
  | .copiedNumber t =>
    Code.seq [["    ", .lhs 0, " = mxWrapReturn_" ++ t ++ "("], call, [", 1, 1);\n"]]
  | .copiedArray t dims =>
    Code.seq [["    ", .lhs 0, " = mxWrapReturn_" ++ t ++ "("], call, [", "],
      match dims with
      | [m, n] => [" ", Local.dim m, ", ", Local.dim n, ");\n"]
      | ds => Code.seq [Code.product ds, [", 1);\n"]]]

/-- Leaves for the end of the stub if an error text is set. -/
def leaveOnError : Code := ["    if (mw_err_txt_)\n        goto mw_err_label;\n"]

/-- Sets an error unless the argument has the class wanted. -/
def classCheck (margin : String) (k : Int) (what cls : String) : Code :=
  [margin ++ "if( mxGetClassID(", .rhs k, ") != " ++ cls ++ " )\n",
    margin ++ "    mw_err_txt_ = \"Invalid " ++ what ++ " argument, " ++ cls ++ " expected\";\n",
    margin ++ "if (mw_err_txt_) goto mw_err_label;\n"]

/-- Takes an array that is not empty. -/
def ArraySource.code (k : Int) (type : String) (s : ArraySource) : Code :=
  let n := Numeric.ofType type
  let copy : Code :=
    ["        ", Local.input k, " = mxWrapGetArray_" ++ Numeric.copierMark type ++ type ++ "(",
      .rhs k, ", &mw_err_txt_);\n        if (mw_err_txt_)\n            goto mw_err_label;\n"]
  match s with
  | .copy => copy
  | .checkedCopy => Code.seq [classCheck "        " k "array" n.mxClass, copy]
  | .inPlace =>
    Code.seq [
      classCheck "        " k "array" n.mxClass,
      Code.either .layout
        ["        ", Local.input k, " = " ++ n.accessor.getD "" ++ "(", .rhs k, ");\n"]
        ["        ", Local.input k,
          if type = "double" then " = mxGetPr(" else " = (" ++ type ++ "*) mxGetData(", .rhs k,
          ");\n"]]

/-- The number of rows times the number of columns of an argument. -/
def sizeOfArgument (k : Int) : Code := ["mxGetM(", .rhs k, ")*mxGetN(", .rhs k, ")"]

namespace Shape

/-- Rows and columns, as `mxCreateDoubleMatrix` takes them. -/
def extent (i : Int) : Shape → Code
  | .same => ["mxGetM(", .rhs i, "), mxGetN(", .rhs i, ")"]
  | .column ds => Code.seq [Code.product ds, [", 1"]]
  | .matrix m n => [Local.dim m, Piece.text ", ", Local.dim n]

/-- The number of elements. -/
def count (i : Int) : Shape → Code
  | .same => sizeOfArgument i
  | .column ds => Code.product ds
  | .matrix m n => [Local.dim m, Piece.text "*", Local.dim n]

end Shape

/-- Makes a matrix and copies the array in `l` into it. -/
def setArrayCode (margin : String) (k i : Int) (type : String) (isComplex : Bool) (l : Local)
    (shape : Shape) : Code :=
  let reality := if isComplex then "mxCOMPLEX" else "mxREAL"
  let single := (Numeric.ofType type).single
  Code.seq [
    [margin, .lhs k,
      if single then " = mxCreateNumericMatrix(" else " = mxCreateDoubleMatrix("],
    shape.extent i,
    [(if single then ", mxSINGLE_CLASS, " else ", ") ++ reality ++ ");\n",
      margin ++ "mxWrapCopy_" ++ Numeric.copierMark type ++ type ++ "(", .lhs k, ", ", l, ", "],
    shape.count i,
    [");\n"]]

/-- A remark, padded so that declarations line up. -/
def remarkText (s : String) : String := "/* " ++ Text.padRight 10 s

/-- The declaration of a local; handles of GPU arrays start as null whatever `zeroed` says. -/
def declareCode (type : String) (l : Local) (zeroed : Bool) (remark : String) : Code :=
  let head := "    " ++ Text.padRight 10 type
  let note := remarkText remark ++ " */\n"
  match l with
  | .input _ => [head ++ "  ", l, (if zeroed then " =0; " else ";    ") ++ note]
  | .output _ => [head ++ "  ", l, (if zeroed then "=0; " else ";   ") ++ note]
  | .dim _ => [head ++ "  ", l, ";   " ++ note]
  | .gpuInput _ => [head ++ " *", l, " =0; " ++ note]
  | .gpuOutput _ => [head ++ " *", l, " =0; " ++ note]
  | .gpuDims _ => [head ++ " ", l, "[2] = \x7b0,0\x7d; " ++ remarkText remark ++ " dims*/\n"]

namespace Stmt

def code : Stmt → Code
  | .blank => ["\n"]
  | .declare type l zeroed remark => declareCode type l zeroed remark
  | .getDim k =>
    ["    ", Local.dim k, " = (mwSize) mxWrapGetScalar(", .rhs k, ", &mw_err_txt_);\n"]
  | .checkMatrix k rows cols name =>
    ["    if (mxGetM(", .rhs k, ") != ", Local.dim rows, " ||\n        mxGetN(", .rhs k, ") != ",
      Local.dim cols, ") \x7b\n        mw_err_txt_ = \"Bad argument size: " ++ name ++ "\";\n",
      "        goto mw_err_label;\n    \x7d\n\n"]
  | .checkLength k n name =>
    Code.seq [["    if ("], sizeOfArgument k,
      [" != ", Local.dim n, ") \x7b\n        mw_err_txt_ = \"Bad argument size: " ++ name ++ "\";",
        "        goto mw_err_label;\n    \x7d\n\n"]]
  | .getObject k type source =>
    Code.seq [["    ", Local.input k, " = "],
      match source with
      | .converted => ["mxWrapGet_" ++ type ++ "(", .rhs k]
      | .plain => ["(" ++ type ++ "*) mxWrapGetP(", .rhs k, ", \"" ++ type ++ ":%p\""]
      | .cast => ["mxWrapGetP_" ++ type ++ "(", .rhs k],
      [", &mw_err_txt_);\n"], leaveOnError, ["\n"]]
  | .getArray k type source =>
    Code.seq [["    if ("], sizeOfArgument k, [" != 0) \x7b\n"], source.code k type,
      ["    \x7d else\n        ", Local.input k, " = NULL;\n\n"]]
  | .getGpuArray k type =>
    ["    // extract input GPU array pointer\n    if(!(mxIsGPUArray(", .rhs k, ")))\n",
      "        mw_err_txt_ = \"Invalid array argument, gpuArray expected\";\n",
      "    if (mw_err_txt_) goto mw_err_label;\n    ", Local.gpuInput k,
      " = mxGPUCreateFromMxArray(", .rhs k, ");\n    ", Local.input k,
      " = (" ++ Numeric.gpuType type ++ " *)mxGPUGetDataReadOnly(", Local.gpuInput k, ");\n\n"]
  | .getString k =>
    Code.seq [["    ", Local.input k, " = mxWrapGetString(", .rhs k, ", &mw_err_txt_);\n"],
      leaveOnError, ["\n"]]
  | .getSizedString k dims =>
    Code.seq [["    ", Local.input k, " = (char*) mxMalloc("], Code.product dims,
      ["*sizeof(char));\n    if (mxGetString(", .rhs k, ", ", Local.input k, ", "],
      Code.product dims,
      [") != 0) \x7b\n        mw_err_txt_ = \"Invalid string argument\";\n",
        "        goto mw_err_label;\n    \x7d\n\n"]]
  | .getNumber k type =>
    Code.seq [classCheck "    " k "scalar" (Numeric.ofType type).scalarClass,
      ["    ", Local.input k,
        " = (" ++ type ++ ") " ++ (Numeric.ofType type).scalarGetter ++ "(", .rhs k,
        ", &mw_err_txt_);\n"],
      leaveOnError, if type = "char" then [] else ["\n"]]
  | .getComplex k type =>
    Code.seq [classCheck "    " k "scalar" (Numeric.ofType type).scalarClass,
      ["    mxWrapGetScalar_" ++ Numeric.copierMark type ++ type ++ "(&", Local.input k, ", ",
        .rhs k, ");\n\n"]]
  | .getMx k => ["    ", Local.input k, " = ", .rhs k, ";\n\n"]
  | .checkNonNull k name =>
    ["    if (!", Local.input k,
      ") \x7b\n        mw_err_txt_ = \"Argument " ++ name ++ " cannot be null\";\n",
      "        goto mw_err_label;\n    \x7d\n"]
  | .allocObject k type => ["    ", Local.output k, " = mxWrapAlloc_" ++ type ++ "();\n"]
  | .allocArray k type dims =>
    Code.seq [["    ", Local.output k, " = (" ++ type ++ "*) mxMalloc("], Code.product dims,
      ["*sizeof(" ++ type ++ "));\n"]]
  | .nullArray k type => ["    ", Local.output k, " = (" ++ type ++ "*) NULL;\n"]
  | .allocString k dims =>
    Code.seq [["    ", Local.output k, " = (char*) mxMalloc("], Code.product dims,
      ["*sizeof(char));\n"]]
  | .allocGpuArray k type isComplex rows cols =>
    Code.seq [["    ", Local.gpuDims k, "[0] = ", Local.dim rows],
      match cols with
      | some n => ["; ", Local.gpuDims k, "[1] = ", Local.dim n]
      | none => [],
      [";\n    ", Local.gpuOutput k,
        " = mxGPUCreateGPUArray(" ++ (if cols.isSome then "2" else "1") ++ ", ", Local.gpuDims k,
        ", " ++ (Numeric.ofType type).mxClass ++ ", "
          ++ (if isComplex then "mxCOMPLEX" else "mxREAL") ++ ", MX_GPU_DO_NOT_INITIALIZE);\n    ",
        Local.output k, " = (" ++ Numeric.gpuType type ++ " *)mxGPUGetData(", Local.gpuOutput k,
        ");\n\n"]]
  | .recordCall id =>
    ["    if (mexprofrecord_)\n        mexprofrecord_[" ++ toString id ++ "]++;\n"]
  | .checkReceiver =>
    ["    if (!", Local.input 0, ") \x7b\n        mw_err_txt_ = \"Cannot dispatch to NULL\";\n",
      "        goto mw_err_label;\n    \x7d\n"]
  | .beginTry => ["    try \x7b\n    "]
  | .call c d => d.code c.code
  | .endTry name =>
    Code.seq [["    \x7d catch(...) \x7b\n",
        "        mw_err_txt_ = \"Caught C++ exception from " ++ name ++ "\";\n    \x7d\n"],
      leaveOnError]
  | .setConverted k type l => ["    ", .lhs k, " = mxWrapSet_" ++ type ++ "(", l, ");\n"]
  | .setPointer k type =>
    ["    ", .lhs k, " = mxWrapCreateP(", Local.output k, ", \"" ++ type ++ ":%p\");\n"]
  | .setArray k i type isComplex byRef l shape =>
    if byRef then
      Code.either (.null (.output k))
        ["        ", .lhs k, " = mxCreateDoubleMatrix(0,0, mxREAL);\n"]
        (setArrayCode "        " k i type isComplex l shape)
    else setArrayCode "    " k i type isComplex l shape
  | .setNumber k l =>
    let create : Code := ["    ", .lhs k, " = mxCreateDoubleMatrix(1, 1, mxREAL);\n"]
    Code.either .layout (Code.seq [create, ["    *mxGetDoubles(", .lhs k, ") = ", l, ";\n"]])
      (Code.seq [create, ["    *mxGetPr(", .lhs k, ") = ", l, ";\n"]])
  | .setComplex k type l =>
    let create : Code := ["    ", .lhs k, " = mxCreateDoubleMatrix(1, 1, mxCOMPLEX);\n"]
    let re : Code := ["real_" ++ type ++ "(", l, ");\n"]
    let im : Code := ["imag_" ++ type ++ "(", l, ");\n"]
    Code.either .layout
      (Code.seq [create, ["    mxGetComplexDoubles(", .lhs k, ")->real = "], re,
        ["    mxGetComplexDoubles(", .lhs k, ")->imag = "], im])
      (Code.seq [create, ["    *mxGetPr(", .lhs k, ") = "], re,
        ["    *mxGetPi(", .lhs k, ") = "], im])
  | .setString k l => ["    ", .lhs k, " = mxCreateString(", l, ");\n"]
  | .setSame k i => ["    ", .lhs k, " = ", .rhs i, ";\n"]
  | .setGpuArray k => ["    ", .lhs k, " = mxGPUCreateMxArrayOnGPU(", Local.gpuOutput k, ");\n"]
  | .free l => ["    if (", l, ")" ++ gap l ++ "mxFree(", l, ");\n"]
  | .freeConverted type l => ["    if (", l, ")" ++ gap l ++ "mxWrapFree_" ++ type ++ "(", l, ");\n"]
  | .destroyGpu l => ["    if (", l, ")  mxGPUDestroyGPUArray(", l, ");\n"]
where
  /-- Calls on input and output locals line up. -/
  gap : Local → String
    | .output _ => " "
    | _ => "  "

def render (s : Stmt) : String := s.code.render

end Stmt

/-- The text of a list of statements. -/
def renderAll (ss : List Stmt) : String := String.join (ss.map (·.render))

end MexBridge
