import MexBridge.Gateway.Dispatch
import MexBridge.Gateway.Fortran
import MexBridge.Gateway.Helpers
import MexBridge.Stub.Printer

/-!
The gateway file: a header written before anything else, C lines of the user, and at the end the
helpers, the stubs and the function MATLAB calls.
-/

namespace MexBridge.Gateway

/-- Complex numbers of C++ (`mex_cpp_complex`). -/
def cppComplex : String :=
  "#include <complex>\n\n"
    ++ "typedef std::complex<double> dcomplex;\n"
    ++ "#define real_dcomplex(z) std::real(z)\n"
    ++ "#define imag_dcomplex(z) std::imag(z)\n"
    ++ "#define setz_dcomplex(z,r,i)  *z = dcomplex(r,i)\n\n"
    ++ "typedef std::complex<float> fcomplex;\n"
    ++ "#define real_fcomplex(z) std::real(z)\n"
    ++ "#define imag_fcomplex(z) std::imag(z)\n"
    ++ "#define setz_fcomplex(z,r,i)  *z = fcomplex(r,i)\n\n"

/-- Complex numbers of C99 (`mex_c99_complex`). -/
def c99Complex : String :=
  "#include <complex.h>\n\n"
    ++ "typedef _Complex double dcomplex;\n"
    ++ "#define real_dcomplex(z) creal(z)\n"
    ++ "#define imag_dcomplex(z) cimag(z)\n"
    ++ "#define setz_dcomplex(z,r,i)  *z = r + i*_Complex_I\n\n"
    ++ "typedef _Complex float fcomplex;\n"
    ++ "#define real_fcomplex(z) crealf(z)\n"
    ++ "#define imag_fcomplex(z) cimagf(z)\n"
    ++ "#define setz_fcomplex(z,r,i)  *z = r + i*_Complex_I\n\n"

def banner : String :=
  "/* --------------------------------------------------- */\n"
    ++ "/* Automatically generated by mwrap                    */\n"
    ++ "/* --------------------------------------------------- */\n\n"

/-- Banner, support code, and what the settings call for (`print_mex_init`). C99 complex numbers win
over C++. -/
def headerParts (s : Settings) (support : String) : List String :=
  [banner, support, "\n"]
    ++ (if s.gpu then ["#include <gpu/mxGPUArray.h>\n\n"] else [])
    ++ (if s.c99 then [c99Complex]
      else if s.cpp then cppComplex :: (if s.gpu then ["#include <cuComplex.h>\n\n"] else [])
      else [])

def header (s : Settings) (support : String) : String := String.join (headerParts s support)

/-- The function MATLAB calls, up to the dispatch on signatures (`MEX_BASE`). -/
def entryHead : String :=
  "/* ----\n */\n"
    ++ "void mexFunction(int nlhs, mxArray* plhs[],\n"
    ++ "                 int nrhs, const mxArray* prhs[])\n\x7b\n"
    ++ "    if (nrhs == 0) \x7b\n"
    ++ "        mexPrintf(\"Mex function installed\\n\");\n"
    ++ "        return;\n"
    ++ "    \x7d\n\n"
    ++ "    /* Fast path: integer stub ID */\n"
    ++ "    if (!mxIsChar(prhs[0])) \x7b\n"
    ++ "        int stub_id = (int) mxGetScalar(prhs[0]);\n"
    ++ "        if (stub_id > 0 && stub_id <= mwNumStubs_ && mwStubs_[stub_id])\n"
    ++ "            mwStubs_[stub_id](nlhs, plhs, nrhs-1, prhs+1);\n"
    ++ "        else\n"
    ++ "            mexErrMsgTxt(\"Unknown function ID\");\n"
    ++ "        return;\n"
    ++ "    \x7d\n\n"

def entryId : String :=
  "    char id[1024];\n"
    ++ "    if (mxGetString(prhs[0], id, sizeof(id)) != 0)\n"
    ++ "        mexErrMsgTxt(\"Identifier should be a string\");\n"

/-- The stubs of all groups (`_print_mex_stubs`). -/
def stubSection (c : Context) (gs : List Group) : Except Fault String := do
  return String.join (← gs.mapM (·.stub c))

/-- The groups whose signatures are written: all, or those up to the first stub that fails. -/
def writtenSignatures (c : Context) : List Group → List Group
  | [] => []
  | g :: gs => g :: match g.stub c with
    | .ok _ => writtenSignatures c gs
    | .error _ => []

/-- Writing signatures notes their base types once more. -/
def contextAfterStubs (c : Context) (gs : List Group) : Context :=
  (writtenSignatures c gs).foldl (fun c g => c.note g.first.signedTypes) c

/-- Whether a type of fixed width is in use. -/
def needsFixedWidths (u : Usage) : Bool :=
  ["int32_t", "int64_t", "uint32_t", "uint64_t"].any u.contains

/-- The part of the file that follows the user's lines (`print_mex_file`). -/
def body (c : Context) (gs : List Group) : Except Fault String := do
  let stubs ← stubSection c gs
  return (if needsFixedWidths c.usage then "#include <stdint.h>\n\n" else "")
    ++ copierSection c ++ castSection c.types
    ++ (if hasFortran gs then fortranNames gs ++ fortranPrototypes gs else "")
    ++ stubs ++ tableSection gs ++ entryHead ++ "\n"
    ++ (if c.settings.gpu then "    mxInitGPU();\n" else "")
    ++ "\n" ++ entryId ++ caseSection gs ++ "\x7d\n\n"

end MexBridge.Gateway
