import MexBridge.Routine.Printer
import MexBridge.Routine.Signature
import MexBridge.Stub.Plan

/-!
The text of a stub: where its declaration stands, its signature, and a C function around its
statements.
-/

namespace MexBridge.Group

/-- Where the routine is declared and what it reads; of its twins only the first is shown
(`_print_c_comment`). -/
def comment (g : Group) : String :=
  "/* ---- " ++ g.first.file ++ ": " ++ toString g.first.line ++ " ----\n * " ++ g.first.text
    ++ (match g.twins with
      | r :: _ => " * Also at " ++ r.file ++ ": " ++ toString r.line ++ "\n"
      | [] => "")
    ++ " */\n"

def stubHead (signature : String) (g : Group) : String :=
  let id := toString g.first.id
  g.comment
    ++ "static const char* stubids" ++ id ++ "_ = \"" ++ signature ++ "\";\n\n"
    ++ "void mexStub" ++ id ++ "(int nlhs, mxArray* plhs[],\n"
    ++ "              int nrhs, const mxArray* prhs[])\n\x7b\n"
    ++ "    const char* mw_err_txt_ = 0;\n"

def stubTail : String :=
  "    if (mw_err_txt_)\n        mexErrMsgTxt(mw_err_txt_);\n\x7d\n\n"

/-- The stub of a group (`_print_mex_stub`). -/
def stub (c : Context) (g : Group) : Except Fault String := do
  let signature ← g.first.signed c.settings.promotion
  let main ← g.first.mainStatements c
  return g.stubHead signature ++ renderAll main ++ "\nmw_err_label:\n"
    ++ renderAll (g.first.releases c.types) ++ stubTail

end MexBridge.Group
