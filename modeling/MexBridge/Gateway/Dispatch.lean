import MexBridge.Routine

/-!
Dispatch: from the id of a routine to the stub of its group, through a table for numbers and
through a chain of comparisons for signatures; and the profiler's reports.
-/

namespace MexBridge.Gateway

/-- The largest id among the first routines of the groups, 0 if there is none (`max_routine_id`). -/
def maxFirstId (gs : List Group) : Int := gs.foldl (fun m g => max m g.first.id) 0

/-- All ids with the id of their stub, in the order of the groups. -/
def stubIds (gs : List Group) : List (Int × Int) :=
  gs.flatMap fun g => (g.first.id, g.first.id) :: g.twins.map fun r => (r.id, g.first.id)

/-- The largest id of all, 0 if there is none. -/
def maxId (gs : List Group) : Int := (stubIds gs).foldl (fun m e => max m e.1) 0

/-- The stub of an id; of two groups with one id the later counts. -/
def stubOf (gs : List Group) (id : Int) : Option Int := (stubIds gs).reverse.lookup id

/-- The stubs of the ids from 1 on. -/
def stubTable (gs : List Group) : List (Option Int) :=
  (List.range (maxId gs).toNat).map fun (i : Nat) => stubOf gs ((i : Int) + 1)

def tableEntry : Option Int → String
  | some k => ",\n    mexStub" ++ toString k
  | none => ",\n    NULL"

/-- The table of stubs and the number of its entries (`_print_mex_stub_table`). -/
def tableSection (gs : List Group) : String :=
  if maxId gs ≤ 0 then ""
  else
    "typedef void (*mwStubFunc_t)(int nlhs, mxArray* plhs[],\n"
      ++ "                             int nrhs, const mxArray* prhs[]);\n\n"
      ++ "static mwStubFunc_t mwStubs_[] = \x7b\n    NULL"
      ++ String.join ((stubTable gs).map tableEntry)
      ++ "\n\x7d;\n\n"
      ++ "static int mwNumStubs_ = " ++ toString (maxId gs) ++ ";\n\n"

def signatureCase (g : Group) : String :=
  let id := toString g.first.id
  "    else if (strcmp(id, stubids" ++ id ++ "_) == 0)\n"
    ++ "        mexStub" ++ id ++ "(nlhs,plhs, nrhs-1,prhs+1);\n"

/-- A line of the profiler's report, printed by the call that starts with `printer`. -/
def profileLine (printer : String) (g : Group) : String :=
  "        " ++ printer ++ "\"%d calls to " ++ g.first.file ++ ":" ++ toString g.first.line
    ++ (match g.twins with
      | r :: _ => " (" ++ r.file ++ ":" ++ toString r.line ++ ")"
      | [] => "")
    ++ "\\n\", mexprofrecord_[" ++ toString g.first.id ++ "]);\n"

/-- The report of the profiler (`_make_profile_output`). -/
def profileReport (printer : String) (gs : List Group) : String :=
  "        if (!mexprofrecord_)\n            " ++ printer ++ "\"Profiler inactive\\n\");\n"
    ++ String.join (gs.map (profileLine printer))

/-- The chain of comparisons: signatures first, then the profiler's commands
(`_print_mex_else_cases`). -/
def caseSection (gs : List Group) : String :=
  let size := toString (maxFirstId gs + 1)
  String.join (gs.map signatureCase)
    ++ "    else if (strcmp(id, \"*profile on*\") == 0) \x7b\n"
    ++ "        if (!mexprofrecord_) \x7b\n"
    ++ "            mexprofrecord_ = (int*) malloc(" ++ size ++ " * sizeof(int));\n"
    ++ "            mexLock();\n"
    ++ "        \x7d\n"
    ++ "        memset(mexprofrecord_, 0, " ++ size ++ " * sizeof(int));\n"
    ++ "    \x7d else if (strcmp(id, \"*profile off*\") == 0) \x7b\n"
    ++ "        if (mexprofrecord_) \x7b\n"
    ++ "            free(mexprofrecord_);\n"
    ++ "            mexUnlock();\n"
    ++ "        \x7d\n"
    ++ "        mexprofrecord_ = NULL;\n"
    ++ "    \x7d else if (strcmp(id, \"*profile report*\") == 0) \x7b\n"
    ++ profileReport "mexPrintf(" gs
    ++ "    \x7d else if (strcmp(id, \"*profile log*\") == 0) \x7b\n"
    ++ "        FILE* logfp;\n"
    ++ "        if (nrhs != 2 || mxGetString(prhs[1], id, sizeof(id)) != 0)\n"
    ++ "            mexErrMsgTxt(\"Must have two string arguments\");\n"
    ++ "        logfp = fopen(id, \"w+\");\n"
    ++ "        if (!logfp)\n"
    ++ "            mexErrMsgTxt(\"Cannot open log for output\");\n"
    ++ profileReport "fprintf(logfp, " gs
    ++ "        fclose(logfp);\n"
    ++ "    \x7d else\n"
    ++ "        mexErrMsgTxt(\"Unknown identifier\");\n"

end MexBridge.Gateway
