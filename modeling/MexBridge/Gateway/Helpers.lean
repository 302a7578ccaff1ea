import MexBridge.Types.Context

/-!
Helper definitions of a gateway file: array copiers for the numeric types in use, and for each
class with children a function that takes a pointer to the class or to one of them.
-/

namespace MexBridge.Gateway

/-- The copiers of a real type, for doubles and for singles (`_mex_define_copiers_type`). -/
def copiers (t : String) : String :=
  "mxWrapGetArrayDef(mxWrapGetArray_" ++ t ++ ", " ++ t ++ ")\n"
    ++ "mxWrapCopyDef    (mxWrapCopy_" ++ t ++ ",     " ++ t ++ ")\n"
    ++ "mxWrapReturnDef  (mxWrapReturn_" ++ t ++ ",   " ++ t ++ ")\n"
    ++ "mxWrapGetArrayDef_single(mxWrapGetArray_single_" ++ t ++ ", " ++ t ++ ")\n"
    ++ "mxWrapCopyDef_single    (mxWrapCopy_single_" ++ t ++ ",     " ++ t ++ ")\n"
    ++ "mxWrapReturnDef_single  (mxWrapReturn_single_" ++ t ++ ",   " ++ t ++ ")\n"

/-- The copiers of a complex type whose parts are of type `part` (`_mex_define_zcopiers`). -/
def complexCopiers (part t : String) : String :=
  let setter := " " ++ t ++ ",\n                    " ++ part ++ ", setz_" ++ t ++ ")\n"
  let parts := " " ++ t ++ ",\n                    real_" ++ t ++ ", imag_" ++ t ++ ")\n"
  "mxWrapGetScalarZDef(mxWrapGetScalar_" ++ t ++ "," ++ setter
    ++ "mxWrapGetArrayZDef (mxWrapGetArray_" ++ t ++ "," ++ setter
    ++ "mxWrapCopyZDef     (mxWrapCopy_" ++ t ++ "," ++ parts
    ++ "mxWrapReturnZDef   (mxWrapReturn_" ++ t ++ "," ++ parts
    ++ "mxWrapGetScalarZDef_single(mxWrapGetScalar_single_" ++ t ++ "," ++ setter
    ++ "mxWrapGetArrayZDef_single (mxWrapGetArray_single_" ++ t ++ "," ++ setter
    ++ "mxWrapCopyZDef_single     (mxWrapCopy_single_" ++ t ++ "," ++ parts
    ++ "mxWrapReturnZDef_single   (mxWrapReturn_single_" ++ t ++ "," ++ parts

/-- Copiers for the real types, less the noted ones never met, then for the complex types
(`mex_define_copiers`). -/
def copierSection (c : Context) : String :=
  "\n\n\n/* Array copier definitions */\n"
    ++ String.join (((TypeTable.sorted c.types.scalars).filter (!c.usage.lacks ·)).map copiers)
    ++ String.join ((TypeTable.sorted c.types.cscalars).map (complexCopiers "float"))
    ++ String.join ((TypeTable.sorted c.types.zscalars).map (complexCopiers "double"))
    ++ "\n"

/-- One attempt of a cast function: is it a pointer to `t` (`_mex_casting_getter_type`)? -/
def castAttempt (t : String) : String :=
  "    " ++ t ++ "* p_" ++ t ++ " = NULL;\n"
    ++ "    sscanf(pbuf, \"" ++ t ++ ":%p\", &p_" ++ t ++ ");\n"
    ++ "    if (p_" ++ t ++ ")\n"
    ++ "        return p_" ++ t ++ ";\n\n"

/-- The function that takes a pointer to `parent` or to one of its children
(`_mex_casting_getter`). -/
def castGetter (parent : String) (children : List String) : String :=
  "\n" ++ parent ++ "* mxWrapGetP_" ++ parent ++ "(const mxArray* a, const char** e)\n"
    ++ "\x7b\n"
    ++ "    char pbuf[128];\n"
    ++ "    if (mxGetClassID(a) == mxDOUBLE_CLASS &&\n"
    ++ "        mxGetM(a)*mxGetN(a) == 1 &&\n"
    ++ "#if MX_HAS_INTERLEAVED_COMPLEX\n"
    ++ "        ((mxIsComplex(a) ? ((*mxGetComplexDoubles(a)).real == 0 && "
    ++ "(*mxGetComplexDoubles(a)).imag == 0) : *mxGetDoubles(a) == 0))\n"
    ++ "#else\n"
    ++ "        *mxGetPr(a) == 0\n"
    ++ "#endif\n"
    ++ "        )\n"
    ++ "        return NULL;\n"
    ++ "    if (!mxIsChar(a)) \x7b\n"
    ++ "#ifdef R2008OO\n"
    ++ "        mxArray* ap = mxGetProperty(a, 0, \"mwptr\");\n"
    ++ "        if (ap)\n"
    ++ "            return mxWrapGetP_" ++ parent ++ "(ap, e);\n"
    ++ "#endif\n"
    ++ "        *e = \"Invalid pointer\";\n"
    ++ "        return NULL;\n"
    ++ "    \x7d\n"
    ++ "    mxGetString(a, pbuf, sizeof(pbuf));\n\n"
    ++ String.join ((parent :: children).map castAttempt)
    ++ "    *e = \"Invalid pointer to " ++ parent ++ "\";\n"
    ++ "    return NULL;\n"
    ++ "\x7d\n\n"

/-- The cast functions of all parents (`mex_casting_getters`). -/
def castSection (t : TypeTable) : String :=
  String.join (t.sortedClasses.map fun (parent, children) => castGetter parent children)

end MexBridge.Gateway
