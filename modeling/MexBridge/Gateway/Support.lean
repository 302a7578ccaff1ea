/-!
The C support code at the head of every gateway file comes from a file beside the program.
-/

namespace MexBridge.Gateway

/-- What stands for the support code where there is no such file: the headers, and the record of
calls. -/
def supportText : String :=
  "#include <stdio.h>\n#include <string.h>\n#include <stddef.h>\n\n#include <mex.h>\n\n"
    ++ "int* mexprofrecord_= NULL;\n"

end MexBridge.Gateway
