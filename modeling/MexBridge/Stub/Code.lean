/-!
Pieces of C code. The locals of a stub and its argument arrays are pieces of their own, so that
what a piece of code refers to can be read off it; the rest is text.
-/

namespace MexBridge

/-- A local variable of a stub; the number is the label of what it holds. -/
inductive Local where
  | input (k : Int)
  | output (k : Int)
  | dim (k : Int)
  | gpuInput (k : Int)
  | gpuOutput (k : Int)
  | gpuDims (k : Int)
deriving DecidableEq, Repr

def Local.name : Local → String
  | .input k => "in" ++ toString k ++ "_"
  | .output k => "out" ++ toString k ++ "_"
  | .dim k => "dim" ++ toString k ++ "_"
  | .gpuInput k => "mxGPUArray_in" ++ toString k ++ "_"
  | .gpuOutput k => "mxGPUArray_out" ++ toString k ++ "_"
  | .gpuDims k => "gpu_outdims" ++ toString k ++ "_"

/-- What code forks on. -/
inductive Fork where
  /-- How complex data are laid out, which is known when the stub is compiled. -/
  | layout
  /-- Whether a pointer is null. -/
  | null (l : Local)
deriving DecidableEq, Repr

inductive Piece where
  | text (s : String)
  | loc (l : Local)
  /-- A right-hand argument of the MATLAB call. -/
  | rhs (k : Int)
  /-- A left-hand argument of the MATLAB call. -/
  | lhs (k : Int)
  /-- The address of a left-hand argument. -/
  | lhsAddress (k : Int)
  /-- The start of a fork: code up to `otherwise` is for interleaved data, or for null. -/
  | fork (f : Fork)
  | otherwise (f : Fork)
  | join (f : Fork)
deriving DecidableEq, Repr

instance : Coe String Piece := ⟨.text⟩

instance : Coe Local Piece := ⟨.loc⟩

def Piece.render : Piece → String
  | .text s => s
  | .loc l => l.name
  | .rhs k => "prhs[" ++ toString k ++ "]"
  | .lhs k => "plhs[" ++ toString k ++ "]"
  | .lhsAddress k => "plhs+" ++ toString k
  | .fork .layout => "#if MX_HAS_INTERLEAVED_COMPLEX\n"
  | .fork (.null l) => "    if (" ++ l.name ++ " == NULL) \x7b\n"
  | .otherwise .layout => "#else\n"
  | .otherwise (.null _) => "    \x7d else \x7b\n"
  | .join .layout => "#endif\n"
  | .join (.null _) => "    \x7d\n"

abbrev Code := List Piece

namespace Code

def render (c : Code) : String := String.join (c.map (·.render))

/-- Code one after the other. -/
def seq (cs : List Code) : Code := cs.flatten

/-- Code that goes one way or the other (`_interleaved_branch`). -/
def either (f : Fork) (one other : Code) : Code :=
  seq [[.fork f], one, [.otherwise f], other, [.join f]]

/-- The product of dimensions; the empty product is written out (`_alloc_size_expr`). -/
def product : List Int → Code
  | [] => ["1"]
  | [k] => [Local.dim k]
  | k :: ks => Piece.loc (.dim k) :: "*" :: product ks

end Code

end MexBridge
