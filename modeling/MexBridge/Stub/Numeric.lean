/-!
What the MEX interface offers for each base type: the class of its MATLAB arrays, the accessor to
their data, and the helper that reads a scalar.
-/

namespace MexBridge

/-- What is offered for a numeric type (`TypeProps`). -/
structure Numeric where
  /-- The class of a MATLAB array of the type. -/
  mxClass : String := "mxVOID_CLASS"
  /-- The accessor to the data of such an array. -/
  accessor : Option String := none
  /-- Single precision: arrays go through the copiers for singles. -/
  single : Bool := false
  scalarGetter : String := "mxWrapGetScalar"
  scalarClass : String := "mxDOUBLE_CLASS"
  /-- An array that is only read is used in place, without a copy. -/
  direct : Bool := false
deriving Repr

namespace Numeric

def known : List (String × Numeric) :=
  [("double", { mxClass := "mxDOUBLE_CLASS", accessor := some "mxGetDoubles", direct := true }),
    ("float", {
      mxClass := "mxSINGLE_CLASS", accessor := some "mxGetSingles", single := true
      scalarGetter := "mxWrapGetScalar_single", scalarClass := "mxSINGLE_CLASS", direct := true }),
    ("int32_t", { mxClass := "mxINT32_CLASS", accessor := some "mxGetInt32s" }),
    ("int64_t", { mxClass := "mxINT64_CLASS", accessor := some "mxGetInt64s" }),
    ("uint32_t", { mxClass := "mxUINT32_CLASS", accessor := some "mxGetUint32s" }),
    ("uint64_t", { mxClass := "mxUINT64_CLASS", accessor := some "mxGetUint64s" }),
    ("dcomplex", { mxClass := "mxDOUBLE_CLASS", accessor := some "mxGetComplexDoubles" }),
    ("fcomplex", {
      mxClass := "mxSINGLE_CLASS", accessor := some "mxGetComplexSingles", single := true
      scalarGetter := "mxWrapGetScalar_single", scalarClass := "mxSINGLE_CLASS" }),
    ("char", {
      mxClass := "mxCHAR_CLASS", scalarGetter := "mxWrapGetScalar_char"
      scalarClass := "mxCHAR_CLASS" })]

/-- What is offered for a type; any type not known is read as a double (`_type_props`). -/
def ofType (t : String) : Numeric := (known.lookup t).getD {}

def isKnown (t : String) : Bool := (known.lookup t).isSome

/-- The part of a copier's name that tells the precision (`_copier_suffix`). -/
def copierMark (t : String) : String := if (ofType t).single then "single_" else ""

/-- The type on the GPU (`basetype_to_cucomplex`). -/
def gpuType : String → String
  | "fcomplex" => "cuFloatComplex"
  | "dcomplex" => "cuDoubleComplex"
  | t => t

/-- A type is in the table, or nothing is offered for it. -/
theorem mem_known (t : String) : (t, ofType t) ∈ known ∨ ofType t = {} := by
  unfold ofType
  cases h : known.lookup t with
  | none => exact Or.inr rfl
  | some n =>
    obtain ⟨as, bs, e, -⟩ := List.lookup_eq_some_iff.1 h
    exact Or.inl (by simp [e])

/-- What holds of the whole table and of the default holds of every type. -/
theorem forall_ofType {P : Numeric → Prop} (hknown : ∀ x ∈ known, P x.2) (hdefault : P {})
    (t : String) : P (ofType t) := by
  rcases mem_known t with h | h
  · exact hknown _ h
  · exact h ▸ hdefault

theorem direct_iff {t : String} : (ofType t).direct = true ↔ t = "double" ∨ t = "float" := by
  constructor
  · intro h
    have hknown : ∀ x ∈ known, x.2.direct = true → x.1 = "double" ∨ x.1 = "float" := by decide
    rcases mem_known t with hmem | hnone
    · exact hknown _ hmem h
    · simp [hnone] at h
  · rintro (rfl | rfl) <;> rfl

end Numeric

end MexBridge
