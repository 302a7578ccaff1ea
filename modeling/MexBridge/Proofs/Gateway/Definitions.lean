import MexBridge.Gateway.File
import MexBridge.Proofs.Ledger.Accepted
import MexBridge.Proofs.Stub.Backing
import MexBridge.Proofs.Stub.Indices

/-!
# Gateway files define the helpers they use

The kind of a variable is fixed when its routine is entered, from the types known then, while the
helpers are defined at the end, from the types known by then. Types are only ever added, and an
integer type is noted as met when a routine with it is entered, so what a routine needs is still
there (`Ledger.supplied_run`). Hence every helper that some stub calls is defined before the stubs
(`Ledger.helpers_defined`).
-/

namespace MexBridge

namespace Text

/-- `part` stands somewhere in `text`. -/
def Occurs (part text : String) : Prop := part.toList <:+: text.toList

instance (part text : String) : Decidable (Occurs part text) :=
  inferInstanceAs (Decidable (part.toList <:+: text.toList))

variable {part text : String}

theorem Occurs.trans {whole : String} (h : Occurs part text) (h' : Occurs text whole) :
    Occurs part whole := List.IsInfix.trans h h'

theorem occurs_left (part rest : String) : Occurs part (part ++ rest) := by
  rw [Occurs, String.toList_append]
  exact (List.prefix_append ..).isInfix

theorem Occurs.append_left (h : Occurs part text) (u : String) : Occurs part (u ++ text) := by
  rw [Occurs, String.toList_append]
  exact List.infix_append_of_infix_right h

theorem Occurs.append_right (h : Occurs part text) (u : String) : Occurs part (text ++ u) := by
  rw [Occurs, String.toList_append]
  exact List.infix_append_of_infix_left h

/-- Each of the texts put together stands in the whole. -/
theorem occurs_join {texts : List String} (h : text ∈ texts) : Occurs text (String.join texts) := by
  obtain ⟨before, after, rfl⟩ := List.append_of_mem h
  rw [String.join_append, String.join_cons]
  exact (occurs_left text _).append_left _

end Text

namespace Gateway

open Text (Occurs occurs_left occurs_join)

/-- The directives that define copiers, each with the start of the names it defines. -/
def copierDefiners : Field → List (String × String)
  | .real =>
    [("mxWrapGetArrayDef", "mxWrapGetArray_"), ("mxWrapCopyDef    ", "mxWrapCopy_"),
      ("mxWrapReturnDef  ", "mxWrapReturn_"),
      ("mxWrapGetArrayDef_single", "mxWrapGetArray_single_"),
      ("mxWrapCopyDef_single    ", "mxWrapCopy_single_"),
      ("mxWrapReturnDef_single  ", "mxWrapReturn_single_")]
  | _ =>
    [("mxWrapGetScalarZDef", "mxWrapGetScalar_"), ("mxWrapGetArrayZDef ", "mxWrapGetArray_"),
      ("mxWrapCopyZDef     ", "mxWrapCopy_"), ("mxWrapReturnZDef   ", "mxWrapReturn_"),
      ("mxWrapGetScalarZDef_single", "mxWrapGetScalar_single_"),
      ("mxWrapGetArrayZDef_single ", "mxWrapGetArray_single_"),
      ("mxWrapCopyZDef_single     ", "mxWrapCopy_single_"),
      ("mxWrapReturnZDef_single   ", "mxWrapReturn_single_")]

/-- A text defines a helper: a copier by a directive, a getter of objects as a function, and the
name of a FORTRAN routine under each of the four conventions, with a prototype. -/
inductive Defines (text : String) : String → Prop
  | copier (f : Field) (definer stem type : String) (known : (definer, stem) ∈ copierDefiners f)
      (line : Occurs (definer ++ "(" ++ stem ++ type ++ ",") text) : Defines text (stem ++ type)
  | getter (type : String)
      (head : Occurs ("\n" ++ type ++ "* mxWrapGetP_" ++ type
        ++ "(const mxArray* a, const char** e)\n" ++ "\x7b\n") text) :
      Defines text ("mxWrapGetP_" ++ type)
  | routine (name : String) (branch : Mangling → String) (result parameters : String)
      (branches : Occurs ("#if defined(MWF77_CAPS)\n" ++ branch .capitals
        ++ "#elif defined(MWF77_UNDERSCORE1)\n" ++ branch .oneUnderscore
        ++ "#elif defined(MWF77_UNDERSCORE0)\n" ++ branch .plain
        ++ "#else /* f2c convention */\n" ++ branch .f2c ++ "#endif\n\n") text)
      (named : ∀ m : Mangling,
        Occurs ("#define MWF77_" ++ name ++ " " ++ m.apply name ++ "\n") (branch m))
      (prototype : Occurs (result ++ " " ++ "MWF77_" ++ name ++ "(" ++ parameters ++ ");\n") text) :
      Defines text ("MWF77_" ++ name)

theorem Defines.mono {text whole f : String} (h : Defines text f) (hw : Occurs text whole) :
    Defines whole f := by
  cases h with
  | copier f definer stem type known line => exact .copier f definer stem type known (line.trans hw)
  | getter type head => exact .getter type (head.trans hw)
  | routine name branch result parameters branches named prototype =>
    exact .routine name branch result parameters (branches.trans hw) named (prototype.trans hw)

/-! ## Copiers -/

/-- A directive stands in a text where one of the lines put together starts with it. -/
theorem occurs_line {texts : List String} {definer stem type start sep rest : String} (i : Nat)
    (gap : String) (hline : texts[i]? = some (start ++ type ++ sep ++ rest))
    (hstart : definer ++ "(" ++ stem = start) (hsep : "," ++ gap = sep) :
    Occurs (definer ++ "(" ++ stem ++ type ++ ",") (String.join texts) := by
  have heq : start ++ type ++ sep ++ rest
      = definer ++ "(" ++ stem ++ type ++ "," ++ (gap ++ rest) := by
    simp only [← hstart, ← hsep, String.append_assoc]
  rw [heq] at hline
  exact (occurs_left _ _).trans (occurs_join (List.mem_of_getElem? hline))

theorem occurs_copiers {definer stem : String} (h : (definer, stem) ∈ copierDefiners .real)
    (type : String) : Occurs (definer ++ "(" ++ stem ++ type ++ ",") (copiers type) := by
  have heq : copiers type = String.join [
      "mxWrapGetArrayDef(mxWrapGetArray_" ++ type ++ ", " ++ (type ++ ")\n"),
      "mxWrapCopyDef    (mxWrapCopy_" ++ type ++ ",     " ++ (type ++ ")\n"),
      "mxWrapReturnDef  (mxWrapReturn_" ++ type ++ ",   " ++ (type ++ ")\n"),
      "mxWrapGetArrayDef_single(mxWrapGetArray_single_" ++ type ++ ", " ++ (type ++ ")\n"),
      "mxWrapCopyDef_single    (mxWrapCopy_single_" ++ type ++ ",     " ++ (type ++ ")\n"),
      "mxWrapReturnDef_single  (mxWrapReturn_single_" ++ type ++ ",   " ++ (type ++ ")\n")] := by
    -- the equation of `copiers` is too long a text for `rw`
    delta copiers
    simp only [String.join_cons, String.join_nil, String.append_assoc, String.append_empty]
  rw [heq]
  simp only [copierDefiners, List.mem_cons, Prod.mk.injEq, List.not_mem_nil, or_false] at h
  rcases h with ⟨rfl, rfl⟩ | ⟨rfl, rfl⟩ | ⟨rfl, rfl⟩ | ⟨rfl, rfl⟩ | ⟨rfl, rfl⟩ | ⟨rfl, rfl⟩
  · exact occurs_line 0 " " rfl rfl rfl
  · exact occurs_line 1 "     " rfl rfl rfl
  · exact occurs_line 2 "   " rfl rfl rfl
  · exact occurs_line 3 " " rfl rfl rfl
  · exact occurs_line 4 "     " rfl rfl rfl
  · exact occurs_line 5 "   " rfl rfl rfl

theorem occurs_complexCopiers {definer stem : String} (h : (definer, stem) ∈ copierDefiners .double)
    (part type : String) :
    Occurs (definer ++ "(" ++ stem ++ type ++ ",") (complexCopiers part type) := by
  let setter := " " ++ type ++ ",\n                    " ++ part ++ ", setz_" ++ type ++ ")\n"
  let parts := " " ++ type ++ ",\n                    real_" ++ type ++ ", imag_" ++ type ++ ")\n"
  have heq : complexCopiers part type = String.join [
      "mxWrapGetScalarZDef(mxWrapGetScalar_" ++ type ++ "," ++ setter,
      "mxWrapGetArrayZDef (mxWrapGetArray_" ++ type ++ "," ++ setter,
      "mxWrapCopyZDef     (mxWrapCopy_" ++ type ++ "," ++ parts,
      "mxWrapReturnZDef   (mxWrapReturn_" ++ type ++ "," ++ parts,
      "mxWrapGetScalarZDef_single(mxWrapGetScalar_single_" ++ type ++ "," ++ setter,
      "mxWrapGetArrayZDef_single (mxWrapGetArray_single_" ++ type ++ "," ++ setter,
      "mxWrapCopyZDef_single     (mxWrapCopy_single_" ++ type ++ "," ++ parts,
      "mxWrapReturnZDef_single   (mxWrapReturn_single_" ++ type ++ "," ++ parts] := by
    delta complexCopiers
    simp only [setter, parts, String.join_cons, String.join_nil, String.append_assoc,
      String.append_empty]
  rw [heq]
  simp only [copierDefiners, List.mem_cons, Prod.mk.injEq, List.not_mem_nil, or_false] at h
  rcases h with ⟨rfl, rfl⟩ | ⟨rfl, rfl⟩ | ⟨rfl, rfl⟩ | ⟨rfl, rfl⟩ | ⟨rfl, rfl⟩ | ⟨rfl, rfl⟩
    | ⟨rfl, rfl⟩ | ⟨rfl, rfl⟩
  · exact occurs_line 0 "" rfl rfl rfl
  · exact occurs_line 1 "" rfl rfl rfl
  · exact occurs_line 2 "" rfl rfl rfl
  · exact occurs_line 3 "" rfl rfl rfl
  · exact occurs_line 4 "" rfl rfl rfl
  · exact occurs_line 5 "" rfl rfl rfl
  · exact occurs_line 6 "" rfl rfl rfl
  · exact occurs_line 7 "" rfl rfl rfl

/-- A declared type has its copiers, one of the noted types if it was met. -/
theorem defines_copier {c : Context} {f : Field} {definer stem type : String}
    (known : (definer, stem) ∈ copierDefiners f) (hdeclared : type ∈ c.types.ofField f)
    (hmet : type ∈ notedTypes → type ∈ c.usage) : Defines (copierSection c) (stem ++ type) := by
  refine .copier f definer stem type known ?_
  unfold copierSection TypeTable.sorted
  cases f with
  | real =>
    have hlacks : c.usage.lacks type = false := by
      by_cases hnoted : type ∈ notedTypes
      · simp [Usage.lacks, hmet hnoted]
      · simp [Usage.lacks, hnoted]
    have hmem : copiers type ∈
        ((c.types.scalars.mergeSort (· ≤ ·)).filter (!c.usage.lacks ·)).map copiers :=
      List.mem_map_of_mem (List.mem_filter.2 ⟨List.mem_mergeSort.2 hdeclared, by simp [hlacks]⟩)
    have hline := (occurs_copiers known type).trans (occurs_join hmem)
    exact (((hline.append_left _).append_right _).append_right _).append_right _
  | single =>
    have hmem : complexCopiers "float" type ∈
        (c.types.cscalars.mergeSort (· ≤ ·)).map (complexCopiers "float") :=
      List.mem_map_of_mem (List.mem_mergeSort.2 hdeclared)
    have hline := (occurs_complexCopiers known "float" type).trans (occurs_join hmem)
    exact ((hline.append_left _).append_right _).append_right _
  | double =>
    have hmem : complexCopiers "double" type ∈
        (c.types.zscalars.mergeSort (· ≤ ·)).map (complexCopiers "double") :=
      List.mem_map_of_mem (List.mem_mergeSort.2 hdeclared)
    have hline := (occurs_complexCopiers known "double" type).trans (occurs_join hmem)
    exact (hline.append_left _).append_right _

/-- The starts of the names of copiers, before the mark of the precision. -/
def copierStems : Field → List String
  | .real => ["mxWrapGetArray_", "mxWrapCopy_", "mxWrapReturn_"]
  | _ => ["mxWrapGetScalar_", "mxWrapGetArray_", "mxWrapCopy_", "mxWrapReturn_"]

/-- Copiers come for doubles and for singles. -/
theorem exists_definer {f : Field} {stem mark : String} (hstem : stem ∈ copierStems f)
    (hmark : mark ∈ ["", "single_"]) : ∃ definer, (definer, stem ++ mark) ∈ copierDefiners f := by
  have hknown : (copierStems f).all (fun stem => ["", "single_"].all fun mark =>
      (copierDefiners f).any (·.2 == stem ++ mark)) = true := by
    cases f <;> decide +kernel
  obtain ⟨⟨definer, s⟩, hd, e⟩ :=
    List.any_eq_true.1 (List.all_eq_true.1 (List.all_eq_true.1 hknown stem hstem) mark hmark)
  exact ⟨definer, eq_of_beq e ▸ hd⟩

/-! ## Getters of objects -/

theorem defines_getter {t : TypeTable} {type : String} (h : t.isParent type = true) :
    Defines (castSection t) ("mxWrapGetP_" ++ type) := by
  obtain ⟨children, hlookup⟩ := Option.isSome_iff_exists.1 h
  obtain ⟨before, after, hclasses, -⟩ := List.lookup_eq_some_iff.1 hlookup
  have hmem : (type, children) ∈ t.sortedClasses := List.mem_mergeSort.2 (by simp [hclasses])
  have hgetter : Occurs (castGetter type children) (castSection t) :=
    occurs_join (List.mem_map.2 ⟨(type, children), hmem, rfl⟩)
  obtain ⟨rest, heq⟩ : ∃ rest, castGetter type children = "\n" ++ type ++ "* mxWrapGetP_" ++ type
      ++ "(const mxArray* a, const char** e)\n" ++ "\x7b\n" ++ rest := by
    delta castGetter
    simp only [String.append_assoc]
    exact ⟨_, rfl⟩
  refine .getter type (Occurs.trans ?_ hgetter)
  rw [heq]
  exact occurs_left _ _

/-! ## FORTRAN routines -/

/-- Of the routines with one name, one is kept. -/
theorem exists_firstOfName {r : Routine} {seen : List String} {rs : List Routine} (hr : r ∈ rs)
    (hseen : r.name ∉ seen) : ∃ s ∈ firstOfName seen rs, s.name = r.name := by
  fun_induction firstOfName seen rs with
  | case1 seen => simp at hr
  | case2 seen s rs hs ih =>
    -- `s` is left out for its name, which `r` does not have
    rcases List.mem_cons.1 hr with rfl | hr
    · exact absurd (by simpa using hs) hseen
    · exact ih hr hseen
  | case3 seen s rs hs ih =>
    by_cases hname : s.name = r.name
    · exact ⟨s, List.mem_cons_self .., hname⟩
    · rcases List.mem_cons.1 hr with rfl | hr
      · exact absurd rfl hname
      · obtain ⟨s', hs', e⟩ := ih hr (by simp [hseen, Ne.symm hname])
        exact ⟨s', List.mem_cons_of_mem s hs', e⟩

theorem exists_prototype (r : Routine) : ∃ result parameters,
    prototype r = result ++ " " ++ "MWF77_" ++ r.name ++ "(" ++ parameters ++ ");\n" := by
  unfold prototype
  cases r.results with
  | nil => exact ⟨"MWF77_RETURN", _, rfl⟩
  | cons v vs => exact ⟨v.type, _, rfl⟩

theorem defines_routine {gs : List Group} {g : Group} (hg : g ∈ gs)
    (hfortran : g.first.fortran = true) :
    Defines (fortranNames gs ++ fortranPrototypes gs) ("MWF77_" ++ g.first.name) := by
  obtain ⟨s, hs, hname⟩ : ∃ s ∈ fortranRoutines gs, s.name = g.first.name := by
    refine exists_firstOfName (List.mem_filter.2 ⟨List.mem_map_of_mem hg, hfortran⟩) (by simp)
  obtain ⟨result, parameters, hproto⟩ := exists_prototype s
  rw [← hname]
  refine .routine s.name (manglingLines (fortranRoutines gs)) result parameters ?_ ?_ ?_
  · exact occurs_left (fortranNames gs) _
  · intro m
    exact occurs_join (List.mem_map_of_mem hs)
  · rw [← hproto]
    unfold fortranPrototypes
    have hline := occurs_join (List.mem_map_of_mem (f := prototype) hs)
    exact ((hline.append_left _).append_right _).append_left _

/-! ## What stands around the stubs -/

/-- The part of a gateway file that defines helpers. -/
def definitions (c : Context) (gs : List Group) : String :=
  (if needsFixedWidths c.usage then "#include <stdint.h>\n\n" else "")
    ++ copierSection c ++ castSection c.types
    ++ (if hasFortran gs then fortranNames gs ++ fortranPrototypes gs else "")

/-- The function MATLAB calls. -/
def entry (c : Context) (gs : List Group) : String :=
  entryHead ++ "\n" ++ (if c.settings.gpu then "    mxInitGPU();\n" else "") ++ "\n" ++ entryId
    ++ caseSection gs ++ "\x7d\n\n"

theorem body_eq_entry {c : Context} {gs : List Group} {text : String} (h : body c gs = .ok text) :
    ∃ stubs, gs.mapM (·.stub c) = .ok stubs ∧
      text = definitions c gs ++ String.join stubs ++ tableSection gs ++ entry c gs := by
  obtain ⟨joined, hstubs, h⟩ := bind_eq_ok.1 h
  obtain ⟨stubs, hmapM, hjoined⟩ := bind_eq_ok.1 hstubs
  cases hjoined
  cases h
  refine ⟨stubs, hmapM, ?_⟩
  simp only [definitions, entry, String.append_assoc]

theorem body_eq_ok {c : Context} {gs : List Group} {text : String} (h : body c gs = .ok text) :
    ∃ stubs, gs.mapM (·.stub c) = .ok stubs ∧
      ∃ rest, text = definitions c gs ++ String.join stubs ++ rest := by
  obtain ⟨stubs, hmapM, rfl⟩ := body_eq_entry h
  exact ⟨stubs, hmapM, _, String.append_assoc ..⟩

variable {c : Context} {gs : List Group} {f : String}

/-- The header of the types of fixed width comes first where one of them was met. -/
theorem include_of_usage {type : String}
    (hwidth : type ∈ ["int32_t", "int64_t", "uint32_t", "uint64_t"]) (h : type ∈ c.usage) :
    ∃ rest, definitions c gs = "#include <stdint.h>\n" ++ rest := by
  have hneeds : needsFixedWidths c.usage = true :=
    List.any_eq_true.2 ⟨type, hwidth, List.contains_iff_mem.2 h⟩
  have hline : "#include <stdint.h>\n\n" = "#include <stdint.h>\n" ++ "\n" := rfl
  unfold definitions
  rw [if_pos hneeds, hline]
  simp only [String.append_assoc]
  exact ⟨_, rfl⟩

theorem Defines.of_copierSection (h : Defines (copierSection c) f) :
    Defines (definitions c gs) f := by
  have hself : Occurs (copierSection c) (copierSection c) := List.infix_rfl
  exact h.mono (((hself.append_left _).append_right _).append_right _)

theorem Defines.of_castSection (h : Defines (castSection c.types) f) :
    Defines (definitions c gs) f := by
  have hself : Occurs (castSection c.types) (castSection c.types) := List.infix_rfl
  exact h.mono ((hself.append_left _).append_right _)

theorem Defines.of_fortran {g : Group} (hg : g ∈ gs) (hfortran : g.first.fortran = true)
    (h : Defines (fortranNames gs ++ fortranPrototypes gs) f) : Defines (definitions c gs) f := by
  have hany : hasFortran gs = true := List.any_eq_true.2 ⟨g, hg, hfortran⟩
  unfold definitions
  rw [if_pos hany]
  have hself : Occurs (fortranNames gs ++ fortranPrototypes gs)
    (fortranNames gs ++ fortranPrototypes gs) := List.infix_rfl
  exact h.mono (hself.append_left _)

end Gateway

/-! ## What the types of a run supply -/

theorem TypeTable.mem_ofField {t : TypeTable} {type : String} {f : Field}
    (h : t.field? type = some f) :
    type ∈ t.ofField f := by
  unfold field? at h
  split at h
  · cases h
    exact List.contains_iff_mem.1 ‹_›
  split at h
  · cases h
    exact List.contains_iff_mem.1 ‹_›
  split at h
  · cases h
    exact List.contains_iff_mem.1 ‹_›
  · cases h

/-- The type of a variable is declared for the numbers its kind holds, and was met. -/
structure Variable.Supplied (c : Context) (v : Variable) : Prop where
  declared : ∀ f, v.kind.field? = some f → v.type ∈ c.types.ofField f
  met : v.type ∈ notedTypes → v.type ∈ c.usage

namespace Variable

variable {t : TypeTable} {c c' : Context} {v w : Variable}

theorem Supplied.grows (h : v.Supplied c) (hc : c.Grows c') : v.Supplied c' :=
  ⟨fun f hf => hc.types f (h.declared f hf), fun hnoted => hc.usage (h.met hnoted)⟩

theorem Admits.declared {k : Kind} {f : Field} (h : v.Admits t k) (hf : k.field? = some f) :
    v.type ∈ t.ofField f := by
  refine TypeTable.mem_ofField ?_
  cases h <;> cases hf <;> assumption

/-- FORTRAN takes numbers by address, of the same type. -/
theorem Finished.same {fortran : Bool} (h : v.Finished fortran w) :
    w.type = v.type ∧ w.kind.field? = v.kind.field? := by
  unfold Finished at h
  split at h
  · obtain ⟨rfl, -⟩ := h
    unfold toFortran
    split
    case h_4 f m hk => exact ⟨rfl, by rw [hk]; rfl⟩
    all_goals exact ⟨rfl, rfl⟩
  · rw [h]
    exact ⟨rfl, rfl⟩

/-- Then all helpers for its type are defined. -/
theorem Supplied.provided (h : v.Supplied c) (hv : IsWord v.type) (gs : List Group) :
    v.Provided (Gateway.Defines (Gateway.definitions c gs)) := by
  have hcopier {f : Field} (stem mark : String) (hf : v.kind.field? = some f)
      (hstem : stem ∈ Gateway.copierStems f) (hmark : mark ∈ ["", "single_"]) :
      Gateway.Defines (Gateway.definitions c gs) (stem ++ mark ++ v.type) := by
    obtain ⟨definer, known⟩ := Gateway.exists_definer hstem hmark
    exact (Gateway.defines_copier known (h.declared f hf) h.met).of_copierSection
  have hmark : Numeric.copierMark v.type ∈ ["", "single_"] := by
    unfold Numeric.copierMark
    split <;> simp
  refine ⟨hv, fun f hf => hcopier _ _ hf ?_ hmark, fun f hf => hcopier _ _ hf ?_ hmark,
    fun f hf => ?_, fun f hf hcomplex => hcopier _ _ hf ?_ hmark⟩
  · cases f <;> simp [Gateway.copierStems]
  · cases f <;> simp [Gateway.copierStems]
  · have hreturn := hcopier "mxWrapReturn_" "" hf
      (by cases f <;> simp [Gateway.copierStems]) (by simp)
    simpa using hreturn
  · cases f <;> simp [Gateway.copierStems] at hcomplex ⊢

end Variable

theorem Routine.Accepted.provided {p : Promotion} {c : Context} {gs : List Group} {g : Group}
    (h : g.first.Accepted p) (hg : g ∈ gs)
    (hsupplied : ∀ v ∈ g.first.results ++ g.first.args, v.Supplied c) :
    g.first.Provided (Gateway.Defines (Gateway.definitions c gs)) c.types := by
  obtain ⟨hresults, hargs⟩ := List.forall_mem_append.1 hsupplied
  refine ⟨?_, ?_, ?_, ?_, h.written.callee.isNameChar_name, ?_⟩
  · exact fun v hv => (hresults v hv).provided (h.written.results v hv).type.chars gs
  · exact fun v hv => (hargs v hv).provided (h.written.args v hv).type.chars gs
  · exact fun type hparent => (Gateway.defines_getter hparent).of_castSection
  · exact fun hfortran => (Gateway.defines_routine hg hfortran).of_fortran hg hfortran
  · intro hthis
    obtain ⟨this, hthis⟩ := Option.isSome_iff_exists.1 hthis
    exact (h.written.callee.isNameChar_receiver hthis).2

namespace Ledger

/-- What is declared when a call is entered stays declared, and the types met stay met. -/
theorem supplied_run {mex : String} {c : Context} {es : List Event}
    (h : (run mex { context := c } es).errors + (run mex { context := c } es).typeErrors = 0) :
    ∀ r ∈ (run mex { context := c } es).routines, ∀ v ∈ r.results ++ r.args,
      v.Supplied (run mex { context := c } es).context := by
  refine routines_grown (Q := fun _ => True)
    (R := fun c r => ∀ v ∈ r.results ++ r.args, v.Supplied c) (fun _ _ _ => trivial) ?_ ?_ h
  · exact fun c c' r hc hr v hv => (hr v hv).grows hc
  · intro l l' file ts r hset hts parsed he h0
    have hpassed := Routine.passed_of_errors (written_parsed parsed l) h0
    intro v hv
    -- kinds are given from the types known before the call; its own types are noted with it
    refine ⟨fun f hf => he.grows.types f ?_, he.noted _ (List.mem_map_of_mem hv)⟩
    rcases List.mem_append.1 hv with hv | hv
    · exact (hpassed.results v hv).admits.declared hf
    · obtain ⟨u, hu, huv⟩ := hpassed.args v hv
      rw [huv.same.1]
      exact hu.admits.declared (huv.same.2 ▸ hf)

/-- **Gateway files are closed under helpers.** For a run without errors, from any context and with
declarations, classes and calls in any order: what stands before the stubs defines every helper that
a statement of a stub calls, but for the functions of the runtime support that read real numbers. If
some result or argument is of a type of fixed width, the header that declares it is included. -/
theorem helpers_defined {mex : String} {c : Context} {es : List Event} (hes : Lexed es)
    (herr : (run mex { context := c } es).errors + (run mex { context := c } es).typeErrors = 0) :
    let l := run mex { context := c } es
    let defs := Gateway.definitions l.context l.groups
    (∀ text, Gateway.body l.context l.groups = .ok text →
      ∃ stubs, l.groups.mapM (·.stub l.context) = .ok stubs ∧
        ∃ rest, text = defs ++ String.join stubs ++ rest) ∧
    (∀ g ∈ l.groups, ∀ stub, g.stub l.context = .ok stub →
      ∃ signature main, g.first.mainStatements l.context = .ok main ∧
        stub = g.stubHead signature ++ Code.render (main.flatMap Stmt.code) ++ "\nmw_err_label:\n"
          ++ Code.render ((g.first.releases l.context.types).flatMap Stmt.code)
          ++ Group.stubTail ∧
        ∀ s ∈ main ++ g.first.releases l.context.types, ∀ f ∈ s.calls, isHelper f = true →
          Gateway.Defines defs f ∨ f ∈ runtimeGetters ∧ ∃ k type, s = .getNumber k type) ∧
    ((∃ r ∈ l.routines, ∃ v ∈ r.results ++ r.args,
        v.type ∈ ["int32_t", "int64_t", "uint32_t", "uint64_t"]) →
      ∃ more, defs = "#include <stdint.h>\n" ++ more) := by
  intro l defs
  have haccepted := accepted_run hes herr
  have hsupplied := supplied_run herr
  refine ⟨fun text => Gateway.body_eq_ok, ?_, ?_⟩
  · intro g hg stub hstub
    have hfirst : g.first ∈ l.routines := Filed.mem_routines hg (List.mem_cons_self ..)
    obtain ⟨signature, main, hmain, htext⟩ := Group.stub_eq_ok hstub
    have hbacked := ((haccepted _ hfirst).provided hg (hsupplied _ hfirst)).backed hmain
    exact ⟨signature, main, hmain, htext, fun s hs f hf => (hbacked s hs).calls hf⟩
  · rintro ⟨r, hr, v, hv, hwidth⟩
    have hnoted : v.type ∈ notedTypes :=
      List.mem_append_left ["ulong", "uint", "ushort", "uchar"] hwidth
    exact Gateway.include_of_usage hwidth ((hsupplied r hr v hv).met hnoted)

def shapeContext : Context := { settings := { promotion := .wide } }

/-- A call whose integers are promoted, and a class that gets a child after a call that takes it. -/
def shapeEvents : List Event :=
  (Token.tokens 1 ("typedef dcomplex cpx; FORTRAN area(int[n] a, inout cpx[n] z); "
    ++ "draw(Shape* s); class Disk: Shape;").toList).map (.token "a.mw")

theorem helpers_defined_shapeEvents :
    let l := run "gate" { context := shapeContext } shapeEvents
    let defs := Gateway.definitions l.context l.groups
    l.errors + l.typeErrors = 0 ∧
      (∃ text, Gateway.body l.context l.groups = .ok text ∧ ∃ rest, text = defs ++ rest) ∧
      (∀ f ∈ ["mxWrapGetArray_int64_t", "mxWrapCopy_cpx", "MWF77_area", "mxWrapGetP_Shape"],
        (∃ g ∈ l.groups, ∃ s ∈ made (g.first.mainStatements l.context), f ∈ s.calls) ∧
          Gateway.Defines defs f) ∧
      ∃ more, defs = "#include <stdint.h>\n" ++ more := by
  intro l defs
  have hlexed : Lexed shapeEvents := lexed_tokens _ _ _
  have herr : l.errors + l.typeErrors = 0 := by decide +kernel
  have hok : (Gateway.body l.context l.groups).isOk = true := by decide +kernel
  have hcalled : (["mxWrapGetArray_int64_t", "mxWrapCopy_cpx", "MWF77_area", "mxWrapGetP_Shape"].all
      fun f => (isHelper f && !runtimeGetters.contains f) && l.groups.any fun g =>
        (made (g.first.mainStatements l.context)).any (·.calls.contains f)) = true := by
    decide +kernel
  have hwide : l.routines.any (fun r => (r.results ++ r.args).any (·.type == "int64_t")) = true := by
    decide +kernel
  cases hbody : Gateway.body l.context l.groups with
  | error e => simp [hbody, Except.isOk, Except.toBool] at hok
  | ok text =>
    obtain ⟨htext, hstubs, hwidths⟩ := helpers_defined hlexed herr
    refine ⟨herr, ⟨text, rfl, ?_⟩, ?_, hwidths ?_⟩
    · obtain ⟨stubs, -, rest, h⟩ := htext text hbody
      exact ⟨String.join stubs ++ rest, by rw [h, String.append_assoc]⟩
    · intro f hf
      obtain ⟨⟨hhelper, hother⟩, g, hg, s, hs, hfs⟩ :
          (isHelper f = true ∧ f ∉ runtimeGetters) ∧ ∃ g ∈ l.groups,
            ∃ s ∈ made (g.first.mainStatements l.context), f ∈ s.calls := by
        simpa using List.all_eq_true.1 hcalled f hf
      refine ⟨⟨g, hg, s, hs, hfs⟩, ?_⟩
      obtain ⟨stubs, hmapM, -⟩ := htext text hbody
      obtain ⟨stub, -, hstub⟩ := Routine.exists_ok_of_mapM hmapM g hg
      obtain ⟨-, main, (hmain : g.first.mainStatements l.context = .ok main), -, hdefined⟩ :=
        hstubs g hg stub hstub
      rw [hmain, made_ok] at hs
      rcases hdefined s (List.mem_append_left _ hs) f hfs hhelper with h | ⟨h, -⟩
      · exact h
      · exact absurd h hother
    · obtain ⟨r, hr, hv⟩ := List.any_eq_true.1 hwide
      obtain ⟨v, hv, htype⟩ := List.any_eq_true.1 hv
      exact ⟨r, hr, v, hv, by simp [eq_of_beq htype]⟩

end Ledger

end MexBridge
