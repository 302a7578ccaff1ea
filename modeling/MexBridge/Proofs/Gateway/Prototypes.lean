import Mathlib.Data.Option.Basic
import MexBridge.Gateway.Fortran
import MexBridge.Proofs.Ledger.Accepted
import MexBridge.Proofs.Stub.Releases

/-!
# Prototypes of FORTRAN routines and the calls of their stubs

A prototype names the types that its routine takes, by the declaration; the stub declares locals and
passes them, or their addresses. For numbers, for arrays and for MATLAB arrays passed in, the two
come to the same types: a stub passes what a prototype of its own routine would ask for
(`Routine.ForFortran.passes`). But a name has one prototype only, that of the first routine of this
name (`Gateway.filter_fortranRoutines`). So it fits the call of a stub exactly if the two routines
are declared alike (`Ledger.prototype_fits_iff`).
-/

namespace MexBridge

/-! ## The types of what is passed -/

/-- The type that the first declaration of a local in the code gives it. -/
def declaredType (ss : List Stmt) (x : Local) : Option String :=
  ((ss.flatMap fun s => s.code.declarations).find? (·.2 = x)).map (·.1)

/-- The C type of an expression passed to a function; that of a constant is not known. -/
def Actual.cType (ss : List Stmt) : Actual → Option String
  | .plain l => declaredType ss l
  | .deref l => (declaredType ss l).map fun type => String.ofList type.toList.dropLast
  | .address l => (declaredType ss l).map (· ++ "*")
  | .slot _ => some "mxArray**"
  | .literal _ => none

/-- What a prototype says of a function. -/
structure Prototype where
  result : String
  name : String
  parameters : List String
deriving DecidableEq, Repr

namespace Prototype

def text (p : Prototype) : String :=
  p.result ++ " MWF77_" ++ p.name ++ "(" ++ ", ".intercalate p.parameters ++ ");\n"

/-- A prototype fits the calls among statements: each passes what it asks for, and keeps the value
in a local of the type it promises. -/
def Fits (p : Prototype) (ss : List Stmt) : Prop :=
  ∀ k d, Stmt.call k d ∈ ss →
    k.args.map (Actual.cType ss) = p.parameters.map some ∧
      (d = .kept → declaredType ss (.output 0) = some p.result)

end Prototype

/-- The prototype that the declaration of a routine calls for. -/
def Routine.prototype (r : Routine) : Prototype where
  result := match r.results with | v :: _ => v.type | [] => "MWF77_RETURN"
  name := r.name
  parameters := r.args.map Gateway.parameterType

/-- It is the one that is written for the routine. -/
theorem Routine.text_prototype (r : Routine) : Gateway.prototype r = r.prototype.text := by
  unfold Gateway.prototype Prototype.text Routine.prototype
  cases r.results <;> simp [String.append_assoc]

/-! ## Declarations -/

/-- Where no local is declared twice, the first declaration of each is the only one. -/
theorem find?_of_nodup {ds : List (String × Local)} (hnodup : (ds.map (·.2)).Nodup)
    {d : String × Local} (h : d ∈ ds) : ds.find? (·.2 = d.2) = some d := by
  induction ds with
  | nil => simp at h
  | cons e ds ih =>
    obtain ⟨hnew, hnodup⟩ := List.nodup_cons.1 hnodup
    rcases List.mem_cons.1 h with rfl | hmem
    · simp
    · have hne : e.2 ≠ d.2 := by
        intro heq
        exact hnew (List.mem_map.2 ⟨d, hmem, heq.symm⟩)
      rw [List.find?_cons_of_neg (by simpa using hne), ih hnodup hmem]

/-- Where no local is declared twice, each has the type of its declaration. -/
theorem declaredType_of_mem {ss : List Stmt} (hnodup : (declared ss).Nodup) {f : TypeForm}
    (hf : f.IsProper) (hne : f.word ≠ "") {x : Local}
    (hx : ∀ k, x ≠ .gpuInput k ∧ x ≠ .gpuOutput k) {zeroed : Bool} {remark : String}
    (h : Stmt.declare f.text x zeroed remark ∈ ss) : declaredType ss x = some f.text := by
  have hmem : (f.text, x) ∈ ss.flatMap fun s => s.code.declarations :=
    List.mem_flatMap.2 ⟨_, h, by simp [Stmt.declarations_declare hf hne hx]⟩
  rw [declared, ← List.map_flatMap] at hnodup
  rw [declaredType, find?_of_nodup hnodup hmem]
  rfl

namespace Variable

variable {v w : Variable}

/-- The local that stands for a variable is declared with the type of the variable. -/
theorem declare_holder {ins outs : List Stmt} (hin : v.declareInput = .ok ins)
    (hout : v.declareOutput = .ok outs) (hconst : v.kind ≠ .const)
    (hmx : v.direction = .output → v.kind ≠ .mx) :
    ∃ type zeroed, v.localType = .ok type ∧
      Stmt.declare type v.holder zeroed v.name ∈ ins ++ outs := by
  by_cases hd : v.direction = .output
  · unfold declareOutput at hout
    rw [if_neg (by simp [hd, hmx hd])] at hout
    obtain ⟨type, htype, hout⟩ := bind_eq_ok.1 hout
    refine ⟨type, v.kind.isPointerLocal, htype, List.mem_append_right _ ?_⟩
    simp only [holder, hd, if_true]
    split at hout <;> cases hout <;> simp
  · unfold declareInput at hin
    rw [if_neg (by simp [hd, hconst])] at hin
    obtain ⟨type, htype, hin⟩ := bind_eq_ok.1 hin
    refine ⟨type, v.kind.isPointerLocal, htype, List.mem_append_left _ ?_⟩
    simp only [holder, hd, if_false]
    split at hin <;> cases hin <;> simp

theorem holder_ne (v : Variable) : ∀ k, v.holder ≠ .gpuInput k ∧ v.holder ≠ .gpuOutput k := by
  intro k
  unfold holder
  split <;> simp

/-- Is it a number, an array whose elements have one type wherever they live, or a MATLAB array
passed in? -/
def isPlain (v : Variable) : Bool :=
  match v.kind with
  | .number _ _ => true
  | .array _ => !v.onGpu || Numeric.gpuType v.type == v.type
  | .mx => v.direction == .input
  | _ => false

/-- Two arguments take one parameter: both MATLAB arrays, or neither and of one type. -/
def DeclaredLike (v w : Variable) : Prop :=
  (v.kind = .mx ↔ w.kind = .mx) ∧ (w.kind ≠ .mx → v.type = w.type)

instance (v w : Variable) : Decidable (v.DeclaredLike w) :=
  inferInstanceAs (Decidable ((v.kind = .mx ↔ w.kind = .mx) ∧ (w.kind ≠ .mx → v.type = w.type)))

theorem parameterType_eq_iff (hv : IsWord v.type) (hw : IsWord w.type) :
    Gateway.parameterType v = Gateway.parameterType w ↔ v.DeclaredLike w := by
  have hword {u : Variable} (hu : IsWord u.type) : u.type ++ "*" ≠ "const mxArray*" := by
    intro e
    have hblank : ' ' ∈ (u.type ++ "*").toList := by
      rw [e]
      decide
    simp at hblank
    exact hu.ne (by decide) _ hblank rfl
  unfold Gateway.parameterType DeclaredLike
  by_cases hmv : v.kind = .mx <;> by_cases hmw : w.kind = .mx
  · simp [hmv, hmw]
  · simpa [hmv, hmw] using (hword hw).symm
  · simpa [hmv, hmw] using hword hv
  · simp [hmv, hmw]

end Variable

namespace Routine

variable {t : TypeTable} {c : Context} {r p : Routine} {ss : List Stmt}

/-! ## What FORTRAN takes and gives -/

/-- FORTRAN is given no number by value. -/
theorem Passed.pointer {s : Routine} (h : r.Passed t s) (hf : r.fortran = true) {v : Variable}
    (hv : v ∈ s.args) {f : Field} {m : Mode} (hk : v.kind = .number f m) : m = .pointer := by
  obtain ⟨u, -, hu⟩ := h.args v hv
  rw [Variable.Finished, if_pos hf] at hu
  obtain ⟨rfl, -⟩ := hu
  unfold Variable.toFortran at hk
  split at hk <;> simp_all

/-- FORTRAN returns numbers by value. -/
theorem results_checkFortran {s : Routine} (hf : s.fortran = true)
    (h : s.checkFortran.errors = 0) (hsingle : s.results.length ≤ 1) :
    ∀ v ∈ s.checkFortran.value.results, ∃ f, v.kind = .number f .value := by
  intro v hv
  rw [checkFortran_rest] at hv
  have hresults : s.results = [v] := by
    cases hrs : s.results with
    | nil => simp [hrs] at hv
    | cons w ws =>
      obtain rfl : ws = [] := List.eq_nil_of_length_eq_zero (by simpa [hrs] using hsingle)
      simpa [hrs, eq_comm] using hv
  rw [checkFortran, if_pos hf, hresults] at h
  have hkind : v.fromFortran.errors = 0 := (Findings.errors_append_eq_zero.1 h).2
  unfold Variable.fromFortran at hkind
  split at hkind
  · exact ⟨_, ‹_›⟩
  · exact ⟨_, ‹_›⟩
  · simp at hkind

theorem results_check {Q : String → Prop} (hr : r.Written Q) (h : (r.check t).errors = 0)
    (hf : r.fortran = true) : ∀ v ∈ (r.check t).value.results, ∃ f, v.kind = .number f .value := by
  have heq := hr.check_eq t
  rw [heq] at h
  rw [heq]
  refine results_checkFortran hf (Findings.errors_append_eq_zero.1 h).2 ?_
  have hframes : (checkResults t r.labelled.results).value.map Variable.frame
      = r.labelled.results.map Variable.frame := frame_checkResults
  replace hframes := congrArg List.length hframes
  simp only [List.length_map] at hframes
  exact hframes ▸ hr.labelled.single

/-- What is known of a FORTRAN routine whose check found no error. -/
structure ForFortran (r : Routine) : Prop where
  regular : r.Regular
  sound : ∃ m n, r.Sound m n
  args : ∀ v ∈ r.args, ∀ f m, v.kind = .number f m → m = .pointer
  results : ∀ v ∈ r.results, ∃ f, v.kind = .number f .value
  name : r.name ≠ "new"

theorem Written.forFortran (hr : r.Written IsName) (h : (r.check t).errors = 0)
    (hf : (r.check t).value.fortran = true) (hregular : (r.check t).value.Regular) :
    (r.check t).value.ForFortran := by
  have hpassed := passed_of_errors hr h
  have hf' : r.fortran = true := (sameHead_check t r).fortran ▸ hf
  refine ⟨hregular, ⟨_, _, sound_check hr h rfl⟩, fun v hv f m hk => hpassed.pointer hf' hv hk,
    results_check hr h hf', ?_⟩
  cases (hpassed.written hr.labelled).callee with
  | plain _ _ name => exact name.2.2
  | constructor _ _ _ _ _ fortran => simp [fortran] at hf
  | method _ _ _ _ _ _ _ fortran => simp [fortran] at hf

/-! ## What a stub passes -/

/-- The stub declares its locals first, and each once. -/
theorem Regular.declaredType_decls (h : r.Regular) (hss : r.mainStatements c = .ok ss)
    {ds : List Stmt} (hds : r.declarations = .ok ds) {v : Variable} (hv : v ∈ r.results ++ r.args)
    {type : String} (htype : v.localType = .ok type) {zeroed : Bool} {remark : String}
    (hmem : Stmt.declare type v.holder zeroed remark ∈ ds) :
    declaredType ss v.holder = some type := by
  obtain ⟨hword, hne⟩ := h.types v hv
  obtain ⟨f, hf, rfl, hform⟩ := Variable.localType_form htype hword
  have hnodup : (declared ds).Nodup := by
    rw [h.declared_declarations hds]
    exact h.nodup
  have hdecl := declaredType_of_mem hnodup hf (hform hne) v.holder_ne hmem
  obtain ⟨d, hd, htext⟩ := Option.map_eq_some_iff.1 hdecl
  have hparts := (mainStatements_eq_ok hss).eq
  simp only [hds, made_ok, List.append_assoc] at hparts
  rw [hparts, declaredType, List.flatMap_append, List.find?_append, hd]
  exact congrArg some htext

/-- The local of an argument has the type of the argument. -/
theorem Regular.declaredType_arg (h : r.Regular) (hss : r.mainStatements c = .ok ss) {v : Variable}
    (hv : v ∈ r.args) (hconst : v.kind ≠ .const) (hmx : v.direction = .output → v.kind ≠ .mx) :
    ∃ type, v.localType = .ok type ∧ declaredType ss v.holder = some type := by
  obtain ⟨ds, hds⟩ := (mainStatements_eq_ok hss).decls
  obtain ⟨heq, hins, houts⟩ := declarations_eq_ok hds
  have hv' := List.mem_append_right r.results hv
  obtain ⟨type, zeroed, htype, hmem⟩ := Variable.declare_holder (hins v hv)
    (houts v (List.mem_append_right _ hv)) hconst hmx
  have hdecl : Stmt.declare type v.holder zeroed v.name ∈ ds := by
    rw [heq]
    rcases List.mem_append.1 hmem with hmem | hmem
    · simp only [List.mem_append, List.mem_flatMap]
      exact Or.inl (Or.inl (Or.inl (Or.inr ⟨v, hv, hmem⟩)))
    · simp only [List.mem_append, List.mem_flatMap]
      exact Or.inl (Or.inl (Or.inr ⟨v, Or.inr hv, hmem⟩))
  exact ⟨type, htype, h.declaredType_decls hss hds hv' htype hdecl⟩

/-- **A stub passes what the prototype of its own routine asks for.** -/
theorem ForFortran.cType_actual (h : r.ForFortran) (hss : r.mainStatements c = .ok ss)
    {v : Variable} (hv : v ∈ r.args) (hplain : v.isPlain = true) :
    v.actual.cType ss = some (Gateway.parameterType v) := by
  unfold Variable.isPlain at hplain
  cases hk : v.kind with
  | number f m =>
    obtain rfl := h.args v hv f m hk
    obtain ⟨type, htype, hdecl⟩ := h.regular.declaredType_arg hss hv (by simp [hk]) (by simp [hk])
    simp only [Variable.localType, hk, Except.ok.injEq] at htype
    simp [Variable.actual, Gateway.parameterType, hk, Actual.cType, hdecl, htype]
  | array f =>
    obtain ⟨type, htype, hdecl⟩ := h.regular.declaredType_arg hss hv (by simp [hk]) (by simp [hk])
    have helement : (if v.onGpu = true then Numeric.gpuType v.type else v.type) = v.type := by
      cases hg : v.onGpu with
      | false => rfl
      | true => simpa [hk, hg] using hplain
    simp only [Variable.localType, hk, helement, Except.ok.injEq] at htype
    simp [Variable.actual, Gateway.parameterType, hk, Actual.cType, hdecl, htype]
  | mx =>
    simp only [hk, beq_iff_eq] at hplain
    obtain ⟨type, htype, hdecl⟩ := h.regular.declaredType_arg hss hv (by simp [hk])
      (by simp [hplain])
    simp only [Variable.localType, hk, hplain, if_true, Except.ok.injEq] at htype
    simp [Variable.actual, Gateway.parameterType, hk, hplain, Actual.cType, hdecl, htype]
  | _ => simp [hk] at hplain

theorem ForFortran.passes (h : r.ForFortran) (hss : r.mainStatements c = .ok ss)
    (hplain : ∀ v ∈ r.args, v.isPlain = true) :
    r.call.args.map (Actual.cType ss) = r.prototype.parameters.map some := by
  simp only [call, prototype, List.map_map]
  exact List.map_congr_left fun v hv => h.cType_actual hss hv (hplain v hv)

/-- The value returned is kept in a local of its type. -/
theorem ForFortran.declaredType_result (h : r.ForFortran) (hss : r.mainStatements c = .ok ss)
    {v : Variable} (hv : v ∈ r.results) : declaredType ss (.output 0) = some v.type := by
  obtain ⟨m, n, hsound⟩ := h.sound
  obtain ⟨f, hk⟩ := h.results v hv
  obtain ⟨hresults, hd, hlabel⟩ : r.results = [v] ∧ v.direction = .output ∧ v.outLabel = 0 := by
    rcases hsound.returned with e | ⟨w, e, hd, hlabel⟩
    · simp [e] at hv
    · obtain rfl : v = w := by simpa [e] using hv
      exact ⟨e, hd, hlabel⟩
  have hkept : v ∈ r.keptResults := by
    simp [keptResults, nullableReturn, hresults, hk, Kind.isNullable]
  obtain ⟨ds, hds⟩ := (mainStatements_eq_ok hss).decls
  obtain ⟨heq, -, houts⟩ := declarations_eq_ok hds
  have hnone : v.declareInput = .ok [] := by simp [Variable.declareInput, hd]
  obtain ⟨type, zeroed, htype, hmem⟩ := Variable.declare_holder hnone
    (houts v (List.mem_append_left _ hkept)) (by simp [hk]) (by simp [hk])
  have hholder : v.holder = .output 0 := by simp [Variable.holder, hd, hlabel]
  have hdecl : Stmt.declare type v.holder zeroed v.name ∈ ds := by
    rw [heq]
    simp only [List.mem_append, List.mem_flatMap]
    exact Or.inl (Or.inl (Or.inr ⟨v, Or.inl hkept, hmem⟩))
  rw [← hholder, h.regular.declaredType_decls hss hds (List.mem_append_left _ hv) htype hdecl]
  simpa [Variable.localType, hk, eq_comm] using htype

/-- The routine is called once, and the value it returns, if any, is kept. -/
theorem ForFortran.called (h : r.ForFortran) (hss : r.mainStatements c = .ok ss) :
    ∃ d, ss.filter Stmt.isCall = [.call r.call d] ∧ (d = .kept ↔ r.results ≠ []) := by
  obtain ⟨m, n, hsound⟩ := h.sound
  obtain ⟨d, hd, hcall⟩ := hsound.call_disposes hss
  have hreleases : (r.releases c.types).filter Stmt.isCall = [] :=
    filter_isCall_of_stage (fun s hs => Or.inl (stage_releases hs)) (by decide)
  rw [List.filter_append, hreleases, List.append_nil] at hcall
  refine ⟨d, hcall, ?_⟩
  unfold disposal at hd
  cases hrs : r.results with
  | nil =>
    simp only [hrs, Except.ok.injEq, Option.some.injEq] at hd
    simp [← hd]
  | cons v vs =>
    obtain ⟨f, hk⟩ := h.results v (by simp [hrs])
    simp only [hrs, Variable.disposal, hk, Except.ok.injEq, Option.some.injEq] at hd
    simp [← hd]

/-- Two routines are declared alike: place by place, and in what is returned if the second takes
it. -/
def DeclaredLike (p r : Routine) : Prop :=
  List.Forall₂ Variable.DeclaredLike p.args r.args ∧
    ∀ v ∈ r.results, v.type = p.prototype.result

instance (p r : Routine) : Decidable (p.DeclaredLike r) :=
  inferInstanceAs (Decidable (List.Forall₂ Variable.DeclaredLike p.args r.args ∧
    ∀ v ∈ r.results, v.type = p.prototype.result))

theorem parameters_eq_iff (hp : ∀ v ∈ p.args, IsWord v.type) (hr : ∀ v ∈ r.args, IsWord v.type) :
    p.prototype.parameters = r.prototype.parameters ↔
      List.Forall₂ Variable.DeclaredLike p.args r.args := by
  unfold prototype
  dsimp only
  generalize p.args = vs at hp
  generalize r.args = ws at hr
  induction vs generalizing ws with
  | nil => cases ws <;> simp
  | cons v vs ih =>
    cases ws with
    | nil => simp
    | cons w ws =>
      rw [List.forall_mem_cons] at hp hr
      rw [List.map_cons, List.map_cons, List.cons.injEq, List.forall₂_cons,
        Variable.parameterType_eq_iff hp.1 hr.1, ih hp.2 ws hr.2]

/-- **A prototype fits the stub of a routine that is declared like its own.** -/
theorem ForFortran.fits_iff (h : r.ForFortran) (hp : p.Regular) (hss : r.mainStatements c = .ok ss)
    (hplain : ∀ v ∈ r.args, v.isPlain = true) : p.prototype.Fits ss ↔ p.DeclaredLike r := by
  obtain ⟨d, hcall, hkept⟩ := h.called hss
  have honly : ∀ k d', Stmt.call k d' ∈ ss ↔ k = r.call ∧ d' = d := by
    intro k d'
    have hmem : Stmt.call k d' ∈ ss.filter Stmt.isCall ↔ Stmt.call k d' ∈ ss := by
      simp [List.mem_filter, Stmt.isCall]
    rw [← hmem, hcall]
    simp
  have hpasses := h.passes hss hplain
  constructor
  · intro hfits
    obtain ⟨hargs, hresult⟩ := hfits r.call d ((honly _ _).2 ⟨rfl, rfl⟩)
    rw [hpasses, (Option.some_injective _).list_map.eq_iff] at hargs
    refine ⟨(parameters_eq_iff hp.argTypes h.regular.argTypes).1 hargs.symm, fun v hv => ?_⟩
    have hdecl := hresult (hkept.2 (List.ne_nil_of_mem hv))
    rw [h.declaredType_result hss hv] at hdecl
    exact Option.some.inj hdecl
  · rintro ⟨hargs, hresult⟩ k d' hmem
    obtain ⟨rfl, rfl⟩ := (honly k d').1 hmem
    rw [hpasses, (parameters_eq_iff hp.argTypes h.regular.argTypes).2 hargs]
    refine ⟨rfl, fun e => ?_⟩
    obtain ⟨v, hv⟩ := List.exists_mem_of_ne_nil _ (hkept.1 e)
    rw [h.declaredType_result hss hv, hresult v hv]

end Routine

/-! ## One prototype for each name -/

namespace Gateway

theorem filter_firstOfName (name : String) (seen : List String) (rs : List Routine) :
    (firstOfName seen rs).filter (·.name = name)
      = if name ∈ seen then [] else (rs.find? (·.name = name)).toList := by
  induction rs generalizing seen with
  | nil => simp [firstOfName]
  | cons r rs ih =>
    unfold firstOfName
    by_cases hseen : r.name ∈ seen
    · rw [if_pos (by simpa using hseen), ih]
      by_cases hname : r.name = name
      · subst hname
        simp [hseen]
      · simp [hname]
    · rw [if_neg (by simpa using hseen)]
      by_cases hname : r.name = name
      · subst hname
        simp [ih, hseen]
      · simp [ih, hname, Ne.symm hname]

/-- The prototypes are written one after the other. -/
theorem fortranPrototypes_eq (gs : List Group) : fortranPrototypes gs
    = "#ifdef __cplusplus\nextern \"C\" \x7b /* Prevent C++ name mangling */\n#endif\n\n"
      ++ "#ifndef MWF77_RETURN\n#define MWF77_RETURN int\n#endif\n\n"
      ++ String.join ((fortranRoutines gs).map (·.prototype.text))
      ++ "\n#ifdef __cplusplus\n\x7d /* end extern C */\n#endif\n\n" := by
  unfold fortranPrototypes
  rw [List.map_congr_left fun r _ => r.text_prototype]

/-- The prototype of a name is that of the first FORTRAN routine with this name. -/
theorem filter_fortranRoutines (gs : List Group) (name : String) :
    (fortranRoutines gs).filter (·.name = name)
      = ((gs.map (·.first)).find? fun r => r.fortran && r.name = name).toList := by
  rw [fortranRoutines, filter_firstOfName, if_neg (by simp), List.find?_filter]
  congr 2
  funext r
  cases r.fortran <;> simp

end Gateway

namespace Ledger

/-- In a run without errors, FORTRAN routines are ready to be called. -/
theorem forFortran_run {mex : String} {c : Context} {es : List Event} (hes : Lexed es)
    (h : (run mex { context := c } es).errors + (run mex { context := c } es).typeErrors = 0) :
    ∀ r ∈ (run mex { context := c } es).routines, r.fortran = true → r.ForFortran := by
  refine routines_run hes (fun l file ts r _ hts hparse h0 => ?_) h
  have hnames : Statement.NamesSatisfy IsName ts := by
    intro u hu hk
    obtain ⟨line, cs, hu⟩ := hts u hu
    exact Token.isName_tokens hu hk
  have hr := written_promote (p := l.context.settings.promotion) (fun _ hs => hs.rename _)
    (Statement.written_of_parse hnames hparse) (l.count + 1)
  intro hf
  exact hr.forFortran h0 hf (regular_checked hparse hts h0 rfl)

/-- **A prototype fits the calls that are declared like its routine.** Take a run without errors and
the stub of a FORTRAN routine whose arguments are numbers, arrays and MATLAB arrays passed in. Among
the prototypes that the gateway file lists, one is of its name, that of the first FORTRAN routine
with this name. The stub makes one call; the prototype asks for as many arguments as it passes,
place by place of the C types passed, and promises the type of the local that keeps the value,
exactly if the routine is declared like that first one. -/
theorem prototype_fits_iff {mex : String} {c₀ : Context} {es : List Event} (hes : Lexed es)
    (herrors : (run mex { context := c₀ } es).errors = 0)
    (htypes : (run mex { context := c₀ } es).typeErrors = 0) {g : Group}
    (hg : g ∈ (run mex { context := c₀ } es).groups) (hfortran : g.first.fortran = true)
    (hplain : ∀ v ∈ g.first.args, v.isPlain = true) {c : Context} {text : String}
    (hstub : g.stub c = .ok text) :
    let gs := (run mex { context := c₀ } es).groups
    ∃ p, (Gateway.fortranRoutines gs).filter (·.name = g.first.name) = [p] ∧
      (gs.map (·.first)).find? (fun r => r.fortran && r.name = g.first.name) = some p ∧
      Gateway.prototype p = p.prototype.text ∧
      Gateway.fortranPrototypes gs
        = "#ifdef __cplusplus\nextern \"C\" \x7b /* Prevent C++ name mangling */\n#endif\n\n"
          ++ "#ifndef MWF77_RETURN\n#define MWF77_RETURN int\n#endif\n\n"
          ++ String.join ((Gateway.fortranRoutines gs).map (·.prototype.text))
          ++ "\n#ifdef __cplusplus\n\x7d /* end extern C */\n#endif\n\n" ∧
      ∃ ss d, g.first.mainStatements c = .ok ss ∧
        text = g.stubHead (g.first.signature c.settings.promotion)
          ++ Code.render (ss.flatMap Stmt.code) ++ "\nmw_err_label:\n"
          ++ Code.render ((g.first.releases c.types).flatMap Stmt.code) ++ Group.stubTail ∧
        ss.filter Stmt.isCall = [.call g.first.call d] ∧
        g.first.call.callee = .fortran g.first.name ∧
        (p.prototype.Fits ss ↔ p.DeclaredLike g.first) := by
  intro gs
  have hready := forFortran_run hes (by rw [herrors, htypes])
  have hfirst := hready g.first (Filed.mem_routines hg List.mem_cons_self) hfortran
  obtain ⟨p, hp⟩ : ∃ p, (gs.map (·.first)).find? (fun r => r.fortran && r.name = g.first.name)
      = some p := by
    refine Option.isSome_iff_exists.1 (List.find?_isSome.2 ⟨g.first, ?_, by simp [hfortran]⟩)
    exact List.mem_map_of_mem hg
  have hregular : p.Regular := by
    obtain ⟨g', hg', rfl⟩ := List.mem_map.1 (List.mem_of_find?_eq_some hp)
    have hf' := List.find?_some hp
    simp only [Bool.and_eq_true] at hf'
    exact (hready g'.first (Filed.mem_routines hg' List.mem_cons_self) hf'.1).regular
  obtain ⟨signature, hsigned, h⟩ := bind_eq_ok.1 hstub
  obtain ⟨ss, hss, htext⟩ := bind_eq_ok.1 h
  obtain ⟨d, hcall, -⟩ := hfirst.called hss
  have hsignature : signature = g.first.signature c.settings.promotion := by
    unfold Routine.signed at hsigned
    split at hsigned <;> cases hsigned
    rfl
  refine ⟨p, ?_, hp, p.text_prototype, Gateway.fortranPrototypes_eq gs, ss, d, hss, ?_, hcall, ?_, ?_⟩
  · rw [Gateway.filter_fortranRoutines, hp]
    rfl
  · rw [← Except.ok.inj htext, hsignature, render_flatMap, render_flatMap]
  · simp [Routine.call, hfirst.name, hfortran]
  · exact hfirst.fits_iff hregular hss hplain

/-- Two declarations of one routine, alike but for a direction and names. -/
def normEvents : List Event :=
  (Token.tokens 1 ("double s = FORTRAN norm(int n, double[n] x, mxArray a); "
    ++ "double t = FORTRAN norm(int m, inout double[m] y, mxArray b);").toList).map (.token "a.mw")

theorem prototype_fits_normEvents :
    let l := run "gate" { context := {} } normEvents
    l.errors = 0 ∧ l.typeErrors = 0 ∧ ∃ g ∈ l.groups, ∃ p ss,
      g.first.fortran = true ∧ (∀ v ∈ g.first.args, v.isPlain = true) ∧ p.id = 1 ∧ g.first.id = 2 ∧
      (Gateway.fortranRoutines l.groups).filter (·.name = g.first.name) = [p] ∧
      g.first.mainStatements l.context = .ok ss ∧ p.prototype.Fits ss := by
  intro l
  have herrors : l.errors = 0 := by decide +kernel
  have htypes : l.typeErrors = 0 := by decide +kernel
  have hsecond : ∃ g ∈ l.groups, g.first.fortran = true ∧ (g.stub l.context).toBool = true ∧
      (∀ v ∈ g.first.args, v.isPlain = true) ∧ g.first.id = 2 ∧
      ∀ p ∈ (Gateway.fortranRoutines l.groups).filter (·.name = g.first.name),
        p.id = 1 ∧ p.DeclaredLike g.first := by
    decide +kernel
  obtain ⟨g, hg, hfortran, hstub, hplain, hid, hlike⟩ := hsecond
  cases htext : g.stub l.context with
  | error e => simp [htext, Except.toBool] at hstub
  | ok text =>
    obtain ⟨p, hp, -, -, -, ss, d, hss, -, -, -, hfits⟩ := prototype_fits_iff (lexed_tokens _ _ _)
      herrors htypes hg hfortran hplain htext
    obtain ⟨hfirst, hlike⟩ := hlike p (hp ▸ List.mem_singleton_self p)
    exact ⟨herrors, htypes, g, hg, p, ss, hfortran, hplain, hfirst, hid, hp, hss, hfits.2 hlike⟩

/-- Two declarations of one name that do not agree in a type. -/
def discordEvents : List Event :=
  (Token.tokens 1 "FORTRAN f(int x); FORTRAN f(double x);".toList).map (.token "a.mw")

/-- The prototype of the first does not fit the call of the second. -/
theorem prototype_misfits_discordEvents :
    let l := run "gate" { context := {} } discordEvents
    l.errors = 0 ∧ l.typeErrors = 0 ∧
      (Gateway.fortranRoutines l.groups).map Gateway.prototype
        = ["MWF77_RETURN MWF77_f(int*);\n"] ∧
      ∃ g ∈ l.groups, g.first.call.callee = .fortran "f" ∧
        (g.first.mainStatements l.context).toOption.map
          (fun ss => g.first.call.args.map (Actual.cType ss)) = some [some "double*"] := by
  decide +kernel

end Ledger

end MexBridge
