import MexBridge.Proofs.Ledger.Run
import MexBridge.Proofs.Routine.Checking
import MexBridge.Token.Lexer
import Mathlib.Data.List.Nodup

/-!
# The calling convention

The labels of a routine say where the stub looks for each of its variables; the MATLAB call lists
the same variables. The two walk the routine on their own, and agree for every routine that passed
its check: what carries label `j` is what the call lists at place `j`.
-/

namespace MexBridge

/-- `k` labels in a row, from `n` on. -/
def labelsFrom (n k : Nat) : List Int := (List.range' n k).map fun (i : Nat) => (i : Int)

theorem labelsFrom_append (n k m : Nat) :
    labelsFrom n k ++ labelsFrom (n + k) m = labelsFrom n (k + m) := by
  rw [labelsFrom, labelsFrom, ← List.map_append, List.range'_append_1, labelsFrom]

theorem labelsFrom_zero_append (k m : Nat) :
    labelsFrom 0 k ++ labelsFrom k m = labelsFrom 0 (k + m) := by
  simpa using labelsFrom_append 0 k m

theorem labelsFrom_succ (n k : Nat) : labelsFrom n (k + 1) = (n : Int) :: labelsFrom (n + 1) k := by
  simp [labelsFrom, List.range'_succ]

@[simp] theorem length_labelsFrom (n k : Nat) : (labelsFrom n k).length = k := by
  simp [labelsFrom]

theorem mem_labelsFrom {n k : Nat} {j : Int} : j ∈ labelsFrom n k ↔ n ≤ j ∧ j < n + k := by
  simp only [labelsFrom, List.mem_map, List.mem_range'_1]
  constructor
  · rintro ⟨i, hi, rfl⟩
    omega
  · intro hj
    exact ⟨j.toNat, by omega, by omega⟩

theorem nodup_labelsFrom (n k : Nat) : (labelsFrom n k).Nodup :=
  List.Nodup.map (fun _ _ h => Int.ofNat.inj h) List.nodup_range'

/-! ## Labels of variables -/

/-- The right-hand places of what is passed in. -/
def inLabels (vs : List Variable) : List Int :=
  (vs.filter (·.direction.isInput)).map (·.inLabel)

/-- The left-hand places of what is handed back. -/
def outLabels (vs : List Variable) : List Int :=
  (vs.filter (·.direction.isOutput)).map (·.outLabel)

/-- The right-hand places of the dimensions. -/
def dimPlaces (vs : List Variable) : List Int := (vs.flatMap (·.dims)).map (·.label)

theorem inLabels_frame (vs : List Variable) : inLabels (vs.map Variable.frame) = inLabels vs := by
  simp [inLabels, List.filter_map, Function.comp_def, Variable.frame]

theorem outLabels_frame (vs : List Variable) :
    outLabels (vs.map Variable.frame) = outLabels vs := by
  simp [outLabels, List.filter_map, Function.comp_def, Variable.frame]

theorem dimPlaces_frame (vs : List Variable) :
    dimPlaces (vs.map Variable.frame) = dimPlaces vs := by
  simp [dimPlaces, List.flatMap_map, Variable.frame, Variable.dims]

theorem inLabels_labelVariables {x : Int} {i : Nat} (hx : x = i) (o : Int) (vs : List Variable) :
    inLabels (labelVariables x o vs).1 = labelsFrom i (vs.countP (·.direction.isInput)) ∧
      (labelVariables x o vs).2.1 = (i + vs.countP (·.direction.isInput) : Nat) := by
  induction vs generalizing x i o with
  | nil => simp [labelVariables, inLabels, labelsFrom, hx]
  | cons v vs ih =>
    by_cases hv : v.direction.isInput = true
    · have hx' : x + 1 = (i + 1 : Nat) := by omega
      obtain ⟨h1, h2⟩ := ih hx' (if v.direction.isOutput then o + 1 else o)
      simp_all [labelVariables, inLabels, labelsFrom_succ]
      omega
    · obtain ⟨h1, h2⟩ := ih hx (if v.direction.isOutput then o + 1 else o)
      simp_all [labelVariables, inLabels]

theorem outLabels_labelVariables {y : Int} {o : Nat} (hy : y = o) (i : Int) (vs : List Variable) :
    outLabels (labelVariables i y vs).1 = labelsFrom o (vs.countP (·.direction.isOutput)) ∧
      (labelVariables i y vs).2.2 = (o + vs.countP (·.direction.isOutput) : Nat) := by
  induction vs generalizing y i o with
  | nil => simp [labelVariables, outLabels, labelsFrom, hy]
  | cons v vs ih =>
    by_cases hv : v.direction.isOutput = true
    · have hy' : y + 1 = (o + 1 : Nat) := by omega
      obtain ⟨h1, h2⟩ := ih hy' (if v.direction.isInput then i + 1 else i)
      simp_all [labelVariables, outLabels, labelsFrom_succ]
      omega
    · obtain ⟨h1, h2⟩ := ih hy (if v.direction.isInput then i + 1 else i)
      simp_all [labelVariables, outLabels]

theorem label_labelDims (n : Nat) (ds : List Dim) :
    (labelDims n ds).map (·.label) = labelsFrom n ds.length := by
  induction ds generalizing n with
  | nil => rfl
  | cons d ds ih =>
    have h := ih (n + 1)
    simp_all [labelDims, labelsFrom_succ]

theorem dims_labelled (n : Int) (v : Variable) :
    Variable.dims { v with
      qualifier := v.qualifier.map fun q => { q with dims := labelDims n q.dims } }
      = labelDims n v.dims := by
  unfold Variable.dims
  cases v.qualifier <;> rfl

theorem dimPlaces_labelAllDims {x : Int} {n : Nat} (hx : x = n) (vs : List Variable) :
    dimPlaces (labelAllDims x vs).1 = labelsFrom n (dimPlaces vs).length ∧
      (labelAllDims x vs).2 = (n + (dimPlaces vs).length : Nat) := by
  induction vs generalizing x n with
  | nil => simp [labelAllDims, dimPlaces, labelsFrom, hx]
  | cons v vs ih =>
    have hx' : x + v.dims.length = (n + v.dims.length : Nat) := by omega
    obtain ⟨h1, h2⟩ := ih hx'
    have hlen : (dimPlaces (v :: vs)).length = v.dims.length + (dimPlaces vs).length := by
      simp [dimPlaces]
    have hcons : dimPlaces (labelAllDims x (v :: vs)).1
        = (labelDims x v.dims).map (·.label)
          ++ dimPlaces (labelAllDims (x + v.dims.length) vs).1 := by
      simp [labelAllDims, dimPlaces, dims_labelled]
    refine ⟨?_, ?_⟩
    · rw [hcons, h1, hx, label_labelDims, labelsFrom_append, hlen]
    · rw [hlen, ← Nat.add_assoc]
      exact h2

/-! Dimensions are numbered apart from variables. -/

theorem inLabels_labelAllDims (n : Int) (vs : List Variable) :
    inLabels (labelAllDims n vs).1 = inLabels vs := by
  induction vs generalizing n with
  | nil => rfl
  | cons v vs ih => simp_all [labelAllDims, inLabels, List.filter_cons, apply_ite (List.map _)]

theorem outLabels_labelAllDims (n : Int) (vs : List Variable) :
    outLabels (labelAllDims n vs).1 = outLabels vs := by
  induction vs generalizing n with
  | nil => rfl
  | cons v vs ih => simp_all [labelAllDims, outLabels, List.filter_cons, apply_ite (List.map _)]

theorem outLabels_append (vs ws : List Variable) :
    outLabels (vs ++ ws) = outLabels vs ++ outLabels ws := by simp [outLabels]

theorem dimPlaces_append (vs ws : List Variable) :
    dimPlaces (vs ++ ws) = dimPlaces vs ++ dimPlaces ws := by simp [dimPlaces]

/-! ## Labels of a routine -/

namespace Routine

/-- The places of all that is passed in: the receiver, the arguments, the dimensions. -/
def rightPlaces (r : Routine) : List Int :=
  r.receiver?.toList.map (fun _ => 0) ++ inLabels r.args ++ dimPlaces (r.results ++ r.args)

@[simp] theorem receiver?_labelled (r : Routine) : r.labelled.receiver? = r.receiver? := rfl

/-- Labelling numbers the right-hand side without a gap, unless a result is passed in. -/
theorem rightPlaces_labelled (r : Routine) (h : ∀ v ∈ r.results, v.direction = .output) :
    ∃ k, r.labelled.rightPlaces = labelsFrom 0 k := by
  have hbase : (if r.receiver?.isSome then 1 else 0 : Int) = (r.receiver?.toList.length : Nat) := by
    cases r.receiver? <;> rfl
  have hthis : r.receiver?.toList.map (fun _ => 0) = labelsFrom 0 r.receiver?.toList.length := by
    cases r.receiver? <;> rfl
  have hnone : r.results.countP (·.direction.isInput) = 0 := by
    rw [List.countP_eq_zero]
    intro v hv
    simp [h v hv, Direction.isInput]
  -- each part takes up the numbers where the one before it stopped
  obtain ⟨-, hrs⟩ := inLabels_labelVariables hbase 0 r.results
  rw [hnone, Nat.add_zero] at hrs
  rw [rightPlaces, receiver?_labelled, hthis, dimPlaces_append]
  simp only [labelled, inLabels_labelAllDims]
  generalize labelVariables _ 0 r.results = rs at hrs ⊢
  obtain ⟨hargs, has⟩ := inLabels_labelVariables hrs rs.2.2 r.args
  obtain ⟨hrd, hnext⟩ := dimPlaces_labelAllDims has rs.1
  obtain ⟨had, -⟩ := dimPlaces_labelAllDims hnext (labelVariables rs.2.1 rs.2.2 r.args).1
  rw [hargs, hrd, had, ← List.append_assoc, labelsFrom_zero_append, labelsFrom_zero_append,
    labelsFrom_zero_append]
  exact ⟨_, rfl⟩

theorem leftPlaces_labelled (r : Routine) :
    ∃ k, outLabels (r.labelled.results ++ r.labelled.args) = labelsFrom 0 k := by
  obtain ⟨hres, hnext⟩ := outLabels_labelVariables (y := 0) (o := 0) rfl
    (if r.receiver?.isSome then 1 else 0) r.results
  obtain ⟨hargs, -⟩ := outLabels_labelVariables hnext
    (labelVariables (if r.receiver?.isSome then 1 else 0) 0 r.results).2.1 r.args
  rw [outLabels_append]
  simp only [labelled, outLabels_labelAllDims]
  rw [hres, hargs, labelsFrom_append]
  exact ⟨_, rfl⟩

theorem Passed.receiver? {t : TypeTable} {r s : Routine} (h : r.Passed t s) :
    s.receiver? = r.receiver? := by rw [h.rest]; rfl

/-- Checking moves nothing. -/
theorem Passed.rightPlaces {t : TypeTable} {r s : Routine} (h : r.Passed t s) :
    s.rightPlaces = r.rightPlaces := by
  rw [Routine.rightPlaces, h.receiver?, ← inLabels_frame, ← dimPlaces_frame, List.map_append,
    h.resultFrames, h.argFrames, ← List.map_append, inLabels_frame, dimPlaces_frame,
    Routine.rightPlaces]

theorem Passed.leftPlaces {t : TypeTable} {r s : Routine} (h : r.Passed t s) :
    outLabels (s.results ++ s.args) = outLabels (r.results ++ r.args) := by
  rw [← outLabels_frame, List.map_append, h.resultFrames, h.argFrames, ← List.map_append,
    outLabels_frame]

/-! ## What the call lists -/

/-- What is passed in, each with its label: the receiver by name, the arguments by name unless they
are constants, and the dimensions by their texts. -/
def passedIn (r : Routine) : List (Int × String) :=
  r.receiver?.toList.map (fun this => (0, this))
    ++ (r.args.filter (·.direction.isInput)).map
      (fun v => (v.inLabel, if v.kind = .const then "0" else v.name))
    ++ (r.results ++ r.args).flatMap fun v => v.dims.map fun d => (d.label, d.text)

/-- What is handed back, each with its label. -/
def handedBack (r : Routine) : List (Int × String) :=
  ((r.results ++ r.args).filter (·.direction.isOutput)).map fun v => (v.outLabel, v.name)

theorem fst_passedIn (r : Routine) : r.passedIn.map (·.1) = r.rightPlaces := by
  simp [passedIn, Routine.rightPlaces, inLabels, dimPlaces, List.map_flatMap, Function.comp_def]

theorem fst_handedBack (r : Routine) :
    r.handedBack.map (·.1) = outLabels (r.results ++ r.args) := by
  simp [handedBack, outLabels, Function.comp_def]

theorem snd_handedBack (r : Routine) : r.handedBack.map (·.2) = r.outputNames := by
  simp [handedBack, outputNames, Function.comp_def]

/-- The call lists every constant, so all of them have to be passed in. -/
theorem snd_passedIn {r : Routine} (h : ∀ v ∈ r.args, v.SoundArg) :
    r.passedIn.map (·.2) = r.inputTexts := by
  have hargs : r.args.filterMap inputText = (r.args.filter (·.direction.isInput)).map
      fun v => if v.kind = .const then "0" else v.name := by
    rw [← List.filterMap_eq_map, List.filterMap_filter]
    refine List.filterMap_congr fun v hv => ?_
    have hconst := (h v hv).const
    unfold inputText
    by_cases hc : v.kind = .const
    · simp [hc, hconst hc, Direction.isInput]
    · simp [hc]
  simp [passedIn, inputTexts, hargs, List.map_flatMap, Function.comp_def]

end Routine

/-- Where the labels count up from 0, each is the place of what it labels. -/
theorem getElem?_of_labels {l : List (Int × String)} {k : Nat} (h : l.map (·.1) = labelsFrom 0 k) :
    ∀ p ∈ l, (l.map (·.2))[p.1.toNat]? = some p.2 := by
  intro p hp
  obtain ⟨i, hi⟩ := List.mem_iff_getElem?.1 hp
  have hlabel : (labelsFrom 0 k)[i]? = some p.1 := by rw [← h, List.getElem?_map, hi]; rfl
  obtain ⟨-, hpi⟩ : i < k ∧ (i : Int) = p.1 := by
    simpa [labelsFrom, List.getElem?_eq_some_iff] using hlabel
  rw [← hpi, Int.toNat_natCast, List.getElem?_map, hi]
  rfl

/-- On both sides of the call of a checked routine the labels are the places of what is listed. -/
theorem Routine.places_check {Q : String → Prop} {t : TypeTable} {r s : Routine} (hr : r.Written Q)
    (h : (r.check t).errors = 0) (hs : (r.check t).value = s) :
    s.rightPlaces = labelsFrom 0 s.inputTexts.length ∧
      outLabels (s.results ++ s.args) = labelsFrom 0 s.outputNames.length := by
  have hp := hs ▸ passed_of_errors hr h
  obtain ⟨k, hright⟩ := r.rightPlaces_labelled fun v hv => (hr.results v hv).output
  obtain ⟨m, hleft⟩ := r.leftPlaces_labelled
  rw [← hp.rightPlaces] at hright
  rw [← hp.leftPlaces] at hleft
  have hk : s.inputTexts.length = k := by
    rw [← snd_passedIn hp.soundArg, List.length_map, ← length_labelsFrom 0 k, ← hright,
      ← fst_passedIn, List.length_map]
  have hm : s.outputNames.length = m := by
    rw [← snd_handedBack, List.length_map, ← length_labelsFrom 0 m, ← hleft, ← fst_handedBack,
      List.length_map]
  rw [hk, hm]
  exact ⟨hright, hleft⟩

namespace Ledger

/-- Promotion keeps the form of a declaration. -/
theorem written_promote {Q : String → Prop} {p : Promotion} (hQ : ∀ s, Q s → Q (p.rename s))
    {r : Routine} (h : r.Written Q) (id : Int) :
    Routine.Written Q { promote p r with id := id } := by
  refine ⟨h.callee.congr rfl rfl rfl rfl, ?_, ?_, ?_⟩
  · intro w hw
    obtain ⟨v, hv, rfl⟩ := List.mem_map.1 hw
    have hv := h.args v hv
    exact ⟨hQ _ hv.type, hv.device, hv.direction, hv.qualifier, hv.inLabel, hv.outLabel⟩
  · intro w hw
    obtain ⟨v, hv, rfl⟩ := List.mem_map.1 hw
    obtain ⟨hv, hout, hcpu⟩ := h.results v hv
    exact ⟨⟨hQ _ hv.type, hv.device, hv.direction, hv.qualifier, hv.inLabel, hv.outLabel⟩, hout,
      hcpu⟩
  · simpa [promote] using h.single

/-- A parsed declaration is checked as it was written, whatever names stand in it. -/
theorem written_parsed {file : String} {ts : List Token} {r : Routine}
    (h : Statement.parse file ts = .ok (.call r)) (l : Ledger) :
    Routine.Written (fun _ => True)
      { promote l.context.settings.promotion r with id := l.count + 1 } :=
  written_promote (fun _ _ => trivial) (Statement.written_of_parse (fun _ _ _ => trivial) h) _

/-- **The MATLAB call and the stub agree.** In whatever state a declaration is entered, if its
check finds no error then the labels of what is passed in are the places of the right-hand list,
each once, and at place `j` of the list stands what has label `j`; and likewise on the left. The
call lists the one after `mex_id_` and the other before the equals sign. -/
theorem places_eq_labels {file : String} {ts : List Token} {r : Routine}
    (hparse : Statement.parse file ts = .ok (.call r)) (l : Ledger)
    (h : (l.checked r).errors = 0) :
    let s := (l.checked r).value
    (s.passedIn.map (·.1)).Nodup ∧
      (∀ j : Int, j ∈ s.passedIn.map (·.1) ↔ 0 ≤ j ∧ j < s.inputTexts.length) ∧
      (∀ p ∈ s.passedIn, s.inputTexts[p.1.toNat]? = some p.2) ∧
      (s.handedBack.map (·.1)).Nodup ∧
      (∀ j : Int, j ∈ s.handedBack.map (·.1) ↔ 0 ≤ j ∧ j < s.outputNames.length) ∧
      (∀ p ∈ s.handedBack, s.outputNames[p.1.toNat]? = some p.2) ∧
      ∀ mex, ∃ left right, s.matlabCall mex =
          "mex_id_ = " ++ toString (l.count + 1) ++ ";\n" ++ left ++ mex ++ "(" ++ right ++ ");\n" ∧
        left = (if s.outputNames = [] then "" else "[" ++ ", ".intercalate s.outputNames ++ "] = ") ∧
        right = ", ".intercalate ("mex_id_" :: s.inputTexts) := by
  intro s
  have hr : r.Written fun _ => True := Statement.written_of_parse (fun _ _ _ => trivial) hparse
  have hr' := written_promote (p := l.context.settings.promotion) (fun _ _ => trivial) hr
    (l.count + 1)
  obtain ⟨hright, hleft⟩ : s.rightPlaces = _ ∧ _ := Routine.places_check hr' h rfl
  rw [← Routine.fst_passedIn] at hright
  rw [← Routine.fst_handedBack] at hleft
  have hp := Routine.passed_of_errors hr' h
  have htexts : s.passedIn.map (·.2) = s.inputTexts := Routine.snd_passedIn hp.soundArg
  have hnames : s.handedBack.map (·.2) = s.outputNames := Routine.snd_handedBack s
  refine ⟨hright ▸ nodup_labelsFrom 0 _, ?_, htexts ▸ getElem?_of_labels hright,
    hleft ▸ nodup_labelsFrom 0 _, ?_, hnames ▸ getElem?_of_labels hleft,
    fun mex => ⟨_, _, ?_, rfl, rfl⟩⟩
  · intro j
    rw [hright, mem_labelsFrom]
    simp [s]
  · intro j
    rw [hleft, mem_labelsFrom]
    simp [s]
  · have hid : s.id = l.count + 1 := congrArg Routine.id hp.rest
    simp only [Routine.matlabCall, hid, List.isEmpty_iff]
    rfl

/-- A method call with a constant, an array that goes both ways and two dimensions in common. -/
def scaleTokens : List Token := Token.tokens 1
  "double q = obj->Point.scale(const 2, inout double[m,n] a, output int* k, double[n] b);".toList

def scaleRoutine : Routine where
  receiver := some "obj"
  owner := some "Point"
  name := "scale"
  file := "a.mw"
  line := 1
  args := [
    { type := "const", name := "2" },
    { direction := .inout, type := "double", name := "a"
      qualifier := some { mark := .array, dims := [{ text := "m" }, { text := "n" }] } },
    { direction := .output, type := "int", name := "k", qualifier := some { mark := .pointer } },
    { type := "double", name := "b"
      qualifier := some { mark := .array, dims := [{ text := "n" }] } }]
  results := [{ direction := .output, type := "double", name := "q" }]

theorem parse_scaleTokens : Statement.parse "a.mw" scaleTokens = .ok (.call scaleRoutine) := by
  decide +kernel

theorem errors_scaleRoutine : (({} : Ledger).checked scaleRoutine).errors = 0 := by decide +kernel

theorem places_eq_labels_scaleRoutine :
    let s := (({} : Ledger).checked scaleRoutine).value
    Statement.parse "a.mw" scaleTokens = .ok (.call scaleRoutine) ∧
      (({} : Ledger).checked scaleRoutine).errors = 0 ∧
      s.inputTexts = ["obj", "0", "a", "b", "m", "n", "n"] ∧ s.outputNames = ["q", "a", "k"] ∧
      (∀ j : Int, j ∈ s.passedIn.map (·.1) ↔ 0 ≤ j ∧ j < s.inputTexts.length) ∧
      (∀ p ∈ s.passedIn, s.inputTexts[p.1.toNat]? = some p.2) ∧
      s.matlabCall "gate" =
        "mex_id_ = 1;\n[q, a, k] = gate(mex_id_, obj, 0, a, b, m, n, n);\n" := by
  intro s
  have hin : s.inputTexts = ["obj", "0", "a", "b", "m", "n", "n"] := by decide +kernel
  have hout : s.outputNames = ["q", "a", "k"] := by decide +kernel
  obtain ⟨-, hright, htexts, -, -, -, hcall⟩ :=
    places_eq_labels parse_scaleTokens {} errors_scaleRoutine
  obtain ⟨_, _, htext, rfl, rfl⟩ := hcall "gate"
  refine ⟨parse_scaleTokens, errors_scaleRoutine, hin, hout, hright, htexts, htext.trans ?_⟩
  rw [hin, hout]
  decide +kernel

end Ledger

end MexBridge
