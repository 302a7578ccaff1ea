import MexBridge.Proofs.Ledger.Declared

/-!
# The signature as a key

A signature has no room for two readings, once no mark is a letter and every constant is a word: the
blanks, commas and brackets between its parts are no characters of names. So it can be taken apart
from the front, list by list, and routines share one exactly if they agree in all that it shows
(`signature_eq_iff`).
-/

namespace MexBridge

/-! ## Variables -/

/-- What stands behind a variable: the next one, the end of the list, or the function called. -/
def Closes (x : List Char) : Prop := ∃ y, x = ',' :: y ∨ x = ')' :: y ∨ x = ' ' :: '=' :: y

theorem Closes.ends {x : List Char} (h : Closes x) : Ends x := by
  obtain ⟨y, h | h | h⟩ := h
  · exact ⟨y, Or.inl h⟩
  · exact ⟨y, Or.inr (Or.inl h)⟩
  · exact ⟨'=' :: y, Or.inr (Or.inr h)⟩

theorem Closes.stops {x : List Char} (h : Closes x) : Stops isNameChar x := by
  obtain ⟨y, rfl | rfl | rfl⟩ := h <;> exact stops_cons (by decide) _

theorem Closes.ne_equals {x z : List Char} (h : Closes x) : x ≠ '=' :: z := by
  obtain ⟨y, rfl | rfl | rfl⟩ := h <;> simp

namespace Variable

/-- All that a signature shows of a variable is the same in both. -/
structure Agrees (v w : Variable) : Prop where
  device : v.device = w.device
  direction : v.direction = w.direction
  type : v.type = w.type
  mark : v.qualifier.map (·.mark) = w.qualifier.map (·.mark)
  dims : v.dims.length = w.dims.length
  const : v.kind = .const ↔ w.kind = .const
  value : v.kind = .const → v.name = w.name

/-- A variable whose signature can be taken apart. -/
structure Legible (p : Promotion) (v : Variable) : Prop where
  written : v.Written IsName
  promoted : p.rename v.type = v.type
  noRef : v.isRef = false
  value : v.kind = .const → IsWord v.name

variable {p : Promotion} {v w : Variable} {x y : List Char}

/-- A value is not taken for the sign behind a variable that has none. -/
theorem shownValue_ne (hv : v.kind = .const → IsWord v.name) (hk : v.kind = .const) (hx : Closes x)
    (hy : Closes y) : v.shownValue ++ x ≠ y := by
  intro h
  rw [shownValue, if_pos hk] at h
  obtain ⟨z, rfl | rfl | rfl⟩ := hy
  · cases h
  · cases h
  obtain ⟨-, hx'⟩ := append_inj_of_stops (b := []) (hv hk) (by simp) hx.stops
    (stops_cons (by decide) z) (List.cons.inj h).2
  exact hx.ne_equals hx'

theorem shownValue_inj (hv : v.kind = .const → IsWord v.name) (hw : w.kind = .const → IsWord w.name)
    (hx : Closes x) (hy : Closes y) (h : v.shownValue ++ x = w.shownValue ++ y) :
    (v.kind = .const ↔ w.kind = .const) ∧ (v.kind = .const → v.name = w.name) ∧ x = y := by
  by_cases hvk : v.kind = .const
  · by_cases hwk : w.kind = .const
    · rw [shownValue, shownValue, if_pos hvk, if_pos hwk] at h
      obtain ⟨hname, hxy⟩ := append_inj_of_stops (hv hvk) (hw hwk) hx.stops hy.stops
        (List.cons.inj h).2
      exact ⟨by simp [hvk, hwk], fun _ => String.toList_inj.1 hname, hxy⟩
    · have hnone : w.shownValue = [] := by rw [shownValue, if_neg hwk]
      rw [hnone, List.nil_append] at h
      exact absurd h (shownValue_ne hv hvk hx hy)
  · have hnone : v.shownValue = [] := by rw [shownValue, if_neg hvk]
    rw [hnone, List.nil_append] at h
    by_cases hwk : w.kind = .const
    · exact absurd h.symm (shownValue_ne hw hwk hy hx)
    · rw [shownValue, if_neg hwk] at h
      exact ⟨by simp [hvk, hwk], fun hk => absurd hk hvk, h⟩

/-- One symbol has one number of dimensions. -/
theorem length_dims_of_symbol {Q : String → Prop} (hv : v.Written Q) (hw : w.Written Q)
    (hmark : v.qualifier.map (·.mark) = w.qualifier.map (·.mark)) (href : v.isRef = false)
    (h : v.symbol = w.symbol) : v.dims.length = w.dims.length := by
  cases hvq : v.qualifier with
  | none =>
    have hwq : w.qualifier = none := by simpa [hvq] using hmark.symm
    simp [dims, hvq, hwq]
  | some q =>
    rw [hvq, Option.map_some] at hmark
    obtain ⟨q', hwq, hqq⟩ := Option.map_eq_some_iff.1 hmark.symm
    simp only [dims, hvq, hwq]
    rcases hv.qualifier q hvq with hm | hm | ⟨hm, hdims⟩
    · have hlength := congrArg List.length h
      simpa [symbol, hvq, hwq, hqq, hm, Qualifier.signature] using hlength
    · simp [isRef, hvq, hm] at href
    · rcases hw.qualifier q' hwq with hm' | hm' | ⟨-, hdims'⟩
      · rw [← hqq, hm'] at hm
        simp at hm
      · rw [← hqq, hm'] at hm
        simp at hm
      · rw [hdims, hdims']

/-- Variables are read off the front of a text one at a time. -/
theorem agrees_of_text (hv : v.Legible p) (hw : w.Legible p) (hx : Closes x) (hy : Closes y)
    (h : (v.signature p).toList ++ x = (w.signature p).toList ++ y) : v.Agrees w ∧ x = y := by
  obtain ⟨hdev, hdir, htype, h⟩ := parts_of_text hv.written hw.written hx.ends hy.ends h
  rw [hv.noRef, hw.noRef, hv.promoted, hw.promoted] at htype
  have htype : v.type = w.type := String.toList_inj.1 (List.append_cancel_right htype)
  obtain ⟨hrest, hmark⟩ := hv.written.symbol.inj hw.written.symbol (toList_ends hx.ends)
    (toList_ends hy.ends) h
  have hsymbol : v.symbol = w.symbol := by
    rw [hrest] at h
    exact List.append_cancel_right h
  have hmark : v.qualifier.map (·.mark) = w.qualifier.map (·.mark) := by
    rcases hmark with ⟨hb, hb'⟩ | hmark
    · simp only [hv.noRef, hw.noRef, Bool.false_eq_true, or_false] at hb hb'
      rw [hb, hb']
    · exact hmark
  obtain ⟨hconst, hvalue, hxy⟩ := shownValue_inj hv.value hw.value hx hy hrest
  exact ⟨⟨hdev, hdir, htype, hmark,
    length_dims_of_symbol hv.written hw.written hmark hv.noRef hsymbol, hconst, hvalue⟩, hxy⟩

theorem Agrees.symbol_eq (h : v.Agrees w) : v.symbol = w.symbol := by
  have hmark := h.mark
  unfold symbol
  cases hvq : v.qualifier with
  | none =>
    rw [hvq, Option.map_none] at hmark
    rw [Option.map_eq_none_iff.1 hmark.symm]
  | some q =>
    rw [hvq, Option.map_some] at hmark
    obtain ⟨q', hwq, hqq⟩ := Option.map_eq_some_iff.1 hmark.symm
    have hdims : q.dims.length = q'.dims.length := by
      simpa [Variable.dims, hvq, hwq] using h.dims
    simp only [hwq, Qualifier.signature, hqq, hdims]

theorem Agrees.shownValue_eq (h : v.Agrees w) : v.shownValue = w.shownValue := by
  unfold shownValue
  by_cases hk : v.kind = .const
  · rw [if_pos hk, if_pos (h.const.1 hk), h.value hk]
  · rw [if_neg hk, if_neg fun hk' => hk (h.const.2 hk')]

theorem Agrees.signature_eq (h : v.Agrees w) : v.signature p = w.signature p := by
  apply String.toList_inj.1
  rw [toList_signature, toList_signature, h.symbol_eq, h.shownValue_eq, isRef_eq_of_mark h.mark,
    h.type, deviceMark, deviceMark, h.device, directionMark, directionMark, h.direction]

end Variable

/-! ## Lists of arguments -/

namespace Routine

variable {p : Promotion} {vs ws : List Variable}

/-- What stands behind an argument that `vs` follow. -/
def afterArg (p : Promotion) (vs : List Variable) : List Char :=
  if vs.isEmpty then [')'] else ',' :: ' ' :: ((signatureList p vs).toList ++ [')'])

theorem signatureList_cons (v : Variable) (vs : List Variable) :
    (signatureList p (v :: vs)).toList ++ [')'] = (v.signature p).toList ++ afterArg p vs := by
  cases vs with
  | nil => simp [signatureList, afterArg]
  | cons w vs => simp [signatureList, afterArg, String.intercalate_cons_cons]

theorem closes_afterArg (vs : List Variable) : Closes (afterArg p vs) := by
  unfold afterArg
  split
  · exact ⟨_, Or.inr (Or.inl rfl)⟩
  · exact ⟨_, Or.inl rfl⟩

/-- A signature starts with its device, so it is not taken for the end of a list. -/
theorem signatureList_cons_ne {v : Variable} (hv : v.Written IsName) (vs : List Variable) :
    (signatureList p (v :: vs)).toList ++ [')'] ≠ [')'] := by
  rw [signatureList_cons, Variable.toList_signature, Variable.deviceMark]
  rcases hv.device with hdev | hdev <;> simp [hdev]

theorem agrees_of_list (hvs : ∀ v ∈ vs, v.Legible p) (hws : ∀ w ∈ ws, w.Legible p)
    (h : (signatureList p vs).toList ++ [')'] = (signatureList p ws).toList ++ [')']) :
    List.Forall₂ Variable.Agrees vs ws := by
  induction vs generalizing ws with
  | nil =>
    cases ws with
    | nil => exact .nil
    | cons w ws => exact absurd h.symm (signatureList_cons_ne (hws w (by simp)).written ws)
  | cons v vs ih =>
    obtain ⟨hv, hvs⟩ := List.forall_mem_cons.1 hvs
    cases ws with
    | nil => exact absurd h (signatureList_cons_ne hv.written vs)
    | cons w ws =>
      obtain ⟨hw, hws⟩ := List.forall_mem_cons.1 hws
      rw [signatureList_cons, signatureList_cons] at h
      obtain ⟨hvw, h⟩ := Variable.agrees_of_text hv hw (closes_afterArg vs) (closes_afterArg ws) h
      refine .cons hvw (ih hvs hws ?_)
      cases vs with
      | nil =>
        cases ws with
        | nil => rfl
        | cons w' ws => simp [afterArg] at h
      | cons v' vs =>
        cases ws with
        | nil => simp [afterArg] at h
        | cons w' ws => simpa [afterArg] using h

theorem signatureList_eq (h : List.Forall₂ Variable.Agrees vs ws) :
    signatureList p vs = signatureList p ws := by
  unfold signatureList
  congr 1
  induction h with
  | nil => rfl
  | cons hvw _ ih => rw [List.map_cons, List.map_cons, hvw.signature_eq, ih]

/-! ## Routines -/

/-- All that a signature shows of a routine is the same in both. The class counts only where there
is a receiver. -/
structure Agrees (f g : Routine) : Prop where
  receiver : f.receiver = g.receiver
  owner : f.receiver.isSome = true → f.owner = g.owner
  name : f.name = g.name
  results : List.Forall₂ Variable.Agrees f.results g.results
  args : List.Forall₂ Variable.Agrees f.args g.args

/-- A routine whose signature can be taken apart. -/
structure Legible (p : Promotion) (r : Routine) : Prop where
  written : r.Written IsName
  results : ∀ v ∈ r.results, v.Legible p
  args : ∀ v ∈ r.args, v.Legible p

variable {f g : Routine}

/-- No receiver that was written is without a name. -/
theorem WrittenCallee.receiver?_eq (h : f.WrittenCallee IsName) : f.receiver? = f.receiver := by
  cases h with
  | plain receiver owner name => simp [receiver?, receiver]
  | constructor C receiver owner class_ name fortran => simp [receiver?, receiver]
  | method this C receiver owner this_ class_ name fortran =>
    simp [receiver?, receiver, this_.2.1]

theorem WrittenCallee.owner_eq (hf : f.WrittenCallee IsName) (hg : g.WrittenCallee IsName)
    (hreceiver : f.receiver = g.receiver) (hsome : f.receiver.isSome = true)
    (h : f.ownerName = g.ownerName) : f.owner = g.owner := by
  have hown {r : Routine} (hr : r.WrittenCallee IsName) (hsome : r.receiver.isSome = true) :
      r.owner = some r.ownerName := by
    cases hr with
    | plain receiver owner name => simp [receiver] at hsome
    | constructor C receiver owner class_ name fortran => simp [receiver] at hsome
    | method this C receiver owner this_ class_ name fortran => simp [ownerName, owner]
  rw [hown hf hsome, hown hg (hreceiver ▸ hsome), h]

theorem isNameChar_head (h : f.WrittenCallee IsName) (x : List Char) :
    ∃ a y c, f.head ++ '(' :: x = a ++ c :: y ∧ (∀ d ∈ a, isNameChar d = true) ∧
      (c = '(' ∨ c = '-') := by
  unfold head
  cases hr : f.receiver? with
  | none => exact ⟨f.name.toList, x, '(', by simp, h.isNameChar_name, Or.inl rfl⟩
  | some this =>
    refine ⟨this.toList, '>' :: (f.ownerName.toList ++ '.' :: (f.name.toList ++ '(' :: x)), '-', ?_,
      (h.isNameChar_receiver hr).1, Or.inr rfl⟩
    simp only [List.append_assoc, List.cons_append, List.nil_append]

/-- A result shows by the blank behind its device. -/
theorem result_ne_head {v : Variable} (hv : v.WrittenResult IsName) (hf : f.WrittenCallee IsName)
    (x y : List Char) : (v.signature p).toList ++ x ≠ f.head ++ '(' :: y := by
  intro h
  obtain ⟨a, z, c, hhead, ha, hc⟩ := isNameChar_head hf y
  have hdevice : ∃ u, (v.signature p).toList ++ x = ['c'] ++ ' ' :: u := by
    rw [Variable.toList_signature, Variable.deviceMark, hv.onCpu]
    exact ⟨_, by simp only [List.append_assoc]; rfl⟩
  obtain ⟨u, hu⟩ := hdevice
  have hcut : isNameChar c = false := by rcases hc with rfl | rfl <;> decide
  obtain ⟨-, h⟩ := append_inj_of_stops (List.forall_mem_singleton.2 rfl) ha (stops_cons (by decide) u)
    (stops_cons hcut z) (hu.symm.trans (h.trans hhead))
  rcases hc with rfl | rfl <;> simp at h

/-- Results are told from no results, and taken off the front. -/
theorem agrees_of_results {x y : List Char} (hf : f.Legible p) (hg : g.Legible p)
    (h : (if f.results.isEmpty then [] else (signatureList p f.results).toList ++ [' ', '=', ' '])
        ++ f.head ++ '(' :: x
      = (if g.results.isEmpty then [] else (signatureList p g.results).toList ++ [' ', '=', ' '])
        ++ g.head ++ '(' :: y) :
    List.Forall₂ Variable.Agrees f.results g.results ∧
      f.head ++ '(' :: x = g.head ++ '(' :: y := by
  have hone {r : Routine} (hr : r.Legible p) : r.results = [] ∨ ∃ v, r.results = [v] := by
    have hsingle := hr.written.single
    cases hres : r.results with
    | nil => exact Or.inl rfl
    | cons v vs =>
      rw [hres] at hsingle
      have hnil : vs = [] := List.eq_nil_of_length_eq_zero (by simpa using hsingle)
      exact Or.inr ⟨v, by rw [hnil]⟩
  rcases hone hf with hfr | ⟨v, hfr⟩ <;> rcases hone hg with hgr | ⟨w, hgr⟩
  · simp only [hfr, hgr, List.isEmpty_nil, if_true, List.nil_append] at h
    rw [hfr, hgr]
    exact ⟨.nil, h⟩
  · simp only [hfr, hgr, List.isEmpty_nil, List.isEmpty_cons, if_true, Bool.false_eq_true, if_false,
      List.nil_append, signatureList, List.map_cons, List.map_nil, String.intercalate_singleton,
      List.append_assoc] at h
    have hw := hg.written.results w (by simp [hgr])
    exact absurd h.symm (result_ne_head hw hf.written.callee _ _)
  · simp only [hfr, hgr, List.isEmpty_nil, List.isEmpty_cons, if_true, Bool.false_eq_true, if_false,
      List.nil_append, signatureList, List.map_cons, List.map_nil, String.intercalate_singleton,
      List.append_assoc] at h
    have hv := hf.written.results v (by simp [hfr])
    exact absurd h (result_ne_head hv hg.written.callee _ _)
  · simp only [hfr, hgr, List.isEmpty_cons, Bool.false_eq_true, if_false, signatureList,
      List.map_cons, List.map_nil, String.intercalate_singleton, List.append_assoc] at h
    obtain ⟨hvw, h⟩ := Variable.agrees_of_text (hf.results v (by simp [hfr]))
      (hg.results w (by simp [hgr])) ⟨_, Or.inr (Or.inr rfl)⟩ ⟨_, Or.inr (Or.inr rfl)⟩ h
    rw [hfr, hgr]
    have h : [' ', '=', ' '] ++ _ = [' ', '=', ' '] ++ _ := h
    exact ⟨.cons hvw .nil, List.append_cancel_left h⟩

theorem Agrees.head_eq (h : f.Agrees g) (hf : f.WrittenCallee IsName)
    (hg : g.WrittenCallee IsName) : f.head = g.head := by
  unfold head
  rw [hf.receiver?_eq, hg.receiver?_eq, ← h.receiver, h.name]
  cases hr : f.receiver with
  | none => rfl
  | some this => simp only [ownerName, h.owner (by simp [hr])]

/-- **The signature is a key**: it is shared exactly by routines that agree in all it shows. -/
theorem signature_eq_iff (hf : f.Legible p) (hg : g.Legible p) :
    f.signature p = g.signature p ↔ f.Agrees g := by
  constructor
  · intro h
    have h := congrArg String.toList h
    rw [toList_signature, toList_signature] at h
    obtain ⟨hresults, h⟩ := agrees_of_results hf hg h
    obtain ⟨hreceiver, howner, hname, h⟩ := head_inj hf.written.callee hg.written.callee h
    rw [hf.written.callee.receiver?_eq] at hreceiver howner
    rw [hg.written.callee.receiver?_eq] at hreceiver
    refine ⟨hreceiver, fun hsome => ?_, hname, hresults, agrees_of_list hf.args hg.args h⟩
    exact hf.written.callee.owner_eq hg.written.callee hreceiver hsome (howner hsome)
  · intro h
    have hempty : f.results.isEmpty = g.results.isEmpty := by
      have hlength := h.results.length_eq
      cases hf : f.results <;> cases hg : g.results <;> simp_all
    apply String.toList_inj.1
    rw [toList_signature, toList_signature, hempty, h.head_eq hf.written.callee hg.written.callee,
      signatureList_eq h.results, signatureList_eq h.args]

end Routine

/-! ## Routines on file -/

namespace Ledger

variable {l : Ledger} {r : Routine}

/-- Without array references and quoted constants, what is on file can be taken apart. -/
theorem legible_checked (hr : r.Declared)
    (hrefs : ∀ v ∈ (l.checked r).value.results ++ (l.checked r).value.args, v.isRef = false)
    (hplain : r.PlainConsts (l.checked r).value) :
    (l.checked r).value.Legible l.context.settings.promotion := by
  have hwritten := written_checked hr l
  have hresult : ∀ w ∈ (l.checked r).value.results, IsWord w.name := by
    refine forall_mem_of_forall₂ (becomes_checked hr l).1 fun u hu w huw c hc => ?_
    obtain ⟨v, hv, rfl⟩ := List.mem_map.1 hu
    exact (hr.isName_result v hv).chars c (huw.mem_name hc)
  have harg : ∀ w ∈ (l.checked r).value.args, w.kind = .const → IsWord w.name := by
    refine forall_mem_of_forall₂ (plain_checked hr hplain) ?_
    rintro u hu w ⟨-, hname, hquoted⟩ hk
    obtain ⟨v, hv, rfl⟩ := List.mem_map.1 hu
    rw [hname]
    exact hr.isWord_arg (v := v) hv (hquoted hk)
  refine ⟨hwritten, fun v hv => ?_, fun v hv => ?_⟩
  · have hmem := List.mem_append_left (l.checked r).value.args hv
    exact ⟨(hwritten.results v hv).toWritten, promoted_checked hr l hmem, hrefs v hmem,
      fun _ => hresult v hv⟩
  · have hmem := List.mem_append_right (l.checked r).value.results hv
    exact ⟨hwritten.args v hv, promoted_checked hr l hmem, hrefs v hmem, harg v hv⟩

/-- **The signature loses nothing of what it shows.** Two declared calls without array references
and quoted constants, entered in any two ledgers under one promotion, have the same signature
exactly if they agree place by place. -/
theorem signature_checked_eq_iff {l l' : Ledger}
    (hp : l'.context.settings.promotion = l.context.settings.promotion) {r s : Routine}
    (hr : r.Declared) (hs : s.Declared)
    (hrefs : ∀ v ∈ (l.checked r).value.results ++ (l.checked r).value.args, v.isRef = false)
    (hrefs' : ∀ v ∈ (l'.checked s).value.results ++ (l'.checked s).value.args, v.isRef = false)
    (hplain : r.PlainConsts (l.checked r).value) (hplain' : s.PlainConsts (l'.checked s).value) :
    (l.checked r).value.signature l.context.settings.promotion
        = (l'.checked s).value.signature l'.context.settings.promotion ↔
      (l.checked r).value.Agrees (l'.checked s).value := by
  have hf := legible_checked hr hrefs hplain
  have hg := legible_checked hs hrefs' hplain'
  rw [hp] at hg ⊢
  exact Routine.signature_eq_iff hf hg

/-- A method with a scoped class, a constant and dimensions before a name. -/
def solveTokens : List Token := Token.tokens 1
  "double[m] x = p->la::Lu.solve(const MODE, gpu inout double[m,n] a, int k, cstring 's');".toList

def solveRoutine : Routine where
  receiver := some "p"
  owner := some "la::Lu"
  name := "solve"
  file := "a.mw"
  line := 1
  args := [
    { type := "const", name := "MODE" },
    { device := .gpu, direction := .inout, type := "double", name := "a"
      qualifier := some { mark := .array, dims := [{ text := "m" }, { text := "n" }] } },
    { type := "int", name := "k" },
    { type := "cstring", name := "'s'" }]
  results := [{ direction := .output, type := "double", name := "x"
                qualifier := some { mark := .array, dims := [{ text := "m" }] } }]

/-- The same call with other names, dimensions behind a name and a wider type. -/
def resolveTokens : List Token := Token.tokens 7
  "double y[9] = p->la::Lu.solve(const MODE, gpu inout double b[9,9], long j, cstring t);".toList

def resolveRoutine : Routine where
  receiver := some "p"
  owner := some "la::Lu"
  name := "solve"
  file := "b.mw"
  line := 7
  args := [
    { type := "const", name := "MODE" },
    { device := .gpu, direction := .inout, type := "double", name := "b"
      qualifier := some { mark := .array, dims := [{ text := "9" }, { text := "9" }] } },
    { type := "long", name := "j" },
    { type := "cstring", name := "t" }]
  results := [{ direction := .output, type := "double", name := "y"
                qualifier := some { mark := .array, dims := [{ text := "9" }] } }]

/-- A ledger under the widest promotion with some calls entered before. -/
def wideLedger (n : Nat) : Ledger :=
  { context := { settings := { promotion := .wide } }, count := n }

theorem signature_checked_eq_iff_solve :
    let f := ((wideLedger 0).checked solveRoutine).value
    let g := ((wideLedger 5).checked resolveRoutine).value
    solveRoutine.Declared ∧ resolveRoutine.Declared ∧
      (∀ v ∈ f.results ++ f.args, v.isRef = false) ∧ (∀ v ∈ g.results ++ g.args, v.isRef = false) ∧
      solveRoutine.PlainConsts f ∧ resolveRoutine.PlainConsts g ∧
      f.signature .wide = g.signature .wide ∧ f.Agrees g := by
  intro f g
  have hr : solveRoutine.Declared :=
    ⟨"a.mw", solveTokens, fun t ht => ⟨1, _, ht⟩, by decide +kernel⟩
  have hs : resolveRoutine.Declared :=
    ⟨"b.mw", resolveTokens, fun t ht => ⟨7, _, ht⟩, by decide +kernel⟩
  have hrefs : ∀ v ∈ f.results ++ f.args, v.isRef = false := by decide +kernel
  have hrefs' : ∀ v ∈ g.results ++ g.args, v.isRef = false := by decide +kernel
  have hplain : solveRoutine.PlainConsts f := by
    unfold Routine.PlainConsts
    decide +kernel
  have hplain' : resolveRoutine.PlainConsts g := by
    unfold Routine.PlainConsts
    decide +kernel
  have hsignature : f.signature .wide = g.signature .wide := by decide +kernel
  have key := @signature_checked_eq_iff (wideLedger 0) (wideLedger 5) rfl _ _ hr hs hrefs hrefs'
    hplain hplain'
  exact ⟨hr, hs, hrefs, hrefs', hplain, hplain', hsignature, key.1 hsignature⟩

end Ledger

end MexBridge
