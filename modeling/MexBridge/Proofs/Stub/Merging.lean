import MexBridge.Proofs.Stub.Observed
import MexBridge.Stub.Printer

/-!
# Routines that share a stub

Routines of one signature share the stub of the first. The signature leaves out some of what a stub
depends on: how the name of a FORTRAN routine is mangled, which class `new` is called on, how many
dimensions an array reference has, and what a type was declared to be when the routine was entered.
`CalledAlike` says that two routines agree in that, and it is just what sharing needs
(`sameStub_iff_calledAlike`).
-/

namespace MexBridge

/-- Two variables of one place agree in what the signature leaves out. -/
structure Variable.PassedAlike (isResult : Bool) (v w : Variable) : Prop where
  kind : v.shownKind isResult = w.shownKind isResult
  dims : v.dims.length = w.dims.length
  value : v.kind = .const → v.name = w.name

/-- Two routines agree in what the signature leaves out. -/
structure Routine.CalledAlike (f g : Routine) : Prop where
  fortran : f.fortran = g.fortran
  owner : f.name = "new" → f.owner = g.owner
  results : List.Forall₂ (Variable.PassedAlike true) f.results g.results
  args : List.Forall₂ (Variable.PassedAlike false) f.args g.args

instance (b : Bool) (v w : Variable) : Decidable (Variable.PassedAlike b v w) :=
  decidable_of_iff (v.shownKind b = w.shownKind b ∧ v.dims.length = w.dims.length ∧
    (v.kind = .const → v.name = w.name)) ⟨fun h => ⟨h.1, h.2.1, h.2.2⟩, fun h => ⟨h.1, h.2, h.3⟩⟩

instance (f g : Routine) : Decidable (f.CalledAlike g) :=
  decidable_of_iff (f.fortran = g.fortran ∧ (f.name = "new" → f.owner = g.owner) ∧
    List.Forall₂ (Variable.PassedAlike true) f.results g.results ∧
    List.Forall₂ (Variable.PassedAlike false) f.args g.args)
    ⟨fun h => ⟨h.1, h.2.1, h.2.2.1, h.2.2.2⟩, fun h => ⟨h.1, h.2, h.3, h.4⟩⟩

/-! ## Labels follow from directions and numbers of dimensions -/

section

variable {vs ws : List Variable} {P : Direction → Bool}

theorem length_filter_direction (h : vs.map (·.direction) = ws.map (·.direction)) :
    (vs.filter (P ·.direction)).length = (ws.filter (P ·.direction)).length := by
  have hlength : ∀ us : List Variable,
      (us.filter (P ·.direction)).length = ((us.map (·.direction)).filter P).length := by
    intro us
    rw [List.filter_map, List.length_map]
    rfl
  rw [hlength, h, ← hlength]

theorem label_of_direction {label : Variable → Int}
    (hd : vs.map (·.direction) = ws.map (·.direction))
    (hvs : ∀ v ∈ vs, P v.direction = false → label v = unlabelled)
    (hws : ∀ w ∈ ws, P w.direction = false → label w = unlabelled)
    (h : (vs.filter (P ·.direction)).map label = (ws.filter (P ·.direction)).map label) :
    vs.map label = ws.map label := by
  induction vs generalizing ws with
  | nil => rw [List.map_eq_nil_iff.1 hd.symm]
  | cons v vs ih =>
    cases ws with
    | nil => simp at hd
    | cons w ws =>
      obtain ⟨hvw, hd⟩ : v.direction = w.direction ∧
          vs.map (·.direction) = ws.map (·.direction) := by simpa using hd
      obtain ⟨hv, hvs⟩ := List.forall_mem_cons.1 hvs
      obtain ⟨hw, hws⟩ := List.forall_mem_cons.1 hws
      cases hp : P v.direction with
      | true =>
        have hp' : P w.direction = true := hvw ▸ hp
        simp only [List.filter_cons, hp, hp', if_true, List.map_cons, List.cons.injEq] at h
        rw [List.map_cons, List.map_cons, h.1, ih hd hvs hws h.2]
      | false =>
        have hp' : P w.direction = false := hvw ▸ hp
        simp only [List.filter_cons, hp, hp', Bool.false_eq_true, if_false] at h
        rw [List.map_cons, List.map_cons, hv hp, hw hp', ih hd hvs hws h]

theorem length_dimPlaces (h : vs.map (·.dims.length) = ws.map (·.dims.length)) :
    (dimPlaces vs).length = (dimPlaces ws).length := by
  simp only [dimPlaces, List.length_map, List.length_flatMap]
  rw [h]

theorem dims_of_dimPlaces (hlength : vs.map (·.dims.length) = ws.map (·.dims.length))
    (h : dimPlaces vs = dimPlaces ws) :
    vs.map (fun v => v.dims.map (·.label)) = ws.map (fun w => w.dims.map (·.label)) := by
  induction vs generalizing ws with
  | nil => rw [List.map_eq_nil_iff.1 hlength.symm]
  | cons v vs ih =>
    cases ws with
    | nil => simp at hlength
    | cons w ws =>
      obtain ⟨hvw, hlength⟩ : v.dims.length = w.dims.length ∧
          vs.map (·.dims.length) = ws.map (·.dims.length) := by simpa using hlength
      simp only [dimPlaces, List.flatMap_cons, List.map_append] at h
      obtain ⟨h1, h2⟩ := List.append_inj h (by simpa using hvw)
      rw [List.map_cons, List.map_cons, h1, ih hlength h2]

theorem labels_eq (hin : vs.map (·.inLabel) = ws.map (·.inLabel))
    (hout : vs.map (·.outLabel) = ws.map (·.outLabel))
    (hdims : vs.map (fun v => v.dims.map (·.label)) = ws.map (fun w => w.dims.map (·.label))) :
    vs.map Variable.labels = ws.map Variable.labels := by
  induction vs generalizing ws with
  | nil => rw [List.map_eq_nil_iff.1 hin.symm]
  | cons v vs ih =>
    cases ws with
    | nil => simp at hin
    | cons w ws =>
      simp only [List.map_cons, List.cons.injEq] at hin hout hdims
      rw [List.map_cons, List.map_cons, ih hin.2 hout.2 hdims.2]
      simp only [Variable.labels, hin.1, hout.1, hdims.1]

end

namespace Routine

variable {p : Promotion} {c : Context} {f g : Routine}

theorem Accepted.rightPlaces_eq (h : f.Accepted p) :
    f.rightPlaces = f.receiver?.toList.map (fun _ => 0) ++ inLabels (f.results ++ f.args)
      ++ dimPlaces (f.results ++ f.args) := by
  have hresults : f.results.filter (·.direction.isInput) = [] := by
    rw [List.filter_eq_nil_iff]
    intro v hv
    simp [(h.written.results v hv).output, Direction.isInput]
  rw [rightPlaces, inLabels, inLabels, List.filter_append, hresults, List.nil_append]

/-- Labels count up from 0, so equally many of each sort come to the same labels. -/
theorem Accepted.labels_eq (hf : f.Accepted p) (hg : g.Accepted p)
    (hreceiver : f.receiver? = g.receiver?)
    (hd : (f.results ++ f.args).map (·.direction) = (g.results ++ g.args).map (·.direction))
    (hn : (f.results ++ f.args).map (·.dims.length) = (g.results ++ g.args).map (·.dims.length)) :
    (f.results ++ f.args).map Variable.labels = (g.results ++ g.args).map Variable.labels := by
  obtain ⟨m, hfright⟩ := hf.right
  obtain ⟨m', hgright⟩ := hg.right
  obtain ⟨n, hfleft⟩ := hf.left
  obtain ⟨n', hgleft⟩ := hg.left
  have hin := length_filter_direction (P := Direction.isInput) hd
  have hout := length_filter_direction (P := Direction.isOutput) hd
  have hdims := length_dimPlaces hn
  have hright : f.rightPlaces = g.rightPlaces := by
    have hlength : f.rightPlaces.length = g.rightPlaces.length := by
      simp only [hf.rightPlaces_eq, hg.rightPlaces_eq, inLabels, List.length_append,
        List.length_map, hreceiver, hin, hdims]
    rw [hfright, hgright, length_labelsFrom, length_labelsFrom] at hlength
    rw [hfright, hgright, hlength]
  have hleft : outLabels (f.results ++ f.args) = outLabels (g.results ++ g.args) := by
    have hlength : (outLabels (f.results ++ f.args)).length
        = (outLabels (g.results ++ g.args)).length := by
      simpa only [outLabels, List.length_map] using hout
    rw [hfleft, hgleft, length_labelsFrom, length_labelsFrom] at hlength
    rw [hfleft, hgleft, hlength]
  rw [hf.rightPlaces_eq, hg.rightPlaces_eq, hreceiver] at hright
  obtain ⟨hright, hplaces⟩ := List.append_inj' hright hdims
  refine MexBridge.labels_eq ?_ ?_ (dims_of_dimPlaces hn hplaces)
  · exact label_of_direction hd (fun v hv => (hf.variable_written hv).inLabel)
      (fun v hv => (hg.variable_written hv).inLabel) (List.append_cancel_left hright)
  · exact label_of_direction hd (fun v hv => (hf.variable_written hv).outLabel)
      (fun v hv => (hg.variable_written hv).outLabel) hleft

end Routine

/-! ## From the call to the stub -/

theorem forall₂_of_mem {α : Type} {R S : α → α → Prop} {vs ws : List α} (h : List.Forall₂ R vs ws)
    (hRS : ∀ v ∈ vs, ∀ w ∈ ws, R v w → S v w) : List.Forall₂ S vs ws :=
  List.forall₂_iff_zip.2 ⟨h.length_eq, fun hvw =>
    hRS _ (List.of_mem_zip hvw).1 _ (List.of_mem_zip hvw).2 (List.forall₂_zip h hvw)⟩

namespace Variable

variable {p : Promotion} {t : TypeTable} {v w : Variable} {b : Bool}

theorem shownKind_eq_arrayRef : v.shownKind b = .arrayRef ↔ v.kind = .arrayRef := by
  unfold shownKind
  cases v.kind <;> simp

theorem PassedAlike.const_iff (h : PassedAlike b v w) : v.kind = .const ↔ w.kind = .const := by
  rw [← shownKind_eq_const (b := b), h.kind, shownKind_eq_const]

theorem PassedAlike.shownAlike (h : PassedAlike b v w) (hv : v.Marked) (hw : w.Marked) :
    v.ShownAlike w := by
  have href : v.isRef = true ↔ w.isRef = true := by
    rw [← hv.arrayRef, ← hw.arrayRef, ← shownKind_eq_arrayRef (b := b), h.kind,
      shownKind_eq_arrayRef]
  refine ⟨?_, fun e => isSome_of_isRef (href.1 e), fun e => isSome_of_isRef (href.2 e)⟩
  unfold shownValue
  by_cases hk : v.kind = .const
  · rw [if_pos hk, if_pos (h.const_iff.1 hk), h.value hk]
  · rw [if_neg hk, if_neg (mt h.const_iff.2 hk)]

theorem anonymous_eq (halike : v.WrittenAlike p w) (hv : p.rename v.type = v.type)
    (hw : p.rename w.type = w.type) (h : PassedAlike b v w) (hlabels : v.labels = w.labels) :
    v.anonymous b = w.anonymous b := by
  obtain ⟨hin, hout, hdims⟩ : v.inLabel = w.inLabel ∧ v.outLabel = w.outLabel ∧
      v.dims.map (·.label) = w.dims.map (·.label) := by simpa [labels] using hlabels
  have hname : (if v.kind = .const then v.name else "")
      = if w.kind = .const then w.name else "" := by
    by_cases hk : v.kind = .const
    · rw [if_pos hk, if_pos (h.const_iff.1 hk), h.value hk]
    · rw [if_neg hk, if_neg (mt h.const_iff.2 hk)]
  have htype : v.type = w.type := by rw [← hv, halike.type, hw]
  have hqualifier : v.qualifier.map Qualifier.anonymous = w.qualifier.map Qualifier.anonymous := by
    have hmark := halike.mark
    unfold dims at hdims
    cases hvq : v.qualifier <;> cases hwq : w.qualifier <;> simp_all
    exact Qualifier.anonymous_eq hmark hdims
  simp only [anonymous, Variable.mk.injEq]
  exact ⟨halike.device, halike.direction, htype, hqualifier, hname, h.kind, hin, hout⟩

end Variable

namespace Routine

variable {p : Promotion} {c : Context} {f g : Routine}

theorem receiver?_eq (h : f.WrittenCallee IsName) : f.receiver? = f.receiver := by
  unfold receiver?
  cases h with
  | plain receiver => rw [receiver]; rfl
  | constructor C receiver => rw [receiver]; rfl
  | method this C receiver owner this_ =>
    rw [receiver, Option.filter_some_pos (by simpa using this_.2.1)]

/-- The class of a routine shows in its signature, but for `new`. -/
theorem owner_eq (hf : f.WrittenCallee IsName) (hg : g.WrittenCallee IsName)
    (h : f.WrittenAlike p g) (hnew : f.name = "new" → f.owner = g.owner) : f.owner = g.owner := by
  have hreceiver : f.receiver = g.receiver := by
    rw [← receiver?_eq hf, h.receiver, receiver?_eq hg]
  have howner := h.owner
  rw [receiver?_eq hf] at howner
  cases hf with
  | plain fr fo fn =>
    cases hg with
    | plain gr go gn => exact fo.trans go.symm
    | constructor C gr go gc gn => exact absurd (h.name.trans gn) fn.2.2
    | method this C gr => simp [fr, gr] at hreceiver
  | constructor C fr fo fc fn => exact hnew fn
  | method this C fr fo =>
    cases hg with
    | plain gr => simp [fr, gr] at hreceiver
    | constructor D gr => simp [fr, gr] at hreceiver
    | method this' D gr go =>
      simp only [ownerName, fr, fo, go, Option.isSome_some, Option.getD_some,
        forall_const] at howner
      rw [fo, go, howner]

theorem CalledAlike.writtenAlike (hf : f.Accepted p) (hg : g.Accepted p) (h : CalledAlike f g)
    (hsig : f.signature p = g.signature p) : f.WrittenAlike p g := by
  refine alike_of_signature hf.written hg.written ?_ ?_ hsig
  · exact forall₂_of_mem h.results fun v hv w hw hvw =>
      hvw.shownAlike (hf.marked_result hv) (hg.marked_result hw)
  · exact forall₂_of_mem h.args fun v hv w hw hvw =>
      hvw.shownAlike (hf.marked_arg hv) (hg.marked_arg hw)

theorem CalledAlike.labels (hf : f.Accepted p) (hg : g.Accepted p) (h : CalledAlike f g)
    (halike : f.WrittenAlike p g) :
    f.results.map Variable.labels = g.results.map Variable.labels ∧
      f.args.map Variable.labels = g.args.map Variable.labels := by
  have hd : (f.results ++ f.args).map (·.direction) = (g.results ++ g.args).map (·.direction) := by
    rw [List.map_append, List.map_append, map_eq_of_forall₂ halike.results fun v w e => e.direction,
      map_eq_of_forall₂ halike.args fun v w e => e.direction]
  have hn : (f.results ++ f.args).map (·.dims.length)
      = (g.results ++ g.args).map (·.dims.length) := by
    rw [List.map_append, List.map_append, map_eq_of_forall₂ h.results fun v w e => e.dims,
      map_eq_of_forall₂ h.args fun v w e => e.dims]
  have hlabels := hf.labels_eq hg halike.receiver hd hn
  rw [List.map_append, List.map_append] at hlabels
  exact List.append_inj hlabels (by simpa using h.results.length_eq)

theorem map_anonymous_eq {b : Bool} {vs ws : List Variable}
    (hvs : ∀ v ∈ vs, p.rename v.type = v.type) (hws : ∀ w ∈ ws, p.rename w.type = w.type)
    (halike : List.Forall₂ (Variable.WrittenAlike p) vs ws)
    (h : List.Forall₂ (Variable.PassedAlike b) vs ws)
    (hlabels : vs.map Variable.labels = ws.map Variable.labels) :
    vs.map (·.anonymous b) = ws.map (·.anonymous b) := by
  induction halike with
  | nil => rfl
  | cons hvw hrest ih =>
    cases h with
    | cons hvw' h =>
      obtain ⟨hv, hvs⟩ := List.forall_mem_cons.1 hvs
      obtain ⟨hw, hws⟩ := List.forall_mem_cons.1 hws
      simp only [List.map_cons, List.cons.injEq] at hlabels
      rw [List.map_cons, List.map_cons, Variable.anonymous_eq hvw hv hw hvw' hlabels.1,
        ih hvs hws h hlabels.2]

/-- Routines called alike are the same without names. -/
theorem CalledAlike.anonymous_eq (hf : f.Accepted p) (hg : g.Accepted p) (h : CalledAlike f g)
    (hsig : f.signature p = g.signature p) : f.anonymous = g.anonymous := by
  have halike := h.writtenAlike hf hg hsig
  obtain ⟨hresults, hargs⟩ := h.labels hf hg halike
  have hreceiver : f.receiver = g.receiver := by
    rw [← receiver?_eq hf.written.callee, halike.receiver, receiver?_eq hg.written.callee]
  have howner := owner_eq hf.written.callee hg.written.callee halike h.owner
  simp only [anonymous, Routine.mk.injEq]
  refine ⟨hreceiver, howner, halike.name, trivial, trivial, h.fortran, trivial, ?_, ?_⟩
  · exact map_anonymous_eq hf.promoted_arg hg.promoted_arg halike.args h.args hargs
  · exact map_anonymous_eq hf.promoted_result hg.promoted_result halike.results h.results hresults

theorem Accepted.handled (h : f.Accepted p) : f.Handled :=
  ⟨h.soundArg, fun v hv => ⟨h.soundResult v hv,
    by simp [Variable.onGpu, (h.written.results v hv).onCpu]⟩, h.written.single⟩

theorem CalledAlike.sameStub (hf : f.Accepted p) (hg : g.Accepted p) (h : CalledAlike f g)
    (hsig : f.signature p = g.signature p) : SameStub c f g := by
  have hanonymous := h.anonymous_eq hf hg hsig
  obtain ⟨hresults, hargs⟩ := h.labels hf hg (h.writtenAlike hf hg hsig)
  refine ⟨?_, ?_, hargs, hresults⟩
  · rw [masked_mainStatements hf.handled, masked_mainStatements hg.handled, hanonymous]
  · rw [← releases_anonymous, hanonymous, releases_anonymous]

end Routine

/-! ## From the stub to the call -/

theorem eq_of_mem_zip {α β : Type} {φ : α → β} {vs ws : List α} (h : vs.map φ = ws.map φ) {v w : α}
    (hvw : (v, w) ∈ vs.zip ws) : φ v = φ w := by
  have hall : List.Forall₂ (fun v w => φ v = φ w) vs ws := by
    rw [← List.forall₂_map_right_iff, ← List.forall₂_map_left_iff, List.forall₂_eq_eq_eq]
    exact h
  exact List.forall₂_zip hall hvw

namespace Routine

variable {p : Promotion} {c : Context} {f g : Routine} {ss : List Stmt}

theorem eq_singleton_of_mem {α : Type} {vs : List α} (h : vs.length ≤ 1) {v : α} (hv : v ∈ vs) :
    vs = [v] := by
  match vs, h, hv with
  | [u], _, hv => rw [List.mem_singleton.1 hv]

theorem of_handled {β : Type} {F : Bool × Variable → β} (h : f.handled.map F = g.handled.map F)
    (hlength : f.args.length = g.args.length) :
    f.keptResults.map (fun v => F (true, v)) = g.keptResults.map (fun v => F (true, v)) ∧
      f.args.map (fun v => F (false, v)) = g.args.map (fun v => F (false, v)) := by
  simp only [handled, List.map_append, List.map_map] at h
  exact List.append_inj' h (by simpa using hlength)

theorem length_dims_eq {v w : Variable} (h : v.labels = w.labels) :
    v.dims.length = w.dims.length := by
  simp only [Variable.labels, Prod.mk.injEq] at h
  simpa using congrArg List.length h.2.2

theorem WrittenCallee.of_new (h : f.WrittenCallee IsName) (hnew : f.name = "new") :
    ∃ C, f.owner = some C ∧ f.fortran = false := by
  cases h with
  | plain receiver owner name => exact absurd hnew name.2.2
  | constructor C receiver owner class_ name fortran => exact ⟨C, owner, fortran⟩
  | method this C receiver owner this_ class_ name => exact absurd hnew name.2.2

/-- Callees of one name differ only in mangling, and in the class of `new`. -/
theorem of_callee (hf : f.WrittenCallee IsName) (hg : g.WrittenCallee IsName)
    (hname : f.name = g.name) (h : f.call.callee = g.call.callee) :
    f.fortran = g.fortran ∧ (f.name = "new" → f.owner = g.owner) := by
  simp only [call, ← hname] at h
  by_cases hnew : f.name = "new"
  · rw [if_pos hnew, if_pos hnew, Callee.constructor.injEq] at h
    obtain ⟨C, hfo, hff⟩ := hf.of_new hnew
    obtain ⟨D, hgo, hgf⟩ := hg.of_new (hname ▸ hnew)
    simp only [ownerName, hfo, hgo, Option.getD_some] at h
    exact ⟨hff.trans hgf.symm, fun _ => by rw [hfo, hgo, h]⟩
  · rw [if_neg hnew, if_neg hnew] at h
    refine ⟨?_, fun e => absurd e hnew⟩
    cases hff : f.fortran <;> cases hgf : g.fortran <;> simp_all

section

variable (hf : f.Accepted p) (hg : g.Accepted p) (h : SameStub c f g)
  (hss : f.mainStatements c = .ok ss)
include hf hg h hss

/-- Equal stubs handle each argument in the same way. -/
theorem SameStub.sameCode :
    List.Forall₂ (Variable.SameCode c.types) f.args g.args := by
  obtain ⟨ts, hts, -⟩ := h.planned hss
  have hlength : f.args.length = g.args.length := by simpa using congrArg List.length h.args
  have hactual : f.args.map (·.actual) = g.args.map (·.actual) :=
    congrArg Call.args (h.call_eq hf hg hss).2.1
  have halloc := (of_handled (h.allocs_eq hf hg hss) hlength).2
  have hwrite := (of_handled (h.writes_eq hf hg hss) hlength).2
  obtain ⟨fas, hfas⟩ := (mainStatements_eq_ok hss).allocs
  obtain ⟨gas, hgas⟩ := (mainStatements_eq_ok hts).allocs
  obtain ⟨fws, hfws⟩ := (mainStatements_eq_ok hss).writes
  obtain ⟨gws, hgws⟩ := (mainStatements_eq_ok hts).writes
  refine List.forall₂_iff_zip.2 ⟨hlength, fun {v w} hvw => ?_⟩
  obtain ⟨hv, hw⟩ := List.of_mem_zip hvw
  refine ⟨eq_of_mem_zip h.args hvw, eq_of_mem_zip (h.reads_eq hf hg hss) hvw,
    eq_of_mem_zip hactual hvw, ⟨_, (allocations_eq_ok hfas).2.2 v hv, ?_⟩,
    ⟨_, (resultWrites_eq_ok hfws).2.2 v hv, ?_⟩⟩
  · rw [(allocations_eq_ok hgas).2.2 w hw, eq_of_mem_zip halloc hvw]
  · rw [(resultWrites_eq_ok hgws).2.2 w hw, eq_of_mem_zip hwrite hvw]

/-- Equal stubs handle the result in the same way. -/
theorem SameStub.sameResult :
    List.Forall₂ (Variable.SameResult c.types) f.results g.results := by
  obtain ⟨ts, hts, -⟩ := h.planned hss
  have hlength : f.args.length = g.args.length := by simpa using congrArg List.length h.args
  have hwrite := (of_handled (h.writes_eq hf hg hss) hlength).1
  have hnullable := h.nullableReturn_eq hf hg hss
  have hdisposal := (h.call_eq hf hg hss).2.2
  obtain ⟨fcs, hfcs⟩ := (mainStatements_eq_ok hss).calls
  obtain ⟨d, hd, -⟩ := callStatements_eq_ok hfcs
  obtain ⟨fws, hfws⟩ := (mainStatements_eq_ok hss).writes
  obtain ⟨gws, hgws⟩ := (mainStatements_eq_ok hts).writes
  refine List.forall₂_iff_zip.2 ⟨by simpa using congrArg List.length h.results, fun {v w} hvw => ?_⟩
  obtain ⟨hv, hw⟩ := List.of_mem_zip hvw
  have hfr := eq_singleton_of_mem hf.written.single hv
  have hgr := eq_singleton_of_mem hg.written.single hw
  refine ⟨eq_of_mem_zip h.results hvw, ⟨d, ?_, ?_⟩, fun hn => ?_⟩
  · simpa [disposal, hfr] using hd
  · rw [hdisposal] at hd
    simpa [disposal, hgr] using hd
  -- A result that is not converted in the call is kept, and there is one result at most.
  · have hfn : f.nullableReturn = false := by simpa [nullableReturn, hfr] using hn
    have hfk : f.keptResults = [v] := by simp [keptResults, hfn, hfr]
    have hgk : g.keptResults = [w] := by simp [keptResults, ← hnullable, hfn, hgr]
    rw [hfk, hgk] at hwrite
    rw [(resultWrites_eq_ok hfws).2.1 v (by simp [hfk]),
      (resultWrites_eq_ok hgws).2.1 w (by simp [hgk])]
    exact congrArg Except.ok (List.cons.inj hwrite).1

theorem SameStub.shownAlike_args : List.Forall₂ Variable.ShownAlike f.args g.args := by
  refine forall₂_of_mem (h.sameCode hf hg hss) fun v hv w hw hvw => ?_
  have mv := hf.marked_arg hv
  have mw := hg.marked_arg hw
  have sv := hf.soundArg v hv
  have sw := hg.soundArg w hw
  refine ⟨hvw.shownValue_eq, ?_, ?_⟩
  · exact hvw.isSome_of_isRef mv mw sv sw (hg.written.args w hw) (hf.inLabel_ne hv)
  · exact hvw.symm.isSome_of_isRef mw mv sw sv (hf.written.args v hv) (hg.inLabel_ne hw)

theorem SameStub.shownAlike_results : List.Forall₂ Variable.ShownAlike f.results g.results := by
  refine forall₂_of_mem (h.sameResult hf hg hss) fun v hv w hw _ => ?_
  have sv := hf.soundResult v hv
  have sw := hg.soundResult w hw
  refine ⟨by simp [Variable.shownValue, sv.const, sw.const], fun e => ?_, fun e => ?_⟩
  · exact absurd ((hf.marked_result hv).arrayRef.2 e) sv.arrayRef
  · exact absurd ((hg.marked_result hw).arrayRef.2 e) sw.arrayRef

theorem SameStub.writtenAlike (hsig : f.signature p = g.signature p) :
    f.WrittenAlike p g :=
  alike_of_signature hf.written hg.written (h.shownAlike_results hf hg hss)
    (h.shownAlike_args hf hg hss) hsig

/-- Routines of one signature with equal stubs are called alike. -/
theorem SameStub.calledAlike (hsig : f.signature p = g.signature p) :
    CalledAlike f g := by
  -- The stub tells constants and references apart, and with that the signature tells the rest.
  have halike := h.writtenAlike hf hg hss hsig
  obtain ⟨-, hcall, -⟩ := h.call_eq hf hg hss
  obtain ⟨hfortran, howner⟩ := of_callee hf.written.callee hg.written.callee halike.name
    (congrArg Call.callee hcall)
  refine ⟨hfortran, howner, ?_, ?_⟩
  · have hboth := (h.sameResult hf hg hss).mp (fun v w hcode halike => And.intro hcode halike)
      halike.results
    refine forall₂_of_mem hboth fun v hv w hw hvw => ?_
    have sv := hf.soundResult v hv
    refine ⟨?_, length_dims_eq hvw.1.labels, fun e => absurd e sv.const⟩
    exact hvw.1.shownKind_eq hvw.2.mark (hf.marked_result hv) (hg.marked_result hw) sv
      (hg.soundResult w hw) (hf.written.results v hv).output (hg.written.results w hw).output
  · have hboth := (h.sameCode hf hg hss).mp (fun v w hcode halike => And.intro hcode halike)
      halike.args
    refine forall₂_of_mem hboth fun v hv w hw hvw => ?_
    have htype : v.type = w.type := by
      rw [← hf.promoted_arg v hv, hvw.2.type, hg.promoted_arg w hw]
    refine ⟨?_, length_dims_eq hvw.1.labels, fun e => (hvw.1.const e).2⟩
    exact hvw.1.shownKind_eq hvw.2 htype (hf.written.args v hv) (hf.marked_arg hv)
      (hg.marked_arg hw) (hf.soundArg v hv) (hg.soundArg w hw)

end

end Routine

/-! ## Runs -/

namespace Ledger

section

variable {mex : String} {c₀ : Context} {es : List Event} {gr : Group} {g : Routine} {c : Context}
  {text : String}

theorem accepted_twins (hes : Lexed es) (herrors : (run mex { context := c₀ } es).errors = 0)
    (htypes : (run mex { context := c₀ } es).typeErrors = 0)
    (hgr : gr ∈ (run mex { context := c₀ } es).groups) (hg : g ∈ gr.twins) :
    gr.first.Accepted c₀.settings.promotion ∧ g.Accepted c₀.settings.promotion ∧
      gr.first.signature c₀.settings.promotion = g.signature c₀.settings.promotion := by
  have hfiled := filed_run mex c₀ es
  have haccepted := accepted_run hes (by rw [herrors, htypes])
  have hfirst : gr.first ∈ gr.members := List.mem_cons_self ..
  have htwin : g ∈ gr.members := List.mem_cons_of_mem _ hg
  exact ⟨haccepted _ (Filed.mem_routines hgr hfirst), haccepted _ (Filed.mem_routines hgr htwin),
    (hfiled.signed gr hgr _ hfirst).trans (hfiled.signed gr hgr _ htwin).symm⟩

/-- The texts of two stubs that are the same up to names: after their heads, one template filled
with the names and the number of the one and of the other. -/
theorem texts_of_calledAlike (hes : Lexed es) (herrors : (run mex { context := c₀ } es).errors = 0)
    (htypes : (run mex { context := c₀ } es).typeErrors = 0)
    (hgr : gr ∈ (run mex { context := c₀ } es).groups) (hg : g ∈ gr.twins)
    (hstub : gr.stub c = .ok text) (h : gr.first.CalledAlike g) :
    let own : Group := { gr with first := g }
    let rest := "\nmw_err_label:\n" ++ renderAll (gr.first.releases c.types) ++ Group.stubTail
    ∃ template slots slots' signature signature', text =
        gr.stubHead signature ++ renderAll (List.zipWith Stmt.filled slots template) ++ rest ∧
      own.stub c = .ok
        (own.stubHead signature' ++ renderAll (List.zipWith Stmt.filled slots' template) ++ rest) := by
  intro own rest
  obtain ⟨hf, hg', hsig⟩ := accepted_twins hes herrors htypes hgr hg
  have hsame := h.sameStub (c := c) hf hg' hsig
  obtain ⟨signature, -, h⟩ := bind_eq_ok.1 hstub
  obtain ⟨ss, hss, h⟩ := bind_eq_ok.1 h
  obtain ⟨ts, hts, hmasked⟩ := hsame.planned hss
  obtain ⟨slots, hslots⟩ := exists_fill ss
  obtain ⟨slots', hslots'⟩ := exists_fill ts
  have hsignable := (filed_run mex c₀ es).signable g
    (Filed.mem_routines hgr (List.mem_cons_of_mem _ hg))
  refine ⟨ss.map Stmt.masked, slots, slots', signature, g.signature c.settings.promotion, ?_, ?_⟩
  · rw [hslots, ← Except.ok.inj h]
    simp only [rest, String.append_assoc]
  · rw [hmasked, hslots', Group.stub]
    simp only [own, hts, Routine.signed, hsignable, if_true, ← hsame.releases, rest,
      String.append_assoc]
    rfl

end

/-- **What sharing a stub needs.** After a run without errors, let `g` share the stub of `gr.first`,
and let that stub be written in some context. The stub that `g` would get for itself is the same, up
to its number and to names in remarks and messages, exactly if the two routines are mangled alike,
make objects of one class, and agree place by place in kind as shown, in the number of dimensions
and in values. -/
theorem sameStub_iff_calledAlike {mex : String} {c₀ : Context} {es : List Event} (hes : Lexed es)
    (herrors : (run mex { context := c₀ } es).errors = 0)
    (htypes : (run mex { context := c₀ } es).typeErrors = 0) {gr : Group}
    (hgr : gr ∈ (run mex { context := c₀ } es).groups) {g : Routine} (hg : g ∈ gr.twins)
    {c : Context} {text : String} (hstub : gr.stub c = .ok text) :
    gr.first.SameStub c g ↔ gr.first.CalledAlike g := by
  obtain ⟨hf, hg', hsig⟩ := accepted_twins hes herrors htypes hgr hg
  obtain ⟨signature, -, h⟩ := bind_eq_ok.1 hstub
  obtain ⟨ss, hss, -⟩ := bind_eq_ok.1 h
  exact ⟨fun h => h.calledAlike hf hg' hss hsig, fun h => h.sameStub hf hg' hsig⟩

/-- Two calls that differ in the name of a variable. -/
def renamedEvents : List Event :=
  (Token.tokens 1 "f(double x); f(double y);".toList).map (.token "a.mw")

theorem sameStub_renamedEvents :
    let l := run "gate" { context := {} } renamedEvents
    l.errors = 0 ∧ l.typeErrors = 0 ∧ ∃ gr ∈ l.groups, ∃ g ∈ gr.twins,
      gr.first.args.map (·.name) = ["x"] ∧ g.args.map (·.name) = ["y"] ∧
        gr.first.SameStub l.context g := by
  intro l
  have herrors : l.errors = 0 := by decide +kernel
  have htypes : l.typeErrors = 0 := by decide +kernel
  have hmerged : ∃ gr ∈ l.groups, ∃ g ∈ gr.twins, (gr.stub l.context).toBool = true ∧
      gr.first.args.map (·.name) = ["x"] ∧ g.args.map (·.name) = ["y"] ∧
        gr.first.CalledAlike g := by
    decide +kernel
  obtain ⟨gr, hgr, g, hg, hstub, hx, hy, halike⟩ := hmerged
  cases htext : gr.stub l.context with
  | error e => simp [htext, Except.toBool] at hstub
  | ok text =>
    exact ⟨herrors, htypes, gr, hgr, g, hg, hx, hy,
      (sameStub_iff_calledAlike (lexed_tokens _ _ _) herrors htypes hgr hg htext).2 halike⟩

/-- Two calls that differ in mangling. -/
def mangledEvents : List Event :=
  (Token.tokens 1 "f(double x); FORTRAN f(double x);".toList).map (.token "a.mw")

/-- A plain call and a FORTRAN call of one name share the stub of the plain one. -/
theorem not_sameStub_mangledEvents :
    let l := run "gate" { context := {} } mangledEvents
    l.errors = 0 ∧ l.typeErrors = 0 ∧ ∃ gr ∈ l.groups, ∃ g ∈ gr.twins,
      gr.first.call.callee = .plain "f" ∧ g.call.callee = .fortran "f" ∧
        ¬gr.first.SameStub l.context g := by
  decide +kernel

end Ledger

end MexBridge
