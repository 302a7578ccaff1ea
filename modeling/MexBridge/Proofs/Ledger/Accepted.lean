import MexBridge.Proofs.Ledger.Filing
import MexBridge.Proofs.Routine.CallingConvention
import MexBridge.Proofs.Routine.SignatureText

/-!
# Routines of a run without errors

Every routine on file was written, promoted, labelled and checked. Where no error was found on the
way, `Routine.Accepted` collects what is left to know of it; `accepted_run` gives it for all
routines of a run at once.
-/

namespace MexBridge

/-- The mark that asks for a mode. -/
def Mode.mark? : Mode → Option Mark
  | .value => none
  | .pointer => some .pointer
  | .reference => some .reference

/-- What a kind tells of the mark. Any number may go by address, since FORTRAN takes it so. -/
structure Variable.Marked (v : Variable) : Prop where
  object : ∀ m, v.kind = .object m → v.qualifier.map (·.mark) = m.mark?
  number : ∀ f m, v.kind = .number f m → m = .pointer ∨ v.qualifier.map (·.mark) = m.mark?
  arrayRef : v.kind = .arrayRef ↔ v.isRef = true

namespace Variable

variable {t : TypeTable} {v w : Variable}

theorem Admits.marked (h : v.Admits t v.kind) : v.Marked := by
  have hisRef : v.isRef = true ↔ ∃ q, v.qualifier = some q ∧ q.mark = .arrayRef := by
    unfold isRef
    cases v.qualifier <;> simp
  generalize hk : v.kind = k at h
  cases h <;> refine ⟨?_, ?_, ?_⟩ <;> simp_all [Mode.mark?]

/-- Only numbers change on the way to FORTRAN. -/
theorem Marked.finished {fortran : Bool} (h : v.Marked) (hw : v.Finished fortran w) : w.Marked := by
  unfold Finished at hw
  split at hw
  · obtain ⟨rfl, -⟩ := hw
    unfold toFortran
    split
    case h_4 f m hk =>
      refine ⟨by simp, ?_, ?_⟩
      · intro f' m' e
        simp only [Kind.number.injEq] at e
        exact Or.inl e.2.symm
      · have href := h.arrayRef
        simp only [hk, reduceCtorEq, false_iff] at href ⊢
        exact href
    all_goals exact h
  · exact hw ▸ h

end Variable

/-- What is known of a routine whose check found no error. -/
structure Routine.Accepted (p : Promotion) (r : Routine) : Prop where
  written : r.Written IsName
  promoted : ∀ v ∈ r.results ++ r.args, p.rename v.type = v.type
  marked : ∀ v ∈ r.results ++ r.args, v.Marked
  soundArg : ∀ v ∈ r.args, v.SoundArg
  soundResult : ∀ v ∈ r.results, v.SoundResult
  right : ∃ n, r.rightPlaces = labelsFrom 0 n
  left : ∃ n, outLabels (r.results ++ r.args) = labelsFrom 0 n

namespace Routine

variable {p : Promotion} {t : TypeTable} {r s : Routine}

theorem Accepted.marked_arg (h : r.Accepted p) {v : Variable} (hv : v ∈ r.args) : v.Marked :=
  h.marked v (List.mem_append_right _ hv)

theorem Accepted.marked_result (h : r.Accepted p) {v : Variable} (hv : v ∈ r.results) : v.Marked :=
  h.marked v (List.mem_append_left _ hv)

theorem Accepted.promoted_arg (h : r.Accepted p) : ∀ v ∈ r.args, p.rename v.type = v.type :=
  fun v hv => h.promoted v (List.mem_append_right _ hv)

theorem Accepted.promoted_result (h : r.Accepted p) : ∀ v ∈ r.results, p.rename v.type = v.type :=
  fun v hv => h.promoted v (List.mem_append_left _ hv)

theorem accepted_check (hr : r.Written IsName)
    (hp : ∀ v ∈ r.results ++ r.args, p.rename v.type = v.type) (h : (r.check t).errors = 0) :
    (r.check t).value.Accepted p := by
  have hs := passed_of_errors hr h
  obtain ⟨hright, hleft⟩ := places_check hr h rfl
  refine ⟨hs.written hr.labelled, ?_, ?_, hs.soundArg, hs.soundResult, ⟨_, hright⟩, ⟨_, hleft⟩⟩
  · intro v hv
    have htype : v.type ∈ r.baseTypes := baseTypes_check t r ▸ List.mem_map_of_mem hv
    obtain ⟨w, hw, e⟩ := List.mem_map.1 htype
    rw [← e, hp w hw]
  · intro v hv
    rcases List.mem_append.1 hv with hv | hv
    · exact (hs.results v hv).admits.marked
    · obtain ⟨u, hu, huv⟩ := hs.args v hv
      exact hu.admits.marked.finished huv

end Routine

namespace Ledger

theorem promoted_promote (p : Promotion) (r : Routine) :
    ∀ v ∈ (promote p r).results ++ (promote p r).args, p.rename v.type = v.type := by
  intro v hv
  simp only [promote, ← List.map_append, List.mem_map] at hv
  obtain ⟨w, -, rfl⟩ := hv
  exact rename_rename p w.type

/-- Tokens taken from text. -/
def Lexed (es : List Event) : Prop :=
  ∀ file t, Event.token file t ∈ es → ∃ line cs, t ∈ Token.tokens line cs

theorem lexed_tokens (file : String) (line : Int) (cs : List Char) :
    Lexed ((Token.tokens line cs).map (.token file)) := by
  intro file' t ht
  obtain ⟨u, hu, e⟩ := List.mem_map.1 ht
  cases e
  exact ⟨line, cs, hu⟩

/-- All routines on file are accepted, once no error was found. -/
theorem accepted_run {mex : String} {c : Context} {es : List Event} (hes : Lexed es)
    (h : (run mex { context := c } es).errors + (run mex { context := c } es).typeErrors = 0) :
    ∀ r ∈ (run mex { context := c } es).routines, r.Accepted c.settings.promotion := by
  have hnames : ∀ file t, Event.token file t ∈ es → t.kind = .ident → IsName t.text := by
    intro file t ht hk
    obtain ⟨line, cs, ht⟩ := hes file t ht
    exact Token.isName_tokens ht hk
  refine routines_run hnames (fun l file ts r hset hts parsed h0 => ?_) h
  have hw := written_promote (p := c.settings.promotion) (fun _ h => h.rename _)
    (Statement.written_of_parse hts parsed) (l.count + 1)
  rw [checked, hset] at h0 ⊢
  exact Routine.accepted_check hw (promoted_promote c.settings.promotion r) h0

end Ledger

end MexBridge
