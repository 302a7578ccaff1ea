import MexBridge.Proofs.Statement.Written
import MexBridge.Proofs.Types.Growth

/-!
# Runs of a ledger

A ledger is given tokens, each with the file it stands in, and ends of files, in any order. One
step either enters a routine or leaves the routines alone (`move_enter`); what a whole run keeps
follows by `run_induct`.
-/

namespace MexBridge.Ledger

/-- What a ledger is given. -/
inductive Event where
  | token (file : String) (t : Token)
  | endOfFile (file : String) (line : Int)

/-- One step. -/
def enter (mex : String) (l : Ledger) : Event → Ledger × Reply
  | .token file t => l.feed mex file t
  | .endOfFile file line => l.finishFile file line

/-- The ledger after a run. -/
def run (mex : String) (l : Ledger) (es : List Event) : Ledger :=
  es.foldl (fun l e => (l.enter mex e).1) l

/-- A call as it is numbered and checked on entry. -/
def checked (l : Ledger) (r : Routine) : Checked Routine :=
  { promote l.context.settings.promotion r with id := l.count + 1 }.check l.context.types

/-! ## What one step can do -/

/-- No routine is entered. Errors are only ever added, and what is known only grows. -/
structure Quiet (l l' : Ledger) : Prop where
  groups : l'.groups = l.groups
  count : l'.count = l.count
  settings : l'.context.settings = l.context.settings
  errors : l.errors + l.typeErrors ≤ l'.errors + l'.typeErrors
  grows : l.context.Grows l'.context

/-- The call `r` is entered, and its base types are met. -/
structure Entered (r : Routine) (l l' : Ledger) : Prop where
  groups : l'.groups = fileUnder ((l.checked r).value.signature l.context.settings.promotion)
    (l.checked r).value l.groups
  count : l'.count = l.count + 1
  settings : l'.context.settings = l.context.settings
  errors : l'.errors + l'.typeErrors = l.errors + l.typeErrors + (l.checked r).errors
  grows : l.context.Grows l'.context
  noted : ∀ type ∈ (l.checked r).value.baseTypes, type ∈ notedTypes → type ∈ l'.context.usage

/-- Tokens that a step can see: those pending, and the one given. -/
def Seen (l : Ledger) (e : Event) (t : Token) : Prop := t ∈ l.pending ∨ ∃ file, e = .token file t

/-- What a step can do to a ledger. -/
inductive Move (l : Ledger) (e : Event) (l' : Ledger) : Prop
  | quiet (h : Quiet l l') (pending : ∀ t ∈ l'.pending, l.Seen e t)
  | entered (file : String) (ts : List Token) (r : Routine)
      (parsed : Statement.parse file ts = .ok (.call r)) (seen : ∀ t ∈ ts, l.Seen e t)
      (h : Entered r l l') (pending : l'.pending = [])

theorem quiet_dropPending (l : Ledger) (file : String) (line : Int) (atEnd : Bool) :
    Quiet l (l.dropPending file line atEnd).1 := by
  unfold dropPending
  split
  · exact ⟨rfl, rfl, rfl, Nat.le_refl _, .refl _⟩
  · exact ⟨rfl, rfl, rfl, by simp only; omega, .refl _⟩

theorem mem_pending_dropPending {l : Ledger} {file : String} {line : Int} {atEnd : Bool} {t : Token}
    (h : t ∈ (l.dropPending file line atEnd).1.pending) : t ∈ l.pending := by
  unfold dropPending at h
  split at h
  · exact h
  · simp at h

/-- A step that ends a statement enters its tokens. Any other leaves what was entered alone. -/
theorem enter_cases (mex : String) (l : Ledger) (e : Event) :
    (∃ file t, e = .token file t ∧ t.isPunct ";" = true ∧
      l.enter mex e = { l with pending := [] }.enterTokens mex file (l.pending ++ [t])) ∨
    (∀ file t, e = .token file t → t.isPunct ";" = false) ∧
      (l.enter mex e).1.groups = l.groups ∧ (l.enter mex e).1.context = l.context := by
  have hdrop (file : String) (line : Int) (atEnd : Bool) :
      (l.dropPending file line atEnd).1.groups = l.groups ∧
        (l.dropPending file line atEnd).1.context = l.context := by
    unfold dropPending
    split <;> exact ⟨rfl, rfl⟩
  cases e with
  | endOfFile file line =>
    refine .inr ⟨nofun, ?_⟩
    simp only [enter, finishFile]
    split <;> exact hdrop file line true
  | token file t =>
    by_cases hstop : t.isPunct ";" = true
    · have hkind : t.kind = .punct := by simpa using (Bool.and_eq_true_iff.1 hstop).1
      exact .inl ⟨file, t, rfl, hstop, by simp only [enter, feed, hkind, hstop, if_true]⟩
    · refine .inr ⟨fun _ _ h => by cases h; simpa using hstop, ?_⟩
      simp only [enter, feed]
      split
      · exact hdrop file t.line false
      · exact hdrop file t.line true
      · rw [if_neg hstop]
        exact ⟨rfl, rfl⟩

/-- A statement is parsed from tokens `ts` that the step has seen. -/
theorem move_enterTokens {mex file : String} {ts : List Token} {l : Ledger} {e : Event}
    (hts : ∀ t ∈ ts, l.Seen e t) :
    Move l e ({ l with pending := [] }.enterTokens mex file ts).1 := by
  unfold enterTokens
  split
  · rename_i s hs
    cases s with
    | typedef space name =>
      refine .quiet ?_ ?_
      · simp only [enterStatement]
        split
        · exact ⟨rfl, rfl, rfl, Nat.le_refl _, l.context.grows_add name _⟩
        · exact ⟨rfl, rfl, rfl, by simp only; omega, .refl _⟩
      · simp only [enterStatement]
        split <;> simp
    | inherits child parents =>
      exact .quiet ⟨rfl, rfl, rfl, Nat.le_refl _, l.context.grows_inherits child parents⟩
        (by simp [enterStatement])
    | call r =>
      refine .entered file ts r hs hts ⟨rfl, rfl, rfl, ?_, ?_, ?_⟩ rfl
      · simp only [enterStatement, enterRoutine, note, checked, Context.note]
        omega
      · exact (l.context.grows_note r.baseTypes).trans (Context.grows_note ..)
      · exact fun type htype hnoted => Usage.mem_noteAll htype hnoted
  · exact .quiet ⟨rfl, rfl, rfl, by simp only [note]; omega, l.context.grows_note _⟩
      (by simp [note])

/-- **One step enters a parsed call or leaves the routines alone.** -/
theorem move_enter (mex : String) (l : Ledger) (e : Event) : Move l e (l.enter mex e).1 := by
  cases e with
  | endOfFile file line =>
    have hq := quiet_dropPending l file line true
    simp only [enter, finishFile]
    split
    · exact .quiet hq fun t ht => Or.inl (mem_pending_dropPending ht)
    · refine .quiet ⟨hq.groups, hq.count, hq.settings, ?_, hq.grows⟩
        fun t ht => Or.inl (mem_pending_dropPending ht)
      have := hq.errors
      simp only; omega
  | token file t =>
    simp only [enter, feed]
    split
    · exact .quiet (quiet_dropPending ..) fun u hu => Or.inl (mem_pending_dropPending hu)
    · exact .quiet (quiet_dropPending ..) fun u hu => Or.inl (mem_pending_dropPending hu)
    · have seen : ∀ u ∈ l.pending ++ [t], l.Seen (.token file t) u := by
        intro u hu
        rcases List.mem_append.1 hu with hu | hu
        · exact Or.inl hu
        · exact Or.inr ⟨file, by rw [List.mem_singleton.1 hu]⟩
      split
      · exact move_enterTokens seen
      · exact .quiet ⟨rfl, rfl, rfl, Nat.le_refl _, .refl _⟩ seen

/-! ## Whole runs -/

/-- What the steps keep, a run keeps. `Q` is what is known of the tokens given. -/
theorem run_induct {mex : String} {P : Ledger → Prop} {Q : Token → Prop} {es : List Event}
    {l : Ledger} (hes : ∀ file t, Event.token file t ∈ es → Q t) (hl : ∀ t ∈ l.pending, Q t)
    (base : P l) (quiet : ∀ l l', P l → Quiet l l' → P l')
    (entered : ∀ l l' file ts r, P l → (∀ t ∈ ts, Q t) →
      Statement.parse file ts = .ok (.call r) → Entered r l l' → P l') :
    P (run mex l es) := by
  induction es generalizing l with
  | nil => exact base
  | cons e es ih =>
    have hseen : ∀ t, l.Seen e t → Q t := by
      rintro t (ht | ⟨file, rfl⟩)
      · exact hl t ht
      · exact hes file t (by simp)
    have hes' : ∀ file t, Event.token file t ∈ es → Q t :=
      fun file t ht => hes file t (by simp [ht])
    cases move_enter mex l e with
    | quiet h pending => exact ih hes' (fun t ht => hseen t (pending t ht)) (quiet _ _ base h)
    | entered file ts r parsed seen h pending =>
      refine ih hes' (by simp [pending]) (entered _ _ file ts r base ?_ parsed h)
      exact fun t ht => hseen t (seen t ht)

/-- Nothing that was known is forgotten. -/
theorem grows_run (mex : String) (l : Ledger) (es : List Event) :
    l.context.Grows (run mex l es).context :=
  run_induct (P := fun l' => l.context.Grows l'.context) (Q := fun _ => True)
    (fun _ _ _ => trivial) (fun _ _ => trivial) (.refl _) (fun _ _ h hq => h.trans hq.grows)
    (fun _ _ _ _ _ h _ _ he => h.trans he.grows)

end MexBridge.Ledger
