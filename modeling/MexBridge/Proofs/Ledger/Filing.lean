import MexBridge.Proofs.Ledger.Run

/-!
# Filing routines under their signatures

Each routine is filed in the group of its signature, or founds a new one. `Filed` is the invariant
that ties the number of routines, their ids and the groups together; a run from an empty ledger
keeps it (`filed_run`).
-/

namespace MexBridge

/-! ## Checking leaves the head of a routine alone -/

/-- What checking never changes. -/
structure Routine.SameHead (r s : Routine) : Prop where
  receiver : s.receiver = r.receiver
  owner : s.owner = r.owner
  name : s.name = r.name
  fortran : s.fortran = r.fortran
  id : s.id = r.id
  file : s.file = r.file
  line : s.line = r.line

theorem Routine.sameHead_check (t : TypeTable) (r : Routine) : r.SameHead (r.check t).value := by
  have hf : ∀ s : Routine, s.SameHead s.checkFortran.value := by
    intro s
    unfold checkFortran
    split <;> exact ⟨rfl, rfl, rfl, rfl, rfl, rfl, rfl⟩
  simp only [check]
  split
  · exact ⟨rfl, rfl, rfl, rfl, rfl, rfl, rfl⟩
  split
  · exact ⟨rfl, rfl, rfl, rfl, rfl, rfl, rfl⟩
  · have h := hf { r.labelled with
      results := (checkResults t r.labelled.results).value
      args := (checkArgs t r.labelled.args).value }
    exact ⟨h.receiver, h.owner, h.name, h.fortran, h.id, h.file, h.line⟩

namespace Ledger

theorem pending_enterStatement (mex : String) (l : Ledger) (st : Statement) :
    (l.enterStatement mex st).1.pending = l.pending := by
  cases st with
  | typedef space name => simp only [enterStatement]; split <;> rfl
  | inherits child parents => rfl
  | call r => rfl

theorem sameHead_checked (l : Ledger) (r : Routine) :
    { promote l.context.settings.promotion r with id := l.count + 1 }.SameHead
      (l.checked r).value := Routine.sameHead_check ..

theorem id_checked (l : Ledger) (r : Routine) : (l.checked r).value.id = l.count + 1 :=
  (sameHead_checked l r).id

/-! ## The groups after filing -/

/-- The routines filed, oldest group first. -/
def routines (l : Ledger) : List Routine := l.groups.flatMap Group.members

theorem mem_fileUnder {signature : String} {r : Routine} {gs : List Group} {g : Group}
    (h : g ∈ fileUnder signature r gs) :
    g ∈ gs ∨ (∃ g' ∈ gs, g'.signature = signature ∧ g = { g' with twins := g'.twins ++ [r] }) ∨
      g = { signature := signature, first := r } := by
  induction gs with
  | nil =>
    simp only [fileUnder, List.mem_singleton] at h
    exact Or.inr (Or.inr h)
  | cons g0 gs ih =>
    unfold fileUnder at h
    split at h
    · rename_i hs
      rcases List.mem_cons.1 h with rfl | h
      · exact Or.inr (Or.inl ⟨g0, by simp, hs, rfl⟩)
      · exact Or.inl (by simp [h])
    · rcases List.mem_cons.1 h with rfl | h
      · exact Or.inl (by simp)
      · rcases ih h with h | ⟨g', hg', h⟩ | h
        · exact Or.inl (by simp [h])
        · exact Or.inr (Or.inl ⟨g', by simp [hg'], h⟩)
        · exact Or.inr (Or.inr h)

theorem signatures_fileUnder (signature : String) (r : Routine) (gs : List Group) :
    (fileUnder signature r gs).map (·.signature) =
      if signature ∈ gs.map (·.signature) then gs.map (·.signature)
      else gs.map (·.signature) ++ [signature] := by
  induction gs with
  | nil => rfl
  | cons g gs ih =>
    by_cases hs : g.signature = signature
    · simp [fileUnder, hs]
    · have hs' : ¬ signature = g.signature := fun e => hs e.symm
      simp only [fileUnder, hs, if_false, List.map_cons, ih, List.mem_cons, hs', false_or]
      split <;> rfl

/-- Filing a routine adds it to those filed before and loses none. -/
theorem perm_members_fileUnder (signature : String) (r : Routine) (gs : List Group) :
    ((fileUnder signature r gs).flatMap Group.members).Perm (r :: gs.flatMap Group.members) := by
  induction gs with
  | nil => simp [fileUnder, Group.members]
  | cons g gs ih =>
    unfold fileUnder
    split
    · have h : (g.members ++ r :: gs.flatMap Group.members).Perm
          (r :: (g.members ++ gs.flatMap Group.members)) := List.perm_middle
      simpa [Group.members] using h
    · simpa using (ih.append_left g.members).trans List.perm_middle

/-! ## The invariant -/

theorem Entered.routines_perm {r : Routine} {l l' : Ledger} (h : Entered r l l') :
    l'.routines.Perm ((l.checked r).value :: l.routines) := by
  unfold routines
  rw [h.groups]
  exact perm_members_fileUnder ..

/-- Ids are 1 to `count`, each once; a group holds the routines of one signature, its first with
the smallest id; no two groups have one signature. -/
structure Filed (p : Promotion) (l : Ledger) : Prop where
  promotion : l.context.settings.promotion = p
  ids : (l.routines.map (·.id)).Perm ((List.range l.count).map fun (i : Nat) => (i : Int) + 1)
  signed : ∀ g ∈ l.groups, ∀ r ∈ g.members, r.signature p = g.signature
  distinct : (l.groups.map (·.signature)).Nodup
  later : ∀ g ∈ l.groups, ∀ r ∈ g.twins, g.first.id < r.id
  signable : ∀ r ∈ l.routines, r.isSignable = true

theorem filed_empty (c : Context) : Filed c.settings.promotion { context := c } :=
  ⟨rfl, by simp [routines], by simp, by simp, by simp, by simp [routines]⟩

namespace Filed

variable {p : Promotion} {l l' : Ledger}

theorem id_bounds (h : Filed p l) {r : Routine} (hr : r ∈ l.routines) :
    1 ≤ r.id ∧ r.id ≤ l.count := by
  have hm : r.id ∈ (List.range l.count).map fun (i : Nat) => (i : Int) + 1 :=
    h.ids.mem_iff.1 (List.mem_map_of_mem hr)
  obtain ⟨i, hi, e⟩ := List.mem_map.1 hm
  have := List.mem_range.1 hi
  omega

theorem mem_routines {g : Group} {r : Routine} (hg : g ∈ l.groups) (hr : r ∈ g.members) :
    r ∈ l.routines := List.mem_flatMap.2 ⟨g, hg, hr⟩

theorem quiet (h : Filed p l) (hq : Quiet l l') : Filed p l' := by
  have hr : l'.routines = l.routines := by unfold routines; rw [hq.groups]
  exact ⟨hq.settings ▸ h.promotion, by rw [hr, hq.count]; exact h.ids, hq.groups ▸ h.signed,
    hq.groups ▸ h.distinct, hq.groups ▸ h.later, by rw [hr]; exact h.signable⟩

/-- The new routine has the next id, so it is later than all others. -/
theorem entered {r : Routine} (h : Filed p l) (he : Entered r l l')
    (hr : (l.checked r).value.isSignable = true) : Filed p l' := by
  have hid := id_checked l r
  have hperm := he.routines_perm
  -- The routine joins the group of its signature, or starts one at the end.
  refine ⟨he.settings ▸ h.promotion, ?_, ?_, ?_, ?_, ?_⟩
  · rw [he.count, List.range_succ, List.map_append]
    refine (hperm.map _).trans ?_
    rw [List.map_cons, hid]
    exact (List.Perm.cons _ h.ids).trans (List.perm_append_singleton _ _).symm
  · intro g hg s hs
    rw [he.groups] at hg
    rcases mem_fileUnder hg with hg | ⟨g', hg', hsig, rfl⟩ | rfl
    · exact h.signed g hg s hs
    · simp only [Group.members, ← List.cons_append, List.mem_append, List.mem_singleton] at hs
      rcases hs with hs | rfl
      · exact h.signed g' hg' s hs
      · rw [h.promotion] at hsig; exact hsig.symm
    · simp only [Group.members, List.mem_singleton] at hs
      rw [hs, h.promotion]
  · rw [he.groups, signatures_fileUnder]
    split
    · exact h.distinct
    · rename_i hn
      refine List.nodup_append.2 ⟨h.distinct, by simp, ?_⟩
      intro a ha b hb e
      rw [List.mem_singleton.1 hb] at e
      exact hn (e ▸ ha)
  · intro g hg s hs
    rw [he.groups] at hg
    rcases mem_fileUnder hg with hg | ⟨g', hg', -, rfl⟩ | rfl
    · exact h.later g hg s hs
    · rcases List.mem_append.1 hs with hs | hs
      · exact h.later g' hg' s hs
      · rw [List.mem_singleton.1 hs, hid]
        have := (h.id_bounds (mem_routines hg' (List.mem_cons_self ..))).2
        simp only; omega
    · simp at hs
  · intro s hs
    rcases List.mem_cons.1 (hperm.mem_iff.1 hs) with rfl | hs
    · exact hr
    · exact h.signable s hs

end Filed

/-- A parsed call has a class if it has a receiver, and checking keeps both. -/
theorem isSignable_checked {l : Ledger} {file : String} {ts : List Token} {r : Routine}
    (h : Statement.parse file ts = .ok (.call r)) : (l.checked r).value.isSignable = true := by
  have hw := Statement.written_of_parse (Q := fun _ => True) (fun _ _ _ => trivial) h
  have hh := sameHead_checked l r
  exact (hw.callee.congr hh.receiver hh.owner hh.name hh.fortran).isSignable

/-- **Every run keeps the filing in order.** -/
theorem filed_run (mex : String) (c : Context) (es : List Event) :
    Filed c.settings.promotion (run mex { context := c } es) :=
  run_induct (Q := fun _ => True) (fun _ _ _ => trivial) (fun _ _ => trivial) (filed_empty c)
    (fun _ _ h hq => h.quiet hq)
    (fun _ _ _ _ _ h _ parsed he => h.entered he (isSignable_checked parsed))

/-- What every call has that is entered without an error, all routines on file have, once no error
was found: errors are only ever added, so none at the end means none at any step. What is said of a
routine may depend on what is known, if it stays true as more becomes known. -/
theorem routines_grown {mex : String} {c : Context} {es : List Event} {Q : Token → Prop}
    {R : Context → Routine → Prop} (hes : ∀ file t, Event.token file t ∈ es → Q t)
    (grown : ∀ c c' r, c.Grows c' → R c r → R c' r)
    (entered : ∀ l l' file ts r, l.context.settings = c.settings → (∀ t ∈ ts, Q t) →
      Statement.parse file ts = .ok (.call r) → Entered r l l' → (checked l r).errors = 0 →
      R l'.context (checked l r).value)
    (h : (run mex { context := c } es).errors + (run mex { context := c } es).typeErrors = 0) :
    ∀ r ∈ (run mex { context := c } es).routines, R (run mex { context := c } es).context r := by
  refine (run_induct (P := fun l => l.context.settings = c.settings ∧
    (l.errors + l.typeErrors = 0 → ∀ r ∈ l.routines, R l.context r)) hes (by simp)
    ⟨rfl, by simp [routines]⟩ ?_ ?_).2 h
  · intro l l' hl hq
    refine ⟨hq.settings.trans hl.1, fun h0 r hr => grown _ _ r hq.grows (hl.2 ?_ r ?_)⟩
    · have := hq.errors
      omega
    · simpa [routines, hq.groups] using hr
  · intro l l' file ts r hl hts parsed he
    refine ⟨he.settings.trans hl.1, fun h0 s hs => ?_⟩
    have herr := he.errors
    rcases List.mem_cons.1 (he.routines_perm.mem_iff.1 hs) with rfl | hs
    · exact entered l l' file ts r hl.1 hts parsed he (by omega)
    · exact grown _ _ s he.grows (hl.2 (by omega) s hs)

theorem routines_run {mex : String} {c : Context} {es : List Event} {Q : Token → Prop}
    {R : Routine → Prop} (hes : ∀ file t, Event.token file t ∈ es → Q t)
    (entered : ∀ l file ts r, l.context.settings = c.settings → (∀ t ∈ ts, Q t) →
      Statement.parse file ts = .ok (.call r) → (checked l r).errors = 0 → R (checked l r).value)
    (h : (run mex { context := c } es).errors + (run mex { context := c } es).typeErrors = 0) :
    ∀ r ∈ (run mex { context := c } es).routines, R r :=
  routines_grown (R := fun _ => R) hes (fun _ _ _ _ hr => hr)
    (fun l _ file ts r hset hts parsed _ => entered l file ts r hset hts parsed) h

end Ledger

end MexBridge
