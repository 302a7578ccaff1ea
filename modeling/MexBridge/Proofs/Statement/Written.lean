import MexBridge.Ledger

/-!
# What a parsed declaration can look like

A reader only ever hands on tokens it was given, so every name in what it reads is the text of a
name token. `Routine.Written Q` says that a routine has the form of a declaration whose names all
satisfy `Q`; `written_of_parse` says that every parsed call has it.
-/

namespace MexBridge

/-- A variable as a declaration can write it. -/
structure Variable.Written (Q : String → Prop) (v : Variable) : Prop where
  type : Q v.type
  device : v.device = .cpu ∨ v.device = .gpu
  direction : v.direction = .input ∨ v.direction = .output ∨ v.direction = .inout
  qualifier : ∀ q, v.qualifier = some q →
    q.mark = .array ∨ q.mark = .arrayRef ∨ (q.mark = .pointer ∨ q.mark = .reference) ∧ q.dims = []
  inLabel : v.direction.isInput = false → v.inLabel = unlabelled
  outLabel : v.direction.isOutput = false → v.outLabel = unlabelled

/-- A returned value as a declaration can write it. -/
structure Variable.WrittenResult (Q : String → Prop) (v : Variable) : Prop extends
    v.Written Q where
  output : v.direction = .output
  onCpu : v.device = .cpu

/-- How the function of a call can be written: by its name, by a class, or on a receiver. -/
inductive Routine.WrittenCallee (Q : String → Prop) (r : Routine) : Prop
  | plain (receiver : r.receiver = none) (owner : r.owner = none) (name : Q r.name)
  | constructor (C : String) (receiver : r.receiver = none) (owner : r.owner = some C)
      (class_ : Q C) (name : r.name = "new") (fortran : r.fortran = false)
  | method (this C : String) (receiver : r.receiver = some this) (owner : r.owner = some C)
      (this_ : Q this) (class_ : Q C) (name : Q r.name) (fortran : r.fortran = false)

/-- A routine as a declaration can write it. -/
structure Routine.Written (Q : String → Prop) (r : Routine) : Prop where
  callee : r.WrittenCallee Q
  args : ∀ v ∈ r.args, v.Written Q
  results : ∀ v ∈ r.results, v.WrittenResult Q
  single : r.results.length ≤ 1

theorem Routine.WrittenCallee.isSignable {Q : String → Prop} {r : Routine}
    (h : r.WrittenCallee Q) : r.isSignable = true := by
  cases h with
  | plain receiver => simp [Routine.isSignable, Routine.receiver?, receiver]
  | constructor C receiver => simp [Routine.isSignable, Routine.receiver?, receiver]
  | method this C receiver owner => simp [Routine.isSignable, owner]

/-- The form of the callee hangs on these fields only. -/
theorem Routine.WrittenCallee.congr {Q : String → Prop} {r s : Routine} (h : r.WrittenCallee Q)
    (hr : s.receiver = r.receiver) (ho : s.owner = r.owner) (hn : s.name = r.name)
    (hf : s.fortran = r.fortran) : s.WrittenCallee Q := by
  cases h with
  | plain receiver owner name => exact .plain (hr ▸ receiver) (ho ▸ owner) (hn ▸ name)
  | constructor C receiver owner class_ name fortran =>
    exact .constructor C (hr ▸ receiver) (ho ▸ owner) class_ (hn ▸ name) (hf ▸ fortran)
  | method this C receiver owner this_ class_ name fortran =>
    exact .method this C (hr ▸ receiver) (ho ▸ owner) this_ class_ (hn ▸ name) (hf ▸ fortran)

namespace Statement

variable {Q : String → Prop}

/-- All name tokens left satisfy `Q`. -/
def NamesSatisfy (Q : String → Prop) (ts : List Token) : Prop :=
  ∀ t ∈ ts, t.kind = .ident → Q t.text

theorem NamesSatisfy.of_cons {t : Token} {ts : List Token} (h : NamesSatisfy Q (t :: ts)) :
    NamesSatisfy Q ts := fun u hu => h u (List.mem_cons_of_mem t hu)

theorem NamesSatisfy.tail {ts : List Token} (h : NamesSatisfy Q ts) : NamesSatisfy Q ts.tail :=
  fun u hu => h u (List.mem_of_mem_tail hu)

/-- Whatever the reader reads has `P`, and what it leaves are tokens it was given. -/
def Reads {α : Type} (Q : String → Prop) (read : Reader α) (P : α → Prop) : Prop :=
  ∀ ⦃ts : List Token⦄, NamesSatisfy Q ts → ∀ ⦃a : α⦄ ⦃rest : List Token⦄,
    read ts = .ok (a, rest) → P a ∧ NamesSatisfy Q rest

/-! ## Readers -/

theorem expect_reads {k : TokenKind} : Reads Q (expect k) fun s => k = .ident → Q s := by
  intro ts hts a rest h
  unfold expect unexpected at h
  split at h
  · split at h
    · rename_i t ts hk
      cases h
      exact ⟨fun e => hts t (by simp) (hk.trans e), hts.of_cons⟩
    · cases h
  · cases h

theorem expectPunct_names {s : String} {ts rest : List Token} (hts : NamesSatisfy Q ts)
    (h : expectPunct s ts = .ok rest) : NamesSatisfy Q rest := by
  unfold expectPunct unexpected at h
  split at h
  · split at h
    · cases h; exact hts.of_cons
    · cases h
  · cases h

theorem literal_reads : Reads Q literal fun _ => True := by
  intro ts hts a rest h
  unfold literal unexpected at h
  split at h
  · split at h
    · cases h; exact ⟨trivial, hts.of_cons⟩
    · cases h
  · cases h

theorem dims_names {ts rest : List Token} {ds : List Dim} (hts : NamesSatisfy Q ts)
    (h : dims ts = .ok (ds, rest)) : NamesSatisfy Q rest := by
  fun_induction dims ts generalizing ds rest with
  | case1 => simp [unexpected] at h
  | case2 t ht => cases h; exact hts.of_cons
  | case3 t ht => simp [unexpected] at h
  | case4 t c ts ht hc ih =>
    obtain ⟨⟨ds', rest'⟩, h1, h2⟩ := bind_eq_ok.1 h
    cases h2
    exact ih hts.of_cons.of_cons h1
  | case5 t c ts ht hc => cases h; exact hts.of_cons
  | case6 t c ts ht => simp [unexpected] at h

theorem arrayQualifier_reads :
    Reads Q arrayQualifier fun q => q.mark = .array ∨ q.mark = .arrayRef := by
  intro ts hts a rest h
  obtain ⟨ts1, h1, h⟩ := bind_eq_ok.1 h
  obtain ⟨⟨ds, ts2⟩, h2, h⟩ := bind_eq_ok.1 h
  obtain ⟨ts3, h3, h⟩ := bind_eq_ok.1 h
  have n1 := expectPunct_names hts h1
  have n2 : NamesSatisfy Q ts2 := by
    unfold optionalDims at h2
    split at h2
    · cases h2; exact n1
    · exact dims_names n1 h2
  have n3 := expectPunct_names n2 h3
  simp only [pure, Except.pure, Except.ok.injEq] at h
  split at h
  · cases h; exact ⟨Or.inr rfl, n3.tail⟩
  · cases h; exact ⟨Or.inl rfl, n3⟩

/-- What a qualifier read is. -/
def WrittenMark (q : Qualifier) : Prop :=
  q.mark = .array ∨ q.mark = .arrayRef ∨ (q.mark = .pointer ∨ q.mark = .reference) ∧ q.dims = []

theorem qualifier_reads : Reads Q qualifier WrittenMark := by
  intro ts hts a rest h
  unfold qualifier at h
  split at h
  · cases h; exact ⟨Or.inr (Or.inr ⟨Or.inl rfl, rfl⟩), hts.tail⟩
  split at h
  · cases h; exact ⟨Or.inr (Or.inr ⟨Or.inr rfl, rfl⟩), hts.tail⟩
  · obtain ⟨hq, n⟩ := arrayQualifier_reads hts h
    rcases hq with hq | hq
    · exact ⟨Or.inl hq, n⟩
    · exact ⟨Or.inr (Or.inl hq), n⟩

theorem declarator_reads {name : Reader String} {P : String → Prop} (hn : Reads Q name P) :
    Reads Q (declarator name) fun d => ∀ q, d.1 = some q → WrittenMark q := by
  intro ts hts a rest h
  unfold declarator at h
  split at h
  · obtain ⟨⟨q, ts1⟩, h1, h⟩ := bind_eq_ok.1 h
    obtain ⟨⟨n, ts2⟩, h2, h⟩ := bind_eq_ok.1 h
    obtain ⟨hq, n1⟩ := qualifier_reads hts h1
    cases h
    exact ⟨by rintro q' ⟨⟩; exact hq, (hn n1 h2).2⟩
  · obtain ⟨⟨n, ts1⟩, h1, h⟩ := bind_eq_ok.1 h
    obtain ⟨⟨q, ts2⟩, h2, h⟩ := bind_eq_ok.1 h
    have n1 := (hn hts h1).2
    cases h
    unfold trailingQualifier at h2
    split at h2
    · obtain ⟨⟨q', ts3⟩, h3, h2⟩ := bind_eq_ok.1 h2
      obtain ⟨hq, n3⟩ := arrayQualifier_reads n1 h3
      cases h2
      refine ⟨?_, n3⟩
      rintro q ⟨⟩
      rcases hq with hq | hq
      · exact Or.inl hq
      · exact Or.inr (Or.inl hq)
    · cases h2; exact ⟨by rintro q ⟨⟩, n1⟩

theorem typed_reads {name : Reader String} {P : String → Prop} (hn : Reads Q name P) {d : Device}
    {io : Direction} (hd : d = .cpu ∨ d = .gpu) (hio : io = .input ∨ io = .output ∨ io = .inout) :
    Reads Q (typed name d io) fun v => v.Written Q ∧ v.direction = io ∧ v.device = d := by
  intro ts hts a rest h
  obtain ⟨⟨type, ts1⟩, h1, h⟩ := bind_eq_ok.1 h
  obtain ⟨⟨⟨q, n⟩, ts2⟩, h2, h⟩ := bind_eq_ok.1 h
  obtain ⟨htype, n1⟩ := expect_reads hts h1
  obtain ⟨hq, n2⟩ := declarator_reads hn n1 (mapError_eq_ok.1 h2)
  cases h
  exact ⟨⟨⟨htype rfl, hd, hio, hq, fun _ => rfl, fun _ => rfl⟩, rfl, rfl⟩, n2⟩

theorem device_names {ts : List Token} (hts : NamesSatisfy Q ts) :
    ((device ts).1 = .cpu ∨ (device ts).1 = .gpu) ∧ NamesSatisfy Q (device ts).2 := by
  unfold device
  split
  · exact ⟨Or.inl rfl, hts.tail⟩
  · exact ⟨Or.inr rfl, hts.tail⟩
  · exact ⟨Or.inl rfl, hts⟩

theorem direction_names {ts : List Token} (hts : NamesSatisfy Q ts) :
    ((direction ts).1 = .input ∨ (direction ts).1 = .output ∨ (direction ts).1 = .inout) ∧
      NamesSatisfy Q (direction ts).2 := by
  unfold direction
  split
  · exact ⟨Or.inl rfl, hts.tail⟩
  · exact ⟨Or.inr (Or.inl rfl), hts.tail⟩
  · exact ⟨Or.inr (Or.inr rfl), hts.tail⟩
  · exact ⟨Or.inl rfl, hts⟩

theorem argument_reads : Reads Q argument fun v => v.Written Q := by
  intro ts hts a rest h
  obtain ⟨hd, n1⟩ := device_names hts
  obtain ⟨hio, n2⟩ := direction_names n1
  obtain ⟨hv, n3⟩ := typed_reads literal_reads hd hio n2 h
  exact ⟨hv.1, n3⟩

theorem arguments_reads : Reads Q arguments fun vs => ∀ v ∈ vs, v.Written Q := by
  intro ts hts
  -- along the list of arguments, as `arguments` itself recurs
  induction ts using arguments.induct with
  | case1 ts e he =>
    intro a rest h
    rw [arguments_eq, he] at h
    cases h
  | case2 ts v rest he hcomma ih =>
    intro vs rest' h
    obtain ⟨hv, n1⟩ := argument_reads hts he
    rw [arguments_eq, he] at h
    obtain ⟨⟨vs', rest2⟩, h1, h⟩ := bind_eq_ok.1 ((if_pos hcomma).symm.trans h)
    obtain ⟨hvs, n2⟩ := ih n1.tail (mapError_eq_ok.1 h1)
    cases h
    exact ⟨List.forall_mem_cons.2 ⟨hv, hvs⟩, n2⟩
  | case3 ts v rest he hcomma =>
    intro vs rest' h
    obtain ⟨hv, n1⟩ := argument_reads hts he
    rw [arguments_eq, he] at h
    cases (if_neg hcomma).symm.trans h
    exact ⟨by simpa using hv, n1⟩

theorem callee_reads {file : String} {line : Int} :
    Reads Q (callee file line) fun r => r.WrittenCallee Q ∧ r.results = [] := by
  intro ts hts a rest h
  unfold callee at h
  split at h
  · obtain ⟨⟨name, ts1⟩, h1, h⟩ := bind_eq_ok.1 h
    obtain ⟨hn, n1⟩ := expect_reads hts.tail h1
    cases h
    exact ⟨⟨.plain rfl rfl (hn rfl), rfl⟩, n1⟩
  · obtain ⟨⟨owner, ts1⟩, h1, h⟩ := bind_eq_ok.1 h
    obtain ⟨ho, n1⟩ := expect_reads hts.tail h1
    cases h
    exact ⟨⟨.constructor owner rfl rfl (ho rfl) rfl rfl, rfl⟩, n1⟩
  · obtain ⟨⟨name, ts1⟩, h1, h⟩ := bind_eq_ok.1 h
    obtain ⟨hn, n1⟩ := expect_reads hts h1
    dsimp only at h
    split at h
    · obtain ⟨ts2, h2, h⟩ := bind_eq_ok.1 h
      obtain ⟨⟨owner, ts3⟩, h3, h⟩ := bind_eq_ok.1 h
      obtain ⟨ts4, h4, h⟩ := bind_eq_ok.1 h
      obtain ⟨⟨m, ts5⟩, h5, h⟩ := bind_eq_ok.1 h
      obtain ⟨ho, n3⟩ := expect_reads (expectPunct_names n1.tail h2) h3
      obtain ⟨hm, n5⟩ := expect_reads (expectPunct_names n3 h4) h5
      cases h
      exact ⟨⟨.method name owner rfl rfl (hn rfl) (ho rfl) (hm rfl) rfl, rfl⟩, n5⟩
    · cases h
      exact ⟨⟨.plain rfl rfl (hn rfl), rfl⟩, n1⟩

theorem callStatement_reads {file : String} {line : Int} :
    Reads Q (callStatement file line) fun r => r.Written Q ∧ r.results = [] := by
  intro ts hts a rest h
  obtain ⟨⟨r, ts1⟩, h1, h⟩ := bind_eq_ok.1 h
  obtain ⟨ts2, h2, h⟩ := bind_eq_ok.1 h
  obtain ⟨⟨args, ts3⟩, h3, h⟩ := bind_eq_ok.1 h
  obtain ⟨ts4, h4, h⟩ := bind_eq_ok.1 h
  obtain ⟨ts5, h5, h⟩ := bind_eq_ok.1 h
  obtain ⟨⟨hr, hres⟩, n1⟩ := callee_reads hts h1
  have n2 := expectPunct_names n1 h2
  have hargs : (∀ v ∈ args, v.Written Q) ∧ NamesSatisfy Q ts3 := by
    unfold optionalArguments at h3
    split at h3
    · cases h3; exact ⟨by simp, n2⟩
    · exact arguments_reads n2 h3
  have n4 := expectPunct_names hargs.2 (mapError_eq_ok.1 h4)
  have n5 := expectPunct_names n4 (mapError_eq_ok.1 h5)
  cases h
  exact ⟨⟨⟨hr.congr rfl rfl rfl rfl, hargs.1, by simp [hres], by simp [hres]⟩, hres⟩, n5⟩

/-- **Every parsed call has the form of a declaration**, and its names are name tokens. -/
theorem written_of_parse {file : String} {ts : List Token} {r : Routine} (hts : NamesSatisfy Q ts)
    (h : parse file ts = .ok (.call r)) : r.Written Q := by
  obtain ⟨⟨s, rest⟩, h', hs⟩ : ∃ x, statement file ts = .ok x ∧ x.1 = .call r := by
    unfold parse at h
    cases hx : statement file ts with
    | error e => rw [hx] at h; cases h
    | ok x => rw [hx] at h; exact ⟨x, rfl, Except.ok.inj h⟩
  unfold statement at h'
  split at h'
  · obtain ⟨_, _, h'⟩ := bind_eq_ok.1 h'
    obtain ⟨_, _, h'⟩ := bind_eq_ok.1 h'
    obtain ⟨_, _, h'⟩ := bind_eq_ok.1 h'
    cases h'; cases hs
  · obtain ⟨_, _, h'⟩ := bind_eq_ok.1 h'
    obtain ⟨_, _, h'⟩ := bind_eq_ok.1 h'
    obtain ⟨_, _, h'⟩ := bind_eq_ok.1 h'
    obtain ⟨_, _, h'⟩ := bind_eq_ok.1 h'
    cases h'; cases hs
  · split at h'
    · obtain ⟨⟨v, ts1⟩, h1, h'⟩ := bind_eq_ok.1 h'
      obtain ⟨ts2, h2, h'⟩ := bind_eq_ok.1 h'
      obtain ⟨⟨r', ts3⟩, h3, h'⟩ := bind_eq_ok.1 h'
      obtain ⟨⟨hv, hio, hd⟩, n1⟩ :=
        typed_reads expect_reads (Or.inl rfl) (Or.inr (Or.inl rfl)) hts h1
      have n2 := expectPunct_names n1 (mapError_eq_ok.1 h2)
      obtain ⟨⟨hr, -⟩, -⟩ := callStatement_reads n2 (mapError_eq_ok.1 h3)
      cases h'; cases hs
      refine ⟨hr.callee.congr rfl rfl rfl rfl, hr.args, ?_, by simp⟩
      intro w hw
      obtain rfl := List.mem_singleton.1 hw
      exact ⟨hv, hio, hd⟩
    · obtain ⟨⟨r', ts1⟩, h1, h'⟩ := bind_eq_ok.1 h'
      obtain ⟨⟨hr, -⟩, -⟩ := callStatement_reads hts h1
      cases h'; cases hs
      exact hr

end Statement

end MexBridge
