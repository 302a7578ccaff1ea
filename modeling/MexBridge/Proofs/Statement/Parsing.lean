import MexBridge.Proofs.Statement.Grammar
import MexBridge.Proofs.Ledger.Filing
import MexBridge.Proofs.Routine.Checking
import MexBridge.Token.Lexer

/-!
# The parser accepts its grammar

Every reader of the parser reads what the trees of one rule of the grammar spell and gives what they
stand for (`Recognizes`). So a ledger fed a statement up to its `;` enters the statement derived, or
reports one parse error if there is no derivation (`feedAll_derivation`).

Whether a call has a result is decided by looking ahead for a `=`. That agrees with the
derivation, since a result has its brackets balanced and no other mark the look-ahead minds
(`hasResult_result`), and no function called has one before its parenthesis
(`hasResult_invocation`).
-/

namespace MexBridge.Statement

open Grammar

/-- The reader reads what trees spell. A tree is read where what is behind is clear of `marks`. -/
structure Recognizes {α δ : Type} (read : Reader α) (tokens : δ → List Token) (value : δ → α)
    (marks : List String) : Prop where
  sound : ∀ {ts rest : List Token} {a : α}, read ts = .ok (a, rest) →
    ∃ d, ts = tokens d ++ rest ∧ value d = a
  complete : ∀ (d : δ) {rest : List Token}, Clear marks rest →
    read (tokens d ++ rest) = .ok (value d, rest)

/-! ## Single tokens -/

theorem expectPunct_eq_ok {s : String} {ts rest : List Token} :
    expectPunct s ts = .ok rest ↔ ∃ l : Sign s, ts = l.1 :: rest := by
  constructor
  · intro h
    unfold expectPunct at h
    split at h
    · split at h
      · obtain rfl := Except.ok.inj h
        exact ⟨⟨_, ‹_›⟩, rfl⟩
      · cases h
    · cases h
  · rintro ⟨l, rfl⟩
    simp [expectPunct, l.2]

theorem recognizes_expect (k : TokenKind) :
    Recognizes (expect k) (Leaf.tokens (P := fun t => t.kind = k)) Leaf.text [] where
  sound h := by
    unfold expect at h
    split at h
    · split at h
      · cases h
        exact ⟨⟨_, ‹_›⟩, rfl, rfl⟩
      · cases h
    · cases h
  complete d _ _ := by simp [Leaf.tokens, Leaf.text, expect, d.2]

theorem recognizes_literal :
    Recognizes literal
      (Leaf.tokens (P := fun t => t.kind = .ident ∨ t.kind = .number ∨ t.kind = .string))
      Leaf.text [] where
  sound h := by
    unfold literal at h
    split at h
    · split at h
      · cases h
        exact ⟨⟨_, ‹_›⟩, rfl, rfl⟩
      · cases h
    · cases h
  complete d _ _ := by simp [Leaf.tokens, Leaf.text, literal, d.2]

theorem atPunct_cons {s : String} (t : Token) (ts : List Token) :
    atPunct s (t :: ts) = t.isPunct s := rfl

theorem atPunct_eq_true {s : String} {ts : List Token} :
    atPunct s ts = true ↔ ∃ l : Sign s, ts = l.1 :: ts.tail := by
  cases ts with
  | nil => simp [atPunct, peek, Token.finish, Token.isPunct]
  | cons t ts =>
    constructor
    · intro h
      exact ⟨⟨t, h⟩, rfl⟩
    · rintro ⟨l, hl⟩
      obtain rfl := (List.cons.inj hl).1
      exact l.2

theorem atPunct_eq_false {s : String} {marks : List String} {ts : List Token} (h : Clear marks ts)
    (hs : s ∈ marks) : atPunct s ts = false := by
  cases ts with
  | nil => simp [atPunct, peek, Token.finish, Token.isPunct]
  | cons t ts => exact h t rfl s hs

/-! ## Dimensions and marks -/

theorem recognizes_dims :
    Recognizes dims (Commas.tokens (Leaf.tokens (P := fun t => t.kind = .ident ∨ t.kind = .number)))
      (fun c => c.toList.map fun e => { text := e.text }) [","] where
  sound {ts rest ds} h := by
    fun_induction dims ts generalizing ds rest with
    | case1 => cases h
    | case2 t ht =>
      cases h
      exact ⟨.one ⟨t, by simpa [isDim] using ht⟩, rfl, rfl⟩
    | case3 t ht => cases h
    | case4 t c ts ht hc ih =>
      obtain ⟨⟨ds', rest'⟩, h1, h2⟩ := bind_eq_ok.1 h
      obtain ⟨d, rfl, rfl⟩ := ih h1
      cases h2
      exact ⟨.more ⟨t, by simpa [isDim] using ht⟩ ⟨c, hc⟩ d, rfl, rfl⟩
    | case5 t c ts ht hc =>
      cases h
      exact ⟨.one ⟨t, by simpa [isDim] using ht⟩, rfl, rfl⟩
    | case6 t c ts ht => cases h
  complete d rest hr := by
    have dim (e : Extent) : isDim e.1 = true := by simpa [isDim] using e.2
    induction d with
    | one e =>
      cases rest with
      | nil => simp [Commas.tokens, Leaf.tokens, dims, dim e, Commas.toList, Leaf.text]
      | cons t ts =>
        have ht : t.isPunct "," = false := hr t rfl "," (by simp)
        simp [Commas.tokens, Leaf.tokens, dims, dim e, ht, Commas.toList, Leaf.text]
    | more e comma d ih =>
      simp only [Commas.tokens, Leaf.tokens, List.cons_append, List.nil_append, dims, dim e,
        comma.2, if_true]
      exact bind_eq_ok.2 ⟨_, ih, rfl⟩

/-- Extents up to the closing bracket, perhaps none. -/
theorem optionalDims_eq_ok {ts rest : List Token} {ds : List Dim} (closing : Sign "]") :
    optionalDims ts = .ok (ds, closing.1 :: rest) ↔ ∃ e : Option (Commas Extent),
      ts = perhaps (Commas.tokens Leaf.tokens) e ++ closing.1 :: rest ∧
        (e.elim [] Commas.toList).map (fun e => { text := e.text }) = ds := by
  constructor
  · intro h
    unfold optionalDims at h
    split at h
    · cases h
      exact ⟨none, rfl, rfl⟩
    · obtain ⟨c, hc, rfl⟩ := recognizes_dims.sound h
      exact ⟨some c, hc, rfl⟩
  · rintro ⟨e, rfl, rfl⟩
    cases e with
    | none => simp [optionalDims, atPunct_cons, closing.2]
    | some c =>
      obtain ⟨t, ts, e, ht⟩ := startsWith_leaf.commas c
      have hkind : t.kind ≠ .punct := by rcases ht with h | h <;> simp [h]
      have hne : atPunct "]" (Commas.tokens Leaf.tokens c ++ closing.1 :: rest) = false := by
        rw [e]
        exact isPunct_eq_false hkind
      simp only [perhaps_some, optionalDims, hne, Bool.false_eq_true, if_false]
      exact recognizes_dims.complete c (Clear.sign closing _ (by decide))

theorem recognizes_arrayQualifier :
    Recognizes arrayQualifier Brackets.tokens Brackets.qualifier ["&"] where
  sound {ts rest q} h := by
    unfold arrayQualifier at h
    obtain ⟨ts1, h1, h⟩ := bind_eq_ok.1 h
    obtain ⟨⟨ds, ts2⟩, h2, h⟩ := bind_eq_ok.1 h
    obtain ⟨ts3, h3, h4⟩ := bind_eq_ok.1 h
    obtain ⟨opening, rfl⟩ := expectPunct_eq_ok.1 h1
    obtain ⟨closing, rfl⟩ := expectPunct_eq_ok.1 h3
    obtain ⟨extents, rfl, rfl⟩ := (optionalDims_eq_ok closing).1 h2
    by_cases hamp : atPunct "&" ts3 = true
    · obtain ⟨amp, hts3⟩ := atPunct_eq_true.1 hamp
      rw [if_pos hamp] at h4
      cases h4
      exact ⟨⟨opening, extents, closing, some amp⟩, by rw [hts3]; simp [Brackets.tokens,
        Leaf.tokens], rfl⟩
    · rw [if_neg hamp] at h4
      cases h4
      exact ⟨⟨opening, extents, closing, none⟩, by simp [Brackets.tokens], rfl⟩
  complete b rest hr := by
    obtain ⟨opening, extents, closing, ref⟩ := b
    simp only [Brackets.tokens, List.cons_append, List.append_assoc]
    refine bind_eq_ok.2 ⟨_, expectPunct_eq_ok.2 ⟨opening, rfl⟩, bind_eq_ok.2 ⟨_,
      (optionalDims_eq_ok closing).2 ⟨extents, rfl, rfl⟩,
      bind_eq_ok.2 ⟨_, expectPunct_eq_ok.2 ⟨closing, rfl⟩, ?_⟩⟩⟩
    cases ref with
    | none =>
      simp [atPunct_eq_false hr, Brackets.qualifier, pure, Except.pure]
    | some amp =>
      simp [Leaf.tokens, atPunct_cons, amp.2, Brackets.qualifier, pure, Except.pure]

theorem recognizes_qualifier : Recognizes qualifier Marks.tokens Marks.qualifier ["&"] where
  sound {ts rest q} h := by
    unfold qualifier at h
    split at h
    · obtain ⟨star, hts⟩ := atPunct_eq_true.1 ‹_›
      cases h
      exact ⟨.pointer star, hts, rfl⟩
    split at h
    · obtain ⟨amp, hts⟩ := atPunct_eq_true.1 ‹_›
      cases h
      exact ⟨.reference amp, hts, rfl⟩
    · obtain ⟨b, rfl, rfl⟩ := recognizes_arrayQualifier.sound h
      exact ⟨.array b, rfl, rfl⟩
  complete m rest hr := by
    cases m with
    | pointer star => simp [Marks.tokens, qualifier, atPunct_cons, star.2, Marks.qualifier]
    | reference amp =>
      have hne : amp.1.isPunct "*" = false := isPunct_unique amp.2 (by decide)
      simp [Marks.tokens, qualifier, atPunct_cons, amp.2, hne, Marks.qualifier]
    | array b =>
      have hstar : atPunct "*" (b.tokens ++ rest) = false := isPunct_unique b.opening.2 (by decide)
      have hamp : atPunct "&" (b.tokens ++ rest) = false := isPunct_unique b.opening.2 (by decide)
      simp only [Marks.tokens, qualifier, hstar, hamp, Bool.false_eq_true, if_false]
      exact recognizes_arrayQualifier.complete b hr

theorem startsQualifier_marks (m : Marks) (rest : List Token) :
    startsQualifier (m.tokens ++ rest) = true := by
  cases m with
  | pointer star => simp [Marks.tokens, startsQualifier, atPunct_cons, star.2]
  | reference amp => simp [Marks.tokens, startsQualifier, atPunct_cons, amp.2]
  | array b => simp [Marks.tokens, Brackets.tokens, startsQualifier, atPunct_cons, b.opening.2]

/-! ## Variables -/

theorem recognizes_trailingQualifier :
    Recognizes trailingQualifier (perhaps Brackets.tokens) (Option.map Brackets.qualifier)
      ["[", "&"] where
  sound {ts rest q} h := by
    unfold trailingQualifier at h
    split at h
    · obtain ⟨⟨q', ts1⟩, h1, h⟩ := bind_eq_ok.1 h
      obtain ⟨b, rfl, rfl⟩ := recognizes_arrayQualifier.sound h1
      cases h
      exact ⟨some b, rfl, rfl⟩
    · cases h
      exact ⟨none, rfl, rfl⟩
  complete d rest hr := by
    cases d with
    | none => simp [trailingQualifier, atPunct_eq_false hr]
    | some b =>
      have hopen : atPunct "[" (b.tokens ++ rest) = true := b.opening.2
      simp only [perhaps_some, trailingQualifier, hopen, if_true]
      exact bind_eq_ok.2 ⟨_, recognizes_arrayQualifier.complete b (hr.subset (by simp)), rfl⟩

theorem recognizes_declarator {P : Token → Prop} (hP : ∀ t, P t → t.kind ≠ .punct)
    {name : Reader String} (hn : Recognizes name (Leaf.tokens (P := P)) Leaf.text []) :
    Recognizes (declarator name) (Declarator.tokens (P := P)) (fun d => (d.qualifier, d.name))
      ["[", "&"] where
  sound {ts rest x} h := by
    unfold declarator at h
    split at h
    · obtain ⟨⟨q, ts1⟩, h1, h⟩ := bind_eq_ok.1 h
      obtain ⟨⟨n, ts2⟩, h2, h⟩ := bind_eq_ok.1 h
      obtain ⟨m, rfl, rfl⟩ := recognizes_qualifier.sound h1
      obtain ⟨l, rfl, rfl⟩ := hn.sound h2
      cases h
      exact ⟨.before m l, by simp [Declarator.tokens, Leaf.tokens], rfl⟩
    · obtain ⟨⟨n, ts1⟩, h1, h⟩ := bind_eq_ok.1 h
      obtain ⟨⟨q, ts2⟩, h2, h⟩ := bind_eq_ok.1 h
      obtain ⟨l, rfl, rfl⟩ := hn.sound h1
      obtain ⟨d, rfl, rfl⟩ := recognizes_trailingQualifier.sound h2
      cases h
      exact ⟨.behind l d, by simp [Declarator.tokens, Leaf.tokens], rfl⟩
  complete d rest hr := by
    cases d with
    | before m l =>
      simp only [Declarator.tokens, List.append_assoc, declarator, startsQualifier_marks, if_true]
      exact bind_eq_ok.2 ⟨_, recognizes_qualifier.complete m (Clear.word _ (hP _ l.2)),
        bind_eq_ok.2 ⟨_, hn.complete l (by simp [Clear]), rfl⟩⟩
    | behind l d =>
      have hno : startsQualifier (l.1 :: (perhaps Brackets.tokens d ++ rest)) = false := by
        simp [startsQualifier, atPunct_cons, isPunct_eq_false (hP _ l.2)]
      simp only [Declarator.tokens, List.cons_append, declarator, hno, Bool.false_eq_true, if_false]
      exact bind_eq_ok.2 ⟨_, hn.complete l (by simp [Clear]),
        bind_eq_ok.2 ⟨_, recognizes_trailingQualifier.complete d hr, rfl⟩⟩

/-- A type and a declarator, read with a device and a direction. -/
theorem recognizes_typed {P : Token → Prop} (hP : ∀ t, P t → t.kind ≠ .punct)
    {name : Reader String} (hn : Recognizes name (Leaf.tokens (P := P)) Leaf.text [])
    (d : Device) (io : Direction) :
    Recognizes (typed name d io)
      (fun x : Word .ident × Declarator P => x.1.1 :: x.2.tokens)
      (fun x => { device := d, direction := io, type := x.1.text, qualifier := x.2.qualifier
                  name := x.2.name }) ["[", "&"] where
  sound {ts rest v} h := by
    unfold typed at h
    obtain ⟨⟨type, ts1⟩, h1, h⟩ := bind_eq_ok.1 h
    obtain ⟨⟨⟨q, n⟩, ts2⟩, h2, h⟩ := bind_eq_ok.1 h
    obtain ⟨l, rfl, rfl⟩ := (recognizes_expect .ident).sound h1
    obtain ⟨x, rfl, hx⟩ := (recognizes_declarator hP hn).sound (mapError_eq_ok.1 h2)
    cases hx
    cases h
    exact ⟨(l, x), rfl, rfl⟩
  complete x rest hr := by
    exact bind_eq_ok.2 ⟨_, (recognizes_expect .ident).complete x.1 (by simp [Clear]),
      bind_eq_ok.2 ⟨_, mapError_eq_ok.2 ((recognizes_declarator hP hn).complete x.2 hr), rfl⟩⟩

theorem recognizes_result : Recognizes result Result.tokens Result.variable ["[", "&"] where
  sound h := by
    obtain ⟨x, rfl, rfl⟩ := (recognizes_typed (by simp_all) (recognizes_expect .ident) _ _).sound h
    exact ⟨⟨x.1, x.2⟩, rfl, rfl⟩
  complete v _ hr := (recognizes_typed (by simp_all) (recognizes_expect .ident) _ _).complete
    (v.type, v.declarator) hr

theorem device_eq (w : DeviceWord) (ts : List Token) : device (w.1 :: ts) = (w.device, ts) := by
  rcases w.2 with h | h <;> simp [device, peek, h, DeviceWord.device]

theorem device_none {t : Token} (ts : List Token) (h : ¬ (t.kind = .cpu ∨ t.kind = .gpu)) :
    device (t :: ts) = (.cpu, t :: ts) := by
  unfold device
  split <;> simp_all [peek]

theorem direction_eq (w : DirectionWord) (ts : List Token) :
    direction (w.1 :: ts) = (w.direction, ts) := by
  rcases w.2 with h | h | h <;> simp [direction, peek, h, DirectionWord.direction]

theorem direction_none {t : Token} (ts : List Token) (h : t.kind = .ident) :
    direction (t :: ts) = (.input, t :: ts) := by
  simp [direction, peek, h]

/-- The device word taken, or none. -/
theorem device_spelled (ts : List Token) : ∃ w : Option DeviceWord,
    ts = perhaps Leaf.tokens w ++ (device ts).2 ∧
      w.elim .cpu DeviceWord.device = (device ts).1 := by
  cases ts with
  | nil => exact ⟨none, by simp [device, peek, Token.finish]⟩
  | cons t ts =>
    by_cases h : t.kind = .cpu ∨ t.kind = .gpu
    · exact ⟨some ⟨t, h⟩, by simp [device_eq ⟨t, h⟩, Leaf.tokens]⟩
    · exact ⟨none, by simp [device_none ts h]⟩

theorem direction_spelled (ts : List Token) : ∃ w : Option DirectionWord,
    ts = perhaps Leaf.tokens w ++ (direction ts).2 ∧
      w.elim .input DirectionWord.direction = (direction ts).1 := by
  cases ts with
  | nil => exact ⟨none, by simp [direction, peek, Token.finish]⟩
  | cons t ts =>
    by_cases h : t.kind = .input ∨ t.kind = .output ∨ t.kind = .inout
    · exact ⟨some ⟨t, h⟩, by simp [direction_eq ⟨t, h⟩, Leaf.tokens]⟩
    · refine ⟨none, ?_⟩
      unfold direction
      split <;> simp_all [peek]

theorem recognizes_argument : Recognizes argument Argument.tokens Argument.variable ["[", "&"] where
  sound {ts rest v} h := by
    unfold argument at h
    obtain ⟨dev, hts, hdev⟩ := device_spelled ts
    obtain ⟨dir, hrest, hdir⟩ := direction_spelled (device ts).2
    obtain ⟨x, hx, rfl⟩ := (recognizes_typed literal_kind recognizes_literal _ _).sound h
    refine ⟨⟨dev, dir, x.1, x.2⟩, ?_, ?_⟩
    · rw [hts, hrest, hx]
      simp [Argument.tokens]
    · simp only [Argument.variable, hdev, hdir]
  complete a rest hr := by
    obtain ⟨dev, dir, type, decl⟩ := a
    have hdir : direction (perhaps Leaf.tokens dir ++ type.1 :: (decl.tokens ++ rest)) =
        (dir.elim .input DirectionWord.direction, type.1 :: (decl.tokens ++ rest)) := by
      cases dir with
      | none => exact direction_none _ type.2
      | some w => exact direction_eq w _
    have hdev : device (perhaps Leaf.tokens dev ++
        (perhaps Leaf.tokens dir ++ type.1 :: (decl.tokens ++ rest))) =
          (dev.elim .cpu DeviceWord.device,
            perhaps Leaf.tokens dir ++ type.1 :: (decl.tokens ++ rest)) := by
      cases dev with
      | some w => exact device_eq w _
      | none =>
        cases dir with
        | none => exact device_none _ (by simp [type.2])
        | some w => exact device_none _ (by rcases w.2 with h | h | h <;> simp [h])
    simp only [Argument.tokens, List.append_assoc, List.cons_append, argument, hdev, hdir]
    exact (recognizes_typed literal_kind recognizes_literal _ _).complete (type, decl) hr

/-! ## Lists and calls -/

theorem recognizes_arguments :
    Recognizes arguments (Commas.tokens Argument.tokens) (fun c => c.toList.map Argument.variable)
      [",", "[", "&"] where
  sound {ts rest vs} h := by
    induction ts using arguments.induct generalizing vs rest with
    | case1 ts e he =>
      rw [arguments_eq, he] at h
      cases h
    | case2 ts v ts1 hv hcomma ih =>
      rw [arguments_eq, hv] at h
      obtain ⟨a, rfl, rfl⟩ := recognizes_argument.sound hv
      obtain ⟨comma, hts1⟩ := atPunct_eq_true.1 hcomma
      obtain ⟨⟨vs', ts2⟩, h1, h2⟩ := bind_eq_ok.1 ((if_pos hcomma).symm.trans h)
      obtain ⟨c, hc, rfl⟩ := ih (mapError_eq_ok.1 h1)
      cases h2
      exact ⟨.more a comma c, by rw [hts1, hc]; simp [Commas.tokens], rfl⟩
    | case3 ts v ts1 hv hcomma =>
      rw [arguments_eq, hv] at h
      obtain ⟨a, rfl, rfl⟩ := recognizes_argument.sound hv
      cases (if_neg hcomma).symm.trans h
      exact ⟨.one a, rfl, rfl⟩
  complete c rest hr := by
    induction c with
    | one a =>
      have ha := recognizes_argument.complete a (hr.subset (by simp))
      rw [Commas.tokens, arguments_eq, ha]
      exact if_neg (by simp [atPunct_eq_false hr])
    | more a comma c ih =>
      have ha := recognizes_argument.complete a
        (Clear.sign comma (Commas.tokens Argument.tokens c ++ rest) (by decide))
      simp only [Commas.tokens, List.append_assoc, List.cons_append]
      rw [arguments_eq, ha]
      exact (if_pos comma.2).trans (bind_eq_ok.2 ⟨_, mapError_eq_ok.2 ih, rfl⟩)

theorem recognizes_classNames :
    Recognizes classNames (Commas.tokens (Leaf.tokens (P := fun t => t.kind = .ident)))
      (fun c => c.toList.map Leaf.text) [","] where
  sound {ts rest ns} h := by
    fun_induction classNames ts generalizing ns rest with
    | case1 => cases h
    | case2 t ht =>
      cases h
      exact ⟨.one ⟨t, ht⟩, rfl, rfl⟩
    | case3 t ht => cases h
    | case4 t c ts ht hc ih =>
      obtain ⟨⟨ns', rest'⟩, h1, h2⟩ := bind_eq_ok.1 h
      obtain ⟨d, rfl, rfl⟩ := ih h1
      cases h2
      exact ⟨.more ⟨t, ht⟩ ⟨c, hc⟩ d, rfl, rfl⟩
    | case5 t c ts ht hc =>
      cases h
      exact ⟨.one ⟨t, ht⟩, rfl, rfl⟩
    | case6 t c ts ht => cases h
  complete d rest hr := by
    induction d with
    | one n =>
      cases rest with
      | nil => simp [Commas.tokens, Leaf.tokens, classNames, n.2, Commas.toList, Leaf.text]
      | cons t ts =>
        have ht : t.isPunct "," = false := hr t rfl "," (by simp)
        simp [Commas.tokens, Leaf.tokens, classNames, n.2, ht, Commas.toList, Leaf.text]
    | more n comma d ih =>
      simp only [Commas.tokens, Leaf.tokens, List.cons_append, List.nil_append, classNames, n.2,
        comma.2, if_true]
      exact bind_eq_ok.2 ⟨_, ih, rfl⟩

theorem method_eq_ok {receiver file : String} {line : Int} {ts rest : List Token} {r : Routine} :
    method receiver file line ts = .ok (r, rest) ↔
      ∃ (arrow : Sign ">") (owner : Word .ident) (dot : Sign ".") (name : Word .ident),
        ts = arrow.1 :: owner.1 :: dot.1 :: name.1 :: rest ∧
          { receiver := some receiver, owner := some owner.text, name := name.text,
            file := file, line := line } = r := by
  constructor
  · intro h
    unfold method at h
    obtain ⟨ts1, h1, h⟩ := bind_eq_ok.1 h
    obtain ⟨⟨o, ts2⟩, h2, h⟩ := bind_eq_ok.1 h
    obtain ⟨ts3, h3, h⟩ := bind_eq_ok.1 h
    obtain ⟨⟨n, ts4⟩, h4, h5⟩ := bind_eq_ok.1 h
    obtain ⟨arrow, rfl⟩ := expectPunct_eq_ok.1 h1
    obtain ⟨owner, rfl, rfl⟩ := (recognizes_expect .ident).sound h2
    obtain ⟨dot, rfl⟩ := expectPunct_eq_ok.1 h3
    obtain ⟨name, rfl, rfl⟩ := (recognizes_expect .ident).sound h4
    cases h5
    exact ⟨arrow, owner, dot, name, rfl, rfl⟩
  · rintro ⟨arrow, owner, dot, name, rfl, rfl⟩
    exact bind_eq_ok.2 ⟨_, expectPunct_eq_ok.2 ⟨arrow, rfl⟩, bind_eq_ok.2 ⟨_,
      (recognizes_expect .ident).complete owner (by simp [Clear]), bind_eq_ok.2 ⟨_,
        expectPunct_eq_ok.2 ⟨dot, rfl⟩, bind_eq_ok.2 ⟨_,
          (recognizes_expect .ident).complete name (by simp [Clear]), rfl⟩⟩⟩⟩

theorem recognizes_callee (file : String) (line : Int) :
    Recognizes (callee file line) Target.tokens (Target.routine file line) ["-"] where
  sound {ts rest r} h := by
    unfold callee at h
    split at h
    · rename_i hk
      obtain ⟨⟨n, ts1⟩, h1, h2⟩ := bind_eq_ok.1 h
      obtain ⟨name, hname, rfl⟩ := (recognizes_expect .ident).sound h1
      cases h2
      cases ts with
      | nil => cases hk
      | cons t ts => exact ⟨.fortran ⟨t, hk⟩ name, congrArg (t :: ·) hname, rfl⟩
    · rename_i hk
      obtain ⟨⟨n, ts1⟩, h1, h2⟩ := bind_eq_ok.1 h
      obtain ⟨owner, hname, rfl⟩ := (recognizes_expect .ident).sound h1
      cases h2
      cases ts with
      | nil => cases hk
      | cons t ts => exact ⟨.constructor ⟨t, hk⟩ owner, congrArg (t :: ·) hname, rfl⟩
    · obtain ⟨⟨n, ts1⟩, h1, h2⟩ := bind_eq_ok.1 h
      obtain ⟨name, rfl, rfl⟩ := (recognizes_expect .ident).sound h1
      by_cases hdash : atPunct "-" ts1 = true
      · obtain ⟨dash, hts1⟩ := atPunct_eq_true.1 hdash
        obtain ⟨arrow, owner, dot, meth, htail, rfl⟩ :=
          method_eq_ok.1 ((if_pos hdash).symm.trans h2)
        refine ⟨.method name dash arrow owner dot meth, ?_, rfl⟩
        rw [hts1, htail]
        rfl
      · cases (if_neg hdash).symm.trans h2
        exact ⟨.plain name, rfl, rfl⟩
  complete d rest hr := by
    cases d with
    | fortran w n =>
      simp only [Target.tokens, List.cons_append, callee, peek, w.2]
      exact bind_eq_ok.2 ⟨_, (recognizes_expect .ident).complete n (by simp [Clear]), rfl⟩
    | constructor w n =>
      simp only [Target.tokens, List.cons_append, callee, peek, w.2]
      exact bind_eq_ok.2 ⟨_, (recognizes_expect .ident).complete n (by simp [Clear]), rfl⟩
    | plain n =>
      simp only [Target.tokens, List.cons_append, callee, peek, n.2]
      refine bind_eq_ok.2 ⟨_, (recognizes_expect .ident).complete n (by simp [Clear]), ?_⟩
      exact if_neg (by simp [atPunct_eq_false hr])
    | method this dash arrow owner dot n =>
      simp only [Target.tokens, List.cons_append, callee, peek, this.2]
      refine bind_eq_ok.2 ⟨_, (recognizes_expect .ident).complete this (by simp [Clear]), ?_⟩
      exact (if_pos dash.2).trans (method_eq_ok.2 ⟨arrow, owner, dot, n, rfl, rfl⟩)

/-- Arguments up to the closing parenthesis. -/
theorem optionalArguments_complete (args : Option (Commas Argument)) (closing : Sign ")")
    (rest : List Token) :
    optionalArguments (perhaps (Commas.tokens Argument.tokens) args ++ closing.1 :: rest) =
      .ok ((args.elim [] Commas.toList).map Argument.variable, closing.1 :: rest) := by
  cases args with
  | none => exact if_pos closing.2
  | some c =>
    obtain ⟨t, ts, e, ht⟩ := startsWith_argument.commas c
    have hne : ¬ atPunct ")" (Commas.tokens Argument.tokens c ++ closing.1 :: rest) = true := by
      rw [e, List.cons_append, atPunct_cons, isPunct_eq_false ht]
      simp
    exact (if_neg hne).trans (recognizes_arguments.complete c (Clear.sign closing _ (by decide)))

theorem optionalArguments_sound {ts rest : List Token} {vs : List Variable}
    (h : optionalArguments ts = .ok (vs, rest)) : ∃ args : Option (Commas Argument),
      ts = perhaps (Commas.tokens Argument.tokens) args ++ rest ∧
        (args.elim [] Commas.toList).map Argument.variable = vs := by
  unfold optionalArguments at h
  split at h
  · cases h
    exact ⟨none, rfl, rfl⟩
  · obtain ⟨c, hc, rfl⟩ := recognizes_arguments.sound h
    exact ⟨some c, hc, rfl⟩

theorem recognizes_callStatement (file : String) (line : Int) :
    Recognizes (callStatement file line) Invocation.tokens (Invocation.routine file line) [] where
  sound {ts rest r} h := by
    unfold callStatement at h
    obtain ⟨⟨r', ts1⟩, h1, h⟩ := bind_eq_ok.1 h
    obtain ⟨ts2, h2, h⟩ := bind_eq_ok.1 h
    obtain ⟨⟨vs, ts3⟩, h3, h⟩ := bind_eq_ok.1 h
    obtain ⟨ts4, h4, h⟩ := bind_eq_ok.1 h
    obtain ⟨ts5, h5, h6⟩ := bind_eq_ok.1 h
    obtain ⟨target, rfl, rfl⟩ := (recognizes_callee file line).sound h1
    obtain ⟨opening, rfl⟩ := expectPunct_eq_ok.1 h2
    obtain ⟨args, rfl, rfl⟩ := optionalArguments_sound h3
    obtain ⟨closing, rfl⟩ := expectPunct_eq_ok.1 (mapError_eq_ok.1 h4)
    obtain ⟨stop, rfl⟩ := expectPunct_eq_ok.1 (mapError_eq_ok.1 h5)
    cases h6
    exact ⟨⟨target, opening, args, closing, stop⟩, by simp [Invocation.tokens], rfl⟩
  complete c rest _ := by
    simp only [Invocation.tokens, List.append_assoc, List.cons_append, List.nil_append]
    exact bind_eq_ok.2 ⟨_, (recognizes_callee file line).complete c.target
        (Clear.sign c.opening _ (by decide)),
      bind_eq_ok.2 ⟨_, expectPunct_eq_ok.2 ⟨c.opening, rfl⟩,
        bind_eq_ok.2 ⟨_, optionalArguments_complete c.args c.closing _,
          bind_eq_ok.2 ⟨_, mapError_eq_ok.2 (expectPunct_eq_ok.2 ⟨c.closing, rfl⟩),
            bind_eq_ok.2 ⟨_, mapError_eq_ok.2 (expectPunct_eq_ok.2 ⟨c.stop, rfl⟩), rfl⟩⟩⟩⟩⟩

/-! ## Looking ahead for a result -/

/-- The look-ahead passes over such a token. -/
def Neutral (t : Token) : Prop :=
  ∀ s ∈ ["[", "]", "=", "(", ";"], t.isPunct s = false

theorem hasResult_neutral {t : Token} (h : Neutral t) (depth : Int) (ts : List Token) :
    hasResult depth (t :: ts) = hasResult depth ts := by
  have h1 := h "[" (by simp)
  have h2 := h "]" (by simp)
  have h3 := h "=" (by simp)
  have h4 := h "(" (by simp)
  have h5 := h ";" (by simp)
  simp [hasResult, h1, h2, h3, h4, h5]

theorem hasResult_append {us : List Token} (h : ∀ t ∈ us, Neutral t) (depth : Int)
    (ts : List Token) : hasResult depth (us ++ ts) = hasResult depth ts := by
  induction us with
  | nil => rfl
  | cons t us ih =>
    rw [List.cons_append, hasResult_neutral (h t (by simp)), ih fun t ht => h t (by simp [ht])]

theorem neutral_word {t : Token} (h : t.kind ≠ .punct) : Neutral t :=
  fun _ _ => isPunct_eq_false h

theorem neutral_sign {s : String} (l : Sign s) (h : s ∉ ["[", "]", "=", "(", ";"]) :
    Neutral l.1 :=
  fun _ hs => isPunct_unique l.2 fun e => h (e ▸ hs)

theorem neutral_extents (c : Commas Extent) : ∀ t ∈ c.tokens Leaf.tokens, Neutral t := by
  have one (e : Extent) : Neutral e.1 :=
    neutral_word (by rcases e.2 with h | h <;> simp [h])
  induction c with
  | one e => simpa [Commas.tokens, Leaf.tokens] using one e
  | more e comma c ih =>
    simpa [Commas.tokens, Leaf.tokens] using ⟨one e, neutral_sign comma (by decide), ih⟩

/-- Brackets are balanced: the depth behind them is the depth before. -/
theorem hasResult_brackets (b : Brackets) (depth : Int) (ts : List Token) :
    hasResult depth (b.tokens ++ ts) = hasResult depth ts := by
  obtain ⟨opening, extents, closing, ref⟩ := b
  have inner : ∀ t ∈ perhaps (Commas.tokens Leaf.tokens) extents, Neutral t := by
    cases extents with
    | none => simp
    | some c => exact neutral_extents c
  have last : ∀ t ∈ perhaps Leaf.tokens ref, Neutral t := by
    cases ref with
    | none => simp
    | some amp => simpa [Leaf.tokens] using neutral_sign amp (by decide)
  have hclose : closing.1.isPunct "[" = false := isPunct_unique closing.2 (by decide)
  simp only [Brackets.tokens, List.cons_append, List.append_assoc]
  rw [hasResult, if_pos opening.2, hasResult_append inner, hasResult, if_neg (by simp [hclose]),
    if_pos closing.2, hasResult_append last, Int.add_sub_cancel]

theorem hasResult_marks (m : Marks) (ts : List Token) :
    hasResult 0 (m.tokens ++ ts) = hasResult 0 ts := by
  cases m with
  | pointer star => exact hasResult_neutral (neutral_sign star (by decide)) 0 ts
  | reference amp => exact hasResult_neutral (neutral_sign amp (by decide)) 0 ts
  | array b => exact hasResult_brackets b 0 ts

theorem hasResult_result (v : Result) (equals : Sign "=") (ts : List Token) :
    hasResult 0 (v.tokens ++ equals.1 :: ts) = true := by
  obtain ⟨type, decl⟩ := v
  have word (w : Word .ident) : Neutral w.1 := neutral_word (by simp [w.2])
  have found : hasResult 0 (equals.1 :: ts) = true := by
    have h1 : equals.1.isPunct "[" = false := isPunct_unique equals.2 (by decide)
    have h2 : equals.1.isPunct "]" = false := isPunct_unique equals.2 (by decide)
    simp [hasResult, h1, h2, equals.2]
  rw [Result.tokens, List.cons_append, hasResult_neutral (word type)]
  cases decl with
  | before m n =>
    rw [Declarator.tokens, List.append_assoc, hasResult_marks, List.cons_append, List.nil_append,
      hasResult_neutral (word n), found]
  | behind n d =>
    rw [Declarator.tokens, List.cons_append, hasResult_neutral (word n)]
    cases d with
    | none => exact found
    | some b => rw [perhaps_some, hasResult_brackets, found]

theorem hasResult_invocation (c : Invocation) (ts : List Token) :
    hasResult 0 (c.tokens ++ ts) = false := by
  have word {k : TokenKind} (hk : k ≠ .punct) (w : Word k) : Neutral w.1 :=
    neutral_word (by rw [w.2]; exact hk)
  have target : ∀ t ∈ c.target.tokens, Neutral t := by
    cases c.target with
    | fortran w n => simpa [Target.tokens] using ⟨word (by decide) w, word (by decide) n⟩
    | constructor w n => simpa [Target.tokens] using ⟨word (by decide) w, word (by decide) n⟩
    | plain n => simpa [Target.tokens] using word (by decide) n
    | method this dash arrow owner dot n =>
      simpa [Target.tokens] using ⟨word (by decide) this, neutral_sign dash (by decide),
        neutral_sign arrow (by decide), word (by decide) owner, neutral_sign dot (by decide),
        word (by decide) n⟩
  have h1 : c.opening.1.isPunct "[" = false := isPunct_unique c.opening.2 (by decide)
  have h2 : c.opening.1.isPunct "]" = false := isPunct_unique c.opening.2 (by decide)
  have h3 : c.opening.1.isPunct "=" = false := isPunct_unique c.opening.2 (by decide)
  rw [Invocation.tokens, List.append_assoc, hasResult_append target]
  simp [hasResult, h1, h2, h3, c.opening.2]

/-! ## Statements -/

theorem line_peek (d : Derivation) (rest : List Token) :
    (peek (d.tokens ++ rest)).line = d.line := by
  obtain ⟨t, ts, e, -⟩ := d.start
  simp [Derivation.line, e, peek]

/-- All but type definitions and class declarations are calls. -/
theorem statement_eq_call {file : String} {ts : List Token} (h1 : (peek ts).kind ≠ .typedef)
    (h2 : (peek ts).kind ≠ .classWord) :
    statement file ts =
      if hasResult 0 ts then
        result ts >>= fun x => (expectPunct "=" x.2).mapError (Failure.after [x.1.type]) >>=
          fun ts2 => (callStatement file (peek ts).line ts2).mapError (Failure.after [x.1.type]) >>=
            fun y => .ok (.call { y.1 with results := [x.1] }, y.2)
      else callStatement file (peek ts).line ts >>= fun y => .ok (.call y.1, y.2) := by
  unfold statement
  split
  · exact absurd ‹_› h1
  · exact absurd ‹_› h2
  · rfl

theorem recognizes_statement (file : String) :
    Recognizes (statement file) Derivation.tokens (Derivation.statement file) [] where
  sound {ts rest st} h := by
    by_cases htypedef : (peek ts).kind = .typedef
    · simp only [statement, htypedef] at h
      obtain ⟨⟨x, ts1⟩, h1, h⟩ := bind_eq_ok.1 h
      obtain ⟨⟨y, ts2⟩, h2, h⟩ := bind_eq_ok.1 h
      obtain ⟨ts3, h3, h4⟩ := bind_eq_ok.1 h
      obtain ⟨space, hts, rfl⟩ := (recognizes_expect .ident).sound h1
      obtain ⟨name, rfl, rfl⟩ := (recognizes_expect .ident).sound h2
      obtain ⟨stop, rfl⟩ := expectPunct_eq_ok.1 h3
      cases h4
      cases ts with
      | nil => cases htypedef
      | cons t ts =>
        exact ⟨.typedef ⟨t, htypedef⟩ space name stop, congrArg (t :: ·) hts, rfl⟩
    by_cases hclass : (peek ts).kind = .classWord
    · simp only [statement, hclass] at h
      obtain ⟨⟨x, ts1⟩, h1, h⟩ := bind_eq_ok.1 h
      obtain ⟨ts2, h2, h⟩ := bind_eq_ok.1 h
      obtain ⟨⟨ns, ts3⟩, h3, h⟩ := bind_eq_ok.1 h
      obtain ⟨ts4, h4, h5⟩ := bind_eq_ok.1 h
      obtain ⟨child, hts, rfl⟩ := (recognizes_expect .ident).sound h1
      obtain ⟨colon, rfl⟩ := expectPunct_eq_ok.1 h2
      obtain ⟨parents, rfl, rfl⟩ := recognizes_classNames.sound h3
      obtain ⟨stop, rfl⟩ := expectPunct_eq_ok.1 h4
      cases h5
      cases ts with
      | nil => cases hclass
      | cons t ts =>
        refine ⟨.inherits ⟨t, hclass⟩ child colon parents stop, ?_, rfl⟩
        rw [List.tail_cons] at hts
        simp [hts, Derivation.tokens, Leaf.tokens]
    -- What is left is a call; whether it has a result was found by looking ahead.
    rw [statement_eq_call htypedef hclass] at h
    by_cases hres : hasResult 0 ts = true
    · rw [if_pos hres] at h
      obtain ⟨⟨v, ts1⟩, h1, h⟩ := bind_eq_ok.1 h
      obtain ⟨ts2, h2, h⟩ := bind_eq_ok.1 h
      obtain ⟨⟨r, ts3⟩, h3, h4⟩ := bind_eq_ok.1 h
      obtain ⟨x, rfl, rfl⟩ := recognizes_result.sound h1
      obtain ⟨equals, rfl⟩ := expectPunct_eq_ok.1 (mapError_eq_ok.1 h2)
      obtain ⟨c, rfl, rfl⟩ := (recognizes_callStatement file _).sound (mapError_eq_ok.1 h3)
      cases h4
      refine ⟨.assignment x equals c, by simp [Derivation.tokens], rfl⟩
    · rw [if_neg hres] at h
      obtain ⟨⟨r, ts1⟩, h1, h2⟩ := bind_eq_ok.1 h
      obtain ⟨c, rfl, rfl⟩ := (recognizes_callStatement file _).sound h1
      cases h2
      exact ⟨.call c, rfl, by rw [Derivation.statement, ← line_peek (.call c) ts1]; rfl⟩
  complete d rest _ := by
    have hline := line_peek d rest
    cases d with
    | typedef w space name stop =>
      simp only [Derivation.tokens, List.cons_append, List.nil_append, statement, peek, w.2]
      exact bind_eq_ok.2 ⟨_, (recognizes_expect .ident).complete space (by simp [Clear]),
        bind_eq_ok.2 ⟨_, (recognizes_expect .ident).complete name (by simp [Clear]),
          bind_eq_ok.2 ⟨_, expectPunct_eq_ok.2 ⟨stop, rfl⟩, rfl⟩⟩⟩
    | inherits w child colon parents stop =>
      simp only [Derivation.tokens, List.cons_append, List.nil_append, List.append_assoc, statement,
        peek, w.2]
      exact bind_eq_ok.2 ⟨_, (recognizes_expect .ident).complete child (by simp [Clear]),
        bind_eq_ok.2 ⟨_, expectPunct_eq_ok.2 ⟨colon, rfl⟩,
          bind_eq_ok.2 ⟨_, recognizes_classNames.complete parents (Clear.sign stop _ (by decide)),
            bind_eq_ok.2 ⟨_, expectPunct_eq_ok.2 ⟨stop, rfl⟩, rfl⟩⟩⟩⟩
    | call c =>
      obtain ⟨t, ts, e, ht⟩ := startsWith_invocation c
      have hpeek : (peek (c.tokens ++ rest)).kind = t.kind := by rw [e]; rfl
      rw [Derivation.tokens] at hline ⊢
      rw [statement_eq_call (by rw [hpeek]; rcases ht with h | h | h <;> simp [h])
        (by rw [hpeek]; rcases ht with h | h | h <;> simp [h]),
        if_neg (by simp [hasResult_invocation]), hline]
      exact bind_eq_ok.2 ⟨_, (recognizes_callStatement file _).complete c (by simp [Clear]), rfl⟩
    | assignment v equals c =>
      have hpeek : (peek ((Derivation.assignment v equals c).tokens ++ rest)).kind = .ident :=
        v.type.2
      rw [statement_eq_call (by simp [hpeek]) (by simp [hpeek]), hline, Derivation.tokens,
        List.append_assoc, List.cons_append, if_pos (hasResult_result v equals _)]
      exact bind_eq_ok.2 ⟨_, recognizes_result.complete v (Clear.sign equals _ (by decide)),
        bind_eq_ok.2 ⟨_, mapError_eq_ok.2 (expectPunct_eq_ok.2 ⟨equals, rfl⟩),
          bind_eq_ok.2 ⟨_, mapError_eq_ok.2 ((recognizes_callStatement file _).complete c
            (by simp [Clear])), rfl⟩⟩⟩

/-- A derivation ends with a `;`. -/
theorem exists_stop (d : Derivation) : ∃ (ts : List Token) (stop : Sign ";"),
    d.tokens = ts ++ [stop.1] := by
  have invocation (c : Invocation) : ∃ ts, c.tokens = ts ++ [c.stop.1] :=
    ⟨_, by rw [Invocation.tokens, ← List.singleton_append (l := [c.stop.1]), ← List.append_assoc,
      ← List.cons_append, ← List.append_assoc]⟩
  cases d with
  | typedef w space name stop => exact ⟨[w.1, space.1, name.1], stop, rfl⟩
  | inherits w child colon parents stop =>
    exact ⟨w.1 :: child.1 :: colon.1 :: parents.tokens Leaf.tokens, stop, rfl⟩
  | call c =>
    obtain ⟨ts, e⟩ := invocation c
    exact ⟨ts, c.stop, e⟩
  | assignment v equals c =>
    obtain ⟨ts, e⟩ := invocation c
    exact ⟨v.tokens ++ equals.1 :: ts, c.stop, by simp [Derivation.tokens, e]⟩

/-- Nothing is left behind the only `;`. -/
theorem eq_nil_of_stop {d : Derivation} {ts rest : List Token} {stop : Token}
    (hts : ∀ t ∈ ts, t.isPunct ";" = false) (h : ts ++ [stop] = d.tokens ++ rest) : rest = [] := by
  obtain ⟨us, last, e⟩ := exists_stop d
  rw [e, List.append_assoc, List.singleton_append] at h
  rcases List.append_eq_append_iff.1 h with ⟨xs, hus, hxs⟩ | ⟨xs, hts', hxs⟩
  · cases xs with
    | nil => exact (List.cons.inj hxs).2.symm
    | cons x xs => simp at hxs
  · cases xs with
    | nil => exact (List.cons.inj hxs).2
    | cons x xs =>
      have hx : last.1 = x := (List.cons.inj hxs).1
      have := hts x (by simp [hts'])
      rw [← hx, last.2] at this
      cases this

/-- All tokens of a derivation are read. -/
theorem statement_tokens (file : String) (d : Derivation) :
    statement file d.tokens = .ok (d.statement file, []) := by
  have h := (recognizes_statement file).complete d (show Clear [] [] by simp [Clear])
  rwa [List.append_nil] at h

/-- A statement up to its only `;` is parsed exactly if it can be derived, and then into what its
derivation stands for. -/
theorem parse_eq_ok {file : String} {ts : List Token} {stop : Token} {st : Statement}
    (hts : ∀ t ∈ ts, t.isPunct ";" = false) :
    parse file (ts ++ [stop]) = .ok st ↔
      ∃ d : Derivation, d.tokens = ts ++ [stop] ∧ d.statement file = st := by
  constructor
  · intro h
    cases hs : statement file (ts ++ [stop]) with
    | error e =>
      rw [parse, hs] at h
      cases h
    | ok x =>
      rw [parse, hs] at h
      cases h
      obtain ⟨d, e, hd⟩ := (recognizes_statement file).sound hs
      rw [eq_nil_of_stop hts e, List.append_nil] at e
      exact ⟨d, e.symm, hd⟩
  · rintro ⟨d, e, rfl⟩
    rw [parse, ← e, statement_tokens]
    rfl

end MexBridge.Statement

namespace MexBridge

def Notice.isBadStatement : Notice → Bool
  | .badStatement .. => true
  | _ => false

namespace Ledger

open Grammar

/-- Takes tokens read in `file`, one after another. -/
def feedAll (mex file : String) (l : Ledger) : List Token → Ledger × Reply
  | [] => (l, {})
  | t :: ts =>
    let (l, first) := l.feed mex file t
    let (l, rest) := l.feedAll mex file ts
    (l, { notices := first.notices ++ rest.notices, matlab := first.matlab ++ rest.matlab })

/-- A token that neither ends a statement nor breaks it off. -/
structure Inner (t : Token) : Prop where
  line : t.kind ≠ .otherLine
  file : t.kind ≠ .eof
  stop : t.isPunct ";" = false

instance (t : Token) : Decidable (Inner t) :=
  decidable_of_iff (t.kind ≠ .otherLine ∧ t.kind ≠ .eof ∧ t.isPunct ";" = false)
    ⟨fun ⟨line, file, stop⟩ => ⟨line, file, stop⟩, fun ⟨line, file, stop⟩ => ⟨line, file, stop⟩⟩

theorem feed_inner {mex file : String} {t : Token} (ht : Inner t) (l : Ledger) :
    l.feed mex file t = ({ l with pending := l.pending ++ [t] }, {}) := by
  unfold feed
  split
  · exact absurd ‹_› ht.line
  · exact absurd ‹_› ht.file
  · rw [if_neg (by simp [ht.stop])]

theorem feed_stop {mex file : String} {stop : Token} (h : stop.isPunct ";" = true) (l : Ledger) :
    l.feed mex file stop = { l with pending := [] }.enterTokens mex file (l.pending ++ [stop]) := by
  have hk := kind_of_isPunct h
  simp [feed, hk, h]

/-- Fed a statement up to its `;`, a ledger enters its tokens. -/
theorem feedAll_statement (mex file : String) {ts : List Token} {stop : Token}
    (hts : ∀ t ∈ ts, Inner t) (hstop : stop.isPunct ";" = true) (l : Ledger) :
    l.feedAll mex file (ts ++ [stop]) =
      { l with pending := [] }.enterTokens mex file (l.pending ++ (ts ++ [stop])) := by
  induction ts generalizing l with
  | nil => simp [feedAll, feed_stop hstop]
  | cons t ts ih =>
    simp only [List.cons_append, feedAll, feed_inner (hts t (by simp))]
    rw [ih fun t ht => hts t (by simp [ht])]
    simp

/-- A statement that is entered is no parse error, whatever else is wrong with it. -/
theorem isBadStatement_enterStatement (mex : String) (l : Ledger) (st : Statement) :
    (l.enterStatement mex st).2.notices.filter Notice.isBadStatement = [] := by
  cases st with
  | typedef space name =>
    cases h : TypeSpace.ofName? space with
    | none => simp [enterStatement, h, Notice.isBadStatement]
    | some sp => simp [enterStatement, h]
  | inherits child parents => rfl
  | call r =>
    simp only [enterStatement, enterRoutine, List.filter_map, List.map_eq_nil_iff,
      List.filter_eq_nil_iff]
    intro c _
    simp [Notice.isBadStatement]

theorem exists_entered (mex : String) (l : Ledger) (r : Routine) :
    ∃ s ∈ (l.enterStatement mex (.call r)).1.routines, s.id = l.count + 1 ∧
      s.baseTypes = r.baseTypes.map l.context.settings.promotion.rename := by
  refine ⟨(l.checked r).value, ?_, id_checked l r, ?_⟩
  · exact (perm_members_fileUnder ..).mem_iff.2 (List.mem_cons_self ..)
  · rw [checked, Routine.baseTypes_check]
    simp [Routine.baseTypes, promote, Function.comp_def]

/-- A ledger with nothing pending, fed tokens up to a `;`, reports no parse error exactly if the
tokens can be derived from the grammar. Then it enters what their only derivation stands for, and no
token is left; a call is filed under the next id, with each of its base types promoted. Otherwise it
reports one parse error, counts it, and enters no routine. -/
theorem feedAll_derivation (mex file : String) {l : Ledger} (hl : l.pending = [])
    {ts : List Token} {stop : Token} (hts : ∀ t ∈ ts, Inner t) (hstop : stop.isPunct ";" = true) :
    let out := l.feedAll mex file (ts ++ [stop])
    (out.2.notices.filter Notice.isBadStatement = [] ↔
      ∃ d : Derivation, d.tokens = ts ++ [stop]) ∧
    (∀ d : Derivation, d.tokens = ts ++ [stop] →
      (∀ d' : Derivation, d'.tokens = ts ++ [stop] → d' = d) ∧
      Statement.statement file (ts ++ [stop]) = .ok (d.statement file, []) ∧
      out = l.enterStatement mex (d.statement file) ∧
      ∀ r, d.statement file = .call r →
        out = (l.note r.baseTypes).enterRoutine mex (promote l.context.settings.promotion r) ∧
        ∃ s ∈ out.1.routines, s.id = l.count + 1 ∧
          s.baseTypes = r.baseTypes.map l.context.settings.promotion.rename) ∧
    ((¬ ∃ d : Derivation, d.tokens = ts ++ [stop]) →
      (∃ line fault, out.2.notices = [.badStatement file line fault]) ∧
      out.1.errors = l.errors + 1 ∧ out.1.groups = l.groups ∧ out.1.count = l.count ∧
      out.1.pending = []) := by
  intro out
  have hout : out = l.enterTokens mex file (ts ++ [stop]) := by
    have hempty : { l with pending := [] } = l := by rw [← hl]
    show l.feedAll mex file (ts ++ [stop]) = _
    rw [feedAll_statement mex file hts hstop, hempty, hl, List.nil_append]
  have parsed (st : Statement) : Statement.parse file (ts ++ [stop]) = .ok st ↔
      ∃ d : Derivation, d.tokens = ts ++ [stop] ∧ d.statement file = st :=
    Statement.parse_eq_ok fun t ht => (hts t ht).stop
  have entered (d : Derivation) (hd : d.tokens = ts ++ [stop]) :
      out = l.enterStatement mex (d.statement file) := by
    rw [hout, enterTokens, (parsed _).2 ⟨d, hd, rfl⟩]
  have refused (h : ¬ ∃ d : Derivation, d.tokens = ts ++ [stop]) :
      ∃ e : Statement.Failure, out = ({ l.note e.types with errors := l.errors + 1 },
        { notices := [.badStatement file (Statement.peek (ts ++ [stop])).line e.fault] }) := by
    cases hp : Statement.parse file (ts ++ [stop]) with
    | ok st =>
      obtain ⟨d, hd, -⟩ := (parsed st).1 hp
      exact absurd ⟨d, hd⟩ h
    | error e => exact ⟨e, by rw [hout, enterTokens, hp]⟩
  refine ⟨⟨fun h => ?_, ?_⟩, fun d hd => ⟨fun d' hd' => ?_, ?_, entered d hd, fun r hr => ?_⟩,
    fun h => ?_⟩
  · by_cases hd : ∃ d : Derivation, d.tokens = ts ++ [stop]
    · exact hd
    · obtain ⟨e, he⟩ := refused hd
      rw [he] at h
      cases h
  · rintro ⟨d, hd⟩
    rw [entered d hd]
    exact isBadStatement_enterStatement mex l _
  · refine (unambiguous_derivation (x := []) (y := []) ?_ ?_ ?_).1
    · simp [Clear]
    · simp [Clear]
    · rw [hd, hd']
  · rw [← hd, Statement.statement_tokens]
  · rw [entered d hd, hr]
    exact ⟨rfl, exists_entered mex l r⟩
  · obtain ⟨e, he⟩ := refused h
    rw [he]
    exact ⟨⟨_, _, rfl⟩, rfl, rfl, rfl, hl⟩

/-- A method with a result, dimensions before a name and behind one, a literal and a pointer. -/
def areaTokens : List Token := Token.tokens 1
  "double[m, n]& a = p->Shape.area(gpu inout double x[2], cstring 'fast', output int* k)".toList

def areaRoutine : Routine where
  receiver := some "p"
  owner := some "Shape"
  name := "area"
  file := "a.mw"
  line := 1
  args := [
    { device := .gpu, direction := .inout, type := "double", name := "x"
      qualifier := some { mark := .array, dims := [{ text := "2" }] } },
    { type := "cstring", name := "'fast'" },
    { direction := .output, type := "int", name := "k", qualifier := some { mark := .pointer } }]
  results := [
    { direction := .output, type := "double", name := "a"
      qualifier := some { mark := .arrayRef, dims := [{ text := "m" }, { text := "n" }] } }]

def promotedLedger : Ledger := { context := { settings := { promotion := .wide } } }

theorem feedAll_derivation_area :
    promotedLedger.pending = [] ∧ (∀ t ∈ areaTokens, Inner t) ∧
      (∃ d : Derivation, d.tokens = areaTokens ++ [⟨.punct, ";", 1⟩] ∧
        d.statement "a.mw" = .call areaRoutine) ∧
      (∃ s ∈ (promotedLedger.feedAll "" "a.mw" (areaTokens ++ [⟨.punct, ";", 1⟩])).1.routines,
        s.id = 1 ∧ s.baseTypes = ["double", "double", "cstring", "int64_t"]) ∧
      ¬ ∃ d : Derivation, d.tokens = areaTokens.dropLast ++ [⟨.punct, ";", 1⟩] := by
  have hts : ∀ t ∈ areaTokens, Inner t := by decide +kernel
  have hcut : ∀ t ∈ areaTokens.dropLast, Inner t :=
    fun t ht => hts t ((List.dropLast_sublist areaTokens).subset ht)
  have whole := @feedAll_derivation "" "a.mw" promotedLedger rfl areaTokens ⟨.punct, ";", 1⟩ hts
    (by decide)
  have cut := @feedAll_derivation "" "a.mw" promotedLedger rfl areaTokens.dropLast ⟨.punct, ";", 1⟩ hcut
    (by decide)
  obtain ⟨d, hd⟩ := whole.1.1 (by decide +kernel)
  obtain ⟨-, hparsed, -, hentered⟩ := whole.2.1 d hd
  have hcall : d.statement "a.mw" = .call areaRoutine := by
    have hread : Statement.statement "a.mw" (areaTokens ++ [⟨.punct, ";", 1⟩]) =
      .ok (.call areaRoutine, []) := by decide +kernel
    exact (Prod.mk.inj (Except.ok.inj (hread.symm.trans hparsed))).1.symm
  refine ⟨rfl, hts, ⟨d, hd, hcall⟩, (hentered areaRoutine hcall).2, fun h => ?_⟩
  have reported : ¬ (promotedLedger.feedAll "" "a.mw" (areaTokens.dropLast ++ [⟨.punct, ";", 1⟩])
      ).2.notices.filter Notice.isBadStatement = [] := by decide +kernel
  exact reported (cut.1.2 h)

end Ledger

end MexBridge
