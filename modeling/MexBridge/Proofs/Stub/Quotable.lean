import MexBridge.Proofs.Ledger.Names
import MexBridge.Proofs.Stub.Quotation

/-!
# Names that can be quoted

Names are put into literals and comments as they are. A stub shows of its routine where it is
declared, the declaration in its comment, and constants in the signature; an argument is named in
the remark of its local and in the error of a check. `Group.Quotable` says that no name on the way
holds what would end or change the literal or comment around it, and `Group.safe_iff` that this is
all there is to ask: types, dimensions, receivers and results have names that are words.
-/

namespace MexBridge

open CText

theorem notMem_of_isWord {s : String} (h : IsWord s) {x : Char} (hx : isNameChar x = false) :
    x ∉ s.toList := fun hc => h.ne hx x hc rfl

/-! ## Declarations -/

namespace Variable

variable {v : Variable}

/-- Marks and dimensions hold no `/`. -/
theorem slash_qualifier (h : v.Written IsName) (hdims : ∀ d ∈ v.dims, IsWord d.text)
    {q : Qualifier} (hq : v.qualifier = some q) : '/' ∉ q.text.toList := by
  have htext : ∀ c ∈ (", ".intercalate (q.dims.map (·.text))).toList, c ≠ '/' := by
    refine (forall_intercalate (P := (· ≠ '/')) (by simp)).2 ?_
    intro x hx c hc
    obtain ⟨d, hd, rfl⟩ := List.mem_map.1 hx
    exact (hdims d (by simpa [dims, hq] using hd)).ne (by decide) c hc
  intro hc
  rcases h.qualifier q hq with hm | hm | ⟨hm | hm, -⟩
  · simp only [Qualifier.text, hm, String.toList_append, List.mem_append] at hc
    rcases hc with (hc | hc) | hc
    · exact absurd hc (by decide)
    · exact htext _ hc rfl
    · exact absurd hc (by decide)
  all_goals simp [Qualifier.text, hm, Mark.name] at hc

/-- Of what a declaration shows of a variable, only the name can hold a `*/`. -/
theorem sealed_text (h : v.Written IsName) (hdims : ∀ d ∈ v.dims, IsWord d.text) :
    Sealed v.text.toList ↔ Sealed v.name.toList := by
  have htype := notMem_of_isWord h.type.chars (x := '/') (by decide)
  have hspace {as bs : List Char} (has : '/' ∉ as) :
      Sealed (as ++ " ".toList ++ bs) ↔ Sealed bs := by
    rw [List.append_assoc, sealed_around (by decide) (by simp)]
    exact and_iff_right (sealed_of_notMem has)
  cases hq : v.qualifier with
  | none =>
    simp only [text, hq, String.toList_append]
    exact hspace (by simp [htype])
  | some q =>
    have hmarks := slash_qualifier h hdims hq
    simp only [text, hq, String.toList_append]
    exact hspace (by simp [htype, hmarks])

theorem sealed_argText (h : v.Written IsName) (hdims : ∀ d ∈ v.dims, IsWord d.text) :
    Sealed v.argText.toList ↔ Sealed v.name.toList := by
  rw [argText, String.toList_append, sealed_append_right, sealed_text h hdims]
  cases v.device <;> cases v.direction <;> simp

/-- A signature shows only constants. -/
theorem plain_signature (h : v.Written IsName) (p : Promotion) :
    (∀ c ∈ (v.signature p).toList, CText.isPlain c = true)
      ↔ (v.kind = .const → Verbatim v.name) := by
  -- All parts but a shown constant are names or marks of a signature.
  have htype : ∀ c ∈ (p.rename v.type).toList, CText.isPlain c = true :=
    fun c hc => isPlain_of_isNameChar ((h.type.rename p).chars c hc)
  have hdevice : ∀ c ∈ v.deviceMark.toList, CText.isPlain c = true := by
    unfold deviceMark
    split <;> simp [CText.isPlain]
  have hdirection : ∀ c ∈ v.directionMark.toList, CText.isPlain c = true := by
    unfold directionMark
    split <;> simp [CText.isPlain]
  have hsymbol : ∀ c ∈ v.symbol, CText.isPlain c = true := by
    cases h.symbol with
    | none _ text => simp [text]
    | pointer _ _ _ text => simp [text, CText.isPlain]
    | reference _ _ _ text => simp [text, CText.isPlain]
    | array q _ _ text =>
      rw [text]
      intro c hc
      simp only [List.mem_cons, List.mem_append, List.mem_replicate, List.not_mem_nil,
        or_false] at hc
      rcases hc with rfl | ⟨-, rfl⟩ | rfl <;> rfl
  have href : ∀ c ∈ if v.isRef then ['r'] else [], CText.isPlain c = true := by
    split <;> simp [CText.isPlain]
  have hshown : (∀ c ∈ v.shownValue, CText.isPlain c = true)
      ↔ (v.kind = .const → Verbatim v.name) := by
    unfold shownValue
    split
    · rename_i hconst
      rw [List.forall_mem_cons]
      exact ⟨fun hname _ => hname.2, fun hname => ⟨rfl, hname hconst⟩⟩
    · rename_i hconst
      simp [hconst]
  rw [toList_signature]
  simp only [List.forall_mem_append, hshown]
  exact and_iff_right ⟨⟨⟨⟨hdevice, hdirection⟩, htype⟩, href⟩, hsymbol⟩

end Variable

namespace Routine

variable {r : Routine}

/-- The end of a line is in no name, so two marks are left that change a literal. -/
theorem Spelled.verbatim_name (h : r.Spelled) {v : Variable} (hv : v ∈ r.args) :
    Verbatim v.name ↔ '"' ∉ v.name.toList ∧ '\\' ∉ v.name.toList := by
  rw [verbatim_iff]
  exact ⟨fun hmarks => ⟨hmarks.1, hmarks.2.1⟩, fun hmarks => ⟨hmarks.1, hmarks.2, h.line v hv⟩⟩

theorem mem_head (h : r.WrittenCallee IsName) {c : Char} (hc : c ∈ r.head) :
    isNameChar c = true ∨ c ∈ ['-', '>', '.'] := by
  unfold head at hc
  cases hthis : r.receiver? with
  | none => exact Or.inl (h.isNameChar_name c (by simpa [hthis] using hc))
  | some this =>
    obtain ⟨hreceiver, howner⟩ := h.isNameChar_receiver hthis
    simp only [hthis, List.mem_append, List.mem_cons, List.not_mem_nil, or_false] at hc
    rcases hc with (hc | rfl | rfl | hc | rfl) | hc
    · exact Or.inl (hreceiver c hc)
    · exact Or.inr (by decide)
    · exact Or.inr (by decide)
    · exact Or.inl (howner c hc)
    · exact Or.inr (by decide)
    · exact Or.inl (h.isNameChar_name c hc)

theorem star_head (h : r.WrittenCallee IsName) : '*' ∉ r.head := by
  intro hc
  rcases mem_head h hc with hc | hc <;> exact absurd hc (by decide)

theorem plain_head (h : r.WrittenCallee IsName) : ∀ c ∈ r.head, isPlain c = true := by
  intro c hc
  rcases mem_head h hc with hc | hc
  · exact isPlain_of_isNameChar hc
  · have hmarks : ∀ c ∈ ['-', '>', '.'], isPlain c = true := by simp [isPlain]
    exact hmarks c hc

/-- **The signature can be quoted exactly if its constants can.** -/
theorem verbatim_signature (h : r.Written IsName) (hresults : ∀ v ∈ r.results, v.kind ≠ .const)
    (p : Promotion) :
    Verbatim (r.signature p) ↔ ∀ v ∈ r.args, v.kind = .const → Verbatim v.name := by
  have hlist (vs : List Variable) :
      (∀ c ∈ (signatureList p vs).toList, isPlain c = true)
        ↔ ∀ v ∈ vs, ∀ c ∈ (v.signature p).toList, isPlain c = true := by
    unfold signatureList
    rw [forall_intercalate (by simp [isPlain]), List.forall_mem_map]
  have hshown : ∀ c ∈ if r.results.isEmpty then [] else (signatureList p r.results).toList
      ++ [' ', '=', ' '], isPlain c = true := by
    split
    · simp
    · refine List.forall_mem_append.2 ⟨(hlist _).2 fun v hv => ?_, by simp [isPlain]⟩
      refine (Variable.plain_signature (h.results v hv).toWritten p).2 fun e => ?_
      exact absurd e (hresults v hv)
  rw [Verbatim, toList_signature, List.forall_mem_append, List.forall_mem_cons,
    List.forall_mem_append, List.forall_mem_append, hlist]
  have hargs : (∀ v ∈ r.args, ∀ c ∈ (v.signature p).toList, isPlain c = true)
      ↔ ∀ v ∈ r.args, v.kind = .const → Verbatim v.name :=
    forall₂_congr fun v hv => Variable.plain_signature (h.args v hv) p
  rw [hargs, and_iff_right ⟨hshown, plain_head h.callee⟩]
  exact ⟨fun hparts => hparts.2.1, fun hparts => ⟨rfl, hparts, by simp [isPlain]⟩⟩

theorem toList_text (r : Routine) :
    r.text.toList = (r.results.head?.elim [] fun v => v.text.toList ++ " = ".toList)
      ++ (r.head ++ ("(".toList ++ ((", ".intercalate (r.args.map (·.argText))).toList
        ++ (");\n".toList ++ [])))) := by
  unfold text head
  cases r.receiver? <;> cases r.results <;> simp

/-- **The declaration can be put into a comment exactly if the names of its arguments can.** -/
theorem sealed_text (h : r.Written IsName) (hs : r.Spelled) :
    Sealed r.text.toList ↔ ∀ v ∈ r.args, Sealed v.name.toList := by
  have hargs : (∀ x ∈ r.args.map (·.argText), Sealed x.toList)
      ↔ ∀ v ∈ r.args, Sealed v.name.toList := by
    rw [List.forall_mem_map]
    exact forall₂_congr fun v hv =>
      Variable.sealed_argText (h.args v hv) (hs.dims v (List.mem_append_right _ hv))
  have hcall : Sealed (r.head ++ ("(".toList ++ ((", ".intercalate (r.args.map (·.argText))).toList
      ++ (");\n".toList ++ [])))) ↔ ∀ v ∈ r.args, Sealed v.name.toList := by
    rw [sealed_append_right (star_head h.callee), sealed_append_right (by decide),
      sealed_around (by decide) (by simp), sealed_intercalate, hargs]
    exact and_iff_left sealed_nil
  rw [toList_text]
  cases hr : r.results with
  | nil => exact hcall
  | cons v vs =>
    have hv : v ∈ r.results := by simp [hr]
    have hname : Sealed v.text.toList := by
      rw [Variable.sealed_text (h.results v hv).toWritten (hs.dims v (List.mem_append_left _ hv))]
      exact sealed_of_notMem (notMem_of_isWord (hs.results v hv) (by decide))
    rw [List.head?_cons, Option.elim_some, List.append_assoc, sealed_around (by decide) (by simp),
      hcall]
    exact and_iff_right hname

end Routine

/-! ## Statements -/

namespace Stmt

variable {s : Stmt}

theorem safe_remark (l : Local) (text : String) :
    (Quote.comment (remark l text)).Safe ↔ Sealed text.toList := by
  have hblanks {bs : List Char} (hne : bs ≠ []) (hbs : ∀ c ∈ bs, c ≠ '*' ∧ c ≠ '/') :
      Sealed (" ".toList ++ (text.toList ++ (List.replicate (10 - text.length) ' ' ++ bs)))
        ↔ Sealed text.toList := by
    have hall : ∀ c ∈ List.replicate (10 - text.length) ' ' ++ bs, c ≠ '*' ∧ c ≠ '/' := by
      refine List.forall_mem_append.2 ⟨fun c hc => ?_, hbs⟩
      rw [List.eq_of_mem_replicate hc]
      decide
    rw [sealed_append_right (by decide), ← List.append_nil (_ ++ bs),
      sealed_around (by simp [hne]) hall]
    exact and_iff_left sealed_nil
  cases l with
  | gpuDims k =>
    simp only [Quote.Safe, remark, Text.padRight, String.toList_append, String.toList_ofList,
      List.append_assoc]
    exact hblanks (by decide) (by simp)
  | _ =>
    simp only [Quote.Safe, remark, Text.padRight, String.toList_append, String.toList_ofList,
      List.append_assoc]
    exact hblanks (by decide) (by simp)

/-- Only declarations and checks quote the names of variables. -/
theorem safe_of_stage (hnamed : ∀ n ∈ s.named, IsWord n)
    (hstage : s.stage ∉ [some .declare, some .checkDim, some .check]) :
    ∀ q ∈ s.quotes, q.Safe := by
  have hword {n : String} (hn : n ∈ s.named) : Verbatim n := verbatim_of_isWord (hnamed n hn)
  have haround {as bs : List Char} {n : String} (ha : as.all isPlain = true) (hn : Verbatim n)
      (hb : bs.all isPlain = true) : Verbatim (String.ofList as ++ n ++ String.ofList bs) :=
    verbatim_append.2 ⟨verbatim_append.2 ⟨verbatim_ofList ha, hn⟩, verbatim_ofList hb⟩
  have hbefore {bs : List Char} {n : String} (hn : Verbatim n) (hb : bs.all isPlain = true) :
      Verbatim (n ++ String.ofList bs) := verbatim_append.2 ⟨hn, verbatim_ofList hb⟩
  cases s with
  | declare type l zeroed text => exact absurd (List.mem_cons_self ..) hstage
  | checkMatrix => simp [stage] at hstage
  | checkLength => simp [stage] at hstage
  | checkNonNull => simp [stage] at hstage
  | getObject k type source =>
    cases source with
    | plain => exact List.forall_mem_singleton.2 (hbefore (hword (List.mem_singleton_self _)) rfl)
    | _ => simp [quotes]
  | getArray k type source =>
    have hclass := verbatim_of_isWord (Numeric.isWord_ofType type).1
    cases source with
    | copy => simp [quotes]
    | _ => exact List.forall_mem_singleton.2 (haround rfl hclass rfl)
  | getNumber k type =>
    have hclass := verbatim_of_isWord (Numeric.isWord_ofType type).2.1
    exact List.forall_mem_singleton.2 (haround rfl hclass rfl)
  | getComplex k type =>
    have hclass := verbatim_of_isWord (Numeric.isWord_ofType type).2.1
    exact List.forall_mem_singleton.2 (haround rfl hclass rfl)
  | getGpuArray k type => exact List.forall_mem_singleton.2 (verbatim_ofList rfl)
  | getSizedString k dims => exact List.forall_mem_singleton.2 (verbatim_ofList rfl)
  | checkReceiver => exact List.forall_mem_singleton.2 (verbatim_ofList rfl)
  | endTry name =>
    refine List.forall_mem_singleton.2 (verbatim_append.2 ⟨verbatim_ofList rfl, ?_⟩)
    exact hword (List.mem_singleton_self _)
  | setPointer k type =>
    exact List.forall_mem_singleton.2 (hbefore (hword (List.mem_singleton_self _)) rfl)
  | _ => simp [quotes]

end Stmt

namespace Variable

variable {v : Variable} {s : Stmt}

theorem Makes.declares {t : TypeTable} {isResult : Bool} (hs : v.Makes t isResult .declare s) :
    ∃ type l zeroed, s = .declare type l zeroed v.name := by
  cases hs <;> exact ⟨_, _, _, rfl⟩

/-- The checks of an argument, whose errors name it. -/
def checks (v : Variable) : List Stmt := v.checkDims ++ v.checkInput

theorem safe_checks (hs : s ∈ v.checks) : (∀ q ∈ s.quotes, q.Safe) ↔ Verbatim v.name := by
  have hsize : Verbatim ("Bad argument size: " ++ v.name) ↔ Verbatim v.name :=
    verbatim_append.trans (and_iff_right (verbatim_ofList rfl))
  have hnull : Verbatim ("Argument " ++ v.name ++ " cannot be null") ↔ Verbatim v.name := by
    rw [verbatim_append, verbatim_append, and_iff_right (verbatim_ofList rfl)]
    exact and_iff_left (verbatim_ofList rfl)
  rcases List.mem_append.1 hs with hs | hs
  · have hmakes : v.Makes {} false .checkDim s := makes_checkDims hs
    cases hmakes <;> exact List.forall_mem_singleton.trans hsize
  · have hmakes : v.Makes {} false .check s := makes_checkInput hs
    cases hmakes
    exact List.forall_mem_singleton.trans hnull

end Variable

namespace Routine

variable {c : Context} {r : Routine} {s : Stmt} {ss : List Stmt}

theorem safe_declarations (h : r.Written IsName) (hs : r.Spelled)
    (hnames : ∀ v ∈ r.args, Sealed v.name.toList) (hmem : s ∈ made r.declarations) :
    ∀ q ∈ s.quotes, q.Safe := by
  have hdeclare {name : String} (hname : Sealed name.toList)
      (hdecl : ∃ type l zeroed, s = .declare type l zeroed name) : ∀ q ∈ s.quotes, q.Safe := by
    obtain ⟨type, l, zeroed, rfl⟩ := hdecl
    exact List.forall_mem_singleton.2 ((Stmt.safe_remark l name).2 hname)
  have hword {name : String} (hname : IsWord name) : Sealed name.toList :=
    sealed_of_notMem (notMem_of_isWord hname (by decide))
  rcases makes_declarations {} hmem with hmem | rfl
  · cases hmem with
    | receiver hthis => exact hdeclare (hword (h.callee.isNameChar_receiver hthis).1) ⟨_, _, _, rfl⟩
    | declareDim hv hd =>
      exact hdeclare (hword (hs.dims _ (List.mem_append.2 (by simpa using hv)) _ hd)) ⟨_, _, _, rfl⟩
    | arg hv hmem => exact hdeclare (hnames _ hv) hmem.declares
    | result hv hmem => exact hdeclare (hword (hs.results _ (mem_of_keptResults hv))) hmem.declares
  · simp [Stmt.quotes]

/-- **What the statements quote is safe exactly if the names of checked arguments are,** where all
names of arguments can be put into comments. -/
theorem safe_statements (h : r.Written IsName) (hs : r.Spelled)
    (hnames : ∀ v ∈ r.args, Sealed v.name.toList) (hss : r.mainStatements c = .ok ss) :
    (∀ s ∈ ss ++ r.releases c.types, ∀ q ∈ s.quotes, q.Safe)
      ↔ ∀ v ∈ r.args, v.checks ≠ [] → Verbatim v.name := by
  have hnamed : ∀ s ∈ ss ++ r.releases c.types, ∀ n ∈ s.named, IsWord n :=
    fun s hmem => ((provided_of_written h c.types).backed hss s hmem).spelled.named
  have hparts := (mainStatements_eq_ok hss).eq
  constructor
  · intro hsafe v hv hchecks
    obtain ⟨s, hmem⟩ := List.exists_mem_of_ne_nil _ hchecks
    refine (Variable.safe_checks hmem).1 (hsafe s ?_)
    have hstage : s ∈ r.dimChecks ∨ s ∈ r.inputChecks := by
      rcases List.mem_append.1 hmem with hmem | hmem
      · exact Or.inl (List.mem_flatMap.2 ⟨v, hv, hmem⟩)
      · exact Or.inr (List.mem_flatMap.2 ⟨v, hv, hmem⟩)
    rw [hparts]
    simp only [List.mem_append]
    tauto
  · intro hverbatim s hmem
    have hchecked {v : Variable} (hv : v ∈ r.args) (hmem : s ∈ v.checks) : ∀ q ∈ s.quotes, q.Safe :=
      (Variable.safe_checks hmem).2 (hverbatim v hv (List.ne_nil_of_mem hmem))
    have hother (hstage : s.stage ∉ [some .declare, some .checkDim, some .check]) :
        ∀ q ∈ s.quotes, q.Safe := Stmt.safe_of_stage (hnamed s hmem) hstage
    have hmem := hmem
    -- One case for each part of the plan: only declarations and checks quote names.
    simp only [hparts, List.mem_append, List.mem_singleton] at hmem
    rcases hmem with (((((((((hmem | hmem) | hmem) | hmem) | hmem) | hmem) | hmem) | hmem) | hmem)
      | hmem)
    · exact safe_declarations h hs hnames hmem
    · rcases stage_dimReads hmem with e | rfl
      · exact hother (by simp [e])
      · simp [Stmt.quotes]
    · obtain ⟨v, hv, hmem⟩ := List.mem_flatMap.1 hmem
      exact hchecked hv (List.mem_append_left _ hmem)
    · exact hother (by simp [stage_inputReads hmem])
    · obtain ⟨v, hv, hmem⟩ := List.mem_flatMap.1 hmem
      exact hchecked hv (List.mem_append_right _ hmem)
    · exact hother (by simp [stage_allocations hmem])
    · exact hother (by simp [hmem, Stmt.stage])
    · exact hother (by simp [stage_callStatements hmem])
    · exact hother (by simp [stage_resultWrites hmem])
    · exact hother (by simp [stage_releases hmem])

end Routine

/-! ## Stubs -/

namespace Group

variable {c : Context} {g : Group}

/-- The routines whose places are shown: of the twins only the first. -/
def shown (g : Group) : List Routine := g.first :: g.twins.take 1

/-- What is shown of the group can be quoted as it is. -/
structure Quotable (g : Group) : Prop where
  files : ∀ r ∈ g.shown, Sealed r.file.toList ∧ Verbatim r.file
  names : ∀ v ∈ g.first.args, Sealed v.name.toList
  literals : ∀ v ∈ g.first.args, v.kind = .const ∨ v.checks ≠ [] →
    '"' ∉ v.name.toList ∧ '\\' ∉ v.name.toList

instance (g : Group) : Decidable g.Quotable :=
  decidable_of_iff ((∀ r ∈ g.shown, Sealed r.file.toList ∧ Verbatim r.file) ∧
      (∀ v ∈ g.first.args, Sealed v.name.toList) ∧
      ∀ v ∈ g.first.args, v.kind = .const ∨ v.checks ≠ [] →
        '"' ∉ v.name.toList ∧ '\\' ∉ v.name.toList)
    ⟨fun h => ⟨h.1, h.2.1, h.2.2⟩, fun h => ⟨h.files, h.names, h.literals⟩⟩

theorem toList_commentText (g : Group) :
    g.commentText.toList = " ---- ".toList ++ (g.first.file.toList ++ (": ".toList
      ++ ((toString g.first.line).toList ++ " ----\n *".toList ++ (" ".toList
        ++ (g.first.text.toList ++ (" ".toList ++ g.twins.head?.elim [] fun r =>
          "*".toList ++ (" Also at ".toList ++ (r.file.toList ++ (": ".toList
            ++ ((toString r.line).toList ++ "\n ".toList)))))))))) := by
  unfold commentText
  cases g.twins <;> simp

theorem sealed_commentText (g : Group) :
    Sealed g.commentText.toList
      ↔ (∀ r ∈ g.shown, Sealed r.file.toList) ∧ Sealed g.first.text.toList := by
  have hline (r : Routine) {as : List Char} (has : '/' ∉ as) :
      Sealed ((toString r.line).toList ++ as) := by
    refine sealed_of_notMem (List.not_mem_append (fun hc => ?_) has)
    simpa [isQuiet] using quiet_int r.line _ hc
  have htwin (r : Routine) : Sealed ("*".toList ++ (" Also at ".toList ++ (r.file.toList
      ++ (": ".toList ++ ((toString r.line).toList ++ "\n ".toList))))) ↔ Sealed r.file.toList := by
    rw [sealed_around (by decide) (by simp), sealed_around (by decide) (by simp)]
    exact ⟨fun h => h.2.1, fun h => ⟨by decide, h, hline r (by decide)⟩⟩
  rw [toList_commentText, sealed_append_right (by decide), sealed_around (by decide) (by simp),
    sealed_around (by decide) (by simp), sealed_around (by decide) (by simp),
    and_iff_right (hline g.first (by decide)), shown, List.forall_mem_cons]
  cases g.twins with
  | nil => simp [sealed_nil]
  | cons r rs =>
    rw [List.head?_cons, Option.elim_some, htwin]
    simp [and_comm, and_assoc, and_left_comm]

/-- **A stub can quote its group exactly if the group is quotable.** Only the report of the profiler
asks that names of files can stand in a literal. -/
theorem quotable_iff {p : Promotion} {main : List Stmt} (h : g.first.Accepted p)
    (hs : g.first.Spelled) (hmain : g.first.mainStatements c = .ok main) :
    g.Quotable ↔ (∀ q ∈ g.quotes c, q.Safe) ∧ ∀ r ∈ g.shown, Verbatim r.file := by
  have hsafe : (∀ q ∈ g.quotes c, q.Safe) ↔ Sealed g.commentText.toList ∧
      Verbatim (g.first.signature c.settings.promotion) ∧
      ∀ s ∈ main ++ g.first.releases c.types, ∀ q ∈ s.quotes, q.Safe := by
    rw [quotes, hmain, made_ok, List.forall_mem_cons, List.forall_mem_cons, List.forall_mem_flatMap]
    rfl
  rw [hsafe, sealed_commentText, Routine.sealed_text h.written hs,
    Routine.verbatim_signature h.written fun v hv => (h.soundResult v hv).const]
  constructor
  · rintro ⟨files, names, literals⟩
    refine ⟨⟨⟨fun r hr => (files r hr).1, names⟩, fun v hv hconst => ?_, ?_⟩,
      fun r hr => (files r hr).2⟩
    · exact (hs.verbatim_name hv).2 (literals v hv (Or.inl hconst))
    · refine (Routine.safe_statements h.written hs names hmain).2 fun v hv hchecks => ?_
      exact (hs.verbatim_name hv).2 (literals v hv (Or.inr hchecks))
  · rintro ⟨⟨⟨files, names⟩, hconst, hstatements⟩, hfiles⟩
    refine ⟨fun r hr => ⟨files r hr, hfiles r hr⟩, names, fun v hv hshown => ?_⟩
    refine (hs.verbatim_name hv).1 ?_
    rcases hshown with hkind | hchecks
    · exact hconst v hv hkind
    · exact (Routine.safe_statements h.written hs names hmain).1 hstatements v hv hchecks

end Group

end MexBridge
