import MexBridge.Gateway.File
import MexBridge.Proofs.Ledger.Accepted
import MexBridge.Proofs.Statement.Retyping

/-!
# Integer types widened by a promotion, or by hand

Where all integer types stand for 64 bits, the same is entered as where they are written so. Of two
ledgers, one promotes and the other is given the statements with their types renamed; they stay `Twin`:
alike but for the types met. The one that promotes has met `uint` and `ulong`, too, if they are used
(`Twin.enterStatement`, `Comes.feed`).
-/

namespace MexBridge

/-- The types that are noted and stand for wider ones. No routine has them once it is promoted. -/
def retiredTypes : List String := ["uint", "ulong"]

/-- The name of a type once all integer types stand for 64 bits. -/
abbrev widened : String → String := Promotion.wide.rename

theorem widened_notMem_retired (n : String) : widened n ∉ retiredTypes := by
  have hfixed : ∀ t ∈ retiredTypes, widened t ≠ t := by decide
  exact fun h => hfixed _ h (rename_rename .wide n)

theorem widened_of_noted {n : String} (h : n ∈ notedTypes) (hn : n ∉ retiredTypes) : widened n = n := by
  simp only [notedTypes, List.mem_cons, List.not_mem_nil, or_false] at h
  rcases h with rfl | rfl | rfl | rfl | rfl | rfl | rfl | rfl
  all_goals first | rfl | exact absurd (by decide) hn

namespace Usage

variable {u u' : Usage} {n name : String} {names : List String}

/-- Where a type stands for another one, both are noted. -/
theorem mem_note_wide :
    n ∈ u.note .wide name ↔ n ∈ u ∨ n ∈ notedTypes ∧ (n = name ∨ n = widened name) := by
  have himplied : Promotion.wide.implied name = some (widened name) ∨
      Promotion.wide.implied name = none ∧ widened name = name := by
    unfold Promotion.implied widened Promotion.rename
    split <;> simp_all
  unfold note
  rcases himplied with h | ⟨h, hsame⟩
  · rw [h]
    simp only [mem_mark]
    grind
  · rw [h, hsame]
    simp only [mem_mark]
    grind

theorem mem_noteAll_wide : n ∈ u.noteAll .wide names ↔
    n ∈ u ∨ n ∈ notedTypes ∧ ∃ name ∈ names, n = name ∨ n = widened name := by
  induction names generalizing u with
  | nil => simp [noteAll]
  | cons name names ih =>
    change n ∈ (u.note .wide name).noteAll .wide names ↔ _
    rw [ih, mem_note_wide]
    simp only [List.exists_mem_cons_iff]
    grind

theorem mem_noteAll_native :
    n ∈ u.noteAll .native names ↔ n ∈ u ∨ n ∈ notedTypes ∧ n ∈ names := by
  induction names generalizing u with
  | nil => simp [noteAll]
  | cons name names ih =>
    change n ∈ (u.mark name).noteAll .native names ↔ _
    rw [ih, mem_mark, List.mem_cons]
    grind

end Usage

namespace Context

/-- Two contexts, of which the first one promotes. They know the same but for the retired types, which
the first one has met if they are among `met`. -/
structure Twin (met : List String) (c c' : Context) : Prop where
  wide : c.settings.promotion = .wide
  settings : c'.settings = { c.settings with promotion := .native }
  types : c'.types = c.types
  usage : ∀ n, n ∈ c'.usage ↔ n ∈ c.usage ∧ n ∉ retiredTypes
  retired : ∀ n ∈ retiredTypes, n ∈ c.usage ↔ n ∈ met
  known : ∀ n ∈ retiredTypes, n ∈ c.types.scalars

variable {met names : List String} {c c' : Context}

/-- Types are met by the first one, and their new names by the second. -/
theorem Twin.note (h : Twin met c c') (names : List String) :
    Twin (met ++ names) (c.note names) (c'.note (names.map widened)) := by
  have hnative : c'.settings.promotion = .native := by rw [h.settings]
  refine ⟨h.wide, h.settings, h.types, fun n => ?_, fun n hn => ?_, h.known⟩
  · unfold Context.note
    rw [h.wide, hnative, Usage.mem_noteAll_native, Usage.mem_noteAll_wide, h.usage]
    constructor
    · rintro (⟨hold, hn⟩ | ⟨hnoted, hnew⟩)
      · exact ⟨Or.inl hold, hn⟩
      · obtain ⟨name, hname, rfl⟩ := List.mem_map.1 hnew
        exact ⟨Or.inr ⟨hnoted, name, hname, Or.inr rfl⟩, widened_notMem_retired name⟩
    · rintro ⟨hold | ⟨hnoted, name, hname, rfl | rfl⟩, hn⟩
      · exact Or.inl ⟨hold, hn⟩
      · exact Or.inr ⟨hnoted, List.mem_map.2 ⟨n, hname, widened_of_noted hnoted hn⟩⟩
      · exact Or.inr ⟨hnoted, List.mem_map_of_mem hname⟩
  · have hnoted : n ∈ notedTypes := by
      revert n
      decide
    unfold Context.note
    rw [h.wide, Usage.mem_noteAll_wide, h.retired n hn, List.mem_append]
    constructor
    · rintro (hmet | ⟨-, name, hname, rfl | rfl⟩)
      · exact Or.inl hmet
      · exact Or.inr hname
      · exact absurd hn (widened_notMem_retired name)
    · rintro (hmet | hname)
      · exact Or.inl hmet
      · exact Or.inr ⟨hnoted, n, hname, Or.inl rfl⟩

/-- Types that are renamed already are the same for both. -/
theorem Twin.note_widened (h : Twin met c c') (hnames : ∀ n ∈ names, widened n = n) :
    Twin met (c.note names) (c'.note names) := by
  have hsame : names.map widened = names := by
    conv_rhs => rw [← List.map_id names]
    exact List.map_congr_left hnames
  have hnote := h.note names
  rw [hsame] at hnote
  refine { hnote with retired := fun n hn => (hnote.retired n hn).trans ?_ }
  rw [List.mem_append]
  refine ⟨fun hmem => hmem.elim id fun hname => ?_, Or.inl⟩
  exact absurd hn (hnames n hname ▸ widened_notMem_retired n)

end Context

namespace Routine

variable {r : Routine} {t : TypeTable} {n : String}

theorem mem_baseTypes : n ∈ r.baseTypes ↔ ∃ v ∈ r.results ++ r.args, v.type = n := List.mem_map

theorem baseTypes_retype (f : String → String) (r : Routine) :
    (r.retype f).baseTypes = r.baseTypes.map f := by
  unfold baseTypes retype
  rw [← List.map_append, List.map_map, List.map_map]
  rfl

theorem signature_widened (h : ∀ n ∈ r.baseTypes, widened n = n) :
    r.signature .native = r.signature .wide := by
  have hlist : ∀ vs : List Variable, (∀ v ∈ vs, v ∈ r.results ++ r.args) →
      signatureList .native vs = signatureList .wide vs := by
    intro vs hvs
    unfold signatureList
    refine congrArg _ (List.map_congr_left fun v hv => ?_)
    unfold Variable.signature
    rw [show Promotion.wide.rename v.type = v.type from h _ (mem_baseTypes.2 ⟨v, hvs v hv, rfl⟩)]
    rfl
  unfold signature
  rw [hlist r.results fun v hv => List.mem_append_left _ hv,
    hlist r.args fun v hv => List.mem_append_right _ hv]

end Routine

namespace Ledger

/-- Two ledgers with the same routines, of which the first one promotes. -/
structure Twin (met : List String) (l l' : Ledger) : Prop where
  context : l.context.Twin met l'.context
  groups : l'.groups = l.groups
  count : l'.count = l.count
  typeErrors : l'.typeErrors = l.typeErrors
  errors : l'.errors = l.errors
  promoted : ∀ r ∈ l.routines, ∀ n ∈ r.baseTypes, widened n = n

variable {mex file : String} {met : List String} {l l' : Ledger}

/-- The same routine is entered in both. -/
theorem Twin.enterRoutine (h : Twin met l l') {r : Routine} (hr : ∀ n ∈ r.baseTypes, widened n = n) :
    Twin met (l.enterRoutine mex r).1 (l'.enterRoutine mex r).1 ∧
      (l'.enterRoutine mex r).2 = (l.enterRoutine mex r).2 := by
  have hnative : l'.context.settings.promotion = .native := by rw [h.context.settings]
  unfold Ledger.enterRoutine
  rw [h.count, h.context.types]
  generalize hc : { r with id := l.count + 1 }.check l.context.types = c
  have hfixed : ∀ n ∈ c.value.baseTypes, widened n = n := by
    intro n hn
    rw [← hc] at hn
    rw [Routine.baseTypes_check] at hn
    exact hr n hn
  refine ⟨⟨h.context.note_widened hfixed, ?_, ?_, ?_, h.errors, ?_⟩, rfl⟩
  · change fileUnder (c.value.signature l'.context.settings.promotion) c.value l'.groups
      = fileUnder (c.value.signature l.context.settings.promotion) c.value l.groups
    rw [hnative, h.context.wide, Routine.signature_widened hfixed, h.groups]
  · exact congrArg (· + 1) h.count
  · exact congrArg (· + c.errors) h.typeErrors
  · intro s hs
    have hperm : s ∈ c.value :: l.routines := (perm_members_fileUnder ..).mem_iff.1 hs
    rcases List.mem_cons.1 hperm with rfl | hs
    · exact hfixed
    · exact h.promoted s hs

/-- **A statement is entered in one ledger, and the statement with its types renamed in the other.** -/
theorem Twin.enterStatement (h : Twin met l l') (s : Statement) :
    Twin (met ++ s.baseTypes) (l.enterStatement mex s).1 (l'.enterStatement mex (s.retype widened)).1 ∧
      (l'.enterStatement mex (s.retype widened)).2 = (l.enterStatement mex s).2 := by
  cases s with
  | typedef space name =>
    rw [show (Statement.typedef space name).baseTypes = [] from rfl, List.append_nil]
    change Twin _ (Ledger.enterStatement ..).1 (l'.enterStatement mex (.typedef space name)).1 ∧
      (l'.enterStatement mex (.typedef space name)).2 = _
    unfold Ledger.enterStatement
    dsimp only
    cases TypeSpace.ofName? space with
    | none => exact ⟨{ h with typeErrors := congrArg (· + 1) h.typeErrors }, rfl⟩
    | some sp =>
      refine ⟨{ h with context := { h.context with types := ?_, known := fun n hn => ?_ } }, rfl⟩
      · exact congrArg (TypeTable.add · name sp) h.context.types
      · exact l.context.types.ofField_add name sp .real (h.context.known n hn)
  | inherits child parents =>
    rw [show (Statement.inherits child parents).baseTypes = [] from rfl, List.append_nil]
    refine ⟨{ h with context := { h.context with types := ?_, known := h.context.known } }, rfl⟩
    exact congrArg (TypeTable.inherits · child parents) h.context.types
  | call r =>
    have hnative : l'.context.settings.promotion = .native := by rw [h.context.settings]
    have hnoted : Twin (met ++ r.baseTypes) (l.note r.baseTypes)
        (l'.note (r.retype widened).baseTypes) := by
      rw [Routine.baseTypes_retype]
      exact { h with context := h.context.note r.baseTypes }
    have hpromoted : ∀ n ∈ (r.retype widened).baseTypes, widened n = n := by
      intro n hn
      rw [Routine.baseTypes_retype] at hn
      obtain ⟨m, -, rfl⟩ := List.mem_map.1 hn
      exact rename_rename .wide m
    -- Both enter the same routine: one promotes its types, the other gets them promoted.
    have hleft : promote l.context.settings.promotion r = r.retype widened := by
      rw [h.context.wide]
      rfl
    have hright : promote l'.context.settings.promotion (r.retype widened) = r.retype widened := by
      rw [hnative]
      simp [promote, Promotion.rename]
    change Twin _ ((l.note r.baseTypes).enterRoutine mex (promote l.context.settings.promotion r)).1
      ((l'.note (r.retype widened).baseTypes).enterRoutine mex
        (promote l'.context.settings.promotion (r.retype widened))).1 ∧
      ((l'.note (r.retype widened).baseTypes).enterRoutine mex
        (promote l'.context.settings.promotion (r.retype widened))).2
      = ((l.note r.baseTypes).enterRoutine mex (promote l.context.settings.promotion r)).2
    rw [hleft, hright]
    exact hnoted.enterRoutine hpromoted

/-! ## Streams of tokens -/

/-- Twin ledgers that have met the types in `met`, with tokens to come that tell of the types in
`types`. -/
structure Comes (met types : List String) (ts us : List Token) (l l' : Ledger) : Prop
    extends Twin met l l' where
  inner : ∀ t ∈ l.pending, Inner t
  length : l.pending.length = l'.pending.length
  stream : Retyped widened (l.pending ++ ts) (l'.pending ++ us) types

variable {types : List String} {t u : Token} {ts us : List Token}

theorem Twin.pending (h : Twin met l l') (ps qs : List Token) :
    Twin met { l with pending := ps } { l' with pending := qs } :=
  { h with }

theorem dropPending_of_nil (hl : l.pending = []) (line : Int) (atEnd : Bool) :
    l.dropPending file line atEnd = (l, {}) := by
  unfold dropPending
  rw [hl]
  rfl

/-- Between statements another line and the end of a file are nothing. -/
theorem feed_passed (ht : t.kind = .otherLine ∨ t.kind = .eof) (hl : l.pending = []) :
    l.feed mex file t = (l, {}) := by
  unfold Ledger.feed
  rcases ht with ht | ht <;> rw [ht] <;> exact dropPending_of_nil hl ..

/-- **One token is fed to each of them.** -/
theorem Comes.feed (h : Comes met types (t :: ts) (u :: us) l l') (mex file : String) :
    ∃ met' types', met' ++ types' = met ++ types ∧
    Comes met' types' ts us (l.feed mex file t).1 (l'.feed mex file u).1 ∧
    (l'.feed mex file u).2 = (l.feed mex file t).2 := by
  have hlike : t.Like u := by
    have hdrop := List.forall₂_drop l.pending.length h.stream.like
    rw [List.drop_left, h.length, List.drop_left] at hdrop
    cases hdrop with
    | cons hlike _ => exact hlike
  by_cases hinner : Inner t
  · rw [feed_inner hinner, feed_inner (hlike.inner.2 hinner)]
    refine ⟨met, types, rfl, { h.toTwin.pending _ _ with inner := ?_, length := ?_, stream := ?_ }, rfl⟩
    · intro p hp
      rcases List.mem_append.1 hp with hp | hp
      · exact h.inner p hp
      · exact List.mem_singleton.1 hp ▸ hinner
    · simp [h.length]
    · simpa using h.stream
  by_cases hstop : t.isPunct ";" = true
  · obtain ⟨d, rest, htokens, htokens', rfl, hrest⟩ := h.stream.at_stop h.inner h.length hstop
    rw [feed_stop hstop, feed_stop ((hlike.isPunct ";").trans hstop), ← htokens, ← htokens']
    unfold enterTokens
    rw [Grammar.parse_tokens, Grammar.parse_retype, Grammar.baseTypes_statement "" file]
    obtain ⟨htwin, hreply⟩ := (h.toTwin.pending [] []).enterStatement (d.statement file)
    refine ⟨met ++ (d.statement file).baseTypes, rest, List.append_assoc .., ?_, hreply⟩
    refine { htwin with inner := ?_, length := ?_, stream := ?_ }
    all_goals simp only [pending_enterStatement]
    · simp
    · exact hrest
  · have hpassed : t.kind = .otherLine ∨ t.kind = .eof := by
      by_contra hkind
      rw [not_or] at hkind
      exact hinner ⟨hkind.1, hkind.2, by simpa using hstop⟩
    obtain ⟨hps, hqs, rfl, hrest⟩ := h.stream.at_passed h.inner h.length hpassed
    rw [feed_passed hpassed hps, feed_passed hpassed hqs]
    refine ⟨met, types, rfl, { h with stream := ?_ }, rfl⟩
    rw [hps, hqs]
    exact hrest

/-- A file ends for both of them. -/
theorem Comes.finishFile (h : Comes met types (Token.finish :: ts) (Token.finish :: us) l l')
    (file : String) (line : Int) :
    Comes met types ts us (l.finishFile file line).1 (l'.finishFile file line).1 ∧
      (l'.finishFile file line).2 = (l.finishFile file line).2 := by
  obtain ⟨hps, hqs, -, hrest⟩ := h.stream.at_passed h.inner h.length (Or.inr rfl)
  have hcomes : Comes met types ts us l l' := by
    refine { h with stream := ?_ }
    rw [hps, hqs]
    exact hrest
  unfold Ledger.finishFile
  rw [dropPending_of_nil hps, dropPending_of_nil hqs]
  dsimp only
  rw [h.typeErrors]
  split
  · exact ⟨hcomes, rfl⟩
  · refine ⟨{ hcomes with typeErrors := rfl, errors := ?_ }, rfl⟩
    exact congrArg (· + l.typeErrors) h.errors

/-- When all tokens have come, all types have been met. -/
theorem Comes.done (h : Comes met types [] [] l l') : types = [] := by
  have hstream := h.stream
  have hinner := h.inner
  rw [List.append_nil, List.append_nil] at hstream
  generalize l.pending = ps at hstream hinner
  generalize l'.pending = qs at hstream
  cases hstream with
  | unfinished => rfl
  | passed kind => exact absurd (hinner _ (by simp)) (Retyped.not_inner_passed kind)
  | statement d =>
    obtain ⟨ds, stop, htokens, -⟩ := d.tokens_eq
    exact absurd (hinner stop.1 (by simp [htokens])) (Retyped.not_inner_stop stop.2)

theorem comes_start {s : Settings} (hs : s.promotion = .wide) (h : Retyped widened ts us types) :
    Comes [] types ts us { context := .ofSettings s }
      { context := .ofSettings { s with promotion := .native } } where
  context :=
    { wide := hs, settings := rfl, types := rfl, usage := by simp [Context.ofSettings]
      retired := by simp [Context.ofSettings]
      known := by
        unfold Context.ofSettings
        dsimp only
        split <;> decide }
  groups := rfl
  count := rfl
  typeErrors := rfl
  errors := rfl
  promoted := by simp [routines]
  inner := by simp
  length := rfl
  stream := h

end Ledger

/-! ## The gateway file -/

namespace Gateway

/-- The types that get copiers for real numbers. -/
def copiedTypes (c : Context) : List String :=
  (TypeTable.sorted c.types.scalars).filter (!c.usage.lacks ·)

variable {met : List String} {c c' : Context} {gs : List Group}

/-- Only the first of two twins has copiers for the retired types, and for those it has met. -/
theorem copiedTypes_twin (h : c.Twin met c') :
    copiedTypes c' = (copiedTypes c).filter (· ∉ retiredTypes) ∧
      ∀ n ∈ retiredTypes, n ∈ copiedTypes c ↔ n ∈ met := by
  have hnoted : ∀ n ∈ retiredTypes, n ∈ notedTypes := by decide
  constructor
  · unfold copiedTypes
    rw [h.types, List.filter_filter]
    refine List.filter_congr fun n _ => ?_
    by_cases hn : n ∈ retiredTypes
    · simp [Usage.lacks, h.usage, hn, hnoted n hn]
    · simp [Usage.lacks, h.usage, hn]
  · intro n hn
    unfold copiedTypes TypeTable.sorted
    rw [List.mem_filter, List.mem_mergeSort, ← h.retired n hn]
    simp [Usage.lacks, hnoted n hn, h.known n hn]

theorem stub_twin (h : c.Twin met c') {g : Group} (hg : ∀ n ∈ g.first.baseTypes, widened n = n) :
    g.stub c' = g.stub c := by
  have hsigned : g.first.signed c'.settings.promotion = g.first.signed c.settings.promotion := by
    rw [h.settings, h.wide]
    unfold Routine.signed
    rw [Routine.signature_widened hg]
  have hmain : g.first.mainStatements c' = g.first.mainStatements c := by
    unfold Routine.mainStatements Routine.callStatements
    rw [h.types, h.settings]
  unfold Group.stub
  rw [hsigned, hmain, h.types]

theorem stubSection_twin (h : c.Twin met c')
    (hgs : ∀ g ∈ gs, ∀ n ∈ g.first.baseTypes, widened n = n) :
    stubSection c' gs = stubSection c gs := by
  have hstubs : gs.mapM (·.stub c') = gs.mapM (·.stub c) := by
    induction gs with
    | nil => rfl
    | cons g gs ih =>
      rw [List.mapM_cons, List.mapM_cons, stub_twin h (hgs g (by simp)),
        ih fun g hg => hgs g (by simp [hg])]
  unfold stubSection
  rw [hstubs]

theorem needsFixedWidths_twin (h : c.Twin met c') :
    needsFixedWidths c'.usage = needsFixedWidths c.usage := by
  simp [needsFixedWidths, h.usage, retiredTypes]

/-- What follows the copiers for real numbers. -/
def afterCopiers (c : Context) (gs : List Group) (stubs : String) : String :=
  String.join ((TypeTable.sorted c.types.cscalars).map (complexCopiers "float"))
    ++ String.join ((TypeTable.sorted c.types.zscalars).map (complexCopiers "double")) ++ "\n"
    ++ castSection c.types
    ++ (if hasFortran gs then fortranNames gs ++ fortranPrototypes gs else "")
    ++ stubs ++ tableSection gs ++ entryHead ++ "\n"
    ++ (if c.settings.gpu then "    mxInitGPU();\n" else "")
    ++ "\n" ++ entryId ++ caseSection gs ++ "\x7d\n\n"

theorem body_eq (c : Context) (gs : List Group) : body c gs = (stubSection c gs).map fun stubs =>
    (if needsFixedWidths c.usage then "#include <stdint.h>\n\n" else "")
      ++ "\n\n\n/* Array copier definitions */\n" ++ String.join ((copiedTypes c).map copiers)
      ++ afterCopiers c gs stubs := by
  unfold body
  cases stubSection c gs with
  | error f => rfl
  | ok stubs =>
    refine congrArg Except.ok ?_
    unfold copierSection afterCopiers copiedTypes
    generalize entryHead = head, entryId = id
    simp only [String.append_assoc]

/-- The second text is the first one without the copiers of the retired types. The first one has them
for those that are met, or it has no copiers. -/
def Trimmed (met : List String) (text text' : String) : Prop :=
  ∃ before names after, text = before ++ String.join (names.map copiers) ++ after ∧
    text' = before ++ String.join ((names.filter (· ∉ retiredTypes)).map copiers) ++ after ∧
    (names = [] ∨ ∀ n ∈ retiredTypes, n ∈ names ↔ n ∈ met)

theorem Trimmed.refl (met : List String) (text : String) : Trimmed met text text :=
  ⟨text, [], "", by simp, by simp, Or.inl rfl⟩

theorem Trimmed.append_left {text text' : String} (h : Trimmed met text text') (s : String) :
    Trimmed met (s ++ text) (s ++ text') := by
  obtain ⟨before, names, after, rfl, rfl, hnames⟩ := h
  exact ⟨s ++ before, names, after, by simp only [String.append_assoc],
    by simp only [String.append_assoc], hnames⟩

/-- **The gateway file is the same but for the copiers of the retired types.** -/
theorem body_twin (h : c.Twin met c') (hgs : ∀ g ∈ gs, ∀ n ∈ g.first.baseTypes, widened n = n) :
    (∃ f, body c gs = .error f ∧ body c' gs = .error f) ∨
      ∃ text text', body c gs = .ok text ∧ body c' gs = .ok text' ∧ Trimmed met text text' := by
  have hafter : afterCopiers c' gs = afterCopiers c gs := by
    funext stubs
    unfold afterCopiers
    rw [h.types, h.settings]
  obtain ⟨hcopied, hmet⟩ := copiedTypes_twin h
  rw [body_eq, body_eq, stubSection_twin h hgs, needsFixedWidths_twin h, hafter, hcopied]
  cases stubSection c gs with
  | error f => exact Or.inl ⟨f, rfl, rfl⟩
  | ok stubs => exact Or.inr ⟨_, _, rfl, rfl, _, _, _, rfl, rfl, Or.inr hmet⟩

end Gateway

end MexBridge
