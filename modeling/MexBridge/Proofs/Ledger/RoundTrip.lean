import MexBridge.Proofs.Statement.Printing

/-!
# A call on file, printed and entered again

What is printed of a routine on file is the declaration it came from, with its types promoted and
its dimensions before the name (`text_checked`). Entered again, it gives the same routine under the
next number, and is filed with it (`printed_call_is_twin`).
-/

namespace MexBridge

open Token (Single Read)

/-! ## Declared calls can be printed -/

namespace Token

theorem Read.single {ts : List Token} (hts : Read ts) {t : Token} (ht : t ∈ ts)
    (hk : t.kind = .ident ∨ t.kind = .number) : Single t.kind t.text := by
  obtain ⟨line, cs, ht⟩ := hts t ht
  refine single_of_mem ht ?_
  rcases hk with hk | hk <;> simp [hk]

theorem Read.ident {ts : List Token} (hts : Read ts) {w : Grammar.Word .ident} (hw : w.1 ∈ ts) :
    Single .ident w.text := by
  have hsingle := hts.single hw (Or.inl w.2)
  rw [w.2] at hsingle
  exact hsingle

/-- A promoted type is a name again. -/
theorem Single.rename {s : String} (h : Single .ident s) (p : Promotion) :
    Single .ident (p.rename s) := by
  have hnew : ∀ n ∈ ["long", "ulong", "int32_t", "int64_t", "uint64_t"], Single .ident n := by
    intro n hn
    have hmem : ⟨.ident, n, 0⟩ ∈ tokens 0 "long ulong int32_t int64_t uint64_t".toList := by
      revert n
      decide +kernel
    exact single_of_mem hmem (by simp)
  unfold Promotion.rename
  split
  case h_11 => exact h
  all_goals exact hnew _ (by simp)

end Token

namespace Grammar

variable {ts : List Token} {P : Token → Prop}

theorem Brackets.printable (hts : Read ts) {b : Brackets} (hb : ∀ t ∈ b.tokens, t ∈ ts)
    (href : b.qualifier.mark ≠ .arrayRef) : b.qualifier.Printable := by
  have hmark : b.qualifier.mark = .array := by
    unfold qualifier at href ⊢
    by_cases h : b.ref.isSome = true
    · simp [h] at href
    · simp [h]
  refine .array hmark fun d hd => ?_
  obtain ⟨t, ht, hk, htext⟩ := b.exists_dim hd
  refine ⟨?_, t.kind, hk, htext ▸ hts.single (hb t ht) hk⟩
  obtain ⟨e, -, rfl⟩ := List.mem_map.1 hd
  rfl

theorem Declarator.printable (hts : Read ts) {d : Declarator P} (hd : ∀ t ∈ d.tokens, t ∈ ts)
    {q : Qualifier} (hq : d.qualifier = some q) (href : q.mark ≠ .arrayRef) : q.Printable := by
  cases d with
  | before marks name =>
    cases hq
    cases marks with
    | pointer star => exact .address (Or.inl rfl) rfl
    | reference amp => exact .address (Or.inr rfl) rfl
    | array b =>
      refine Brackets.printable hts (fun t ht => hd t ?_) href
      simp [tokens, Marks.tokens, ht]
  | behind name dims =>
    cases dims with
    | none => cases hq
    | some b =>
      cases hq
      refine Brackets.printable hts (fun t ht => hd t ?_) href
      simp [tokens, ht]

theorem mark_ne_of_isRef {v : Variable} (h : v.isRef = false) {q : Qualifier}
    (hq : v.qualifier = some q) : q.mark ≠ .arrayRef := by
  intro hmark
  simp [Variable.isRef, hq, hmark] at h

theorem Argument.printable (hts : Read ts) {a : Argument} (ha : ∀ t ∈ a.tokens, t ∈ ts)
    (href : a.variable.isRef = false)
    (hclosed : a.variable.isQuoted = true → Token.isClosed a.variable.name = true) (p : Promotion) :
    Variable.Printable { a.variable with type := p.rename a.variable.type } := by
  have hdeclarator : ∀ t ∈ a.declarator.tokens, t ∈ ts :=
    fun t ht => ha t (by simp [Argument.tokens, ht])
  refine ⟨?_, ?_, ?_, fun q hq => ?_, ?_, rfl⟩
  · exact (hts.ident (w := a.type) (ha _ (by simp [Argument.tokens]))).rename p
  · cases hdevice : a.device with
    | none => simp [Argument.variable, hdevice]
    | some w =>
      rcases w.2 with hk | hk <;> simp [Argument.variable, hdevice, DeviceWord.device, hk]
  · cases hdirection : a.direction with
    | none => simp [Argument.variable, hdirection]
    | some w =>
      rcases w.2 with hk | hk | hk <;>
        simp [Argument.variable, hdirection, DirectionWord.direction, hk]
  · exact Declarator.printable hts hdeclarator hq (mark_ne_of_isRef href hq)
  · obtain ⟨t, ht, hkind, hname⟩ := a.declarator.exists_name
    have hname : a.variable.name = t.text := hname
    refine ⟨t.kind, hkind, ?_⟩
    dsimp only
    rw [hname]
    rcases hkind with hk | hk | hk
    · exact hts.single (hdeclarator t ht) (Or.inl hk)
    · exact hts.single (hdeclarator t ht) (Or.inr hk)
    · obtain ⟨line, cs, hmem⟩ := hts t (hdeclarator t ht)
      refine Token.single_of_mem hmem fun _ => ?_
      rw [← hname]
      apply hclosed
      simp [Variable.isQuoted, hname, Token.head_tokens_string hmem hk]

theorem Result.printable (hts : Read ts) {a : Result} (ha : ∀ t ∈ a.tokens, t ∈ ts)
    (href : a.variable.isRef = false) (p : Promotion) :
    Variable.PrintableResult { a.variable with type := p.rename a.variable.type } := by
  have hdeclarator : ∀ t ∈ a.declarator.tokens, t ∈ ts :=
    fun t ht => ha t (by simp [Result.tokens, ht])
  have hname : Single .ident a.variable.name := by
    obtain ⟨t, ht, hkind, hname⟩ := a.declarator.exists_name
    have hsingle := hts.single (hdeclarator t ht) (Or.inl hkind)
    rw [hkind, ← hname] at hsingle
    exact hsingle
  refine ⟨⟨?_, Or.inl rfl, Or.inr (Or.inl rfl), fun q hq => ?_, ⟨_, Or.inl rfl, hname⟩, rfl⟩,
    rfl, rfl, hname⟩
  · exact (hts.ident (w := a.type) (ha _ (by simp [Result.tokens]))).rename p
  · exact Declarator.printable hts hdeclarator hq (mark_ne_of_isRef href hq)

theorem Target.printable (hts : Read ts) {t : Target} (ht : ∀ u ∈ t.tokens, u ∈ ts) (file : String)
    (line : Int) (hnew : (t.routine file line).name ≠ "new")
    (hfortran : (t.routine file line).fortran = false) :
    (t.routine file line).PrintableCallee := by
  cases t with
  | fortran word name => cases hfortran
  | constructor word owner => exact absurd rfl hnew
  | plain name => exact .plain rfl rfl (hts.ident (ht _ (by simp [tokens])))
  | method this dash arrow owner dot name =>
    exact .method _ _ rfl rfl (hts.ident (ht _ (by simp [tokens])))
      (hts.ident (ht _ (by simp [tokens]))) (hts.ident (ht _ (by simp [tokens])))

end Grammar

open Grammar in
/-- A declared call can be printed once it is promoted, if it has no reference to an array and no
open string. -/
theorem Routine.Declared.printable {r : Routine} (h : r.Declared) (hfortran : r.fortran = false)
    (hnew : r.name ≠ "new") (hrefs : ∀ v ∈ r.results ++ r.args, v.isRef = false)
    (hclosed : ∀ v ∈ r.args, v.isQuoted = true → Token.isClosed v.name = true) (p : Promotion) :
    (Ledger.promote p r).Printable := by
  obtain ⟨file, ts, hts, parsed⟩ := h
  obtain ⟨o, c, line, hread, rfl⟩ := exists_call parsed
  obtain ⟨hresult, hcall⟩ := List.forall_mem_append.1 hread
  obtain ⟨hrefs, hrefs'⟩ := List.forall_mem_append.1 hrefs
  have htarget : ∀ t ∈ c.target.tokens, t ∈ ts :=
    fun t ht => hcall t (by simp [Invocation.tokens, ht])
  refine ⟨?_, fun v hv => ?_, fun v hv => ?_, ?_, hfortran⟩
  · cases Target.printable hts htarget file line hnew hfortran with
    | plain receiver owner name => exact .plain receiver owner name
    | method this C receiver owner this_ class_ name =>
      exact .method this C receiver owner this_ class_ name
  · obtain ⟨u, hu, rfl⟩ := List.mem_map.1 hv
    obtain ⟨a, rfl, ha⟩ := Invocation.exists_argument hu
    exact Argument.printable hts (fun t ht => hcall t (ha t ht)) (hrefs' _ hu) (hclosed _ hu) p
  · obtain ⟨u, hu, rfl⟩ := List.mem_map.1 hv
    obtain ⟨a, rfl, rfl⟩ : ∃ a, o = some a ∧ a.variable = u := by simpa using hu
    exact Result.printable hts hresult (hrefs _ hu) p
  · cases o <;> simp [Ledger.promote]

/-! ## What is printed of a routine on file -/

theorem Variable.Becomes.text_eq {v w : Variable} (h : v.Becomes w) (hname : w.name = v.name) :
    w.text = v.text := by
  unfold text
  rw [h.type, hname]
  congr 2
  have hmark := h.mark
  cases hv : v.qualifier with
  | none =>
    rw [hv, Option.map_none] at hmark
    rw [Option.map_eq_none_iff.1 hmark]
  | some q =>
    rw [hv, Option.map_some] at hmark
    obtain ⟨q', hw, hqq⟩ := Option.map_eq_some_iff.1 hmark
    have hdims : q'.dims.map (·.text) = q.dims.map (·.text) := by
      simpa [Variable.dims, hv, hw] using h.dims
    simp only [hw, Qualifier.text, hqq, hdims]

theorem Variable.Becomes.argText_eq {v w : Variable} (h : v.Becomes w) (hname : w.name = v.name) :
    w.argText = v.argText := by
  unfold argText
  rw [h.device, h.direction, h.text_eq hname]

theorem IsName.isQuoted_eq_false {v : Variable} (h : IsName v.name) : v.isQuoted = false := by
  unfold Variable.isQuoted
  cases hname : v.name.toList with
  | nil => rfl
  | cons c cs =>
    have hc := h.chars c (by simp [hname])
    have hne : c ≠ '\'' := by
      rintro rfl
      revert hc
      decide
    simp [hne]

namespace Ledger

variable {l : Ledger} {r : Routine}

/-- **A routine on file is printed as it was declared**, but for the promotion of its types. -/
theorem text_checked (h : r.Declared) (hplain : r.PlainConsts (l.checked r).value) :
    (l.checked r).value.text = (promote l.context.settings.promotion r).text := by
  have hsame := sameHead_checked l r
  have hhead : (l.checked r).value.head = (promote l.context.settings.promotion r).head := by
    unfold Routine.head Routine.receiver? Routine.ownerName
    rw [hsame.receiver, hsame.owner, hsame.name]
  have hargs : (l.checked r).value.args.map (·.argText)
      = (promote l.context.settings.promotion r).args.map (·.argText) := by
    rw [← List.forall₂_eq_eq_eq, List.forall₂_map_left_iff, List.forall₂_map_right_iff]
    exact ((plain_checked h hplain).imp fun u w huw => huw.1.argText_eq huw.2.1).flip
  have hplainResults : ∀ u ∈ (promote l.context.settings.promotion r).results,
      u.isQuoted = false := by
    intro u hu
    obtain ⟨v, hv, rfl⟩ := List.mem_map.1 hu
    exact (h.isName_result v hv).isQuoted_eq_false
  have hresults : (l.checked r).value.results.map (·.text)
      = (promote l.context.settings.promotion r).results.map (·.text) := by
    rw [← List.forall₂_eq_eq_eq, List.forall₂_map_left_iff, List.forall₂_map_right_iff]
    have hboth := (List.forall₂_and_left _ _).2 ⟨hplainResults, (becomes_checked h l).1⟩
    exact (hboth.imp fun u w huw => huw.2.text_eq (huw.2.name_of_plain fun _ => huw.1)).flip
  have hresult : (l.checked r).value.results.head?.map (·.text)
      = (promote l.context.settings.promotion r).results.head?.map (·.text) := by
    rw [← List.head?_map, hresults, List.head?_map]
  have hshown (o : Option Variable) : o.elim [] (fun v => v.text.toList ++ [' ', '=', ' '])
      = (o.map (·.text)).elim [] fun s => s.toList ++ [' ', '=', ' '] := by
    cases o <;> rfl
  apply String.toList_inj.1
  rw [Routine.toList_text_eq, Routine.toList_text_eq, Routine.callText, Routine.callText, hhead, hargs,
    hshown, hresult, ← hshown]

end Ledger

/-! ## Entering a call twice -/

/-- A check does not look at where a routine stands. -/
theorem Routine.check_relocated (t : TypeTable) (r : Routine) (i : Int) (file : String)
    (line : Int) : ({ r with id := i, file := file, line := line }.check t).value
      = { (r.check t).value with id := i, file := file, line := line } := by
  have hl : { r with id := i, file := file, line := line }.labelled
      = { r.labelled with id := i, file := file, line := line } := rfl
  by_cases hrs : (checkResults t r.labelled.results).fault.isSome = true
  · simp only [check, hl, hrs, if_true]
  by_cases has : (checkArgs t r.labelled.args).fault.isSome = true
  · simp only [check, hl, hrs, has, if_true, Bool.false_eq_true, if_false]
  simp only [check, hl, hrs, has, Bool.false_eq_true, if_false]
  unfold checkFortran
  by_cases hf : r.labelled.fortran = true
  · simp only [hf, if_true]
  · simp only [hf, Bool.false_eq_true, if_false]

namespace Ledger

variable {l : Ledger} {r : Routine}

/-- Filed under the signature of `f`, a second routine comes to the group of `f`. -/
theorem fileUnder_fileUnder (signature : String) (f g : Routine) (gs : List Group) :
    ∃ before group after, fileUnder signature f gs = before ++ group :: after ∧ f ∈ group.members ∧
      fileUnder signature g (fileUnder signature f gs)
        = before ++ { group with twins := group.twins ++ [g] } :: after := by
  induction gs with
  | nil =>
    exact ⟨[], { signature := signature, first := f }, [], rfl, by simp [Group.members],
      by simp [fileUnder]⟩
  | cons g₀ gs ih =>
    by_cases hs : g₀.signature = signature
    · exact ⟨[], { g₀ with twins := g₀.twins ++ [f] }, gs, by simp [fileUnder, hs],
        by simp [Group.members], by simp [fileUnder, hs]⟩
    · obtain ⟨before, group, after, hfirst, hmem, hsecond⟩ := ih
      refine ⟨g₀ :: before, group, after, ?_, hmem, ?_⟩
      · rw [fileUnder, if_neg hs, hfirst, List.cons_append]
      · rw [fileUnder, if_neg hs, fileUnder, if_neg hs, hsecond, List.cons_append]

/-- What holds of the variables on file by their marks holds of those declared. -/
theorem isRef_declared (hr : r.Declared)
    (h : ∀ v ∈ (l.checked r).value.results ++ (l.checked r).value.args, v.isRef = false) :
    ∀ v ∈ r.results ++ r.args, v.isRef = false := by
  obtain ⟨hresults, hargs⟩ := List.forall_mem_append.1 h
  obtain ⟨hrs, has⟩ := becomes_checked hr l
  simp only [promote, List.forall₂_map_left_iff] at hrs has
  have hback {vs ws : List Variable} (hws : ∀ w ∈ ws, w.isRef = false)
      (hvw : List.Forall₂ (fun v w => w.qualifier.map (·.mark) = v.qualifier.map (·.mark)) vs ws) :
      ∀ v ∈ vs, v.isRef = false := by
    refine forall_mem_of_forall₂ hvw.flip fun w hw v hvw => ?_
    rw [← Variable.isRef_eq_of_mark hvw]
    exact hws w hw
  exact List.forall_mem_append.2 ⟨hback hresults (hrs.imp fun _ _ h => h.mark),
    hback hargs (has.imp fun _ _ h => h.mark)⟩

theorem isClosed_declared (hr : r.Declared) (hplain : r.PlainConsts (l.checked r).value)
    (h : ∀ v ∈ (l.checked r).value.args, v.isQuoted = true → Token.isClosed v.name = true) :
    ∀ v ∈ r.args, v.isQuoted = true → Token.isClosed v.name = true := by
  have hnames := plain_checked hr hplain
  simp only [promote, List.forall₂_map_left_iff] at hnames
  refine forall_mem_of_forall₂ hnames.flip fun w hw v hvw hquoted => ?_
  have hname : w.name = v.name := hvw.2.1
  rw [← hname]
  apply h w hw
  rw [Variable.isQuoted, hname]
  exact hquoted

/-- A call that has been promoted is not changed by a second promotion. -/
theorem promote_promote (p : Promotion) (r : Routine) : promote p (promote p r) = promote p r := by
  simp only [promote, List.map_map, Function.comp_def, rename_rename]

/-- What entering a call leaves of the ledger. -/
theorem enterStatement_call (mex : String) (l : Ledger) (r : Routine) :
    let l' := (l.enterStatement mex (.call r)).1
    l'.groups = fileUnder ((l.checked r).value.signature l.context.settings.promotion)
        (l.checked r).value l.groups ∧
      l'.count = l.count + 1 ∧ l'.context.settings = l.context.settings ∧
      l'.context.types = l.context.types ∧ l'.errors = l.errors ∧ l'.pending = l.pending :=
  ⟨rfl, rfl, rfl, rfl, rfl, rfl⟩

/-- **Printed declarations parse back.** A routine `f` that is no FORTRAN routine and no `new`, and
has no array reference, no quoted constant and no open string, is printed, and the tokens of that
text are fed to the ledger that just entered `f`. There is no parse error; the same routine is
entered under the next number and where the text stands, and joins the group of `f`. -/
theorem printed_call_is_twin (mex : String) {l : Ledger} (hl : l.pending = []) {file : String}
    {ts : List Token} (hts : Read ts) {r : Routine}
    (parsed : Statement.parse file ts = .ok (.call r))
    (hfortran : (l.checked r).value.fortran = false) (hnew : (l.checked r).value.name ≠ "new")
    (hrefs : ∀ v ∈ (l.checked r).value.results ++ (l.checked r).value.args, v.isRef = false)
    (hplain : r.PlainConsts (l.checked r).value)
    (hclosed : ∀ v ∈ (l.checked r).value.args,
      v.isQuoted = true → Token.isClosed v.name = true) (file' : String) (line : Int) :
    let f := (l.checked r).value
    let l₁ := (l.enterTokens mex file ts).1
    let g := { f with id := l₁.count + 1, file := file', line := line }
    let out := l₁.feedAll mex file' (Token.tokens line f.text.toList)
    out.2.notices.filter Notice.isBadStatement = [] ∧ out.1.errors = l₁.errors ∧
      out.1.pending = [] ∧ out.1.count = l₁.count + 1 ∧
      ∃ before group after, l₁.groups = before ++ group :: after ∧ f ∈ group.members ∧
        out.1.groups = before ++ { group with twins := group.twins ++ [g] } :: after := by
  intro f l₁ g out
  have hr : r.Declared := ⟨file, ts, hts, parsed⟩
  have hsame := sameHead_checked l r
  have hl₁ : l₁ = (l.enterStatement mex (.call r)).1 := by
    simp only [l₁, enterTokens, parsed]
  obtain ⟨hgroups, hcount, hsettings, htypes, -, hpending⟩ := enterStatement_call mex l r
  rw [← hl₁] at hgroups hcount hsettings htypes hpending
  have hprintable := hr.printable (hsame.fortran ▸ hfortran) (hsame.name ▸ hnew)
    (isRef_declared hr hrefs) (isClosed_declared hr hplain hclosed) l.context.settings.promotion
  obtain ⟨d, htokens, hstatement⟩ := hprintable.exists_derivation file' line
  have hout : out = l₁.enterStatement mex (d.statement file') := by
    obtain ⟨us, stop, hsplit, hus⟩ := d.tokens_eq
    have hempty : { l₁ with pending := [] } = l₁ := by rw [← hl, ← hpending]
    show l₁.feedAll mex file' (Token.tokens line f.text.toList) = _
    rw [text_checked hr hplain, htokens, hsplit, feedAll_statement mex file' hus stop.2, hempty,
      hpending, hl, List.nil_append, ← hsplit, enterTokens, Grammar.parse_tokens]
  -- the call read back is promoted already, so it is checked as the first one was
  have hchecked : (l₁.checked { promote l.context.settings.promotion r with
      file := file', line := line, id := -1 }).value = g := by
    rw [checked, hsettings, htypes]
    show ({ promote _ (promote _ r) with file := file', line := line, id := _ }.check _).value = g
    rw [promote_promote]
    exact Routine.check_relocated l.context.types
      { promote l.context.settings.promotion r with id := l.count + 1 } (l₁.count + 1) file' line
  rw [hout, hstatement]
  obtain ⟨hgroups', hcount', -, -, herrors', hpending'⟩ := enterStatement_call mex l₁
    { promote l.context.settings.promotion r with file := file', line := line, id := -1 }
  refine ⟨isBadStatement_enterStatement .., herrors', hpending'.trans (hpending.trans hl), hcount',
    ?_⟩
  rw [hgroups', hchecked, hgroups, hsettings]
  exact fileUnder_fileUnder ..

/-- Scoped names, dimensions behind a name, a type that is promoted, a constant and a string. -/
def relayTokens : List Token := Token.tokens 3
  ("double y[m] = p->net::Hub.relay(const MODE, gpu inout long a[m,2], "
    ++ "::Peer* q, cstring 'in');").toList

def relayRoutine : Routine where
  receiver := some "p"
  owner := some "net::Hub"
  name := "relay"
  file := "a.mw"
  line := 3
  args := [
    { type := "const", name := "MODE" },
    { device := .gpu, direction := .inout, type := "long", name := "a"
      qualifier := some { mark := .array, dims := [{ text := "m" }, { text := "2" }] } },
    { type := "::Peer", name := "q", qualifier := some { mark := .pointer } },
    { type := "cstring", name := "'in'" }]
  results := [{ direction := .output, type := "double", name := "y"
                qualifier := some { mark := .array, dims := [{ text := "m" }] } }]

def relayLedger : Ledger := { context := { settings := { promotion := .wide } } }

theorem printed_call_is_twin_relay :
    let f := (relayLedger.checked relayRoutine).value
    let out := (relayLedger.enterTokens "gate" "a.mw" relayTokens).1.feedAll "gate" "b.mw"
      (Token.tokens 9 f.text.toList)
    Statement.parse "a.mw" relayTokens = .ok (.call relayRoutine) ∧ f.fortran = false ∧
      f.name ≠ "new" ∧ (∀ v ∈ f.results ++ f.args, v.isRef = false) ∧ relayRoutine.PlainConsts f ∧
      (∀ v ∈ f.args, v.isQuoted = true → Token.isClosed v.name = true) ∧
      f.text = "double[m] y = p->net::Hub.relay(const MODE, gpu inout int64_t[m, 2] a, "
        ++ "::Peer* q, cstring 'in');\n" ∧
      out.2.notices.filter Notice.isBadStatement = [] ∧ out.1.count = 2 ∧
      ∃ (group : Group) (before after : List Group), f ∈ group.members ∧ out.1.groups = before
        ++ { group with twins := group.twins ++ [{ f with id := 2, file := "b.mw", line := 9 }] }
        :: after := by
  intro f out
  have hparse : Statement.parse "a.mw" relayTokens = .ok (.call relayRoutine) := by decide +kernel
  have hfortran : f.fortran = false := by decide +kernel
  have hnew : f.name ≠ "new" := by decide +kernel
  have hrefs : ∀ v ∈ f.results ++ f.args, v.isRef = false := by decide +kernel
  have hplain : relayRoutine.PlainConsts f := by
    unfold Routine.PlainConsts
    decide +kernel
  have hclosed : ∀ v ∈ f.args, v.isQuoted = true → Token.isClosed v.name = true := by
    decide +kernel
  have htext : f.text = "double[m] y = p->net::Hub.relay(const MODE, gpu inout int64_t[m, 2] a, "
      ++ "::Peer* q, cstring 'in');\n" := by decide +kernel
  have hcount : (relayLedger.enterTokens "gate" "a.mw" relayTokens).1.count = 1 := by decide +kernel
  have hread : Read relayTokens := fun t ht => ⟨3, _, ht⟩
  obtain ⟨hnone, -, -, hnext, before, group, after, -, hmem, hgroups⟩ := printed_call_is_twin
    "gate" rfl hread hparse hfortran hnew hrefs hplain hclosed "b.mw" 9
  rw [hcount] at hnext hgroups
  exact ⟨hparse, hfortran, hnew, hrefs, hplain, hclosed, htext, hnone, hnext, group, before, after,
    hmem, hgroups⟩

end Ledger

end MexBridge
