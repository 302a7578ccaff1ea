import MexBridge.Proofs.Statement.Written
import MexBridge.Proofs.Token.Spelling
import Mathlib.Data.List.Forall2

/-!
# What a signature tells

A signature runs names and marks together in one text. Names are made of characters that no mark
starts with, so the text can be taken apart again, but for two things: the mark of an array
reference is a letter, and the value of a constant is any text. Where those two agree, variables
of equal signatures agree in all that is written of them but the number of dimensions of array
references (`alike_of_signature`).
-/

namespace MexBridge

/-! ## Names -/

/-- A character of a name, scopes included. -/
def isNameChar (c : Char) : Bool := Token.isNameTail c || c == ':'

/-- The text of a name token. -/
def IsName (s : String) : Prop :=
  s.toList.all isNameChar = true ∧ s ≠ "" ∧ s ≠ "new"

instance (s : String) : Decidable (IsName s) :=
  inferInstanceAs (Decidable (s.toList.all isNameChar = true ∧ s ≠ "" ∧ s ≠ "new"))

theorem IsName.chars {s : String} (h : IsName s) : ∀ c ∈ s.toList, isNameChar c = true :=
  List.all_eq_true.1 h.1

namespace Token

theorem isNameChar_of_head {c : Char} (h : isNameHead c = true) : isNameChar c = true := by
  unfold isNameHead at h
  unfold isNameChar isNameTail Char.isAlphanum
  simp_all
  grind

theorem isNameChar_of_tail {c : Char} (h : isNameTail c = true) : isNameChar c = true := by
  simp [isNameChar, h]

theorem Scoping.chars {s : List Char} (h : Scoping s) : ∀ c ∈ s, isNameChar c = true := by
  induction h with
  | nil => simp
  | cons head tail _ ih =>
    simp only [List.forall_mem_cons, List.forall_mem_append]
    exact ⟨by decide, by decide, isNameChar_of_head head,
      fun c hc => isNameChar_of_tail (tail c hc), ih⟩

theorem Named.chars {w : List Char} (h : Named w) : ∀ c ∈ w, isNameChar c = true := by
  cases h with
  | word head tail scoping =>
    simp only [List.forall_mem_cons, List.forall_mem_append]
    exact ⟨isNameChar_of_head head, fun c hc => isNameChar_of_tail (tail c hc), scoping.chars⟩
  | path scoping => exact scoping.chars

/-- The name tokens of a body are names. -/
theorem isName_tokens {line : Int} {cs : List Char} {t : Token} (ht : t ∈ tokens line cs)
    (hk : t.kind = .ident) : IsName t.text := by
  rcases spelled_of_mem ht with (⟨named, hkind⟩ | ⟨-, -, hkind⟩ | ⟨a, -, -, hkind⟩ | ⟨c, -, -, hkind⟩)
    | ⟨hkind, -⟩
  · refine ⟨List.all_eq_true.2 named.chars, by simpa using named.ne_nil, ?_⟩
    intro e
    rw [hk, String.ofList_toList, e] at hkind
    cases hkind
  all_goals cases hkind.symm.trans hk

end Token

theorem IsName.rename {s : String} (h : IsName s) (p : Promotion) : IsName (p.rename s) := by
  unfold Promotion.rename
  split
  case h_11 => exact h
  all_goals decide

theorem rename_rename (p : Promotion) (s : String) : p.rename (p.rename s) = p.rename s := by
  generalize h : p.rename s = t
  unfold Promotion.rename at h
  split at h
  case h_11 =>
    subst h
    unfold Promotion.rename
    split <;> simp_all
  all_goals subst h; rfl

/-! ## Taking a text apart -/

/-- Texts of characters of `P` are cancelled where those characters end. -/
theorem append_inj_of_stops {P : Char → Bool} {a b x y : List Char} (ha : ∀ c ∈ a, P c = true)
    (hb : ∀ c ∈ b, P c = true) (hx : Stops P x) (hy : Stops P y) (h : a ++ x = b ++ y) :
    a = b ∧ x = y := by
  induction a generalizing b with
  | nil =>
    cases b with
    | nil => exact ⟨rfl, h⟩
    | cons d b =>
      rw [List.nil_append] at h
      have hd := hb d (by simp)
      have := hx d (by simp [h])
      simp [this] at hd
  | cons c a ih =>
    cases b with
    | nil =>
      rw [List.nil_append] at h
      have hc := ha c (by simp)
      have := hy c (by simp [← h])
      simp [this] at hc
    | cons d b =>
      rw [List.cons_append, List.cons_append, List.cons.injEq] at h
      obtain ⟨rfl, h⟩ := h
      obtain ⟨rfl, rfl⟩ := ih (fun c hc => ha c (by simp [hc])) (fun c hc => hb c (by simp [hc])) h
      exact ⟨rfl, rfl⟩

/-- What can stand behind a variable in a signature. -/
def Ends (x : List Char) : Prop := ∃ y, x = ',' :: y ∨ x = ')' :: y ∨ x = ' ' :: y

namespace Variable

/-- The mark of an array reference is a letter. -/
def isRef (v : Variable) : Bool := v.qualifier.any (·.mark == .arrayRef)

/-- The mark of a variable, where it is no letter. -/
def symbol (v : Variable) : List Char :=
  match v.qualifier with
  | some q => if q.mark = .arrayRef then [] else q.signature.toList
  | none => []

/-- What a signature shows of a constant. -/
def shownValue (v : Variable) : List Char :=
  if v.kind = .const then ' ' :: v.name.toList else []

theorem toList_signature (p : Promotion) (v : Variable) :
    (v.signature p).toList = v.deviceMark.toList ++ v.directionMark.toList
      ++ (p.rename v.type).toList ++ (if v.isRef then ['r'] else []) ++ v.symbol
      ++ v.shownValue := by
  unfold signature isRef symbol shownValue
  cases hq : v.qualifier with
  | none => by_cases hk : v.kind = .const <;> simp [hk]
  | some q =>
    by_cases hm : q.mark = .arrayRef <;> by_cases hk : v.kind = .const <;>
      simp [hk, hm, Qualifier.signature, Mark.name]

/-- The four forms of a mark. -/
inductive Symbol (v : Variable) : Prop
  | none (bare : v.qualifier = none ∨ v.isRef = true) (text : v.symbol = [])
  | pointer (q : Qualifier) (marked : v.qualifier = some q) (mark : q.mark = .pointer)
      (text : v.symbol = ['*'])
  | reference (q : Qualifier) (marked : v.qualifier = some q) (mark : q.mark = .reference)
      (text : v.symbol = ['&'])
  | array (q : Qualifier) (marked : v.qualifier = some q) (mark : q.mark = .array)
      (text : v.symbol = '[' :: (List.replicate q.dims.length 'x' ++ [']']))

theorem Written.symbol {Q : String → Prop} {v : Variable} (h : v.Written Q) : v.Symbol := by
  cases hq : v.qualifier with
  | none => exact .none (Or.inl hq) (by simp [Variable.symbol, hq])
  | some q =>
    rcases h.qualifier q hq with hm | hm | ⟨hm | hm, -⟩
    · exact .array q hq hm (by simp [Variable.symbol, hq, hm, Qualifier.signature])
    · exact .none (Or.inr (by simp [isRef, hq, hm])) (by simp [Variable.symbol, hq, hm])
    · exact .pointer q hq hm (by simp [Variable.symbol, hq, hm, Qualifier.signature, Mark.name])
    · exact .reference q hq hm (by simp [Variable.symbol, hq, hm, Qualifier.signature, Mark.name])

theorem Symbol.stops {v : Variable} (h : v.Symbol) {x : List Char} (hx : Ends x) :
    Stops isNameChar (v.symbol ++ x) := by
  obtain ⟨y, hx⟩ := hx
  cases h <;> rcases hx with rfl | rfl | rfl <;> simp_all [Stops] <;> decide

/-- Symbols are told apart by how they start, and none starts as what can follow them. -/
theorem Symbol.inj {v w : Variable} (hv : v.Symbol) (hw : w.Symbol) {x y : List Char} (hx : Ends x)
    (hy : Ends y) (h : v.symbol ++ x = w.symbol ++ y) :
    x = y ∧ ((v.qualifier = .none ∨ v.isRef = true) ∧ (w.qualifier = .none ∨ w.isRef = true) ∨
      v.qualifier.map (·.mark) = w.qualifier.map (·.mark)) := by
  obtain ⟨x', hx⟩ := hx
  obtain ⟨y', hy⟩ := hy
  cases hv with
  | none bare text =>
    cases hw with
    | none bare' text' =>
      rw [text, text'] at h
      exact ⟨h, Or.inl ⟨bare, bare'⟩⟩
    | _ => rcases hx with rfl | rfl | rfl <;> simp_all
  | pointer q marked mark text =>
    cases hw with
    | pointer q' marked' mark' text' =>
      rw [text, text'] at h
      exact ⟨(List.cons.inj h).2, Or.inr (by simp [marked, marked', mark, mark'])⟩
    | _ => rcases hy with rfl | rfl | rfl <;> simp_all
  | reference q marked mark text =>
    cases hw with
    | reference q' marked' mark' text' =>
      rw [text, text'] at h
      exact ⟨(List.cons.inj h).2, Or.inr (by simp [marked, marked', mark, mark'])⟩
    | _ => rcases hy with rfl | rfl | rfl <;> simp_all
  | array q marked mark text =>
    cases hw with
    | array q' marked' mark' text' =>
      rw [text, text', List.cons_append, List.cons_append, List.cons.injEq, List.append_assoc,
        List.append_assoc] at h
      -- the dimensions end at the bracket
      have := append_inj_of_stops (P := (· == 'x')) (by simp) (by simp) (by simp [Stops])
        (by simp [Stops]) h.2
      exact ⟨by simpa using this.2, Or.inr (by simp [marked, marked', mark, mark'])⟩
    | _ => rcases hy with rfl | rfl | rfl <;> simp_all

/-- What a signature shows of both alike. -/
structure WrittenAlike (p : Promotion) (v w : Variable) : Prop where
  device : v.device = w.device
  direction : v.direction = w.direction
  type : p.rename v.type = p.rename w.type
  mark : v.qualifier.map (·.mark) = w.qualifier.map (·.mark)

theorem toList_ends {v : Variable} {x : List Char} (hx : Ends x) : Ends (v.shownValue ++ x) := by
  unfold shownValue
  split
  · exact ⟨_, Or.inr (Or.inr rfl)⟩
  · exact hx

/-- Where a signature starts. -/
theorem marks_inj {Q : String → Prop} {v w : Variable} (hv : v.Written Q) (hw : w.Written Q)
    {x y : List Char} (h : v.deviceMark.toList ++ v.directionMark.toList ++ x
      = w.deviceMark.toList ++ w.directionMark.toList ++ y) :
    v.device = w.device ∧ v.direction = w.direction ∧ x = y := by
  unfold deviceMark directionMark at h
  rcases hv.device with e1 | e1 <;> rcases hw.device with e2 | e2 <;>
    rcases hv.direction with e3 | e3 | e3 <;> rcases hw.direction with e4 | e4 | e4 <;>
    simp_all

theorem isRef_eq_of_mark {v w : Variable}
    (h : v.qualifier.map (·.mark) = w.qualifier.map (·.mark)) : v.isRef = w.isRef := by
  unfold isRef
  cases hv : v.qualifier <;> cases hw : w.qualifier <;> simp_all

theorem mark_of_isRef {v : Variable} (h : v.isRef = true) :
    v.qualifier.map (·.mark) = some .arrayRef := by
  unfold isRef at h
  cases hv : v.qualifier <;> simp_all

theorem isSome_of_isRef {v : Variable} (h : v.isRef = true) : v.qualifier.isSome = true := by
  unfold isRef at h
  cases hq : v.qualifier <;> simp_all

/-- A reference and a bare variable can show the same, so one must not be set against the other. -/
def RefsMatch (v w : Variable) : Prop :=
  (v.isRef = true → w.qualifier.isSome = true) ∧ (w.isRef = true → v.qualifier.isSome = true)

/-- A signature taken apart up to its mark. -/
theorem parts_of_text {p : Promotion} {v w : Variable} (hv : v.Written IsName)
    (hw : w.Written IsName) {x y : List Char} (hx : Ends x) (hy : Ends y)
    (h : (v.signature p).toList ++ x = (w.signature p).toList ++ y) :
    v.device = w.device ∧ v.direction = w.direction ∧
      (p.rename v.type).toList ++ (if v.isRef then ['r'] else [])
        = (p.rename w.type).toList ++ (if w.isRef then ['r'] else []) ∧
      v.symbol ++ (v.shownValue ++ x) = w.symbol ++ (w.shownValue ++ y) := by
  rw [toList_signature, toList_signature] at h
  simp only [List.append_assoc] at h
  rw [← List.append_assoc, ← List.append_assoc w.deviceMark.toList] at h
  obtain ⟨hdev, hdir, h⟩ := marks_inj hv hw h
  rw [← List.append_assoc, ← List.append_assoc (p.rename w.type).toList] at h
  have hletters : ∀ u : Variable, IsName u.type →
      ∀ c ∈ (p.rename u.type).toList ++ (if u.isRef then ['r'] else []), isNameChar c = true := by
    intro u hu c hc
    rcases List.mem_append.1 hc with hc | hc
    · exact (hu.rename p).chars c hc
    · split at hc <;> simp at hc
      subst hc; decide
  exact ⟨hdev, hdir, append_inj_of_stops (hletters v hv.type) (hletters w hw.type)
    (hv.symbol.stops (toList_ends hx)) (hw.symbol.stops (toList_ends hy)) h⟩

theorem alike_of_text {p : Promotion} {v w : Variable} (hv : v.Written IsName)
    (hw : w.Written IsName) (hshown : v.shownValue = w.shownValue) (href : v.RefsMatch w)
    {x y : List Char} (hx : Ends x) (hy : Ends y)
    (h : (v.signature p).toList ++ x = (w.signature p).toList ++ y) :
    v.WrittenAlike p w ∧ x = y := by
  obtain ⟨hdev, hdir, htype, h⟩ := parts_of_text hv hw hx hy h
  obtain ⟨h, hmark⟩ := hv.symbol.inj hw.symbol (toList_ends hx) (toList_ends hy) h
  rw [hshown] at h
  have hmark' : v.qualifier.map (·.mark) = w.qualifier.map (·.mark) := by
    rcases hmark with ⟨hb, hb'⟩ | hmark
    · rcases hb with hb | hb <;> rcases hb' with hb' | hb'
      · rw [hb, hb']
      · simpa [hb] using href.2 hb'
      · simpa [hb'] using href.1 hb
      · rw [mark_of_isRef hb, mark_of_isRef hb']
    · exact hmark
  rw [isRef_eq_of_mark hmark'] at htype
  exact ⟨⟨hdev, hdir, String.toList_inj.1 (List.append_cancel_right htype), hmark'⟩,
    List.append_cancel_left h⟩

end Variable

/-! ## Routines -/

/-- The value of a constant, and whether a mark is a letter, are the same. -/
def Variable.ShownAlike (v w : Variable) : Prop := v.shownValue = w.shownValue ∧ v.RefsMatch w

namespace Routine

theorem alike_of_list {p : Promotion} {vs ws : List Variable} (hvs : ∀ v ∈ vs, v.Written IsName)
    (hws : ∀ w ∈ ws, w.Written IsName) (hshown : List.Forall₂ Variable.ShownAlike vs ws)
    {x y : List Char} (hx : Ends x) (hy : Ends y)
    (h : (signatureList p vs).toList ++ x = (signatureList p ws).toList ++ y) :
    List.Forall₂ (Variable.WrittenAlike p) vs ws ∧ x = y := by
  induction hshown with
  | nil => exact ⟨.nil, by simpa [signatureList] using h⟩
  | @cons v w vs ws hvw hrest ih =>
    have hv := hvs v (by simp)
    have hw := hws w (by simp)
    cases hrest with
    | nil =>
      simp only [signatureList, List.map_cons, List.map_nil, String.intercalate_singleton] at h
      obtain ⟨hvw, h⟩ := Variable.alike_of_text hv hw hvw.1 hvw.2 hx hy h
      exact ⟨.cons hvw .nil, h⟩
    | @cons v' w' vs ws hvw' hrest =>
      simp only [signatureList, List.map_cons, String.intercalate_cons_cons, String.toList_append,
        List.append_assoc] at h
      obtain ⟨hvw, h⟩ := Variable.alike_of_text hv hw hvw.1 hvw.2 ⟨_, Or.inl rfl⟩ ⟨_, Or.inl rfl⟩ h
      obtain ⟨hrest, h⟩ := ih (fun u hu => hvs u (List.mem_cons_of_mem v hu))
        (fun u hu => hws u (List.mem_cons_of_mem w hu)) (by simpa [signatureList] using h)
      exact ⟨.cons hvw hrest, h⟩

/-- What is called, as a signature shows it. -/
def head (r : Routine) : List Char :=
  (match r.receiver? with
    | some this => this.toList ++ '-' :: '>' :: (r.ownerName.toList ++ ['.'])
    | none => []) ++ r.name.toList

theorem toList_signature (p : Promotion) (r : Routine) :
    (r.signature p).toList = (if r.results.isEmpty then [] else (signatureList p r.results).toList
      ++ [' ', '=', ' ']) ++ r.head ++ '(' :: ((signatureList p r.args).toList ++ [')']) := by
  unfold signature head
  cases r.receiver? <;> cases r.results.isEmpty <;> simp

theorem WrittenCallee.isNameChar_name {r : Routine} (h : r.WrittenCallee IsName) :
    ∀ c ∈ r.name.toList, isNameChar c = true := by
  cases h with
  | plain receiver owner name => exact name.chars
  | constructor C receiver owner class_ name => rw [name]; exact List.all_eq_true.1 (by decide)
  | method this C receiver owner this_ class_ name => exact name.chars

theorem WrittenCallee.isNameChar_receiver {r : Routine} (h : r.WrittenCallee IsName) {this : String}
    (hthis : r.receiver? = some this) :
    (∀ c ∈ this.toList, isNameChar c = true) ∧ ∀ c ∈ r.ownerName.toList, isNameChar c = true := by
  obtain ⟨hthis, -⟩ := Option.filter_eq_some_iff.1 hthis
  cases h with
  | plain receiver => simp [receiver] at hthis
  | constructor C receiver => simp [receiver] at hthis
  | method this' C receiver owner this_ class_ =>
    rw [receiver, Option.some.injEq] at hthis
    subst hthis
    exact ⟨this_.chars, by simpa [ownerName, owner] using class_.chars⟩

theorem head_inj {f g : Routine} (hf : f.WrittenCallee IsName) (hg : g.WrittenCallee IsName)
    {x y : List Char} (h : f.head ++ '(' :: x = g.head ++ '(' :: y) :
    f.receiver? = g.receiver? ∧ (f.receiver?.isSome = true → f.ownerName = g.ownerName) ∧
      f.name = g.name ∧ x = y := by
  unfold head at h
  cases hfr : f.receiver? with
  | none =>
    cases hgr : g.receiver? with
    | none =>
      simp only [hfr, hgr, List.nil_append] at h
      obtain ⟨hname, h⟩ := append_inj_of_stops hf.isNameChar_name hg.isNameChar_name
        (stops_cons (by decide) _) (stops_cons (by decide) _) h
      exact ⟨rfl, by simp, String.toList_inj.1 hname, (List.cons.inj h).2⟩
    | some this =>
      simp only [hfr, hgr, List.nil_append, List.append_assoc, List.cons_append] at h
      obtain ⟨-, h⟩ := append_inj_of_stops hf.isNameChar_name (hg.isNameChar_receiver hgr).1
        (stops_cons (by decide) _) (stops_cons (by decide) _) h
      simp at h
  | some this =>
    cases hgr : g.receiver? with
    | none =>
      simp only [hfr, hgr, List.nil_append, List.append_assoc, List.cons_append] at h
      obtain ⟨-, h⟩ := append_inj_of_stops (hf.isNameChar_receiver hfr).1 hg.isNameChar_name
        (stops_cons (by decide) _) (stops_cons (by decide) _) h
      simp at h
    | some this' =>
      simp only [hfr, hgr, List.append_assoc, List.cons_append, List.nil_append] at h
      obtain ⟨hthis, h⟩ := append_inj_of_stops (hf.isNameChar_receiver hfr).1
        (hg.isNameChar_receiver hgr).1 (stops_cons (by decide) _) (stops_cons (by decide) _) h
      simp only [List.cons.injEq, true_and] at h
      obtain ⟨howner, h⟩ := append_inj_of_stops (hf.isNameChar_receiver hfr).2
        (hg.isNameChar_receiver hgr).2 (stops_cons (by decide) _) (stops_cons (by decide) _) h
      simp only [List.cons.injEq, true_and] at h
      obtain ⟨hname, h⟩ := append_inj_of_stops hf.isNameChar_name hg.isNameChar_name
        (stops_cons (by decide) _) (stops_cons (by decide) _) h
      exact ⟨by rw [String.toList_inj.1 hthis], fun _ => String.toList_inj.1 howner,
        String.toList_inj.1 hname, (List.cons.inj h).2⟩

/-- What routines of one signature have in common. -/
structure WrittenAlike (p : Promotion) (f g : Routine) : Prop where
  receiver : f.receiver? = g.receiver?
  owner : f.receiver?.isSome = true → f.ownerName = g.ownerName
  name : f.name = g.name
  results : List.Forall₂ (Variable.WrittenAlike p) f.results g.results
  args : List.Forall₂ (Variable.WrittenAlike p) f.args g.args

/-- **A signature shows all but values and letters.** -/
theorem alike_of_signature {p : Promotion} {f g : Routine} (hf : f.Written IsName)
    (hg : g.Written IsName) (hresults : List.Forall₂ Variable.ShownAlike f.results g.results)
    (hargs : List.Forall₂ Variable.ShownAlike f.args g.args) (h : f.signature p = g.signature p) :
    f.WrittenAlike p g := by
  have h := congrArg String.toList h
  rw [toList_signature, toList_signature] at h
  have hres : List.Forall₂ (Variable.WrittenAlike p) f.results g.results ∧
      f.head ++ '(' :: ((signatureList p f.args).toList ++ [')'])
        = g.head ++ '(' :: ((signatureList p g.args).toList ++ [')']) := by
    have hlen := hresults.length_eq
    cases hfr : f.results with
    | nil =>
      have hgr : g.results = [] := by simpa [hfr, eq_comm] using hlen
      rw [hfr, hgr] at h
      exact ⟨by rw [hgr]; exact .nil, h⟩
    | cons v vs =>
      have hgr : g.results.isEmpty = false := by cases hg : g.results <;> simp_all
      have hfr' : f.results.isEmpty = false := by simp [hfr]
      simp only [hfr', hgr, Bool.false_eq_true, if_false, List.append_assoc] at h
      rw [← hfr]
      obtain ⟨halike, h⟩ := alike_of_list (fun v hv => (hf.results v hv).toWritten)
        (fun v hv => (hg.results v hv).toWritten) hresults ⟨_, Or.inr (Or.inr rfl)⟩
        ⟨_, Or.inr (Or.inr rfl)⟩ h
      have h : [' ', '=', ' '] ++ _ = [' ', '=', ' '] ++ _ := h
      exact ⟨halike, List.append_cancel_left h⟩
  obtain ⟨hreceiver, howner, hname, h⟩ := head_inj hf.callee hg.callee hres.2
  obtain ⟨halike, -⟩ := alike_of_list hf.args hg.args hargs ⟨_, Or.inr (Or.inl rfl)⟩
    ⟨_, Or.inr (Or.inl rfl)⟩ h
  exact ⟨hreceiver, howner, hname, hres.1, halike⟩

end Routine

end MexBridge
