import MexBridge.Token.Lexer
import Mathlib.Data.List.Basic

/-!
# How tokens are spelled

A token stands at the front of some text (`exists_first_of_mem`), and what it looks like there
depends on its kind: `spelled_first` lists all a text can start with. Every token but one is `Whole`;
the one is a string that its line ends before its closing quote.
-/

namespace MexBridge

/-! ## Where a run of characters ends -/

/-- The text does not go on with a character of `P`. -/
def Stops (P : Char → Bool) (x : List Char) : Prop := ∀ c ∈ x.head?, P c = false

theorem stops_cons {P : Char → Bool} {c : Char} (h : P c = false) (x : List Char) :
    Stops P (c :: x) := by
  intro d hd
  cases hd
  exact h

namespace Token

variable {P : Char → Bool} {a r s x rest text : List Char} {c : Char} {k : TokenKind}

theorem takeWhile_append_stops (ha : ∀ c ∈ a, P c = true) (hx : Stops P x) :
    (a ++ x).takeWhile P = a := by
  rw [List.takeWhile_append_of_pos ha]
  cases x with
  | nil => simp
  | cons c x => simp [hx c rfl]

theorem dropWhile_append_stops (ha : ∀ c ∈ a, P c = true) (hx : Stops P x) :
    (a ++ x).dropWhile P = x := by
  rw [List.dropWhile_append_of_pos ha]
  cases x with
  | nil => rfl
  | cons c x => simp [hx c rfl]

/-! ## Spelling -/

/-- Scopes that continue a name, as in `::b::c`. -/
inductive Scoping : List Char → Prop
  | nil : Scoping []
  | cons {c : Char} {r s : List Char} (head : isNameHead c = true)
      (tail : ∀ d ∈ r, isNameTail d = true) (rest : Scoping s) :
      Scoping (':' :: ':' :: c :: (r ++ s))

/-- A name: a word with its scopes, or scopes alone. -/
inductive Named : List Char → Prop
  | word {c : Char} {r s : List Char} (head : isNameHead c = true)
      (tail : ∀ d ∈ r, isNameTail d = true) (scoping : Scoping s) : Named (c :: (r ++ s))
  | path {s : List Char} (scoping : Scoping s) (ne : s ≠ []) : Named s

/-- The text is a token of the kind by itself. -/
inductive Whole (kind : TokenKind) (text : List Char) : Prop
  | name (named : Named text) (hkind : kind = wordKind (String.ofList text))
  | number (ne : text ≠ []) (digits : ∀ d ∈ text, d.isDigit = true) (hkind : kind = .number)
  | quoted (a : List Char) (body : ∀ d ∈ a, isStringChar d = true)
      (htext : text = '\'' :: (a ++ ['\''])) (hkind : kind = .string)
  | mark (c : Char) (mark : isPunctChar c = true) (htext : text = [c]) (hkind : kind = .punct)

/-- A string without its closing quote. -/
def Unclosed (text : List Char) : Prop :=
  ∃ a, text = '\'' :: a ∧ ∀ d ∈ a, isStringChar d = true

theorem wordKind_ne_string (w : String) : wordKind w ≠ .string := by
  unfold wordKind
  split <;> decide

theorem Scoping.exists_eq_cons (hs : Scoping s) (h : s ≠ []) : ∃ r, s = ':' :: r := by
  cases hs with
  | nil => exact absurd rfl h
  | cons => exact ⟨_, rfl⟩

theorem Named.ne_nil (h : Named text) : text ≠ [] := by
  cases h with
  | word => exact List.cons_ne_nil _ _
  | path _ ne => exact ne

theorem Whole.ne_nil (h : Whole k text) : text ≠ [] := by
  cases h with
  | name named => exact named.ne_nil
  | number ne => exact ne
  | quoted a _ htext => simp [htext]
  | mark c _ htext => simp [htext]

/-! ## Names -/

theorem scopes_append (cs : List Char) : (scopes cs).1 ++ (scopes cs).2 = cs := by
  fun_induction scopes cs with
  | case1 c r h next ih =>
    simp only [List.cons_append, List.append_assoc, next, ih, List.takeWhile_append_dropWhile]
  | case2 => rfl
  | case3 => rfl

theorem scoping_scopes (cs : List Char) : Scoping (scopes cs).1 := by
  fun_induction scopes cs with
  | case1 c r hc next ih => exact .cons hc (List.all_eq_true.1 List.all_takeWhile) ih
  | case2 => exact .nil
  | case3 => exact .nil

/-! ## Strings -/

theorem string_closed (ha : ∀ c ∈ a, isStringChar c = true) (rest : List Char) :
    string (a ++ '\'' :: rest) = ('\'' :: (a ++ ['\'']), rest) := by
  have hstops : Stops isStringChar ('\'' :: rest) := stops_cons (by decide) rest
  simp only [string, takeWhile_append_stops ha hstops, dropWhile_append_stops ha hstops,
    List.cons_append]

theorem string_open (ha : ∀ c ∈ a, isStringChar c = true) (hrest : ∀ c ∈ rest.head?, c = '\n') :
    string (a ++ rest) = ('\'' :: a, rest) := by
  have hstops : Stops isStringChar rest := by
    intro c hc
    rw [hrest c hc]
    decide
  simp only [string, takeWhile_append_stops ha hstops, dropWhile_append_stops ha hstops]
  split
  · rename_i rest' _
    exact absurd (hrest '\'' rfl) (by decide)
  · rfl

/-- A string ends with its closing quote or, without one, with its line. -/
theorem exists_string (r : List Char) :
    ∃ a rest, (∀ c ∈ a, isStringChar c = true) ∧
      (r = a ++ '\'' :: rest ∨ r = a ++ rest ∧ ∀ c ∈ rest.head?, c = '\n') := by
  have hsplit : r = r.takeWhile isStringChar ++ r.dropWhile isStringChar :=
    List.takeWhile_append_dropWhile.symm
  have hbody : ∀ c ∈ r.takeWhile isStringChar, isStringChar c = true :=
    List.all_eq_true.1 List.all_takeWhile
  have hhead := List.head?_dropWhile_not isStringChar r
  cases hdrop : r.dropWhile isStringChar with
  | nil => exact ⟨_, [], hbody, .inr ⟨hdrop ▸ hsplit, by simp⟩⟩
  | cons c rest =>
    rw [hdrop] at hsplit hhead
    by_cases hquote : c = '\''
    · exact ⟨_, rest, hbody, .inl (hquote ▸ hsplit)⟩
    · have hnewline : c = '\n' := by simpa [isStringChar, hquote] using hhead
      exact ⟨_, c :: rest, hbody, .inr ⟨hsplit, by simp [hnewline]⟩⟩

/-! ## Any token -/

/-- A token stands at the front of its text. It is whole, or a string that goes to the end of its
line. -/
theorem spelled_first (h : first c r = (.token k text, rest)) :
    c :: r = text ++ rest ∧
      (Whole k text ∨ k = .string ∧ Unclosed text ∧ ∀ d ∈ rest.head?, d = '\n') := by
  have hrun {P : Char → Bool} : ∀ d ∈ r.takeWhile P, P d = true :=
    List.all_eq_true.1 List.all_takeWhile
  revert h
  fun_cases first c r with
  | case1 hcomment => rintro ⟨⟩
  | case2 hcomment hquote s =>
    rintro ⟨⟩
    subst hquote
    obtain ⟨a, after, ha, rfl | ⟨rfl, hafter⟩⟩ := exists_string r
    · simp only [s, string_closed ha]
      exact ⟨by simp, .inl (.quoted a ha rfl rfl)⟩
    · simp only [s, string_open ha hafter]
      exact ⟨rfl, .inr ⟨trivial, ⟨a, rfl, ha⟩, hafter⟩⟩
  | case3 hcomment hquote hhead n =>
    rintro ⟨⟩
    refine ⟨?_, .inl (.name (.word hhead hrun (scoping_scopes _)) rfl)⟩
    simp only [n, name, List.cons_append, List.append_assoc, scopes_append,
      List.takeWhile_append_dropWhile]
  | case4 hcomment hquote hhead hscopes s =>
    rintro ⟨⟩
    exact ⟨(scopes_append _).symm, .inl (.name (.path (scoping_scopes _) hscopes.2) rfl)⟩
  | case5 hcomment hquote hhead hscopes hdigit =>
    rintro ⟨⟩
    refine ⟨by simp, .inl (.number (by simp) ?_ rfl)⟩
    exact List.forall_mem_cons.2 ⟨hdigit, hrun⟩
  | case6 hcomment hquote hhead hscopes hdigit hpunct =>
    rintro ⟨⟩
    exact ⟨rfl, .inl (.mark c hpunct rfl rfl)⟩
  | case7 => rintro ⟨⟩

variable {line : Int} {cs : List Char} {t : Token}

theorem exists_first_of_mem (ht : t ∈ tokens line cs) :
    ∃ c r k text rest, first c r = (.token k text, rest) ∧ t = ⟨k, String.ofList text, line⟩ := by
  fun_induction tokens line cs with
  | case1 => simp at ht
  | case2 => simp at ht
  | case3 c r k text rest h ih =>
    rcases List.mem_cons.1 ht with rfl | ht
    · exact ⟨c, r, k, text, rest, h, rfl⟩
    · exact ih ht
  | case4 c r rest h ih => exact ih ht

theorem spelled_of_mem (ht : t ∈ tokens line cs) :
    Whole t.kind t.text.toList ∨ t.kind = .string ∧ Unclosed t.text.toList := by
  obtain ⟨c, r, k, text, rest, hfirst, rfl⟩ := exists_first_of_mem ht
  rw [String.toList_ofList]
  exact (spelled_first hfirst).2.imp_right fun h => ⟨h.1, h.2.1⟩

theorem line_of_mem (ht : t ∈ tokens line cs) : t.line = line := by
  obtain ⟨c, r, k, text, rest, -, rfl⟩ := exists_first_of_mem ht
  rfl

/-- A string keeps its opening quote. -/
theorem head_tokens_string (ht : t ∈ tokens line cs) (hk : t.kind = .string) :
    t.text.toList.head? = some '\'' := by
  rcases spelled_of_mem ht with (⟨-, hkind⟩ | ⟨-, -, hkind⟩ | ⟨a, -, htext, -⟩ | ⟨c, -, -, hkind⟩) |
    ⟨-, a, htext, -⟩
  · exact absurd (hkind.symm.trans hk) (wordKind_ne_string _)
  · cases hkind.symm.trans hk
  · rw [htext, List.head?_cons]
  · cases hkind.symm.trans hk
  · rw [htext, List.head?_cons]

end Token

end MexBridge
