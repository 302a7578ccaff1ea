import MexBridge.Proofs.Ledger.Declared

/-!
# Tokens read a second time

The text of a token gives the same token wherever it is put, as long as nothing behind it goes on
with it (`single_of_mem`). So a text that is put together from tokens with marks and blanks between
them is taken apart into the same tokens: `Cuts` and `Lexes` say so of a piece of text, and pieces
can be joined.
-/

namespace MexBridge.Token

/-- The text gives these tokens, where no character of a name follows. -/
def Lexes (line : Int) (s : List Char) (ts : List Token) : Prop :=
  ∀ rest, Stops isNameChar rest → tokens line (s ++ rest) = ts ++ tokens line rest

/-- The text gives these tokens, whatever follows. -/
def Cuts (line : Int) (s : List Char) (ts : List Token) : Prop :=
  ∀ rest, tokens line (s ++ rest) = ts ++ tokens line rest

/-- The text is one token of kind `k`. -/
def Single (k : TokenKind) (s : String) : Prop := ∀ line, Lexes line s.toList [⟨k, s, line⟩]

/-- A string with its closing quote. -/
def isClosed (s : String) : Bool := s.toList.tail.getLast? == some '\''

/-! ## Where a token ends -/

variable {rest : List Char}

theorem stops_isNameTail (h : Stops isNameChar rest) : Stops isNameTail rest := by
  intro c hc
  have := h c hc
  simp only [isNameChar, Bool.or_eq_false_iff] at this
  exact this.1

theorem stops_isDigit (h : Stops isNameChar rest) : Stops Char.isDigit rest := by
  intro c hc
  have := stops_isNameTail h c hc
  simp only [isNameTail, Char.isAlphanum, Bool.or_eq_false_iff] at this
  exact this.1.2

theorem isNameHead_of_isDigit {c : Char} (h : c.isDigit = true) : isNameHead c = false := by
  have hletter : c.isAlpha = false := by
    delta Char.isAlpha Char.isUpper Char.isLower Char.isDigit at *
    simp [UInt32.le_iff_toNat_le] at *
    omega
  have hne : c ≠ '_' := by
    rintro rfl
    revert h
    decide
  simp [isNameHead, hletter, hne]

/-! ## Names -/

theorem scopes_stops (h : Stops isNameChar rest) : scopes rest = ([], rest) := by
  unfold scopes
  split
  · exact absurd (h ':' rfl) (by decide)
  · rfl

/-- A colon by itself starts no scope. -/
theorem scopes_colon (h : Stops isNameChar rest) : scopes (':' :: rest) = ([], ':' :: rest) := by
  unfold scopes
  split
  · rename_i heq
    obtain ⟨-, rfl⟩ := List.cons.inj heq
    exact absurd (h ':' rfl) (by decide)
  · rfl

/-- Scopes start with a colon, if there are any. -/
theorem Scoping.stops {s : List Char} (hs : Scoping s) (h : Stops isNameChar rest) :
    Stops isNameTail (s ++ rest) := by
  cases hs with
  | nil => exact stops_isNameTail h
  | cons => exact stops_cons (by decide) _

theorem Scoping.scopes_append {s : List Char} (hs : Scoping s) (h : Stops isNameChar rest) :
    scopes (s ++ rest) = (s, rest) := by
  induction hs with
  | nil => exact scopes_stops h
  | cons head tail hs ih =>
    have hstops := hs.stops h
    simp only [List.cons_append, List.append_assoc]
    rw [scopes]
    simp only [head, if_true, takeWhile_append_stops tail hstops,
      dropWhile_append_stops tail hstops, ih, List.cons_append]

/-! ## Any token -/

theorem not_isClosed_of_unclosed {s : String} (h : Unclosed s.toList) : isClosed s = false := by
  obtain ⟨a, ha, hbody⟩ := h
  rw [isClosed, ha, List.tail_cons, beq_eq_false_iff_ne]
  intro hlast
  exact absurd (hbody _ (List.mem_of_getLast? hlast)) (by decide)

theorem first_mark {c : Char} (hc : isPunctChar c = true)
    (hcolon : c = ':' → (scopes (c :: rest)).1 = []) :
    first c rest = (.token .punct [c], rest) := by
  have hnot : isNameHead c = false ∧ c.isDigit = false ∧ c ≠ '/' ∧ c ≠ '\'' := by
    have hmarks : ['-', '>', '(', ')', '[', ']', ',', ';', '*', '&', '=', ':', '.'].all
        (fun d => !isNameHead d && (!d.isDigit && (d != '/' && d != '\''))) = true := by decide
    simpa using List.all_eq_true.1 hmarks c (List.contains_iff_mem.1 hc)
  obtain ⟨hhead, hdigit, hslash, hquote⟩ := hnot
  have hscopes : ¬(c = ':' ∧ (scopes (c :: rest)).1 ≠ []) := fun h => h.2 (hcolon h.1)
  simp [first, hslash, hquote, hhead, hscopes, hdigit, hc]

theorem Named.exists_first {w : List Char} (h : Named w) (hrest : Stops isNameChar rest) :
    ∃ c r, w = c :: r ∧
      first c (r ++ rest) = (.token (wordKind (String.ofList w)) w, rest) := by
  cases h with
  | @word c r s head tail scoping =>
    refine ⟨c, r ++ s, rfl, ?_⟩
    have hstops := scoping.stops hrest
    have hname : name c (r ++ (s ++ rest)) = (c :: (r ++ s), rest) := by
      simp only [name, takeWhile_append_stops tail hstops, dropWhile_append_stops tail hstops,
        scoping.scopes_append hrest, List.cons_append]
    have hne : c ≠ '/' ∧ c ≠ '\'' := by
      constructor <;>
      · rintro rfl
        revert head
        decide
    simp [first, hne, head, hname]
  | path scoping ne =>
    obtain ⟨r, rfl⟩ := scoping.exists_eq_cons ne
    have hscopes := scoping.scopes_append hrest
    rw [List.cons_append] at hscopes
    exact ⟨':', r, rfl, by simp [first, hscopes, show isNameHead ':' = false by decide]⟩

/-- A whole token is read where nothing behind it goes on with it. -/
theorem Whole.exists_first {k : TokenKind} {text : List Char} (h : Whole k text)
    (hrest : Stops isNameChar rest) :
    ∃ c r, text = c :: r ∧ first c (r ++ rest) = (.token k text, rest) := by
  cases h with
  | name named hkind => exact hkind ▸ named.exists_first hrest
  | number ne digits hkind =>
    obtain ⟨c, r, rfl⟩ := List.exists_cons_of_ne_nil ne
    obtain ⟨head, tail⟩ := List.forall_mem_cons.1 digits
    refine ⟨c, r, rfl, ?_⟩
    have hne : c ≠ '/' ∧ c ≠ '\'' ∧ c ≠ ':' := by
      refine ⟨?_, ?_, ?_⟩ <;>
      · rintro rfl
        revert head
        decide
    simp [first, hne, isNameHead_of_isDigit head, head, hkind,
      takeWhile_append_stops tail (stops_isDigit hrest),
      dropWhile_append_stops tail (stops_isDigit hrest)]
  | quoted a body htext hkind =>
    subst htext
    exact ⟨'\'', a ++ ['\''], rfl, by simp [first, string_closed body, hkind]⟩
  | mark c hmark htext hkind =>
    subst htext
    refine ⟨c, [], rfl, ?_⟩
    rw [hkind]
    refine first_mark hmark ?_
    rintro rfl
    rw [List.nil_append, scopes_colon hrest]

theorem Whole.single {k : TokenKind} {s : String} (h : Whole k s.toList) : Single k s := by
  intro line rest hrest
  obtain ⟨c, r, htext, hfirst⟩ := h.exists_first hrest
  rw [htext, List.cons_append, tokens, hfirst]
  simp

/-- **A token that was read once is read again.** -/
theorem single_of_mem {line : Int} {cs : List Char} {t : Token} (ht : t ∈ tokens line cs)
    (hclosed : t.kind = .string → isClosed t.text = true) : Single t.kind t.text := by
  rcases spelled_of_mem ht with hwhole | ⟨hk, hopen⟩
  · exact hwhole.single
  · exact absurd (hclosed hk) (by simp [not_isClosed_of_unclosed hopen])

/-! ## Pieces of text -/

variable {line : Int} {s s' : List Char} {ts ts' : List Token}

theorem cuts_nil : Cuts line [] [] := fun _ => rfl

theorem Cuts.append (h : Cuts line s ts) (h' : Cuts line s' ts') :
    Cuts line (s ++ s') (ts ++ ts') := by
  intro rest
  rw [List.append_assoc, h, h', List.append_assoc]

theorem Cuts.lexes (h : Cuts line s ts) (h' : Lexes line s' ts') :
    Lexes line (s ++ s') (ts ++ ts') := by
  intro rest hrest
  rw [List.append_assoc, h, h' rest hrest, List.append_assoc]

/-- A piece ends where the next one does not start with a character of a name. -/
theorem Lexes.cuts {c : Char} (h : Lexes line s ts) (h' : Cuts line (c :: s') ts')
    (hc : isNameChar c = false) : Cuts line (s ++ c :: s') (ts ++ ts') := by
  intro rest
  rw [List.append_assoc, List.cons_append, h _ (stops_cons hc _), ← List.cons_append, h',
    List.append_assoc]

/-- A blank or the end of a line is passed over. -/
theorem cuts_blank {c : Char} (hc : c = ' ' ∨ c = '\n') : Cuts line [c] [] := by
  intro rest
  rcases hc with rfl | rfl <;> rw [List.singleton_append, tokens] <;> rfl

/-- A mark is a token by itself. The colon is not, since it can start a name. -/
theorem cuts_mark {c : Char} (hc : isPunctChar c = true) (hcolon : c ≠ ':') :
    Cuts line [c] [⟨.punct, String.ofList [c], line⟩] := by
  intro rest
  rw [List.singleton_append, tokens, first_mark hc (absurd · hcolon)]
  rfl

end MexBridge.Token
