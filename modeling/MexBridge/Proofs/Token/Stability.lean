import MexBridge.Proofs.Token.Coverage

/-!
# Tokens and their own text

Tokens that are written one after the other, with single blanks between them, are read again as they
were. A list of tokens is `Orderly` if each of them is spelled as its kind asks, and only the last
one may be a string that is never closed. These are the lists that their own text gives back
(`reading_joined_iff`), and a body on one line has no others (`orderly_tokens`).
-/

namespace MexBridge.Token

/-- What a token says, wherever it stands. -/
def reading (t : Token) : TokenKind × String := (t.kind, t.text)

/-- The texts of the tokens, with single blanks between them. -/
def joined (ts : List Token) : List Char := [' '].intercalate (ts.map (·.text.toList))

/-- Tokens that can stand on one line. A string without its closing quote takes in all that comes
behind it. -/
inductive Orderly : List Token → Prop
  | nil : Orderly []
  | cons {t : Token} {ts : List Token} (whole : Whole t.kind t.text.toList) (rest : Orderly ts) :
      Orderly (t :: ts)
  | unclosed {t : Token} (kind : t.kind = .string) (text : Unclosed t.text.toList) : Orderly [t]

variable {line : Int} {ts us : List Token} {t : Token}

/-! ## Writing tokens down -/

@[simp] theorem joined_nil : joined [] = [] := rfl

@[simp] theorem joined_singleton (t : Token) : joined [t] = t.text.toList := by simp [joined]

@[simp] theorem joined_cons_cons (t u : Token) (ts : List Token) :
    joined (t :: u :: ts) = t.text.toList ++ ' ' :: joined (u :: ts) := by
  simp [joined, List.intercalate_cons_cons]

/-- The first token is read from the joined text, and then the others from theirs. -/
theorem tokens_joined_cons (h : Single t.kind t.text) (line : Int) (ts : List Token) :
    tokens line (joined (t :: ts)) = ⟨t.kind, t.text, line⟩ :: tokens line (joined ts) := by
  cases ts with
  | nil =>
    have hsingle := h line [] (fun _ hc => nomatch hc)
    simpa using hsingle
  | cons u us =>
    have hblank : tokens line (' ' :: joined (u :: us)) = tokens line (joined (u :: us)) :=
      cuts_blank (Or.inl rfl) _
    rw [joined_cons_cons, h line _ (stops_cons (by decide) _), hblank]
    rfl

theorem tokens_unclosed {s : String} (h : Unclosed s.toList) (line : Int) :
    tokens line s.toList = [⟨.string, s, line⟩] := by
  obtain ⟨a, ha, hbody⟩ := h
  have hstring : string (a ++ []) = ('\'' :: a, []) := string_open hbody fun _ hc => nomatch hc
  rw [List.append_nil] at hstring
  rw [ha, tokens, first_quote, hstring]
  simp [tokens, ← ha]

/-- **Orderly tokens are read again from their own text.** -/
theorem Orderly.reading_joined (h : Orderly ts) (line : Int) :
    (tokens line (joined ts)).map reading = ts.map reading := by
  induction h with
  | nil => simp [tokens]
  | cons whole rest ih =>
    rw [tokens_joined_cons whole.single, List.map_cons, List.map_cons, ih]
    rfl
  | @unclosed t kind text =>
    rw [joined_singleton, tokens_unclosed text]
    simp [reading, kind]

/-! ## Tokens of one line -/

theorem orderly_tokens (line : Int) {body : List Char} (h : '\n' ∉ body) :
    Orderly (tokens line body) := by
  fun_induction tokens line body with
  | case1 => exact .nil
  | case2 => exact .nil
  | case3 c r k text rest hfirst ih =>
    rw [hfirst] at ih ⊢
    obtain ⟨hsplit, hspelled⟩ := spelled_first hfirst
    have hrest : '\n' ∉ rest := fun hmem => h (hsplit ▸ List.mem_append_right _ hmem)
    rcases hspelled with hwhole | ⟨rfl, hopen, hend⟩
    · exact .cons (by simpa using hwhole) (ih hrest)
    · -- only the end of the line can stop the string, and the body has just the one line
      have hnil : rest = [] := by
        cases rest with
        | nil => rfl
        | cons d rest => exact absurd (List.mem_cons.2 (.inl (hend d rfl).symm)) hrest
      subst hnil
      rw [tokens]
      exact .unclosed rfl (by simpa using hopen)
  | case4 c r rest hfirst ih =>
    rw [hfirst] at ih ⊢
    obtain ⟨rfl, -⟩ := first_skip hfirst
    exact ih fun hmem => h (List.mem_cons_of_mem _ hmem)

/-- Where tokens stand has no part in their order. -/
theorem Orderly.of_reading_eq (h : Orderly us) (heq : us.map reading = ts.map reading) :
    Orderly ts := by
  induction h generalizing ts with
  | nil =>
    rw [List.map_nil, eq_comm, List.map_eq_nil_iff] at heq
    exact heq ▸ .nil
  | @cons u us whole rest ih =>
    obtain ⟨t, ts, rfl, ht, hts⟩ := List.map_eq_cons_iff.1 heq.symm
    obtain ⟨hkind, htext⟩ := Prod.mk.inj ht
    exact .cons (by rwa [hkind, htext]) (ih hts.symm)
  | @unclosed u kind text =>
    obtain ⟨t, ts, rfl, ht, hts⟩ := List.map_eq_cons_iff.1 heq.symm
    obtain ⟨hkind, htext⟩ := Prod.mk.inj ht
    rw [List.map_nil, List.map_eq_nil_iff] at hts
    subst hts
    exact .unclosed (hkind.trans kind) (by rwa [htext])

theorem newline_not_mem_joined (h : ∀ t ∈ ts, '\n' ∉ t.text.toList) : '\n' ∉ joined ts := by
  induction ts with
  | nil => simp
  | cons t ts ih =>
    obtain ⟨ht, hts⟩ := List.forall_mem_cons.1 h
    cases ts with
    | nil => simpa using ht
    | cons u us => simp [ht, ih hts]

/-- The joined text gives the tokens back exactly if they are orderly. -/
theorem reading_joined_iff (line : Int) (ts : List Token) :
    (tokens line (joined ts)).map reading = ts.map reading ↔ Orderly ts := by
  refine ⟨fun heq => ?_, fun h => h.reading_joined line⟩
  -- tokens that are read have no line ends in them, and neither has what they are read from
  have hline : ∀ t ∈ ts, '\n' ∉ t.text.toList := by
    intro t ht
    have hmem : reading t ∈ (tokens line (joined ts)).map reading :=
      heq ▸ List.mem_map_of_mem ht
    obtain ⟨u, hu, hread⟩ := List.mem_map.1 hmem
    obtain ⟨-, htext⟩ := Prod.mk.inj hread
    exact htext ▸ (tame_tokens hu).line
  exact (orderly_tokens line (newline_not_mem_joined hline)).of_reading_eq heq

/-- The tokens of a body on one line are read again, whatever they are, from their texts with single
blanks between them. Of a list of tokens this holds exactly if it is orderly. -/
theorem tokenizing_stable (line line' : Int) :
    (∀ body : List Char, '\n' ∉ body →
      (tokens line' (joined (tokens line body))).map reading = (tokens line body).map reading) ∧
    ∀ ts : List Token, (tokens line' (joined ts)).map reading = ts.map reading ↔ Orderly ts :=
  ⟨fun _ hbody => (orderly_tokens line hbody).reading_joined line', reading_joined_iff line'⟩

/-- Keywords, scopes cut by blanks, a number next to a name, colons, a string with `//` in it and one
that is never closed. -/
def mixedLine : List Char := "new a:: b::c 12ab ::d:'x // y'gpu@'open // ".toList

/-- What stands on the mixed line. On two lines an unclosed string can come first, and it would take
in what follows if both were joined. -/
theorem tokenizing_stable_mixedLine :
    '\n' ∉ mixedLine ∧
    (tokens 1 mixedLine).map reading
      = [(.new, "new"), (.ident, "a"), (.punct, ":"), (.punct, ":"), (.ident, "b::c"),
        (.number, "12"), (.ident, "ab"), (.ident, "::d"), (.punct, ":"), (.string, "'x // y'"),
        (.gpu, "gpu"), (.string, "'open // ")] ∧
    joined (tokens 1 mixedLine) = "new a : : b::c 12 ab ::d : 'x // y' gpu 'open // ".toList ∧
    (tokens 2 (joined (tokens 1 mixedLine))).map reading = (tokens 1 mixedLine).map reading ∧
    ¬ Orderly (tokens 1 "'a\nb".toList) := by
  have hline : '\n' ∉ mixedLine := by decide
  refine ⟨hline, by decide +kernel, by decide +kernel, (tokenizing_stable 1 2).1 _ hline, ?_⟩
  rw [← (tokenizing_stable 1 1).2]
  decide +kernel

end MexBridge.Token
