import MexBridge.Proofs.Token.Relexing

/-!
# What tokens leave over

A body is its tokens, one after the other, with single characters between them and a comment at
its end. `Laid` says so of a text, some tokens and the characters left over. What is left over are
blanks and the strays: characters outside the alphabet of tokens, where they stand in no string
(`exists_laid`). A stray is read like a blank (`tokens_blanked`), so every character of a body is
accounted for exactly if the body has no strays (`characters_accounted_iff`).
-/

namespace MexBridge.Token

/-! ## Characters of a body -/

/-- A blank between tokens. -/
def isBlank (c : Char) : Bool := c == ' ' || c == '\t' || c == '\r'

/-- A character of words, numbers and marks. -/
def isSolid (c : Char) : Bool := isNameTail c || isPunctChar c

/-- Outside the alphabet of tokens, and no blank. -/
def isStray (c : Char) : Bool := !isBlank c && !isSolid c && c != '\''

/-- The characters up to the first `//` outside strings, each with whether it stands in a string. A
string goes from quote to quote, or to the end of the line. -/
def characters : Bool → List Char → List (Char × Bool)
  | _, [] => []
  | inString, c :: r =>
    let inside := inString && c != '\n'
    if inside = false ∧ c = '/' ∧ r.head? = some '/' then []
    else (c, inside) :: characters (if c = '\'' then !inside else inside) r

/-- The body without its comment. -/
def declared (body : List Char) : List Char := (characters false body).map (·.1)

/-- A stray that stands in no string. -/
def isLoose (x : Char × Bool) : Bool := !x.2 && isStray x.1

/-- The characters outside the alphabet, strings and the comment apart. -/
def strays (body : List Char) : List Char := ((characters false body).filter isLoose).map (·.1)

/-- A loose character is made a blank; the end of a line stays, since it ends a string. -/
def blank (x : Char × Bool) : Char := if isLoose x && x.1 != '\n' then ' ' else x.1

/-- The body with blanks in place of its strays. -/
def blanked (body : List Char) : List Char := (characters false body).map blank

/-- The text is the texts of the tokens in order, with the characters left over among them. -/
inductive Laid : List Char → List Token → List Char → Prop
  | nil : Laid [] [] []
  | gap {cs : List Char} {ts : List Token} {left : List Char} (c : Char) (rest : Laid cs ts left) :
      Laid (c :: cs) ts (c :: left)
  | token {cs : List Char} {ts : List Token} {left : List Char} (t : Token)
      (rest : Laid cs ts left) : Laid (t.text.toList ++ cs) (t :: ts) left

/-- What is left over does not depend on where the tokens are found in the text. -/
theorem Laid.perm {cs left : List Char} {ts : List Token} (h : Laid cs ts left) :
    cs.Perm (ts.flatMap (·.text.toList) ++ left) := by
  induction h with
  | nil => exact .nil
  | gap c _ ih => exact (ih.cons c).trans List.perm_middle.symm
  | token t _ ih =>
    rw [List.flatMap_cons, List.append_assoc]
    exact ih.append_left _

/-! ## Runs of characters -/

variable {a r rest text : List Char} {c d : Char} {k : TokenKind}

theorem isSolid_of_isNameChar (h : isNameChar c = true) : isSolid c = true := by
  simp only [isNameChar, Bool.or_eq_true, beq_iff_eq] at h
  rcases h with h | rfl
  · simp [isSolid, h]
  · decide

theorem ne_of_isSolid (h : isSolid c = true) : c ≠ '\'' ∧ c ≠ '/' ∧ c ≠ '\n' := by
  refine ⟨?_, ?_, ?_⟩ <;>
  · rintro rfl
    revert h
    decide

theorem isStray_of_isSolid (h : isSolid c = true) : isStray c = false := by simp [isStray, h]

/-- Outside strings a character stands by itself, unless it opens one or starts a comment. -/
theorem characters_cons (hquote : c ≠ '\'') (hcomment : ¬(c = '/' ∧ r.head? = some '/')) :
    characters false (c :: r) = (c, false) :: characters false r := by
  simp [characters, hquote, hcomment]

theorem characters_solid (ha : ∀ c ∈ a, isSolid c = true) (r : List Char) :
    characters false (a ++ r) = a.map (·, false) ++ characters false r := by
  induction a with
  | nil => rfl
  | cons c a ih =>
    obtain ⟨hc, ha⟩ := List.forall_mem_cons.1 ha
    obtain ⟨hquote, hslash, -⟩ := ne_of_isSolid hc
    rw [List.cons_append, characters_cons hquote (fun h => hslash h.1), ih ha]
    rfl

theorem characters_quote (r : List Char) :
    characters false ('\'' :: r) = ('\'', false) :: characters true r := by
  simp [characters]

theorem characters_inside (ha : ∀ c ∈ a, isStringChar c = true) (r : List Char) :
    characters true (a ++ r) = a.map (·, true) ++ characters true r := by
  induction a with
  | nil => rfl
  | cons c a ih =>
    obtain ⟨hc, ha⟩ := List.forall_mem_cons.1 ha
    obtain ⟨hquote, hnewline⟩ : c ≠ '\'' ∧ c ≠ '\n' := by simpa [isStringChar] using hc
    have hinside : (true && c != '\n') = true := by simp [hnewline]
    rw [List.cons_append, characters, hinside, if_neg (by simp), if_neg hquote, ih ha]
    rfl

theorem characters_closed (r : List Char) :
    characters true ('\'' :: r) = ('\'', true) :: characters false r := by
  simp [characters]

/-- A string that is not closed ends where its line does. -/
theorem characters_open (h : ∀ c ∈ r.head?, c = '\n') : characters true r = characters false r := by
  cases r with
  | nil => rfl
  | cons c r =>
    obtain rfl := h c rfl
    simp [characters]

/-! ## Where a lexeme ends -/

theorem isSolid_of_isDigit (h : c.isDigit = true) : isSolid c = true := by
  simp [isSolid, isNameTail, Char.isAlphanum, h]

/-- A token that is no string is made of solid characters. -/
theorem first_solid (h : first c r = (.token k text, rest)) (hquote : c ≠ '\'') :
    c :: r = text ++ rest ∧ c ∈ text ∧ ∀ d ∈ text, isSolid d = true := by
  obtain ⟨hsplit, hspelled⟩ := spelled_first h
  have hfront {d : Char} {x : List Char} (htext : text = d :: x) : c = d := by
    rw [htext] at hsplit
    exact (List.cons.inj hsplit).1
  have hwhole : Whole k text := by
    refine hspelled.resolve_right ?_
    rintro ⟨-, ⟨a, htext, -⟩, -⟩
    exact hquote (hfront htext)
  obtain ⟨d, x, hx⟩ := List.exists_cons_of_ne_nil hwhole.ne_nil
  refine ⟨hsplit, by simp [hx, hfront hx], ?_⟩
  rcases hwhole with ⟨named, -⟩ | ⟨-, digits, -⟩ | ⟨a, -, htext, -⟩ | ⟨d, hd, htext, -⟩
  · exact fun d hd => isSolid_of_isNameChar (named.chars d hd)
  · exact fun d hd => isSolid_of_isDigit (digits d hd)
  · exact absurd (hfront htext) hquote
  · simp [htext, isSolid, hd]

/-- What is passed over is neither solid nor a quote. -/
theorem first_skip (h : first c r = (.skip, rest)) :
    rest = r ∧ isSolid c = false ∧ c ≠ '\'' ∧ ¬(c = '/' ∧ r.head? = some '/') := by
  revert h
  fun_cases first c r with
  | case7 hcomment hquote hhead hscopes hdigit hpunct =>
    rintro ⟨⟩
    refine ⟨rfl, ?_, hquote, hcomment⟩
    simp only [isNameHead, Bool.or_eq_true, not_or, Bool.not_eq_true] at hhead hdigit hpunct
    simp [isSolid, isNameTail, Char.isAlphanum, hhead, hdigit, hpunct]
  | _ => rintro ⟨⟩

theorem first_quote (r : List Char) :
    first '\'' r = (.token .string (string r).1, (string r).2) := by
  simp [first]

theorem first_comment (h : first c r = (.comment, rest)) : c = '/' ∧ r.head? = some '/' := by
  revert h
  fun_cases first c r with
  | case1 hcomment => exact fun _ => hcomment
  | _ => rintro ⟨⟩

/-! ## Tokens in the text -/

/-- The characters of a token come first, and none of them is loose. -/
theorem characters_first (h : first c r = (.token k text, rest)) :
    ∃ xs, characters false (c :: r) = xs ++ characters false rest ∧ xs.map (·.1) = text ∧
      ∀ x ∈ xs, isLoose x = false := by
  by_cases hquote : c = '\''
  · subst hquote
    have hstring : string r = (text, rest) := by
      rw [first_quote] at h
      cases h
      rfl
    obtain ⟨a, rest', ha, rfl | ⟨rfl, hrest⟩⟩ := exists_string r
    · rw [string_closed ha] at hstring
      cases hstring
      refine ⟨('\'', false) :: (a.map (·, true) ++ [('\'', true)]), ?_, ?_, ?_⟩
      · rw [characters_quote, characters_inside ha, characters_closed]
        simp
      · simp [Function.comp_def]
      · simp only [List.forall_mem_cons, List.forall_mem_append, List.forall_mem_map]
        exact ⟨by decide, fun _ _ => rfl, rfl, List.forall_mem_nil _⟩
    · rw [string_open ha hrest] at hstring
      cases hstring
      refine ⟨('\'', false) :: a.map (·, true), ?_, ?_, ?_⟩
      · rw [characters_quote, characters_inside ha, characters_open hrest]
        rfl
      · simp [Function.comp_def]
      · simp only [List.forall_mem_cons, List.forall_mem_map]
        exact ⟨by decide, fun _ _ => rfl⟩
  · obtain ⟨hsplit, -, hsolid⟩ := first_solid h hquote
    refine ⟨text.map (·, false), ?_, by simp [Function.comp_def], ?_⟩
    · rw [hsplit, characters_solid hsolid]
    · simp only [List.forall_mem_map]
      intro d hd
      simp [isLoose, isStray_of_isSolid (hsolid d hd)]

/-- Of a body the tokens leave over the blanks and the strays. -/
theorem exists_laid (line : Int) (body : List Char) :
    ∃ left, Laid (declared body) (tokens line body) left ∧
      left.filter (fun c => !isBlank c) = strays body := by
  fun_induction tokens line body with
  | case1 => exact ⟨[], .nil, rfl⟩
  | case2 c r rest h =>
    have hnone : characters false (c :: r) = [] := by simp [characters, first_comment h]
    simp only [declared, strays, hnone]
    exact ⟨[], .nil, rfl⟩
  | case3 c r k text rest h ih =>
    obtain ⟨left, hlaid, hleft⟩ := ih
    obtain ⟨xs, hxs, htext, hloose⟩ := characters_first h
    rw [h] at hlaid hleft
    have hfilter : xs.filter isLoose = [] := by simpa [List.filter_eq_nil_iff] using hloose
    refine ⟨left, ?_, by simp [strays, hxs, hfilter, hleft]⟩
    have hdeclared : declared (c :: r) = text ++ declared rest := by
      simp [declared, hxs, htext]
    rw [hdeclared, h]
    simpa using hlaid.token ⟨k, String.ofList text, line⟩
  | case4 c r rest h ih =>
    obtain ⟨left, hlaid, hleft⟩ := ih
    rw [h] at hlaid hleft ⊢
    obtain ⟨rfl, hsolid, hquote, hcomment⟩ := first_skip h
    have hcons := characters_cons hquote hcomment
    refine ⟨c :: left, ?_, ?_⟩
    · rw [declared, hcons]
      exact hlaid.gap c
    · have hstray : isStray c = !isBlank c := by simp [isStray, hsolid, hquote]
      rw [strays, hcons, List.filter_cons, List.filter_cons, hleft]
      cases hblank : isBlank c <;> simp [isLoose, hstray, hblank, strays]

/-! ## Strays as blanks -/

theorem blank_of_not_loose {x : Char × Bool} (h : isLoose x = false) : blank x = x.1 := by
  simp [blank, h]

theorem blank_eq (c : Char) : blank (c, false) = ' ' ∨ blank (c, false) = c := by
  unfold blank
  split
  · exact .inl rfl
  · exact .inr rfl

theorem blanked_append {xs : List (Char × Bool)}
    (h : characters false r = xs ++ characters false rest)
    (hxs : ∀ x ∈ xs, isLoose x = false) : blanked r = xs.map (·.1) ++ blanked rest := by
  rw [blanked, h, List.map_append, blanked]
  congr 1
  exact List.map_congr_left fun x hx => blank_of_not_loose (hxs x hx)

theorem blanked_solid (ha : ∀ c ∈ a, isSolid c = true) (r : List Char) :
    blanked (a ++ r) = a ++ blanked r := by
  have hloose : ∀ x ∈ a.map (·, false), isLoose x = false := by
    simp only [List.forall_mem_map]
    intro c hc
    simp [isLoose, isStray_of_isSolid (ha c hc)]
  have := blanked_append (characters_solid ha r) hloose
  simpa [Function.comp_def] using this

/-- A blanked body starts with a blank or as the body does. -/
theorem blanked_cons_cases (c : Char) (r : List Char) :
    blanked (c :: r) = [] ∨
      ∃ r', blanked (c :: r) = blank (c, false) :: r' ∧ (c ≠ '\'' → r' = blanked r) := by
  by_cases hquote : c = '\''
  · subst hquote
    exact .inr ⟨_, by rw [blanked, characters_quote, List.map_cons], fun h => absurd rfl h⟩
  by_cases hcomment : c = '/' ∧ r.head? = some '/'
  · exact .inl (by simp [blanked, characters, hcomment])
  · refine .inr ⟨blanked r, ?_, fun _ => rfl⟩
    rw [blanked, characters_cons hquote hcomment, List.map_cons, blanked]

theorem exists_of_blanked_eq_cons (h : blanked r = c :: rest) (hc : isSolid c = true) :
    ∃ r', r = c :: r' ∧ blanked r' = rest := by
  cases r with
  | nil => cases h
  | cons d r =>
    obtain hnil | ⟨r', hr', htail⟩ := blanked_cons_cases d r
    · rw [hnil] at h
      cases h
    rw [hr'] at h
    obtain ⟨hhead, rfl⟩ := List.cons.inj h
    rcases blank_eq d with hd | hd
    · rw [hd] at hhead
      rw [← hhead] at hc
      exact absurd hc (by decide)
    · rw [hd] at hhead
      subst hhead
      exact ⟨r, rfl, (htail (ne_of_isSolid hc).1).symm⟩

theorem stops_blanked {P : Char → Bool} (hP : P ' ' = false) (h : Stops P r) :
    Stops P (blanked r) := by
  cases r with
  | nil => exact h
  | cons d r =>
    obtain hnil | ⟨r', hr', -⟩ := blanked_cons_cases d r
    · rw [hnil]
      exact fun _ hc => nomatch hc
    · rw [hr']
      refine stops_cons ?_ r'
      rcases blank_eq d with hd | hd <;> rw [hd]
      · exact hP
      · exact h d rfl

/-- A run of solid characters is the same one in the blanked body. -/
theorem span_blanked {P : Char → Bool} (hP : ∀ c, P c = true → isSolid c = true) (r : List Char) :
    (blanked r).takeWhile P = r.takeWhile P ∧
      (blanked r).dropWhile P = blanked (r.dropWhile P) := by
  have hrun : ∀ c ∈ r.takeWhile P, P c = true := List.all_eq_true.1 List.all_takeWhile
  have hblank : P ' ' = false := by
    cases h : P ' ' with
    | false => rfl
    | true => exact absurd (hP ' ' h) (by decide)
  have hstops : Stops P (r.dropWhile P) := by
    intro c hc
    have := List.head?_dropWhile_not P r
    rw [Option.mem_def.1 hc] at this
    simpa using this
  have hsplit := blanked_solid (fun c hc => hP c (hrun c hc)) (r.dropWhile P)
  rw [List.takeWhile_append_dropWhile] at hsplit
  rw [hsplit]
  have := stops_blanked hblank hstops
  exact ⟨takeWhile_append_stops hrun this, dropWhile_append_stops hrun this⟩

theorem isSolid_of_isNameTail (h : isNameTail c = true) : isSolid c = true := by simp [isSolid, h]

theorem isSolid_of_isNameHead (h : isNameHead c = true) : isSolid c = true :=
  isSolid_of_isNameChar (isNameChar_of_head h)

theorem scopes_blanked_of_nil {cs : List Char} (h : (scopes cs).1 = []) :
    scopes (blanked cs) = ([], blanked cs) := by
  generalize hbs : blanked cs = bs
  fun_cases scopes bs with
  | case1 c r hc next =>
    -- solid characters of the blanked body were there before
    obtain ⟨cs₁, rfl, hcs₁⟩ := exists_of_blanked_eq_cons hbs (by decide)
    obtain ⟨cs₂, rfl, hcs₂⟩ := exists_of_blanked_eq_cons hcs₁ (by decide)
    obtain ⟨cs₃, rfl, -⟩ := exists_of_blanked_eq_cons hcs₂ (isSolid_of_isNameHead hc)
    rw [scopes] at h
    simp [hc] at h
  | case2 => rfl
  | case3 => rfl

theorem scopes_blanked (cs : List Char) :
    scopes (blanked cs) = ((scopes cs).1, blanked (scopes cs).2) := by
  fun_induction scopes cs with
  | case1 c r h next ih =>
    have hsolid : ∀ d ∈ [':', ':', c], isSolid d = true := by
      simp [isSolid_of_isNameHead h, show isSolid ':' = true by decide]
    have hfront := blanked_solid hsolid r
    obtain ⟨htake, hdrop⟩ := span_blanked (fun _ => isSolid_of_isNameTail) r
    simp only [List.cons_append, List.nil_append] at hfront
    rw [hfront, scopes]
    simp only [h, if_true, htake, hdrop, ih, next, List.cons_append]
  | case2 c r h =>
    refine scopes_blanked_of_nil ?_
    rw [scopes]
    simp [h]
  | case3 cs h =>
    refine scopes_blanked_of_nil ?_
    rw [scopes]
    exact h

theorem head_blanked_newline (h : ∀ c ∈ r.head?, c = '\n') : ∀ c ∈ (blanked r).head?, c = '\n' := by
  cases r with
  | nil => exact h
  | cons d r =>
    obtain rfl := h d rfl
    have hcons : blanked ('\n' :: r) = '\n' :: blanked r := by simp [blanked, characters, blank]
    simp [hcons]

theorem string_blanked {r' : List Char} (h : string r = (text, rest))
    (hr' : '\'' :: r' = text ++ blanked rest) : string r' = (text, blanked rest) := by
  obtain ⟨a, after, ha, rfl | ⟨rfl, hafter⟩⟩ := exists_string r
  · rw [string_closed ha] at h
    obtain ⟨rfl, rfl⟩ := Prod.mk.inj h
    obtain rfl : r' = a ++ '\'' :: blanked after := by simpa using hr'
    exact string_closed ha _
  · rw [string_open ha hafter] at h
    obtain ⟨rfl, rfl⟩ := Prod.mk.inj h
    obtain rfl : r' = a ++ blanked after := by simpa using hr'
    exact string_open ha (head_blanked_newline hafter)

/-- The blanked body starts with the same token. -/
theorem first_blanked (h : first c r = (.token k text, rest)) :
    ∃ r', blanked (c :: r) = c :: r' ∧ first c r' = (.token k text, blanked rest) := by
  by_cases hquote : c = '\''
  · subst hquote
    obtain ⟨xs, hxs, htext, hloose⟩ := characters_first h
    have hblanked := blanked_append hxs hloose
    rw [htext] at hblanked
    rw [first_quote] at h
    obtain ⟨hlexeme, hrest⟩ := Prod.mk.inj h
    obtain ⟨rfl, htext⟩ := Lexeme.token.inj hlexeme
    have hquote : blanked ('\'' :: r) = '\'' :: (characters true r).map blank := by
      rw [blanked, characters_quote, List.map_cons]
      rfl
    refine ⟨_, hquote, ?_⟩
    rw [first_quote, string_blanked (Prod.ext htext hrest) (hquote ▸ hblanked)]
  -- Outside strings a token has solid characters only, and these stay as they are.
  have hsolid : isSolid c = true := by
    obtain ⟨-, hmem, hsolid⟩ := first_solid h hquote
    exact hsolid c hmem
  have hcons : blanked (c :: r) = c :: blanked r :=
    blanked_solid (List.forall_mem_singleton.2 hsolid) r
  refine ⟨blanked r, hcons, ?_⟩
  have hslash : ∀ r : List Char, ¬(c = '/' ∧ r.head? = some '/') :=
    fun _ h => (ne_of_isSolid hsolid).2.1 h.1
  have hscopes := scopes_blanked (c :: r)
  have hname : name c (blanked r) = ((name c r).1, blanked (name c r).2) := by
    obtain ⟨htake, hdrop⟩ := span_blanked (fun _ => isSolid_of_isNameTail) r
    simp only [name, htake, hdrop, scopes_blanked]
  obtain ⟨htake, hdrop⟩ := span_blanked (fun _ => isSolid_of_isDigit) r
  rw [hcons] at hscopes
  rw [first, if_neg (hslash _), if_neg hquote]
  simp only [hname, hscopes, htake, hdrop]
  revert h
  fun_cases first c r with
  | case1 hcomment => rintro ⟨⟩
  | case2 hcomment h => exact absurd h hquote
  | case3 hcomment hquote hhead =>
    rintro ⟨⟩
    rw [if_pos hhead]
  | case4 hcomment hquote hhead hcolon =>
    rintro ⟨⟩
    rw [if_neg hhead, if_pos hcolon]
  | case5 hcomment hquote hhead hcolon hdigit =>
    rintro ⟨⟩
    rw [if_neg hhead, if_neg hcolon, if_pos hdigit]
  | case6 hcomment hquote hhead hcolon hdigit hpunct =>
    rintro ⟨⟩
    rw [if_neg hhead, if_neg hcolon, if_neg hdigit, if_pos hpunct]
  | case7 => rintro ⟨⟩

theorem tokens_of_not_solid (hsolid : isSolid c = false) (hquote : c ≠ '\'') (hslash : c ≠ '/')
    (line : Int) (r : List Char) : tokens line (c :: r) = tokens line r := by
  have hnot : ¬isSolid c = true := by simp [hsolid]
  have hhead : isNameHead c = false := Bool.eq_false_iff.2 fun h => hnot (isSolid_of_isNameHead h)
  have hdigit : c.isDigit = false := Bool.eq_false_iff.2 fun h => hnot (isSolid_of_isDigit h)
  have hpunct : isPunctChar c = false := (Bool.or_eq_false_iff.1 hsolid).2
  have hcolon : c ≠ ':' := by
    rintro rfl
    exact absurd hsolid (by decide)
  have hfirst : first c r = (.skip, r) := by
    simp [first, hslash, hquote, hhead, hcolon, hdigit, hpunct]
  rw [tokens, hfirst]

/-- **A stray is read like a blank.** -/
theorem tokens_blanked (line : Int) (body : List Char) :
    tokens line (blanked body) = tokens line body := by
  fun_induction tokens line body with
  | case1 => rw [show blanked [] = [] from rfl, tokens]
  | case2 c r rest h =>
    have hnone : blanked (c :: r) = [] := by simp [blanked, characters, first_comment h]
    rw [hnone, tokens]
  | case3 c r k text rest h ih =>
    obtain ⟨r', hr', hfirst⟩ := first_blanked h
    rw [h] at ih ⊢
    rw [hr', tokens, hfirst]
    simp only [ih]
  | case4 c r rest h ih =>
    rw [h] at ih ⊢
    obtain ⟨rfl, hsolid, hquote, hcomment⟩ := first_skip h
    have hcons : blanked (c :: rest) = blank (c, false) :: blanked rest := by
      rw [blanked, characters_cons hquote hcomment, List.map_cons]
      rfl
    rw [hcons, tokens_of_not_solid, ih]
    · rcases blank_eq c with hc | hc <;> rw [hc]
      · decide
      · exact hsolid
    · rcases blank_eq c with hc | hc <;> rw [hc]
      · decide
      · exact hquote
    · -- a slash is a stray by itself
      intro hslash
      rcases blank_eq c with hc | hc <;> rw [hc] at hslash
      · exact absurd hslash (by decide)
      · subst hslash
        exact absurd hc (by decide)

/-- A body without strays is laid out with nothing but blanks between its tokens, and no other body
is: a stray stands in no token, and the tokens are those of the body with blanks for its strays. -/
theorem characters_accounted_iff (line : Int) (body : List Char) :
    ((∃ left, Laid (declared body) (tokens line body) left ∧ ∀ c ∈ left, isBlank c = true) ↔
      strays body = []) ∧
    (∃ left, Laid (declared body) (tokens line body) left ∧
      left.filter (fun c => !isBlank c) = strays body) ∧
    tokens line body = tokens line (blanked body) := by
  refine ⟨⟨?_, fun h => ?_⟩, exists_laid line body, (tokens_blanked line body).symm⟩
  · rintro ⟨left, hlaid, hblank⟩
    obtain ⟨left', hlaid', hstrays⟩ := exists_laid line body
    have hperm : left.Perm left' :=
      (List.perm_append_left_iff _).1 (hlaid.perm.symm.trans hlaid'.perm)
    rw [← hstrays, List.filter_eq_nil_iff]
    intro c hc
    simp [hblank c (hperm.mem_iff.2 hc)]
  · obtain ⟨left, hlaid, hstrays⟩ := exists_laid line body
    rw [h, List.filter_eq_nil_iff] at hstrays
    exact ⟨left, hlaid, by simpa using hstrays⟩

/-- A declaration with an `@` is accepted as if it had none. -/
theorem at_sign_ignored :
    '@' ∈ declared "f(int@ x);".toList ∧
    (∀ t ∈ tokens 1 "f(int@ x);".toList, '@' ∉ t.text.toList) ∧
    strays "f(int@ x);".toList = ['@'] ∧
    tokens 1 "f(int@ x);".toList = tokens 1 "f(int x);".toList ∧
    (Statement.parse "a.mw" (tokens 1 "f(int@ x);".toList)).isOk = true := by
  decide +kernel

end MexBridge.Token
