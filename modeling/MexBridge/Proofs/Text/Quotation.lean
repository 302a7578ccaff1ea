import MexBridge.Proofs.Stub.Sources

/-!
# Literals and comments in C text

A C text is read one character at a time for the string literals and the comments it holds
(`CText.run`). A literal counts as the characters it denotes, a comment as those between its marks.
Numeric escapes, trigraphs and lines joined by a backslash are not followed.

A `Quote` is a text that is put between the marks of a literal or a comment as it is. It is read
back as it was meant exactly if it is `Safe`: no character of a literal ends or changes it, and no
closing mark stands in a comment. `Reads` says this of a whole text and all quotes in it, and goes
from texts to the texts put together from them.
-/

namespace MexBridge.CText

/-! ## Reading -/

/-- What is found in a text. -/
inductive Item where
  | literal (text : List Char)
  | comment (text : List Char)
deriving DecidableEq, Repr

/-- What the characters before have left open. -/
inductive Mode where
  | code
  /-- After a `/` in code. -/
  | slash
  | literal (text : List Char)
  /-- After a `\` in a literal. -/
  | escape (text : List Char)
  | comment (text : List Char)
  /-- After a `*` in a comment. -/
  | star (text : List Char)
  /-- In a comment up to the end of the line. -/
  | line
  /-- In a character constant. -/
  | character
  | characterEscape
  /-- No C text goes on like this. -/
  | broken
deriving DecidableEq, Repr

/-- The character that `\` and another one denote. -/
def escaped? : Char → Option Char
  | 'n' => some '\n'
  | 't' => some '\t'
  | 'r' => some '\r'
  | 'a' => some '\x07'
  | 'b' => some '\x08'
  | 'f' => some '\x0c'
  | 'v' => some '\x0b'
  | '"' => some '"'
  | '\'' => some '\''
  | '\\' => some '\\'
  | '?' => some '?'
  | _ => none

/-- What a character of code opens. -/
def start (c : Char) : Mode :=
  if c = '"' then .literal []
  else if c = '\'' then .character
  else if c = '/' then .slash
  else .code

def step : Mode → Char → Mode × List Item
  | .code, c => (start c, [])
  | .slash, c => (if c = '*' then .comment [] else if c = '/' then .line else start c, [])
  | .literal t, c =>
    if c = '"' then (.code, [.literal t])
    else if c = '\\' then (.escape t, [])
    else if c = '\n' then (.broken, [])
    else (.literal (t ++ [c]), [])
  | .escape t, c => ((escaped? c).elim .broken fun d => .literal (t ++ [d]), [])
  | .comment t, c => (if c = '*' then .star t else .comment (t ++ [c]), [])
  | .star t, c =>
    if c = '/' then (.code, [.comment t])
    else (if c = '*' then .star (t ++ ['*']) else .comment (t ++ ['*', c]), [])
  | .line, c => (if c = '\n' then .code else .line, [])
  | .character, c =>
    (if c = '\'' then .code
      else if c = '\\' then .characterEscape
      else if c = '\n' then .broken
      else .character, [])
  | .characterEscape, c => (if c = '\n' then .broken else .character, [])
  | .broken, _ => (.broken, [])

/-- What is open at the end of a text, and what was found on the way. -/
def run : Mode → List Char → Mode × List Item
  | m, [] => (m, [])
  | m, c :: cs =>
    let next := step m c
    let rest := run next.1 cs
    (rest.1, next.2 ++ rest.2)

def read (text : String) : Mode × List Item := run .code text.toList

theorem run_cons (m : Mode) (c : Char) (cs : List Char) :
    run m (c :: cs) = ((run (step m c).1 cs).1, (step m c).2 ++ (run (step m c).1 cs).2) := rfl

theorem run_append (m : Mode) (as bs : List Char) :
    run m (as ++ bs)
      = ((run (run m as).1 bs).1, (run m as).2 ++ (run (run m as).1 bs).2) := by
  induction as generalizing m with
  | nil => simp [run]
  | cons a as ih => simp [run, ih]

theorem run_append_of_eq {m m' : Mode} {as : List Char} {is : List Item} (h : run m as = (m', is))
    (bs : List Char) : run m (as ++ bs) = ((run m' bs).1, is ++ (run m' bs).2) := by
  rw [run_append, h]

/-- Where nothing is found at a step, the step only changes what is open. -/
theorem run_cons_of_step {m n : Mode} {c : Char} (h : step m c = (n, [])) (cs : List Char) :
    run m (c :: cs) = run n cs := by
  rw [run_cons, h]
  rfl

theorem run_broken (cs : List Char) : run .broken cs = (.broken, []) := by
  induction cs with
  | nil => rfl
  | cons c cs ih => rw [run_cons_of_step rfl, ih]

/-! ## Quotes -/

/-- A text that is put into a literal or a comment. A newline that ends a literal is written as an
escape. -/
inductive Quote where
  | literal (text : String) (newline : Bool)
  | comment (text : String)
deriving DecidableEq, Repr

/-- The character stands for itself in a literal. -/
def isPlain (c : Char) : Bool := c != '"' && c != '\\' && c != '\n'

/-- The text stands for itself in a literal. -/
def Verbatim (s : String) : Prop := ∀ c ∈ s.toList, isPlain c = true

instance (s : String) : Decidable (Verbatim s) :=
  List.decidableBAll (fun c => isPlain c = true) s.toList

/-- No `*/` stands in the text. -/
def Sealed (cs : List Char) : Prop := ¬ ['*', '/'] <:+: cs

instance (cs : List Char) : Decidable (Sealed cs) :=
  inferInstanceAs (Decidable (¬ ['*', '/'] <:+: cs))

/-- How a literal is closed. -/
def closing (newline : Bool) : List Char := if newline then ['\\', 'n', '"'] else ['"']

/-- What the end of a literal denotes. -/
def ending (newline : Bool) : List Char := if newline then ['\n'] else []

namespace Quote

/-- The characters in the C text. -/
def written : Quote → List Char
  | .literal text newline => '"' :: (text.toList ++ closing newline)
  | .comment text => '/' :: '*' :: (text.toList ++ ['*', '/'])

/-- What is meant. -/
def item : Quote → Item
  | .literal text newline => .literal (text.toList ++ ending newline)
  | .comment text => .comment text.toList

def Safe : Quote → Prop
  | .literal text _ => Verbatim text
  | .comment text => Sealed text.toList

instance (q : Quote) : Decidable q.Safe :=
  match q with
  | .literal text _ => inferInstanceAs (Decidable (Verbatim text))
  | .comment text => inferInstanceAs (Decidable (Sealed text.toList))

end Quote

theorem verbatim_iff {s : String} :
    Verbatim s ↔ '"' ∉ s.toList ∧ '\\' ∉ s.toList ∧ '\n' ∉ s.toList := by
  constructor
  · intro h
    refine ⟨fun hc => ?_, fun hc => ?_, fun hc => ?_⟩ <;> simpa [isPlain] using h _ hc
  · rintro ⟨hquote, hescape, hline⟩ c hc
    have hne {x : Char} (hx : x ∉ s.toList) : c ≠ x := fun e => hx (e ▸ hc)
    simp [isPlain, hne hquote, hne hescape, hne hline]

theorem verbatim_append {s t : String} : Verbatim (s ++ t) ↔ Verbatim s ∧ Verbatim t := by
  rw [Verbatim, String.toList_append, List.forall_mem_append]
  rfl

theorem verbatim_ofList {cs : List Char} (h : cs.all isPlain = true) :
    Verbatim (String.ofList cs) := by
  rw [Verbatim, String.toList_ofList]
  exact List.all_eq_true.1 h

theorem isPlain_of_isNameChar {c : Char} (h : isNameChar c = true) : isPlain c = true := by
  have hne {x : Char} (hx : isNameChar x = false) : c ≠ x := by
    rintro rfl
    rw [h] at hx
    cases hx
  simp [isPlain, hne (show isNameChar '"' = false by decide),
    hne (show isNameChar '\\' = false by decide), hne (show isNameChar '\n' = false by decide)]

theorem verbatim_of_isWord {s : String} (h : IsWord s) : Verbatim s :=
  fun c hc => isPlain_of_isNameChar (h c hc)

theorem isDigit_repr {n : Nat} {c : Char} (hc : c ∈ n.repr.toList) : c.isDigit = true :=
  Nat.isDigit_of_mem_toDigits (b := 10) (by decide) (by decide) (by simpa [Nat.repr] using hc)

/-- A number is written with digits, and perhaps a `-`. -/
theorem mem_int {k : Int} {c : Char} (hc : c ∈ (toString k).toList) :
    c = '-' ∨ isNameChar c = true := by
  have hnat {n : Nat} (hc : c ∈ n.repr.toList) : isNameChar c = true := by
    simp [isNameChar, Token.isNameTail, Char.isAlphanum, isDigit_repr hc]
  cases k with
  | ofNat n => exact Or.inr (hnat hc)
  | negSucc n =>
    have hminus : toString (Int.negSucc n) = "-" ++ (n + 1).repr := rfl
    rw [hminus, String.toList_append, List.mem_append] at hc
    exact hc.imp (fun hc => by simpa using hc) hnat

theorem verbatim_int (k : Int) : Verbatim (toString k) := by
  intro c hc
  rcases mem_int hc with rfl | hname
  · rfl
  · exact isPlain_of_isNameChar hname

/-- What holds of all characters of a joined text holds of those of its parts. -/
theorem forall_intercalate {P : Char → Prop} {sep : String} (hsep : ∀ c ∈ sep.toList, P c)
    {xs : List String} :
    (∀ c ∈ (sep.intercalate xs).toList, P c) ↔ ∀ x ∈ xs, ∀ c ∈ x.toList, P c := by
  induction xs with
  | nil => simp
  | cons x xs ih =>
    cases xs with
    | nil => simp
    | cons y ys =>
      rw [String.intercalate_cons_cons, String.toList_append, String.toList_append,
        List.forall_mem_append, List.forall_mem_append, List.forall_mem_cons, ih, and_assoc]
      exact and_congr_right fun _ => and_iff_right hsep

/-! ## Literals -/

theorem step_plain {c : Char} (h : isPlain c = true) (t : List Char) :
    step (.literal t) c = (.literal (t ++ [c]), []) := by
  have hc : (c ≠ '"' ∧ c ≠ '\\') ∧ c ≠ '\n' := by simpa [isPlain] using h
  simp [step, hc]

theorem run_closing (newline : Bool) (t : List Char) :
    run (.literal t) (closing newline) = (.code, [.literal (t ++ ending newline)]) := by
  cases newline <;> simp [closing, ending, run, step, escaped?]

/-- Plain characters are read as they are. -/
theorem run_literal {s : List Char} (h : ∀ c ∈ s, isPlain c = true) (newline : Bool)
    (t : List Char) :
    run (.literal t) (s ++ closing newline) = (.code, [.literal (t ++ (s ++ ending newline))]) := by
  induction s generalizing t with
  | nil => exact run_closing newline t
  | cons c s ih =>
    obtain ⟨hc, hs⟩ := List.forall_mem_cons.1 h
    rw [List.cons_append, run_cons_of_step (step_plain hc t), ih hs]
    simp

/-- An open literal is the first thing found, and starts with what was read of it. -/
theorem head?_run_literal {t : List Char} {cs : List Char} {i : Item}
    (h : (run (.literal t) cs).2.head? = some i ∨ (run (.escape t) cs).2.head? = some i) :
    ∃ u, i = .literal (t ++ u) := by
  induction cs generalizing t with
  | nil => simp [run] at h
  | cons c cs ih =>
    have longer {d : Char} (hd : (run (.literal (t ++ [d])) cs).2.head? = some i) :
        ∃ u, i = .literal (t ++ u) := by
      obtain ⟨u, rfl⟩ := ih (Or.inl hd)
      exact ⟨d :: u, by simp⟩
    rcases h with h | h
    · rw [run_cons] at h
      by_cases hquote : c = '"'
      · refine ⟨[], ?_⟩
        simp [step, hquote] at h
        simp [h]
      by_cases hescape : c = '\\'
      · exact ih (Or.inr (by simpa [step, hescape] using h))
      by_cases hline : c = '\n'
      · simp [step, hline, run_broken] at h
      · exact longer (by simpa [step, hquote, hescape, hline] using h)
    · rw [run_cons] at h
      cases hd : escaped? c with
      | none => simp [step, hd, run_broken] at h
      | some d => exact longer (by simpa [step, hd] using h)

/-- Two characters at the same place of a literal are the same. -/
theorem eq_of_head?_run {t u cs : List Char} {d e : Char}
    (h : (run (.literal (t ++ [d])) cs).2.head? = some (.literal (t ++ e :: u))) : e = d := by
  obtain ⟨v, hv⟩ := head?_run_literal (Or.inl h)
  simp only [Item.literal.injEq, List.append_assoc, List.append_cancel_left_eq,
    List.singleton_append, List.cons.injEq] at hv
  exact hv.1

theorem escaped?_eq_backslash {c : Char} (h : escaped? c = some '\\') : c = '\\' := by
  unfold escaped? at h
  split at h <;> first | rfl | simp at h

theorem backslashes_cons (k : Nat) (cs : List Char) :
    List.replicate k '\\' ++ '\\' :: cs = '\\' :: (List.replicate k '\\' ++ cs) := by
  induction k with
  | zero => rfl
  | succ k ih => rw [List.replicate_succ, List.cons_append, ih, List.cons_append]

/-- Where a `\` was meant and stands in the text, a second one has to follow, which is then missing
from what is read. -/
theorem backslash_of_head?_run {s t rest : List Char} {k : Nat} {newline : Bool}
    (h : (run (.escape t) (s ++ (closing newline ++ rest))).2.head?
      = some (.literal (t ++ '\\' :: (List.replicate k '\\' ++ (s ++ ending newline))))) :
    ∃ s', s = '\\' :: s' ∧
      (run (.literal (t ++ ['\\'])) (s' ++ (closing newline ++ rest))).2.head?
        = some (.literal (t ++ ['\\']
          ++ (List.replicate (k + 1) '\\' ++ (s' ++ ending newline)))) := by
  cases s with
  | nil =>
    cases newline with
    | false =>
      have hread : run (.escape t) ([] ++ (closing false ++ rest))
          = run (.literal (t ++ ['"'])) rest := rfl
      rw [hread] at h
      exact absurd (eq_of_head?_run h) (by decide)
    | true =>
      -- the `\` of the newline is taken for the second one, and an `n` is left
      have hread : run (.escape t) ([] ++ (closing true ++ rest))
          = run (.literal (t ++ ['\\'] ++ ['n'])) ('"' :: rest) := rfl
      have hmeant : ∃ e u, t ++ '\\' :: (List.replicate k '\\' ++ ([] ++ ending true))
          = t ++ ['\\'] ++ e :: u ∧ e ≠ 'n' := by
        cases k with
        | zero => exact ⟨'\n', [], by simp [ending], by decide⟩
        | succ k => exact ⟨'\\', _, by rw [List.append_cons]; rfl, by decide⟩
      obtain ⟨e, u, heq, hne⟩ := hmeant
      rw [hread, heq] at h
      exact absurd (eq_of_head?_run h) hne
  | cons d s =>
    cases hd : escaped? d with
    | none =>
      rw [List.cons_append, run_cons_of_step (n := .broken) (by simp [step, hd])] at h
      simp [run_broken] at h
    | some e =>
      rw [List.cons_append, run_cons_of_step (n := .literal (t ++ [e])) (by simp [step, hd])] at h
      obtain rfl := eq_of_head?_run h
      obtain rfl := escaped?_eq_backslash hd
      refine ⟨s, rfl, ?_⟩
      rw [h, List.cons_append, backslashes_cons, List.append_cons, List.replicate_succ]
      rfl

/-- What is read back as it was meant is plain. Once a `\` was read, the reading lags behind by `k`
characters that should all have been `\`, and never catches up. -/
theorem plain_of_head?_run {s t rest : List Char} {k : Nat} {newline : Bool}
    (h : (run (.literal t) (s ++ (closing newline ++ rest))).2.head?
      = some (.literal (t ++ (List.replicate k '\\' ++ (s ++ ending newline))))) :
    k = 0 ∧ ∀ c ∈ s, isPlain c = true := by
  induction hn : s.length using Nat.strongRecOn generalizing s t k with
  | ind n ih =>
  cases s with
  | nil =>
    rw [List.nil_append, run_append_of_eq (run_closing newline t)] at h
    have hlength := congrArg List.length (Item.literal.inj (Option.some.inj h))
    simp only [List.length_append, List.length_replicate, List.length_nil] at hlength
    exact ⟨by omega, by simp⟩
  | cons c s =>
    by_cases hquote : c = '"'
    · subst hquote
      have hlength := congrArg List.length (Item.literal.inj (Option.some.inj h))
      simp only [List.length_append, List.length_cons] at hlength
      omega
    by_cases hline : c = '\n'
    · subst hline
      rw [List.cons_append, run_cons_of_step (n := .broken) (by simp [step])] at h
      simp [run_broken] at h
    by_cases hescape : c = '\\'
    · subst hescape
      rw [List.cons_append, List.cons_append, backslashes_cons,
        run_cons_of_step (n := .escape t) (by simp [step])] at h
      obtain ⟨s', rfl, hread⟩ := backslash_of_head?_run h
      have hlag := (ih s'.length (by simp only [← hn, List.length_cons]; omega) hread rfl).1
      omega
    · have hplain : isPlain c = true := by simp [isPlain, hquote, hescape, hline]
      rw [List.cons_append, run_cons_of_step (step_plain hplain t)] at h
      cases k with
      | zero =>
        have hread : (run (.literal (t ++ [c])) (s ++ (closing newline ++ rest))).2.head?
            = some (.literal (t ++ [c] ++ (List.replicate 0 '\\' ++ (s ++ ending newline)))) := by
          simpa using h
        have hs := (ih s.length (by simp [← hn]) hread rfl).2
        exact ⟨rfl, List.forall_mem_cons.2 ⟨hplain, hs⟩⟩
      | succ k =>
        rw [List.replicate_succ, List.cons_append] at h
        exact absurd (eq_of_head?_run h) (Ne.symm hescape)

/-! ## Comments -/

theorem sealed_nil : Sealed [] := by decide

theorem sealed_cons {c : Char} {cs : List Char} :
    Sealed (c :: cs) ↔ (c = '*' → cs.head? ≠ some '/') ∧ Sealed cs := by
  unfold Sealed
  rw [List.infix_cons_iff, not_or]
  refine and_congr_left fun _ => ?_
  cases cs with
  | nil => simp
  | cons d ds => simp [List.cons_prefix_cons, eq_comm (a := '*'), eq_comm (a := '/')]

theorem sealed_of_notMem {cs : List Char} (h : '/' ∉ cs) : Sealed cs :=
  fun hmark => h (hmark.subset (by simp))

theorem sealed_append_right {as bs : List Char} (h : '*' ∉ as) :
    Sealed (as ++ bs) ↔ Sealed bs := by
  induction as with
  | nil => rfl
  | cons a as ih =>
    have hparts : '*' ≠ a ∧ '*' ∉ as := by simpa using h
    rw [List.cons_append, sealed_cons, ih hparts.2]
    exact and_iff_right fun e => absurd e.symm hparts.1

/-- No mark goes over text that holds no part of one. -/
theorem sealed_around {as ms bs : List Char} (hne : ms ≠ [])
    (hms : ∀ c ∈ ms, c ≠ '*' ∧ c ≠ '/') :
    Sealed (as ++ (ms ++ bs)) ↔ Sealed as ∧ Sealed bs := by
  have hstar : '*' ∉ ms := fun hc => (hms _ hc).1 rfl
  induction as with
  | nil =>
    rw [List.nil_append, sealed_append_right hstar]
    exact (and_iff_right sealed_nil).symm
  | cons a as ih =>
    have hhead : (as ++ (ms ++ bs)).head? ≠ some '/' ↔ as.head? ≠ some '/' := by
      cases as with
      | cons d ds => simp
      | nil =>
        obtain ⟨m, ms, rfl⟩ := List.exists_cons_of_ne_nil hne
        simp [(hms m (by simp)).2]
    rw [List.cons_append, sealed_cons, sealed_cons, hhead, and_assoc]
    exact and_congr_right fun _ => ih

theorem sealed_intercalate {xs : List String} :
    Sealed (", ".intercalate xs).toList ↔ ∀ x ∈ xs, Sealed x.toList := by
  induction xs with
  | nil => simp [sealed_nil]
  | cons x xs ih =>
    cases xs with
    | nil => simp
    | cons y ys =>
      rw [String.intercalate_cons_cons, String.toList_append, String.toList_append,
        List.append_assoc, sealed_around (by decide) (by simp), ih, List.forall_mem_cons (a := x)]

/-- A comment is closed by its own mark if no other stands in it. -/
theorem run_comment {s : List Char} (t : List Char) :
    (Sealed s → run (.comment t) (s ++ ['*', '/']) = (.code, [.comment (t ++ s)])) ∧
    (Sealed ('*' :: s) →
      run (.star t) (s ++ ['*', '/']) = (.code, [.comment (t ++ '*' :: s)])) := by
  induction s generalizing t with
  | nil => simp [run, step]
  | cons c s ih =>
    constructor
    · intro h
      by_cases hstar : c = '*'
      · subst hstar
        rw [List.cons_append, run_cons_of_step (n := .star t) (by simp [step]), (ih t).2 h]
      · rw [List.cons_append, run_cons_of_step (n := .comment (t ++ [c])) (by simp [step, hstar]),
          (ih _).1 (sealed_cons.1 h).2]
        simp
    · intro h
      obtain ⟨hslash, h⟩ := sealed_cons.1 h
      have hc : c ≠ '/' := by simpa using hslash
      by_cases hstar : c = '*'
      · subst hstar
        rw [List.cons_append, run_cons_of_step (n := .star (t ++ ['*'])) (by simp [step]),
          (ih _).2 h]
        simp
      · rw [List.cons_append,
          run_cons_of_step (n := .comment (t ++ ['*', c])) (by simp [step, hc, hstar]),
          (ih _).1 (sealed_cons.1 h).2]
        simp

/-- A mark inside closes a comment too early. -/
theorem head?_run_comment {s : List Char} (t rest : List Char) :
    (¬ Sealed s → ∃ u, (run (.comment t) (s ++ rest)).2.head? = some (.comment u) ∧
      u.length < t.length + s.length) ∧
    (¬ Sealed ('*' :: s) → ∃ u, (run (.star t) (s ++ rest)).2.head? = some (.comment u) ∧
      u.length < t.length + (s.length + 1)) := by
  induction s generalizing t with
  | nil =>
    have hstar : Sealed ['*'] := by decide
    exact ⟨fun h => absurd sealed_nil h, fun h => absurd hstar h⟩
  | cons c s ih =>
    constructor
    · intro h
      by_cases hstar : c = '*'
      · subst hstar
        rw [List.cons_append, run_cons_of_step (n := .star t) (by simp [step])]
        exact (ih t).2 h
      · rw [List.cons_append, run_cons_of_step (n := .comment (t ++ [c])) (by simp [step, hstar])]
        obtain ⟨u, hu, hlength⟩ :=
          (ih (t ++ [c])).1 fun hs => h (sealed_cons.2 ⟨by simp [hstar], hs⟩)
        exact ⟨u, hu, by simp at hlength ⊢; omega⟩
    · intro h
      by_cases hslash : c = '/'
      · subst hslash
        rw [List.cons_append, run_cons]
        exact ⟨t, by simp [step], by simp⟩
      have hopen : ¬ Sealed (c :: s) := fun hs => h (sealed_cons.2 ⟨by simp [hslash], hs⟩)
      by_cases hstar : c = '*'
      · subst hstar
        rw [List.cons_append, run_cons_of_step (n := .star (t ++ ['*'])) (by simp [step])]
        obtain ⟨u, hu, hlength⟩ := (ih (t ++ ['*'])).2 hopen
        exact ⟨u, hu, by simp at hlength ⊢; omega⟩
      · rw [List.cons_append,
          run_cons_of_step (n := .comment (t ++ ['*', c])) (by simp [step, hslash, hstar])]
        obtain ⟨u, hu, hlength⟩ :=
          (ih (t ++ ['*', c])).1 fun hs => hopen (sealed_cons.2 ⟨by simp [hstar], hs⟩)
        exact ⟨u, hu, by simp at hlength ⊢; omega⟩

/-! ## Texts with quotes -/

/-- The quotes of a text are found in it as they are meant, and nothing else is, if all are safe. If
not, then they are not all found, whatever follows the text. -/
structure Reads (text : String) (qs : List Quote) : Prop where
  found : (∀ q ∈ qs, q.Safe) → read text = (.code, qs.map Quote.item)
  missed : ¬ (∀ q ∈ qs, q.Safe) →
    ∀ rest, ¬ qs.map Quote.item <+: (run .code (text.toList ++ rest)).2

/-- So what is found tells if all quotes are safe. -/
theorem Reads.iff {text : String} {qs : List Quote} (h : Reads text qs) :
    read text = (.code, qs.map Quote.item) ↔ ∀ q ∈ qs, q.Safe := by
  refine ⟨fun hread => ?_, h.found⟩
  by_contra hsafe
  refine h.missed hsafe [] ?_
  rw [read] at hread
  simp only [List.append_nil, hread, List.prefix_rfl]

theorem reads_quote (q : Quote) : Reads (String.ofList q.written) [q] := by
  have hfirst {i : Item} {is : List Item} : [i] <+: is ↔ is.head? = some i := by
    cases is <;> simp [List.cons_prefix_cons, eq_comm]
  cases q with
  | literal text newline =>
    have hopen : run .code (Quote.literal text newline).written
        = run (.literal []) (text.toList ++ closing newline) := run_cons_of_step rfl _
    constructor
    · intro hsafe
      rw [read, String.toList_ofList, hopen]
      exact run_literal (by simpa [Quote.Safe, Verbatim] using hsafe) newline []
    · intro hsafe rest hfound
      refine hsafe ?_
      rw [List.map_singleton, hfirst, String.toList_ofList, Quote.written, List.cons_append,
        run_cons_of_step (n := .literal []) rfl, List.append_assoc] at hfound
      simpa [Quote.Safe, Verbatim] using (plain_of_head?_run (k := 0) hfound).2
  | comment text =>
    have hopen (rest : List Char) : run .code ('/' :: '*' :: (text.toList ++ rest))
        = run (.comment []) (text.toList ++ rest) := rfl
    constructor
    · intro hsafe
      rw [read, String.toList_ofList, Quote.written, hopen]
      exact (run_comment []).1 (by simpa [Quote.Safe] using hsafe)
    · intro hsafe rest hfound
      have hunsealed : ¬ Sealed text.toList := by simpa [Quote.Safe] using hsafe
      rw [List.map_singleton, hfirst, String.toList_ofList, Quote.written, List.cons_append,
        List.cons_append, List.append_assoc, hopen] at hfound
      obtain ⟨u, hu, hlength⟩ := (head?_run_comment [] (['*', '/'] ++ rest)).1 hunsealed
      rw [hu] at hfound
      cases hfound
      simp at hlength

/-- **Texts put together hold the quotes of both.** The second text need only read as it is meant if
the first does. -/
theorem Reads.append {s t : String} {qs rs : List Quote} (hs : Reads s qs)
    (ht : (∀ q ∈ qs, q.Safe) → Reads t rs) : Reads (s ++ t) (qs ++ rs) := by
  constructor
  · intro hsafe
    obtain ⟨hqs, hrs⟩ := List.forall_mem_append.1 hsafe
    have hread : run .code s.toList = _ := hs.found hqs
    rw [read, String.toList_append, run_append_of_eq hread, ← read, (ht hqs).found hrs]
    simp
  · intro hsafe rest hfound
    rw [String.toList_append, List.append_assoc, List.map_append] at hfound
    by_cases hqs : ∀ q ∈ qs, q.Safe
    · have hread : run .code s.toList = _ := hs.found hqs
      rw [run_append_of_eq hread, List.prefix_append_right_inj] at hfound
      exact (ht hqs).missed (fun hrs => hsafe (List.forall_mem_append.2 ⟨hqs, hrs⟩)) rest hfound
    · exact hs.missed hqs _ ((List.prefix_append ..).trans hfound)

theorem reads_empty : Reads "" [] := ⟨fun _ => rfl, fun h => absurd (by simp) h⟩

theorem reads_join {α : Type} {f : α → String} {g : α → List Quote} {xs : List α}
    (h : ∀ x ∈ xs, Reads (f x) (g x)) : Reads (String.join (xs.map f)) (xs.flatMap g) := by
  induction xs with
  | nil => exact reads_empty
  | cons x xs ih =>
    obtain ⟨hx, hxs⟩ := List.forall_mem_cons.1 h
    rw [List.map_cons, String.join_cons, List.flatMap_cons]
    exact hx.append fun _ => ih hxs

/-! ## Quiet text -/

/-- The character opens nothing. -/
def isQuiet (c : Char) : Bool := c != '"' && c != '\'' && c != '/'

/-- A text without quotes. -/
def Quiet (s : String) : Prop := ∀ c ∈ s.toList, isQuiet c = true

theorem quiet_literal {cs : List Char} (h : cs.all isQuiet = true) : Quiet (String.ofList cs) := by
  rw [Quiet, String.toList_ofList]
  exact List.all_eq_true.1 h

theorem Quiet.append {s t : String} (hs : Quiet s) (ht : Quiet t) : Quiet (s ++ t) := by
  rw [Quiet, String.toList_append]
  exact List.forall_mem_append.2 ⟨hs, ht⟩

theorem quiet_append_iff {s t : String} (hs : Quiet s) : Quiet (s ++ t) ↔ Quiet t :=
  ⟨fun h c hc => h c (by simp [hc]), hs.append⟩

theorem quiet_join {α : Type} {f : α → String} {xs : List α} (h : ∀ x ∈ xs, Quiet (f x)) :
    Quiet (String.join (xs.map f)) := by
  intro c hc
  rw [String.toList_join, List.mem_flatMap] at hc
  obtain ⟨text, htext, hc⟩ := hc
  obtain ⟨x, hx, rfl⟩ := List.mem_map.1 htext
  exact h x hx c hc

theorem quiet_of_isWord {s : String} (h : IsWord s) : Quiet s := by
  intro c hc
  have hne {x : Char} (hx : isNameChar x = false) : c ≠ x := h.ne hx c hc
  simp [isQuiet, hne (show isNameChar '"' = false by decide),
    hne (show isNameChar '\'' = false by decide), hne (show isNameChar '/' = false by decide)]

theorem quiet_int (k : Int) : Quiet (toString k) := by
  intro c hc
  rcases mem_int hc with rfl | hname
  · rfl
  · exact quiet_of_isWord (s := String.ofList [c]) (by simp [IsWord, hname]) c (by simp)

theorem run_quiet {cs : List Char} (h : ∀ c ∈ cs, isQuiet c = true) :
    run .code cs = (.code, []) := by
  induction cs with
  | nil => rfl
  | cons c cs ih =>
    obtain ⟨hc, hcs⟩ := List.forall_mem_cons.1 h
    have hmarks : (c ≠ '"' ∧ c ≠ '\'') ∧ c ≠ '/' := by simpa [isQuiet] using hc
    rw [run_cons_of_step (n := .code) (by simp [step, start, hmarks]), ih hcs]

theorem Quiet.reads {s : String} (h : Quiet s) : Reads s [] :=
  ⟨fun _ => run_quiet h, fun hnone => absurd (by simp) hnone⟩

theorem quiet_around {as bs : List Char} {t : String} (ha : as.all isQuiet = true) (ht : Quiet t)
    (hb : bs.all isQuiet = true) : Quiet (String.ofList as ++ t ++ String.ofList bs) :=
  ((quiet_literal ha).append ht).append (quiet_literal hb)

/-- Texts that read alike, whatever follows, hold the same quotes. -/
theorem reads_congr {s t : String} {qs : List Quote}
    (h : ∀ rest, run .code (s.toList ++ rest) = run .code (t.toList ++ rest)) :
    Reads s qs ↔ Reads t qs := by
  have hread : read s = read t := by simpa [read] using h []
  constructor
  · intro hs
    exact ⟨fun hsafe => hread ▸ hs.found hsafe, fun hsafe rest => h rest ▸ hs.missed hsafe rest⟩
  · intro ht
    exact ⟨fun hsafe => hread ▸ ht.found hsafe, fun hsafe rest => h rest ▸ ht.missed hsafe rest⟩

theorem reads_quiet_append {s t : String} {qs : List Quote} (h : Quiet s) :
    Reads (s ++ t) qs ↔ Reads t qs := by
  refine reads_congr fun rest => ?_
  rw [String.toList_append, List.append_assoc, run_append_of_eq (run_quiet h)]
  rfl

/-- A quote between quiet texts. -/
theorem reads_quote_in {s : String} (a : String) (q : Quote) (b : String)
    (h : s.toList = a.toList ++ (q.written ++ b.toList)) (ha : Quiet a) (hb : Quiet b) :
    Reads s [q] := by
  have hs : s = a ++ (String.ofList q.written ++ b) := by
    rw [← String.toList_inj, h]
    simp
  rw [hs, reads_quiet_append ha]
  exact (reads_quote q).append fun _ => hb.reads

/-- Neither `/*` nor `//` stands in the text. -/
def Uncommented (s : String) : Prop :=
  ¬ ['/', '*'] <:+: s.toList ∧ ¬ ['/', '/'] <:+: s.toList

instance (s : String) : Decidable (Uncommented s) :=
  inferInstanceAs (Decidable (¬ ['/', '*'] <:+: s.toList ∧ ¬ ['/', '/'] <:+: s.toList))

/-- Text that opens nothing leaves at most its last `/` open. -/
theorem run_uncommented {cs : List Char} (hquote : '"' ∉ cs) (hsingle : '\'' ∉ cs) :
    (¬ ['/', '*'] <:+: cs → ¬ ['/', '/'] <:+: cs →
      run .code cs = (.code, []) ∨ run .code cs = (.slash, [])) ∧
    (¬ ['/', '*'] <:+: '/' :: cs → ¬ ['/', '/'] <:+: '/' :: cs →
      run .slash cs = (.code, []) ∨ run .slash cs = (.slash, [])) := by
  induction cs with
  | nil => exact ⟨fun _ _ => Or.inl rfl, fun _ _ => Or.inr rfl⟩
  | cons c cs ih =>
    obtain ⟨hcode, hslash⟩ := ih (fun h => hquote (by simp [h])) fun h => hsingle (by simp [h])
    have hc : c ≠ '"' ∧ c ≠ '\'' :=
      ⟨fun e => hquote (by simp [e]), fun e => hsingle (by simp [e])⟩
    have hstart : run .code (c :: cs) = if c = '/' then run .slash cs else run .code cs := by
      rw [run_cons_of_step (n := if c = '/' then .slash else .code) (by simp [step, start, hc])]
      split <;> rfl
    have hboth (hstar : ¬ ['/', '*'] <:+: c :: cs) (hline : ¬ ['/', '/'] <:+: c :: cs) :
        run .code (c :: cs) = (.code, []) ∨ run .code (c :: cs) = (.slash, []) := by
      rw [hstart]
      split
      · rename_i hc
        exact hslash (hc ▸ hstar) (hc ▸ hline)
      · rw [List.infix_cons_iff, not_or] at hstar hline
        exact hcode hstar.2 hline.2
    refine ⟨hboth, fun hstar hline => ?_⟩
    rw [List.infix_cons_iff, not_or] at hstar hline
    have hc' : c ≠ '*' ∧ c ≠ '/' :=
      ⟨fun e => hstar.1 (by simp [e]), fun e => hline.1 (by simp [e])⟩
    have hsame : run .slash (c :: cs) = run .code (c :: cs) := by
      rw [run_cons, run_cons]
      simp [step, hc']
    rw [hsame]
    exact hboth hstar.2 hline.2

/-- A constant is passed over, if what follows does not make its last character open something. -/
theorem reads_constant_append {s b t : String} {qs : List Quote} (hquote : '"' ∉ s.toList)
    (hsingle : '\'' ∉ s.toList) (hs : Uncommented s) {d : Char} (hb : b.toList.head? = some d)
    (hd : d ≠ '*' ∧ d ≠ '/') : Reads (s ++ (b ++ t)) qs ↔ Reads (b ++ t) qs := by
  refine reads_congr fun rest => ?_
  have hsame : run .slash ((b ++ t).toList ++ rest) = run .code ((b ++ t).toList ++ rest) := by
    obtain ⟨ds, hds⟩ := List.head?_eq_some_iff.1 hb
    rw [String.toList_append, hds, List.cons_append, List.cons_append, run_cons, run_cons]
    simp [step, hd]
  rw [String.toList_append, List.append_assoc]
  rcases (run_uncommented hquote hsingle).1 hs.1 hs.2 with h | h
  · rw [run_append_of_eq h]
    rfl
  · rw [run_append_of_eq h, hsame]
    rfl

end MexBridge.CText
