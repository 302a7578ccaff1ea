import MexBridge.Proofs.Source.Ending

/-!
# Where the lines of a source go

A line sends something to the C output, to the MATLAB output and to the reader of tokens: `LineAt`
says what, by the mark it starts with and by whether it stands in a block of C. A walk looks for one
mark after the other; they exclude each other, so the order does not matter
(`LineAt.share_classify`). What a whole source sends is what its lines send, one after the other
(`Walk.file_routes_lines`).
-/

namespace MexBridge

namespace SourceLine

/-! ## Marks -/

/-- The line starts with the mark, after blanks. -/
def hasMark (mark : String) (l : List Char) : Bool := mark.toList.isPrefixOf (l.dropWhile isIndent)

/-- What follows the mark. -/
def behind (mark : String) (l : List Char) : List Char := (l.dropWhile isIndent).drop mark.length

/-- Nothing but blanks and the end of the line. -/
def isVoid (cs : List Char) : Bool := cs.all fun c => isTrailing c || c == '\n'

/-- `$[` alone on a line. -/
def opensC (l : List Char) : Bool := hasMark "$[" l && isVoid (behind "$[" l)

/-- `$]` alone on a line, at the very start. -/
def closesC (l : List Char) : Bool := "$]".toList.isPrefixOf l && isVoid (l.drop 2)

/-- A line of MATLAB code has no mark. -/
def isPlain (l : List Char) : Bool :=
  !(hasMark "$" l || hasMark "#" l || hasMark "@" l || hasMark "//" l)

end SourceLine

open SourceLine

/-- A line of a source with its number, and whether a block of C is open there. -/
structure LineAt where
  number : Int
  inBlock : Bool
  text : List Char
deriving DecidableEq

/-- The lines of a text, whatever ends them. -/
def Text.linesOf (text : String) : List (List Char) := splitLines (unifyNewlines text.toList)

/-- The lines of a source, one after the other. -/
def lineup : Int → Bool → List (List Char) → List LineAt
  | _, _, [] => []
  | n, inBlock, l :: ls =>
    ⟨n, inBlock, l⟩ :: lineup (n + 1) (if inBlock then !closesC l else opensC l) ls

namespace LineAt

/-- What the C output gets: a line in a block, or what follows a `$`. -/
def c (l : LineAt) : List Char :=
  if l.inBlock then if closesC l.text then [] else l.text
  else if hasMark "$" l.text && !hasMark "$[" l.text then behind "$" l.text
  else []

/-- What the MATLAB output gets: a line of MATLAB code, or the blanks before a mark and the head of
a function. -/
def matlab (l : LineAt) : List Char :=
  if l.inBlock then []
  else if isPlain l.text then l.text
  else l.text.takeWhile isIndent
    ++ if hasMark "@function" l.text then
        "function".toList ++ Text.dropEnd isLineEnd (behind "@function" l.text) ++ ['\n']
      else []

/-- The tokens: those of a declaration, or one for the whole line. -/
def tokens (l : LineAt) : List Token :=
  if l.inBlock || hasMark "$[" l.text then []
  else if hasMark "#" l.text then
    Token.tokens l.number (Text.dropEnd isLineEnd (behind "#" l.text))
  else [.otherLine l.number]

/-- Outside blocks, the line includes nothing, and it opens a block if it starts as if it did. -/
def Regular (l : LineAt) : Prop :=
  l.inBlock = false → hasMark "@include" l.text = false ∧
    (hasMark "$[" l.text = true → opensC l.text = true)

instance (l : LineAt) : Decidable l.Regular := inferInstanceAs (Decidable (_ → _))

end LineAt

/-! ## Brackets of blocks -/

namespace SourceLine

variable {l cs : List Char}

/-- The end of a line is nowhere but at its end. -/
def IsLine (l : List Char) : Prop := '\n' ∉ l.dropLast

theorem isLine_splitLines (cs : List Char) : ∀ l ∈ Text.splitLines cs, IsLine l := by
  induction cs with
  | nil => simp [Text.splitLines]
  | cons c r ih =>
    unfold Text.splitLines
    by_cases hc : c = '\n'
    · rw [if_pos hc]
      exact List.forall_mem_cons.2 ⟨by simp [IsLine], ih⟩
    · rw [if_neg hc]
      cases hr : Text.splitLines r with
      | nil => simp [IsLine]
      | cons l ls =>
        rw [hr] at ih
        obtain ⟨hl, hls⟩ := List.forall_mem_cons.1 ih
        refine List.forall_mem_cons.2 ⟨?_, hls⟩
        cases l with
        | nil => simp [IsLine]
        | cons d l =>
          unfold IsLine at hl ⊢
          rw [List.dropLast_cons_of_ne_nil (by simp)]
          simp [hl, Ne.symm hc]

theorem IsLine.suffix {a b : List Char} (h : IsLine (a ++ b)) : IsLine b := by
  intro hb
  by_cases hne : b = []
  · simp [hne] at hb
  · refine h ?_
    rw [List.dropLast_append_of_ne_nil hne]
    exact List.mem_append_right _ hb

theorem isVoid_append (a b : List Char) : isVoid (a ++ b) = (isVoid a && isVoid b) :=
  List.all_append

/-- Behind an opener and its blanks stands at most the end of the line. -/
theorem isEmptyRest_eq (h : IsLine cs) : isEmptyRest cs = isVoid cs := by
  have hsplit : cs.takeWhile isTrailing ++ cs.dropWhile isTrailing = cs :=
    List.takeWhile_append_dropWhile
  have hblanks : isVoid (cs.takeWhile isTrailing) = true := by
    refine List.all_eq_true.2 fun c hc => ?_
    rw [List.all_eq_true.1 List.all_takeWhile c hc, Bool.true_or]
  have hvoid : isVoid cs = isVoid (cs.dropWhile isTrailing) := by
    calc isVoid cs = isVoid (cs.takeWhile isTrailing ++ cs.dropWhile isTrailing) := by rw [hsplit]
      _ = isVoid (cs.dropWhile isTrailing) := by rw [isVoid_append, hblanks, Bool.true_and]
  have hline : IsLine (cs.dropWhile isTrailing) := IsLine.suffix (hsplit.symm ▸ h)
  have hhead := List.head?_dropWhile_not isTrailing cs
  rw [hvoid, isEmptyRest]
  generalize cs.dropWhile isTrailing = rest at hline hhead ⊢
  cases rest with
  | nil => rfl
  | cons c rest =>
    have hc : isTrailing c = false := hhead
    by_cases hn : c = '\n'
    · subst hn
      cases rest with
      | nil => rfl
      | cons d rest => simp [IsLine] at hline
    · have hfalse : isVoid (c :: rest) = false := by simp [isVoid, hc, hn]
      rw [hfalse]
      split
      · simp_all
      · simp_all
      · rfl

theorem dropEnd_append_takeWhile (p : Char → Bool) (cs : List Char) :
    Text.dropEnd p cs ++ (cs.reverse.takeWhile p).reverse = cs := by
  rw [Text.dropEnd, ← List.reverse_append, List.takeWhile_append_dropWhile, List.reverse_reverse]

/-- Without the end of the line there is none left. -/
theorem newline_not_mem_dropEnd (h : IsLine cs) : '\n' ∉ Text.dropEnd isLineEnd cs := by
  intro hn
  have hsplit := dropEnd_append_takeWhile isLineEnd cs
  by_cases hend : (cs.reverse.takeWhile isLineEnd).reverse = []
  · -- Nothing was dropped, so the last character ends no line.
    rw [hend, List.append_nil] at hsplit
    rw [hsplit] at hn
    obtain ⟨front, c, rfl⟩ := cs.eq_nil_or_concat.resolve_left (List.ne_nil_of_mem hn)
    rw [List.concat_eq_append] at hend h hn
    have hc : isLineEnd c = false := by
      cases hc : isLineEnd c with
      | false => rfl
      | true => simp [hc] at hend
    rw [IsLine, List.dropLast_concat] at h
    rcases List.mem_append.1 hn with hn | hn
    · exact h hn
    · rw [← List.mem_singleton.1 hn] at hc
      cases hc
  · refine h ?_
    rw [← hsplit, List.dropLast_append_of_ne_nil hend]
    exact List.mem_append_left _ hn

/-- Behind a closer stand blanks up to the end of the line. -/
theorem all_dropEnd (h : IsLine cs) : (Text.dropEnd isLineEnd cs).all isTrailing = isVoid cs := by
  have hsplit := dropEnd_append_takeWhile isLineEnd cs
  have hend : isVoid (cs.reverse.takeWhile isLineEnd).reverse = true := by
    refine List.all_eq_true.2 fun c hc => ?_
    have hc : isLineEnd c = true :=
      List.all_eq_true.1 List.all_takeWhile c (List.mem_reverse.1 hc)
    rcases Bool.or_eq_true_iff.1 hc with hc | hc
    · simp [isTrailing, hc]
    · simp [hc]
  have hvoid : isVoid cs = isVoid (Text.dropEnd isLineEnd cs) := by
    calc isVoid cs
        = isVoid (Text.dropEnd isLineEnd cs ++ (cs.reverse.takeWhile isLineEnd).reverse) := by
          rw [hsplit]
      _ = isVoid (Text.dropEnd isLineEnd cs) := by rw [isVoid_append, hend, Bool.and_true]
  rw [hvoid, Bool.eq_iff_iff, isVoid, List.all_eq_true, List.all_eq_true]
  refine forall₂_congr fun c hc => ?_
  have hne : c ≠ '\n' := fun hn => newline_not_mem_dropEnd h (hn ▸ hc)
  simp [hne]

theorem dropEnd_cons {p : Char → Bool} {c : Char} (hc : p c = false) (cs : List Char) :
    Text.dropEnd p (c :: cs) = c :: Text.dropEnd p cs := by
  unfold Text.dropEnd
  rw [List.reverse_cons, List.dropWhile_append]
  split
  · rename_i hnone
    rw [List.isEmpty_iff.1 hnone, List.dropWhile_cons_of_neg (by simp [hc])]
    rfl
  · rw [List.reverse_append]
    rfl

/-- The end of a line is read over when a closer is looked for. -/
theorem isCloser_eq (h : IsLine l) : isCloser l = closesC l := by
  unfold isCloser closesC after?
  by_cases hmark : "$]".toList <+: l
  · obtain ⟨rest, rfl⟩ := hmark
    have hdrop : Text.dropEnd isLineEnd ("$]".toList ++ rest)
        = "$]".toList ++ Text.dropEnd isLineEnd rest := by
      change Text.dropEnd isLineEnd ('$' :: ']' :: rest) = '$' :: ']' :: Text.dropEnd _ rest
      rw [dropEnd_cons (by decide), dropEnd_cons (by decide)]
    rw [hdrop]
    exact all_dropEnd h.suffix
  · have hdrop : ¬ "$]".toList <+: Text.dropEnd isLineEnd l := fun hpre =>
      hmark (hpre.trans ⟨_, dropEnd_append_takeWhile isLineEnd l⟩)
    rw [← List.isPrefixOf_iff_prefix, Bool.not_eq_true] at hmark hdrop
    rw [hmark, hdrop]
    rfl

/-! ## Marks exclude each other -/

/-- What is known of the rest of a line by what it is taken for. -/
def Fits (cs : List Char) : SourceLine → Prop
  | .text => ∀ mark ∈ ["$", "#", "@", "//"], mark.toList.isPrefixOf cs = false
  | .brokenOpener => ∃ rest, cs = "$[".toList ++ rest ∧ isEmptyRest rest = false
  | .comment => ∃ rest, cs = "//".toList ++ rest
  | .function tail => ∃ rest, cs = "@function".toList ++ rest ∧ tail = Text.dropEnd isLineEnd rest
  | .include _ => "@include".toList.isPrefixOf cs = true
  | .redirect _ => (∃ rest, cs = '@' :: rest) ∧ "@function".toList.isPrefixOf cs = false
  | .code rest => cs = '$' :: rest ∧ "$[".toList.isPrefixOf cs = false
  | .opener => ∃ rest, cs = "$[".toList ++ rest ∧ isEmptyRest rest = true
  | .declaration body => ∃ rest, cs = '#' :: rest ∧ body = Text.dropEnd isLineEnd rest

theorem after_eq_some {word : String} {rest : List Char} (h : after? word cs = some rest) :
    cs = word.toList ++ rest := by
  unfold after? at h
  split at h
  · rename_i hpre
    cases h
    obtain ⟨rest, rfl⟩ := List.isPrefixOf_iff_prefix.1 hpre
    rw [← String.length_toList, List.drop_left]
  · cases h

theorem after_eq_none {word : String} (h : after? word cs = none) :
    word.toList.isPrefixOf cs = false := by
  unfold after? at h
  split at h
  · cases h
  · exact eq_false_of_ne_true ‹_›

theorem starts_eq_false {c : Char} (h : ∀ rest, cs = c :: rest → False) :
    [c].isPrefixOf cs = false := by
  refine eq_false_of_ne_true fun hpre => ?_
  obtain ⟨rest, hrest⟩ := List.isPrefixOf_iff_prefix.1 hpre
  exact h rest hrest.symm

theorem fits_classify (cs : List Char) : Fits cs (classify cs) := by
  unfold classify
  split
  · rename_i rest hrest
    split
    · exact ⟨rest, after_eq_some hrest, ‹_›⟩
    · exact ⟨rest, after_eq_some hrest, eq_false_of_ne_true ‹_›⟩
  · rename_i hopen
    split
    · rename_i hcomment
      obtain ⟨rest, hrest⟩ := Option.isSome_iff_exists.1 hcomment
      exact ⟨rest, after_eq_some hrest⟩
    · rename_i hcomment
      split
      · rename_i tail htail
        exact ⟨tail, after_eq_some htail, rfl⟩
      · rename_i hfunction
        split
        · rename_i name hname
          exact List.isPrefixOf_iff_prefix.2 ⟨name, (after_eq_some hname).symm⟩
        · split
          · exact ⟨⟨_, rfl⟩, after_eq_none hfunction⟩
          · exact ⟨rfl, after_eq_none hopen⟩
          · exact ⟨_, rfl, rfl⟩
          · rename_i hat hdollar hhash
            have hslash : after? "//" cs = none := by simpa using hcomment
            simp only [Fits, List.forall_mem_cons]
            exact ⟨starts_eq_false hdollar, starts_eq_false hhash, starts_eq_false hat,
              after_eq_none hslash, by simp⟩

theorem hasMark_append (mark : String) {rest : List Char}
    (h : l.dropWhile isIndent = mark.toList ++ rest) :
    hasMark mark l = true ∧ behind mark l = rest := by
  unfold hasMark behind
  rw [h, ← String.length_toList, List.drop_left]
  exact ⟨List.isPrefixOf_iff_prefix.2 (List.prefix_append _ _), rfl⟩

/-- A mark that starts as another one does is not there without it. -/
theorem hasMark_longer {mark long : String} (h : mark.toList <+: long.toList)
    (hmark : hasMark mark l = false) : hasMark long l = false := by
  refine eq_false_of_ne_true fun hlong => ?_
  have hpre := h.trans (List.isPrefixOf_iff_prefix.1 hlong)
  rw [hasMark, List.isPrefixOf_iff_prefix.2 hpre] at hmark
  cases hmark

/-- No mark is there that starts with another character. -/
theorem hasMark_other {mark : String} {m c : Char} {ms rest : List Char}
    (hmark : mark.toList = m :: ms) (h : l.dropWhile isIndent = c :: rest) (hne : m ≠ c) :
    hasMark mark l = false := by
  rw [hasMark, h, hmark, List.isPrefixOf_cons_cons, beq_false_of_ne hne, Bool.false_and]

end SourceLine

namespace LineAt

/-- What a line outside blocks sends, by what it is taken for; it includes no file, and it opens a
block if it starts so. -/
def share? (n : Int) (l : List Char) : SourceLine → Option (List Char × List Char × List Token)
  | .text => some (l, [], [.otherLine n])
  | .comment => some (l.takeWhile isIndent, [], [.otherLine n])
  | .function tail =>
    some (l.takeWhile isIndent ++ ("function".toList ++ tail ++ ['\n']), [], [.otherLine n])
  | .redirect _ => some (l.takeWhile isIndent, [], [.otherLine n])
  | .code rest => some (l.takeWhile isIndent, rest, [.otherLine n])
  | .opener => some (l.takeWhile isIndent, [], [])
  | .declaration body => some (l.takeWhile isIndent, [], Token.tokens n body)
  | .brokenOpener => none
  | .include _ => none

/-- **The marks exclude each other:** what a line is by the first mark that is looked for and found,
it is by any. -/
theorem share_classify {n : Int} {l : List Char} (hline : IsLine l)
    (hreg : Regular ⟨n, false, l⟩) :
    share? n l (classify (indent l).2)
        = some (matlab ⟨n, false, l⟩, c ⟨n, false, l⟩, tokens ⟨n, false, l⟩) ∧
      opensC l = decide (classify (indent l).2 = .opener) := by
  obtain ⟨hinc, hopener⟩ := hreg rfl
  have hfit : Fits (l.dropWhile isIndent) (classify (indent l).2) := fits_classify _
  have hline : IsLine (l.dropWhile isIndent) :=
    IsLine.suffix (a := l.takeWhile isIndent) (by rwa [List.takeWhile_append_dropWhile])
  have hblock : hasMark "$" l = false → hasMark "$[" l = false := hasMark_longer ⟨['['], rfl⟩
  have hfunction : hasMark "@" l = false → hasMark "@function" l = false :=
    hasMark_longer ⟨"function".toList, rfl⟩
  -- `Fits` tells a mark that is there; marks that start with another character are then not.
  generalize classify (indent l).2 = k at hfit ⊢
  cases k with
  | text =>
    have hdollar : hasMark "$" l = false := hfit "$" (by simp)
    have hhash : hasMark "#" l = false := hfit "#" (by simp)
    have hat : hasMark "@" l = false := hfit "@" (by simp)
    have hslash : hasMark "//" l = false := hfit "//" (by simp)
    simp [matlab, c, tokens, share?, isPlain, opensC, *]
  | brokenOpener =>
    obtain ⟨rest, hrest, hmore⟩ := hfit
    obtain ⟨hmark, hbehind⟩ := hasMark_append "$[" hrest
    have hopens := hopener hmark
    rw [opensC, hmark, hbehind, Bool.true_and, ← isEmptyRest_eq (hrest ▸ hline).suffix, hmore]
      at hopens
    cases hopens
  | comment =>
    obtain ⟨rest, hrest⟩ := hfit
    have hslash : hasMark "//" l = true := (hasMark_append "//" hrest).1
    have hdollar : hasMark "$" l = false := hasMark_other rfl hrest (by decide)
    have hhash : hasMark "#" l = false := hasMark_other rfl hrest (by decide)
    have hat : hasMark "@" l = false := hasMark_other rfl hrest (by decide)
    simp [matlab, c, tokens, share?, isPlain, opensC, *]
  | function tail =>
    obtain ⟨rest, hrest, rfl⟩ := hfit
    obtain ⟨hmark, hbehind⟩ := hasMark_append "@function" hrest
    have hat : hasMark "@" l = true := (hasMark_append "@" hrest).1
    have hdollar : hasMark "$" l = false := hasMark_other rfl hrest (by decide)
    have hhash : hasMark "#" l = false := hasMark_other rfl hrest (by decide)
    simp [matlab, c, tokens, share?, isPlain, opensC, *]
  | «include» name =>
    rw [show hasMark "@include" l = true from hfit] at hinc
    cases hinc
  | redirect target =>
    obtain ⟨⟨rest, hrest⟩, hmark⟩ := hfit
    have hmark : hasMark "@function" l = false := hmark
    have hat : hasMark "@" l = true := (hasMark_append "@" hrest).1
    have hdollar : hasMark "$" l = false := hasMark_other rfl hrest (by decide)
    have hhash : hasMark "#" l = false := hasMark_other rfl hrest (by decide)
    simp [matlab, c, tokens, share?, isPlain, opensC, *]
  | code rest =>
    obtain ⟨hrest, hmark⟩ := hfit
    have hmark : hasMark "$[" l = false := hmark
    obtain ⟨hdollar, hbehind⟩ := hasMark_append "$" hrest
    have hhash : hasMark "#" l = false := hasMark_other rfl hrest (by decide)
    have hat : hasMark "@" l = false := hasMark_other rfl hrest (by decide)
    simp [matlab, c, tokens, share?, isPlain, opensC, *]
  | opener =>
    obtain ⟨rest, hrest, hempty⟩ := hfit
    obtain ⟨hmark, hbehind⟩ := hasMark_append "$[" hrest
    have hdollar : hasMark "$" l = true := (hasMark_append "$" hrest).1
    have hat : hasMark "@" l = false := hasMark_other rfl hrest (by decide)
    have hvoid : isVoid rest = true := (isEmptyRest_eq (hrest ▸ hline).suffix).symm.trans hempty
    simp [matlab, c, tokens, share?, isPlain, opensC, *]
  | declaration body =>
    obtain ⟨rest, hrest, rfl⟩ := hfit
    obtain ⟨hhash, hbehind⟩ := hasMark_append "#" hrest
    have hdollar : hasMark "$" l = false := hasMark_other rfl hrest (by decide)
    have hat : hasMark "@" l = false := hasMark_other rfl hrest (by decide)
    simp [matlab, c, tokens, share?, isPlain, opensC, *]

end LineAt

namespace Walk

variable {w w' w'' : Walk (List Token)}

/-! ## What is sent -/

/-- From one walk to another by texts for the two outputs and tokens for the reader. -/
structure Sends (matlab c : List Char) (ts : List Token) (w w' : Walk (List Token)) : Prop where
  matlab : w'.desk.matlab.map (·.text) = w.desk.matlab.map (·.text ++ String.ofList matlab)
  c : w'.desk.c.map (·.text) = w.desk.c.map (·.text ++ String.ofList c)
  reader : w'.reader = w.reader ++ ts

theorem Sends.refl (w : Walk (List Token)) : Sends [] [] [] w w :=
  ⟨by simp, by simp, by simp⟩

theorem map_text_trans {o o' o'' : Option Sheet} {a b : List Char}
    (h : o'.map (·.text) = o.map (·.text ++ String.ofList a))
    (h' : o''.map (·.text) = o'.map (·.text ++ String.ofList b)) :
    o''.map (·.text) = o.map (·.text ++ String.ofList (a ++ b)) := by
  have hb (x : Option Sheet) : x.map (·.text ++ String.ofList b)
      = (x.map (·.text)).map (· ++ String.ofList b) := by simp [Function.comp_def]
  rw [h', hb, h, Option.map_map]
  simp [Function.comp_def, String.ofList_append, String.append_assoc]

theorem Sends.trans {a b c d : List Char} {ts us : List Token} (h : Sends a c ts w w')
    (h' : Sends b d us w' w'') : Sends (a ++ b) (c ++ d) (ts ++ us) w w'' :=
  ⟨map_text_trans h.matlab h'.matlab, map_text_trans h.c h'.c,
    by rw [h'.reader, h.reader, List.append_assoc]⟩

variable {a c : List Char} {ts : List Token}

theorem Sends.writeMatlab (h : Sends a c ts w w') (cs : List Char) :
    Sends (a ++ cs) c ts w (w'.onDesk (.writeMatlab (String.ofList cs))) := by
  refine ⟨map_text_trans h.matlab ?_, h.c, h.reader⟩
  simp [onDesk, Desk.writeMatlab, Sheet.write, Function.comp_def]

theorem Sends.writeC (h : Sends a c ts w w') (cs : List Char) :
    Sends a (c ++ cs) ts w (w'.onDesk (.writeC (String.ofList cs))) := by
  refine ⟨h.matlab, map_text_trans h.c ?_, h.reader⟩
  simp [onDesk, Desk.writeC, Sheet.write, Function.comp_def]

theorem Sends.nextLine (h : Sends a c ts w w') : Sends a c ts w (w'.onDesk .nextLine) :=
  ⟨h.matlab, h.c, h.reader⟩

theorem Sends.feed (h : Sends a c ts w w') (t : Token) :
    Sends a c (ts ++ [t]) w (w'.feed (collector false) t) := by
  refine ⟨h.matlab, h.c, ?_⟩
  rw [← List.append_assoc, ← h.reader]
  rfl

theorem Sends.passLine (h : Sends a c ts w w') :
    Sends a c (ts ++ [.otherLine w'.desk.line]) w (w'.passLine (collector false)) :=
  h.nextLine.feed _

theorem Sends.feedAll (h : Sends a c ts w w') (us : List Token) :
    Sends a c (ts ++ us) w (us.foldl (fun w t => w.feed (collector false) t) w') := by
  induction us generalizing w' ts with
  | nil => rwa [List.append_nil]
  | cons t us ih =>
    have := ih (h.feed t)
    rwa [List.append_assoc] at this

/-! ## Lines -/

theorem sends_openLine (inc : String → Walk (List Token) → Walk (List Token)) {l : List Char}
    (hhalt : w.halt = none)
    (hshare : LineAt.share? w.desk.line l (classify (SourceLine.indent l).2) = some (a, c, ts)) :
    Sends a c ts w (w.openLine (collector false) inc l) := by
  have hindent : Sends (l.takeWhile isIndent) [] [] w (w.indented l) :=
    (Sends.refl w).writeMatlab (l.takeWhile isIndent)
  unfold openLine
  dsimp only
  generalize classify (SourceLine.indent l).2 = k at hshare ⊢
  cases k with
  | text =>
    cases hshare
    exact ((Sends.refl w).writeMatlab _).passLine
  | brokenOpener => cases hshare
  | comment =>
    cases hshare
    exact hindent.passLine
  | function tail =>
    cases hshare
    have hhead : "function" ++ String.ofList tail ++ "\n"
        = String.ofList ("function".toList ++ tail ++ ['\n']) := by
      rw [String.ofList_append, String.ofList_append, String.ofList_toList]
    change Sends _ _ _ w ((w.indented l).functionLine _ tail)
    rw [functionLine_eq rfl (w := w.indented l) hhalt, hhead]
    exact (hindent.writeMatlab _).passLine
  | «include» name => cases hshare
  | redirect target =>
    cases hshare
    change Sends _ _ _ w ((w.indented l).redirectLine _ (String.ofList target))
    rw [redirectLine_eq rfl (w := w.indented l) hhalt]
    exact hindent.passLine
  | code rest =>
    cases hshare
    exact (hindent.writeC _).passLine
  | opener =>
    cases hshare
    exact ⟨hindent.matlab, hindent.c, hindent.reader⟩
  | declaration body =>
    cases hshare
    exact (hindent.feedAll _).nextLine

theorem sends_blockLine {l : List Char} (hline : IsLine l) (n : Int) :
    Sends (LineAt.matlab ⟨n, true, l⟩) (LineAt.c ⟨n, true, l⟩) (LineAt.tokens ⟨n, true, l⟩) w
      (w.blockLine l) := by
  unfold blockLine LineAt.c
  rw [isCloser_eq hline]
  dsimp only
  rw [if_pos rfl]
  have hnext : Sends [] [] [] w (w.onDesk .nextLine) := (Sends.refl w).nextLine
  split
  · exact ⟨hnext.matlab, hnext.c, hnext.reader⟩
  · exact hnext.writeC l

theorem collector_stays (listing : Bool) : (collector listing).Stays :=
  ⟨fun _ _ _ => rfl, fun _ _ _ => rfl⟩

/-- What one line leads to. -/
structure Passed (l : LineAt) (w w' : Walk (List Token)) : Prop where
  goes : w'.halt = none
  sends : Sends l.matlab l.c l.tokens w w'
  alike : w.desk.Alike w'.desk
  line : w'.desk.line = w.desk.line + 1
  inBlock : w'.inBlock = if w.inBlock then !closesC l.text else opensC l.text

theorem included_eq_none {l : List Char} (hline : IsLine l)
    (hreg : LineAt.Regular ⟨w.desk.line, w.inBlock, l⟩) : w.included? l = none := by
  unfold included?
  split
  · rfl
  · rename_i hopen
    have hshare := (LineAt.share_classify hline (eq_false_of_ne_true hopen ▸ hreg)).1
    split
    · rename_i hname
      rw [hname] at hshare
      cases hshare
    · rfl

/-- **A line is routed** by its mark, and by whether a block is open. -/
theorem passed_takeLine (inc : String → Walk (List Token) → Walk (List Token)) {l : List Char}
    (hhalt : w.halt = none) (hline : IsLine l) (hreg : LineAt.Regular ⟨w.desk.line, w.inBlock, l⟩) :
    Passed ⟨w.desk.line, w.inBlock, l⟩ w (w.takeLine (collector false) inc l) := by
  have hinc := included_eq_none hline hreg
  obtain ⟨hgoes, hblock⟩ := goes_takeLine inc (show (collector false).batching = false from rfl)
    hhalt hinc
  let s : Stop := ⟨"", w.desk.line.toNat, (-w.desk.line).toNat, w.inBlock, l⟩
  have hshown : s.shown = w.desk.line := by
    simp only [s, Stop.shown]
    omega
  have hmoved := (took_takeLine (collector_stays false) hhalt hshown rfl hinc).moved hgoes
  refine ⟨hgoes, ?_, alike_takeLine (collector_tidy false) hinc, hmoved.2, hblock.trans ?_⟩
  · cases hopen : w.inBlock with
    | true =>
      rw [takeLine, if_pos hopen]
      exact sends_blockLine hline _
    | false =>
      rw [takeLine, if_neg (by simp [hopen])]
      exact sends_openLine inc hhalt (LineAt.share_classify hline (hopen ▸ hreg)).1
  · unfold opensBlock
    split
    · rw [isCloser_eq hline]
    · rename_i hopen
      exact (LineAt.share_classify hline (eq_false_of_ne_true hopen ▸ hreg)).2.symm

/-- What a run of lines leads to. -/
structure Routed (ls : List LineAt) (w w' : Walk (List Token)) : Prop where
  goes : w'.halt = none
  sends : Sends (ls.flatMap (·.matlab)) (ls.flatMap (·.c)) (ls.flatMap (·.tokens)) w w'
  alike : w.desk.Alike w'.desk
  line : w'.desk.line = w.desk.line + ls.length

/-- **Lines are routed one after the other,** with the block that is open passed on. -/
theorem routed_lines (inc : String → Walk (List Token) → Walk (List Token)) (ls : List (List Char))
    (hhalt : w.halt = none) (hlines : ∀ l ∈ ls, IsLine l)
    (hreg : ∀ l ∈ lineup w.desk.line w.inBlock ls, l.Regular) :
    Routed (lineup w.desk.line w.inBlock ls) w (w.lines (collector false) inc ls) := by
  induction ls generalizing w with
  | nil => exact ⟨hhalt, .refl w, .refl _, (Int.add_zero _).symm⟩
  | cons l ls ih =>
    obtain ⟨hline, hlines⟩ := List.forall_mem_cons.1 hlines
    obtain ⟨hregl, hregs⟩ := List.forall_mem_cons.1 hreg
    have hstep := passed_takeLine inc hhalt hline hregl
    rw [← hstep.line, ← hstep.inBlock] at hregs
    have hrest := ih hstep.goes hlines hregs
    rw [hstep.line, hstep.inBlock] at hrest
    rw [lines_cons, if_neg (by simp [hhalt])]
    refine ⟨hrest.goes, ?_, hstep.alike.trans hrest.alike, ?_⟩
    · exact hstep.sends.trans hrest.sends
    · have hend := hrest.line
      rw [hstep.line] at hend
      rw [hend, lineup, List.length_cons]
      dsimp only
      omega

theorem lineup_take (n : Int) (b : Bool) (ls : List (List Char)) (k : Nat) :
    lineup n b (ls.take k) = (lineup n b ls).take k := by
  induction ls generalizing n b k with
  | nil => rw [List.take_nil, lineup, List.take_nil]
  | cons l ls ih =>
    cases k with
    | zero => rfl
    | succ k => exact congrArg _ (ih _ _ k)

/-- A file that no output is for is walked through as it lies. -/
theorem routed_content (inc : String → Walk (List Token) → Walk (List Token)) {p : Folder.Path}
    {text : String} (hhalt : w.halt = none) (hp : p ∉ w.desk.written)
    (htext : w.desk.folder.get? p = some text.toUTF8)
    (hreg : ∀ l ∈ lineup w.desk.line w.inBlock (Text.linesOf text), l.Regular) :
    Routed (lineup w.desk.line w.inBlock (Text.linesOf text)) w
      (w.content (collector false) inc p) := by
  have hread : Text.read text.toUTF8 = (Text.linesOf text, true) := by
    rw [Text.read, Text.decode_toUTF8]
    rfl
  have hlines : ∀ l ∈ Text.linesOf text, IsLine l := isLine_splitLines _
  have hheld : w.desk.folder.bytesFrom p 0 = text.toUTF8 := by
    unfold Folder.bytesFrom
    rw [htext]
    exact ByteArray.extract_zero_size
  -- The lines up to any one of them leave the file as it was.
  have hsteady : ∀ n,
      (w.lines (collector false) inc ((Text.read text.toUTF8).1.take n)).halt = none →
      (w.lines (collector false) inc
        ((Text.read text.toUTF8).1.take n)).desk.current.bytesFrom p 0 = text.toUTF8 := by
    intro n _
    rw [hread]
    have hsome := routed_lines inc ((Text.linesOf text).take n) hhalt
      (fun l hl => hlines l (List.mem_of_mem_take hl))
      (fun l hl => hreg l (List.mem_of_mem_take (lineup_take _ _ _ n ▸ hl)))
    rw [Desk.bytesFrom_current (by rwa [hsome.alike.written]), hsome.alike.folder, hheld]
  rw [content_eq hhalt hsteady, hread, andThen_self]
  exact routed_lines inc _ hhalt hlines hreg

/-- **The lines of a source go where their marks say.** With both outputs open, and a source that
includes no file and opens a block wherever a line starts like one that does, what the C output gets
is the lines in blocks and what follows the other `$`, in order; what the MATLAB output gets is the
lines without a mark, the blanks before marks and the heads of functions; what the reader gets is the
tokens of declarations and one for each other line outside blocks, but none for those that open
one. -/
theorem file_routes_lines {name : String} {p : Folder.Path} {text : String} {om oc : Sheet}
    (hhalt : w.halt = none) (hreader : w.reader = []) (hmatlab : w.desk.matlab = some om)
    (hc : w.desk.c = some oc) (hfind : w.desk.current.find name = .ok p) (hp : p ∉ w.desk.written)
    (htext : w.desk.folder.get? p = some text.toUTF8)
    (hreg : ∀ l ∈ lineup 1 false (Text.linesOf text), l.Regular) :
    let ls := lineup 1 false (Text.linesOf text)
    let out := w.file (collector false) name
    out.halt = none ∧
      out.desk.c.map (·.text) = some (oc.text ++ String.ofList (ls.flatMap (·.c))) ∧
      out.desk.matlab.map (·.text) = some (om.text ++ String.ofList (ls.flatMap (·.matlab))) ∧
      out.reader = ls.flatMap (·.tokens) ∧
      out.desk.line = 1 + ls.length := by
  intro ls out
  have hall := routed_content (w := { w.onDesk (.moveTo name 1) with inBlock := false })
    (included (collector false) maxDepth) hhalt hp htext hreg
  have hout : out = { w.onDesk (.moveTo name 1) with inBlock := false }.content (collector false)
      (included (collector false) maxDepth) p := by
    simp only [out, file, hfind]
  rw [← hout] at hall
  refine ⟨hall.goes, ?_, ?_, ?_, hall.line⟩
  · exact hall.sends.c.trans (congrArg _ hc)
  · exact hall.sends.matlab.trans (congrArg _ hmatlab)
  · exact hall.sends.reader.trans (congrArg (· ++ _) hreader)

/-- A source with all kinds of lines. -/
def mixedText : String :=
  "  $[ \nint f;\n $]\n$] \t\n$]x\n \t$ int g;\nx = 1;\n  // c\n # f();\n" ++
  " @function y = g(x)\n@ b.m\n$[\nlast"

def mixedWalk : Walk (List Token) :=
  { desk :=
      { folder := { files := [(["a.mw"], mixedText.toUTF8)] }, matlab := some {}, c := some {} }
    reader := [] }

/-- An opener is indented, a closer is not and has blanks behind it; a closer outside blocks is a
line of C, and the end of the source closes the last block. -/
theorem file_routes_lines_mixed :
    let out := mixedWalk.file (collector false) "a.mw"
    out.halt = none ∧
      out.desk.c.map (·.text) = some "int f;\n $]\n]x\n int g;\nlast" ∧
      out.desk.matlab.map (·.text) = some "   \tx = 1;\n    function y = g(x)\n" ∧
      out.reader = [5, 6, 7, 8].map .otherLine ++ Token.tokens 9 " f();".toList
        ++ [10, 11].map .otherLine ∧
      out.desk.line = 14 := by
  intro out
  obtain ⟨hhalt, hc, hmatlab, hreader, hline⟩ :=
    file_routes_lines (w := mixedWalk) rfl rfl rfl rfl
      (show mixedWalk.desk.current.find "a.mw" = .ok ["a.mw"] from rfl)
      (by simp [Desk.written, Desk.outputs, mixedWalk])
      (show mixedWalk.desk.folder.get? ["a.mw"] = some mixedText.toUTF8 from rfl)
      (by decide +kernel)
  refine ⟨hhalt, hc.trans ?_, hmatlab.trans ?_, hreader.trans ?_, hline.trans ?_⟩
  all_goals decide +kernel

end Walk

end MexBridge
