import MexBridge.Text.Layout

/-!
# The lines of a text

A text is made of lines that each end in a newline, and of a last one that lacks it or is empty
(`exists_lines`). What is read in two goes, first the lines that are complete and then the rest,
is what the text is split into (`completeLines_lines`).
-/

namespace MexBridge.Text

/-- A line with its newline. -/
def IsLine (l : List Char) : Prop := ∃ x : List Char, l = x ++ ['\n'] ∧ '\n' ∉ x

theorem splitLines_line_append {x : List Char} (hx : '\n' ∉ x) (r : List Char) :
    splitLines (x ++ '\n' :: r) = (x ++ ['\n']) :: splitLines r := by
  induction x with
  | nil => simp [splitLines]
  | cons c x ih =>
    have hc : c ≠ '\n' := fun h => hx (by simp [h])
    rw [List.cons_append, splitLines, if_neg hc, ih fun h => hx (by simp [h])]
    rfl

theorem splitLines_open {x : List Char} (hx : '\n' ∉ x) :
    splitLines x = if x.isEmpty then [] else [x] := by
  induction x with
  | nil => rfl
  | cons c x ih =>
    have hc : c ≠ '\n' := fun h => hx (by simp [h])
    rw [splitLines, if_neg hc, ih fun h => hx (by simp [h])]
    cases x <;> rfl

theorem splitLines_flatten_append {ls : List (List Char)} (hls : ∀ l ∈ ls, IsLine l)
    (r : List Char) : splitLines (ls.flatten ++ r) = ls ++ splitLines r := by
  induction ls with
  | nil => rfl
  | cons l ls ih =>
    obtain ⟨x, rfl, hx⟩ := hls l (by simp)
    have hrest := ih fun l hl => hls l (by simp [hl])
    rw [List.flatten_cons, List.append_assoc, List.append_assoc, List.singleton_append,
      splitLines_line_append hx, hrest, List.cons_append]

/-- Every text is made of lines and what comes after the last newline. -/
theorem exists_lines (cs : List Char) :
    ∃ (ls : List (List Char)) (x : List Char),
      cs = ls.flatten ++ x ∧ (∀ l ∈ ls, IsLine l) ∧ '\n' ∉ x := by
  induction cs with
  | nil => exact ⟨[], [], rfl, by simp, by simp⟩
  | cons c cs ih =>
    obtain ⟨ls, x, rfl, hls, hx⟩ := ih
    by_cases hc : c = '\n'
    · subst hc
      refine ⟨['\n'] :: ls, x, rfl, ?_, hx⟩
      rintro l (_ | ⟨_, hl⟩)
      · exact ⟨[], rfl, by simp⟩
      · exact hls l hl
    · cases ls with
      | nil => exact ⟨[], c :: x, rfl, by simp, by simp [Ne.symm hc, hx]⟩
      | cons l ls =>
        obtain ⟨y, rfl, hy⟩ := hls l (by simp)
        refine ⟨(c :: y ++ ['\n']) :: ls, x, by simp, ?_, hx⟩
        rintro l (_ | ⟨_, hl⟩)
        · exact ⟨c :: y, rfl, by simp [Ne.symm hc, hy]⟩
        · exact hls l (List.mem_cons_of_mem _ hl)

/-! ## Ends of lines -/

theorem notMem_unifyNewlines (cs : List Char) : '\r' ∉ unifyNewlines cs := by
  fun_induction unifyNewlines cs with
  | case1 => simp
  | case2 r ih => simpa using ih
  | case3 r _ ih => simpa using ih
  | case4 c r _ hc ih =>
    have : '\r' ≠ c := fun h => hc h.symm
    simp [this, ih]

theorem unifyNewlines_of_notMem {cs : List Char} (h : '\r' ∉ cs) : unifyNewlines cs = cs := by
  fun_induction unifyNewlines cs with
  | case1 => rfl
  | case2 r ih => simp at h
  | case3 r _ ih => simp at h
  | case4 c r _ hc ih => rw [ih fun hr => h (by simp [hr])]

theorem unifyNewlines_concat (cs : List Char) :
    unifyNewlines (cs ++ ['\r']) = unifyNewlines cs ++ ['\n'] := by
  fun_induction unifyNewlines cs with
  | case1 => rfl
  | case2 r ih => simp [unifyNewlines, ih]
  | case3 r hr ih =>
    rw [List.cons_append, List.cons_append, ← ih]
    cases r with
    | nil => rfl
    | cons c r =>
      rw [List.cons_append, unifyNewlines]
      intro t ht
      cases ht
      exact hr r rfl
  | case4 c r _ hc ih =>
    rw [List.cons_append, List.cons_append, ← ih, unifyNewlines]
    · intro t h
      exact absurd h hc
    · exact hc

/-! ## Complete lines -/

/-- Complete lines are lines. The rest has no newline but perhaps a `\r` at its end. -/
theorem completeLines_eq (cs : List Char) :
    ∃ (ls : List (List Char)) (x held : List Char), completeLines cs = (ls, x ++ held) ∧
      (∀ l ∈ ls, IsLine l) ∧ '\n' ∉ x ∧ '\r' ∉ x ∧
      (held = [] ∧ unifyNewlines cs = ls.flatten ++ x ∨
        held = ['\r'] ∧ unifyNewlines cs = ls.flatten ++ (x ++ ['\n'])) := by
  -- A `\r` at the end may be half of a line end, so it is held back.
  obtain ⟨held, hheld⟩ : ∃ held, held = if cs.getLast? = some '\r' then ['\r'] else [] := ⟨_, rfl⟩
  obtain ⟨read, hread⟩ : ∃ read, read = if held.isEmpty then cs else cs.dropLast := ⟨_, rfl⟩
  obtain ⟨ls, x, hsplit, hls, hx⟩ := exists_lines (unifyNewlines read)
  have hcr : '\r' ∉ x := fun h => notMem_unifyNewlines read (by rw [hsplit]; simp [h])
  refine ⟨ls, x, held, ?_, hls, hx, hcr, ?_⟩
  · unfold completeLines
    dsimp only
    rw [← hheld, ← hread, hsplit, splitLines_flatten_append hls, splitLines_open hx]
    cases x with
    | nil =>
      simp only [List.isEmpty_nil, if_true, List.append_nil, List.nil_append]
      cases hlast : ls.getLast? with
      | none => rw [List.getLast?_eq_none_iff.1 hlast]
      | some l =>
        obtain ⟨y, rfl, -⟩ := hls l (List.mem_of_getLast? hlast)
        simp
    | cons c x =>
      have hend : (c :: x).getLast? ≠ some '\n' := fun h => hx (List.mem_of_getLast? h)
      simp [hend]
  · by_cases h : cs.getLast? = some '\r'
    · right
      have hcs : cs.dropLast ++ ['\r'] = cs := by
        obtain ⟨ys, rfl⟩ := List.getLast?_eq_some_iff.1 h
        rw [List.dropLast_concat]
      rw [if_pos h] at hheld
      rw [hheld, if_neg (by simp)] at hread
      rw [← List.append_assoc, ← hsplit, ← unifyNewlines_concat, hread, hcs]
      exact ⟨hheld, rfl⟩
    · left
      rw [if_neg h] at hheld
      rw [hheld, if_pos List.isEmpty_nil] at hread
      rw [← hsplit, hread]
      exact ⟨hheld, rfl⟩

/-- **The complete lines and then the rest are the lines of the text.** -/
theorem completeLines_lines (cs : List Char) :
    (completeLines cs).1 ++
        (if (completeLines cs).2.isEmpty then [] else [unifyNewlines (completeLines cs).2])
      = splitLines (unifyNewlines cs) := by
  obtain ⟨ls, x, held, hcomplete, hls, hx, hcr, hheld⟩ := completeLines_eq cs
  rw [hcomplete]
  rcases hheld with ⟨rfl, hcs⟩ | ⟨rfl, hcs⟩
  · rw [hcs, splitLines_flatten_append hls, splitLines_open hx, List.append_nil,
      unifyNewlines_of_notMem hcr]
  · rw [hcs, splitLines_flatten_append hls, splitLines_line_append hx, unifyNewlines_concat,
      unifyNewlines_of_notMem hcr, if_neg (by simp)]
    rfl

end MexBridge.Text
