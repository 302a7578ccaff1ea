import Mathlib.Logic.Relation
import MexBridge.Source.Walk

/-!
# What a walk can do

However its lines are laid out and whatever files they include, a walk is made of four actions:
something happens at the desk, a token is given to the reader, a block of C begins or ends, or the
walk is halted (`Walk.Action`). What holds of all walks follows from these by `path_file`. Nothing
that happens at the desk opens or closes the C output.
-/

namespace MexBridge

namespace Desk

/-- From one desk to another, with the C output as open as it was. -/
def Keeps (d d' : Desk) : Prop := d'.c.isSome = d.c.isSome

theorem keeps_writeC (s : String) (d : Desk) : d.Keeps (d.writeC s) := by
  simp [Keeps, writeC]

theorem keeps_writeAllC (ss : List String) (d : Desk) : d.Keeps (d.writeAllC ss) := by
  simp [Keeps, writeAllC]

theorem keeps_openMatlab {batch : Bool} {name : String} {d d' : Desk}
    (h : d.openMatlab batch name = .ok d') : d.Keeps d' := by
  unfold openMatlab at h
  cases hc : d.folder.create name with
  | error f =>
    rw [hc] at h
    cases h
  | ok fp =>
    rw [hc] at h
    cases h
    rfl

end Desk

namespace Walk

variable {ρ : Type} {m : WalkMode ρ} {inc : String → Walk ρ → Walk ρ}

/-- One action of a walk. -/
inductive Action (m : WalkMode ρ) : Walk ρ → Walk ρ → Prop
  | desk (w : Walk ρ) (d : Desk) (h : w.desk.Keeps d) : Action m w { w with desk := d }
  | feed (w : Walk ρ) (t : Token) : Action m w (w.feed m t)
  | block (w : Walk ρ) (b : Bool) : Action m w { w with inBlock := b }
  | halt (w : Walk ρ) (h : Halt) : Action m w { w with halt := some h }

/-- Actions one after the other. -/
abbrev Path (m : WalkMode ρ) : Walk ρ → Walk ρ → Prop := Relation.ReflTransGen (Action m)

theorem path_onDesk (f : Desk → Desk) (h : ∀ d : Desk, d.Keeps (f d)) (w : Walk ρ) :
    Path m w (w.onDesk f) :=
  .single (.desk w _ (h w.desk))

theorem path_feed (t : Token) (w : Walk ρ) : Path m w (w.feed m t) := .single (.feed w t)

theorem path_fail (f : Fault) (w : Walk ρ) : Path m w (w.fail f) := .single (.halt w _)

theorem path_stop (n : Notice) (w : Walk ρ) : Path m w (w.stop n) :=
  .tail (.single (.desk w (w.desk.report [n]) rfl)) (.halt _ _)

theorem path_andThen {f : Walk ρ → Walk ρ} (hf : ∀ w, Path m w (f w)) (w : Walk ρ) :
    Path m w (w.andThen f) := by
  unfold andThen
  split
  · exact .refl
  · exact hf w

/-! ## Lines -/

theorem path_passLine (w : Walk ρ) : Path m w (w.passLine m) :=
  (path_onDesk .nextLine (fun _ => rfl) w).trans (path_feed _ _)

theorem path_writeMatlab (s : String) (w : Walk ρ) : Path m w (w.onDesk (.writeMatlab s)) :=
  path_onDesk (.writeMatlab s) (fun _ => rfl) w

theorem path_print (s : String) (w : Walk ρ) : Path m w (w.onDesk (.print s)) :=
  path_onDesk (.print s) (fun _ => rfl) w

theorem path_openBatch (name : String) (w : Walk ρ) : Path m w (w.openBatch name) := by
  unfold openBatch
  split
  · rename_i d hd
    exact .single (.desk w d (Desk.keeps_openMatlab hd))
  · split
    · exact path_stop _ w
    · exact path_fail _ w

theorem path_functionLine (tail : List Char) (w : Walk ρ) : Path m w (w.functionLine m tail) := by
  unfold functionLine
  refine .trans ?_ (path_andThen (fun w => ?_) _)
  · split
    · exact (path_onDesk .closeMatlab (fun _ => rfl) w).trans (path_openBatch _ _)
    · exact .refl
  · refine .trans ?_ ((path_writeMatlab _ _).trans (path_passLine _))
    split
    · exact path_print _ w
    · exact .refl

theorem path_redirectLine (target : String) (w : Walk ρ) :
    Path m w (w.redirectLine m target) := by
  unfold redirectLine
  refine .trans ?_ (path_andThen (fun w => ?_) _)
  · split
    · refine (path_onDesk .closeMatlab (fun _ => rfl) w).trans ?_
      dsimp only
      split
      · exact .refl
      · exact path_openBatch _ _
    · exact .refl
  · refine .trans ?_ (path_passLine _)
    split
    · exact path_print _ w
    · exact .refl

theorem path_feedAll (ts : List Token) (w : Walk ρ) :
    Path m w (ts.foldl (fun w t => w.feed m t) w) := by
  induction ts generalizing w with
  | nil => exact .refl
  | cons t ts ih => exact (path_feed t w).trans (ih _)

theorem path_declarationLine (body : List Char) (w : Walk ρ) :
    Path m w (w.declarationLine m body) :=
  (path_feedAll _ w).trans (path_onDesk .nextLine (fun _ => rfl) _)

theorem path_blockLine (line : List Char) (w : Walk ρ) : Path m w (w.blockLine line) := by
  unfold blockLine
  refine (path_onDesk .nextLine (fun _ => rfl) w).trans ?_
  dsimp only
  split
  · exact .single (.block _ false)
  · exact path_onDesk _ (Desk.keeps_writeC _) _

theorem path_openLine (hinc : ∀ name w, Path m w (inc name w)) (line : List Char)
    (w : Walk ρ) : Path m w (w.openLine m inc line) := by
  have hmarked : Path m w (w.onDesk (.writeMatlab (String.ofList (SourceLine.indent line).1))) :=
    path_writeMatlab _ w
  unfold openLine
  dsimp only
  split
  case h_1 => exact (path_writeMatlab _ w).trans (path_passLine _)
  case h_2 => exact hmarked.trans ((path_writeMatlab _ _).trans (path_passLine _))
  case h_3 => exact hmarked.trans (path_passLine _)
  case h_4 => exact hmarked.trans (path_functionLine _ _)
  case h_5 => exact hmarked.trans (hinc _ _)
  case h_6 => exact hmarked.trans (path_redirectLine _ _)
  case h_7 => exact hmarked.trans ((path_onDesk _ (Desk.keeps_writeC _) _).trans (path_passLine _))
  case h_8 =>
    refine hmarked.trans ((path_onDesk .nextLine (fun _ => rfl) _).trans ?_)
    exact .single (.block _ true)
  case h_9 => exact hmarked.trans (path_declarationLine _ _)

theorem path_lines (hinc : ∀ name w, Path m w (inc name w)) (ls : List (List Char))
    (w : Walk ρ) : Path m w (w.lines m inc ls) := by
  induction ls generalizing w with
  | nil => exact .refl
  | cons l ls ih =>
    unfold lines
    split
    · exact .refl
    · refine .trans ?_ (ih _)
      split
      · exact path_blockLine l w
      · exact path_openLine hinc l w

/-! ## Files -/

theorem path_moveTo (file : String) (line : Int) (w : Walk ρ) :
    Path m w (w.onDesk (.moveTo file line)) :=
  path_onDesk (.moveTo file line) (fun _ => rfl) w

theorem path_readOn (hinc : ∀ name w, Path m w (inc name w)) (p : Folder.Path)
    (rounds offset : Nat) (left : Unread) (w : Walk ρ) :
    Path m w (w.readOn m inc p rounds offset left) := by
  induction rounds generalizing offset left w with
  | zero => exact .refl
  | succ rounds ih =>
    unfold readOn
    dsimp only
    split
    · split
      · exact path_fail _ w
      · split
        · exact .refl
        · exact (path_lines hinc _ w).trans (path_andThen (ih _ _) _)
    · split
      · exact path_fail _ w
      · exact (path_lines hinc _ w).trans (path_andThen (ih _ _) _)

theorem path_content (hinc : ∀ name w, Path m w (inc name w)) (p : Folder.Path) (w : Walk ρ) :
    Path m w (w.content m inc p) :=
  path_readOn hinc p maxRounds 0 {} w

theorem path_included (room : Nat) (name : String) (w : Walk ρ) :
    Path m w (included m room name w) := by
  induction room generalizing name w with
  | zero => exact path_stop _ w
  | succ room ih =>
    unfold Walk.included
    split
    · split
      · exact path_stop _ w
      · exact path_fail _ w
    · rename_i p _
      refine (path_moveTo name 1 w).trans ((path_content ih p _).trans ?_)
      exact path_andThen (path_moveTo _ _) _

/-- **A walk through a file is a path of actions.** -/
theorem path_file (name : String) (w : Walk ρ) : Path m w (w.file m name) := by
  unfold file
  split
  · exact path_fail _ w
  · refine (path_moveTo name 1 w).trans ?_
    exact .head (.block _ false) (path_content (path_included maxDepth) _ _)

end Walk

end MexBridge
