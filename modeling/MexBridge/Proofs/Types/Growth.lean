import MexBridge.Kind
import MexBridge.Types.Context

/-!
# What a context knows only grows

Numeric types once declared stay declared, and integer types once met stay met. `Context.Grows`
says so of two contexts, and whatever changes a context makes it grow.
-/

namespace MexBridge

namespace Usage

variable {p : Promotion} {u : Usage} {n : String}

theorem subset_mark (u : Usage) (name : String) : u ⊆ u.mark name :=
  fun _ h => mem_mark.2 (Or.inl h)

theorem mem_note (p : Promotion) (u : Usage) (hn : n ∈ notedTypes) : n ∈ u.note p n := by
  have hmark : n ∈ u.mark n := mem_mark.2 (Or.inr ⟨rfl, hn⟩)
  unfold note
  split
  · exact subset_mark _ _ hmark
  · exact hmark

theorem subset_note (p : Promotion) (u : Usage) (name : String) : u ⊆ u.note p name := by
  unfold note
  split
  · exact List.Subset.trans (u.subset_mark name) ((u.mark name).subset_mark _)
  · exact u.subset_mark name

theorem subset_noteAll (p : Promotion) (u : Usage) (names : List String) :
    u ⊆ u.noteAll p names := by
  induction names generalizing u with
  | nil => exact List.Subset.refl u
  | cons name names ih => exact List.Subset.trans (u.subset_note p name) (ih (u.note p name))

/-- A type that is met and among those noted is noted. -/
theorem mem_noteAll {names : List String} (h : n ∈ names) (hn : n ∈ notedTypes) :
    n ∈ u.noteAll p names := by
  induction names generalizing u with
  | nil => simp at h
  | cons name names ih =>
    rcases List.mem_cons.1 h with rfl | h
    · exact subset_noteAll p _ names (mem_note p u hn)
    · exact ih h

end Usage

namespace TypeTable

/-- The types declared as numbers of a field. -/
def ofField (t : TypeTable) : Field → List String
  | .real => t.scalars
  | .single => t.cscalars
  | .double => t.zscalars

theorem ofField_add (t : TypeTable) (n : String) (s : TypeSpace) (f : Field) :
    t.ofField f ⊆ (t.add n s).ofField f := by
  have hadd (names : List String) : names ⊆ addName names n :=
    fun _ hx => mem_addName.2 (Or.inl hx)
  cases s <;> cases f <;> first | exact hadd _ | exact List.Subset.refl _

end TypeTable

/-- All numeric types and all types met are known on. -/
structure Context.Grows (c c' : Context) : Prop where
  types : ∀ f, c.types.ofField f ⊆ c'.types.ofField f
  usage : c.usage ⊆ c'.usage

namespace Context

variable {c c' c'' : Context}

theorem Grows.refl (c : Context) : c.Grows c :=
  ⟨fun _ => List.Subset.refl _, List.Subset.refl _⟩

theorem Grows.trans (h : c.Grows c') (h' : c'.Grows c'') : c.Grows c'' :=
  ⟨fun f => List.Subset.trans (h.types f) (h'.types f), List.Subset.trans h.usage h'.usage⟩

theorem grows_note (c : Context) (names : List String) : c.Grows (c.note names) :=
  ⟨fun _ => List.Subset.refl _, c.usage.subset_noteAll _ names⟩

theorem grows_add (c : Context) (n : String) (s : TypeSpace) :
    c.Grows { c with types := c.types.add n s } :=
  ⟨c.types.ofField_add n s, List.Subset.refl _⟩

theorem grows_inherits (c : Context) (child : String) (parents : List String) :
    c.Grows { c with types := c.types.inherits child parents } := by
  refine ⟨fun f => ?_, List.Subset.refl _⟩
  cases f <;> exact List.Subset.refl _

end Context

end MexBridge
