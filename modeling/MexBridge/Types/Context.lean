import MexBridge.Types.Promotion
import MexBridge.Types.Table

/-!
What a run knows beside its input: the settings chosen for it, the types declared so far and the
integer types met so far.
-/

namespace MexBridge

structure Settings where
  /-- Wrap each call so that a C++ exception becomes a MATLAB error. -/
  catches : Bool := false
  gpu : Bool := false
  /-- Support for C99 complex numbers. -/
  c99 : Bool := false
  /-- Support for C++ complex numbers. -/
  cpp : Bool := false
  promotion : Promotion := .native
deriving DecidableEq, Repr

/-- What is known of types while statements are read (`MwrapContext`). -/
structure Context where
  settings : Settings := {}
  types : TypeTable := .initial
  usage : Usage := []
deriving Repr

namespace Context

/-- The context a run with given settings starts with. -/
def ofSettings (s : Settings) : Context :=
  { settings := s
    types := if s.c99 || s.cpp then TypeTable.initial.addComplex else .initial }

/-- Notes base types as met under the promotion in force. -/
def note (c : Context) (names : List String) : Context :=
  { c with usage := c.usage.noteAll c.settings.promotion names }

end Context

end MexBridge
