import MexBridge.Command.Run
import MexBridge.Proofs.Ledger.Filing
import MexBridge.Proofs.Routine.CallingConvention
import MexBridge.Proofs.Statement.Parsing

/-!
# Statements that fail to parse

Tokens come sentence by sentence: some, and then one that ends the statement they spell or breaks
it off. A sentence that fails to parse is reported once and counted once, and all it leaves behind
are notes of types (`feedAll_refused`). What is entered of the other sentences depends on nothing of
that (`Alike.enterStatement`), so the sentences that fail may as well be struck out
(`refusal_leaves_no_trace`).
-/

namespace MexBridge

/-- Tokens up to one that ends their statement or breaks it off; that one stands in `file`. -/
structure Sentence where
  file : String
  tokens : List Token
  stop : Token
  inner : ∀ t ∈ tokens, Ledger.Inner t
  ends : ¬ Ledger.Inner stop

namespace Sentence

/-- A sentence fails to parse if its `;` ends no statement, or if it breaks one off. The tokens
`before` it were pending. -/
def fails (before : List Token) (s : Sentence) : Bool :=
  if s.stop.isPunct ";" then !(Statement.parse s.file (before ++ (s.tokens ++ [s.stop]))).isOk
  else !(before ++ s.tokens).isEmpty

/-- What ends no statement is another line or the end of the input. -/
theorem stop_kind (s : Sentence) (h : s.stop.isPunct ";" = false) :
    s.stop.kind = .otherLine ∨ s.stop.kind = .eof := by
  by_cases hline : s.stop.kind = .otherLine
  · exact Or.inl hline
  by_cases hfile : s.stop.kind = .eof
  · exact Or.inr hfile
  · exact absurd ⟨hline, hfile, h⟩ s.ends

end Sentence

namespace Ledger

/-! ## One sentence -/

/-- The tokens before the last one wait for it. -/
theorem feedAll_last (mex file : String) {ts : List Token} (hts : ∀ t ∈ ts, Inner t) (stop : Token)
    (l : Ledger) :
    l.feedAll mex file (ts ++ [stop])
      = { l with pending := l.pending ++ ts }.feed mex file stop := by
  induction ts generalizing l with
  | nil => simp [feedAll]
  | cons t ts ih =>
    rw [List.cons_append, feedAll, feed_inner (hts t (by simp)) l]
    dsimp only
    rw [ih fun u hu => hts u (by simp [hu])]
    simp

/-- A token that breaks a statement off drops what is pending. -/
theorem feed_break (mex file : String) {stop : Token}
    (h : stop.kind = .otherLine ∨ stop.kind = .eof) (l : Ledger) :
    ∃ atEnd, l.feed mex file stop = l.dropPending file stop.line atEnd := by
  rcases h with h | h
  · exact ⟨false, by rw [feed, h]⟩
  · exact ⟨true, by rw [feed, h]⟩

variable {mex : String} {s : Sentence} {l l' : Ledger}

/-- **A sentence that fails** is reported, counted and dropped; the types read before the failure
are noted. -/
theorem feedAll_refused (mex : String) (h : s.fails l.pending = true) :
    ∃ types line fault, l.feedAll mex s.file (s.tokens ++ [s.stop])
      = ({ { l with pending := [] }.note types with errors := l.errors + 1 },
        { notices := [.badStatement s.file line fault] }) := by
  unfold Sentence.fails at h
  split at h
  case isTrue hstop =>
    rw [feedAll_statement mex s.file s.inner hstop, enterTokens]
    cases hparse : Statement.parse s.file (l.pending ++ (s.tokens ++ [s.stop])) with
    | ok st => simp [hparse, Except.isOk, Except.toBool] at h
    | error e => exact ⟨e.types, _, e.fault, rfl⟩
  case isFalse hstop =>
    have hkind := s.stop_kind (by simpa using hstop)
    obtain ⟨atEnd, hfeed⟩ := feed_break mex s.file hkind
      { l with pending := l.pending ++ s.tokens }
    have hpending : (l.pending ++ s.tokens).isEmpty = false := by simpa using h
    refine ⟨[], s.stop.line, .unfinished atEnd, ?_⟩
    rw [feedAll_last mex s.file s.inner, hfeed, dropPending, if_neg (by simp [hpending])]
    rfl

/-- A sentence that does not fail is a statement, which is entered, or holds nothing. -/
theorem feedAll_accepted (mex : String) (h : s.fails [] = false) :
    (∃ st, ∀ l : Ledger, l.pending = [] →
      l.feedAll mex s.file (s.tokens ++ [s.stop]) = l.enterStatement mex st) ∨
    ∀ l : Ledger, l.pending = [] → l.feedAll mex s.file (s.tokens ++ [s.stop]) = (l, {}) := by
  unfold Sentence.fails at h
  split at h
  case isTrue hstop =>
    left
    cases hparse : Statement.parse s.file (s.tokens ++ [s.stop]) with
    | error e => simp [hparse, Except.isOk, Except.toBool] at h
    | ok st =>
      refine ⟨st, fun l hl => ?_⟩
      have hempty : { l with pending := [] } = l := by rw [← hl]
      rw [feedAll_statement mex s.file s.inner hstop, hempty, hl, List.nil_append, enterTokens,
        hparse]
  case isFalse hstop =>
    right
    intro l hl
    have htokens : s.tokens = [] := by simpa using h
    have hempty : { l with pending := [] } = l := by rw [← hl]
    obtain ⟨atEnd, hfeed⟩ := feed_break mex s.file (s.stop_kind (by simpa using hstop)) l
    rw [feedAll_last mex s.file s.inner, hl, htokens, List.nil_append, hempty, hfeed, dropPending,
      if_pos (by simp [hl])]

/-! ## What entering a statement depends on -/

/-- Ledgers that differ at most in the errors counted, the types noted and the tokens pending. -/
structure Alike (l l' : Ledger) : Prop where
  groups : l'.groups = l.groups
  count : l'.count = l.count
  typeErrors : l'.typeErrors = l.typeErrors
  types : l'.context.types = l.context.types
  settings : l'.context.settings = l.context.settings

theorem Alike.refl (l : Ledger) : l.Alike l := ⟨rfl, rfl, rfl, rfl, rfl⟩

theorem Alike.trans {l'' : Ledger} (h : l.Alike l') (h' : l'.Alike l'') : l.Alike l'' :=
  ⟨h'.groups.trans h.groups, h'.count.trans h.count, h'.typeErrors.trans h.typeErrors,
    h'.types.trans h.types, h'.settings.trans h.settings⟩

theorem Alike.symm (h : l.Alike l') : l'.Alike l :=
  ⟨h.groups.symm, h.count.symm, h.typeErrors.symm, h.types.symm, h.settings.symm⟩

/-- Alike ledgers stay alike, and give the same answer. -/
theorem Alike.enterStatement (h : l.Alike l') (mex : String) (st : Statement) :
    (l.enterStatement mex st).1.Alike (l'.enterStatement mex st).1 ∧
      (l'.enterStatement mex st).2 = (l.enterStatement mex st).2 := by
  obtain ⟨hgroups, hcount, herrors, htypes, hsettings⟩ := h
  cases st with
  | typedef space name =>
    cases hspace : TypeSpace.ofName? space with
    | none =>
      simp only [Ledger.enterStatement, hspace, and_true]
      exact ⟨hgroups, hcount, congrArg (· + 1) herrors, htypes, hsettings⟩
    | some sp =>
      simp only [Ledger.enterStatement, hspace, and_true]
      exact ⟨hgroups, hcount, herrors, congrArg (·.add name sp) htypes, hsettings⟩
  | inherits child parents =>
    exact ⟨⟨hgroups, hcount, herrors, congrArg (·.inherits child parents) htypes, hsettings⟩, rfl⟩
  | call r =>
    simp only [Ledger.enterStatement, enterRoutine, note, Context.note, hgroups, hcount, herrors,
      htypes, hsettings, and_true]
    exact ⟨rfl, rfl, rfl, rfl, rfl⟩

/-- So they do when they are fed a sentence that does not fail, with nothing pending. -/
theorem Alike.feedAll (h : l.Alike l') (mex : String) (hs : s.fails [] = false)
    (hl : l.pending = []) (hl' : l'.pending = []) :
    let out := l.feedAll mex s.file (s.tokens ++ [s.stop])
    let out' := l'.feedAll mex s.file (s.tokens ++ [s.stop])
    out.1.Alike out'.1 ∧ (out.1.pending = [] ∧ out'.1.pending = []) ∧ out'.2 = out.2 := by
  intro out out'
  rcases feedAll_accepted mex hs with ⟨st, hst⟩ | hst
  · obtain ⟨hledger, hreply⟩ := h.enterStatement mex st
    have hout : out = l.enterStatement mex st := hst l hl
    have hout' : out' = l'.enterStatement mex st := hst l' hl'
    rw [hout, hout', pending_enterStatement, pending_enterStatement]
    exact ⟨hledger, ⟨hl, hl'⟩, hreply⟩
  · have hout : out = (l, {}) := hst l hl
    have hout' : out' = (l', {}) := hst l' hl'
    rw [hout, hout']
    exact ⟨h, ⟨hl, hl'⟩, rfl⟩

/-! ## Faults -/

/-- The fault that taking a token meets, if it meets one: only a call that it ends is checked and
signed, and either may break off. -/
def feedFault (file : String) (t : Token) (l : Ledger) : Option Fault :=
  if t.isPunct ";" then
    match Statement.parse file (l.pending ++ [t]) with
    | .ok (.call r) =>
      match (l.checked r).fault, (l.checked r).value.signed l.context.settings.promotion with
      | some f, _ => some f
      | none, .error f => some f
      | none, .ok _ => none
    | _ => none
  else none

theorem fault_check {Q : String → Prop} {r : Routine} (h : r.Written Q) (t : TypeTable) :
    (r.check t).fault = none := by
  rw [h.check_eq]
  dsimp only
  unfold Routine.checkFortran
  split <;> rfl

/-- What can be written can be checked and signed. -/
theorem feedFault_eq_none (file : String) (t : Token) (l : Ledger) : l.feedFault file t = none := by
  unfold feedFault
  split
  · split
    · rename_i r hparse
      have hfault : (l.checked r).fault = none := fault_check (written_parsed hparse l) _
      have hsigned : (l.checked r).value.signed l.context.settings.promotion
          = .ok ((l.checked r).value.signature l.context.settings.promotion) :=
        if_pos (isSignable_checked hparse)
      rw [hfault, hsigned]
    · rfl
  · rfl

end Ledger

namespace Command

/-! ## Ledger and desk together -/

/-- Enters tokens one after the other, where the desk has come to. -/
def feedTokens (mex : String) (ts : List Token) (x : Ledger × Desk) : Ledger × Desk :=
  ts.foldl (fun x t => feedLedger mex t x.1 x.2) x

/-- Enters a sentence where it stands. -/
def feedSentence (mex : String) (x : Ledger × Desk) (s : Sentence) : Ledger × Desk :=
  feedTokens mex (s.tokens ++ [s.stop]) (x.1, { x.2 with file := s.file })

/-- What the outputs of a desk hold, and all it sees of files. -/
structure Holdings where
  matlab : Option String
  c : Option Sheet
  folder : Folder
  stdout : String

def holdings (d : Desk) : Holdings :=
  { matlab := d.matlab.map (·.text), c := d.c, folder := d.folder, stdout := d.stdout }

/-- The holdings with more text in the MATLAB output. -/
def Holdings.write (text : String) (h : Holdings) : Holdings :=
  { h with matlab := h.matlab.map (· ++ text) }

theorem Holdings.write_empty (h : Holdings) : h.write "" = h := by
  simp [write]

theorem Holdings.write_write (a b : String) (h : Holdings) :
    (h.write a).write b = h.write (a ++ b) := by
  simp [write, Function.comp_def, String.append_assoc]

/-- Entering tokens at a desk is entering them in the ledger, and passing on its answers. -/
theorem feedTokens_eq (mex : String) (ts : List Token) (l : Ledger) (d : Desk) :
    (feedTokens mex ts (l, d)).1 = (l.feedAll mex d.file ts).1 ∧
      (feedTokens mex ts (l, d)).2.notices = d.notices ++ (l.feedAll mex d.file ts).2.notices ∧
      holdings (feedTokens mex ts (l, d)).2
        = (holdings d).write (l.feedAll mex d.file ts).2.matlab := by
  induction ts generalizing l d with
  | nil => exact ⟨rfl, by simp [feedTokens, Ledger.feedAll], (Holdings.write_empty _).symm⟩
  | cons t ts ih =>
    let reply := (l.feed mex d.file t).2
    let d' := (d.report reply.notices).writeMatlab reply.matlab
    obtain ⟨hledger, hnotices, hheld⟩ := ih (l.feed mex d.file t).1 d'
    have hheld' : holdings d' = (holdings d).write reply.matlab := by
      simp only [d', holdings, Holdings.write, Desk.writeMatlab, Desk.report, Option.map_map]
      rfl
    refine ⟨hledger, hnotices.trans ?_, hheld.trans ?_⟩
    · exact List.append_assoc ..
    · rw [hheld', Holdings.write_write]
      rfl

/-- What a sentence that fails does: one notice is given, one error counted, and types may be
noted. -/
structure Refused (s : Sentence) (x y : Ledger × Desk) : Prop where
  notice : ∃ line fault, y.2.notices = x.2.notices ++ [.badStatement s.file line fault]
  errors : y.1.errors = x.1.errors + 1
  pending : y.1.pending = []
  ledger : x.1.Alike y.1
  usage : x.1.context.usage ⊆ y.1.context.usage
  outputs : holdings y.2 = holdings x.2

theorem feedSentence_refused (mex : String) {s : Sentence} {x : Ledger × Desk}
    (h : s.fails x.1.pending = true) : Refused s x (feedSentence mex x s) := by
  obtain ⟨types, line, fault, hfeed⟩ := Ledger.feedAll_refused mex h
  obtain ⟨hledger, hnotices, hheld⟩ :=
    feedTokens_eq mex (s.tokens ++ [s.stop]) x.1 { x.2 with file := s.file }
  dsimp only at hledger hnotices hheld
  rw [hfeed] at hledger hnotices hheld
  refine ⟨⟨line, fault, hnotices⟩, congrArg Ledger.errors hledger, congrArg Ledger.pending hledger,
    ?_, ?_, hheld.trans (Holdings.write_empty _)⟩
  · rw [feedSentence, hledger]
    exact ⟨rfl, rfl, rfl, rfl, rfl⟩
  · rw [feedSentence, hledger]
    exact Usage.subset_noteAll _ _ _

/-! ## Striking out what fails -/

/-- Two runs, between sentences, that have come to the same but for errors and noted types. -/
structure Level (x y : Ledger × Desk) : Prop where
  ledger : x.1.Alike y.1
  pending : x.1.pending = [] ∧ y.1.pending = []
  outputs : holdings y.2 = holdings x.2

theorem Level.refused {mex : String} {s : Sentence} {x y : Ledger × Desk} (h : Level x y)
    (hs : s.fails [] = true) : Level (feedSentence mex x s) y := by
  have hr := feedSentence_refused mex (x := x) (h.pending.1 ▸ hs)
  exact ⟨hr.ledger.symm.trans h.ledger, ⟨hr.pending, h.pending.2⟩,
    h.outputs.trans hr.outputs.symm⟩

theorem Level.accepted {mex : String} {s : Sentence} {x y : Ledger × Desk} (h : Level x y)
    (hs : s.fails [] = false) : Level (feedSentence mex x s) (feedSentence mex y s) := by
  obtain ⟨hx, -, hxheld⟩ :=
    feedTokens_eq mex (s.tokens ++ [s.stop]) x.1 { x.2 with file := s.file }
  obtain ⟨hy, -, hyheld⟩ :=
    feedTokens_eq mex (s.tokens ++ [s.stop]) y.1 { y.2 with file := s.file }
  dsimp only at hx hxheld hy hyheld
  obtain ⟨hledger, hpending, hreply⟩ := h.ledger.feedAll mex hs h.pending.1 h.pending.2
  rw [← hx, ← hy] at hledger hpending
  refine ⟨hledger, hpending, ?_⟩
  rw [feedSentence, feedSentence, hxheld, hyheld, hreply]
  exact congrArg (Holdings.write _) h.outputs

theorem Level.sentences (mex : String) {x y : Ledger × Desk} (h : Level x y)
    (ss : List Sentence) :
    Level (ss.foldl (feedSentence mex) x)
      ((ss.filter (!·.fails [])).foldl (feedSentence mex) y) := by
  induction ss generalizing x y with
  | nil => exact h
  | cons s ss ih =>
    cases hs : s.fails [] with
    | true =>
      rw [List.filter_cons_of_neg (by simp [hs]), List.foldl_cons]
      exact ih (h.refused hs)
    | false =>
      rw [List.filter_cons_of_pos (by simp [hs]), List.foldl_cons, List.foldl_cons]
      exact ih (h.accepted hs)

/-- **A sentence that fails to parse leaves no trace** but one notice, one error and notes of types,
whatever came before it. No token meets a fault. So of any run of sentences those that fail may be
struck out: routines and their ids, types, classes and all outputs come to the same. -/
theorem refusal_leaves_no_trace (mex : String) :
    (∀ (s : Sentence) (x : Ledger × Desk), s.fails x.1.pending = true →
      Refused s x (feedSentence mex x s)) ∧
    (∀ (file : String) (t : Token) (l : Ledger), l.feedFault file t = none) ∧
    ∀ (ss : List Sentence) (x : Ledger × Desk), x.1.pending = [] →
      let whole := ss.foldl (feedSentence mex) x
      let struck := (ss.filter (!·.fails [])).foldl (feedSentence mex) x
      whole.1.Alike struck.1 ∧ holdings struck.2 = holdings whole.2 := by
  refine ⟨fun s x h => feedSentence_refused mex h, Ledger.feedFault_eq_none, ?_⟩
  intro ss x hx
  have hlevel : Level x x := ⟨.refl _, ⟨hx, hx⟩, rfl⟩
  have hend := hlevel.sentences mex ss
  exact ⟨hend.ledger, hend.outputs⟩

/-- Two calls with one signature, and between them a bracket that is never closed and a statement
that another line breaks off. -/
def mixedSentences : List Sentence :=
  [{ file := "a.mw", tokens := Token.tokens 1 "f(double x)".toList, stop := ⟨.punct, ";", 1⟩
     inner := by decide +kernel, ends := by decide },
    { file := "a.mw", tokens := Token.tokens 2 "g(uint y, ulong[ z)".toList
      stop := ⟨.punct, ";", 2⟩, inner := by decide +kernel, ends := by decide },
    { file := "b.mw", tokens := Token.tokens 1 "f(double".toList, stop := .otherLine 2
      inner := by decide +kernel, ends := by decide },
    { file := "b.mw", tokens := Token.tokens 3 "f(double y)".toList, stop := ⟨.punct, ";", 3⟩
      inner := by decide +kernel, ends := by decide }]

theorem refusal_leaves_no_trace_mixed :
    let x : Ledger × Desk := ({}, { matlab := some {} })
    let whole := mixedSentences.foldl (feedSentence "m") x
    let struck := (mixedSentences.filter (!·.fails [])).foldl (feedSentence "m") x
    mixedSentences.map (·.fails []) = [false, true, true, false] ∧
      whole.1.errors = 2 ∧ whole.1.context.usage = ["uint", "ulong"] ∧ whole.1.count = 2 ∧
      struck.1.count = 2 ∧ struck.1.groups = whole.1.groups ∧
      holdings struck.2 = holdings whole.2 := by
  intro x whole struck
  obtain ⟨hledger, houtputs⟩ := (refusal_leaves_no_trace "m").2.2 mixedSentences x rfl
  refine ⟨by decide +kernel, by decide +kernel, by decide +kernel, by decide +kernel, ?_,
    hledger.groups, houtputs⟩
  exact hledger.count.trans (by decide +kernel)

end Command

end MexBridge
