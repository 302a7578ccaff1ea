import MexBridge.Proofs.Command.Reading
import MexBridge.Proofs.Source.Ending

/-!
# Statements that are left unfinished

Tokens wait until a `;` ends their statement. A line of another kind breaks the statement off: its
tokens are dropped, which is reported, so nothing is made of tokens on both sides of that line. But a
line that opens a block of C, and one that includes a file, go by without a token, and what was pending
stays pending (`unfinished_statements`).
-/

namespace MexBridge

/-- A line that breaks off an unfinished statement. -/
def SourceLine.breaksOff : SourceLine → Bool
  | .text => true
  | .brokenOpener => true
  | .comment => true
  | .function _ => true
  | .include _ => false
  | .redirect _ => true
  | .code _ => true
  | .opener => false
  | .declaration _ => false

namespace Stop

def kind (s : Stop) : SourceLine := SourceLine.classify (SourceLine.indent s.line).2

/-- Outside blocks, at a line that breaks off a statement. -/
def breaksOff (s : Stop) : Bool := !s.inBlock && s.kind.breaksOff

/-- What the ledger is given at these stops. -/
def events (ss : List Stop) : List Ledger.Event := Ledger.events (ss.flatMap Stop.entries)

theorem tokens_of_breaksOff {s : Stop} (h : s.breaksOff = true) : s.tokens = [.otherLine s.shown] := by
  unfold breaksOff kind at h
  rw [Bool.and_eq_true, Bool.not_eq_true'] at h
  obtain ⟨hblock, hbreaks⟩ := h
  rw [tokens, if_neg (by simp [hblock])]
  cases hc : SourceLine.classify (SourceLine.indent s.line).2 with
  | «include» name | opener | declaration body =>
    rw [hc] at hbreaks
    cases hbreaks
  | _ => rfl

theorem tokens_of_idle {s : Stop} (h : s.inBlock = true ∨ s.kind = .opener) : s.tokens = [] := by
  unfold tokens
  split
  · rfl
  · rcases h with h | h
    · contradiction
    · unfold kind at h
      rw [h]

theorem events_of_breaksOff {s : Stop} (h : s.breaksOff = true) :
    events [s] = [.token s.file (.otherLine s.shown)] := by
  rw [events, List.flatMap_singleton, entries, tokens_of_breaksOff h]
  rfl

theorem events_of_idle {s : Stop} (h : s.inBlock = true ∨ s.kind = .opener) : events [s] = [] := by
  rw [events, List.flatMap_singleton, entries, tokens_of_idle h]
  rfl

theorem events_append (ss ss' : List Stop) : events (ss ++ ss') = events ss ++ events ss' := by
  rw [events, List.flatMap_append, Ledger.events, List.map_append]
  rfl

theorem mem_tokens_of_event {file : String} {t : Token} {ss : List Stop}
    (h : Ledger.Event.token file t ∈ events ss) : t ∈ ss.flatMap Stop.tokens := by
  obtain ⟨e, he, heq⟩ := List.mem_map.1 h
  cases heq
  obtain ⟨s, hs, he⟩ := List.mem_flatMap.1 he
  obtain ⟨u, hu, rfl⟩ := List.mem_map.1 he
  exact List.mem_flatMap.2 ⟨s, hs, hu⟩

end Stop

namespace Ledger

variable {mex : String} {l : Ledger}

/-- The tokens of the statement that a step enters, if it enters one. -/
def spells (l : Ledger) : Event → List (List Token)
  | .token _ t => if t.isPunct ";" then [l.pending ++ [t]] else []
  | .endOfFile _ _ => []

/-- The tokens of each statement that a run enters. -/
def spelled (mex : String) : Ledger → List Event → List (List Token)
  | _, [] => []
  | l, e :: es => l.spells e ++ spelled mex (l.enter mex e).1 es

theorem run_append (mex : String) (l : Ledger) (es es' : List Event) :
    l.run mex (es ++ es') = (l.run mex es).run mex es' :=
  List.foldl_append

theorem spelled_append (mex : String) (l : Ledger) (es es' : List Event) :
    l.spelled mex (es ++ es') = l.spelled mex es ++ (l.run mex es).spelled mex es' := by
  induction es generalizing l with
  | nil => rfl
  | cons e es ih =>
    rw [List.cons_append, spelled, ih, spelled, List.append_assoc]
    rfl

theorem notices_append (mex : String) (l : Ledger) (es es' : List Event) :
    l.notices mex (es ++ es') = l.notices mex es ++ (l.run mex es).notices mex es' := by
  induction es generalizing l with
  | nil => rfl
  | cons e es ih =>
    rw [List.cons_append, notices, ih, notices, List.append_assoc]
    rfl

theorem seen_of_mem_pending {e : Event} {t : Token} (h : t ∈ (l.enter mex e).1.pending) :
    l.Seen e t := by
  cases move_enter mex l e with
  | quiet _ pending => exact pending t h
  | entered _ _ _ _ _ _ pending =>
    rw [pending] at h
    cases h

/-- Statements are made of tokens that were pending, or that the run is given. -/
theorem seen_of_mem_spelled {es : List Event} {ts : List Token} (h : ts ∈ l.spelled mex es)
    {t : Token} (ht : t ∈ ts) : t ∈ l.pending ∨ ∃ file, Event.token file t ∈ es := by
  induction es generalizing l with
  | nil => cases h
  | cons e es ih =>
    have hseen : l.Seen e t → t ∈ l.pending ∨ ∃ file, Event.token file t ∈ e :: es := by
      rintro (hp | ⟨file, rfl⟩)
      · exact Or.inl hp
      · exact Or.inr ⟨file, by simp⟩
    rcases List.mem_append.1 h with h | h
    · apply hseen
      cases e with
      | endOfFile file line => cases h
      | token file u =>
        unfold spells at h
        dsimp only at h
        split at h
        · rw [List.mem_singleton.1 h] at ht
          rcases List.mem_append.1 ht with ht | ht
          · exact Or.inl ht
          · exact Or.inr ⟨file, by rw [List.mem_singleton.1 ht]⟩
        · cases h
    · rcases ih h with hp | ⟨file, hfile⟩
      · exact hseen (seen_of_mem_pending hp)
      · exact Or.inr ⟨file, List.mem_cons_of_mem _ hfile⟩

/-- Nothing is built by a step that ends no statement. -/
theorem built_enter (mex : String) {e : Event} (h : l.spells e = []) :
    (l.enter mex e).1.groups = l.groups ∧ (l.enter mex e).1.context = l.context := by
  rcases enter_cases mex l e with ⟨file, t, rfl, hstop, -⟩ | ⟨-, hbuilt⟩
  · rw [spells, if_pos hstop] at h
    cases h
  · exact hbuilt

theorem built_run {es : List Event} (h : l.spelled mex es = []) :
    (l.run mex es).groups = l.groups ∧ (l.run mex es).context = l.context := by
  induction es generalizing l with
  | nil => exact ⟨rfl, rfl⟩
  | cons e es ih =>
    obtain ⟨he, hes⟩ := List.append_eq_nil_iff.1 h
    obtain ⟨hgroups, hcontext⟩ := built_enter mex he
    obtain ⟨hgroups', hcontext'⟩ := ih hes
    exact ⟨hgroups'.trans hgroups, hcontext'.trans hcontext⟩

/-- The ledger after a line that breaks off a statement. -/
def brokenOff (l : Ledger) : Ledger :=
  { l with pending := [], errors := l.errors + if l.pending.isEmpty then 0 else 1 }

theorem dropPending_fst (file : String) (line : Int) (atEnd : Bool) (l : Ledger) :
    (l.dropPending file line atEnd).1 = l.brokenOff := by
  unfold dropPending brokenOff
  split
  · exact congrArg (fun ts => { l with pending := ts }) (List.isEmpty_iff.1 ‹_›)
  · rfl

theorem dropPending_notices {file : String} {line : Int} {atEnd : Bool} (h : l.pending ≠ []) :
    (l.dropPending file line atEnd).2.notices = [.badStatement file line (.unfinished atEnd)] := by
  rw [dropPending, if_neg (by simpa using h)]

section

variable {s : Stop} (hs : s.breaksOff = true)

include hs

theorem run_breaksOff (mex : String) (l : Ledger) : l.run mex (Stop.events [s]) = l.brokenOff := by
  rw [Stop.events_of_breaksOff hs]
  exact dropPending_fst s.file s.shown false l

theorem spelled_breaksOff (mex : String) (l : Ledger) : l.spelled mex (Stop.events [s]) = [] := by
  rw [Stop.events_of_breaksOff hs]
  rfl

theorem notices_breaksOff (mex : String) (hpending : l.pending ≠ []) :
    l.notices mex (Stop.events [s]) = [.badStatement s.file s.shown (.unfinished false)] := by
  rw [Stop.events_of_breaksOff hs]
  exact (List.append_nil _).trans (dropPending_notices hpending)

end

end Ledger

namespace Walk

variable {ρ : Type} {m : WalkMode ρ} {inc : String → Walk ρ → Walk ρ} {l : List Char} {w : Walk ρ}

theorem takeLine_opener (hblock : w.inBlock = false)
    (h : SourceLine.classify (SourceLine.indent l).2 = .opener) :
    w.takeLine m inc l = { (w.indented l).onDesk .nextLine with inBlock := true } := by
  rw [takeLine, hblock, openLine]
  simp only [h]
  rfl

theorem included?_eq_some {file : List Char} (hblock : w.inBlock = false)
    (h : SourceLine.classify (SourceLine.indent l).2 = .include file) :
    w.included? l = some (String.ofList file) := by
  rw [included?, hblock, h]
  rfl

end Walk

namespace Command

variable {mex : String} {batching listing : Bool} {inc : String → Walk Ledger → Walk Ledger}
  {l : List Char} {v : Walk Ledger}

/-- A line that includes no file is a run of the ledger on its tokens. -/
theorem takeLine_run {s : Stop} (hhalt : v.halt = none) (hshown : s.shown = v.desk.line)
    (hblock : s.inBlock = v.inBlock) (hinc : v.included? s.line = none)
    (hgoes : (v.takeLine (walkMode mex batching listing) inc s.line).halt = none) :
    let v' := v.takeLine (walkMode mex batching listing) inc s.line
    let es := Ledger.events (s.tokens.map (v.desk.file, ·))
    v'.reader = v.reader.run mex es ∧ v'.desk.notices = v.desk.notices ++ v.reader.notices mex es := by
  intro v' es
  have htook : Walk.Took (walkMode mex batching listing) s.tokens v v' :=
    Walk.took_takeLine walkMode_stays hhalt hshown hblock hinc
  obtain ⟨ns, hfed, hreported⟩ := htook.gave
  rw [hgoes] at hfed
  obtain ⟨hledger, hnotices⟩ := fed_walkMode hfed
  rcases hreported with h | ⟨h, -⟩
  · exact ⟨hledger, h.trans hnotices⟩
  · rw [hgoes] at h
    cases h

/-- **A line that breaks off a statement** drops what is pending and reports it, unless it names an
output that cannot be opened. -/
theorem takeLine_breaksOff (hhalt : v.halt = none) (hblock : v.inBlock = false)
    (hpending : v.reader.pending ≠ [])
    (hbreaks : (SourceLine.classify (SourceLine.indent l).2).breaksOff = true) :
    let v' := v.takeLine (walkMode mex batching listing) inc l
    batching = true ∧ v'.halt.isSome = true ∨
      v'.reader = { v.reader with pending := [], errors := v.reader.errors + 1 } ∧
        v'.desk.notices
          = v.desk.notices ++ [.badStatement v.desk.file v.desk.line (.unfinished false)] := by
  intro v'
  have hinc : v.included? l = none := by
    rw [Walk.included?, hblock]
    cases hc : SourceLine.classify (SourceLine.indent l).2 with
    | «include» name =>
      rw [hc] at hbreaks
      cases hbreaks
    | _ => rfl
  cases hend : v'.halt with
  | some e =>
    refine Or.inl ⟨?_, rfl⟩
    cases batching with
    | true => rfl
    | false =>
      have hgoes : v'.halt = none := (Walk.goes_takeLine inc rfl hhalt hinc).1
      rw [hgoes] at hend
      cases hend
  | none =>
    -- A stop that shows the line the desk has come to, wherever that is.
    let s : Stop :=
      { file := v.desk.file, number := v.desk.line.toNat, includes := (-v.desk.line).toNat
        inBlock := v.inBlock, line := l }
    have hshown : s.shown = v.desk.line := by
      change (v.desk.line.toNat : Int) - ((-v.desk.line).toNat : Int) = v.desk.line
      omega
    have htokens : s.tokens = [.otherLine v.desk.line] := by
      rw [Stop.tokens_of_breaksOff, hshown]
      exact (Bool.and_eq_true ..).mpr ⟨by simp [s, hblock], hbreaks⟩
    obtain ⟨hledger, hnotices⟩ := takeLine_run (s := s) hhalt hshown rfl hinc hend
    rw [htokens] at hledger hnotices
    refine Or.inr ⟨hledger.trans ?_, hnotices.trans ?_⟩
    · refine (Ledger.dropPending_fst v.desk.file v.desk.line false v.reader).trans ?_
      rw [Ledger.brokenOff, if_neg (by simpa using hpending)]
    · refine congrArg (v.desk.notices ++ ·) ?_
      exact (List.append_nil _).trans (Ledger.dropPending_notices hpending)

/-- **Which lines break a statement off.** With tokens pending, a line outside blocks that is text, C,
a comment or a direction for output has them dropped and reports it, unless it names an output of a
batch that cannot be opened. One that opens a block of C leaves them pending, and so does one that
includes a file. So of the stops of a walk those of the first kind part the tokens: what is entered
after such a stop is entered as if nothing had been pending, and each statement is made of tokens from
one side of it; while a stop in a block of C or at its opening changes nothing. -/
theorem unfinished_statements (mex : String) (batching listing : Bool) (name : String)
    (w : Walk Ledger) :
    let m := walkMode mex batching listing
    (∀ (inc : String → Walk Ledger → Walk Ledger) (l : List Char) (v : Walk Ledger),
      v.halt = none → v.inBlock = false → v.reader.pending ≠ [] →
      let kind := SourceLine.classify (SourceLine.indent l).2
      let v' := v.takeLine m inc l
      (kind.breaksOff = true →
        batching = true ∧ v'.halt.isSome = true ∨
          v'.reader = { v.reader with pending := [], errors := v.reader.errors + 1 } ∧
            v'.desk.notices
              = v.desk.notices ++ [.badStatement v.desk.file v.desk.line (.unfinished false)]) ∧
      (kind = .opener →
        v'.reader = v.reader ∧ v'.desk.notices = v.desk.notices ∧ v'.inBlock = true) ∧
      ∀ file, kind = .include file → v' = inc (String.ofList file) (v.indented l) ∧
        (v.indented l).reader = v.reader ∧ (v.indented l).desk.notices = v.desk.notices) ∧
    (∀ (l : Ledger) (es : List Ledger.Event), l.spelled mex es = [] →
      (l.run mex es).groups = l.groups ∧ (l.run mex es).context = l.context) ∧
    ∀ before s after, w.stops m name = before ++ s :: after →
      let l := w.reader.run mex (Stop.events before)
      (s.breaksOff = true →
        (w.file m name).reader = l.brokenOff.run mex (Stop.events after) ∧
        (l.pending ≠ [] → l.brokenOff.errors = l.errors + 1 ∧
          .badStatement s.file s.shown (.unfinished false) ∈ (w.file m name).desk.notices) ∧
        w.reader.spelled mex (Stop.events (w.stops m name))
          = w.reader.spelled mex (Stop.events before) ++ l.brokenOff.spelled mex (Stop.events after) ∧
        (∀ ts ∈ w.reader.spelled mex (Stop.events before), ∀ t ∈ ts,
          t ∈ w.reader.pending ∨ t ∈ before.flatMap Stop.tokens) ∧
        ∀ ts ∈ l.brokenOff.spelled mex (Stop.events after), ∀ t ∈ ts, t ∈ after.flatMap Stop.tokens) ∧
      (s.inBlock = true ∨ s.kind = .opener →
        (w.file m name).reader = l.run mex (Stop.events after)) := by
  intro m
  refine ⟨?_, fun l es h => Ledger.built_run h, ?_⟩
  · intro inc l v hhalt hblock hpending kind v'
    refine ⟨fun hbreaks => takeLine_breaksOff hhalt hblock hpending hbreaks, fun hopener => ?_,
      fun file hfile => ?_⟩
    · have hv' : v' = _ := Walk.takeLine_opener hblock hopener
      rw [hv']
      exact ⟨rfl, rfl, rfl⟩
    · exact ⟨Walk.takeLine_included (Walk.included?_eq_some hblock hfile), rfl, rfl⟩
  · intro before s after hstops l
    obtain ⟨hreader, hreported⟩ := read_file mex batching listing name w
    have hevents : Stop.events (w.stops m name)
        = Stop.events before ++ (Stop.events [s] ++ Stop.events after) := by
      rw [hstops, ← List.singleton_append, Stop.events_append, Stop.events_append]
    have hrun : (w.file m name).reader = (l.run mex (Stop.events [s])).run mex (Stop.events after) := by
      rw [← Ledger.run_append, ← Ledger.run_append, ← hevents]
      exact hreader
    refine ⟨fun hbreaks => ?_, fun hidle => ?_⟩
    · rw [Ledger.run_breaksOff hbreaks] at hrun
      refine ⟨hrun, fun hpending => ⟨?_, ?_⟩, ?_, ?_, ?_⟩
      · rw [Ledger.brokenOff, if_neg (by simpa using hpending)]
      · have hall : Notice.badStatement s.file s.shown (.unfinished false)
            ∈ w.desk.notices ++ w.reader.notices mex (Stop.events (w.stops m name)) := by
          rw [hevents, Ledger.notices_append, Ledger.notices_append,
            Ledger.notices_breaksOff hbreaks mex hpending]
          simp
        rcases hreported with h | ⟨-, n, -, h⟩
        · rw [h]
          exact hall
        · rw [h]
          exact List.mem_append_left _ hall
      · rw [hevents, Ledger.spelled_append, Ledger.spelled_append,
          Ledger.spelled_breaksOff hbreaks, List.nil_append, Ledger.run_breaksOff hbreaks]
      · intro ts hts t ht
        rcases Ledger.seen_of_mem_spelled hts ht with h | ⟨file, h⟩
        · exact Or.inl h
        · exact Or.inr (Stop.mem_tokens_of_event h)
      · intro ts hts t ht
        rcases Ledger.seen_of_mem_spelled hts ht with h | ⟨file, h⟩
        · cases h
        · exact Stop.mem_tokens_of_event h
    · rw [hrun, Stop.events_of_idle hidle]
      rfl

/-- A statement broken off by a line of text, and one that a block of C and an empty file stand in. -/
def brokenFolder : Folder :=
  { files := [(["main.mw"], "# f(int x\n%\n# );\n".toUTF8),
      (["block.mw"], "# f(int x\n$[\n$]\n# );\n".toUTF8),
      (["nested.mw"], "# f(int x\n@include a.mw\n# );\n".toUTF8), (["a.mw"], ByteArray.empty)] }

/-- The first half is dropped and reported at the second line, and the other half fails to parse. -/
theorem unfinished_statements_text :
    let m := walkMode "m" false false
    let w : Walk Ledger := { desk := { folder := brokenFolder }, reader := {} }
    let s : Stop := ⟨"main.mw", 2, 0, false, "%\n".toList⟩
    w.stops m "main.mw" = [⟨"main.mw", 1, 0, false, "# f(int x\n".toList⟩] ++ s ::
        [⟨"main.mw", 3, 0, false, "# );\n".toList⟩] ∧
      .badStatement "main.mw" 2 (.unfinished false) ∈ (w.file m "main.mw").desk.notices ∧
      (w.file m "main.mw").reader.errors = 2 ∧ (w.file m "main.mw").reader.groups = [] ∧
      w.reader.spelled "m" (Stop.events (w.stops m "main.mw"))
        = [[⟨.punct, ")", 3⟩, ⟨.punct, ";", 3⟩]] := by
  intro m w s
  have hstops : w.stops m "main.mw" = [⟨"main.mw", 1, 0, false, "# f(int x\n".toList⟩] ++ s ::
      [⟨"main.mw", 3, 0, false, "# );\n".toList⟩] := by decide +kernel
  obtain ⟨hreader, hreport, hspelled, -, -⟩ :=
    ((unfinished_statements "m" false false "main.mw" w).2.2 _ s _ hstops).1 (by decide +kernel)
  refine ⟨hstops, (hreport (by decide +kernel)).2, ?_, ?_, hspelled.trans (by decide +kernel)⟩
  · rw [hreader]
    decide +kernel
  · rw [hreader]
    decide +kernel

/-- In a block of C, and in a file that is included, a statement is left unfinished unnoticed: it goes on
behind them, and a routine is made of both its halves. -/
theorem unfinished_unnoticed :
    let m := walkMode "m" false false
    let w : Walk Ledger := { desk := { folder := brokenFolder }, reader := {} }
    ∀ name ∈ ["block.mw", "nested.mw"],
      (w.file m name).halt = none ∧ (w.file m name).desk.notices = [] ∧
        (w.file m name).reader.errors = 0 ∧
        (w.file m name).reader.groups.map (·.first.name) = ["f"] := by
  decide +kernel

end Command

end MexBridge
