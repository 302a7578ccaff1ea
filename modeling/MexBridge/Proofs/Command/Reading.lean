import MexBridge.Command.Run
import MexBridge.Proofs.Ledger.Run
import MexBridge.Proofs.Source.Stops

/-!
# What reading a file enters in the ledger

A file is read by a walk that gives its tokens to the ledger. So the ledger it comes to is that of a
run on the tokens of the stops, and what is reported meanwhile is what the steps of the run report
(`read_file`).
-/

namespace MexBridge

namespace Ledger

/-- Tokens with their files, as a ledger is given them. -/
def events (es : List (String × Token)) : List Event := es.map fun e => .token e.1 e.2

/-- What the steps of a run report. -/
def notices (mex : String) (l : Ledger) : List Event → List Notice
  | [] => []
  | e :: es => (l.enter mex e).2.notices ++ notices mex (l.enter mex e).1 es

end Ledger

namespace Command

variable {mex : String} {batching listing : Bool}

theorem walkMode_stays : (walkMode mex batching listing).Stays :=
  ⟨fun _ _ _ => rfl, fun _ _ _ => rfl⟩

theorem fed_walkMode {l l' : Ledger} {ns ns' : List Notice} {es : List (String × Token)}
    (h : Walk.Fed (walkMode mex batching listing) l ns es l' ns') :
    l' = l.run mex (Ledger.events es) ∧ ns' = ns ++ l.notices mex (Ledger.events es) := by
  induction h with
  | nil l ns => exact ⟨rfl, (List.append_nil ns).symm⟩
  | cons d t _ ih =>
    obtain ⟨hledger, hnotices⟩ := ih
    exact ⟨hledger, hnotices.trans (List.append_assoc ..)⟩

/-- **Reading a file is a run of the ledger on its tokens,** and reports what the run does. -/
theorem read_file (mex : String) (batching listing : Bool) (name : String) (w : Walk Ledger) :
    let m := walkMode mex batching listing
    let es := Ledger.events ((w.stops m name).flatMap Stop.entries)
    (w.file m name).reader = w.reader.run mex es ∧
      (w.file m name).Reported (w.desk.notices ++ w.reader.notices mex es) := by
  intro m es
  obtain ⟨ns, hfed, hreported⟩ := (Walk.gave_file (m := m) walkMode_stays name w).1
  obtain ⟨hledger, rfl⟩ := fed_walkMode hfed
  exact ⟨hledger, hreported⟩

end Command

end MexBridge
