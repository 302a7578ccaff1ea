import MexBridge.Proofs.Gateway.Definitions
import MexBridge.Token.Lexer
import Mathlib.Data.List.Nodup

/-!
# Dispatch

MATLAB reaches a stub by a number, through a table, or by a signature, through a chain of
comparisons. After any run both ways lead from a routine to the stub of the first routine with its
signature (`dispatch_run`): the ids fill the table without a gap, and the groups are told apart by
their signatures.
-/

namespace MexBridge

open Text (Occurs occurs_left occurs_join)

namespace Gateway

/-- The table section for these stubs: entry 0 is null, entry `i` is the `i`-th of them. -/
def tableText (stubs : List Int) : String :=
  "typedef void (*mwStubFunc_t)(int nlhs, mxArray* plhs[],\n"
    ++ "                             int nrhs, const mxArray* prhs[]);\n\n"
    ++ "static mwStubFunc_t mwStubs_[] = \x7b\n    NULL"
    ++ String.join (stubs.map fun k => ",\n    mexStub" ++ toString k)
    ++ "\n\x7d;\n\n"
    ++ "static int mwNumStubs_ = " ++ toString stubs.length ++ ";\n\n"

/-- A branch of the chain of comparisons: the stub that it calls, and the signature in the constant
that it compares with. -/
structure Branch where
  stub : Int
  signature : String
  deriving DecidableEq

namespace Branch

/-- The branch as `mexFunction` has it. -/
def text (b : Branch) : String :=
  "    else if (strcmp(id, stubids" ++ toString b.stub ++ "_) == 0)\n"
    ++ "        mexStub" ++ toString b.stub ++ "(nlhs,plhs, nrhs-1,prhs+1);\n"

/-- The constant, and the line that opens the stub after it. -/
def target (b : Branch) : String :=
  "static const char* stubids" ++ toString b.stub ++ "_ = \"" ++ b.signature ++ "\";\n\n"
    ++ "void mexStub" ++ toString b.stub ++ "(int nlhs, mxArray* plhs[],\n"

end Branch

def branches (p : Promotion) (gs : List Group) : List Branch :=
  gs.map fun g => ⟨g.first.id, g.first.signature p⟩

/-- The stub that a chain of these branches calls for an identifier: `strcmp` picks the first. -/
def taken (bs : List Branch) (id : String) : Option Int :=
  (bs.find? (·.signature = id)).map (·.stub)

/-- The chain starts with the branches, and no other text stands between them. -/
theorem caseSection_eq (p : Promotion) (gs : List Group) :
    ∃ rest, caseSection gs = String.join ((branches p gs).map Branch.text)
      ++ "    else if (strcmp(id, \"*profile on*\") == 0) \x7b\n" ++ rest := by
  have htexts : (branches p gs).map Branch.text = gs.map signatureCase := by
    rw [branches, List.map_map]
    exact List.map_congr_left fun g _ => rfl
  delta caseSection
  simp only [htexts, String.append_assoc]
  exact ⟨_, rfl⟩

/-- A stub has the target of its branch after its comment. -/
theorem target_stub {c : Context} {g : Group} {signature text : String}
    (hsigned : g.first.signed c.settings.promotion = .ok signature) (h : g.stub c = .ok text) :
    ∃ rest, text = g.comment ++ (Branch.mk g.first.id signature).target ++ rest := by
  obtain ⟨signature', hsigned', h⟩ := bind_eq_ok.1 h
  obtain ⟨main, -, h⟩ := bind_eq_ok.1 h
  cases hsigned.symm.trans hsigned'
  obtain rfl := Except.ok.inj h
  delta Group.stubHead Branch.target
  simp only [String.append_assoc]
  exact ⟨_, rfl⟩

/-! ## The profile -/

/-- The line that makes the profile, which has a place for each number below its size. -/
def profileSize (size : Int) : String :=
  "            mexprofrecord_ = (int*) malloc(" ++ toString size ++ " * sizeof(int));\n"

/-- How a report prints a place of the profile. -/
def profileRead (place : Int) : String := "\\n\", mexprofrecord_[" ++ toString place ++ "]);\n"

/-- How a stub counts a call of it. -/
def profileCount (place : Int) : String :=
  "    if (mexprofrecord_)\n        mexprofrecord_[" ++ toString place ++ "]++;\n"

theorem occurs_profileSize (gs : List Group) :
    Occurs (profileSize (maxFirstId gs + 1)) (caseSection gs) := by
  obtain ⟨before, after, heq⟩ : ∃ before after, caseSection gs
      = before ++ (profileSize (maxFirstId gs + 1) ++ after) := by
    delta caseSection profileSize
    refine ⟨String.join (gs.map signatureCase)
      ++ "    else if (strcmp(id, \"*profile on*\") == 0) \x7b\n"
      ++ "        if (!mexprofrecord_) \x7b\n", ?_⟩
    simp only [String.append_assoc]
    exact ⟨_, rfl⟩
  rw [heq]
  exact (occurs_left ..).append_left _

theorem occurs_profileRead (printer : String) {gs : List Group} {g : Group} (hg : g ∈ gs) :
    Occurs (profileRead g.first.id) (profileReport printer gs) := by
  obtain ⟨before, heq⟩ : ∃ before, profileLine printer g = before ++ profileRead g.first.id := by
    delta profileLine profileRead
    simp only [← String.append_assoc]
    exact ⟨_, rfl⟩
  have hline : Occurs (profileRead g.first.id) (profileLine printer g) := by
    rw [heq]
    exact Occurs.append_left List.infix_rfl _
  exact (hline.trans (occurs_join (List.mem_map_of_mem hg))).append_left _

theorem occurs_profileCount {c : Context} {g : Group} {text : String} (h : g.stub c = .ok text) :
    Occurs (profileCount g.first.id) text := by
  obtain ⟨signature, main, hmain, rfl⟩ := Group.stub_eq_ok h
  obtain ⟨-, -, -, -, hparts⟩ := Routine.mainStatements_eq_ok hmain
  have hmem : Piece.text (profileCount g.first.id) ∈ main.flatMap Stmt.code :=
    List.mem_flatMap.2 ⟨.recordCall g.first.id, by simp [hparts], List.mem_singleton.2 rfl⟩
  have hcode : Occurs (profileCount g.first.id) (Code.render (main.flatMap Stmt.code)) :=
    occurs_join (List.mem_map_of_mem (f := Piece.render) hmem)
  exact (((hcode.append_left _).append_right _).append_right _).append_right _

/-! ## Numbers -/

theorem fst_stubIds (gs : List Group) :
    (stubIds gs).map Prod.fst = (gs.flatMap Group.members).map (·.id) := by
  induction gs with
  | nil => rfl
  | cons g gs ih =>
    simp only [stubIds, List.flatMap_cons, List.map_append] at ih ⊢
    rw [ih]
    simp [Group.members, Function.comp_def]

theorem mem_stubIds {gs : List Group} {g : Group} {r : Routine} (hg : g ∈ gs)
    (hr : r ∈ g.members) : (r.id, g.first.id) ∈ stubIds gs := by
  refine List.mem_flatMap.2 ⟨g, hg, ?_⟩
  rcases List.mem_cons.1 hr with rfl | hr
  · exact List.mem_cons_self ..
  · exact List.mem_cons_of_mem _ (List.mem_map.2 ⟨r, hr, rfl⟩)

theorem lookup_of_mem {l : List (Int × Int)} (hn : (l.map Prod.fst).Nodup) {a b : Int}
    (h : (a, b) ∈ l) : l.lookup a = some b := by
  induction l with
  | nil => simp at h
  | cons e l ih =>
    obtain ⟨a', b'⟩ := e
    simp only [List.map_cons, List.nodup_cons] at hn
    rcases List.mem_cons.1 h with h | h
    · cases h; simp
    · have hne : a ≠ a' := fun e => hn.1 (e ▸ List.mem_map_of_mem (f := Prod.fst) h)
      rw [List.lookup_cons, beq_eq_false_iff_ne.2 hne]
      exact ih hn.2 h

/-- With ids that differ, the stub of an id is that of its group. -/
theorem stubOf_eq {gs : List Group} (hn : ((gs.flatMap Group.members).map (·.id)).Nodup) {g : Group}
    {r : Routine} (hg : g ∈ gs) (hr : r ∈ g.members) : stubOf gs r.id = some g.first.id := by
  refine lookup_of_mem ?_ (List.mem_reverse.2 (mem_stubIds hg hr))
  rw [List.map_reverse, List.nodup_reverse, fst_stubIds]
  exact hn

/-! ## The largest id -/

theorem foldl_max_spec {α : Type} (f : α → Int) (l : List α) (m : Int) :
    m ≤ l.foldl (fun m a => max m (f a)) m ∧ (∀ a ∈ l, f a ≤ l.foldl (fun m a => max m (f a)) m) ∧
      (l.foldl (fun m a => max m (f a)) m = m ∨
        ∃ a ∈ l, l.foldl (fun m a => max m (f a)) m = f a) := by
  induction l generalizing m with
  | nil => simp
  | cons a l ih =>
    obtain ⟨h1, h2, h3⟩ := ih (max m (f a))
    simp only [List.foldl_cons]
    refine ⟨by omega, ?_, ?_⟩
    · intro b hb
      rcases List.mem_cons.1 hb with rfl | hb
      · omega
      · exact h2 b hb
    · rcases h3 with h3 | ⟨b, hb, h3⟩
      · by_cases hm : f a ≤ m
        · left; omega
        · right; exact ⟨a, by simp, by omega⟩
      · exact Or.inr ⟨b, by simp [hb], h3⟩

theorem le_maxFirstId {gs : List Group} {g : Group} (hg : g ∈ gs) : g.first.id ≤ maxFirstId gs :=
  (foldl_max_spec (fun g : Group => g.first.id) gs 0).2.1 g hg

/-- If the ids are 1 to `n`, the largest is `n`. -/
theorem maxId_eq {gs : List Group} {n : Nat} (h : ((gs.flatMap Group.members).map (·.id)).Perm
    ((List.range n).map fun (i : Nat) => (i : Int) + 1)) : maxId gs = n := by
  have hmax : (stubIds gs).foldl (fun m e => max m e.1) 0 = maxId gs := rfl
  obtain ⟨h1, h2, h3⟩ := foldl_max_spec Prod.fst (stubIds gs) 0
  rw [hmax] at h1 h2 h3
  have hmem : ∀ i : Int, (∃ e ∈ stubIds gs, e.1 = i) ↔ 1 ≤ i ∧ i ≤ n := by
    intro i
    rw [← List.mem_map, fst_stubIds, h.mem_iff, List.mem_map]
    constructor
    · rintro ⟨j, hj, rfl⟩
      have := List.mem_range.1 hj
      omega
    · rintro ⟨hi, hn⟩
      exact ⟨(i - 1).toNat, List.mem_range.2 (by omega), by omega⟩
  have hle : maxId gs ≤ n := by
    rcases h3 with h3 | ⟨e, he, h3⟩
    · omega
    · have := (hmem e.1).1 ⟨e, he, rfl⟩
      exact h3 ▸ this.2
  by_cases hn : n = 0
  · omega
  · obtain ⟨e, he, hen⟩ := (hmem n).2 ⟨by omega, Int.le_refl _⟩
    have := h2 e he
    omega

/-- If moreover the ids differ, the table section is that of the stubs of the groups. -/
theorem tableSection_eq {gs : List Group} {n : Nat} (hn : 1 ≤ n)
    (h : ((gs.flatMap Group.members).map (·.id)).Perm
      ((List.range n).map fun (i : Nat) => (i : Int) + 1)) :
    ∃ stubs : List Int, stubs.length = n ∧ tableSection gs = tableText stubs ∧
      ∀ i < n, stubs[i]? = stubOf gs ((i : Int) + 1) := by
  have hdom : ∀ i < n, (stubOf gs ((i : Int) + 1)).isSome := by
    intro i hi
    have hm : (i : Int) + 1 ∈ (stubIds gs).reverse.map Prod.fst := by
      rw [List.map_reverse, List.mem_reverse, fst_stubIds, h.mem_iff]
      exact List.mem_map.2 ⟨i, List.mem_range.2 hi, rfl⟩
    obtain ⟨e, he, hei⟩ := List.mem_map.1 hm
    exact List.lookup_isSome_iff.2 ⟨e, he, by simp [hei]⟩
  refine ⟨(List.range n).map fun (i : Nat) => (stubOf gs ((i : Int) + 1)).getD 0, by simp, ?_, ?_⟩
  · have hmax := maxId_eq h
    have htable : (stubTable gs).map tableEntry =
        ((List.range n).map fun (i : Nat) => (stubOf gs ((i : Int) + 1)).getD 0).map
          fun k => ",\n    mexStub" ++ toString k := by
      rw [stubTable, hmax, List.map_map, List.map_map, Int.toNat_natCast]
      refine List.map_congr_left fun i hi => ?_
      obtain ⟨k, hk⟩ := Option.isSome_iff_exists.1 (hdom i (List.mem_range.1 hi))
      simp [hk, tableEntry]
    have hpos : ¬ maxId gs ≤ 0 := by omega
    have hnum : toString (n : Int) = toString n := rfl
    unfold tableSection tableText
    rw [if_neg hpos, htable, hmax, hnum, List.length_map, List.length_range]
  · intro i hi
    obtain ⟨k, hk⟩ := Option.isSome_iff_exists.1 (hdom i hi)
    simp [hi, hk]

end Gateway

namespace Ledger.Filed

variable {p : Promotion} {l : Ledger}

theorem nodup_ids (h : Filed p l) : (l.routines.map (·.id)).Nodup := by
  rw [h.ids.nodup_iff]
  exact List.nodup_range.map fun i j e => by omega

theorem signature_first (h : Filed p l) {g : Group} (hg : g ∈ l.groups) :
    g.first.signature p = g.signature :=
  h.signed g hg _ (List.mem_cons_self ..)

theorem first_le (h : Filed p l) {g : Group} {r : Routine} (hg : g ∈ l.groups)
    (hr : r ∈ g.members) : g.first.id ≤ r.id := by
  rcases List.mem_cons.1 hr with rfl | hr
  · exact Int.le_refl _
  · exact Int.le_of_lt (h.later g hg r hr)

/-- Routines with one signature are in one group. -/
theorem mem_members (h : Filed p l) {g : Group} {f r : Routine} (hg : g ∈ l.groups)
    (hr : r ∈ g.members) (hf : f ∈ l.routines) (hs : f.signature p = r.signature p) :
    f ∈ g.members := by
  obtain ⟨g', hg', hf'⟩ := List.mem_flatMap.1 hf
  have e : g'.signature = g.signature := by
    rw [← h.signed g' hg' f hf', ← h.signed g hg r hr, hs]
  exact List.inj_on_of_nodup_map h.distinct hg' hg e ▸ hf'

theorem signed_first (h : Filed p l) {g : Group} (hg : g ∈ l.groups) :
    g.first.signed p = .ok (g.first.signature p) := by
  have := h.signable g.first (mem_routines hg (List.mem_cons_self ..))
  simp [Routine.signed, this]

/-- The chain of comparisons leads a signature to its group. -/
theorem taken_branches (h : Filed p l) {g : Group} {r : Routine} (hg : g ∈ l.groups)
    (hr : r ∈ g.members) :
    Gateway.taken (Gateway.branches p l.groups) (r.signature p) = some g.first.id := by
  have hsig : ∀ g' ∈ l.groups, g'.first.signature p = r.signature p ↔ g' = g := by
    intro g' hg'
    rw [h.signature_first hg', h.signed g hg r hr]
    exact ⟨List.inj_on_of_nodup_map h.distinct hg' hg, fun e => e ▸ rfl⟩
  rw [Gateway.taken, Gateway.branches, List.find?_map]
  cases hfind : l.groups.find? _ with
  | none =>
    have := List.find?_eq_none.1 hfind g hg
    simp [(hsig g hg).2 rfl] at this
  | some g' =>
    have hmem := List.mem_of_find?_eq_some hfind
    have hp := List.find?_some hfind
    rw [(hsig g' hmem).1 (by simpa using hp)]
    rfl

/-- The profile has a place for the stub of each group. -/
theorem in_profile (h : Filed p l) {g : Group} (hg : g ∈ l.groups) :
    0 ≤ g.first.id ∧ g.first.id < Gateway.maxFirstId l.groups + 1 := by
  have hid := h.id_bounds (mem_routines hg (List.mem_cons_self ..))
  have hmax := Gateway.le_maxFirstId hg
  omega

/-- Table and comparisons lead a routine to one stub: that of the smallest id with its
signature. -/
theorem dispatched (h : Filed p l) {stubs : List Int}
    (hentry : ∀ i < l.count, stubs[i]? = Gateway.stubOf l.groups ((i : Int) + 1))
    {r : Routine} (hr : r ∈ l.routines) :
    ∃ k, stubs[(r.id - 1).toNat]? = some k ∧
      Gateway.taken (Gateway.branches p l.groups) (r.signature p) = some k ∧
      (∃ f ∈ l.routines, f.id = k ∧ f.signature p = r.signature p) ∧
      ∀ f ∈ l.routines, f.signature p = r.signature p → k ≤ f.id := by
  obtain ⟨g, hg, hrg⟩ := List.mem_flatMap.1 hr
  have hid := h.id_bounds hr
  refine ⟨g.first.id, ?_, h.taken_branches hg hrg, ?_, ?_⟩
  · have hlt : (r.id - 1).toNat < l.count := by omega
    rw [hentry _ hlt, ← Gateway.stubOf_eq h.nodup_ids hg hrg]
    congr 1; omega
  · refine ⟨g.first, mem_routines hg (List.mem_cons_self ..), rfl, ?_⟩
    rw [h.signature_first hg, h.signed g hg r hrg]
  · intro f hf hs
    exact h.first_le hg (h.mem_members hg hrg hf hs)

end Ledger.Filed

/-- The only place of the profile that a stub counts in is its own. -/
theorem Routine.recordCall_mem {c : Context} {r : Routine} {ss : List Stmt} {i : Int}
    (h : r.mainStatements c = .ok ss) (hi : Stmt.recordCall i ∈ ss) : i = r.id := by
  obtain ⟨g, hi⟩ := makes_mainStatements h _ (List.mem_append_left _ hi)
  cases hi with
  | recordCall => rfl
  | arg hv hs => cases hs
  | result hv hs => cases hs

namespace Ledger

/-- **Dispatch over whole runs.** Whatever tokens are fed and files ended, errors or not, if `n`
routines have been entered then
* their ids are 1 to `n`, each once; a twin has the signature of the first of its group and a larger
  id; groups differ in their signatures, which their stubs can write;
* the chain of comparisons is made of the branches, one for each group, and each stub has the
  constant that its branch compares with;
* the table has a null entry and `n` more, and for each routine its entry is the stub of the
  smallest id with its signature, the one whose branch is taken for that signature;
* the place of the profile that a stub counts its calls in and the reports print lies inside it. -/
theorem dispatch_run (mex : String) (c : Context) (es : List Event)
    (hn : 1 ≤ (run mex { context := c } es).count) :
    let l := run mex { context := c } es
    let p := c.settings.promotion
    (l.routines.map (·.id)).Perm ((List.range l.count).map fun (i : Nat) => (i : Int) + 1) ∧
    (∀ g ∈ l.groups, ∀ r ∈ g.twins, r.signature p = g.first.signature p ∧ g.first.id < r.id) ∧
    (l.groups.Pairwise fun g g' => g.first.signature p ≠ g'.first.signature p) ∧
    (∀ g ∈ l.groups, g.first.signed l.context.settings.promotion = .ok (g.first.signature p)) ∧
    (∃ rest, Gateway.caseSection l.groups =
      String.join ((Gateway.branches p l.groups).map Gateway.Branch.text)
        ++ "    else if (strcmp(id, \"*profile on*\") == 0) \x7b\n" ++ rest) ∧
    (∀ g ∈ l.groups, ∀ text, g.stub l.context = .ok text → ∃ b ∈ Gateway.branches p l.groups,
      b.stub = g.first.id ∧ ∃ rest, text = g.comment ++ b.target ++ rest) ∧
    (∃ stubs : List Int, stubs.length = l.count ∧
      Gateway.tableSection l.groups = Gateway.tableText stubs ∧
      ∀ r ∈ l.routines, ∃ k, stubs[(r.id - 1).toNat]? = some k ∧
        Gateway.taken (Gateway.branches p l.groups) (r.signature p) = some k ∧
        (∃ f ∈ l.routines, f.id = k ∧ f.signature p = r.signature p) ∧
        ∀ f ∈ l.routines, f.signature p = r.signature p → k ≤ f.id) ∧
    Occurs (Gateway.profileSize (Gateway.maxFirstId l.groups + 1)) (Gateway.caseSection l.groups) ∧
    (∀ g ∈ l.groups,
      (∀ printer, Occurs (Gateway.profileRead g.first.id) (Gateway.profileReport printer l.groups)) ∧
      ∀ text, g.stub l.context = .ok text → Occurs (Gateway.profileCount g.first.id) text) ∧
    (∀ g ∈ l.groups, (0 ≤ g.first.id ∧ g.first.id < Gateway.maxFirstId l.groups + 1) ∧
      ∀ c' ss i, g.first.mainStatements c' = .ok ss → Stmt.recordCall i ∈ ss →
        0 ≤ i ∧ i < Gateway.maxFirstId l.groups + 1) := by
  intro l p
  have h : Filed p l := filed_run mex c es
  refine ⟨h.ids, ?_, ?_, ?_, Gateway.caseSection_eq p l.groups, ?_, ?_,
    Gateway.occurs_profileSize l.groups, fun g hg => ⟨fun printer =>
    Gateway.occurs_profileRead printer hg, fun text => Gateway.occurs_profileCount⟩, ?_⟩
  · intro g hg r hr
    refine ⟨?_, h.later g hg r hr⟩
    rw [h.signature_first hg, h.signed g hg r (List.mem_cons_of_mem _ hr)]
  · refine (List.pairwise_map.1 h.distinct).imp_of_mem ?_
    intro g g' hg hg' hne
    rw [h.signature_first hg, h.signature_first hg']
    exact hne
  · intro g hg
    rw [h.promotion]
    exact h.signed_first hg
  · intro g hg text htext
    refine ⟨_, List.mem_map_of_mem hg, rfl, ?_⟩
    exact Gateway.target_stub (h.promotion ▸ h.signed_first hg) htext
  · obtain ⟨stubs, hlen, htext, hentry⟩ := Gateway.tableSection_eq hn h.ids
    exact ⟨stubs, hlen, htext, fun r hr => h.dispatched hentry hr⟩
  · intro g hg
    refine ⟨h.in_profile hg, ?_⟩
    intro c' ss i hss hi
    rw [Routine.recordCall_mem hss hi]
    exact h.in_profile hg

/-- Two calls of one signature around another. -/
def twinEvents : List Event :=
  (Token.tokens 1 "f(); double x = g(int n); f();".toList).map (.token "a.mw")

theorem dispatch_run_twinEvents :
    let l := run "gate" { context := {} } twinEvents
    1 ≤ l.count ∧ l.groups.map (·.members.map (·.id)) = [[1, 3], [2]] ∧
    (∃ rest, Gateway.caseSection l.groups =
      "    else if (strcmp(id, stubids1_) == 0)\n        mexStub1(nlhs,plhs, nrhs-1,prhs+1);\n"
        ++ "    else if (strcmp(id, stubids2_) == 0)\n        mexStub2(nlhs,plhs, nrhs-1,prhs+1);\n"
        ++ "    else if (strcmp(id, \"*profile on*\") == 0) \x7b\n" ++ rest) ∧
    Occurs "            mexprofrecord_ = (int*) malloc(3 * sizeof(int));\n"
      (Gateway.caseSection l.groups) ∧
    ∃ stubs : List Int, stubs.length = 3 ∧
      Gateway.tableSection l.groups = Gateway.tableText stubs ∧ stubs[2]? = some 1 ∧
      Gateway.taken [⟨1, "f()"⟩, ⟨2, "c o double = g(c i int)"⟩] "f()" = some 1 := by
  intro l
  have hn : 1 ≤ l.count := by decide +kernel
  have hbranches : Gateway.branches .native l.groups = [⟨1, "f()"⟩, ⟨2, "c o double = g(c i int)"⟩] := by
    decide +kernel
  have htwin : ∃ r ∈ l.routines, r.id = 3 ∧ r.signature .native = "f()" := by decide +kernel
  obtain ⟨r, hr, hid, hsig⟩ := htwin
  obtain ⟨-, -, -, -, ⟨rest, hcase⟩, -, ⟨stubs, hlen, htext, hboth⟩, hsize, -⟩ :=
    dispatch_run "gate" {} twinEvents hn
  obtain ⟨k, hentry, htaken, -⟩ := hboth r hr
  have hcount : l.count = 3 := by decide +kernel
  have hlast : Gateway.maxFirstId l.groups = 2 := by decide +kernel
  refine ⟨hn, by decide +kernel, ⟨rest, ?_⟩, ?_, stubs, hlen.trans hcount, htext, ?_,
    by decide +kernel⟩
  · rw [hcase, hbranches]
    rfl
  · rw [hlast] at hsize
    exact hsize
  · rw [hbranches, hsig] at htaken
    cases htaken
    rw [hid] at hentry
    exact hentry

end Ledger

end MexBridge
