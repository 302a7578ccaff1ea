import MexBridge.Proofs.Source.Confined
import MexBridge.Proofs.Source.Routing
import MexBridge.Proofs.Statement.Retyping

/-!
# Sources with other names

Two sources may be the same but for names in their declarations (`Folder.Retold`). A walk through one
of them and a walk through the other do the same, deed by deed, but for those names (`Pace.script`), if
no output is read.
-/

namespace MexBridge

/-! ## Texts with other names -/

/-- The same line, or a declaration with other names. -/
def SourceLine.Retold (l l' : List Char) : Prop :=
  l' = l ∨ ∃ body body', classify (indent l).2 = .declaration body ∧
    classify (indent l').2 = .declaration body' ∧ (indent l').1 = (indent l).1 ∧
    ∀ line, List.Forall₂ Token.Like (Token.tokens line body) (Token.tokens line body')

/-- Tokens are cut in the same way on any line. -/
theorem Token.tokens_line (line line' : Int) (cs : List Char) :
    tokens line' cs = (tokens line cs).map fun t => { t with line := line' } := by
  induction cs using tokens.induct with
  | case1 => simp [tokens]
  | case2 c r _ h =>
    rw [tokens, tokens, h]
    rfl
  | case3 c r k t _ h ih =>
    rw [h] at ih
    rw [tokens, tokens, h]
    exact congrArg (_ :: ·) ih
  | case4 c r _ h ih =>
    rw [h] at ih
    rw [tokens, tokens, h]
    exact ih

/-- A declaration with other names, as it is on one line. -/
theorem SourceLine.retold_declaration {l l' body body' : List Char}
    (h : classify (indent l).2 = .declaration body) (h' : classify (indent l').2 = .declaration body')
    (hindent : (indent l').1 = (indent l).1)
    (hlike : List.Forall₂ Token.Like (Token.tokens 0 body) (Token.tokens 0 body')) : Retold l l' := by
  refine Or.inr ⟨body, body', h, h', hindent, fun line => ?_⟩
  rw [Token.tokens_line 0 line, Token.tokens_line 0 line, List.forall₂_map_left_iff,
    List.forall₂_map_right_iff]
  exact hlike.imp fun t t' ht => ⟨ht.kind, fun hk => by rw [ht.other hk]⟩

/-- Bytes that are read as the same lines, but for names in declarations. -/
structure Text.Retold (bytes bytes' : ByteArray) : Prop where
  lines : List.Forall₂ SourceLine.Retold (Text.read bytes).1 (Text.read bytes').1
  isText : (Text.read bytes').2 = (Text.read bytes).2

theorem Text.Retold.refl (bytes : ByteArray) : Text.Retold bytes bytes :=
  ⟨List.forall₂_same.2 fun _ _ => Or.inl rfl, rfl⟩

/-- The same files, whatever those at `R` hold. -/
structure Folder.Agrees (R : List Folder.Path) (d d' : Folder) : Prop extends d.SameNames d' where
  other : ∀ p, p ∉ R → d'.get? p = d.get? p

/-- The same files, but for names in declarations in those at `R`. -/
structure Folder.Retold (R : List Folder.Path) (d d' : Folder) : Prop extends d.Agrees R d' where
  texts : ∀ p ∈ R, Text.Retold (d.bytesFrom p 0) (d'.bytesFrom p 0)

/-- The same deed, with another name or another line of C. -/
inductive Deed.Like : Deed → Deed → Prop
  | same (d : Deed) : Like d d
  | token {t t' : Token} (h : t.Like t') : Like (.token t) (.token t')
  | c (s s' : String) : Like (.c s) (.c s')

namespace Deed.Like

variable {d d' : Deed} {ds ds' : List Deed}

theorem read? (h : d.Like d') : d'.read? = d.read? := by
  cases h <;> rfl

theorem target? (h : d.Like d') : d'.target? = d.target? := by
  cases h <;> rfl

theorem all (ds : List Deed) : List.Forall₂ Like ds ds := List.forall₂_same.2 fun d _ => same d

theorem filterMap_eq {α : Type} {f : Deed → Option α} (hf : ∀ d d', Like d d' → f d' = f d)
    (h : List.Forall₂ Like ds ds') : ds'.filterMap f = ds.filterMap f := by
  induction h with
  | nil => rfl
  | cons hd _ ih => simp only [List.filterMap_cons, hf _ _ hd, ih]

end Deed.Like

namespace SourceLine

/-- A declaration closes no block. -/
theorem isCloser_of_declaration {l body : List Char} (h : classify (indent l).2 = .declaration body) :
    isCloser l = false := by
  have hfits := fits_classify (indent l).2
  rw [h] at hfits
  obtain ⟨rest, hrest, -⟩ := hfits
  have hl : l = (indent l).1 ++ '#' :: rest := by
    rw [← hrest]
    exact (List.takeWhile_append_dropWhile).symm
  -- A closer starts with its mark, and a declaration with blanks or with a mark of its own.
  have hhead : ∀ c ∈ l.head?, c ≠ '$' := by
    intro c hc
    rw [hl] at hc
    cases hindent : (indent l).1 with
    | nil =>
      rw [hindent] at hc
      cases hc
      decide
    | cons c' cs =>
      rw [hindent] at hc
      cases hc
      have hblank : isIndent c = true :=
        List.all_eq_true.1 List.all_takeWhile c (show c ∈ (indent l).1 by rw [hindent]; simp)
      rintro rfl
      cases hblank
  unfold isCloser after?
  rw [if_neg]
  intro hprefix
  have hstart : Text.dropEnd isLineEnd l <+: l := by
    have hsuffix := (List.dropWhile_suffix isLineEnd (l := l.reverse))
    exact List.reverse_suffix.1 (by simpa [Text.dropEnd] using hsuffix)
  obtain ⟨tail, htail⟩ := (List.isPrefixOf_iff_prefix.1 hprefix).trans hstart
  exact hhead '$' (by rw [← htail]; rfl) rfl

end SourceLine

/-! ## Two walks in pace -/

namespace Folder

variable {d d' : Folder}

/-- A name leads to the same place for a file to be made. -/
theorem SameNames.place (h : d.SameNames d') (name : String) : d'.place name = d.place name := by
  simp only [Folder.place, Folder.route, Folder.locate, h.here, h.follow, h.isFolder]

theorem SameNames.put (h : d.SameNames d') (p : Path) (content content' : ByteArray) :
    ({ d with files := Folder.put p content d.files } : Folder).SameNames
      { d' with files := Folder.put p content' d'.files } where
  files := by rw [map_fst_put, map_fst_put, h.files]
  folders := h.folders
  here := h.here

end Folder

/-- Outputs for the same files leave folders with the same names. -/
theorem Sheet.sameNames_closeAll {os os' : List Sheet} (hos : os'.map (·.file) = os.map (·.file))
    {d d' : Folder} (h : d.SameNames d') : (closeAll os d).SameNames (closeAll os' d') := by
  refine Desk.sameNames_foldl (fun o o' d d' hfile h => ?_) hos (Desk.sameNames_landAll hos h)
  unfold finish
  rw [hfile]
  split
  · exact h.patch _ _ _ _ _
  · exact h

namespace Desk

theorem file_writeMatlab (s : String) (d : Desk) :
    (d.writeMatlab s).matlab.map (·.file) = d.matlab.map (·.file) :=
  Option.map_map ..

theorem file_writeC (s : String) (d : Desk) :
    (d.writeC s).c.map (·.file) = d.c.map (·.file) :=
  Option.map_map ..

end Desk

namespace Walk

variable {ρ σ : Type} {m : WalkMode ρ} {m' : WalkMode σ} {X : List Folder.Path} {F F' : Folder}
  {w w' : Walk ρ} {v v' : Walk σ} {ds ds' : List Deed}

theorem Avoids.like (h : Avoids m X F ds) (hb : m'.batching = m.batching) (hF : F.SameNames F')
    (hds : List.Forall₂ Deed.Like ds ds') : Avoids m' X F' ds' where
  reads := by
    rw [Deed.Like.filterMap_eq (fun _ _ h => h.read?) hds]
    exact h.reads
  opens := by
    rw [Deed.Like.filterMap_eq (fun _ _ h => h.target?) hds, hb]
    intro hbatching name hname p hp
    exact h.opens hbatching name hname p ((hF.place name).symm.trans hp)

/-- Two sources that differ in names, and the modes of two walks through them. -/
structure Told (m : WalkMode ρ) (m' : WalkMode σ) (X : List Folder.Path) (F F' : Folder) : Prop where
  quiet : m.Quiet
  quiet' : m'.Quiet
  batching : m'.batching = m.batching
  holds : ∀ p ∈ X, F.Holds p
  names : F.SameNames F'
  texts : ∀ p, p ∉ X → Text.Retold (F.bytesFrom p 0) (F'.bytesFrom p 0)

theorem Told.holds' (ht : Told m m' X F F') : ∀ p ∈ X, F'.Holds p := by
  intro p hp q hq hne
  rw [ht.names.isFolder]
  exact ht.holds p hp q hq hne

/-- Two walks at the same place of such sources, with outputs open for the same files. -/
structure Pace (X : List Folder.Path) (F F' : Folder) (w : Walk ρ) (v : Walk σ) : Prop where
  confined : Confined X F w
  confined' : Confined X F' v
  names : w.desk.folder.SameNames v.desk.folder
  matlab : v.desk.matlab.map (·.file) = w.desk.matlab.map (·.file)
  c : v.desk.c.map (·.file) = w.desk.c.map (·.file)
  file : v.desk.file = w.desk.file
  line : v.desk.line = w.desk.line
  inBlock : v.inBlock = w.inBlock
  halt : v.halt = w.halt

namespace Pace

theorem outputs (h : Pace X F F' w v) :
    v.desk.outputs.map (·.file) = w.desk.outputs.map (·.file) := by
  unfold Desk.outputs
  have hmatlab := congrArg Option.toList h.matlab
  have hc := congrArg Option.toList h.c
  rw [Option.toList_map, Option.toList_map] at hmatlab hc
  rw [List.map_append, List.map_append, hmatlab, hc]

/-- A file is found in both or in neither. -/
theorem find (h : Pace X F F' w v) (name : String) :
    v.desk.current.find name = w.desk.current.find name :=
  (Desk.sameNames_landAll h.outputs h.names).find name

theorem writeMatlab (h : Pace X F F' w v) (s : String) :
    Pace X F F' (w.onDesk (.writeMatlab s)) (v.onDesk (.writeMatlab s)) :=
  { h with
    confined := h.confined.alike (Desk.alike_writeMatlab s _)
    confined' := h.confined'.alike (Desk.alike_writeMatlab s _)
    matlab := (Desk.file_writeMatlab ..).trans (h.matlab.trans (Desk.file_writeMatlab ..).symm) }

theorem writeC (h : Pace X F F' w v) (s s' : String) :
    Pace X F F' (w.onDesk (.writeC s)) (v.onDesk (.writeC s')) :=
  { h with
    confined := h.confined.alike (Desk.alike_writeC s _)
    confined' := h.confined'.alike (Desk.alike_writeC s' _)
    c := (Desk.file_writeC ..).trans (h.c.trans (Desk.file_writeC ..).symm) }

theorem feed (hm : m.Quiet) (hm' : m'.Quiet) (h : Pace X F F' w v) (t t' : Token) :
    Pace X F F' (w.feed m t) (v.feed m' t') where
  confined := h.confined.alike (hm.alike t w.reader w.desk)
  confined' := h.confined'.alike (hm'.alike t' v.reader v.desk)
  names := (hm.folder ..).symm ▸ (hm'.folder ..).symm ▸ h.names
  matlab := (hm'.matlab ..).trans (h.matlab.trans (hm.matlab ..).symm)
  c := (congrArg (Option.map (·.file)) (hm'.c ..)).trans
    (h.c.trans (congrArg (Option.map (·.file)) (hm.c ..)).symm)
  file := (hm'.file ..).trans (h.file.trans (hm.file ..).symm)
  line := (hm'.line ..).trans (h.line.trans (hm.line ..).symm)
  inBlock := h.inBlock
  halt := h.halt

/-- Both outputs are closed, and both or neither are opened. -/
theorem openBatch {name : String} (hw : w.desk.matlab = none) (hv : v.desk.matlab = none)
    (hX : ∀ p ∈ X, F.Holds p) (hX' : ∀ p ∈ X, F'.Holds p)
    (hname : ∀ p, F.place name = .ok p → p ∈ X) (hname' : ∀ p, F'.place name = .ok p → p ∈ X)
    (h : Pace X F F' w v) : Pace X F F' (w.openBatch name) (v.openBatch name) := by
  have hconfined := h.confined.openBatch hX hname hw
  have hconfined' := h.confined'.openBatch hX' hname' hv
  have hplaces := h.names.place name
  cases hplace : w.desk.folder.place name with
  | error f =>
    rw [openBatch_error hplace, openBatch_error (hplaces.trans hplace)]
    split
    · exact { h with
        confined := h.confined.alike ⟨rfl, rfl⟩, confined' := h.confined'.alike ⟨rfl, rfl⟩, halt := rfl }
    · exact { h with
        confined := h.confined.alike ⟨rfl, rfl⟩, confined' := h.confined'.alike ⟨rfl, rfl⟩, halt := rfl }
  | ok p =>
    rw [openBatch_ok hplace] at hconfined ⊢
    rw [openBatch_ok (hplaces.trans hplace)] at hconfined' ⊢
    exact { h with confined := hconfined, confined' := hconfined', names := h.names.put p _ _, matlab := rfl }

theorem closeMatlab (hX : ∀ p ∈ X, F.Holds p) (hX' : ∀ p ∈ X, F'.Holds p) (h : Pace X F F' w v) :
    Pace X F F' (w.onDesk .closeMatlab) (v.onDesk .closeMatlab) := by
  have hmatlab := congrArg Option.toList h.matlab
  rw [Option.toList_map, Option.toList_map] at hmatlab
  exact { h with
    confined := h.confined.closeMatlab hX, confined' := h.confined'.closeMatlab hX'
    names := Sheet.sameNames_closeAll hmatlab h.names, matlab := rfl }

theorem direct (ht : Told m m' X F F') {target : String}
    (havoids : Avoids m X F [.direct target]) (h : Pace X F F' w v) :
    Pace X F F' (w.direct m target) (v.direct m' target) := by
  have hopened : Pace X F F' (w.reopen m target) (v.reopen m' target) := by
    have hclosed := h.closeMatlab ht.holds ht.holds'
    unfold reopen
    rw [ht.batching]
    split
    · dsimp only
      split
      · exact hclosed
      · rename_i hb hne
        have hname : ∀ p, F.place target = .ok p → p ∈ X :=
          havoids.opens hb target (by simp [Deed.target?, hne])
        exact hclosed.openBatch rfl rfl ht.holds ht.holds' hname
          fun p hp => hname p ((ht.names.place target).symm.trans hp)
    · exact h
  unfold Walk.direct
  generalize w.reopen m target = u at hopened ⊢
  generalize v.reopen m' target = u' at hopened ⊢
  unfold andThen
  rw [hopened.halt]
  have hprint : ∀ b b' : Bool, Pace X F F' (if b then u.onDesk (.print target) else u)
      (if b' then u'.onDesk (.print target) else u') := by
    intro b b'
    cases b <;> cases b' <;>
      exact { hopened with
        confined := hopened.confined.alike ⟨rfl, rfl⟩, confined' := hopened.confined'.alike ⟨rfl, rfl⟩ }
  split
  · exact hopened
  · exact hprint _ _

theorem perform (ht : Told m m' X F F') {d d' : Deed} (hd : d.Like d') (havoids : Avoids m X F [d])
    (h : Pace X F F' w v) : Pace X F F' (w.perform m d) (v.perform m' d') := by
  have hconfined := h.confined.perform ht.holds ht.quiet havoids
  have hconfined' := h.confined'.perform ht.holds' ht.quiet'
    (havoids.like ht.batching ht.names (.cons hd .nil))
  cases hd with
  | token _ => exact h.feed ht.quiet ht.quiet' _ _
  | c s s' => exact h.writeC s s'
  | same =>
    cases d with
    | matlab s => exact h.writeMatlab s
    | c s => exact h.writeC s s
    | direct target => exact h.direct ht havoids
    | token t => exact h.feed ht.quiet ht.quiet' t t
    | nextLine =>
      exact { h with
        confined := hconfined, confined' := hconfined', line := congrArg (· + 1) h.line }
    | moveTo file line =>
      exact { h with confined := hconfined, confined' := hconfined', file := rfl, line := rfl }
    | block inBlock => exact { h with confined := hconfined, confined' := hconfined', inBlock := rfl }
    | read p => exact h
    | stop n => exact { h with confined := hconfined, confined' := hconfined', halt := rfl }
    | fail f => exact { h with confined := hconfined, confined' := hconfined', halt := rfl }

/-- **Walks that do the same but for names stay in pace.** -/
theorem plays (ht : Told m m' X F F') (hds : List.Forall₂ Deed.Like ds ds') (havoids : Avoids m X F ds)
    (h : Pace X F F' w v) (hw : Plays (Walk.perform m) w ds w')
    (hv : Plays (Walk.perform m') v ds' v') : Pace X F F' w' v' := by
  refine hw.rel hv hds h fun d hd d' hlike w v _ h => ?_
  exact h.perform ht hlike (havoids.of_sublist (List.singleton_sublist.2 hd))

/-! ## Their scripts -/

theorem afterDirect (ht : Told m m' X F F') {target : String}
    (havoids : Avoids m X F (w.afterDirect m target ds)) (h : Pace X F F' w v) :
    v.afterDirect m' target ds = w.afterDirect m target ds := by
  have hdirect : Avoids m X F [.direct target] := by
    refine havoids.of_sublist (List.singleton_sublist.2 ?_)
    simp [Walk.afterDirect]
  unfold Walk.afterDirect
  rw [(h.direct ht hdirect).halt]

theorem lineDeeds_same (ht : Told m m' X F F') {l : List Char}
    (havoids : Avoids m X F (w.lineDeeds m l)) (h : Pace X F F' w v) :
    v.lineDeeds m' l = w.lineDeeds m l := by
  have hmarked : Pace X F F' (w.indented l) (v.indented l) := h.writeMatlab _
  unfold Walk.lineDeeds at havoids ⊢
  rw [h.inBlock, h.line]
  split
  · rfl
  · rw [if_neg ‹_›] at havoids
    dsimp only at havoids ⊢
    cases hc : SourceLine.classify (SourceLine.indent l).2 with
    | function tail =>
      rw [hc] at havoids
      dsimp only
      rw [hmarked.afterDirect ht (havoids.of_sublist (List.sublist_cons_self _ _))]
    | redirect target =>
      rw [hc] at havoids
      dsimp only
      rw [hmarked.afterDirect ht (havoids.of_sublist (List.sublist_cons_self _ _))]
    | _ => rfl

theorem lineDeeds (ht : Told m m' X F F') {l l' : List Char} (hl : SourceLine.Retold l l')
    (havoids : Avoids m X F (w.lineDeeds m l)) (h : Pace X F F' w v) :
    List.Forall₂ Deed.Like (w.lineDeeds m l) (v.lineDeeds m' l') := by
  rcases hl with rfl | ⟨body, body', hbody, hbody', hindent, htokens⟩
  · rw [h.lineDeeds_same ht havoids]
    exact Deed.Like.all _
  · unfold Walk.lineDeeds
    rw [h.inBlock, h.line]
    split
    · rw [SourceLine.isCloser_of_declaration hbody, SourceLine.isCloser_of_declaration hbody']
      exact .cons (.same _) (.cons (.c _ _) .nil)
    · dsimp only
      rw [hbody, hbody', hindent]
      refine .cons (.same _) (List.rel_append ?_ (Deed.Like.all _))
      rw [List.forall₂_map_left_iff, List.forall₂_map_right_iff]
      exact (htokens w.desk.line).imp fun _ _ => .token

theorem included? {l l' : List Char} (hl : SourceLine.Retold l l') (h : Pace X F F' w v) :
    v.included? l' = w.included? l := by
  unfold Walk.included?
  rw [h.inBlock]
  rcases hl with rfl | ⟨body, body', hbody, hbody', -, -⟩
  · rfl
  · rw [hbody, hbody']

end Pace

/-- What two walks do in included files, and that it is the same but for names. -/
structure ToldInside (m : WalkMode ρ) (m' : WalkMode σ) (X : List Folder.Path) (F F' : Folder)
    (inc : String → Walk ρ → Walk ρ) (inc' : String → Walk σ → Walk σ)
    (inside : String → Walk ρ → List Deed) (inside' : String → Walk σ → List Deed) : Prop where
  plays : ∀ name w, w.halt = none → Plays (perform m) w (inside name w) (inc name w)
  plays' : ∀ name v, v.halt = none → Plays (perform m') v (inside' name v) (inc' name v)
  like : ∀ name w v, Pace X F F' w v → w.halt = none → Avoids m X F (inside name w) →
    List.Forall₂ Deed.Like (inside name w) (inside' name v)

namespace Pace

variable {inc : String → Walk ρ → Walk ρ} {inc' : String → Walk σ → Walk σ}
  {inside : String → Walk ρ → List Deed} {inside' : String → Walk σ → List Deed}

theorem takeDeeds (ht : Told m m' X F F') (hinc : ToldInside m m' X F F' inc inc' inside inside')
    {l l' : List Char} (hl : SourceLine.Retold l l') (hhalt : w.halt = none)
    (havoids : Avoids m X F (w.takeDeeds m inside l)) (h : Pace X F F' w v) :
    List.Forall₂ Deed.Like (w.takeDeeds m inside l) (v.takeDeeds m' inside' l') := by
  have hsame := h.included? hl
  unfold Walk.takeDeeds at havoids ⊢
  rw [hsame]
  cases hname : w.included? l with
  | none =>
    rw [hname] at havoids
    exact h.lineDeeds ht hl havoids
  | some name =>
    rw [hname] at havoids
    obtain rfl : l' = l := by
      rcases hl with rfl | ⟨body, -, hbody, -⟩
      · rfl
      · simp [Walk.included?, hbody] at hname
    have hmarked : Pace X F F' (w.indented l') (v.indented l') := h.writeMatlab _
    exact .cons (.same _) (hinc.like name _ _ hmarked hhalt
      (havoids.of_sublist (List.sublist_cons_self _ _)))

/-- At lines that are the same but for names, the same is done. -/
theorem scriptOn (ht : Told m m' X F F') (hinc : ToldInside m m' X F F' inc inc' inside inside')
    {ls ls' : List (List Char)} (hls : List.Forall₂ SourceLine.Retold ls ls')
    (havoids : Avoids m X F (w.scriptOn m inc inside ls)) (h : Pace X F F' w v) :
    List.Forall₂ Deed.Like (w.scriptOn m inc inside ls) (v.scriptOn m' inc' inside' ls') := by
  induction hls generalizing w v with
  | nil => exact .nil
  | @cons l l' ls ls' hl _ ih =>
    unfold Walk.scriptOn at havoids ⊢
    rw [h.halt]
    split
    · exact .nil
    · rename_i hgoes
      have hhalt : w.halt = none := by simpa using hgoes
      rw [if_neg hgoes] at havoids
      have htake := h.takeDeeds ht hinc hl hhalt havoids.left
      have hpace := h.plays ht htake havoids.left (plays_take hinc.plays l hhalt)
        (plays_take hinc.plays' l' (h.halt.trans hhalt))
      exact List.rel_append htake (ih havoids.right hpace)

/-- In a file that is the same but for names, and is not one of those at `X`, the same is done. -/
theorem content (ht : Told m m' X F F') (hinc : ToldInside m m' X F F' inc inc' inside inside')
    {p : Folder.Path} (hp : p ∉ X) (h : Pace X F F' w v) (hhalt : w.halt = none)
    (havoids : Avoids m X F (w.scriptFrom m inc inside p maxRounds 0 {})) :
    List.Forall₂ Deed.Like (w.scriptFrom m inc inside p maxRounds 0 {})
        (v.scriptFrom m' inc' inside' p maxRounds 0 {}) ∧
      Pace X F F' (w.content m inc p) (v.content m' inc' p) := by
  have htext := ht.texts p hp
  have hlines := h.confined.avoids_lines ht.holds ht.quiet hinc.plays hp hhalt havoids
  have hlike := h.scriptOn ht hinc htext.lines hlines
  have hlines' := hlines.like ht.batching ht.names hlike
  have hpace := h.plays ht hlike hlines (plays_lines hinc.plays _ w) (plays_lines hinc.plays' _ v)
  have hfrom : List.Forall₂ Deed.Like (w.scriptFrom m inc inside p maxRounds 0 {})
      (v.scriptFrom m' inc' inside' p maxRounds 0 {}) := by
    rw [h.confined.scriptFrom ht.holds ht.quiet hinc.plays hp hhalt hlines,
      h.confined'.scriptFrom ht.holds' ht.quiet' hinc.plays' hp (h.halt.trans hhalt) hlines']
    refine List.rel_append hlike ?_
    unfold closing
    rw [hpace.halt, htext.isText]
    exact Deed.Like.all _
  exact ⟨hfrom, h.plays ht hfrom havoids (plays_content hinc.plays p hhalt)
    (plays_content hinc.plays' p (h.halt.trans hhalt))⟩

theorem scriptInside (ht : Told m m' X F F') (room : Nat) (name : String) (w : Walk ρ) (v : Walk σ)
    (h : Pace X F F' w v) (hhalt : w.halt = none) (havoids : Avoids m X F (w.scriptInside m room name)) :
    List.Forall₂ Deed.Like (w.scriptInside m room name) (v.scriptInside m' room name) := by
  induction room generalizing name w v with
  | zero => exact Deed.Like.all _
  | succ room ih =>
    unfold Walk.scriptInside at havoids ⊢
    rw [h.find name]
    cases hfind : w.desk.current.find name with
    | error f => exact Deed.Like.all _
    | ok p =>
      rw [hfind] at havoids
      have hp : p ∉ X := havoids.reads p (by simp [Deed.read?])
      have hmoved : Pace X F F' (w.onDesk (.moveTo name 1)) (v.onDesk (.moveTo name 1)) :=
        { h with
          confined := h.confined.alike ⟨rfl, rfl⟩, confined' := h.confined'.alike ⟨rfl, rfl⟩
          file := rfl, line := rfl }
      obtain ⟨hfrom, hpace⟩ := hmoved.content ht ⟨plays_included room, plays_included room, ih⟩ hp hhalt
        (havoids.of_sublist (((List.sublist_append_left _ _).cons _).cons _))
      refine .cons (.same _) (.cons (.same _) (List.rel_append hfrom ?_))
      rw [hpace.halt, h.file, h.line]
      exact Deed.Like.all _

/-- **Walks through sources that differ in names do the same but for those names,** if no output is
read. -/
theorem script (ht : Told m m' X F F') (name : String) (hhalt : w.halt = none)
    (havoids : Avoids m X F (w.script m name)) (h : Pace X F F' w v) :
    List.Forall₂ Deed.Like (w.script m name) (v.script m' name) := by
  unfold Walk.script at havoids ⊢
  rw [h.find name]
  cases hfind : w.desk.current.find name with
  | error f => exact Deed.Like.all _
  | ok p =>
    rw [hfind] at havoids
    have hp : p ∉ X := havoids.reads p (by simp [Deed.read?])
    have hmoved : Pace X F F' { w.onDesk (.moveTo name 1) with inBlock := false }
        { v.onDesk (.moveTo name 1) with inBlock := false } :=
      { h with
        confined := h.confined.alike ⟨rfl, rfl⟩, confined' := h.confined'.alike ⟨rfl, rfl⟩
        file := rfl, line := rfl, inBlock := rfl }
    obtain ⟨hfrom, -⟩ := hmoved.content ht
      ⟨plays_included maxDepth, plays_included maxDepth, scriptInside ht maxDepth⟩ hp hhalt
      (havoids.of_sublist ((((List.Sublist.refl _).cons _).cons _).cons _))
    exact .cons (.same _) (.cons (.same _) (.cons (.same _) hfrom))

end Pace

end Walk

end MexBridge
