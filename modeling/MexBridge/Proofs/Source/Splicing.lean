import MexBridge.Proofs.Source.Ending

/-!
# Including is splicing

A line that includes a file stands for the lines of that file (`Desk.splice`). A walk that puts them in
its place as it comes to it gives the same tokens and writes the same C as a walk through the spliced
lines, and to MATLAB it writes nothing else but the indents of the lines replaced
(`including_is_splicing`). The reading and the splice go side by side: what is left unread in all open
files, spliced, is what is left of the splice (`Along`).
-/

namespace MexBridge

/-! ## Spliced lines -/

/-- A line of a spliced source, or the indent of a line that has been replaced. -/
inductive Spliced where
  | line (l : List Char)
  | indent (cs : List Char)
deriving DecidableEq, Repr

/-- The lines alone. -/
def Spliced.lines (ps : List Spliced) : List (List Char) :=
  ps.filterMap fun p => match p with
    | .line l => some l
    | .indent _ => none

namespace SourceLine

/-- The file that a line includes, outside blocks. -/
def includes? (inBlock : Bool) (l : List Char) : Option String :=
  if inBlock then none
  else match classify (indent l).2 with
    | .include name => some (String.ofList name)
    | _ => none

end SourceLine

/-- Lines with what `inside` gives for each file they include, and whether a block of C is open at
their end. -/
def spliceLines (inside : String → Option (List Spliced × Bool)) :
    Bool → List (List Char) → Option (List Spliced × Bool)
  | inBlock, [] => some ([], inBlock)
  | inBlock, l :: ls =>
    match SourceLine.includes? inBlock l with
    | none =>
      (spliceLines inside (SourceLine.opensBlock inBlock l) ls).map fun r => (.line l :: r.1, r.2)
    | some name =>
      (inside name).bind fun r =>
        (spliceLines inside r.2 ls).map fun r' =>
          (.indent (SourceLine.indent l).1 :: (r.1 ++ r'.1), r'.2)

/-- A file with all it includes, if there are at most so many files inside each other and every one of
them can be read. -/
def spliceFile (texts : String → Option (List (List Char))) : Nat → String → Option (List Spliced × Bool)
  | 0, _ => none
  | room + 1, name => (texts name).bind (spliceLines (spliceFile texts room) false)

/-- The lines of a file that can be read: it is there, it is a text, and no output is open for it. -/
def Desk.text? (d : Desk) (name : String) : Option (List (List Char)) :=
  match d.current.find name with
  | .error _ => none
  | .ok p =>
    let read := Text.read (d.current.bytesFrom p 0)
    if p ∉ d.written ∧ read.2 = true then some read.1 else none

/-- A file with all it includes, up to ten files inside each other below it. -/
def Desk.splice (name : String) (d : Desk) : Option (List Spliced) :=
  (spliceFile d.text? (Walk.maxDepth + 1) name).map (·.1)

/-- A walk through a spliced source. -/
def Walk.spliced {ρ : Type} (m : WalkMode ρ) : List Spliced → Walk ρ → Walk ρ
  | [], w => w
  | .line l :: ps, w => (w.lines m (fun _ w => w) [l]).spliced m ps
  | .indent cs :: ps, w => (w.onDesk (.writeMatlab (String.ofList cs))).spliced m ps

/-- What is left of several files of which each is included by the next. -/
def spliceAll (texts : String → Option (List (List Char))) :
    List (List (List Char)) → Bool → Option (List Spliced)
  | [], _ => some []
  | ls :: rest, inBlock =>
    (spliceLines (spliceFile texts (Walk.maxDepth - rest.length)) inBlock ls).bind fun r =>
      (spliceAll texts rest r.2).map (r.1 ++ ·)

section

variable {texts : String → Option (List (List Char))} {rest : List (List (List Char))}
  {inBlock : Bool} {l : List Char} {ls : List (List Char)} {ps : List Spliced}

theorem spliceAll_nil : spliceAll texts ([] :: rest) inBlock = spliceAll texts rest inBlock := by
  simp [spliceAll, spliceLines]

theorem spliceAll_line (hinc : SourceLine.includes? inBlock l = none)
    (h : spliceAll texts ((l :: ls) :: rest) inBlock = some ps) :
    ∃ ps', ps = .line l :: ps' ∧
      spliceAll texts (ls :: rest) (SourceLine.opensBlock inBlock l) = some ps' := by
  rw [spliceAll, spliceLines, hinc] at h
  rw [spliceAll]
  cases hls : spliceLines (spliceFile texts (Walk.maxDepth - rest.length))
      (SourceLine.opensBlock inBlock l) ls with
  | none =>
    rw [hls] at h
    cases h
  | some r =>
    rw [hls] at h
    obtain ⟨qs, hqs, rfl⟩ := Option.map_eq_some_iff.1 h
    exact ⟨r.1 ++ qs, rfl, Option.map_eq_some_iff.2 ⟨qs, hqs, rfl⟩⟩

theorem spliceAll_include {name : String} (hinc : SourceLine.includes? inBlock l = some name)
    (h : spliceAll texts ((l :: ls) :: rest) inBlock = some ps) :
    ∃ ls' ps', rest.length < Walk.maxDepth ∧ texts name = some ls' ∧
      ps = .indent (SourceLine.indent l).1 :: ps' ∧
      spliceAll texts (ls' :: ls :: rest) false = some ps' := by
  rw [spliceAll, spliceLines, hinc] at h
  obtain ⟨r, hr, h⟩ := Option.bind_eq_some_iff.1 h
  obtain ⟨qs, hqs, rfl⟩ := Option.map_eq_some_iff.1 h
  obtain ⟨r₁, hr₁, hr⟩ := Option.bind_eq_some_iff.1 hr
  obtain ⟨r₂, hr₂, rfl⟩ := Option.map_eq_some_iff.1 hr
  cases hroom : Walk.maxDepth - rest.length with
  | zero =>
    rw [hroom, spliceFile] at hr₁
    cases hr₁
  | succ room =>
    rw [hroom, spliceFile] at hr₁
    obtain ⟨ls', hls', hr₁⟩ := Option.bind_eq_some_iff.1 hr₁
    refine ⟨ls', r₁.1 ++ (r₂.1 ++ qs), by omega, hls', by simp, ?_⟩
    have hlength : Walk.maxDepth - (ls :: rest).length = room := by
      rw [List.length_cons]
      omega
    rw [spliceAll, hlength, hr₁, Option.bind_some, spliceAll, hr₂, Option.bind_some, hqs]
    rfl

end

/-! ## Files of the same names -/

namespace Folder

/-- The same files and folders, whatever they hold. -/
structure SameNames (d d' : Folder) : Prop where
  files : d'.files.map Prod.fst = d.files.map Prod.fst
  folders : d'.folders = d.folders
  here : d'.here = d.here

variable {d d' : Folder}

theorem isSome_lookup (p : Path) (fs : List (Path × ByteArray)) :
    (fs.lookup p).isSome = (fs.map Prod.fst).contains p := by
  induction fs with
  | nil => rfl
  | cons f fs ih =>
    obtain ⟨q, content⟩ := f
    rw [List.lookup_cons, List.map_cons, List.contains_cons, ← ih]
    cases p == q <;> rfl

theorem SameNames.isSome_get? (h : d.SameNames d') (p : Path) :
    (d'.get? p).isSome = (d.get? p).isSome := by
  unfold Folder.get?
  rw [isSome_lookup, isSome_lookup, h.files]

theorem SameNames.isFolder (h : d.SameNames d') (p : Path) : d'.isFolder p = d.isFolder p := by
  have hany : ∀ d : Folder, (d.files.any fun f => p.isPrefixOf f.1 && p != f.1)
      = (d.files.map Prod.fst).any fun q => p.isPrefixOf q && p != q := by
    intro d
    rw [List.any_map]
    rfl
  unfold Folder.isFolder
  rw [hany d', hany d, h.files, h.folders, h.here]

theorem SameNames.follow (h : d.SameNames d') (start : Path) (parts : List String) :
    d'.follow start parts = d.follow start parts := by
  induction parts generalizing start with
  | nil => rfl
  | cons part parts ih =>
    unfold Folder.follow
    simp only [ih, h.isFolder, h.isSome_get?]

/-- A name leads to the same place. -/
theorem SameNames.find (h : d.SameNames d') (name : String) : d'.find name = d.find name := by
  simp only [Folder.find, Folder.route, Folder.locate, h.here, h.follow, h.isFolder, h.isSome_get?]

theorem map_fst_put (p : Path) (content : ByteArray) (fs : List (Path × ByteArray)) :
    (put p content fs).map Prod.fst
      = if p ∈ fs.map Prod.fst then fs.map Prod.fst else fs.map Prod.fst ++ [p] := by
  induction fs with
  | nil => simp [put]
  | cons f fs ih =>
    unfold put
    by_cases hf : f.1 = p
    · simp [hf]
    · rw [if_neg hf, List.map_cons, ih, List.map_cons]
      by_cases hp : p ∈ fs.map Prod.fst
      · rw [if_pos hp, if_pos (List.mem_cons_of_mem _ hp)]
      · rw [if_neg hp, if_neg (by simpa [Ne.symm hf] using hp)]
        rfl

theorem SameNames.patch (h : d.SameNames d') (p : Path) (offset offset' : Nat)
    (bytes bytes' : ByteArray) : (d.patch p offset bytes).SameNames (d'.patch p offset' bytes') where
  files := by
    unfold Folder.patch
    rw [map_fst_put, map_fst_put, h.files]
  folders := h.folders
  here := h.here

end Folder

namespace Desk

variable {d d' : Desk}

theorem sameNames_foldl {put : Sheet → Folder → Folder}
    (hput : ∀ (o o' : Sheet) (d d' : Folder), o'.file = o.file → d.SameNames d' →
      (put o d).SameNames (put o' d'))
    {os os' : List Sheet} (hos : os'.map (·.file) = os.map (·.file)) {d d' : Folder}
    (h : d.SameNames d') :
    (os.foldl (fun d o => put o d) d).SameNames (os'.foldl (fun d o => put o d) d') := by
  induction os generalizing os' d d' with
  | nil =>
    rw [List.map_nil, List.map_eq_nil_iff] at hos
    subst hos
    exact h
  | cons o os ih =>
    cases os' with
    | nil => cases hos
    | cons o' os' =>
      obtain ⟨hfile, hrest⟩ := List.cons.inj hos
      exact ih hrest (hput o o' d d' hfile h)

theorem sameNames_landAll {os os' : List Sheet} (hos : os'.map (·.file) = os.map (·.file))
    {files files' : Folder} (h : files.SameNames files') :
    (Sheet.landAll os files).SameNames (Sheet.landAll os' files') := by
  refine sameNames_foldl (fun o o' d d' hfile h => ?_) hos h
  unfold Sheet.land
  rw [hfile]
  split
  · exact h.patch _ _ _ _ _
  · exact h

theorem Alike.find_current (h : d.Alike d') (name : String) :
    d'.current.find name = d.current.find name := by
  refine (sameNames_landAll h.outputs ?_).find name
  rw [h.folder]
  exact ⟨rfl, rfl, rfl⟩

/-- A file that can be read is there and holds its lines, however much has been written since. -/
theorem exists_of_text? {name : String} {ls : List (List Char)} (h : d.text? name = some ls)
    (halike : d.Alike d') :
    ∃ p, d'.current.find name = .ok p ∧ p ∉ d'.written ∧
      Text.read (d'.current.bytesFrom p 0) = (ls, true) := by
  unfold text? at h
  split at h
  · cases h
  · rename_i p hfind
    dsimp only at h
    split at h <;> cases h
    rename_i hread
    have hwritten : p ∉ d'.written := by
      rw [halike.written]
      exact hread.1
    refine ⟨p, (halike.find_current name).trans hfind, hwritten, ?_⟩
    rw [bytesFrom_current hwritten, halike.folder, ← bytesFrom_current hread.1, ← hread.2]

end Desk

/-! ## Walks that write and give the same -/

/-- A token but for its place. -/
def Token.face (t : Token) : TokenKind × String := (t.kind, t.text)

theorem Token.face_tokens (line line' : Int) (cs : List Char) :
    (Token.tokens line cs).map Token.face = (Token.tokens line' cs).map Token.face := by
  fun_induction Token.tokens line cs with
  | case1 => rw [Token.tokens]
  | case2 c r rest heq => rw [Token.tokens, heq]
  | case3 c r k text rest heq ih =>
    rw [heq] at ih
    rw [Token.tokens, heq, List.map_cons, List.map_cons, ih]
    rfl
  | case4 c r rest heq ih =>
    rw [heq] at ih
    rw [Token.tokens, heq, ih]

namespace Walk

/-- The same tokens but for their places, the same C and, if `matlab` is set, the same MATLAB. -/
structure Matches (matlab : Bool) (w v : Walk (List Token)) : Prop where
  goes : w.halt = none
  goes' : v.halt = none
  inBlock : v.inBlock = w.inBlock
  c : v.desk.c = w.desk.c
  matlab : matlab = true → v.desk.matlab = w.desk.matlab
  tokens : v.reader.map Token.face = w.reader.map Token.face

namespace Matches

variable {b listing : Bool} {w v : Walk (List Token)} {l : List Char}

theorem writeMatlab (h : Matches b w v) (s : String) :
    Matches b (w.onDesk (.writeMatlab s)) (v.onDesk (.writeMatlab s)) :=
  { h with matlab := fun hb => congrArg (Option.map (Sheet.write s)) (h.matlab hb) }

/-- What one of them writes to MATLAB, if that does not count. -/
theorem writeMatlab_left (h : Matches false w v) (s : String) :
    Matches false (w.onDesk (.writeMatlab s)) v :=
  { h with matlab := fun hb => by cases hb }

theorem writeC (h : Matches b w v) (s : String) :
    Matches b (w.onDesk (.writeC s)) (v.onDesk (.writeC s)) :=
  { h with c := congrArg (Option.map (Sheet.write s)) h.c }

theorem moveTo (h : Matches b w v) (file : String) (line : Int) :
    Matches b (w.onDesk (.moveTo file line)) v :=
  { h with }

theorem nextLine (h : Matches b w v) : Matches b (w.onDesk .nextLine) (v.onDesk .nextLine) :=
  { h with }

theorem print (h : Matches b w v) (p : Bool) (name : String) :
    Matches b (if p then w.onDesk (.print name) else w) (if p then v.onDesk (.print name) else v) := by
  split
  · exact { h with }
  · exact h

theorem block (h : Matches b w v) (inBlock : Bool) :
    Matches b { w with inBlock := inBlock } { v with inBlock := inBlock } :=
  { h with inBlock := rfl }

theorem feed (h : Matches b w v) {t t' : Token} (ht : t'.face = t.face) :
    Matches b (w.feed (collector listing) t) (v.feed (collector listing) t') := by
  refine { h with tokens := ?_ }
  change (v.reader ++ [t']).map Token.face = (w.reader ++ [t]).map Token.face
  rw [List.map_append, List.map_append, h.tokens, List.map_singleton, List.map_singleton, ht]

theorem feedAll (h : Matches b w v) {ts ts' : List Token}
    (hts : ts'.map Token.face = ts.map Token.face) :
    Matches b (ts.foldl (fun w t => w.feed (collector listing) t) w)
      (ts'.foldl (fun w t => w.feed (collector listing) t) v) := by
  induction ts generalizing ts' w v with
  | nil =>
    rw [List.map_nil, List.map_eq_nil_iff] at hts
    subst hts
    exact h
  | cons t ts ih =>
    cases ts' with
    | nil => cases hts
    | cons t' ts' =>
      obtain ⟨ht, hrest⟩ := List.cons.inj hts
      exact ih (h.feed ht) hrest

theorem passLine (h : Matches b w v) :
    Matches b (w.passLine (collector listing)) (v.passLine (collector listing)) :=
  h.nextLine.feed rfl

theorem functionLine (h : Matches b w v) (tail : List Char) :
    Matches b (w.functionLine (collector listing) tail) (v.functionLine (collector listing) tail) := by
  rw [functionLine_eq rfl h.goes, functionLine_eq rfl h.goes']
  exact ((h.print _ _).writeMatlab _).passLine

theorem redirectLine (h : Matches b w v) (target : String) :
    Matches b (w.redirectLine (collector listing) target)
      (v.redirectLine (collector listing) target) := by
  rw [redirectLine_eq rfl h.goes, redirectLine_eq rfl h.goes']
  exact (h.print _ _).passLine

/-- **A line that includes no file does the same to both.** -/
theorem takeLine (h : Matches b w v) (hinc : w.included? l = none)
    (inc inc' : String → Walk (List Token) → Walk (List Token)) :
    Matches b (w.takeLine (collector listing) inc l) (v.takeLine (collector listing) inc' l) := by
  unfold Walk.takeLine
  rw [h.inBlock]
  split
  · unfold blockLine
    dsimp only
    split
    · exact h.nextLine.block false
    · exact h.nextLine.writeC _
  · rw [included?, if_neg ‹_›] at hinc
    have hmarked := h.writeMatlab (String.ofList (SourceLine.indent l).1)
    unfold openLine
    dsimp only
    cases hc : SourceLine.classify (SourceLine.indent l).2 with
    | text => exact (h.writeMatlab _).passLine
    | brokenOpener => exact (hmarked.writeMatlab _).passLine
    | comment => exact hmarked.passLine
    | function tail => exact hmarked.functionLine tail
    | «include» name =>
      rw [hc] at hinc
      cases hinc
    | redirect target => exact hmarked.redirectLine _
    | code c => exact (hmarked.writeC _).passLine
    | opener => exact hmarked.nextLine.block true
    | declaration body => exact (hmarked.feedAll (Token.face_tokens _ _ body)).nextLine

end Matches

end Walk

/-! ## The reading beside the splice -/

theorem Walk.lines_singleton {ρ : Type} {m : WalkMode ρ} {inc : String → Walk ρ → Walk ρ}
    {l : List Char} {w : Walk ρ} (hhalt : w.halt = none) : w.lines m inc [l] = w.takeLine m inc l := by
  rw [lines_cons, hhalt]
  rfl

theorem SourceLine.outside_of_includes {inBlock : Bool} {l : List Char} {name : String}
    (h : includes? inBlock l = some name) : inBlock = false := by
  cases inBlock with
  | false => rfl
  | true => cases h

namespace Reading

variable {listing : Bool} {d : Desk} {s s' : Reading (List Token)} {v₀ : Walk (List Token)}
  {ps ps₀ : List Spliced}

/-- This is left of the splice, and every open file can be read to its end. -/
structure Ahead (d : Desk) (s : Reading (List Token)) (ps : List Spliced) : Prop where
  alike : d.Alike s.walk.desk
  files : ∀ f ∈ s.opened, f.isText = true ∧ f.path ∉ d.written
  left : spliceAll d.text? (s.opened.map (·.unread)) s.walk.inBlock = some ps

/-- The reading has come as far as a walk through the splice and one through its lines alone, and from
there these two come to where they do from their start. -/
def Along (listing : Bool) (d : Desk) (v₀ : Walk (List Token)) (ps₀ : List Spliced)
    (s : Reading (List Token)) : Prop :=
  ∃ ps v u, Ahead d s ps ∧ Walk.Matches true s.walk v ∧ Walk.Matches false s.walk u ∧
    v.spliced (collector listing) ps = v₀.spliced (collector listing) ps₀ ∧
    ∀ inc, u.lines (collector listing) inc (Spliced.lines ps)
      = v₀.lines (collector listing) inc (Spliced.lines ps₀)

theorem ahead_line (listing : Bool) {l : List Char} {rest : List (List Char)} (h : Ahead d s ps)
    (hgoes : s.walk.halt = none) (hunread : s.source.unread = l :: rest)
    (hinc : s.walk.included? l = none) :
    ∃ ps', ps = .line l :: ps' ∧
      Ahead d (s.past rest (s.walk.takeLine (collector listing) (fun _ w => w) l)) ps' := by
  have hleft := h.left
  rw [opened, List.map_cons, hunread] at hleft
  obtain ⟨ps', hps, hrest⟩ := spliceAll_line hinc hleft
  refine ⟨ps', hps, h.alike.trans (Walk.alike_takeLine (collector_tidy listing) hinc), ?_, ?_⟩
  · intro f hf
    rcases List.mem_cons.1 hf with rfl | hf
    · exact h.files s.source (by simp [opened])
    · exact h.files f (List.mem_cons_of_mem _ hf)
  · rw [← (Walk.goes_takeLine (m := collector listing) (fun _ w => w) rfl hgoes hinc).2] at hrest
    exact hrest

theorem ahead_enter {l : List Char} {rest : List (List Char)} {name : String} (h : Ahead d s ps)
    (hunread : s.source.unread = l :: rest) (hinc : s.walk.included? l = some name) :
    ∃ p ps', s.stack.length < Walk.maxDepth ∧ ps = .indent (SourceLine.indent l).1 :: ps' ∧
      (s.walk.indented l).desk.current.find name = .ok p ∧
      Ahead d
        { walk := (s.walk.indented l).onDesk (.moveTo name 1)
          source := .ofBytes p ((s.walk.indented l).desk.current.bytesFrom p 0)
          stack := (s.past rest (s.walk.indented l)).waiting :: s.stack } ps' := by
  have hleft := h.left
  rw [opened, List.map_cons, hunread] at hleft
  obtain ⟨ls', ps', hroom, htext, hps, hrest⟩ := spliceAll_include hinc hleft
  have halike : d.Alike (s.walk.indented l).desk := h.alike.trans (Walk.alike_indented l s.walk)
  obtain ⟨p, hfind, hwritten, hread⟩ := Desk.exists_of_text? htext halike
  refine ⟨p, ps', by simpa using hroom, hps, hfind, halike.trans ⟨rfl, rfl⟩, ?_, ?_⟩
  · intro f hf
    rcases List.mem_cons.1 hf with rfl | hf
    · rw [← halike.written]
      exact ⟨congrArg Prod.snd hread, hwritten⟩
    · rcases List.mem_cons.1 hf with rfl | hf
      · exact h.files s.source (by simp [opened])
      · exact h.files f (List.mem_cons_of_mem _ hf)
  · have hblock : s.walk.inBlock = false := SourceLine.outside_of_includes hinc
    change spliceAll d.text? ((Text.read _).1 :: rest :: _) s.walk.inBlock = some ps'
    rw [hread, hblock]
    exact hrest

theorem ahead_return {f : WaitingFile} {fs : List WaitingFile} (h : Ahead d s ps)
    (hunread : s.source.unread = []) (hstack : s.stack = f :: fs) :
    Ahead d { walk := s.walk.onDesk (.moveTo f.file f.line), source := f.source, stack := fs } ps := by
  have hleft := h.left
  rw [opened, List.map_cons, hunread, spliceAll_nil, hstack] at hleft
  refine ⟨h.alike.trans ⟨rfl, rfl⟩, fun g hg => h.files g ?_, hleft⟩
  rw [opened, hstack]
  exact List.mem_cons_of_mem _ hg

/-- **A step of the reading goes along with the splice.** -/
theorem along_step (h : Along listing d v₀ ps₀ s) (hstep : s.step (collector listing) = some s') :
    Along listing d v₀ ps₀ s' := by
  obtain ⟨ps, v, u, hahead, hv, hu, hspliced, hlines⟩ := h
  obtain ⟨hgoes, hmoved⟩ := moved_of_step hstep
  cases hmoved with
  | @line l rest hunread hinc =>
    obtain ⟨ps', rfl, hahead'⟩ := ahead_line listing hahead hgoes hunread hinc
    have hincu : u.included? l = none := by
      rw [Walk.included?, hu.inBlock]
      exact hinc
    refine ⟨ps', _, _, hahead', hv.takeLine hinc _ (fun _ w => w), hu.takeLine hinc _ (fun _ w => w),
      ?_, fun inc => ?_⟩
    · rw [← hspliced, Walk.spliced, Walk.lines_singleton hv.goes']
    · rw [← hlines inc]
      change _ = u.lines _ inc (l :: Spliced.lines ps')
      rw [Walk.lines_cons, hu.goes', Walk.takeLine_congr inc (fun _ w => w) hincu]
      rfl
  | tooDeep hunread hinc hfull =>
    obtain ⟨-, -, hroom, -⟩ := ahead_enter hahead hunread hinc
    omega
  | refused hunread hinc hroom hfind =>
    obtain ⟨p, -, -, -, hfind', -⟩ := ahead_enter hahead hunread hinc
    rw [hfind'] at hfind
    cases hfind
  | @entered l rest name p hunread hinc hroom hfind =>
    obtain ⟨p', ps', -, rfl, hfind', hahead'⟩ := ahead_enter hahead hunread hinc
    obtain rfl : p = p' := Except.ok.inj (hfind.symm.trans hfind')
    exact ⟨ps', v.onDesk (.writeMatlab (String.ofList (SourceLine.indent l).1)), u, hahead',
      (hv.writeMatlab _).moveTo name 1, (hu.writeMatlab_left _).moveTo name 1, hspliced, hlines⟩
  | returned hunread htext hstack =>
    exact ⟨ps, v, u, ahead_return hahead hunread hstack, hv.moveTo .., hu.moveTo .., hspliced, hlines⟩
  | notText hunread htext =>
    rw [(hahead.files s.source (by simp [opened])).1] at htext
    cases htext

theorem along_runs (h : Along listing d v₀ ps₀ s) (hrun : Runs (collector listing) s s') :
    Along listing d v₀ ps₀ s' := by
  induction hrun with
  | refl => exact h
  | tail _ hstep ih => exact along_step ih hstep

theorem Along.apart (h : Along listing d v₀ ps₀ s) : s.Apart := by
  obtain ⟨ps, v, u, hahead, -⟩ := h
  intro f hf
  rw [hahead.alike.written]
  exact (hahead.files f hf).2

theorem along_start {name : String} {p : Folder.Path} {w : Walk (List Token)}
    (hhalt : w.halt = none) (hps : w.desk.splice name = some ps)
    (hfind : w.desk.current.find name = .ok p) :
    Along listing w.desk { w with inBlock := false } ps (start name p w) := by
  obtain ⟨r, hr, rfl⟩ := Option.map_eq_some_iff.1 hps
  rw [spliceFile] at hr
  obtain ⟨ls, htext, hr⟩ := Option.bind_eq_some_iff.1 hr
  obtain ⟨p', hfind', hwritten, hread⟩ := Desk.exists_of_text? htext (.refl _)
  obtain rfl : p = p' := Except.ok.inj (hfind.symm.trans hfind')
  have hmatches : ∀ b, Walk.Matches b (start name p w).walk { w with inBlock := false } :=
    fun b => ⟨hhalt, hhalt, rfl, rfl, fun _ => rfl, rfl⟩
  refine ⟨r.1, _, _, ⟨⟨rfl, rfl⟩, ?_, ?_⟩, hmatches true, hmatches false, rfl, fun _ => rfl⟩
  · intro f hf
    rw [List.mem_singleton.1 hf]
    exact ⟨congrArg Prod.snd hread, hwritten⟩
  · change spliceAll w.desk.text? [(Text.read _).1] false = some r.1
    rw [hread, spliceAll]
    change (spliceLines (spliceFile w.desk.text? Walk.maxDepth) false ls).bind _ = _
    rw [hr, Option.bind_some, spliceAll, Option.map_some, List.append_nil]

/-- At the end nothing is left of the splice. -/
theorem Along.end (h : Along listing d v₀ ps₀ s) (hunread : s.source.unread = [])
    (hstack : s.stack = []) :
    Walk.Matches true s.walk (v₀.spliced (collector listing) ps₀) ∧
      ∀ inc, Walk.Matches false s.walk (v₀.lines (collector listing) inc (Spliced.lines ps₀)) := by
  obtain ⟨ps, v, u, hahead, hv, hu, hspliced, hlines⟩ := h
  have hleft := hahead.left
  rw [opened, hstack, List.map_cons, hunread, spliceAll_nil] at hleft
  obtain rfl : [] = ps := Option.some.inj hleft
  refine ⟨?_, fun inc => ?_⟩
  · rw [← hspliced]
    exact hv
  · rw [← hlines inc]
    exact hu

/-- **Including is splicing.** If a file and all it includes can be read, with at most ten files inside
each other below it, then reading the file comes to its end with no file waiting and the desk at the
file itself. What has then been written to MATLAB is what a walk through the splice writes; and what
has been written to C, and the tokens but for their places, are those of a walk through the lines of the
splice, of which none includes a file: the walk is the same however files are included. -/
theorem including_is_splicing (listing : Bool) (name : String) {w : Walk (List Token)}
    (hhalt : w.halt = none) {ps : List Spliced} (h : w.desk.splice name = some ps) :
    let m := collector listing
    let v : Walk (List Token) := { w with inBlock := false }
    ∃ p s, w.desk.current.find name = .ok p ∧ Runs m (start name p w) s ∧ s.step m = none ∧
      s.stack = [] ∧ s.walk = w.file m name ∧ s.walk.halt = none ∧ s.walk.desk.file = name ∧
      s.walk.desk.matlab = (v.spliced m ps).desk.matlab ∧
      ∀ inc, s.walk.desk.c = (v.lines m inc (Spliced.lines ps)).desk.c ∧
        s.walk.reader.map Token.face = (v.lines m inc (Spliced.lines ps)).reader.map Token.face := by
  intro m v
  obtain ⟨p, hfind⟩ : ∃ p, w.desk.current.find name = .ok p := by
    obtain ⟨r, hr, -⟩ := Option.map_eq_some_iff.1 h
    obtain ⟨ls, htext, -⟩ := Option.bind_eq_some_iff.1 hr
    obtain ⟨p, hfind, -⟩ := Desk.exists_of_text? htext (.refl _)
    exact ⟨p, hfind⟩
  have hstart : Along listing w.desk v ps (start name p w) := along_start hhalt h hfind
  obtain ⟨s, hrun, hend, hgoes, hwalk⟩ := runs_file m hhalt hfind
  have halong := along_runs hstart hrun
  have hgo : s.walk.halt = none := by
    obtain ⟨-, v, -, -, hv, -⟩ := halong
    exact hv.goes
  obtain ⟨-, hunread, hstack⟩ := hgoes hgo
  have hfile : s.walk = w.file m name := hwalk fun t ht =>
    steady_runs (collector_tidy listing) (steady_start name p w)
      (fun t ht => (along_runs hstart ht).apart) ht
  obtain ⟨hspliced, hlines⟩ := halong.end hunread hstack
  refine ⟨p, s, hfind, hrun, hend, hstack, hfile, hgo, ?_, (hspliced.matlab rfl).symm,
    fun inc => ⟨(hlines inc).c.symm, (hlines inc).tokens.symm⟩⟩
  rw [hfile] at hgo ⊢
  exact (Walk.gave_file ⟨fun _ _ _ => rfl, fun _ _ _ => rfl⟩ name w).2 hgo

/-- An included file that ends in a block of C, on a line without a newline. -/
def splicedFolder : Folder :=
  { files := [(["main.mw"], "a\n  @include b.mw\ny;\n$]\n# f();\nz".toUTF8),
      (["b.mw"], "# g(\n$[\nx;".toUTF8)] }

/-- The block goes on with the lines that come next in the file that includes it. -/
theorem including_is_splicing_block :
    let m := collector false
    let w : Walk (List Token) :=
      { desk := { folder := splicedFolder, matlab := some {}, c := some {} }, reader := [] }
    let ps : List Spliced := [.line "a\n".toList, .indent "  ".toList, .line "# g(\n".toList,
      .line "$[\n".toList, .line "x;".toList, .line "y;\n".toList, .line "$]\n".toList,
      .line "# f();\n".toList, .line "z".toList]
    w.desk.splice "main.mw" = some ps ∧ (w.file m "main.mw").halt = none ∧
      (w.file m "main.mw").desk.matlab.map (·.text) = some "a\n  z" ∧
      (w.file m "main.mw").desk.c.map (·.text) = some "x;y;\n" ∧
      (w.file m "main.mw").reader.map Token.face = [(.otherLine, ""), (.ident, "g"), (.punct, "("),
        (.ident, "f"), (.punct, "("), (.punct, ")"), (.punct, ";"), (.otherLine, "")] := by
  intro m w ps
  have hps : w.desk.splice "main.mw" = some ps := by decide +kernel
  obtain ⟨p, s, -, -, -, -, hwalk, hhalt, -, hmatlab, hlines⟩ :=
    including_is_splicing false "main.mw" (w := w) rfl hps
  obtain ⟨hc, htokens⟩ := hlines fun _ w => w
  rw [hwalk] at hhalt hmatlab hc htokens
  refine ⟨hps, hhalt, ?_, ?_, ?_⟩
  · rw [hmatlab]
    decide +kernel
  · rw [hc]
    decide +kernel
  · rw [htokens]
    decide +kernel

end Reading

end MexBridge
