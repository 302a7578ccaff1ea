import Mathlib.Data.List.Nodup
import MexBridge.Proofs.Stub.Declarations

/-!
# Every local of a stub is declared in it, once

A stub declares its locals first, as the code of its declarations shows
(`Routine.Worded.declared_declarations`), and names no others (`Usable.locals_stub`). No two
declarations clash, since labels differ and the name of a local tells what it is
(`Local.name_injective`). What the call takes from MATLAB has been fetched before it
(`fetches_inputReads`). Constants are written into the call as they are, so one that is spelled like
a local is not declared.
-/

namespace MexBridge

/-! ## The locals of a routine -/

namespace Routine

variable {m n : Nat} {t : TypeTable} {c : Context} {r : Routine} {s : Stmt} {ss : List Stmt}

/-- The locals that a stub declares. -/
def locals (r : Routine) : List Local :=
  r.receiver?.toList.map (fun _ => .input 0) ++ r.args.flatMap (·.inputLocals)
    ++ (r.keptResults ++ r.args).flatMap (·.outputLocals)
    ++ (r.results ++ r.args).flatMap (·.dimLocals)

/-- A routine whose types are words. -/
structure Worded (r : Routine) : Prop where
  types : ∀ v ∈ r.results ++ r.args, IsWord v.type ∧ v.type ≠ ""
  class_ : r.receiver?.isSome = true → IsWord r.ownerName ∧ r.ownerName ≠ ""

theorem Worded.argTypes (h : r.Worded) : ∀ v ∈ r.args, IsWord v.type :=
  fun v hv => (h.types v (List.mem_append_right _ hv)).1

theorem Worded.resultTypes (h : r.Worded) : ∀ v ∈ r.results, IsWord v.type :=
  fun v hv => (h.types v (List.mem_append_left _ hv)).1

theorem Worded.owner (h : r.Worded) : r.receiver?.isSome = true → IsWord r.ownerName :=
  fun hthis => (h.class_ hthis).1

/-- Names are words. -/
theorem Written.worded (h : r.Written IsName) : r.Worded := by
  have hname {s : String} (hs : IsName s) : IsWord s ∧ s ≠ "" := ⟨hs.chars, hs.2.1⟩
  refine ⟨List.forall_mem_append.2 ⟨fun v hv => hname (h.results v hv).type,
    fun v hv => hname (h.args v hv).type⟩, fun hthis => ?_⟩
  cases h.callee with
  | plain receiver => simp [receiver?, receiver] at hthis
  | constructor C receiver => simp [receiver?, receiver] at hthis
  | method this C receiver owner this_ class_ =>
    rw [ownerName, owner]
    exact hname class_

theorem Worded.declared_declarations (hr : r.Worded) (h : r.declarations = .ok ss) :
    declared ss = r.locals := by
  obtain ⟨rfl, hins, houts⟩ := declarations_eq_ok h
  have hthis : declared r.receiverDeclaration = r.receiver?.toList.map fun _ => .input 0 := by
    unfold receiverDeclaration
    cases hreceiver : r.receiver? with
    | none => rfl
    | some this =>
      obtain ⟨hword, hne⟩ := hr.class_ (by simp [hreceiver])
      have hlocal := Stmt.declarations_declare (f := { word := r.ownerName, behind := "*" })
        ⟨by simp, hword⟩ hne (l := .input 0) (by simp) true this
      simp only [TypeForm.text, String.empty_append] at hlocal
      simp [hlocal]
  have hend : declared r.declarationsEnd = [] := by
    unfold declarationsEnd
    split <;> rfl
  simp only [declared_append, declared_flatMap, hthis, hend, List.append_nil, locals,
    Variable.declared_declareDims]
  congr 2
  · congr 1
    refine List.flatMap_congr fun v hv => ?_
    obtain ⟨hword, hne⟩ := hr.types v (List.mem_append_right _ hv)
    exact Variable.declared_declareInput (hins v hv) hword hne
  · refine List.flatMap_congr fun v hv => ?_
    obtain ⟨hword, hne⟩ := hr.types v
      (List.mem_append.2 ((List.mem_append.1 hv).imp_left mem_of_keptResults))
    exact Variable.declared_declareOutput (houts v hv) hword hne

theorem mem_locals_arg {v : Variable} (hv : v ∈ r.args) : ∀ l ∈ v.locals, l ∈ r.locals := by
  intro l hl
  simp only [Variable.locals, List.mem_append] at hl
  simp only [locals, List.mem_append, List.mem_flatMap]
  rcases hl with (hl | hl) | hl
  · exact Or.inl (Or.inl (Or.inr ⟨v, hv, hl⟩))
  · exact Or.inl (Or.inr ⟨v, Or.inr hv, hl⟩)
  · exact Or.inr ⟨v, Or.inr hv, hl⟩

theorem mem_locals_kept {v : Variable} (hv : v ∈ r.keptResults) (hd : v.direction = .output) :
    ∀ l ∈ v.locals, l ∈ r.locals := by
  intro l hl
  have hin : v.inputLocals = [] := by simp [Variable.inputLocals, hd]
  simp only [Variable.locals, hin, List.nil_append, List.mem_append] at hl
  simp only [locals, List.mem_append, List.mem_flatMap]
  rcases hl with hl | hl
  · exact Or.inl (Or.inr ⟨v, Or.inl hv, hl⟩)
  · exact Or.inr ⟨v, Or.inl (mem_of_keptResults hv), hl⟩

theorem mem_locals_receiver (h : r.receiver?.isSome = true) : .input 0 ∈ r.locals := by
  obtain ⟨this, hthis⟩ := Option.isSome_iff_exists.1 h
  simp [locals, hthis]

theorem mem_locals_dims {v : Variable} (hv : v ∈ r.results ++ r.args) :
    ∀ l ∈ v.dimLocals, l ∈ r.locals := by
  intro l hl
  exact List.mem_append_right _ (List.mem_flatMap.2 ⟨v, hv, hl⟩)

/-- A sound routine all of whose variables are usable. -/
structure Usable (t : TypeTable) (r : Routine) : Prop where
  args : ∀ v ∈ r.args, v.Usable t
  kept : ∀ v ∈ r.keptResults, v.Usable t
  returned : r.results = [] ∨ ∃ v, r.results = [v] ∧ v.direction = .output ∧ v.outLabel = 0

theorem Usable.output (h : r.Usable t) {v : Variable} (hv : v ∈ r.keptResults) :
    v.direction = .output := by
  rcases h.returned with e | ⟨w, e, hd, -⟩
  · simp [keptResults, e] at hv
  · have := mem_of_keptResults hv
    simp only [e, List.mem_singleton] at this
    rwa [this]

/-- A checked routine is usable, if it keeps the two rules that no check enforces: only arrays live
on the GPU, and references to arrays are outputs. -/
theorem Sound.usable {m n : Nat} (h : r.Sound m n) (hvetted : r.Vetted t)
    (hc : ∀ type, t.isMxArray type = true → c.types.isMxArray type = true)
    (hgpu : ∀ v ∈ r.args, v.onGpu = true → v.kind.isArray = true)
    (href : ∀ v ∈ r.args, v.kind = .arrayRef → v.direction = .output) : r.Usable c.types := by
  refine ⟨fun v hv => ?_, fun v hv => ?_, h.returned⟩
  · have harg := hvetted.args v hv
    refine ⟨hgpu v hv, href v hv, harg.sized, fun hobj => ?_⟩
    by_cases hd : v.direction = .input
    · exact Or.inr (Or.inl hd)
    · exact Or.inr (Or.inr (hc _ (harg.object hobj hd)))
  · have hres := hvetted.results v (mem_of_keptResults hv)
    refine ⟨fun hg => ?_, fun hk => absurd hk hres.arrayRef, h.kept_sized hv,
      fun _ => Or.inl hres.output⟩
    rw [hres.onCpu] at hg
    cases hg

/-- A value kept in a local is that of a result that has one. -/
theorem Usable.locals_disposal (h : r.Usable t) {d : Disposal}
    (hd : r.disposal t = .ok (some d)) : ∀ l ∈ d.locals, l ∈ r.locals := by
  rcases h.returned with e | ⟨v, e, ho, h0⟩
  · rw [disposal, e] at hd
    cases hd
    simp [Disposal.locals]
  · have hd : v.disposal t = .ok (some d) := by rwa [disposal, e] at hd
    have hkept : v.kind.isNullable = false → v.kind ≠ .mx → .output 0 ∈ r.locals := by
      intro hn hmx
      have hv : v ∈ r.keptResults := by simp [keptResults, nullableReturn, e, hn]
      have := mem_locals_kept hv ho _ (Variable.mem_output ho hmx)
      rwa [h0] at this
    cases Variable.disposes_disposal hd with
    | copiedArray hk =>
      intro l hl
      refine mem_locals_dims (v := v) (by simp [e]) l ?_
      simpa [Disposal.locals, Variable.dimLocals] using hl
    | keptNumber hk hm =>
      simpa [Disposal.locals] using hkept (by simp [hk, hm, Kind.isNullable]) (by simp [hk])
    | keptCopy hk | keptPointer hk | keptAddress hk =>
      simpa [Disposal.locals] using hkept (by simp [hk, Kind.isNullable]) (by simp [hk])
    | _ => simp [Disposal.locals]

theorem Usable.makes_locals (h : r.Usable t) {g : Option Stage} (hs : r.Makes t g s) :
    ∀ l ∈ s.locals, l ∈ r.locals := by
  intro l hl
  cases hs with
  | receiver hthis =>
    rw [List.mem_singleton.1 hl]
    exact mem_locals_receiver (by simp [hthis])
  | declareDim hv hd =>
    rw [List.mem_singleton.1 hl]
    exact mem_locals_dims hv _ (List.mem_map_of_mem hd)
  | getDim hv hd =>
    rw [List.mem_singleton.1 hl]
    exact mem_locals_dims hv _ (List.mem_map_of_mem hd)
  | getObject hthis => exact List.mem_singleton.1 hl ▸ mem_locals_receiver hthis
  | checkReceiver hthis => exact List.mem_singleton.1 hl ▸ mem_locals_receiver hthis
  | arg hv hs => exact mem_locals_arg hv l (hs.locals (h.args _ hv) l hl)
  | result hv hs => exact mem_locals_kept hv (h.output hv) l (hs.locals (h.kept _ hv) l hl)
  | call hd =>
    simp only [Stmt.locals, List.mem_append] at hl
    rcases hl with (hl | hl) | hl
    · split at hl <;> simp at hl
      subst hl
      exact mem_locals_receiver ‹_›
    · simp only [call, List.flatMap_map, List.mem_flatMap] at hl
      obtain ⟨v, hv, hl⟩ := hl
      exact mem_locals_arg hv l (Variable.locals_actual l hl)
    · exact h.locals_disposal hd l hl
  | _ => cases hl

/-- **Every local that a stub names is declared in it.** -/
theorem Usable.locals_stub (h : r.Usable c.types) (hss : r.mainStatements c = .ok ss) :
    ∀ s ∈ ss ++ r.releases c.types, ∀ l ∈ s.locals, l ∈ r.locals := by
  intro s hs
  obtain ⟨g, hs⟩ := makes_mainStatements hss s hs
  exact h.makes_locals hs

end Routine

/-! ## No local is declared twice -/

theorem natRepr_injective : Function.Injective Nat.repr := by
  intro m n h
  have hdigits : Nat.toDigits 10 m = Nat.toDigits 10 n := by
    rw [Nat.repr, Nat.repr] at h
    exact String.ofList_inj.1 h
  have hm := Nat.ofDigitChars_toDigits (b := 10) (n := m) (by decide) (by decide)
  have hn := Nat.ofDigitChars_toDigits (b := 10) (n := n) (by decide) (by decide)
  rw [← hm, hdigits, hn]

/-- A sign is no digit. -/
theorem natRepr_ne_negative {m n : Nat} : m.repr ≠ "-" ++ n.repr := by
  intro h
  have hsign : '-' ∈ Nat.toDigits 10 m := by
    rw [← String.toList_ofList (l := Nat.toDigits 10 m)]
    change '-' ∈ m.repr.toList
    simp [h]
  exact absurd (Nat.isDigit_of_mem_toDigits (by decide) (by decide) hsign) (by decide)

theorem intRepr_injective : Function.Injective Int.repr := by
  intro a b h
  rw [Int.repr_eq_if, Int.repr_eq_if] at h
  split at h <;> split at h
  · have := natRepr_injective h
    omega
  · exact absurd h natRepr_ne_negative
  · exact absurd h.symm natRepr_ne_negative
  · have := natRepr_injective (by simpa using h)
    omega

namespace Local

/-- The number of a local. -/
def label : Local → Int
  | .input k => k
  | .output k => k
  | .dim k => k
  | .gpuInput k => k
  | .gpuOutput k => k
  | .gpuDims k => k

/-- What stands before the number in the name of a local. -/
def stem : Local → List Char
  | .input _ => ['i', 'n']
  | .output _ => ['o', 'u', 't']
  | .dim _ => ['d', 'i', 'm']
  | .gpuInput _ => ['m', 'x', 'G', 'P', 'U', 'A', 'r', 'r', 'a', 'y', '_', 'i', 'n']
  | .gpuOutput _ => ['m', 'x', 'G', 'P', 'U', 'A', 'r', 'r', 'a', 'y', '_', 'o', 'u', 't']
  | .gpuDims _ => ['g', 'p', 'u', '_', 'o', 'u', 't', 'd', 'i', 'm', 's']

theorem toList_name (l : Local) :
    l.name.toList = l.stem ++ ((toString l.label).toList ++ ['_']) := by
  cases l <;> simp [name, stem, label]

/-- Locals that differ have names that differ: no stem starts another. -/
theorem name_injective : Function.Injective name := by
  intro a b h
  have hlist : a.stem ++ ((toString a.label).toList ++ ['_'])
      = b.stem ++ ((toString b.label).toList ++ ['_']) := by
    rw [← toList_name, ← toList_name, h]
  have same (hs : a.stem = b.stem) : a.label = b.label := by
    rw [hs] at hlist
    have hdigits := List.append_cancel_right (List.append_cancel_left hlist)
    exact intRepr_injective (String.toList_inj.1 hdigits)
  cases a <;> cases b
  all_goals first
    | exact congrArg _ (same rfl)
    | simp [stem] at hlist

end Local

/-- Blocks of locals for distinct labels are distinct, if the locals tell the label. -/
theorem nodup_flatMap_label {f : Int → List Local} (hf : ∀ k, (f k).Nodup)
    (hlabel : ∀ k, ∀ l ∈ f k, l.label = k) {ks : List Int} (hks : ks.Nodup) :
    (ks.flatMap f).Nodup := by
  refine List.nodup_flatMap.2 ⟨fun k _ => hf k, hks.imp fun {j k} hjk l hj hk => hjk ?_⟩
  rw [← hlabel j l hj, hlabel k l hk]

namespace Variable

/-- An input takes its locals from the two of its right-hand place. -/
theorem inputLocals_sublist {vs : List Variable}
    (hdir : ∀ v ∈ vs, v.direction = .input ∨ v.direction = .output ∨ v.direction = .inout) :
    (vs.flatMap inputLocals).Sublist ((inLabels vs).flatMap fun k => [.input k, .gpuInput k]) := by
  induction vs with
  | nil => simp [inLabels]
  | cons v vs ih =>
    have ih := ih fun w hw => hdir w (by simp [hw])
    have hv : v.inputLocals.Sublist [.input v.inLabel, .gpuInput v.inLabel] := by
      unfold inputLocals
      split
      · simp
      · split <;> simp
    cases hi : v.direction.isInput with
    | true => simpa [inLabels, hi] using hv.append ih
    | false =>
      have hout : v.direction = .output := by
        rcases hdir v (by simp) with e | e | e <;> simp_all [Direction.isInput]
      have hnone : v.inputLocals = [] := by simp [inputLocals, hout]
      simpa [inLabels, hi, hnone] using ih

/-- An output takes its locals from the three of its left-hand place. -/
theorem outputLocals_sublist (vs : List Variable) :
    (vs.flatMap outputLocals).Sublist
      ((outLabels vs).flatMap fun k => [.output k, .gpuOutput k, .gpuDims k]) := by
  induction vs with
  | nil => simp [outLabels]
  | cons v vs ih =>
    have hv : v.outputLocals.Sublist
        [.output v.outLabel, .gpuOutput v.outLabel, .gpuDims v.outLabel] := by
      unfold outputLocals
      split
      · simp
      · split <;> simp
    cases ho : v.direction.isOutput with
    | true => simpa [outLabels, ho] using hv.append ih
    | false =>
      have hout : v.direction ≠ .output := by
        rintro e
        simp [e, Direction.isOutput] at ho
      have hnone : v.outputLocals = [] := by simp [outputLocals, hout]
      simpa [outLabels, ho, hnone] using ih

end Variable

namespace Routine

variable {m n : Nat} {t : TypeTable} {c : Context} {r : Routine} {ss : List Stmt}

theorem outLabels_keptResults :
    (outLabels (r.keptResults ++ r.args)).Sublist (outLabels (r.results ++ r.args)) := by
  unfold keptResults
  split
  · rw [List.nil_append, outLabels_append]
    exact List.sublist_append_right ..
  · exact List.Sublist.refl _

/-- **No local is declared twice.** -/
theorem nodup_locals (hright : r.rightPlaces.Nodup)
    (hleft : (outLabels (r.results ++ r.args)).Nodup)
    (hdir : ∀ v ∈ r.args, v.direction = .input ∨ v.direction = .output ∨ v.direction = .inout) :
    r.locals.Nodup := by
  have hsub : r.locals.Sublist
      ((r.receiver?.toList.map (fun _ => 0) ++ inLabels r.args).flatMap
          (fun k => [.input k, .gpuInput k])
        ++ (outLabels (r.keptResults ++ r.args)).flatMap
          (fun k => [.output k, .gpuOutput k, .gpuDims k])
        ++ (dimPlaces (r.results ++ r.args)).map .dim) := by
    unfold locals
    refine .append (.append ?_ (Variable.outputLocals_sublist _)) ?_
    · rw [List.flatMap_append]
      refine .append ?_ (Variable.inputLocals_sublist hdir)
      cases r.receiver? <;> simp
    · have hdims : (r.results ++ r.args).flatMap (·.dimLocals)
          = (dimPlaces (r.results ++ r.args)).map .dim := by
        simp only [dimPlaces, List.map_flatMap, List.map_map]
        rfl
      rw [hdims]
  refine List.Nodup.sublist hsub ?_
  have hins : (r.receiver?.toList.map (fun _ => (0 : Int)) ++ inLabels r.args).Nodup :=
    hright.of_append_left
  have hdims : (dimPlaces (r.results ++ r.args)).Nodup := hright.of_append_right
  have houts := hleft.sublist outLabels_keptResults
  refine List.nodup_append'.2 ⟨List.nodup_append'.2
    ⟨nodup_flatMap_label (by simp) (by simp [Local.label]) hins,
      nodup_flatMap_label (by simp) (by simp [Local.label]) houts, ?_⟩,
    hdims.map fun _ _ h => Local.dim.inj h, ?_⟩
  · intro l h1 h2
    simp only [List.mem_flatMap] at h1 h2
    grind
  · intro l h1 h2
    simp only [List.mem_append, List.mem_flatMap, List.mem_map] at h1 h2
    grind

end Routine

/-! ## What the call takes is fetched before it -/

namespace Code

/-- The text behind a local that is given a value; null is none. -/
def givesValue (s : String) : Bool :=
  assigns s && !([' ', '=', ' ', 'N', 'U', 'L', 'L'].isPrefixOf s.toList)

/-- The locals that code gives values: those assigned to, and those whose address is given away. -/
def valued : Code → List Local
  | [] => []
  | .loc l :: .text s :: c =>
    if givesValue s then l :: valued (.text s :: c) else valued (.text s :: c)
  | .text s :: .loc l :: c =>
    if s.toList.getLast? = some '&' then l :: valued (.loc l :: c) else valued (.loc l :: c)
  | _ :: c => valued c

theorem valued_cons_subset (x : Piece) (c : Code) : valued c ⊆ valued (x :: c) := by
  intro l hl
  cases x with
  | loc l' =>
    cases c with
    | nil => simp [valued] at hl
    | cons y c =>
      cases y with
      | text s =>
        rw [valued]
        split
        · exact List.mem_cons_of_mem _ hl
        · exact hl
      | _ => simpa [valued] using hl
  | text s =>
    cases c with
    | nil => simp [valued] at hl
    | cons y c =>
      cases y with
      | loc l' =>
        rw [valued]
        split
        · exact List.mem_cons_of_mem _ hl
        · exact hl
      | _ => simpa [valued] using hl
  | _ => simpa [valued] using hl

theorem valued_append_subset (a c : Code) : valued c ⊆ valued (a ++ c) := by
  induction a with
  | nil => exact List.Subset.refl _
  | cons x a ih => exact List.Subset.trans ih (valued_cons_subset x (a ++ c))

theorem mem_valued_assign {s : String} (hs : givesValue s = true) (a : Code) (l : Local)
    (c : Code) :
    l ∈ valued (a ++ .loc l :: .text s :: c) := by
  refine valued_append_subset a _ ?_
  rw [valued, if_pos hs]
  exact List.mem_cons_self

theorem mem_valued_address {s : String} (hs : s.toList.getLast? = some '&') (a : Code) (l : Local)
    (c : Code) : l ∈ valued (a ++ .text s :: .loc l :: c) := by
  refine valued_append_subset a _ ?_
  rw [valued, if_pos hs]
  exact List.mem_cons_self

theorem givesValue_of_head {s : String} {x : Char} {cs : List Char}
    (h : s.toList = ' ' :: '=' :: ' ' :: x :: cs) (hx : x ≠ 'N') : givesValue s = true := by
  simp [givesValue, assigns, h, List.isPrefixOf, hx.symm]

/-- A cast is a value. -/
theorem givesValue_cast (s : String) : givesValue (" = (" ++ s) = true :=
  givesValue_of_head (String.toList_append ..) (by decide)

theorem givesValue_copier (type : String) :
    givesValue (" = mxWrapGetArray_" ++ Numeric.copierMark type ++ type ++ "(") = true := by
  rw [String.append_assoc, String.append_assoc]
  exact givesValue_of_head (String.toList_append ..) (by decide)

theorem along_self {a : Code} (ha : a.all straight) (p : Path) : along p [] a = a := by
  have := along_straight p [] ha []
  simpa [along] using this

/-- An array used in place is fetched by the accessor that the layout asks for. -/
theorem valued_arraySource {k : Int} {type : String} {source : ArraySource}
    (h : source = .inPlace → (Numeric.ofType type).direct = true) (p : Path) (c : Code) :
    .input k ∈ valued (along p [] (source.code k type ++ c)) := by
  have hcopy := givesValue_copier type
  cases source with
  | copy =>
    rw [along_straight p [] rfl]
    exact mem_valued_assign hcopy [.text "        "] (.input k) _
  | checkedCopy =>
    have hcode : ArraySource.code k type .checkedCopy =
        classCheck "        " k "array" (Numeric.ofType type).mxClass
          ++ ArraySource.code k type .copy := by simp [ArraySource.code, seq]
    rw [hcode, List.append_assoc, along_straight p [] rfl, along_straight p [] rfl]
    refine valued_append_subset _ _ ?_
    exact mem_valued_assign hcopy [.text "        "] (.input k) _
  | inPlace =>
    have hcode : ArraySource.code k type .inPlace =
        classCheck "        " k "array" (Numeric.ofType type).mxClass
          ++ either .layout
            [.text "        ", .loc (.input k),
              .text (" = " ++ (Numeric.ofType type).accessor.getD "" ++ "("), .rhs k, .text ");\n"]
            [.text "        ", .loc (.input k),
              .text (if type = "double" then " = mxGetPr(" else " = (" ++ type ++ "*) mxGetData("),
              .rhs k, .text ");\n"] := by
      simp only [ArraySource.code, seq, List.flatten_cons, List.flatten_nil, List.append_nil]
      split <;> rfl
    rw [hcode, List.append_assoc, along_straight p [] rfl, along_either p [] .layout rfl rfl]
    refine valued_append_subset _ _ ?_
    rcases Numeric.direct_iff.1 (h rfl) with rfl | rfl <;> cases p.takes .layout <;>
      exact mem_valued_assign (by decide) [.text "        "] (.input k) _

end Code

/-- On every path the statement gives the local of the right-hand argument `k` a value, and looks at
the argument. -/
def Stmt.Fetches (k : Int) (s : Stmt) : Prop :=
  ∀ p : Path, .input k ∈ Code.valued (Code.along p [] s.code) ∧ .rhs k ∈ Code.along p [] s.code

namespace Stmt

theorem fetches_of_straight {k : Int} {s : Stmt} (hs : s.code.all Code.straight)
    (hvalued : .input k ∈ Code.valued s.code) (hrhs : .rhs k ∈ s.code) : s.Fetches k := by
  intro p
  rw [Code.along_self hs]
  exact ⟨hvalued, hrhs⟩

theorem fetches_getObject (k : Int) (type : String) (source : ObjectSource) :
    (Stmt.getObject k type source).Fetches k := by
  refine fetches_of_straight ?_ ?_ ?_
  · cases source <;> rfl
  · cases source <;> exact Code.mem_valued_assign (by decide) ["    "] (.input k) _
  · cases source <;> simp [code, Code.seq]

theorem fetches_getGpuArray (k : Int) (type : String) : (Stmt.getGpuArray k type).Fetches k := by
  refine fetches_of_straight rfl ?_ (by simp [code])
  simp only [code, String.append_assoc]
  exact Code.mem_valued_assign (Code.givesValue_cast _) [_, _, _, _, _, _, _, _] (.input k) _

theorem fetches_getString (k : Int) : (Stmt.getString k).Fetches k := by
  refine fetches_of_straight rfl ?_ (by simp [code, Code.seq])
  exact Code.mem_valued_assign (by decide) ["    "] (.input k) _

theorem fetches_getSizedString (k : Int) (ds : List Int) :
    (Stmt.getSizedString k ds).Fetches k := by
  refine fetches_of_straight ?_ ?_ (by simp [code, Code.seq])
  · simp [code, Code.seq, Code.straight, -List.all_eq_true, Code.straight_of_inert]
  · exact Code.mem_valued_assign (by decide) ["    "] (.input k) _

theorem fetches_getNumber (k : Int) (type : String) : (Stmt.getNumber k type).Fetches k := by
  refine fetches_of_straight ?_ ?_ (by simp [code, Code.seq, classCheck])
  · simp only [code]
    split <;> rfl
  · simp only [code, Code.seq, List.flatten_cons, List.cons_append, List.nil_append,
      String.append_assoc]
    exact Code.mem_valued_assign (Code.givesValue_cast _)
      (classCheck _ _ _ _ ++ [.text "    "]) (.input k) _

theorem fetches_getComplex (k : Int) (type : String) : (Stmt.getComplex k type).Fetches k := by
  refine fetches_of_straight rfl ?_ (by simp [code, Code.seq, classCheck])
  refine Code.mem_valued_address ?_ (classCheck _ _ _ _) (.input k) _
  rw [String.toList_append, List.getLast?_append]
  rfl

theorem fetches_getMx (k : Int) : (Stmt.getMx k).Fetches k :=
  fetches_of_straight rfl (Code.mem_valued_assign (by decide) ["    "] (.input k) _)
    (by simp [code])

theorem fetches_getArray {k : Int} {type : String} {source : ArraySource}
    (h : source = .inPlace → (Numeric.ofType type).direct = true) :
    (Stmt.getArray k type source).Fetches k := by
  intro p
  have hcode : (Stmt.getArray k type source).code = (.text "    if (" :: sizeOfArgument k
      ++ [.text " != 0) \x7b\n"]) ++ (source.code k type
      ++ [.text "    \x7d else\n        ", .loc (.input k), .text " = NULL;\n\n"]) := by
    simp [code, Code.seq]
  rw [hcode, Code.along_straight p [] rfl]
  refine ⟨Code.valued_append_subset _ _ (Code.valued_arraySource h p _), ?_⟩
  exact List.mem_append_left _ (by simp [sizeOfArgument])

end Stmt

namespace Variable

variable {t : TypeTable} {v : Variable}

/-- Whatever is passed in is fetched, but for constants. -/
theorem fetches_getInput (hknown : v.kind ≠ .unknown) (hconst : v.kind ≠ .const)
    (href : v.kind ≠ .arrayRef) (hin : v.direction.isInput = true) :
    ∃ s ∈ v.getInput t, s.Fetches v.inLabel := by
  have hd : v.direction ≠ .output := by
    rintro e
    simp [e, Direction.isInput] at hin
  unfold getInput
  rw [if_neg hd]
  cases hk : v.kind with
  | unknown => exact absurd hk hknown
  | const => exact absurd hk hconst
  | arrayRef => exact absurd hk href
  | object m => exact ⟨_, List.mem_singleton_self _, Stmt.fetches_getObject _ _ _⟩
  | array f =>
    dsimp only
    split
    · exact ⟨_, List.mem_singleton_self _, Stmt.fetches_getGpuArray _ _⟩
    · exact ⟨_, List.mem_singleton_self _, Stmt.fetches_getArray direct_of_arraySource⟩
  | number f m =>
    cases f with
    | real => exact ⟨_, List.mem_singleton_self _, Stmt.fetches_getNumber _ _⟩
    | single => exact ⟨_, List.mem_singleton_self _, Stmt.fetches_getComplex _ _⟩
    | double => exact ⟨_, List.mem_singleton_self _, Stmt.fetches_getComplex _ _⟩
  | string =>
    dsimp only
    split
    · exact ⟨_, List.mem_singleton_self _, Stmt.fetches_getString _⟩
    · exact ⟨_, List.mem_singleton_self _, Stmt.fetches_getSizedString _ _⟩
  | mx => exact ⟨_, List.mem_singleton_self _, Stmt.fetches_getMx _⟩

/-- A constant stands in the call as it is spelled. -/
theorem actual_of_const (h : v.kind = .const) : v.actual = .literal v.name := by
  simp [actual, h]

/-- Any other argument is a local of its own, or the place of a MATLAB array to be filled. -/
theorem actual_of_ne_const (h : v.kind ≠ .const) :
    (∃ x ∈ v.locals, v.actual.locals = [x]) ∨ v.actual = .slot v.outLabel := by
  by_cases hslot : v.direction = .output ∧ v.kind = .mx
  · exact Or.inr (by simp [actual, hslot])
  · refine Or.inl ⟨v.holder, mem_holder h fun hd hmx => hslot ⟨hd, hmx⟩, ?_⟩
    unfold actual
    split
    case h_3 hmx =>
      rw [if_neg fun hd => hslot ⟨hd, hmx⟩]
      rfl
    case h_5 hconst => exact absurd hconst h
    all_goals rfl

/-- The local of an input in the call is its own, and no constant has one. -/
theorem input_of_actual {k : Int} (h : .input k ∈ v.actual.locals) :
    v.kind ≠ .const ∧ v.direction ≠ .output ∧ v.inLabel = k := by
  have hholder : .input k = v.holder → v.direction ≠ .output ∧ v.inLabel = k := by
    unfold holder
    split <;> simp_all
  unfold actual at h
  split at h
  case h_1 hk => exact ⟨by simp [hk], hholder (by simpa [Actual.locals] using h)⟩
  case h_2 hk => exact ⟨by simp [hk], hholder (by simpa [Actual.locals] using h)⟩
  case h_3 hk =>
    split at h
    · simp [Actual.locals] at h
    · exact ⟨by simp [hk], hholder (by simpa [Actual.locals] using h)⟩
  case h_4 hk => exact ⟨by simp [hk], hholder (by simpa [Actual.locals] using h)⟩
  case h_5 => simp [Actual.locals] at h
  case h_6 _ _ hconst => exact ⟨hconst, hholder (by simpa [Actual.locals] using h)⟩

end Variable

namespace Routine

variable {t : TypeTable} {r : Routine}

/-- **Every input of the call is fetched.** -/
theorem fetches_inputReads (hargs : ∀ v ∈ r.args, v.SoundArg)
    (hdir : ∀ v ∈ r.args, v.direction = .input ∨ v.direction = .output ∨ v.direction = .inout)
    (href : ∀ v ∈ r.args, v.kind = .arrayRef → v.direction = .output) {d : Disposal} {k : Int}
    (hk : .input k ∈ (Stmt.call r.call d).locals) : ∃ s ∈ r.inputReads t, s.Fetches k := by
  have hdisposal : .input k ∉ d.locals := by cases d <;> simp [Disposal.locals]
  simp only [Stmt.locals, List.mem_append, hdisposal, or_false] at hk
  rcases hk with hk | hk
  · cases hthis : r.receiver?.isSome with
    | false => simp [call, hthis] at hk
    | true =>
      obtain rfl : k = 0 := by simpa [call, hthis] using hk
      have hread : Stmt.getObject 0 r.ownerName
          (r.owner.elim .plain (Variable.getInput.objectSource t)) ∈ r.inputReads t := by
        simp [inputReads, hthis]
      exact ⟨_, hread, Stmt.fetches_getObject 0 _ _⟩
  · simp only [call, List.flatMap_map, List.mem_flatMap] at hk
    obtain ⟨v, hv, hk⟩ := hk
    obtain ⟨hconst, hd, rfl⟩ := Variable.input_of_actual hk
    have hin : v.direction.isInput = true := by
      rcases hdir v hv with e | e | e <;> simp_all [Direction.isInput]
    obtain ⟨s, hs, hfetch⟩ := Variable.fetches_getInput (t := t) (hargs v hv).known hconst
      (fun e => hd (href v hv e)) hin
    exact ⟨s, List.mem_append_right _ (List.mem_flatMap.2 ⟨v, hv, hs⟩), hfetch⟩

/-- The declarations come first, and the inputs are read before the call. -/
theorem Sound.split {m n : Nat} {c : Context} {ss : List Stmt} (h : r.Sound m n)
    (hss : r.mainStatements c = .ok ss) :
    ∃ decls before d after, r.declarations = .ok decls ∧
      ss = decls ++ before ++ .call r.call d :: after ∧ ∀ s ∈ r.inputReads c.types, s ∈ before := by
  obtain ⟨⟨ds, hds⟩, -, ⟨cs, hcs⟩, -, rfl⟩ := mainStatements_eq_ok hss
  obtain ⟨d, hd, hcs'⟩ := callStatements_eq_ok hcs
  obtain ⟨d, rfl, -⟩ := h.disposal hd
  refine ⟨ds, r.dimReads ++ r.dimChecks ++ r.inputReads c.types ++ r.inputChecks
    ++ made (r.allocations c.types) ++ [.recordCall r.id]
    ++ (if r.receiver?.isSome then [.checkReceiver] else [])
    ++ (if c.settings.catches then [.beginTry] else []), d,
    (if c.settings.catches then [.endTry r.name] else []) ++ made (r.resultWrites c.types), hds,
    ?_, fun s hs => by simp [hs]⟩
  rw [hds, hcs, made_ok, made_ok, hcs']
  simp

/-- What comes after the declarations declares nothing. -/
theorem declared_rest {c : Context} {decls rest : List Stmt} (hdecls : r.declarations = .ok decls)
    (h : r.mainStatements c = .ok (decls ++ rest)) :
    declared (rest ++ r.releases c.types) = [] := by
  have hrest : rest = r.dimReads ++ r.dimChecks ++ r.inputReads c.types ++ r.inputChecks
      ++ made (r.allocations c.types) ++ [.recordCall r.id] ++ made (r.callStatements c)
      ++ made (r.resultWrites c.types) := by
    have heq := (mainStatements_eq_ok h).eq
    rw [hdecls, made_ok] at heq
    simp only [List.append_assoc] at heq ⊢
    exact List.append_cancel_left heq
  refine List.flatMap_eq_nil_iff.2 fun s hs => ?_
  have hstage : s.stage ≠ some .declare := by
    simp only [hrest, List.mem_append] at hs
    rcases hs with (((((((hs | hs) | hs) | hs) | hs) | hs) | hs) | hs) | hs <;>
    grind [stage_dimReads, stage_dimChecks, stage_inputReads, stage_inputChecks, stage_allocations,
      stage_callStatements, stage_resultWrites, stage_releases, Stmt.stage]
  rw [Stmt.declarations_code hstage, List.map_nil]

end Routine

namespace Ledger

/-- **Every local of a stub is declared in it, once.** For a declaration checked without errors in
any state, that puts only arrays on the GPU and has references to arrays as outputs only, a stub is
written, in the same context or one that knows more MATLAB types. It starts with its declarations
and names no local that is not declared in their code, also after the error label; the names
declared differ, and no other statement declares any; and every right-hand argument that the call
takes has been fetched before it. The arguments of the call that are no locals are the constants,
which are written as they are spelled and declared nowhere, and the places of MATLAB arrays to be
filled. -/
theorem stub_locals {file : String} {ts : List Token} {r : Routine}
    (hparse : Statement.parse file ts = .ok (.call r))
    (hlex : ∀ u ∈ ts, ∃ line cs, u ∈ Token.tokens line cs) (l : Ledger)
    (h : (l.checked r).errors = 0) {c : Context}
    (hc : ∀ type, l.context.types.isMxArray type = true → c.types.isMxArray type = true)
    {g : Group} (hg : g.first = (l.checked r).value)
    (hgpu : ∀ v ∈ g.first.args, v.onGpu = true → v.kind.isArray = true)
    (href : ∀ v ∈ g.first.args, v.kind = .arrayRef → v.direction = .output) :
    ∃ decls before d after, g.first.declarations = .ok decls ∧
      g.stub c = .ok (g.stubHead (g.first.signature c.settings.promotion)
        ++ Code.render ((decls ++ before ++ Stmt.call g.first.call d :: after).flatMap Stmt.code)
        ++ "\nmw_err_label:\n" ++ Code.render ((g.first.releases c.types).flatMap Stmt.code)
        ++ Group.stubTail) ∧
      (∀ x ∈ Code.locals ((before ++ Stmt.call g.first.call d :: after
        ++ g.first.releases c.types).flatMap Stmt.code), x ∈ declared decls) ∧
      ((declared decls).map Local.name).Nodup ∧
      declared (before ++ Stmt.call g.first.call d :: after ++ g.first.releases c.types) = [] ∧
      (∀ k, .input k ∈ (Stmt.call g.first.call d).code.locals →
        ∃ s ∈ before, s ∈ g.first.inputReads c.types ∧ s.Fetches k) ∧
      ∀ v ∈ g.first.args, if v.kind = .const then v.actual = .literal v.name
        else (∃ x ∈ declared decls, v.actual.locals = [x]) ∨ v.actual = .slot v.outLabel := by
  have hnames : Statement.NamesSatisfy IsName ts := by
    intro u hu hk
    obtain ⟨line, cs, hu⟩ := hlex u hu
    exact Token.isName_tokens hu hk
  have hr' := written_promote (p := l.context.settings.promotion) (fun _ hs => hs.rename _)
    (Statement.written_of_parse hnames hparse) (l.count + 1)
  have hsound := Routine.sound_check hr' h hg.symm
  have hvetted : g.first.Vetted l.context.types := hg ▸ Routine.vetted_check hr' h
  have husable := hsound.usable hvetted hc hgpu href
  have hwritten : g.first.Written IsName :=
    hg ▸ (Routine.passed_of_errors hr' h).written hr'.labelled
  obtain ⟨main, hmain⟩ := (hvetted.mainStatements_iff (c := c)).2 fun v hv hu =>
    (hvetted.args v hv).sized (Or.inl (hgpu v hv hu.1)) hu.2.1 hu.2.2
  obtain ⟨decls, before, d, after, hdecls, hsplit, hbefore⟩ := hsound.split hmain
  have hlocals := husable.locals_stub hmain
  have hdeclared := hwritten.worded.declared_declarations hdecls
  refine ⟨decls, before, d, after, hdecls, ?_, ?_, ?_, ?_, ?_, ?_⟩
  · rw [Group.stub_of_mainStatements hwritten.callee.isSignable hmain, hsplit]
  · intro x hx
    simp only [Code.locals, List.mem_flatMap] at hx
    obtain ⟨y, ⟨s, hs, hy⟩, hx⟩ := hx
    rw [hdeclared]
    refine hlocals s ?_ x (s.locals_code x (List.mem_flatMap.2 ⟨y, hy, hx⟩))
    rw [hsplit, List.append_assoc, List.append_assoc]
    exact List.mem_append_right _ (by rwa [List.append_assoc] at hs)
  · rw [hdeclared]
    obtain ⟨hright, hleft⟩ := Routine.places_check hr' h hg.symm
    refine List.Nodup.map Local.name_injective (Routine.nodup_locals ?_ ?_ fun v hv =>
      (hsound.placed_arg hv).direction)
    · rw [hright]
      exact nodup_labelsFrom ..
    · rw [hleft]
      exact nodup_labelsFrom ..
  · exact Routine.declared_rest hdecls (by rw [hmain, hsplit, List.append_assoc])
  · intro k hk
    obtain ⟨s, hs, hfetch⟩ := Routine.fetches_inputReads (t := c.types) hsound.args
      (fun v hv => (hsound.placed_arg hv).direction) href (Stmt.locals_code _ _ hk)
    exact ⟨s, hbefore s hs, hs, hfetch⟩
  · intro v hv
    rw [hdeclared]
    split
    · exact Variable.actual_of_const ‹_›
    · exact (Variable.actual_of_ne_const ‹_›).imp_left fun ⟨x, hx, hactual⟩ =>
        ⟨x, Routine.mem_locals_arg hv x hx, hactual⟩

/-- A method with a constant that is spelled like a local, arguments on the GPU, a reference to an
array, and numbers of both sorts. -/
def blendTokens : List Token := Token.tokens 1
  ("double q = obj->Point.blend(const in9_, gpu inout double[n] a, gpu output float[n] b, "
    ++ "output double[k]& c, dcomplex z);").toList

def blendRoutine : Routine where
  receiver := some "obj"
  owner := some "Point"
  name := "blend"
  file := "a.mw"
  line := 1
  args := [
    { type := "const", name := "in9_" },
    { device := .gpu, direction := .inout, type := "double", name := "a"
      qualifier := some { mark := .array, dims := [{ text := "n" }] } },
    { device := .gpu, direction := .output, type := "float", name := "b"
      qualifier := some { mark := .array, dims := [{ text := "n" }] } },
    { direction := .output, type := "double", name := "c"
      qualifier := some { mark := .arrayRef, dims := [{ text := "k" }] } },
    { type := "dcomplex", name := "z" }]
  results := [{ direction := .output, type := "double", name := "q" }]

theorem stub_locals_blendRoutine :
    let g : Group := { first := (({} : Ledger).checked blendRoutine).value }
    Statement.parse "a.mw" blendTokens = .ok (.call blendRoutine) ∧
      (({} : Ledger).checked blendRoutine).errors = 0 ∧
      (∀ v ∈ g.first.args, v.onGpu = true → v.kind.isArray = true) ∧
      (∀ v ∈ g.first.args, v.kind = .arrayRef → v.direction = .output) ∧
      (∃ text, g.stub {} = .ok text) ∧
      ∃ decls, g.first.declarations = .ok decls ∧ ((declared decls).map Local.name).Nodup ∧
        (declared decls).map Local.name = ["in0_", "in2_", "mxGPUArray_in2_", "in3_", "out0_",
          "out2_", "mxGPUArray_out2_", "gpu_outdims2_", "out3_", "dim4_", "dim5_", "dim6_"] ∧
        g.first.call.args.head? = some (.literal "in9_") := by
  intro g
  have hparse : Statement.parse "a.mw" blendTokens = .ok (.call blendRoutine) := by decide +kernel
  have herrors : (({} : Ledger).checked blendRoutine).errors = 0 := by decide +kernel
  have hgpu : ∀ v ∈ g.first.args, v.onGpu = true → v.kind.isArray = true := by decide +kernel
  have href : ∀ v ∈ g.first.args, v.kind = .arrayRef → v.direction = .output := by decide +kernel
  obtain ⟨decls, before, d, after, hdecls, hstub, -, hnodup, -, -, -⟩ :=
    stub_locals hparse (fun u hu => ⟨1, _, hu⟩) {} herrors (c := {}) (fun _ h => h) (g := g) rfl
      hgpu href
  have hnames : g.first.declarations.map (fun ss => (declared ss).map Local.name)
      = .ok ["in0_", "in2_", "mxGPUArray_in2_", "in3_", "out0_", "out2_", "mxGPUArray_out2_",
        "gpu_outdims2_", "out3_", "dim4_", "dim5_", "dim6_"] := by decide +kernel
  rw [hdecls] at hnames
  exact ⟨hparse, herrors, hgpu, href, ⟨_, hstub⟩, decls, hdecls, hnodup, Except.ok.inj hnames,
    by decide +kernel⟩

end Ledger

end MexBridge
