import Sessions.Proofs.Program.PathKey

/-!
# Sessions.Proofs.Program.PathRoundTrip

Writing a path and reading it again. For paths with identifiers for names, integers of 64 bits and
paths of the same kind for indices (`Wellnamed`), both texts of a path are read as the path up to
locations and to a written zero (`Alike`), and paths with one key are alike.

An index in a key is written in the short form, as it is in the short text, so one derivation
serves both texts: `rereads` goes by induction on the steps and gives the same steps for both.
-/

namespace Sessions.Path

/-! ## Names -/

/-- A letter or an underscore; beyond ASCII whatever is not white space. -/
def isLetter (c : Char) : Bool :=
  c.isAlpha || c == '_' || (0x80 ≤ c.toNat && !Text.isBlank c)

def IsIdentifier : List Char → Prop
  | [] => False
  | c :: rest => isLetter c = true ∧ rest.all (fun d => isLetter d || d.isDigit) = true

instance : DecidablePred IsIdentifier
  | [] => .isFalse id
  | _ :: _ => inferInstanceAs (Decidable (_ ∧ _))

theorem plain_of_isLetter {c : Char} (h : isLetter c = true) :
    (c ≠ '.' ∧ c ≠ '[' ∧ c ≠ ']') ∧ Text.isBlank c = false ∧
      c.isDigit = false ∧ c ≠ '+' ∧ c ≠ '-' := by
  have hcode' : (65 ≤ c.toNat ∧ c.toNat ≤ 90 ∨ 97 ≤ c.toNat ∧ c.toNat ≤ 122 ∨ c.toNat = 95) ∨
      128 ≤ c.toNat ∧ Text.isBlank c = false := by
    unfold isLetter Char.isAlpha Char.isUpper Char.isLower at h
    simp only [Bool.or_eq_true, Bool.and_eq_true, decide_eq_true_eq, beq_iff_eq, ge_iff_le,
      UInt32.le_iff_toNat_le] at h
    obtain ((h | h) | rfl) | h := h
    · exact .inl (.inl h)
    · exact .inl (.inr (.inl h))
    · exact .inl (.inr (.inr rfl))
    · exact .inr ⟨h.1, by simpa using h.2⟩
  have hcode : 65 ≤ c.toNat ∧ c.toNat ≠ 91 ∧ c.toNat ≠ 93 := by omega
  have hblank : Text.isBlank c = false := by
    rcases hcode' with hcode | ⟨-, h⟩
    · simp only [Text.isBlank, Bool.or_eq_false_iff, Bool.and_eq_false_iff, decide_eq_false_iff_not,
        beq_eq_false_iff_ne]
      omega
    · exact h
  have hdigit : c.isDigit = false := by
    simp only [Char.isDigit, Bool.and_eq_false_iff, decide_eq_false_iff_not, ge_iff_le,
      UInt32.le_iff_toNat_le]
    change ¬ 48 ≤ c.toNat ∨ ¬ c.toNat ≤ 57
    omega
  refine ⟨⟨?_, ?_, ?_⟩, hblank, hdigit, ?_, ?_⟩ <;> rintro rfl <;> revert hcode <;> decide

theorem IsIdentifier.isName {cs : List Char} (h : IsIdentifier cs) : IsName cs := by
  cases cs with
  | nil => exact h.elim
  | cons c rest =>
    refine ⟨List.cons_ne_nil _ _, List.forall_mem_cons.2 ⟨(plain_of_isLetter h.1).1, fun d hd => ?_⟩⟩
    rcases Bool.or_eq_true_iff.1 (List.all_eq_true.1 h.2 d hd) with hletter | hdigit
    · exact (plain_of_isLetter hletter).1
    · exact (plain_of_isDigit hdigit).1

/-! ## Paths that are written as they are read -/

/-- Names are identifiers, and indices are missing, integers of 64 bits or paths of this kind. -/
inductive Wellnamed : List Step → Prop
  | nil : Wellnamed []
  | bare {n ss} (hn : IsIdentifier n.toList) (h : Wellnamed ss) : Wellnamed (⟨n, none⟩ :: ss)
  | constant {n l k ss} (hn : IsIdentifier n.toList) (hk : -2 ^ 63 ≤ k ∧ k < 2 ^ 63)
      (h : Wellnamed ss) : Wellnamed (⟨n, some (.constant l (.int k))⟩ :: ss)
  | path {n l p ss} (hn : IsIdentifier n.toList) (hne : p.steps ≠ []) (hp : Wellnamed p.steps)
      (h : Wellnamed ss) : Wellnamed (⟨n, some (.var l p)⟩ :: ss)

/-- No index, or the constant zero. -/
def IsZero (i : Option Expr) : Prop :=
  i = none ∨ ∃ l, i = some (.constant l (.int 0))

/-- The same names with the same indices, a missing one being zero, wherever they stand. -/
inductive Alike : List Step → List Step → Prop
  | nil : Alike [] []
  | zero {n i j ss us} (hi : IsZero i) (hj : IsZero j) (h : Alike ss us) :
      Alike (⟨n, i⟩ :: ss) (⟨n, j⟩ :: us)
  | constant {n l l' k ss us} (h : Alike ss us) :
      Alike (⟨n, some (.constant l (.int k))⟩ :: ss) (⟨n, some (.constant l' (.int k))⟩ :: us)
  | path {n l l' p q ss us} (hp : Alike p.steps q.steps) (h : Alike ss us) :
      Alike (⟨n, some (.var l p)⟩ :: ss) (⟨n, some (.var l' q)⟩ :: us)

variable {loc : Location} {ss us : List Step} {p q : Path} {n : String}

theorem IsZero.indexText {i : Option Expr} (h : IsZero i) : Step.indexText ⟨n, i⟩ = "0" := by
  obtain rfl | ⟨l, rfl⟩ := h <;> rfl

theorem IsZero.isStatic {i : Option Expr} (h : IsZero i) : Step.isStatic ⟨n, i⟩ = true := by
  obtain rfl | ⟨l, rfl⟩ := h <;> rfl

theorem Alike.map_shown (h : Alike ss us) : ss.map shown = us.map shown := by
  induction h with
  | nil => rfl
  | zero hi hj _ ih => simp only [List.map_cons, ih, shown, hi.indexText, hj.indexText]
  | constant _ ih => simp only [List.map_cons, ih, shown, Step.indexText, Expr.render]
  | path _ _ ihp ih =>
    simp only [List.map_cons, ih, shown, Step.indexText, Expr.render, render_eq,
      written_congr false ihp]

theorem Alike.isStatic (h : Alike ss us) : ss.all Step.isStatic = us.all Step.isStatic := by
  induction h with
  | nil => rfl
  | zero hi hj _ ih => simp only [List.all_cons, ih, hi.isStatic, hj.isStatic]
  | constant _ ih => simp only [List.all_cons, ih, Step.isStatic]
  | path _ _ _ ih => simp only [List.all_cons, ih, Step.isStatic]

theorem Alike.symm (h : Alike ss us) : Alike us ss := by
  induction h with
  | nil => exact .nil
  | zero hi hj _ ih => exact .zero hj hi ih
  | constant _ ih => exact .constant ih
  | path _ _ ihp ih => exact .path ihp ih

theorem Alike.trans {vs : List Step} (h : Alike ss us) (h' : Alike us vs) : Alike ss vs := by
  induction h generalizing vs with
  | nil => exact h'
  | zero hi hj _ ih =>
    cases h' with
    | zero _ hk h' => exact .zero hi hk (ih h')
    | constant h' =>
      -- Both are the constant zero, at two places.
      obtain hnone | ⟨_, hzero⟩ := hj
      · cases hnone
      · cases hzero
        exact .zero hi (.inr ⟨_, rfl⟩) (ih h')
    | path =>
      obtain hnone | ⟨_, hzero⟩ := hj
      · cases hnone
      · cases hzero
  | constant _ ih =>
    cases h' with
    | zero hj hk h' =>
      obtain hnone | ⟨_, hzero⟩ := hj
      · cases hnone
      · cases hzero
        exact .zero (.inr ⟨_, rfl⟩) hk (ih h')
    | constant h' => exact .constant (ih h')
  | path _ _ ihp ih =>
    cases h' with
    | zero hj =>
      obtain hnone | ⟨_, hzero⟩ := hj
      · cases hnone
      · cases hzero
    | path hq h' => exact .path (ihp hq) (ih h')

/-! ## Reading what was written -/

theorem numeral_toString {k : Int} (hk : -2 ^ 63 ≤ k ∧ k < 2 ^ 63) : Numeral (toString k).toList k :=
  ⟨signed_toString k, hk.1, hk.2⟩

theorem numeral_zero : Numeral "0".toList 0 :=
  numeral_toString (k := 0) (by decide)

/-- The text of a step is read as the step, if the text of the index is read as the index. -/
theorem derives_write (full : Bool) {index : String} {us : List Step} {j : Option Expr}
    (hn : IsName n.toList) (h : Derives loc .path index.toList us)
    (hj : Indexes loc index.toList us j) :
    Derives loc .step (Step.write full n index).toList [⟨n, j⟩] := by
  rw [toList_write]
  split_ifs with hwritten
  · have hstep := Derives.indexed hn h hj
    rwa [String.ofList_toList] at hstep
  · simp only [Bool.or_eq_true, decide_eq_true_eq, not_or, not_not] at hwritten
    have hnone : j = none := by
      rw [hwritten.2] at hj
      cases hj with
      | zero => rfl
      | constant hm hne => exact absurd (hm.unique numeral_zero) hne
      | path hnot => exact absurd numeral_zero (hnot 0)
    have hstep : Derives loc .step _ _ := Derives.name hn
    rwa [String.ofList_toList, ← hnone] at hstep

theorem derives_numeral (k : Int) :
    Derives loc .path (toString k).toList [⟨toString k, none⟩] := by
  obtain ⟨hname, hblank⟩ := (signed_toString k).plain
  have hstep : Derives loc .step _ _ := Derives.name hname
  rw [String.ofList_toList] at hstep
  exact .path (.last hstep) hblank

/-- A text is read as these steps if it is written from steps that are read as them, one by one. -/
theorem derives_written {full : Bool} {us : List Step}
    (h : List.Forall₂ (fun s u =>
      Derives loc .step (Step.write full s.name s.indexText).toList [u]) ss us)
    (hne : ss ≠ []) : Derives loc .steps (written full ss).toList us := by
  have hsolid : ∀ s ∈ ss, Solid 0 (Step.write full s.name s.indexText).toList := by
    clear hne
    induction h with
    | nil => simp
    | cons hstep _ ih => exact List.forall_mem_cons.2 ⟨hstep.solid, ih⟩
  rw [toList_written, derives_steps_iff]
  refine ⟨_, splits_intercalate (fun hnil => hne (List.map_eq_nil_iff.1 hnil)) fun seg hseg => ?_,
    List.forall₂_map_left_iff.2 h⟩
  obtain ⟨s, hs, rfl⟩ := List.mem_map.1 hseg
  exact hsolid s hs

/-- The text of a path starts with a letter, so it is neither blank nor an integer. -/
theorem Wellnamed.head_isLetter (full : Bool) (h : Wellnamed ss) (hne : ss ≠ []) :
    ∃ c rest, (written full ss).toList = c :: rest ∧ isLetter c = true := by
  have hjoin : ∀ (x : List Char) (xs : List (List Char)),
      ∃ t, ['.'].intercalate (x :: xs) = x ++ t := by
    intro x xs
    cases xs with
    | nil => exact ⟨[], by simp⟩
    | cons y ys => exact ⟨_, List.intercalate_cons_cons.trans (List.append_assoc _ _ _)⟩
  have hstep : ∀ (s : Step) (ss : List Step), IsIdentifier s.name.toList →
      ∃ c rest, (written full (s :: ss)).toList = c :: rest ∧ isLetter c = true := by
    intro s ss hn
    obtain ⟨t, ht⟩ := hjoin (Step.write full s.name s.indexText).toList
      (ss.map fun s => (Step.write full s.name s.indexText).toList)
    rw [toList_written, List.map_cons, ht, toList_write]
    cases hname : s.name.toList with
    | nil =>
      rw [hname] at hn
      exact hn.elim
    | cons c rest =>
      rw [hname] at hn
      split_ifs
      · exact ⟨c, _, rfl, hn.1⟩
      · exact ⟨c, _, rfl, hn.1⟩
  cases h with
  | nil => exact absurd rfl hne
  | bare hn | constant hn | path hn => exact hstep _ _ hn

theorem not_numeral_of_isLetter {c : Char} {rest : List Char} (hc : isLetter c = true) (k : Int) :
    ¬ Numeral (c :: rest) k := by
  obtain ⟨-, -, hdigit, hplus, hminus⟩ := plain_of_isLetter hc
  rintro ⟨hsigned, -⟩
  cases hsigned with
  | unsigned _ hds => exact absurd (hds c List.mem_cons_self) (by simp [hdigit])
  | plus => exact hplus rfl
  | minus => exact hminus rfl

/-- Both texts of the steps are read as one list of steps, which is like them. -/
theorem Wellnamed.rereads (loc : Location) (h : Wellnamed ss) :
    ∃ us, Alike ss us ∧ ∀ full, List.Forall₂ (fun s u =>
      Derives loc .step (Step.write full s.name s.indexText).toList [u]) ss us := by
  induction h with
  | nil => exact ⟨[], .nil, fun _ => .nil⟩
  | @bare n ss hn _ ih =>
    obtain ⟨us, halike, hread⟩ := ih
    refine ⟨⟨n, none⟩ :: us, .zero (.inl rfl) (.inl rfl) halike, fun full => .cons ?_ (hread full)⟩
    exact derives_write full hn.isName (derives_numeral 0) (.zero numeral_zero)
  | @constant n l k ss hn hk _ ih =>
    obtain ⟨us, halike, hread⟩ := ih
    have hindex : Derives loc .path _ _ := derives_numeral k
    by_cases hzero : k = 0
    · subst hzero
      exact ⟨⟨n, none⟩ :: us, .zero (.inr ⟨l, rfl⟩) (.inl rfl) halike, fun full =>
        .cons (derives_write full hn.isName hindex (.zero (numeral_toString hk))) (hread full)⟩
    · exact ⟨⟨n, some (.constant loc (.int k))⟩ :: us, .constant halike, fun full =>
        .cons (derives_write full hn.isName hindex (.constant (numeral_toString hk) hzero))
          (hread full)⟩
  | @path n l p ss hn hne hp _ ihp ih =>
    obtain ⟨us, halike, hread⟩ := ih
    obtain ⟨ps, hpalike, hpread⟩ := ihp
    refine ⟨⟨n, some (.var loc ⟨loc, ps⟩)⟩ :: us, .path hpalike halike, fun full => .cons ?_ (hread full)⟩
    obtain ⟨c, rest, htext, hc⟩ := hp.head_isLetter false hne
    have hblank : (written false p.steps).toList.all Text.isBlank = false := by
      simp [htext, (plain_of_isLetter hc).2.1]
    have hindex : Step.indexText ⟨n, some (.var l p)⟩ = written false p.steps := by
      rw [Step.indexText, Expr.render, render_eq]
    rw [hindex]
    exact derives_write full hn.isName (.path (derives_written (hpread false) hne) hblank)
      (.path fun k => htext ▸ not_numeral_of_isLetter hc k)

/-- Both texts of a path are read as one path, which is like it. -/
theorem Wellnamed.parse (loc : Location) (h : Wellnamed ss) (hne : ss ≠ []) :
    ∃ us, Alike ss us ∧ ∀ full, parse loc (written full ss) = .ok ⟨loc, us⟩ := by
  obtain ⟨us, halike, hread⟩ := h.rereads loc
  refine ⟨us, halike, fun full => parse_eq_ok_iff.2 ⟨rfl, .path (derives_written (hread full) hne) ?_⟩⟩
  obtain ⟨c, rest, htext, hc⟩ := h.head_isLetter full hne
  simp [htext, (plain_of_isLetter hc).2.1]

theorem Alike.written_eq (full : Bool) (h : Alike ss us) : written full ss = written full us :=
  written_congr full h.map_shown

/-- What is read from a text tells the path that it was written from. -/
theorem alike_of_written_eq {full : Bool} (hs : Wellnamed ss) (hu : Wellnamed us) (hsne : ss ≠ [])
    (hune : us ≠ []) (h : written full ss = written full us) : Alike ss us := by
  obtain ⟨vs, hsv, hs⟩ := hs.parse {} hsne
  obtain ⟨ws, huw, hu⟩ := hu.parse {} hune
  have hread := hs full
  rw [h, hu full] at hread
  cases hread
  exact hsv.trans huw.symm

/-- Both texts of a path are read as the same location, written alike, with constant indices where
it has them and under the same root. Two paths have one key exactly if they have the same names and
indices, a missing index being zero. -/
theorem written_reread {p : Path} (hne : p.steps ≠ []) (hp : Wellnamed p.steps) (loc : Location) :
    (∀ text, text = p.render ∨ text = p.key → ∃ q, parse loc text = .ok q ∧ p.same q = true ∧
      q.render = p.render ∧ q.key = p.key ∧ q.isStatic = p.isStatic ∧
      q.isCorrelation = p.isCorrelation ∧ Alike p.steps q.steps) ∧
      ∀ q : Path, q.steps ≠ [] → Wellnamed q.steps → (p.key = q.key ↔ Alike p.steps q.steps) := by
  constructor
  · obtain ⟨us, halike, hparse⟩ := hp.parse loc hne
    have hrender : Path.render ⟨loc, us⟩ = p.render := by
      rw [render_eq, render_eq, halike.written_eq]
    have hkey : Path.key ⟨loc, us⟩ = p.key := by
      rw [key_eq, key_eq, halike.written_eq]
    have hsame : p.same ⟨loc, us⟩ = true := by rw [same, hkey, beq_self_eq_true]
    have hroot : Path.isCorrelation ⟨loc, us⟩ = p.isCorrelation := by
      rw [isCorrelation_eq, isCorrelation_eq, halike.map_shown]
    rintro text (rfl | rfl)
    · exact ⟨_, render_eq p ▸ hparse false, hsame, hrender, hkey, halike.isStatic.symm, hroot, halike⟩
    · exact ⟨_, hparse true, hsame, hrender, hkey, halike.isStatic.symm, hroot, halike⟩
  · intro q hqne hq
    exact ⟨alike_of_written_eq hp hq hne hqne, fun h => h.written_eq true⟩

/-- The path `_a[-9223372036854775808].b[i.j]`, where `i.j` has this index. -/
def deepCell (index : Option Expr) : Path :=
  ⟨⟨"t.ol", 3⟩, [⟨"_a", some (.constant {} (.int (-9223372036854775808)))⟩,
    ⟨"b", some (.var {} ⟨{}, [⟨"i", none⟩, ⟨"j", index⟩]⟩)⟩]⟩

theorem deepCell_wellnamed {index : Option Expr} (h : IsZero index) :
    Wellnamed (deepCell index).steps := by
  have hnames : ∀ n ∈ ["_a", "b", "i", "j"], IsIdentifier n.toList := by decide +kernel
  have hj : Wellnamed [⟨"j", index⟩] := by
    obtain rfl | ⟨l, rfl⟩ := h
    · exact .bare (hnames _ (by simp)) .nil
    · exact .constant (hnames _ (by simp)) (by decide) .nil
  exact .constant (hnames _ (by simp)) (by decide)
    (.path (hnames _ (by simp)) (List.cons_ne_nil _ _) (.bare (hnames _ (by simp)) hj) .nil)

/-- The least index there is, and a zero that is written inside another index. -/
theorem written_reread_deepCell :
    Wellnamed (deepCell (some (.constant {} (.int 0)))).steps ∧ Wellnamed (deepCell none).steps ∧
      (∃ q, parse {} "_a[-9223372036854775808].b[i.j]" = .ok q ∧
      (deepCell (some (.constant {} (.int 0)))).same q = true) ∧
      (deepCell (some (.constant {} (.int 0)))).key = (deepCell none).key := by
  have hzero : IsZero (some (.constant {} (.int 0))) := .inr ⟨_, rfl⟩
  have hp := deepCell_wellnamed hzero
  have hq := deepCell_wellnamed (.inl rfl)
  obtain ⟨hread, hkey⟩ := written_reread (List.cons_ne_nil _ _) hp {}
  refine ⟨hp, hq, ?_, (hkey _ (List.cons_ne_nil _ _) hq).2 ?_⟩
  · obtain ⟨q, hq, hsame, -⟩ := hread _ (.inl rfl)
    have htext : (deepCell (some (.constant {} (.int 0)))).render =
        "_a[-9223372036854775808].b[i.j]" := by decide +kernel
    exact ⟨q, htext ▸ hq, hsame⟩
  · exact .constant (.path (.zero (.inl rfl) (.inl rfl) (.zero hzero (.inl rfl) .nil)) .nil)

end Sessions.Path
