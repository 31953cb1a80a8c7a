import Mathlib.Data.List.Induction
import Mathlib.Data.List.TakeWhile
import Mathlib.Data.Nat.Digits.Defs
import Sessions.Proofs.Document.Reading

/-!
# Sessions.Proofs.Program.PathGrammar

The grammar of paths:

* path: `S ('.' S)*`, not all of it white space,
* step `S`: `N`, or `N '[' ']'`, or `N '[' path ']'`,
* name `N`: at least one character, and none of `.`, `[` and `]`.

`Derivable` is this grammar, and `Derives` adds the steps that a derivation stands for. The reader
divides a text at the dots outside brackets first, and then cuts each segment at its first opening
bracket and at its end. Such a segment returns to depth zero at its end and meets no dot there
before (`Solid`), and so does every step of the grammar, so the two cuts find the parts of a
derivation and nothing else.
-/

namespace Sessions.Path

/-! ## The grammar -/

def IsName (cs : List Char) : Prop :=
  cs ≠ [] ∧ ∀ c ∈ cs, c ≠ '.' ∧ c ≠ '[' ∧ c ≠ ']'

/-- The number that decimal digits write, the last one counting once. -/
def decimal (ds : List Char) : Nat :=
  Nat.ofDigits 10 (ds.reverse.map fun d => d.toNat - '0'.toNat)

/-- An optional sign and decimal digits. -/
inductive Signed : List Char → Int → Prop
  | unsigned {ds} (h : ds ≠ []) (hds : ∀ d ∈ ds, d.isDigit = true) : Signed ds (decimal ds)
  | plus {ds} (h : ds ≠ []) (hds : ∀ d ∈ ds, d.isDigit = true) : Signed ('+' :: ds) (decimal ds)
  | minus {ds} (h : ds ≠ []) (hds : ∀ d ∈ ds, d.isDigit = true) :
      Signed ('-' :: ds) (-(decimal ds : Int))

/-- A numeral for an integer of 64 bits. -/
def Numeral (cs : List Char) (n : Int) : Prop :=
  Signed cs n ∧ -2 ^ 63 ≤ n ∧ n < 2 ^ 63

/-- The index that a bracket with the text of a path holds: none for zero, an integer for another
numeral, and otherwise what is stored at the path. -/
inductive Indexes (loc : Location) (text : List Char) (steps : List Step) : Option Expr → Prop
  | zero (h : Numeral text 0) : Indexes loc text steps none
  | constant {n} (h : Numeral text n) (hn : n ≠ 0) :
      Indexes loc text steps (some (.constant loc (.int n)))
  | path (h : ∀ n, ¬ Numeral text n) : Indexes loc text steps (some (.var loc ⟨loc, steps⟩))

/-- The parts of the grammar. -/
inductive Part where
  | path
  | steps
  | step

/-- The text is derived from this part of the grammar. -/
inductive Derivable : Part → List Char → Prop
  | name {n} (hn : IsName n) : Derivable .step n
  | bare {n} (hn : IsName n) : Derivable .step (n ++ ['[', ']'])
  | indexed {n t} (hn : IsName n) (h : Derivable .path t) :
      Derivable .step (n ++ '[' :: (t ++ [']']))
  | last {t} (h : Derivable .step t) : Derivable .steps t
  | dot {t u} (h : Derivable .step t) (hrest : Derivable .steps u) :
      Derivable .steps (t ++ '.' :: u)
  | path {t} (h : Derivable .steps t) (hblank : t.all Text.isBlank = false) : Derivable .path t

/-- The text is derived from this part of the grammar, and the derivation has these steps. -/
inductive Derives (loc : Location) : Part → List Char → List Step → Prop
  | name {n} (hn : IsName n) : Derives loc .step n [⟨String.ofList n, none⟩]
  | bare {n} (hn : IsName n) : Derives loc .step (n ++ ['[', ']']) [⟨String.ofList n, none⟩]
  | indexed {n t ss i} (hn : IsName n) (h : Derives loc .path t ss) (hi : Indexes loc t ss i) :
      Derives loc .step (n ++ '[' :: (t ++ [']'])) [⟨String.ofList n, i⟩]
  | last {t ss} (h : Derives loc .step t ss) : Derives loc .steps t ss
  | dot {t u ss us} (h : Derives loc .step t ss) (hrest : Derives loc .steps u us) :
      Derives loc .steps (t ++ '.' :: u) (ss ++ us)
  | path {t ss} (h : Derives loc .steps t ss) (hblank : t.all Text.isBlank = false) :
      Derives loc .path t ss

variable {loc : Location} {part : Part} {t u seg name inside : List Char} {ss : List Step}
  {s : Step} {d : Nat}

theorem Derives.of_path (h : Derives loc .path t ss) :
    Derives loc .steps t ss ∧ t.all Text.isBlank = false := by
  cases h with
  | path h hblank => exact ⟨h, hblank⟩

theorem Derives.single (h : Derives loc .step t ss) : ∃ s, ss = [s] := by
  cases h <;> exact ⟨_, rfl⟩

theorem Indexes.exists (loc : Location) (t : List Char) (ss : List Step) :
    ∃ i, Indexes loc t ss i := by
  by_cases h : ∃ n, Numeral t n
  · obtain ⟨n, hn⟩ := h
    by_cases hzero : n = 0
    · exact ⟨_, .zero (hzero ▸ hn)⟩
    · exact ⟨_, .constant hn hzero⟩
  · exact ⟨_, .path (not_exists.1 h)⟩

theorem derivable_iff (loc : Location) : Derivable part t ↔ ∃ ss, Derives loc part t ss := by
  constructor
  · intro h
    induction h with
    | name hn => exact ⟨_, .name hn⟩
    | bare hn => exact ⟨_, .bare hn⟩
    | @indexed _ t hn _ ih =>
      obtain ⟨ss, hss⟩ := ih
      obtain ⟨i, hi⟩ := Indexes.exists loc t ss
      exact ⟨_, .indexed hn hss hi⟩
    | last _ ih => exact ih.imp fun _ => .last
    | dot _ _ ih ihrest =>
      obtain ⟨ss, hss⟩ := ih
      obtain ⟨us, hus⟩ := ihrest
      exact ⟨_, .dot hss hus⟩
    | path _ hblank ih => exact ih.imp fun _ hss => .path hss hblank
  · rintro ⟨ss, h⟩
    induction h with
    | name hn => exact .name hn
    | bare hn => exact .bare hn
    | indexed hn _ _ ih => exact .indexed hn ih
    | last _ ih => exact .last ih
    | dot _ _ ih ihrest => exact .dot ih ihrest
    | path _ hblank ih => exact .path ih hblank

/-! ## Integers -/

theorem decimal_concat (ds : List Char) (c : Char) :
    decimal (ds ++ [c]) = 10 * decimal ds + (c.toNat - '0'.toNat) := by
  simp only [decimal, List.reverse_append, List.reverse_singleton, List.singleton_append,
    List.map_cons, Nat.ofDigits_cons]
  omega

theorem foldl_eq_decimal (ds : List Char) :
    ds.foldl (fun n d => 10 * n + (d.toNat - '0'.toNat)) 0 = decimal ds := by
  induction ds using List.reverseRecOn with
  | nil => rfl
  | append_singleton ds c ih => rw [List.foldl_append, ih, decimal_concat]; rfl

theorem natural?_eq_some_iff {ds : List Char} {n : Nat} :
    natural? ds = some n ↔ (ds ≠ [] ∧ ∀ d ∈ ds, d.isDigit = true) ∧ decimal ds = n := by
  rw [natural?, foldl_eq_decimal, Option.ite_none_right_eq_some, Bool.and_eq_true,
    List.all_eq_true, Bool.not_eq_true', ← Bool.not_eq_true, List.isEmpty_iff, Option.some.injEq]

theorem lift_natural?_eq_some_iff {ds : List Char} {m : Int} :
    (do let n ← natural? ds; pure (n : Int)) = some m ↔
      (ds ≠ [] ∧ ∀ d ∈ ds, d.isDigit = true) ∧ m = decimal ds := by
  constructor
  · intro h
    obtain ⟨n, hn, hm⟩ := Option.bind_eq_some_iff.1 h
    obtain ⟨hds, rfl⟩ := natural?_eq_some_iff.1 hn
    exact ⟨hds, (Option.some.inj hm).symm⟩
  · rintro ⟨hds, rfl⟩
    exact Option.bind_eq_some_iff.2 ⟨_, natural?_eq_some_iff.2 ⟨hds, rfl⟩, rfl⟩

theorem integer?_eq_some_iff {cs : List Char} {n : Int} : integer? cs = some n ↔ Numeral cs n := by
  unfold integer?
  rw [Option.filter_eq_some_iff, Bool.and_eq_true, decide_eq_true_eq, decide_eq_true_eq]
  refine and_congr_left fun _ => ?_
  constructor
  · intro h
    split at h <;> obtain ⟨m, hm, rfl⟩ := Option.map_eq_some_iff.1 h <;>
      obtain ⟨⟨hne, hds⟩, rfl⟩ := lift_natural?_eq_some_iff.1 hm
    · exact .minus hne hds
    · exact .plus hne hds
    · exact .unsigned hne hds
  · intro h
    cases h with
    | minus hne hds =>
      exact Option.map_eq_some_iff.2 ⟨_, lift_natural?_eq_some_iff.2 ⟨⟨hne, hds⟩, rfl⟩, rfl⟩
    | plus hne hds =>
      exact Option.map_eq_some_iff.2 ⟨_, lift_natural?_eq_some_iff.2 ⟨⟨hne, hds⟩, rfl⟩, rfl⟩
    | unsigned hne hds =>
      split
      · exact absurd (hds '-' List.mem_cons_self) (by decide)
      · exact absurd (hds '+' List.mem_cons_self) (by decide)
      · exact Option.map_eq_some_iff.2 ⟨_, lift_natural?_eq_some_iff.2 ⟨⟨hne, hds⟩, rfl⟩, rfl⟩

theorem integer?_eq_none_iff {cs : List Char} :
    integer? cs = none ↔ ∀ n, ¬ Numeral cs n := by
  rw [Option.eq_none_iff_forall_ne_some]
  exact forall_congr' fun n => not_congr integer?_eq_some_iff

theorem Numeral.unique {cs : List Char} {m n : Int} (h : Numeral cs m) (h' : Numeral cs n) :
    m = n := by
  rw [← integer?_eq_some_iff] at h h'
  exact Option.some.inj (h.symm.trans h')

/-- Digits and signs may stand in a name, and they are not blank. -/
theorem plain_of_isDigit {c : Char} (h : c.isDigit = true) :
    (c ≠ '.' ∧ c ≠ '[' ∧ c ≠ ']') ∧ Text.isBlank c = false := by
  refine ⟨⟨?_, ?_, ?_⟩, ?_⟩
  · rintro rfl; exact absurd h (by decide)
  · rintro rfl; exact absurd h (by decide)
  · rintro rfl; exact absurd h (by decide)
  · simp only [Char.isDigit, Bool.and_eq_true, decide_eq_true_eq, ge_iff_le,
      UInt32.le_iff_toNat_le] at h
    change 48 ≤ c.toNat ∧ c.toNat ≤ 57 at h
    simp only [Text.isBlank, Bool.or_eq_false_iff, Bool.and_eq_false_iff, decide_eq_false_iff_not,
      beq_eq_false_iff_ne]
    omega

theorem Signed.plain {cs : List Char} {n : Int} (h : Signed cs n) :
    IsName cs ∧ cs.all Text.isBlank = false := by
  have hdigits : ∀ ds : List Char, ds ≠ [] → (∀ d ∈ ds, d.isDigit = true) →
      IsName ds ∧ ds.all Text.isBlank = false := by
    intro ds hne hds
    obtain ⟨c, rest, rfl⟩ := List.exists_cons_of_ne_nil hne
    refine ⟨⟨hne, fun c hc => (plain_of_isDigit (hds c hc)).1⟩, ?_⟩
    simp [(plain_of_isDigit (hds c List.mem_cons_self)).2]
  have hsign : ∀ ds : List Char, ∀ c : Char, (c ≠ '.' ∧ c ≠ '[' ∧ c ≠ ']') → Text.isBlank c = false →
      IsName ds → IsName (c :: ds) ∧ (c :: ds).all Text.isBlank = false := by
    intro ds c hc hb hds
    refine ⟨⟨List.cons_ne_nil _ _, List.forall_mem_cons.2 ⟨hc, hds.2⟩⟩, by simp [hb]⟩
  cases h with
  | unsigned hne hds => exact hdigits _ hne hds
  | plus hne hds => exact hsign _ _ (by decide) (by decide) (hdigits _ hne hds).1
  | minus hne hds => exact hsign _ _ (by decide) (by decide) (hdigits _ hne hds).1

/-! ## Segments -/

/-- From depth `d` the brackets of the text close in the end and never too early, and no dot stands
outside of them. -/
def Solid : (d : Nat) → List Char → Prop
  | 0, [] => True
  | _ + 1, [] => False
  | d, '[' :: rest => Solid (d + 1) rest
  | 0, ']' :: _ => False
  | d + 1, ']' :: rest => Solid d rest
  | 0, '.' :: _ => False
  | d, _ :: rest => Solid d rest

/-- From depth `d` the text is divided into segments by the dots outside brackets. -/
inductive Splits : (d : Nat) → List Char → List (List Char) → Prop
  | last {d : Nat} {seg : List Char} (h : Solid d seg) : Splits d seg [seg]
  | dot {d : Nat} {seg rest : List Char} {parts} (h : Solid d seg) (hrest : Splits 0 rest parts) :
      Splits d (seg ++ '.' :: rest) (seg :: parts)

theorem Splits.cons {d' : Nat} {c : Char} {parts : List (List Char)}
    (hc : ∀ u, Solid d' u → Solid d (c :: u)) (h : Splits d' t (seg :: parts)) :
    Splits d (c :: t) ((c :: seg) :: parts) := by
  cases h with
  | last h => exact .last (hc _ h)
  | dot h hrest => exact .dot (hc _ h) hrest

theorem splits_of_segments {step : List Char} {parts : List (List Char)}
    (h : segments d step t = .ok parts) :
    ∃ seg more, Splits d t (seg :: more) ∧ parts = (step.reverse ++ seg) :: more := by
  fun_induction segments d step t generalizing parts with
  | case1 step =>
    cases h
    exact ⟨[], [], .last trivial, by simp⟩
  | case2 => cases h
  | case3 d step rest ih =>
    obtain ⟨seg, more, hs, rfl⟩ := ih h
    exact ⟨_, more, hs.cons fun u hu => by simpa [Solid] using hu, by simp⟩
  | case4 => cases h
  | case5 d step rest ih =>
    obtain ⟨seg, more, hs, rfl⟩ := ih h
    exact ⟨_, more, hs.cons fun u hu => by simpa [Solid] using hu, by simp⟩
  | case6 step rest ih =>
    obtain ⟨tail, htail, h⟩ := bind_eq_ok_iff.1 h
    obtain ⟨seg, more, hs, rfl⟩ := ih htail
    cases h
    have hempty : Solid 0 [] := trivial
    exact ⟨[], seg :: more, .dot hempty hs, by simp⟩
  | case7 d step c rest h₁ h₂ h₃ h₄ ih =>
    obtain ⟨seg, more, hs, rfl⟩ := ih h
    exact ⟨_, more, hs.cons fun u hu => by rwa [Solid] <;> assumption, by simp⟩

theorem segments_of_solid (h : Solid d t) (step : List Char) :
    segments d step t = .ok [step.reverse ++ t] ∧
      ∀ rest tail, segments 0 [] rest = .ok tail →
        segments d step (t ++ '.' :: rest) = .ok ((step.reverse ++ t) :: tail) := by
  fun_induction Solid d t generalizing step with
  | case1 =>
    refine ⟨by simp [segments], fun rest tail hrest => ?_⟩
    rw [List.nil_append, segments, hrest, List.append_nil]
    rfl
  | case2 => exact h.elim
  | case3 d rest ih =>
    simpa [segments] using ih h ('[' :: step)
  | case4 => exact h.elim
  | case5 d rest ih =>
    simpa [segments] using ih h (']' :: step)
  | case6 => exact h.elim
  | case7 d c rest h₁ h₂ h₃ h₄ ih =>
    have hpass : ∀ u, segments d step (c :: u) = segments d (c :: step) u := by
      intro u
      rw [segments] <;> assumption
    simpa [hpass] using ih h (c :: step)

theorem segments_eq_ok_iff {parts : List (List Char)} :
    segments 0 [] t = .ok parts ↔ Splits 0 t parts := by
  constructor
  · intro h
    obtain ⟨seg, more, hs, rfl⟩ := splits_of_segments h
    exact hs
  · intro h
    generalize hd : 0 = d at h
    induction h with
    | last h => subst hd; exact (segments_of_solid h []).1
    | dot h _ ih => subst hd; exact (segments_of_solid h []).2 _ _ (ih rfl)

/-! ## Derived texts are solid -/

theorem IsName.solid (hn : IsName name) (h : Solid d u) : Solid d (name ++ u) := by
  obtain ⟨-, hplain⟩ := hn
  induction name with
  | nil => exact h
  | cons c name ih =>
    obtain ⟨hc, hname⟩ := List.forall_mem_cons.1 hplain
    rw [List.cons_append, Solid]
    · exact ih hname
    · exact hc.2.1
    · exact fun _ => hc.2.2
    · exact fun _ _ => hc.2.2
    · exact fun _ => hc.1

theorem Derives.solid_append (h : Derives loc part t ss) (hu : Solid (d + 1) u) :
    Solid (d + 1) (t ++ u) := by
  induction h generalizing d u with
  | name hn => exact hn.solid hu
  | bare hn =>
    rw [List.append_assoc]
    exact hn.solid hu
  | indexed hn _ _ ih =>
    rw [List.append_assoc, List.cons_append, List.append_assoc]
    exact hn.solid (ih (d := d + 1) hu)
  | last _ ih => exact ih hu
  | dot _ _ ih ihrest =>
    rw [List.append_assoc]
    exact ih (ihrest hu)
  | path _ _ ih => exact ih hu

theorem Derives.solid (h : Derives loc .step t ss) : Solid 0 t := by
  cases h with
  | name hn =>
    have h := hn.solid (d := 0) (u := []) trivial
    rwa [List.append_nil] at h
  | bare hn => exact hn.solid trivial
  | indexed hn h _ => exact hn.solid (h.solid_append (d := 0) trivial)

theorem derives_steps_iff :
    Derives loc .steps t ss ↔
      ∃ parts, Splits 0 t parts ∧ List.Forall₂ (fun seg s => Derives loc .step seg [s]) parts ss := by
  constructor
  · intro h
    generalize hpart : Part.steps = part at h
    induction h with
    | name | bare | indexed | path => cases hpart
    | last h =>
      obtain ⟨s, rfl⟩ := h.single
      exact ⟨_, .last h.solid, .cons h .nil⟩
    | dot h _ _ ih =>
      obtain ⟨s, rfl⟩ := h.single
      obtain ⟨parts, hparts, hss⟩ := ih hpart
      exact ⟨_, .dot h.solid hparts, .cons h hss⟩
  · rintro ⟨parts, hparts, hss⟩
    generalize hd : 0 = d at hparts
    induction hparts generalizing ss with
    | last =>
      obtain ⟨s, _, h, hnil, rfl⟩ := List.forall₂_cons_left_iff.1 hss
      cases hnil
      exact .last h
    | dot _ _ ih =>
      obtain ⟨s, _, h, hrest, rfl⟩ := List.forall₂_cons_left_iff.1 hss
      exact .dot h (ih hrest rfl)

/-! ## The steps that are read -/

/-- The name ends where the first bracket opens, and the index where the segment ends. -/
theorem splitIndex_eq_ok_iff :
    splitIndex seg = .ok (name, inside) ↔
      '[' ∉ name ∧ (seg = name ∧ inside = [] ∨ seg = name ++ '[' :: (inside ++ [']'])) := by
  have hne : ∀ cs : List Char, '[' ∉ cs ↔ ∀ c ∈ cs, decide (c ≠ '[') = true := by
    intro cs
    simp only [decide_eq_true_eq]
    exact ⟨fun h c hc hopen => h (hopen ▸ hc), fun h hopen => h _ hopen rfl⟩
  constructor
  · intro h
    unfold splitIndex at h
    split at h
    · next hdrop =>
      cases h
      exact ⟨(hne _).2 (List.dropWhile_eq_nil_iff.1 hdrop), .inl ⟨rfl, rfl⟩⟩
    · next c rest hdrop =>
      split_ifs at h with hlast
      cases h
      refine ⟨(hne _).2 fun c hc => List.mem_takeWhile_imp (p := (· ≠ '[')) hc, .inr ?_⟩
      have hc : c = '[' := by
        have hhead := List.head?_dropWhile_not (· ≠ '[') seg
        rw [hdrop] at hhead
        simpa using hhead
      have hcut := List.takeWhile_append_dropWhile (p := (· ≠ '[')) (l := seg)
      rw [hdrop, hc] at hcut
      rw [← hcut, List.getLast?_append_cons] at hlast
      have hrest : rest.getLast? = some ']' := by
        cases rest with
        | nil => exact absurd (Option.some.inj hlast) (by decide)
        | cons => rwa [List.getLast?_cons_cons] at hlast
      rw [List.dropLast_append_getLast? _ hrest, hcut]
  · rintro ⟨hopen, ⟨rfl, rfl⟩ | rfl⟩
    · have hdrop := List.dropWhile_eq_nil_iff.2 ((hne _).1 hopen)
      rw [splitIndex, hdrop]
    · have hlast : (name ++ '[' :: (inside ++ [']'])).getLast? = some ']' := by
        rw [← List.cons_append, ← List.append_assoc, List.getLast?_concat]
      rw [splitIndex, List.dropWhile_append_of_pos ((hne _).1 hopen),
        List.takeWhile_append_of_pos ((hne _).1 hopen), hlast]
      simp

theorem IsName.of_solid (hne : name ≠ []) (hopen : '[' ∉ name) (h : Solid 0 (name ++ u)) :
    IsName name := by
  refine ⟨hne, ?_⟩
  clear hne
  induction name with
  | nil => simp
  | cons c name ih =>
    obtain ⟨hc, hname⟩ := not_or.1 (List.mem_cons.not.1 hopen)
    have hplain : c ≠ '.' ∧ c ≠ '[' ∧ c ≠ ']' := by
      refine ⟨?_, Ne.symm hc, ?_⟩ <;> rintro rfl <;> exact h
    refine List.forall_mem_cons.2 ⟨hplain, ih hname ?_⟩
    rw [List.cons_append, Solid] at h
    · exact h
    · exact hplain.2.1
    · exact fun _ => hplain.2.2
    · exact fun _ _ => hplain.2.2
    · exact fun _ => hplain.1

/-- The reader accepts the paths of the grammar among the texts below this length. -/
def Reads (inner : List Char → Except Error Path) (loc : Location) (bound : Nat) : Prop :=
  ∀ t : List Char, t.length < bound → ∀ p, inner t = .ok p ↔ p.loc = loc ∧ Derives loc .path t p.steps

variable {inner : List Char → Except Error Path} {bound : Nat}

theorem not_derives_nil : ¬ Derives loc .path [] ss :=
  fun h => absurd h.of_path.2 (by decide)

theorem index_eq_ok_iff (hinner : Reads inner loc bound) (ht : t.length < bound) {i : Option Expr} :
    index inner loc t = .ok i ↔
      t = [] ∧ i = none ∨ ∃ ss, Derives loc .path t ss ∧ Indexes loc t ss i := by
  unfold index
  split_ifs with hempty
  · obtain rfl := List.isEmpty_iff.1 hempty
    simp [not_derives_nil, eq_comm]
  · have hne : t ≠ [] := fun h => hempty (List.isEmpty_iff.2 h)
    simp only [hne, false_and, false_or]
    split
    · next n hn =>
      have hnumeral := integer?_eq_some_iff.1 hn
      obtain ⟨hname, hblank⟩ := hnumeral.1.plain
      constructor
      · intro h
        cases h
        refine ⟨_, .path (.last (.name hname)) hblank, ?_⟩
        split_ifs with hzero
        · exact .zero (hzero ▸ hnumeral)
        · exact .constant hnumeral hzero
      · rintro ⟨ss, -, hi⟩
        cases hi with
        | zero h => rw [if_pos (hnumeral.unique h)]
        | constant h hzero =>
          obtain rfl := hnumeral.unique h
          rw [if_neg hzero]
        | path h => exact absurd hnumeral (h n)
    · next hn =>
      have hnumeral := integer?_eq_none_iff.1 hn
      constructor
      · intro h
        split at h
        · next p hp =>
          cases h
          obtain ⟨hloc, hsteps⟩ := (hinner t ht p).1 hp
          obtain ⟨_, ss⟩ := p
          cases hloc
          exact ⟨ss, hsteps, .path hnumeral⟩
        · cases h
      · rintro ⟨ss, hss, hi⟩
        cases hi with
        | zero h => exact absurd h (hnumeral _)
        | constant h => exact absurd h (hnumeral _)
        | path => rw [(hinner t ht ⟨loc, ss⟩).2 ⟨rfl, hss⟩]

theorem step_eq_ok_iff_exists :
    step inner loc seg = .ok s ↔
      ∃ name inside i, splitIndex seg = .ok (name, inside) ∧ name ≠ [] ∧
        index inner loc inside = .ok i ∧ s = ⟨String.ofList name, i⟩ := by
  unfold step
  rw [bind_eq_ok_iff, Prod.exists]
  refine exists_congr fun name => exists_congr fun inside => ?_
  by_cases hempty : name = []
  · simp [hempty]
  · have hne : name.isEmpty = false := by simpa using hempty
    simp only [hne, Bool.false_eq_true, if_false, bind_eq_ok_iff]
    constructor
    · rintro ⟨hsplit, i, hi, h⟩
      cases h
      exact ⟨i, hsplit, hempty, hi, rfl⟩
    · rintro ⟨i, hsplit, -, hi, rfl⟩
      exact ⟨hsplit, i, hi, rfl⟩

theorem step_eq_ok_iff (hinner : Reads inner loc bound) (hseg : Solid 0 seg)
    (hlength : seg.length ≤ bound) :
    step inner loc seg = .ok s ↔ Derives loc .step seg [s] := by
  have hindex : ∀ n t : List Char, seg = n ++ '[' :: (t ++ [']']) → ∀ i,
      index inner loc t = .ok i ↔
        t = [] ∧ i = none ∨ ∃ ss, Derives loc .path t ss ∧ Indexes loc t ss i := by
    rintro n t rfl i
    refine index_eq_ok_iff hinner ?_
    simp only [List.length_append, List.length_cons, List.length_nil] at hlength
    omega
  rw [step_eq_ok_iff_exists]
  constructor
  · rintro ⟨name, inside, i, hsplit, hne, hi, rfl⟩
    obtain ⟨hopen, ⟨rfl, rfl⟩ | hsegment⟩ := splitIndex_eq_ok_iff.1 hsplit
    · cases hi
      exact .name (.of_solid (u := []) hne hopen (by rwa [List.append_nil]))
    · have hname : IsName name := .of_solid hne hopen (hsegment ▸ hseg)
      obtain ⟨rfl, rfl⟩ | ⟨ss, hss, hi⟩ := (hindex _ _ hsegment i).1 hi
      · rw [hsegment]
        exact .bare hname
      · rw [hsegment]
        exact .indexed hname hss hi
  · intro h
    have hsplit : ∀ n t : List Char, IsName n →
        seg = n ∧ t = [] ∨ seg = n ++ '[' :: (t ++ [']']) → splitIndex seg = .ok (n, t) :=
      fun n t hn hsegment => splitIndex_eq_ok_iff.2 ⟨fun h => (hn.2 _ h).2.1 rfl, hsegment⟩
    generalize hss : [s] = ss at h
    cases h with
    | name hn =>
      cases hss
      exact ⟨_, [], none, hsplit _ _ hn (.inl ⟨rfl, rfl⟩), hn.1, rfl, rfl⟩
    | bare hn =>
      cases hss
      exact ⟨_, [], none, hsplit _ _ hn (.inr rfl), hn.1, rfl, rfl⟩
    | indexed hn h hi =>
      cases hss
      exact ⟨_, _, _, hsplit _ _ hn (.inr rfl), hn.1, (hindex _ _ rfl _).2 (.inr ⟨_, h, hi⟩), rfl⟩

theorem Splits.of_mem {parts : List (List Char)} (h : Splits 0 t parts) :
    ∀ seg ∈ parts, Solid 0 seg ∧ seg.length ≤ t.length := by
  generalize hd : 0 = d at h
  induction h with
  | last h =>
    subst hd
    simp [h]
  | @dot _ seg rest _ h _ ih =>
    subst hd
    refine List.forall_mem_cons.2 ⟨⟨h, by simp⟩, fun u hu => ?_⟩
    obtain ⟨hsolid, hlength⟩ := ih rfl u hu
    refine ⟨hsolid, ?_⟩
    simp only [List.length_append, List.length_cons]
    omega

theorem parseSteps_eq_ok_iff (hinner : Reads inner loc bound) (ht : t.length ≤ bound) :
    parseSteps inner loc t = .ok ss ↔ Derives loc .steps t ss := by
  simp only [parseSteps, bind_eq_ok_iff, mapM_eq_ok_iff, segments_eq_ok_iff, derives_steps_iff]
  refine exists_congr fun parts => and_congr_right fun hparts => ?_
  have hmem := hparts.of_mem
  have hstep : ∀ seg s, (Solid 0 seg ∧ seg.length ≤ t.length) ∧ step inner loc seg = .ok s ↔
      (Solid 0 seg ∧ seg.length ≤ t.length) ∧ Derives loc .step seg [s] := fun seg s =>
    and_congr_right fun h => step_eq_ok_iff hinner h.1 (h.2.trans ht)
  calc List.Forall₂ (fun seg s => step inner loc seg = .ok s) parts ss
      ↔ List.Forall₂ (fun seg s => (Solid 0 seg ∧ seg.length ≤ t.length) ∧
          step inner loc seg = .ok s) parts ss := by
        rw [List.forall₂_and_left, and_iff_right hmem]
    _ ↔ List.Forall₂ (fun seg s => Derives loc .step seg [s]) parts ss := by
        simp only [hstep]
        rw [List.forall₂_and_left, and_iff_right hmem]

theorem parseNested_reads (loc : Location) (depth : Nat) :
    Reads (parseNested depth loc) loc depth := by
  induction depth with
  | zero =>
    intro t ht
    cases ht
  | succ depth ih =>
    intro t ht p
    have hsteps : ∀ ss, parseSteps (parseNested depth loc) loc t = .ok ss ↔ Derives loc .steps t ss :=
      fun ss => parseSteps_eq_ok_iff ih (Nat.le_of_lt_succ ht)
    rw [parseNested]
    split_ifs with hblank
    · refine iff_of_false (by simp) ?_
      rintro ⟨-, h⟩
      rw [h.of_path.2] at hblank
      cases hblank
    · rw [Bool.not_eq_true] at hblank
      constructor
      · intro h
        split at h
        · next ss hss =>
          cases h
          exact ⟨rfl, .path ((hsteps ss).1 hss) hblank⟩
        · cases h
      · obtain ⟨_, ss⟩ := p
        rintro ⟨rfl, h⟩
        rw [(hsteps ss).2 h.of_path.1]

/-- A text is read as a path exactly when the grammar derives it, and the path has the steps of the
derivation. The other texts are blank or bad. -/
theorem parse_exactly_grammar (loc : Location) (text : String) :
    (Succeeds (parse loc text) ↔ Derivable .path text.toList) ∧
      (∀ p, parse loc text = .ok p ↔ p.loc = loc ∧ Derives loc .path text.toList p.steps) ∧
      (parse loc text = .error .empty ↔ text.toList.all Text.isBlank = true) ∧
      ((∃ r, parse loc text = .error (.bad text r)) ↔
        text.toList.all Text.isBlank = false ∧ ¬ Derivable .path text.toList) := by
  have hok : ∀ p, parse loc text = .ok p ↔ p.loc = loc ∧ Derives loc .path text.toList p.steps :=
    parseNested_reads loc (text.length + 1) text.toList (String.length_toList ▸ Nat.lt_succ_self _)
  have hsucceeds : Succeeds (parse loc text) ↔ Derivable .path text.toList := by
    rw [derivable_iff loc]
    constructor
    · rintro ⟨p, hp⟩
      exact ⟨_, ((hok p).1 hp).2⟩
    · rintro ⟨ss, hss⟩
      exact ⟨_, (hok ⟨loc, ss⟩).2 ⟨rfl, hss⟩⟩
  refine ⟨hsucceeds, hok, ?_⟩
  rw [← hsucceeds]
  unfold parse
  rw [parseNested]
  by_cases hblank : text.toList.all Text.isBlank = true
  · simp [hblank]
  · rw [if_neg hblank]
    cases parseSteps (parseNested text.length loc) loc text.toList with
    | ok steps => simp [hblank, Succeeds]
    | error r => simp [hblank, Succeeds]

end Sessions.Path
