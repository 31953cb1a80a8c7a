import Sessions.Proofs.Program.PathGrammar

/-!
# Sessions.Proofs.Program.PathKey

The text of a path can be cut back into its steps. Dots divide steps only outside brackets, and the
text of an index closes the brackets that it opens (`Balanced`), so whatever stands in an index is
never taken for a part of the path around it. Two paths have one key exactly if they have the same
names and the same index texts (`written_eq_iff`), and to compare keys is to compare step by step.
-/

namespace Sessions.Path

variable {loc : Location} {part : Part} {t u name : List Char} {parts : List (List Char)}
  {full : Bool} {ss us : List Step} {p q r : Path}

/-! ## Balanced texts -/

/-- Inside a bracket the text closes what it opens and nothing else. -/
def Balanced (t : List Char) : Prop :=
  ∀ d u, Solid (d + 1) u → Solid (d + 1) (t ++ u)

theorem balanced_nil : Balanced [] :=
  fun _ _ hu => hu

theorem Balanced.append (ht : Balanced t) (hu : Balanced u) : Balanced (t ++ u) := by
  intro d v hv
  rw [List.append_assoc]
  exact ht d _ (hu d v hv)

theorem Balanced.bracket (ht : Balanced t) : Balanced ('[' :: (t ++ [']'])) := by
  intro d u hu
  rw [List.cons_append, List.append_assoc]
  exact ht (d + 1) _ hu

theorem balanced_dot : Balanced ['.'] :=
  fun _ _ hu => hu

theorem IsName.balanced (hn : IsName name) : Balanced name :=
  fun _ _ hu => hn.solid hu

theorem balanced_intercalate (h : ∀ seg ∈ parts, Balanced seg) :
    Balanced (['.'].intercalate parts) := by
  induction parts with
  | nil => exact balanced_nil
  | cons seg rest ih =>
    obtain ⟨hseg, hrest⟩ := List.forall_mem_cons.1 h
    cases rest with
    | nil => rwa [List.intercalate_singleton]
    | cons =>
      rw [List.intercalate_cons_cons]
      exact (hseg.append balanced_dot).append (ih hrest)

theorem splits_intercalate (hne : parts ≠ []) (h : ∀ seg ∈ parts, Solid 0 seg) :
    Splits 0 (['.'].intercalate parts) parts := by
  induction parts with
  | nil => exact absurd rfl hne
  | cons seg rest ih =>
    obtain ⟨hseg, hrest⟩ := List.forall_mem_cons.1 h
    cases rest with
    | nil =>
      rw [List.intercalate_singleton]
      exact .last hseg
    | cons =>
      rw [List.intercalate_cons_cons, List.append_assoc]
      exact .dot hseg (ih (List.cons_ne_nil _ _) hrest)

/-! ## The text of an integer -/

theorem decimal_toDigits (n : Nat) : decimal (Nat.toDigits 10 n) = n := by
  rw [← foldl_eq_decimal]
  exact Nat.ofDigitChars_eq_foldl.symm.trans Nat.ofDigitChars_ten_toDigits

theorem signed_toString (n : Int) : Signed (toString n).toList n := by
  have hdigits : ∀ m : Nat, ∀ d ∈ Nat.toDigits 10 m, d.isDigit = true :=
    fun m d => Nat.isDigit_of_mem_toDigits (by decide) (by decide)
  cases n with
  | ofNat m =>
    have h := Signed.unsigned Nat.toDigits_ne_nil (hdigits m)
    rw [decimal_toDigits] at h
    rwa [Int.toString_eq_repr, Int.repr, Nat.toList_repr]
  | negSucc m =>
    have h := Signed.minus Nat.toDigits_ne_nil (hdigits m.succ)
    rw [decimal_toDigits] at h
    rwa [Int.toString_eq_repr, Int.repr, String.toList_append, Nat.toList_repr]

/-! ## Steps that can be told apart -/

/-- What a text shows of a step. -/
def shown (s : Step) : String × String :=
  (s.name, s.indexText)

/-- The text of steps, without the indices zero unless it is `full`. -/
def written (full : Bool) (ss : List Step) : String :=
  ".".intercalate (ss.map fun s => Step.write full s.name s.indexText)

theorem renderAll_eq (ss : List Step) :
    Step.renderAll ss = ss.map fun s => Step.write false s.name s.indexText := by
  induction ss with
  | nil => rw [Step.renderAll, List.map_nil]
  | cons s rest ih =>
    obtain ⟨n, _ | e⟩ := s <;> rw [Step.renderAll, List.map_cons, ih, Step.indexText]

theorem render_eq (p : Path) : p.render = written false p.steps := by
  obtain ⟨_, ss⟩ := p
  rw [Path.render, renderAll_eq, written]

theorem key_eq (p : Path) : p.key = written true p.steps :=
  rfl

/-- The name ends at the first bracket or dot, and the index at the bracket that closes. -/
structure Delimited (s : Step) : Prop where
  name : IsName s.name.toList
  index : Balanced s.indexText.toList

theorem toList_write (full : Bool) (name index : String) :
    (Step.write full name index).toList =
      if full || index ≠ "0" then name.toList ++ '[' :: (index.toList ++ [']'])
      else name.toList := by
  unfold Step.write
  split_ifs
  · simp
  · rfl

theorem Delimited.balanced {s : Step} (h : Delimited s) :
    Balanced (Step.write full s.name s.indexText).toList := by
  rw [toList_write]
  split_ifs
  · exact h.name.balanced.append h.index.bracket
  · exact h.name.balanced

theorem Delimited.solid {s : Step} (h : Delimited s) :
    Solid 0 (Step.write full s.name s.indexText).toList := by
  have hempty : Solid 0 [] := trivial
  rw [toList_write]
  split_ifs
  · exact h.name.solid (h.index 0 [']'] hempty)
  · simpa using h.name.solid hempty

theorem IsName.open_notMem (hn : IsName name) : '[' ∉ name :=
  fun h => (hn.2 _ h).2.1 rfl

theorem bracket_inj {n n' i i' : List Char} (hn : IsName n) (hn' : IsName n')
    (h : n ++ '[' :: (i ++ [']']) = n' ++ '[' :: (i' ++ [']'])) : n = n' ∧ i = i' := by
  have hsplit : splitIndex (n ++ '[' :: (i ++ [']'])) = .ok (n, i) :=
    splitIndex_eq_ok_iff.2 ⟨hn.open_notMem, .inr rfl⟩
  rw [h, splitIndex_eq_ok_iff.2 ⟨hn'.open_notMem, .inr rfl⟩] at hsplit
  cases hsplit
  exact ⟨rfl, rfl⟩

theorem Delimited.write_inj {s s' : Step} (h : Delimited s) (h' : Delimited s')
    (heq : Step.write full s.name s.indexText = Step.write full s'.name s'.indexText) :
    shown s = shown s' := by
  have hlist := congrArg String.toList heq
  rw [toList_write, toList_write] at hlist
  -- A bracket stands in the one text exactly if it stands in the other.
  split_ifs at hlist with hi hi' hi'
  · obtain ⟨hname, hindex⟩ := bracket_inj h.name h'.name hlist
    exact Prod.ext (String.toList_injective hname) (String.toList_injective hindex)
  · exact absurd (hlist ▸ List.mem_append_right _ List.mem_cons_self) h'.name.open_notMem
  · exact absurd (hlist ▸ List.mem_append_right _ List.mem_cons_self) h.name.open_notMem
  · simp only [Bool.or_eq_true, decide_eq_true_eq, not_or, not_not] at hi hi'
    exact Prod.ext (String.toList_injective hlist) (hi.2.trans hi'.2.symm)

/-- Steps whose text can be cut back into them. -/
def Legible (ss : List Step) : Prop :=
  ss ≠ [] ∧ ∀ s ∈ ss, Delimited s

theorem toList_written (full : Bool) (ss : List Step) :
    (written full ss).toList =
      ['.'].intercalate (ss.map fun s => (Step.write full s.name s.indexText).toList) := by
  rw [written, String.toList_intercalate, List.map_map]
  rfl

theorem balanced_written (h : ∀ s ∈ ss, Delimited s) : Balanced (written full ss).toList := by
  rw [toList_written]
  refine balanced_intercalate fun seg hseg => ?_
  obtain ⟨s, hs, rfl⟩ := List.mem_map.1 hseg
  exact (h s hs).balanced

theorem Legible.segments (full : Bool) (h : Legible ss) :
    segments 0 [] (written full ss).toList =
      .ok (ss.map fun s => (Step.write full s.name s.indexText).toList) := by
  rw [segments_eq_ok_iff, toList_written]
  refine splits_intercalate (fun hnil => h.1 (List.map_eq_nil_iff.1 hnil)) fun seg hseg => ?_
  obtain ⟨s, hs, rfl⟩ := List.mem_map.1 hseg
  exact (h.2 s hs).solid

theorem map_shown_of_map_write (hs : ∀ s ∈ ss, Delimited s) (hu : ∀ s ∈ us, Delimited s)
    (h : (ss.map fun s => (Step.write full s.name s.indexText).toList) =
      us.map fun s => (Step.write full s.name s.indexText).toList) :
    ss.map shown = us.map shown := by
  induction ss generalizing us with
  | nil =>
    rw [List.map_nil, eq_comm, List.map_eq_nil_iff] at h
    rw [h]
  | cons s ss ih =>
    cases us with
    | nil => cases h
    | cons u us =>
      obtain ⟨hhead, htail⟩ := List.cons_eq_cons.1 h
      obtain ⟨hs, hss⟩ := List.forall_mem_cons.1 hs
      obtain ⟨hu, hus⟩ := List.forall_mem_cons.1 hu
      rw [List.map_cons, List.map_cons, hs.write_inj hu (String.toList_injective hhead),
        ih hss hus htail]

theorem written_congr (full : Bool) (h : ss.map shown = us.map shown) :
    written full ss = written full us := by
  have hmap : ∀ ss : List Step, (ss.map fun s => Step.write full s.name s.indexText) =
      (ss.map shown).map fun x => Step.write full x.1 x.2 := fun ss => by rw [List.map_map]; rfl
  rw [written, written, hmap, hmap, h]

/-- Each of the two texts of a path tells what it shows of every step. -/
theorem written_eq_iff (full : Bool) (hs : Legible ss) (hu : Legible us) :
    written full ss = written full us ↔ ss.map shown = us.map shown := by
  refine ⟨fun h => ?_, written_congr full⟩
  have hsegments := hs.segments full
  rw [h, hu.segments full] at hsegments
  exact map_shown_of_map_write hs.2 hu.2 (Except.ok.inj hsegments).symm

/-! ## The paths that are read -/

theorem Derives.delimited (h : Derives loc part t ss) : ∀ s ∈ ss, Delimited s := by
  have hbare : ∀ {n : List Char}, IsName n → Delimited ⟨String.ofList n, none⟩ := fun hn =>
    ⟨by rwa [String.toList_ofList], IsName.balanced (by simp [Step.indexText, IsName])⟩
  induction h with
  | name hn | bare hn => exact List.forall_mem_singleton.2 (hbare hn)
  | @indexed n t ss i hn _ hi ih =>
    refine List.forall_mem_singleton.2 ?_
    cases hi with
    | zero => exact hbare hn
    | constant => exact ⟨by rwa [String.toList_ofList], (signed_toString _).plain.1.balanced⟩
    | path =>
      refine ⟨by rwa [String.toList_ofList], ?_⟩
      rw [Step.indexText, Expr.render, render_eq]
      exact balanced_written ih
  | last _ ih | path _ _ ih => exact ih
  | dot _ _ ih ihrest => exact List.forall_mem_append.2 ⟨ih, ihrest⟩

theorem Derives.ne_nil (h : Derives loc part t ss) : ss ≠ [] := by
  induction h with
  | name | bare | indexed => exact List.cons_ne_nil _ _
  | last _ ih | path _ _ ih => exact ih
  | dot _ _ ih => exact List.append_ne_nil_of_left_ne_nil ih _

theorem parse_eq_ok_iff {loc : Location} {text : String} {p : Path} :
    parse loc text = .ok p ↔ p.loc = loc ∧ Derives loc .path text.toList p.steps :=
  parseNested_reads loc (text.length + 1) text.toList
    (String.length_toList ▸ Nat.lt_succ_self _) p

theorem legible_of_parse {text : String} (h : parse loc text = .ok p) : Legible p.steps :=
  have hderives := (parse_eq_ok_iff.1 h).2
  ⟨hderives.ne_nil, hderives.delimited⟩

/-! ## Comparing paths -/

theorem same_iff (hp : Legible p.steps) (hq : Legible q.steps) :
    p.same q = true ↔ p.steps.map shown = q.steps.map shown := by
  rw [same, beq_iff_eq, key_eq, key_eq, written_eq_iff true hp hq]

theorem stepsStartWith_iff (ss us : List Step) :
    stepsStartWith ss us = true ↔ us.map shown <+: ss.map shown := by
  induction us generalizing ss with
  | nil => simp [stepsStartWith]
  | cons u us ih =>
    cases ss with
    | nil => simp [stepsStartWith]
    | cons s ss => simp [stepsStartWith, ih, shown, List.cons_prefix_cons, and_assoc]

/-- A path leads to another, or above it, exactly if what it shows comes first there. -/
theorem startsWith_iff (p q : Path) :
    p.startsWith q = true ↔ q.steps.map shown <+: p.steps.map shown :=
  stepsStartWith_iff p.steps q.steps

theorem isCorrelation_eq (p : Path) :
    p.isCorrelation = (p.steps.map shown).head?.any fun x => x.1 == correlationRoot := by
  obtain ⟨_, _ | ⟨s, ss⟩⟩ := p <;> rfl

theorem map_shown_underRoot (loc : Location) (p : Path) :
    (p.underRoot loc).steps.map shown = ("csets", "0") :: p.steps.map shown :=
  rfl

theorem isName_correlationRoot : IsName correlationRoot.toList := by
  simp [correlationRoot, IsName]

theorem legible_underRoot (loc : Location) (h : Legible p.steps) :
    Legible (p.underRoot loc).steps := by
  refine ⟨List.cons_ne_nil _ _, List.forall_mem_cons.2 ⟨⟨isName_correlationRoot, ?_⟩, h.2⟩⟩
  exact IsName.balanced (by simp [Step.indexText, IsName])

/-- The full text of a path starts with the name of its first step and a bracket. -/
theorem toList_key_cons (loc : Location) (s : Step) (rest : List Step) :
    ∃ tail, (⟨loc, s :: rest⟩ : Path).key.toList = s.name.toList ++ '[' :: tail := by
  rw [key_eq, toList_written, List.map_cons, toList_write, if_pos (Bool.true_or _)]
  cases rest with
  | nil =>
    rw [List.map_nil, List.intercalate_singleton]
    exact ⟨_, rfl⟩
  | cons =>
    rw [List.map_cons, List.intercalate_cons_cons, List.append_assoc, List.append_assoc]
    exact ⟨_, rfl⟩

/-- No correlation path, whatever its steps are named, has the key of an ordinary path that was
read. -/
theorem Legible.key_ne {p q : Path} (h : Legible p.steps) (hp : p.isCorrelation = false)
    (hq : q.isCorrelation = true) : p.key ≠ q.key := by
  intro hkey
  obtain ⟨l, _ | ⟨s, ss⟩⟩ := p
  · exact h.1 rfl
  obtain ⟨l', _ | ⟨u, us⟩⟩ := q
  · cases hq
  obtain ⟨t, ht⟩ := toList_key_cons l s ss
  obtain ⟨t', ht'⟩ := toList_key_cons l' u us
  have hu : u.name = correlationRoot := beq_iff_eq.1 hq
  rw [hkey, ht', hu] at ht
  -- Neither name has a bracket in it, so both end at the first one.
  have hplain : ∀ {cs : List Char}, IsName cs → ∀ c ∈ cs, decide (c ≠ '[') = true :=
    fun hn _ hc => decide_eq_true fun hbracket => hn.open_notMem (hbracket ▸ hc)
  have hname := congrArg (List.takeWhile (· ≠ '[')) ht
  rw [List.takeWhile_append_of_pos (hplain isName_correlationRoot),
    List.takeWhile_append_of_pos (hplain (h.2 s List.mem_cons_self).name)] at hname
  have hsame : correlationRoot = s.name := String.toList_injective (by simpa using hname)
  exact absurd hp (by simp [isCorrelation, hsame])

/-- Paths have one key exactly if each of them leads to the other: the text that all sets of paths
go by says what a comparison of the steps says, also below the correlation root. -/
theorem same_iff_startsWith {lp lq : Location} {tp tq : String} (hp : parse lp tp = .ok p)
    (hq : parse lq tq = .ok q) :
    (p.same q = true ↔ p.startsWith q = true ∧ q.startsWith p = true) ∧
      (∀ p : Path, p.startsWith p = true) ∧
      (∀ p q r : Path, p.startsWith q = true → q.startsWith r = true → p.startsWith r = true) ∧
      (p.same q = true → p.length = q.length ∧ p.render = q.render ∧
        p.isCorrelation = q.isCorrelation ∧
        ∀ r : Path, p.startsWith r = q.startsWith r ∧ r.startsWith p = r.startsWith q) ∧
      (p.startsWith q = true → q.length ≤ p.length ∧
        ∀ c c' : Location, (p.underRoot c).startsWith (q.underRoot c') = true) ∧
      ∀ c c' : Location, (p.underRoot c).same (q.underRoot c') = true ↔ p.same q = true := by
  have hp := legible_of_parse hp
  have hq := legible_of_parse hq
  simp only [same_iff hp hq, startsWith_iff, map_shown_underRoot]
  refine ⟨⟨?_, ?_⟩, fun _ => List.prefix_rfl, fun p q r hpq hqr => hqr.trans hpq, ?_, ?_, ?_⟩
  · intro h
    rw [h]
    exact ⟨List.prefix_rfl, List.prefix_rfl⟩
  · rintro ⟨hqp, hpq⟩
    exact hpq.eq_of_length_le hqp.length_le
  · intro h
    refine ⟨?_, ?_, by rw [isCorrelation_eq, isCorrelation_eq, h], fun r => ⟨?_, ?_⟩⟩
    · simpa [length] using congrArg List.length h
    · rw [render_eq, render_eq, written_congr false h]
    · rw [Bool.eq_iff_iff, startsWith_iff, startsWith_iff, h]
    · rw [Bool.eq_iff_iff, startsWith_iff, startsWith_iff, h]
  · intro h
    refine ⟨by simpa [length] using h.length_le, fun _ _ => ?_⟩
    exact List.cons_prefix_cons.2 ⟨rfl, h⟩
  · intro c c'
    rw [same_iff (legible_underRoot c hp) (legible_underRoot c' hq), map_shown_underRoot,
      map_shown_underRoot]
    exact List.cons_inj_right _

/-- The path `a.b[k]`. -/
def cell (loc : Location) : Path :=
  ⟨loc, [⟨"a", none⟩, ⟨"b", some (.var loc ⟨loc, [⟨"k", none⟩]⟩)⟩]⟩

/-- Two texts of one location, read at two places. -/
theorem same_iff_startsWith_cell :
    parse ⟨"t.ol", 3⟩ "a[0].b[k]" = .ok (cell ⟨"t.ol", 3⟩) ∧ parse {} "a.b[k[0]]" = .ok (cell {}) ∧
      (cell ⟨"t.ol", 3⟩).startsWith (cell {}) = true ∧
      ((cell ⟨"t.ol", 3⟩).underRoot {}).same ((cell {}).underRoot ⟨"t.ol", 1⟩) = true := by
  have hp : parse ⟨"t.ol", 3⟩ "a[0].b[k]" = .ok (cell ⟨"t.ol", 3⟩) := rfl
  have hq : parse {} "a.b[k[0]]" = .ok (cell {}) := rfl
  have hsame : (cell ⟨"t.ol", 3⟩).same (cell {}) = true := by decide +kernel
  obtain ⟨hstarts, -, -, -, -, hroot⟩ := same_iff_startsWith hp hq
  exact ⟨hp, hq, (hstarts.1 hsame).1, (hroot {} ⟨"t.ol", 1⟩).2 hsame⟩

end Sessions.Path
