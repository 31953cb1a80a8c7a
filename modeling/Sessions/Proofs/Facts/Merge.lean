import Sessions.Proofs.Facts.Apart

/-!
# Sessions.Proofs.Facts.Merge

The merges of facts, field by field. `WellFormed` holds of all facts that a check computes: paths
are sorted into the fields by their kind, no path is needed that is not a correlation path, and an
ordinary path that is provided can be traced. Each merge keeps it, and for well-formed parts each
merge is given by one equation (`sequence_eq`, `choice_eq`, `handler_eq`; that of `parallel` asks for
less), from which the keys of its fields are read off.
-/

namespace Sessions.Facts

variable {a b f g : Facts} {k : String} {p : Path}

/-- The key is provided by a correlation path and still tracked. -/
def Available (f : Facts) (k : String) : Prop :=
  k ∈ f.providedCorr.keys ∧ k ∉ f.invalidated.keys

theorem available_iff : f.available p = true ↔ f.Available p.key := by
  rw [available, Bool.and_eq_true, Bool.not_eq_true', PathSet.contains_iff,
    PathSet.contains_eq_false_iff, Available]

/-- What holds of all facts that a check computes. -/
structure WellFormed (f : Facts) : Prop where
  providedVar : f.providedVar.Holds fun e => e.path.isCorrelation = false ∧ e.fresh = false
  providedCorr : f.providedCorr.Holds fun e => e.path.isCorrelation = true
  neededVar : f.neededVar = PathSet.empty
  neededCorr : f.neededCorr.Holds fun e => e.path.isCorrelation = true ∧ e.fresh = false
  invalidated : f.invalidated.Holds fun e => e.fresh = false
  tracked : ∀ k ∈ f.providedVar.keys, k ∉ f.invalidated.keys

theorem WellFormed.apart (h : f.WellFormed) : f.Apart where
  providedVar := ⟨h.providedVar.nodup, fun e he => (h.providedVar.all e he).1⟩
  providedCorr := h.providedCorr
  neededVar := h.neededVar ▸ .empty
  neededCorr := ⟨h.neededCorr.nodup, fun e he => (h.neededCorr.all e he).1⟩
  invalidated := ⟨h.invalidated.nodup, fun _ _ => trivial⟩

theorem WellFormed.needed_path (h : f.WellFormed) (hp : p ∈ f.neededCorr.paths) :
    p.isCorrelation = true :=
  h.apart.needed_path hp

theorem WellFormed.provided_path (h : f.WellFormed) (hp : p ∈ f.providedVar.paths) :
    p.isCorrelation = false :=
  h.apart.provided_path hp

/-! ## Single paths -/

theorem WellFormed.empty : Facts.empty.WellFormed :=
  ⟨.empty, .empty, rfl, .empty, .empty, fun _ hk => (List.not_mem_nil hk).elim⟩

theorem WellFormed.provide (hf : f.WellFormed) {fresh : Bool}
    (hp : p.isCorrelation = true ∨ p.key ∉ f.invalidated.keys) :
    (f.provide p fresh).WellFormed := by
  unfold Facts.provide
  by_cases hc : p.isCorrelation = true
  · rw [if_pos hc]
    exact { hf with providedCorr := hf.providedCorr.add hc fun _ h => h }
  · rw [if_neg hc]
    refine { hf with providedVar := ?_, tracked := fun k hk => ?_ }
    · refine hf.providedVar.add ⟨Bool.eq_false_iff.2 hc, rfl⟩ fun e he => ?_
      rwa [Bool.or_false]
    · rcases PathSet.mem_keys_add.1 hk with hk | rfl
      · exact hf.tracked k hk
      · exact hp.resolve_left hc

theorem WellFormed.invalidate (hf : f.WellFormed) : (f.invalidate p).WellFormed := by
  refine { hf with
    providedVar := hf.providedVar.remove
    invalidated := hf.invalidated.add rfl fun e he => ?_
    tracked := fun k hk => ?_ }
  · rwa [Bool.or_false]
  · obtain ⟨hk, hne⟩ := PathSet.mem_keys_remove.1 hk
    exact fun hi => (PathSet.mem_keys_add.1 hi).elim (hf.tracked k hk) hne

/-! ## Updates by many paths -/

theorem foldl_need {ps : List Path} (h : ∀ p ∈ ps, p.isCorrelation = true) (f : Facts) :
    ps.foldl need f = { f with neededCorr := f.neededCorr.addPaths ps } := by
  have hvar : ps.filter (fun p => !p.isCorrelation) = [] :=
    List.filter_eq_nil_iff.2 fun p hp => by rw [h p hp]; exact Bool.false_ne_true
  rw [foldl_need_eq, hvar, List.filter_eq_self.2 h]
  rfl

theorem needAll_eq (f : Facts) (hg : g.WellFormed) :
    f.needAll g = { f with neededCorr := f.neededCorr.addPaths g.neededCorr.paths } := by
  rw [hg.apart.needAll_eq, hg.neededVar]
  rfl

/-- The needs of `b` that are left after `a`. -/
def unmet (a b : Facts) : List Path :=
  b.neededCorr.paths.filter fun p => !a.available p

theorem foldl_unmetNeeds (a f : Facts) (hb : b.WellFormed) :
    (unmetNeeds a b).foldl need f =
      { f with neededCorr := f.neededCorr.addPaths (unmet a b) } := by
  have hvar : b.neededVar.paths = [] := by rw [hb.neededVar]; rfl
  rw [unmetNeeds, hvar, List.filter_nil, List.nil_append]
  exact foldl_need (fun p hp => hb.needed_path (List.mem_filter.1 hp).1) f

theorem mem_unmet (a b : Facts) :
    k ∈ (unmet a b).map Path.key ↔ k ∈ b.neededCorr.keys ∧ ¬ a.Available k := by
  rw [unmet, PathSet.keys_eq_map_paths, List.mem_map, List.mem_map]
  constructor
  · rintro ⟨p, hp, rfl⟩
    obtain ⟨hp, hav⟩ := List.mem_filter.1 hp
    rw [Bool.not_eq_true', ← Bool.not_eq_true, available_iff] at hav
    exact ⟨⟨p, hp, rfl⟩, hav⟩
  · rintro ⟨⟨p, hp, rfl⟩, hav⟩
    refine ⟨p, List.mem_filter.2 ⟨hp, ?_⟩, rfl⟩
    rw [Bool.not_eq_true', ← Bool.not_eq_true, available_iff]
    exact hav

/-! ## Sequences -/

theorem sequence_eq (a : Facts) (hb : b.WellFormed) :
    (a.sequence b).1 =
      { providedVar := (a.providedVar.removeAll b.invalidated.paths).addPaths b.providedVar.paths
        providedCorr := a.providedCorr.addNewAll b.providedCorr.entries
        neededVar := a.neededVar
        neededCorr := a.neededCorr.addPaths (unmet a b)
        invalidated := ((a.invalidated.addPaths b.invalidated.paths).removeAll
          b.providedCorr.paths).removeAll b.providedVar.paths } := by
  rw [sequence_fields, foldl_unmetNeeds a a hb]

section Sequence

variable (a) (hb : b.WellFormed)
include hb

theorem sequence_providedVar :
    k ∈ (a.sequence b).1.providedVar.keys ↔
      (k ∈ a.providedVar.keys ∧ k ∉ b.invalidated.keys) ∨ k ∈ b.providedVar.keys := by
  rw [sequence_eq a hb, PathSet.mem_keys_addPaths, PathSet.mem_keys_removeAll,
    ← PathSet.keys_eq_map_paths, ← PathSet.keys_eq_map_paths]

theorem sequence_providedCorr :
    k ∈ (a.sequence b).1.providedCorr.keys ↔ k ∈ a.providedCorr.keys ∨ k ∈ b.providedCorr.keys := by
  rw [sequence_eq a hb, PathSet.mem_keys_addNewAll]; rfl

theorem sequence_freshAt :
    (a.sequence b).1.providedCorr.freshAt k = true ↔ a.providedCorr.freshAt k = true ∨
      (k ∉ a.providedCorr.keys ∧ b.providedCorr.freshAt k = true) := by
  rw [sequence_eq a hb, PathSet.freshAt_addNewAll hb.providedCorr.nodup, ← PathSet.freshAt_iff]

theorem sequence_neededCorr :
    k ∈ (a.sequence b).1.neededCorr.keys ↔
      k ∈ a.neededCorr.keys ∨ (k ∈ b.neededCorr.keys ∧ ¬ a.Available k) := by
  rw [sequence_eq a hb, PathSet.mem_keys_addPaths, mem_unmet]

theorem sequence_invalidated :
    k ∈ (a.sequence b).1.invalidated.keys ↔
      (k ∈ a.invalidated.keys ∨ k ∈ b.invalidated.keys) ∧ k ∉ b.providedCorr.keys ∧
        k ∉ b.providedVar.keys := by
  rw [sequence_eq a hb, PathSet.mem_keys_removeAll, PathSet.mem_keys_removeAll,
    PathSet.mem_keys_addPaths, ← PathSet.keys_eq_map_paths, ← PathSet.keys_eq_map_paths,
    ← PathSet.keys_eq_map_paths, and_assoc]

end Sequence

theorem WellFormed.sequence (ha : a.WellFormed) (hb : b.WellFormed) :
    (a.sequence b).1.WellFormed := by
  refine ⟨?_, ?_, ?_, ?_, ?_, fun k hk => ?_⟩
  · rw [sequence_eq a hb]
    exact ha.providedVar.removeAll.addPaths fun p hp => ⟨hb.provided_path hp, rfl⟩
  · rw [sequence_eq a hb]
    exact ha.providedCorr.addNewAll hb.providedCorr.all fun _ _ h => h
  · rw [sequence_eq a hb]
    exact ha.neededVar
  · rw [sequence_eq a hb]
    exact ha.neededCorr.addPaths fun p hp => ⟨hb.needed_path (List.mem_filter.1 hp).1, rfl⟩
  · rw [sequence_eq a hb]
    exact (ha.invalidated.addPaths fun _ _ => rfl).removeAll.removeAll
  · rw [sequence_invalidated a hb]
    rintro ⟨hi, -, hv⟩
    rcases (sequence_providedVar a hb).1 hk with ⟨hka, hkb⟩ | hkb
    · exact hi.elim (ha.tracked k hka) hkb
    · exact hv hkb

/-- Two parts clash over the correlation paths that both provide. -/
theorem sequence_clashes (a b : Facts) :
    (a.sequence b).2 = [] ↔ ∀ k ∈ b.providedCorr.keys, k ∉ a.providedCorr.keys := by
  show clashes a b.providedCorr.entries = [] ↔ _
  rw [clashes, List.map_eq_nil_iff, List.filter_eq_nil_iff, PathSet.keys, List.forall_mem_map]
  simp only [PathSet.contains_iff]
  rfl

/-! ## Parallel parts -/

theorem WellFormed.parallel (ha : a.WellFormed) (hb : b.WellFormed) :
    (a.parallel b).1.WellFormed := by
  refine ⟨?_, ?_, ?_, ?_, ?_, fun k hk => ?_⟩
  · rw [parallel_eq a hb.apart]
    exact ha.providedVar.removeAll.addPaths fun p hp =>
      ⟨hb.provided_path (List.mem_filter.1 hp).1, rfl⟩
  · rw [parallel_eq a hb.apart]
    exact ha.providedCorr.addNewAll hb.providedCorr.all fun _ _ h => h
  · rw [parallel_eq a hb.apart, ha.neededVar, hb.neededVar]
    rfl
  · rw [parallel_eq a hb.apart]
    exact ha.neededCorr.addPaths fun p hp => ⟨hb.needed_path hp, rfl⟩
  · rw [parallel_eq a hb.apart]
    exact ha.invalidated.addPaths fun _ _ => rfl
  · rw [parallel_invalidated a hb.apart]
    rcases (parallel_providedVar a hb.apart).1 hk with ⟨hka, hkb⟩ | ⟨hkb, hka⟩
    · exact fun hi => hi.elim (ha.tracked k hka) hkb
    · exact fun hi => hi.elim hka (hb.tracked k hkb)

/-! ## Choices -/

/-- The flag of a path that both branches may provide: fresh only if it is fresh in both. -/
def commonFlag (b : Facts) (e : PathEntry) : Bool :=
  match b.providedCorr.get? e.path with
  | some f => e.fresh && f.fresh
  | none => e.fresh

theorem commonFlag_iff (hb : b.WellFormed) {e : PathEntry} :
    commonFlag b e = true ↔
      e.fresh = true ∧ (e.key ∈ b.providedCorr.keys → b.providedCorr.freshAt e.key = true) := by
  have hflag := hb.providedCorr.get?_fresh e.path
  unfold commonFlag
  cases hg : b.providedCorr.get? e.path with
  | none =>
    have hk : e.key ∉ b.providedCorr.keys := PathSet.get?_eq_none.1 hg
    exact ⟨fun h => ⟨h, fun h' => absurd h' hk⟩, fun h => h.1⟩
  | some x =>
    have hk : e.key ∈ b.providedCorr.keys := by
      rw [← show e.path.key = e.key from rfl, ← PathSet.get?_isSome, hg]
      rfl
    rw [hg] at hflag
    have hflag : x.fresh = b.providedCorr.freshAt e.key := hflag
    show (e.fresh && x.fresh) = true ↔ _
    rw [Bool.and_eq_true, hflag]
    exact and_congr_right fun _ => ⟨fun h _ => h, fun h => h hk⟩

/-- The correlation paths that one of two branches provides. -/
def eitherCorr (a b : Facts) : PathSet :=
  (PathSet.empty.addAll (a.providedCorr.entries.map fun e => ⟨e.path, commonFlag b e⟩)).addAll
    (lacking a.providedCorr b.providedCorr.entries)

theorem choice_eq (ha : a.WellFormed) (hb : b.WellFormed) :
    (a.choice b).1 =
      { providedVar := ((PathSet.empty.addPaths
          (a.providedVar.paths.filter b.providedVar.contains)).removeAll
            a.invalidated.paths).removeAll b.invalidated.paths
        providedCorr := eitherCorr a b
        neededVar := PathSet.empty
        neededCorr := (PathSet.empty.addPaths a.neededCorr.paths).addPaths b.neededCorr.paths
        invalidated := (PathSet.empty.addPaths a.invalidated.paths).addPaths
          b.invalidated.paths } := by
  simp only [choice, needAll_eq _ ha, needAll_eq _ hb, invalidateAll, foldl_invalidate]
  rw [eitherCorr, PathSet.addAll, PathSet.addAll, List.foldl_map]
  rfl

section Choice

variable (ha : a.WellFormed) (hb : b.WellFormed)
include ha hb

theorem choice_providedVar :
    k ∈ (a.choice b).1.providedVar.keys ↔ k ∈ a.providedVar.keys ∧ k ∈ b.providedVar.keys := by
  rw [choice_eq ha hb, PathSet.mem_keys_removeAll, PathSet.mem_keys_removeAll,
    PathSet.mem_keys_addPaths, ← PathSet.keys_eq_map_paths, ← PathSet.keys_eq_map_paths,
    PathSet.keys_eq_map_paths a.providedVar]
  simp only [PathSet.keys_empty, List.not_mem_nil, false_or, List.mem_map, List.mem_filter,
    PathSet.contains_iff]
  constructor
  · rintro ⟨⟨⟨p, ⟨hp, hpb⟩, rfl⟩, -⟩, -⟩
    exact ⟨⟨p, hp, rfl⟩, hpb⟩
  · rintro ⟨⟨p, hp, rfl⟩, hpb⟩
    exact ⟨⟨⟨p, ⟨hp, hpb⟩, rfl⟩, ha.tracked _ (PathSet.mem_keys_of_mem_paths hp)⟩,
      hb.tracked _ hpb⟩

theorem choice_providedCorr :
    k ∈ (a.choice b).1.providedCorr.keys ↔ k ∈ a.providedCorr.keys ∨ k ∈ b.providedCorr.keys := by
  have hmap : (a.providedCorr.entries.map fun e => (⟨e.path, commonFlag b e⟩ : PathEntry)).map
      PathEntry.key = a.providedCorr.keys := by
    rw [List.map_map]; rfl
  rw [choice_eq ha hb]
  show k ∈ (eitherCorr a b).keys ↔ _
  rw [eitherCorr, PathSet.mem_keys_addAll, PathSet.mem_keys_addAll, hmap]
  simp only [PathSet.keys_empty, List.not_mem_nil, false_or, lacking, List.mem_map,
    List.mem_filter, Bool.not_eq_true', PathSet.contains_eq_false_iff]
  constructor
  · rintro (hk | ⟨e, ⟨he, -⟩, rfl⟩)
    · exact .inl hk
    · exact .inr (List.mem_map_of_mem he)
  · rintro (hk | hk)
    · exact .inl hk
    · by_cases hka : k ∈ a.providedCorr.keys
      · exact .inl hka
      · obtain ⟨e, he, rfl⟩ := List.mem_map.1 hk
        exact .inr ⟨e, ⟨he, hka⟩, rfl⟩

theorem choice_freshAt :
    (a.choice b).1.providedCorr.freshAt k = true ↔
      (a.providedCorr.freshAt k = true ∧
        (k ∈ b.providedCorr.keys → b.providedCorr.freshAt k = true)) ∨
      (k ∉ a.providedCorr.keys ∧ b.providedCorr.freshAt k = true) := by
  have hempty : PathSet.empty.freshAt k = false := rfl
  rw [choice_eq ha hb]
  show (eitherCorr a b).freshAt k = true ↔ _
  rw [eitherCorr, PathSet.freshAt_addAll, PathSet.freshAt_addAll, hempty]
  simp only [Bool.false_eq_true, false_or, lacking, List.mem_map, List.mem_filter,
    Bool.not_eq_true', PathSet.contains_eq_false_iff]
  refine or_congr ?_ ?_
  · rw [PathSet.freshAt_iff]
    constructor
    · rintro ⟨_, ⟨e, he, rfl⟩, rfl, hf⟩
      obtain ⟨hf, hkb⟩ := (commonFlag_iff hb).1 hf
      exact ⟨⟨e, he, rfl, hf⟩, hkb⟩
    · rintro ⟨⟨e, he, rfl, hf⟩, hkb⟩
      exact ⟨_, ⟨e, he, rfl⟩, rfl, (commonFlag_iff hb).2 ⟨hf, hkb⟩⟩
  · rw [PathSet.freshAt_iff]
    constructor
    · rintro ⟨e, ⟨he, hka⟩, rfl, hf⟩
      exact ⟨hka, e, he, rfl, hf⟩
    · rintro ⟨hka, e, he, rfl, hf⟩
      exact ⟨e, ⟨he, hka⟩, rfl, hf⟩

theorem choice_neededCorr :
    k ∈ (a.choice b).1.neededCorr.keys ↔ k ∈ a.neededCorr.keys ∨ k ∈ b.neededCorr.keys := by
  rw [choice_eq ha hb, PathSet.mem_keys_addPaths, PathSet.mem_keys_addPaths,
    ← PathSet.keys_eq_map_paths, ← PathSet.keys_eq_map_paths, PathSet.keys_empty]
  simp only [List.not_mem_nil, false_or]

theorem choice_invalidated :
    k ∈ (a.choice b).1.invalidated.keys ↔ k ∈ a.invalidated.keys ∨ k ∈ b.invalidated.keys := by
  rw [choice_eq ha hb, PathSet.mem_keys_addPaths, PathSet.mem_keys_addPaths,
    ← PathSet.keys_eq_map_paths, ← PathSet.keys_eq_map_paths, PathSet.keys_empty]
  simp only [List.not_mem_nil, false_or]

theorem WellFormed.choice : (a.choice b).1.WellFormed := by
  refine ⟨?_, ?_, ?_, ?_, ?_, fun k hk => ?_⟩
  · rw [choice_eq ha hb]
    exact (PathSet.Holds.empty.addPaths fun p hp =>
      ⟨ha.provided_path (List.mem_filter.1 hp).1, rfl⟩).removeAll.removeAll
  · rw [choice_eq ha hb]
    refine (PathSet.Holds.empty.addAll ?_ fun _ _ h => h).addAll ?_ fun _ _ h => h
    · intro x hx
      obtain ⟨e, he, rfl⟩ := List.mem_map.1 hx
      exact ha.providedCorr.all e he
    · exact fun e he => hb.providedCorr.all e (List.mem_filter.1 he).1
  · rw [choice_eq ha hb]
  · rw [choice_eq ha hb]
    exact (PathSet.Holds.empty.addPaths fun p hp => ⟨ha.needed_path hp, rfl⟩).addPaths
      fun p hp => ⟨hb.needed_path hp, rfl⟩
  · rw [choice_eq ha hb]
    exact (PathSet.Holds.empty.addPaths fun _ _ => rfl).addPaths fun _ _ => rfl
  · obtain ⟨hka, hkb⟩ := (choice_providedVar ha hb).1 hk
    rw [choice_invalidated ha hb]
    exact fun hi => hi.elim (ha.tracked k hka) (hb.tracked k hkb)

end Choice

/-- Two branches disagree over the correlation paths that one of them provides and the other does
not. -/
theorem choice_mismatches (a b : Facts) :
    k ∈ (a.choice b).2.map Path.key ↔
      (k ∈ a.providedCorr.keys ∧ k ∉ b.providedCorr.keys) ∨
        (k ∈ b.providedCorr.keys ∧ k ∉ a.providedCorr.keys) := by
  have hlack (s t : PathSet) : k ∈ ((lacking t s.entries).map (·.path)).map Path.key ↔
      k ∈ s.keys ∧ k ∉ t.keys := by
    simp only [lacking, List.mem_map, List.mem_filter, Bool.not_eq_true',
      PathSet.contains_eq_false_iff, PathSet.keys]
    constructor
    · rintro ⟨_, ⟨e, ⟨he, hk⟩, rfl⟩, rfl⟩
      exact ⟨⟨e, he, rfl⟩, hk⟩
    · rintro ⟨⟨e, he, rfl⟩, hk⟩
      exact ⟨e.path, ⟨e, ⟨he, hk⟩, rfl⟩, rfl⟩
  show k ∈ (((lacking b.providedCorr a.providedCorr.entries) ++
    (lacking a.providedCorr b.providedCorr.entries)).map (·.path)).map Path.key ↔ _
  rw [List.map_append, List.map_append, List.mem_append, hlack, hlack]

/-! ## Handlers -/

theorem handler_eq (a : Facts) (hb : b.WellFormed) :
    a.handler b =
      { providedVar := (a.providedVar.removeAll b.invalidated.paths).addPaths b.providedVar.paths
        providedCorr := a.providedCorr.addAll b.providedCorr.entries
        neededVar := a.neededVar
        neededCorr := a.neededCorr.addPaths (unmet a b)
        invalidated := (a.invalidated.addPaths b.invalidated.paths).removeAll
          (b.providedVar.paths ++ b.providedCorr.paths) } := by
  rw [handler_fields a hb.apart, foldl_unmetNeeds a a hb]

section Handler

variable (a) (hb : b.WellFormed)
include hb

theorem handler_providedVar :
    k ∈ (a.handler b).providedVar.keys ↔
      (k ∈ a.providedVar.keys ∧ k ∉ b.invalidated.keys) ∨ k ∈ b.providedVar.keys := by
  rw [handler_eq a hb, PathSet.mem_keys_addPaths, PathSet.mem_keys_removeAll,
    ← PathSet.keys_eq_map_paths, ← PathSet.keys_eq_map_paths]

theorem handler_providedCorr :
    k ∈ (a.handler b).providedCorr.keys ↔ k ∈ a.providedCorr.keys ∨ k ∈ b.providedCorr.keys := by
  rw [handler_eq a hb, PathSet.mem_keys_addAll]; rfl

theorem handler_freshAt :
    (a.handler b).providedCorr.freshAt k = true ↔
      a.providedCorr.freshAt k = true ∨ b.providedCorr.freshAt k = true := by
  rw [handler_eq a hb, PathSet.freshAt_addAll, ← PathSet.freshAt_iff]

theorem handler_neededCorr :
    k ∈ (a.handler b).neededCorr.keys ↔
      k ∈ a.neededCorr.keys ∨ (k ∈ b.neededCorr.keys ∧ ¬ a.Available k) := by
  rw [handler_eq a hb, PathSet.mem_keys_addPaths, mem_unmet]

theorem handler_invalidated :
    k ∈ (a.handler b).invalidated.keys ↔
      (k ∈ a.invalidated.keys ∨ k ∈ b.invalidated.keys) ∧ k ∉ b.providedCorr.keys ∧
        k ∉ b.providedVar.keys := by
  rw [handler_eq a hb, PathSet.mem_keys_removeAll, PathSet.mem_keys_addPaths, List.map_append,
    List.mem_append, ← PathSet.keys_eq_map_paths, ← PathSet.keys_eq_map_paths,
    ← PathSet.keys_eq_map_paths, not_or, and_comm (a := k ∉ b.providedVar.keys)]

end Handler

theorem WellFormed.handler (ha : a.WellFormed) (hb : b.WellFormed) :
    (a.handler b).WellFormed := by
  refine ⟨?_, ?_, ?_, ?_, ?_, fun k hk => ?_⟩
  · rw [handler_eq a hb]
    exact ha.providedVar.removeAll.addPaths fun p hp => ⟨hb.provided_path hp, rfl⟩
  · rw [handler_eq a hb]
    exact ha.providedCorr.addAll hb.providedCorr.all fun _ _ h => h
  · rw [handler_eq a hb]
    exact ha.neededVar
  · rw [handler_eq a hb]
    exact ha.neededCorr.addPaths fun p hp => ⟨hb.needed_path (List.mem_filter.1 hp).1, rfl⟩
  · rw [handler_eq a hb]
    exact (ha.invalidated.addPaths fun _ _ => rfl).removeAll
  · rw [handler_invalidated a hb]
    rintro ⟨hi, -, hv⟩
    rcases (handler_providedVar a hb).1 hk with ⟨hka, hkb⟩ | hkb
    · exact hi.elim (ha.tracked k hka) hkb
    · exact hv hkb

/-! ## Facts of which nothing was lost -/

/-- The facts are well-formed, and no path lost its track. -/
structure Clean (f : Facts) : Prop where
  wellFormed : f.WellFormed
  invalidated : ∀ k, k ∉ f.invalidated.keys

namespace Clean

theorem available_iff (hf : f.Clean) : f.Available k ↔ k ∈ f.providedCorr.keys :=
  ⟨fun h => h.1, fun h => ⟨h, hf.invalidated k⟩⟩

theorem empty : Facts.empty.Clean :=
  ⟨.empty, fun _ => List.not_mem_nil⟩

theorem provide (p : Path) (fresh : Bool) : (Facts.empty.provide p fresh).Clean := by
  refine ⟨WellFormed.empty.provide (.inr List.not_mem_nil), fun k => ?_⟩
  unfold Facts.provide
  split <;> exact List.not_mem_nil

theorem sequence (ha : a.Clean) (hb : b.Clean) : (a.sequence b).1.Clean := by
  refine ⟨ha.wellFormed.sequence hb.wellFormed, fun k hk => ?_⟩
  obtain ⟨hk, -⟩ := (sequence_invalidated _ hb.wellFormed).1 hk
  exact hk.elim (ha.invalidated k) (hb.invalidated k)

theorem parallel (ha : a.Clean) (hb : b.Clean) : (a.parallel b).1.Clean := by
  refine ⟨ha.wellFormed.parallel hb.wellFormed, fun k hk => ?_⟩
  have hk := (parallel_invalidated _ hb.wellFormed.apart).1 hk
  exact hk.elim (ha.invalidated k) (hb.invalidated k)

theorem choice (ha : a.Clean) (hb : b.Clean) : (a.choice b).1.Clean := by
  refine ⟨ha.wellFormed.choice hb.wellFormed, fun k hk => ?_⟩
  have hk := (choice_invalidated ha.wellFormed hb.wellFormed).1 hk
  exact hk.elim (ha.invalidated k) (hb.invalidated k)

theorem handler (ha : a.Clean) (hb : b.Clean) : (a.handler b).Clean := by
  refine ⟨ha.wellFormed.handler hb.wellFormed, fun k hk => ?_⟩
  obtain ⟨hk, -⟩ := (handler_invalidated _ hb.wellFormed).1 hk
  exact hk.elim (ha.invalidated k) (hb.invalidated k)

end Clean

end Sessions.Facts
