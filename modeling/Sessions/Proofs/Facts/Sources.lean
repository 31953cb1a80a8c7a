import Sessions.Proofs.Facts.Merge

/-!
# Sessions.Proofs.Facts.Sources

Where facts come from. `Sources` says which paths may be provided, needed or lost, and which keys
may be given a fresh value; facts are `From` such sources if they hold nothing else. No merge
invents anything: facts that are put together from two parts come from where the parts come from.
-/

namespace Sessions.Facts

/-- Where the paths in facts may come from. -/
structure Sources where
  provides : Path → Prop
  /-- The keys that a fresh value may be given to. -/
  refreshes : String → Prop
  needs : Path → Prop
  loses : Path → Prop

/-- Whatever the first sources allow, the second ones allow too. -/
structure Sources.Within (S T : Sources) : Prop where
  provides : ∀ {p}, S.provides p → T.provides p
  refreshes : ∀ {k}, S.refreshes k → T.refreshes k
  needs : ∀ {p}, S.needs p → T.needs p
  loses : ∀ {p}, S.loses p → T.loses p

variable {S T : Sources} {a b f : Facts} {p : Path} {fresh : Bool}

/-- Every path in the facts is one that the sources allow, with its location. -/
structure From (S : Sources) (f : Facts) : Prop where
  providedVar : f.providedVar.Holds fun e => S.provides e.path
  providedCorr : f.providedCorr.Holds fun e => S.provides e.path
  fresh : ∀ {k}, f.providedCorr.freshAt k = true → S.refreshes k
  neededCorr : f.neededCorr.Holds fun e => S.needs e.path
  invalidated : f.invalidated.Holds fun e => S.loses e.path

namespace From

theorem mono (hf : f.From S) (h : S.Within T) : f.From T where
  providedVar := ⟨hf.providedVar.nodup, fun e he => h.provides (hf.providedVar.all e he)⟩
  providedCorr := ⟨hf.providedCorr.nodup, fun e he => h.provides (hf.providedCorr.all e he)⟩
  fresh hk := h.refreshes (hf.fresh hk)
  neededCorr := ⟨hf.neededCorr.nodup, fun e he => h.needs (hf.neededCorr.all e he)⟩
  invalidated := ⟨hf.invalidated.nodup, fun e he => h.loses (hf.invalidated.all e he)⟩

/-! ## Single paths -/

theorem empty : Facts.empty.From S where
  providedVar := .empty
  providedCorr := .empty
  fresh hk := by cases hk
  neededCorr := .empty
  invalidated := .empty

theorem provide (hp : S.provides p) (hk : fresh = true → S.refreshes p.key) :
    (Facts.empty.provide p fresh).From S := by
  unfold Facts.provide
  by_cases hc : p.isCorrelation = true
  · rw [if_pos hc]
    refine { empty with
      providedCorr := PathSet.Holds.empty.add hp fun _ h => h
      fresh := fun h => ?_ }
    rcases PathSet.freshAt_add.1 h with h | ⟨rfl, hfresh⟩
    · cases h
    · exact hk hfresh
  · rw [if_neg hc]
    exact { empty with providedVar := PathSet.Holds.empty.add hp fun _ h => h }

theorem invalidate (hf : f.From S) (hp : S.loses p) : (f.invalidate p).From S :=
  { hf with
    providedVar := hf.providedVar.remove
    invalidated := hf.invalidated.add hp fun _ h => h }

/-! ## Merges -/

section Paths

variable {q : Path}

theorem of_mem_providedVar (hf : f.From S) (hq : q ∈ f.providedVar.paths) : S.provides q := by
  obtain ⟨e, he, rfl⟩ := List.mem_map.1 hq
  exact hf.providedVar.all e he

theorem of_mem_providedCorr (hf : f.From S) (hq : q ∈ f.providedCorr.paths) : S.provides q := by
  obtain ⟨e, he, rfl⟩ := List.mem_map.1 hq
  exact hf.providedCorr.all e he

theorem of_mem_neededCorr (hf : f.From S) (hq : q ∈ f.neededCorr.paths) : S.needs q := by
  obtain ⟨e, he, rfl⟩ := List.mem_map.1 hq
  exact hf.neededCorr.all e he

theorem of_mem_invalidated (hf : f.From S) (hq : q ∈ f.invalidated.paths) : S.loses q := by
  obtain ⟨e, he, rfl⟩ := List.mem_map.1 hq
  exact hf.invalidated.all e he

end Paths

theorem sequence (hw : b.WellFormed) (ha : a.From S) (hb : b.From S) :
    (a.sequence b).1.From S := by
  refine ⟨?_, ?_, fun hk => ?_, ?_, ?_⟩
  · rw [sequence_eq a hw]
    exact ha.providedVar.removeAll.addPaths fun p hp => hb.of_mem_providedVar hp
  · rw [sequence_eq a hw]
    exact ha.providedCorr.addNewAll hb.providedCorr.all fun _ _ h => h
  · rcases (sequence_freshAt a hw).1 hk with hk | ⟨-, hk⟩
    · exact ha.fresh hk
    · exact hb.fresh hk
  · rw [sequence_eq a hw]
    exact ha.neededCorr.addPaths fun p hp => hb.of_mem_neededCorr (List.mem_filter.1 hp).1
  · rw [sequence_eq a hw]
    exact (ha.invalidated.addPaths fun p hp => hb.of_mem_invalidated hp).removeAll.removeAll

theorem parallel (hw : b.WellFormed) (ha : a.From S) (hb : b.From S) :
    (a.parallel b).1.From S := by
  refine ⟨?_, ?_, fun hk => ?_, ?_, ?_⟩
  · rw [parallel_eq a hw.apart]
    exact ha.providedVar.removeAll.addPaths fun p hp =>
      hb.of_mem_providedVar (List.mem_filter.1 hp).1
  · rw [parallel_eq a hw.apart]
    exact ha.providedCorr.addNewAll hb.providedCorr.all fun _ _ h => h
  · rcases (parallel_freshAt a hw.apart).1 hk with hk | ⟨-, hk⟩
    · exact ha.fresh hk
    · exact hb.fresh hk
  · rw [parallel_eq a hw.apart]
    exact ha.neededCorr.addPaths fun p hp => hb.of_mem_neededCorr hp
  · rw [parallel_eq a hw.apart]
    exact ha.invalidated.addPaths fun p hp => hb.of_mem_invalidated hp

theorem choice (hwa : a.WellFormed) (hw : b.WellFormed) (ha : a.From S) (hb : b.From S) :
    (a.choice b).1.From S := by
  refine ⟨?_, ?_, fun hk => ?_, ?_, ?_⟩
  · rw [choice_eq hwa hw]
    exact (PathSet.Holds.empty.addPaths fun p hp =>
      ha.of_mem_providedVar (List.mem_filter.1 hp).1).removeAll.removeAll
  · rw [choice_eq hwa hw]
    refine (PathSet.Holds.empty.addAll ?_ fun _ _ h => h).addAll ?_ fun _ _ h => h
    · intro x hx
      obtain ⟨e, he, rfl⟩ := List.mem_map.1 hx
      exact ha.providedCorr.all e he
    · exact fun e he => hb.providedCorr.all e (List.mem_filter.1 he).1
  · rcases (choice_freshAt hwa hw).1 hk with ⟨hk, -⟩ | ⟨-, hk⟩
    · exact ha.fresh hk
    · exact hb.fresh hk
  · rw [choice_eq hwa hw]
    exact (PathSet.Holds.empty.addPaths fun p hp => ha.of_mem_neededCorr hp).addPaths
      fun p hp => hb.of_mem_neededCorr hp
  · rw [choice_eq hwa hw]
    exact (PathSet.Holds.empty.addPaths fun p hp => ha.of_mem_invalidated hp).addPaths
      fun p hp => hb.of_mem_invalidated hp

theorem handler (hw : b.WellFormed) (ha : a.From S) (hb : b.From S) : (a.handler b).From S := by
  refine ⟨?_, ?_, fun hk => ?_, ?_, ?_⟩
  · rw [handler_eq a hw]
    exact ha.providedVar.removeAll.addPaths fun p hp => hb.of_mem_providedVar hp
  · rw [handler_eq a hw]
    exact ha.providedCorr.addAll hb.providedCorr.all fun _ _ h => h
  · rcases (handler_freshAt a hw).1 hk with hk | hk
    · exact ha.fresh hk
    · exact hb.fresh hk
  · rw [handler_eq a hw]
    exact ha.neededCorr.addPaths fun p hp => hb.of_mem_neededCorr (List.mem_filter.1 hp).1
  · rw [handler_eq a hw]
    exact (ha.invalidated.addPaths fun p hp => hb.of_mem_invalidated hp).removeAll

/-! ## Conflicts -/

/-- The paths over which two parts clash are provided by the second one. -/
theorem of_clash (hb : b.From S) (hp : p ∈ (a.sequence b).2) : S.provides p := by
  obtain ⟨e, he, rfl⟩ := List.mem_map.1 (show p ∈ clashes a b.providedCorr.entries from hp)
  exact hb.providedCorr.all e (List.mem_filter.1 he).1

/-- The paths over which two branches disagree are provided by one of them. -/
theorem of_mismatch (ha : a.From S) (hb : b.From S) (hp : p ∈ (a.choice b).2) : S.provides p := by
  have hp : p ∈ ((lacking b.providedCorr a.providedCorr.entries) ++
    (lacking a.providedCorr b.providedCorr.entries)).map (·.path) := hp
  obtain ⟨e, he, rfl⟩ := List.mem_map.1 hp
  rcases List.mem_append.1 he with he | he
  · exact ha.providedCorr.all e (List.mem_filter.1 he).1
  · exact hb.providedCorr.all e (List.mem_filter.1 he).1

end From

end Sessions.Facts
