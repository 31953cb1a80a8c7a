import Mathlib.Data.List.Nodup
import Sessions.Proofs.Facts.Merge

/-!
# Sessions.Proofs.Facts.Fresher

Facts that differ in freshness only. `f.Fresher f'` says that `f'` has the same paths as `f`, in the
same order, and that whatever is fresh in `f` is fresh in `f'`. No merge looks at a flag to decide
on a path, so that every merge keeps this; a path that two parts provide takes its flag from the
first one, from either or from both, and each of these is monotone.
-/

namespace Sessions

namespace PathSet

variable {s s' : PathSet} {p : Path} {e : PathEntry} {b : Bool} {ps : List Path}
  {es : List PathEntry} {P : PathEntry → Prop}

/-! ## Paths without flags -/

/-- The paths of a set after one was added: a path of a known key does not count. -/
def join (ps : List Path) (p : Path) : List Path :=
  if p.key ∈ ps.map Path.key then ps else ps ++ [p]

theorem paths_add : (s.add p b).paths = join s.paths p := by
  rw [join, ← keys_eq_map_paths]
  by_cases h : p.key ∈ s.keys
  · rw [if_pos h, add, if_pos (contains_iff.2 h), paths, paths, List.map_map]
    refine List.map_congr_left fun e _ => ?_
    show PathEntry.path (if e.key == p.key then ⟨e.path, e.fresh || b⟩ else e) = e.path
    split <;> rfl
  · rw [if_neg h, add_of_notMem h, paths, List.map_append]
    rfl

theorem paths_addNew : (s.addNew e).paths = join s.paths e.path := by
  rw [addNew]
  split
  · next h =>
    rw [join, ← keys_eq_map_paths, if_pos (contains_iff.1 h)]
  · exact paths_add

theorem paths_addAll : (s.addAll es).paths = (es.map (·.path)).foldl join s.paths := by
  induction es generalizing s with
  | nil => rfl
  | cons e rest ih => rw [addAll, List.foldl_cons, ← addAll, ih, paths_add]; rfl

theorem paths_addNewAll : (s.addNewAll es).paths = (es.map (·.path)).foldl join s.paths := by
  induction es generalizing s with
  | nil => rfl
  | cons e rest ih => rw [addNewAll, List.foldl_cons, ← addNewAll, ih, paths_addNew]; rfl

theorem keys_congr (h : s.paths = s'.paths) : s.keys = s'.keys := by
  rw [keys_eq_map_paths, keys_eq_map_paths, h]

theorem contains_congr (h : s.paths = s'.paths) : s.contains = s'.contains := by
  funext p
  rw [Bool.eq_iff_iff, contains_iff, contains_iff, keys_congr h]

theorem texts_congr (h : s.paths = s'.paths) : s.texts = s'.texts := by
  have htexts : ∀ s : PathSet, s.texts = s.paths.map Path.render := fun s => by
    rw [texts, paths, List.map_map]; rfl
  rw [htexts, htexts, h]

theorem isEmpty_congr (h : s.paths = s'.paths) : s.isEmpty = s'.isEmpty := by
  rw [Bool.eq_iff_iff, isEmpty_iff, isEmpty_iff, keys_congr h]

/-- With different keys, the flag of a member is that of its key. -/
theorem Holds.fresh_eq (h : Holds P s) (he : e ∈ s.entries) : e.fresh = s.freshAt e.key := by
  rw [Bool.eq_iff_iff, freshAt_iff]
  constructor
  · exact fun hf => ⟨e, he, rfl, hf⟩
  · rintro ⟨x, hx, hkey, hf⟩
    rwa [← List.inj_on_of_nodup_map h.nodup hx he hkey]

/-- The members that are fresh and satisfy a condition on the path, by their paths. -/
theorem Holds.map_filter_fresh (h : Holds P s) (q : Path → Bool) :
    (s.entries.filter fun e => e.fresh && q e.path).map (·.path) =
      s.paths.filter fun p => s.freshAt p.key && q p := by
  rw [paths, List.filter_map]
  congr 1
  refine List.filter_congr fun e he => ?_
  rw [h.fresh_eq he]
  rfl

end PathSet

namespace Facts

variable {f f' g g' : Facts} {p : Path} {k : String}

/-- The facts differ in freshness only, and the second ones are fresher. -/
structure Fresher (f f' : Facts) : Prop where
  left : f.WellFormed
  right : f'.WellFormed
  providedVar : f.providedVar = f'.providedVar
  paths : f.providedCorr.paths = f'.providedCorr.paths
  fresh : ∀ {k}, f.providedCorr.freshAt k = true → f'.providedCorr.freshAt k = true
  neededCorr : f.neededCorr = f'.neededCorr
  invalidated : f.invalidated = f'.invalidated

namespace Fresher

theorem refl (hf : f.WellFormed) : f.Fresher f :=
  ⟨hf, hf, rfl, rfl, id, rfl, rfl⟩

theorem provide {fresh fresh' : Bool} (h : fresh = true → fresh' = true) :
    (Facts.empty.provide p fresh).Fresher (Facts.empty.provide p fresh') := by
  have hw : ∀ b, (Facts.empty.provide p b).WellFormed := fun b =>
    WellFormed.empty.provide (.inr List.not_mem_nil)
  by_cases hp : p.isCorrelation = true
  · have heq : ∀ b, Facts.empty.provide p b = { providedCorr := PathSet.empty.add p b } := by
      intro b
      rw [Facts.provide, if_pos hp]
      rfl
    refine ⟨hw _, hw _, ?_, ?_, fun {k} hk => ?_, ?_, ?_⟩
    · rw [heq, heq]
    · rw [heq, heq, PathSet.paths_add, PathSet.paths_add]
    · rw [heq, PathSet.freshAt_add] at hk ⊢
      exact hk.imp_right fun hk => ⟨hk.1, h hk.2⟩
    · rw [heq, heq]
    · rw [heq, heq]
  · have heq : Facts.empty.provide p fresh = Facts.empty.provide p fresh' := by
      rw [Facts.provide, Facts.provide, if_neg hp, if_neg hp]
    exact heq ▸ refl (hw fresh)

theorem keys (h : f.Fresher f') : f.providedCorr.keys = f'.providedCorr.keys :=
  PathSet.keys_congr h.paths

theorem contains (h : f.Fresher f') : f.providedCorr.contains = f'.providedCorr.contains :=
  PathSet.contains_congr h.paths

theorem available (h : f.Fresher f') : f.available = f'.available := by
  funext p
  rw [Facts.available, Facts.available, h.contains, h.invalidated]

theorem unmet (hf : f.Fresher f') (hg : g.Fresher g') : unmet f g = unmet f' g' := by
  rw [Facts.unmet, Facts.unmet, hg.neededCorr, hf.available]

/-! ## Merges -/

section Merges

variable (hf : f.Fresher f') (hg : g.Fresher g')
include hf hg

theorem sequence : (f.sequence g).1.Fresher (f'.sequence g').1 := by
  refine ⟨hf.left.sequence hg.left, hf.right.sequence hg.right, ?_, ?_, fun {k} hk => ?_, ?_, ?_⟩
  · rw [sequence_eq f hg.left, sequence_eq f' hg.right, hf.providedVar, hg.providedVar,
      hg.invalidated]
  · rw [sequence_eq f hg.left, sequence_eq f' hg.right, PathSet.paths_addNewAll,
      PathSet.paths_addNewAll, hf.paths, show g.providedCorr.entries.map (·.path) = _ from hg.paths]
    rfl
  · rw [sequence_freshAt f' hg.right]
    rcases (sequence_freshAt f hg.left).1 hk with hk | ⟨hn, hk⟩
    · exact .inl (hf.fresh hk)
    · exact .inr ⟨hf.keys ▸ hn, hg.fresh hk⟩
  · rw [sequence_eq f hg.left, sequence_eq f' hg.right, hf.neededCorr, unmet hf hg]
  · rw [sequence_eq f hg.left, sequence_eq f' hg.right, hf.invalidated, hg.invalidated, hg.paths,
      hg.providedVar]

theorem parallel : (f.parallel g).1.Fresher (f'.parallel g').1 := by
  refine ⟨hf.left.parallel hg.left, hf.right.parallel hg.right, ?_, ?_, fun {k} hk => ?_, ?_, ?_⟩
  · rw [parallel_eq f hg.left.apart, parallel_eq f' hg.right.apart, hf.providedVar, hg.providedVar,
      hf.invalidated, hg.invalidated]
  · rw [parallel_eq f hg.left.apart, parallel_eq f' hg.right.apart, PathSet.paths_addNewAll,
      PathSet.paths_addNewAll, hf.paths, show g.providedCorr.entries.map (·.path) = _ from hg.paths]
    rfl
  · rw [parallel_freshAt f' hg.right.apart]
    rcases (parallel_freshAt f hg.left.apart).1 hk with hk | ⟨hn, hk⟩
    · exact .inl (hf.fresh hk)
    · exact .inr ⟨hf.keys ▸ hn, hg.fresh hk⟩
  · rw [parallel_eq f hg.left.apart, parallel_eq f' hg.right.apart, hf.neededCorr, hg.neededCorr]
  · rw [parallel_eq f hg.left.apart, parallel_eq f' hg.right.apart, hf.invalidated, hg.invalidated]

theorem handler : (f.handler g).Fresher (f'.handler g') := by
  refine ⟨hf.left.handler hg.left, hf.right.handler hg.right, ?_, ?_, fun {k} hk => ?_, ?_, ?_⟩
  · rw [handler_eq f hg.left, handler_eq f' hg.right, hf.providedVar, hg.providedVar,
      hg.invalidated]
  · rw [handler_eq f hg.left, handler_eq f' hg.right, PathSet.paths_addAll, PathSet.paths_addAll,
      hf.paths, show g.providedCorr.entries.map (·.path) = _ from hg.paths]
    rfl
  · rw [handler_freshAt f' hg.right]
    exact ((handler_freshAt f hg.left).1 hk).imp hf.fresh hg.fresh
  · rw [handler_eq f hg.left, handler_eq f' hg.right, hf.neededCorr, unmet hf hg]
  · rw [handler_eq f hg.left, handler_eq f' hg.right, hf.invalidated, hg.invalidated, hg.paths,
      hg.providedVar]

end Merges

theorem clashes_eq (a : Facts) (s : PathSet) :
    Facts.clashes a s.entries = s.paths.filter a.providedCorr.contains := by
  rw [Facts.clashes, PathSet.paths, List.filter_map]
  rfl

theorem map_lacking (other s : PathSet) :
    (lacking other s.entries).map (·.path) = s.paths.filter fun p => !other.contains p := by
  rw [lacking, PathSet.paths, List.filter_map]
  rfl

theorem paths_eitherCorr (a b : Facts) :
    (eitherCorr a b).paths =
      (b.providedCorr.paths.filter fun p => !a.providedCorr.contains p).foldl PathSet.join
        (a.providedCorr.paths.foldl PathSet.join []) := by
  rw [eitherCorr, PathSet.paths_addAll, PathSet.paths_addAll, map_lacking, List.map_map]
  rfl

section Merges

variable (hf : f.Fresher f') (hg : g.Fresher g')
include hf hg

theorem choice : (f.choice g).1.Fresher (f'.choice g').1 := by
  refine ⟨.choice hf.left hg.left, .choice hf.right hg.right, ?_, ?_, fun {k} hk => ?_, ?_, ?_⟩
  · rw [choice_eq hf.left hg.left, choice_eq hf.right hg.right, hf.providedVar, hg.providedVar,
      hf.invalidated, hg.invalidated]
  · rw [choice_eq hf.left hg.left, choice_eq hf.right hg.right]
    show (eitherCorr f g).paths = (eitherCorr f' g').paths
    rw [paths_eitherCorr, paths_eitherCorr, hf.paths, hg.paths, hf.contains]
  · rw [choice_freshAt hf.right hg.right]
    -- Whether the other branch provides the key at all does not depend on flags.
    rcases (choice_freshAt hf.left hg.left).1 hk with ⟨hk, hboth⟩ | ⟨hn, hk⟩
    · exact .inl ⟨hf.fresh hk, fun hm => hg.fresh (hboth (hg.keys ▸ hm))⟩
    · exact .inr ⟨hf.keys ▸ hn, hg.fresh hk⟩
  · rw [choice_eq hf.left hg.left, choice_eq hf.right hg.right, hf.neededCorr, hg.neededCorr]
  · rw [choice_eq hf.left hg.left, choice_eq hf.right hg.right, hf.invalidated, hg.invalidated]

/-! ## Conflicts -/

theorem clashes : (f.sequence g).2 = (f'.sequence g').2 := by
  show Facts.clashes f g.providedCorr.entries = Facts.clashes f' g'.providedCorr.entries
  rw [clashes_eq, clashes_eq, hf.contains, hg.paths]

theorem mismatches : (f.choice g).2 = (f'.choice g').2 := by
  show ((lacking g.providedCorr f.providedCorr.entries) ++
      (lacking f.providedCorr g.providedCorr.entries)).map (·.path) =
    ((lacking g'.providedCorr f'.providedCorr.entries) ++
      (lacking f'.providedCorr g'.providedCorr.entries)).map (·.path)
  rw [List.map_append, List.map_append, map_lacking, map_lacking, map_lacking, map_lacking,
    hf.contains, hg.contains, hf.paths, hg.paths]

end Merges

end Fresher

end Facts

end Sessions
