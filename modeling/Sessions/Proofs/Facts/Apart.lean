import Sessions.Facts.Merge
import Sessions.Proofs.Facts.PathSet

/-!
# Sessions.Proofs.Facts.Apart

Facts that keep ordinary paths and correlation paths apart. A merge asks for the kind of a path only
where it hands the path to `need` or `provide`, so for facts that keep the kinds apart it is given
by one equation, whatever else is in the facts. Two parts in no relative order are merged field by
field, and the keys of the result are read off (`parallel_eq` and what follows it).
-/

namespace Sessions.Facts

variable {a b f : Facts} {k : String} {p : Path}

/-- Each path stands in a field of its kind, and not twice. -/
structure Apart (f : Facts) : Prop where
  providedVar : f.providedVar.Holds fun e => e.path.isCorrelation = false
  providedCorr : f.providedCorr.Holds fun e => e.path.isCorrelation = true
  neededVar : f.neededVar.Holds fun e => e.path.isCorrelation = false
  neededCorr : f.neededCorr.Holds fun e => e.path.isCorrelation = true
  invalidated : f.invalidated.Holds fun _ => True

instance (f : Facts) : Decidable f.Apart :=
  decidable_of_iff
    ((f.providedVar.Holds fun e => e.path.isCorrelation = false) ∧
      (f.providedCorr.Holds fun e => e.path.isCorrelation = true) ∧
      (f.neededVar.Holds fun e => e.path.isCorrelation = false) ∧
      (f.neededCorr.Holds fun e => e.path.isCorrelation = true) ∧
      f.invalidated.Holds fun _ => True)
    ⟨fun h => ⟨h.1, h.2.1, h.2.2.1, h.2.2.2.1, h.2.2.2.2⟩,
      fun h => ⟨h.providedVar, h.providedCorr, h.neededVar, h.neededCorr, h.invalidated⟩⟩

namespace Apart

theorem needed_path (h : f.Apart) (hp : p ∈ f.neededCorr.paths) : p.isCorrelation = true := by
  obtain ⟨e, he, rfl⟩ := List.mem_map.1 hp
  exact h.neededCorr.all e he

theorem neededVar_path (h : f.Apart) (hp : p ∈ f.neededVar.paths) : p.isCorrelation = false := by
  obtain ⟨e, he, rfl⟩ := List.mem_map.1 hp
  exact h.neededVar.all e he

theorem provided_path (h : f.Apart) (hp : p ∈ f.providedVar.paths) : p.isCorrelation = false := by
  obtain ⟨e, he, rfl⟩ := List.mem_map.1 hp
  exact h.providedVar.all e he

end Apart

/-! ## Updates by many paths -/

/-- Each need goes to the field of its kind. -/
theorem foldl_need_eq (ps : List Path) (f : Facts) :
    ps.foldl need f =
      { f with
        neededVar := f.neededVar.addPaths (ps.filter fun p => !p.isCorrelation)
        neededCorr := f.neededCorr.addPaths (ps.filter Path.isCorrelation) } := by
  induction ps generalizing f with
  | nil => rfl
  | cons p rest ih =>
    rw [List.foldl_cons, ih, need]
    cases hp : p.isCorrelation with
    | true => simp [hp, PathSet.addPaths]
    | false => simp [hp, PathSet.addPaths]

theorem foldl_invalidate (ps : List Path) (f : Facts) :
    ps.foldl invalidate f =
      { f with
        invalidated := f.invalidated.addPaths ps
        providedVar := f.providedVar.removeAll ps } := by
  induction ps generalizing f with
  | nil => rfl
  | cons p rest ih => rw [List.foldl_cons, ih]; rfl

theorem foldl_revalidate (ps : List Path) (f : Facts) :
    ps.foldl revalidate f = { f with invalidated := f.invalidated.removeAll ps } := by
  induction ps generalizing f with
  | nil => rfl
  | cons p rest ih => rw [List.foldl_cons, ih]; rfl

theorem provideNew_eq (f : Facts) (e : PathEntry) :
    f.provideNew e = { f with providedCorr := f.providedCorr.addNew e } := by
  rw [provideNew, PathSet.addNew]
  split <;> rfl

theorem foldl_provideNew (es : List PathEntry) (f : Facts) :
    es.foldl provideNew f = { f with providedCorr := f.providedCorr.addNewAll es } := by
  induction es generalizing f with
  | nil => rfl
  | cons e rest ih => rw [List.foldl_cons, ih, provideNew_eq]; rfl

theorem foldl_rebind (es : List PathEntry) (f : Facts) :
    es.foldl (fun f e => (f.provideNew e).revalidate e.path) f =
      { f with
        providedCorr := f.providedCorr.addNewAll es
        invalidated := f.invalidated.removeAll (es.map (·.path)) } := by
  induction es generalizing f with
  | nil => rfl
  | cons e rest ih => rw [List.foldl_cons, ih, provideNew_eq]; rfl

theorem foldl_provideVar (ps : List Path) (f : Facts) :
    ps.foldl provideVar f = { f with providedVar := f.providedVar.addPaths ps } := by
  induction ps generalizing f with
  | nil => rfl
  | cons p rest ih => rw [List.foldl_cons, ih]; rfl

theorem foldl_rebindVar (ps : List Path) (f : Facts) :
    ps.foldl (fun f p => (f.provideVar p).revalidate p) f =
      { f with
        providedVar := f.providedVar.addPaths ps
        invalidated := f.invalidated.removeAll ps } := by
  induction ps generalizing f with
  | nil => rfl
  | cons p rest ih => rw [List.foldl_cons, ih]; rfl

theorem foldl_provide_corr {es : List PathEntry}
    (h : ∀ e ∈ es, e.path.isCorrelation = true) (f : Facts) :
    es.foldl (fun f e => f.provide e.path e.fresh) f =
      { f with providedCorr := f.providedCorr.addAll es } := by
  induction es generalizing f with
  | nil => rfl
  | cons e rest ih =>
    obtain ⟨he, hrest⟩ := List.forall_mem_cons.1 h
    rw [List.foldl_cons, ih hrest, provide, if_pos he]
    rfl

theorem foldl_provide_var {ps : List Path} (h : ∀ p ∈ ps, p.isCorrelation = false) (f : Facts) :
    ps.foldl (fun f p => f.provide p false) f =
      { f with providedVar := f.providedVar.addPaths ps } := by
  induction ps generalizing f with
  | nil => rfl
  | cons p rest ih =>
    obtain ⟨hp, hrest⟩ := List.forall_mem_cons.1 h
    rw [List.foldl_cons, ih hrest, provide, if_neg (by rw [hp]; exact Bool.false_ne_true)]
    rfl

namespace Apart

theorem provideAll_eq (hb : b.Apart) (f : Facts) :
    f.provideAll b =
      { f with
        providedCorr := f.providedCorr.addAll b.providedCorr.entries
        providedVar := f.providedVar.addPaths b.providedVar.paths } := by
  rw [provideAll, foldl_provide_corr hb.providedCorr.all,
    foldl_provide_var fun p hp => hb.provided_path hp]

theorem needAll_eq (hb : b.Apart) (f : Facts) :
    f.needAll b =
      { f with
        neededVar := f.neededVar.addPaths b.neededVar.paths
        neededCorr := f.neededCorr.addPaths b.neededCorr.paths } := by
  have hvar : ((b.neededCorr.paths ++ b.neededVar.paths).filter fun p => !p.isCorrelation) =
      b.neededVar.paths := by
    rw [List.filter_append, List.filter_eq_nil_iff.2 fun p hp => by rw [hb.needed_path hp]; simp,
      List.filter_eq_self.2 fun p hp => by rw [hb.neededVar_path hp]; rfl, List.nil_append]
  have hcorr : (b.neededCorr.paths ++ b.neededVar.paths).filter Path.isCorrelation =
      b.neededCorr.paths := by
    rw [List.filter_append, List.filter_eq_self.2 fun p hp => hb.needed_path hp,
      List.filter_eq_nil_iff.2 fun p hp => by rw [hb.neededVar_path hp]; simp, List.append_nil]
  rw [needAll, foldl_need_eq, hvar, hcorr]

end Apart

/-! ## Merges -/

theorem sequence_fields (a b : Facts) :
    (a.sequence b).1 =
      { (unmetNeeds a b).foldl need a with
        providedVar := (a.providedVar.removeAll b.invalidated.paths).addPaths b.providedVar.paths
        providedCorr := a.providedCorr.addNewAll b.providedCorr.entries
        invalidated := ((a.invalidated.addPaths b.invalidated.paths).removeAll
          b.providedCorr.paths).removeAll b.providedVar.paths } := by
  simp only [sequence, foldl_need_eq, invalidateAll, foldl_invalidate, foldl_rebind,
    foldl_rebindVar]
  rfl

theorem handler_fields (a : Facts) (hb : b.Apart) :
    a.handler b =
      { (unmetNeeds a b).foldl need a with
        providedVar := (a.providedVar.removeAll b.invalidated.paths).addPaths b.providedVar.paths
        providedCorr := a.providedCorr.addAll b.providedCorr.entries
        invalidated := (a.invalidated.addPaths b.invalidated.paths).removeAll
          (b.providedVar.paths ++ b.providedCorr.paths) } := by
  simp only [handler, foldl_need_eq, invalidateAll, foldl_invalidate, foldl_revalidate,
    hb.provideAll_eq]

theorem parallel_eq (a : Facts) (hb : b.Apart) :
    (a.parallel b).1 =
      { providedVar := (a.providedVar.removeAll b.invalidated.paths).addPaths
          (b.providedVar.paths.filter fun p => !a.invalidated.contains p)
        providedCorr := a.providedCorr.addNewAll b.providedCorr.entries
        neededVar := a.neededVar.addPaths b.neededVar.paths
        neededCorr := a.neededCorr.addPaths b.neededCorr.paths
        invalidated := a.invalidated.addPaths b.invalidated.paths } := by
  simp only [parallel, hb.needAll_eq, invalidateAll, foldl_invalidate, foldl_provideNew,
    foldl_provideVar]

/-- The conflicts of a sequence are the keys that both parts provide. -/
theorem mem_conflicts (a b : Facts) (k : String) :
    k ∈ (a.sequence b).2.map Path.key ↔ k ∈ a.providedCorr.keys ∧ k ∈ b.providedCorr.keys := by
  show k ∈ (clashes a b.providedCorr.entries).map Path.key ↔ _
  simp only [clashes, List.mem_map, List.mem_filter, PathSet.contains_iff, PathSet.keys]
  constructor
  · rintro ⟨_, ⟨e, ⟨he, ha⟩, rfl⟩, rfl⟩
    exact ⟨ha, e, he, rfl⟩
  · rintro ⟨ha, e, he, rfl⟩
    exact ⟨e.path, ⟨e, ⟨he, ha⟩, rfl⟩, rfl⟩

section Parallel

variable (a) (hb : b.Apart)
include hb

theorem parallel_providedVar :
    k ∈ (a.parallel b).1.providedVar.keys ↔
      (k ∈ a.providedVar.keys ∧ k ∉ b.invalidated.keys) ∨
        (k ∈ b.providedVar.keys ∧ k ∉ a.invalidated.keys) := by
  rw [parallel_eq a hb, PathSet.mem_keys_addPaths, PathSet.mem_keys_removeAll,
    ← PathSet.keys_eq_map_paths, PathSet.keys_eq_map_paths b.providedVar]
  refine or_congr_right ?_
  simp only [List.mem_map, List.mem_filter, Bool.not_eq_true', PathSet.contains_eq_false_iff]
  constructor
  · rintro ⟨p, ⟨hp, hi⟩, rfl⟩
    exact ⟨⟨p, hp, rfl⟩, hi⟩
  · rintro ⟨⟨p, hp, rfl⟩, hi⟩
    exact ⟨p, ⟨hp, hi⟩, rfl⟩

theorem parallel_providedCorr :
    k ∈ (a.parallel b).1.providedCorr.keys ↔ k ∈ a.providedCorr.keys ∨ k ∈ b.providedCorr.keys := by
  rw [parallel_eq a hb, PathSet.mem_keys_addNewAll]; rfl

theorem parallel_freshAt :
    (a.parallel b).1.providedCorr.freshAt k = true ↔ a.providedCorr.freshAt k = true ∨
      (k ∉ a.providedCorr.keys ∧ b.providedCorr.freshAt k = true) := by
  rw [parallel_eq a hb, PathSet.freshAt_addNewAll hb.providedCorr.nodup, ← PathSet.freshAt_iff]

theorem parallel_neededVar :
    k ∈ (a.parallel b).1.neededVar.keys ↔ k ∈ a.neededVar.keys ∨ k ∈ b.neededVar.keys := by
  rw [parallel_eq a hb, PathSet.mem_keys_addPaths, ← PathSet.keys_eq_map_paths]

theorem parallel_neededCorr :
    k ∈ (a.parallel b).1.neededCorr.keys ↔ k ∈ a.neededCorr.keys ∨ k ∈ b.neededCorr.keys := by
  rw [parallel_eq a hb, PathSet.mem_keys_addPaths, ← PathSet.keys_eq_map_paths]

theorem parallel_invalidated :
    k ∈ (a.parallel b).1.invalidated.keys ↔ k ∈ a.invalidated.keys ∨ k ∈ b.invalidated.keys := by
  rw [parallel_eq a hb, PathSet.mem_keys_addPaths, ← PathSet.keys_eq_map_paths]

end Parallel

theorem Apart.parallel (ha : a.Apart) (hb : b.Apart) : (a.parallel b).1.Apart := by
  rw [parallel_eq a hb]
  refine ⟨?_, ?_, ?_, ?_, ?_⟩
  · exact ha.providedVar.removeAll.addPaths fun p hp => hb.provided_path (List.mem_filter.1 hp).1
  · exact ha.providedCorr.addNewAll hb.providedCorr.all fun _ _ h => h
  · exact ha.neededVar.addPaths fun p hp => hb.neededVar_path hp
  · exact ha.neededCorr.addPaths fun p hp => hb.needed_path hp
  · exact ha.invalidated.addPaths fun _ _ => trivial

end Sessions.Facts
