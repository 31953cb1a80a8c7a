import Sessions.Proofs.Facts.Merge

/-!
# Sessions.Proofs.Facts.Algebra

The laws of running one part after another. Nothing after a part changes nothing
(`sequence_empty`); nothing before a part changes nothing exactly if all that the part provides can
still be traced when it ends (`empty_sequence_iff`), since whatever a part provides is taken to be
traced after it.

Three parts may be grouped either way exactly if they are `Regroupable` (`regroup_iff`). Grouped or
not, the result is compared through its keys: `Same` facts have the same keys in every field and the
same fresh values, and every merge keeps them the same.
-/

namespace Sessions.Facts

variable {a b c f : Facts} {k : String}

/-! ## Nothing before and after -/

theorem sequence_empty (f : Facts) : f.sequence empty = (f, []) := rfl

/-- All correlation paths that are provided can be traced. -/
def Tracked (f : Facts) : Prop :=
  ∀ k ∈ f.providedCorr.keys, k ∉ f.invalidated.keys

instance (f : Facts) : Decidable f.Tracked :=
  inferInstanceAs (Decidable (∀ k ∈ f.providedCorr.keys, k ∉ f.invalidated.keys))

theorem unmet_empty (f : Facts) : unmet empty f = f.neededCorr.paths :=
  List.filter_eq_self.2 fun _ _ => rfl

/-- What runs after nothing keeps all its facts, except that what it provides counts as traced. -/
theorem empty_sequence (hf : f.WellFormed) :
    (empty.sequence f).1 =
      { f with invalidated := (f.invalidated.removeAll f.providedCorr.paths) } := by
  have hvar : (PathSet.empty.removeAll f.invalidated.paths) = PathSet.empty :=
    PathSet.removeAll_of_disjoint fun _ _ => List.not_mem_nil
  have htracked : (f.invalidated.removeAll f.providedCorr.paths).removeAll f.providedVar.paths =
      f.invalidated.removeAll f.providedCorr.paths := by
    refine PathSet.removeAll_of_disjoint fun p hp hk => ?_
    exact hf.tracked p.key (PathSet.mem_keys_of_mem_paths hp) (PathSet.mem_keys_removeAll.1 hk).1
  rw [sequence_eq empty hf, unmet_empty]
  show Facts.mk ((PathSet.empty.removeAll f.invalidated.paths).addPaths _)
    (PathSet.empty.addNewAll _) PathSet.empty (PathSet.empty.addPaths _)
    (((PathSet.empty.addPaths _).removeAll _).removeAll _) = _
  rw [hvar, PathSet.addPaths_empty hf.providedVar.nodup fun e he => (hf.providedVar.all e he).2,
    PathSet.addNewAll_empty hf.providedCorr.nodup,
    PathSet.addPaths_empty hf.neededCorr.nodup fun e he => (hf.neededCorr.all e he).2,
    PathSet.addPaths_empty hf.invalidated.nodup hf.invalidated.all, htracked, ← hf.neededVar]

theorem empty_sequence_clashes (f : Facts) : (empty.sequence f).2 = [] :=
  (sequence_clashes empty f).2 fun _ _ => List.not_mem_nil

/-- Nothing before a part changes nothing exactly if all that it provides can be traced. -/
theorem empty_sequence_iff (hf : f.WellFormed) : empty.sequence f = (f, []) ↔ f.Tracked := by
  rw [Prod.ext_iff, empty_sequence hf, empty_sequence_clashes]
  constructor
  · rintro ⟨heq, -⟩ k hk hi
    rw [← congrArg Facts.invalidated heq, PathSet.mem_keys_removeAll,
      ← PathSet.keys_eq_map_paths] at hi
    exact hi.2 hk
  · intro h
    refine ⟨?_, rfl⟩
    rw [PathSet.removeAll_of_disjoint fun p hp => h p.key (PathSet.mem_keys_of_mem_paths hp)]

/-! ## A part after itself -/

/-- A part that runs `n` times more after itself, with all clashes on the way. -/
def repeated (r : Facts) : (n : Nat) → Facts × List Path
  | 0 => (r, [])
  | n + 1 =>
    let q := r.repeated n
    let next := q.1.sequence r
    (next.1, q.2 ++ next.2)

/-- A part that provides no correlation path may run twice. What it provides it does not
invalidate, and it needs nothing that it did not need the first time. -/
theorem sequence_self (hf : f.WellFormed) (hcorr : f.providedCorr.isEmpty = true) :
    f.sequence f = (f, []) := by
  have hkey : ∀ {s : PathSet} {p : Path}, p ∈ s.paths → p.key ∈ s.keys :=
    PathSet.mem_keys_of_mem_paths
  have hnone : f.providedCorr.entries = [] := List.isEmpty_iff.1 hcorr
  have hpaths : f.providedCorr.paths = [] := by rw [PathSet.paths, hnone, List.map_nil]
  have hclash : (f.sequence f).2 = [] := by
    rw [sequence_clashes]
    exact fun k _ => PathSet.isEmpty_iff.1 hcorr k
  have hvar : (f.providedVar.removeAll f.invalidated.paths).addPaths f.providedVar.paths =
      f.providedVar := by
    rw [PathSet.removeAll_of_disjoint, PathSet.addPaths_of_mem fun p => hkey]
    exact fun p hp hv => hf.tracked p.key hv (hkey hp)
  have hneeded : f.neededCorr.addPaths (unmet f f) = f.neededCorr :=
    PathSet.addPaths_of_mem fun p hp => hkey (List.mem_of_mem_filter hp)
  have hinvalidated : ((f.invalidated.addPaths f.invalidated.paths).removeAll
      f.providedCorr.paths).removeAll f.providedVar.paths = f.invalidated := by
    rw [PathSet.addPaths_of_mem fun p => hkey, hpaths]
    exact PathSet.removeAll_of_disjoint fun p hp => hf.tracked p.key (hkey hp)
  refine Prod.ext ?_ hclash
  rw [sequence_eq f hf, hvar, hneeded, hinvalidated, hnone]
  rfl

/-- So it may run any number of times. -/
theorem repeated_eq (hf : f.WellFormed) (hcorr : f.providedCorr.isEmpty = true) (n : Nat) :
    f.repeated n = (f, []) := by
  induction n with
  | zero => rfl
  | succ n ih => rw [repeated, ih, sequence_self hf hcorr, List.append_nil]

/-! ## The same facts -/

/-- The same paths in every field, as far as keys tell them apart, and the same fresh values. -/
structure Same (f g : Facts) : Prop where
  providedVar : ∀ k, k ∈ f.providedVar.keys ↔ k ∈ g.providedVar.keys
  providedCorr : ∀ k, k ∈ f.providedCorr.keys ↔ k ∈ g.providedCorr.keys
  fresh : ∀ k, f.providedCorr.freshAt k = true ↔ g.providedCorr.freshAt k = true
  neededVar : ∀ k, k ∈ f.neededVar.keys ↔ k ∈ g.neededVar.keys
  neededCorr : ∀ k, k ∈ f.neededCorr.keys ↔ k ∈ g.neededCorr.keys
  invalidated : ∀ k, k ∈ f.invalidated.keys ↔ k ∈ g.invalidated.keys

namespace Same

variable {a' b' f' : Facts}

theorem refl (f : Facts) : f.Same f :=
  ⟨fun _ => .rfl, fun _ => .rfl, fun _ => .rfl, fun _ => .rfl, fun _ => .rfl, fun _ => .rfl⟩

theorem trans {g h : Facts} (h₁ : f.Same g) (h₂ : g.Same h) : f.Same h where
  providedVar k := (h₁.providedVar k).trans (h₂.providedVar k)
  providedCorr k := (h₁.providedCorr k).trans (h₂.providedCorr k)
  fresh k := (h₁.fresh k).trans (h₂.fresh k)
  neededVar k := (h₁.neededVar k).trans (h₂.neededVar k)
  neededCorr k := (h₁.neededCorr k).trans (h₂.neededCorr k)
  invalidated k := (h₁.invalidated k).trans (h₂.invalidated k)

theorem symm {g : Facts} (h : f.Same g) : g.Same f where
  providedVar k := (h.providedVar k).symm
  providedCorr k := (h.providedCorr k).symm
  fresh k := (h.fresh k).symm
  neededVar k := (h.neededVar k).symm
  neededCorr k := (h.neededCorr k).symm
  invalidated k := (h.invalidated k).symm

theorem available (h : f.Same f') (k : String) : f.Available k ↔ f'.Available k := by
  rw [Available, Available, h.providedCorr, h.invalidated]

theorem of_wellFormed (hf : f.WellFormed) (hf' : f'.WellFormed) (k : String) :
    k ∈ f.neededVar.keys ↔ k ∈ f'.neededVar.keys := by
  rw [hf.neededVar, hf'.neededVar]

section Merge

variable (ha : a.WellFormed) (hb : b.WellFormed) (ha' : a'.WellFormed) (hb' : b'.WellFormed)
  (h : a.Same a') (h' : b.Same b')
include ha hb ha' hb' h h'

theorem sequence : (a.sequence b).1.Same (a'.sequence b').1 where
  providedVar k := by
    rw [sequence_providedVar a hb, sequence_providedVar a' hb', h.providedVar, h'.providedVar,
      h'.invalidated]
  providedCorr k := by
    rw [sequence_providedCorr a hb, sequence_providedCorr a' hb', h.providedCorr, h'.providedCorr]
  fresh k := by
    rw [sequence_freshAt a hb, sequence_freshAt a' hb', h.fresh, h'.fresh, h.providedCorr]
  neededVar := of_wellFormed (ha.sequence hb) (ha'.sequence hb')
  neededCorr k := by
    rw [sequence_neededCorr a hb, sequence_neededCorr a' hb', h.neededCorr, h'.neededCorr,
      h.available]
  invalidated k := by
    rw [sequence_invalidated a hb, sequence_invalidated a' hb', h.invalidated, h'.invalidated,
      h'.providedCorr, h'.providedVar]

theorem parallel : (a.parallel b).1.Same (a'.parallel b').1 where
  providedVar k := by
    rw [parallel_providedVar a hb.apart, parallel_providedVar a' hb'.apart, h.providedVar, h'.providedVar,
      h.invalidated, h'.invalidated]
  providedCorr k := by
    rw [parallel_providedCorr a hb.apart, parallel_providedCorr a' hb'.apart, h.providedCorr, h'.providedCorr]
  fresh k := by
    rw [parallel_freshAt a hb.apart, parallel_freshAt a' hb'.apart, h.fresh, h'.fresh, h.providedCorr]
  neededVar := of_wellFormed (ha.parallel hb) (ha'.parallel hb')
  neededCorr k := by
    rw [parallel_neededCorr a hb.apart, parallel_neededCorr a' hb'.apart, h.neededCorr, h'.neededCorr]
  invalidated k := by
    rw [parallel_invalidated a hb.apart, parallel_invalidated a' hb'.apart, h.invalidated, h'.invalidated]

theorem choice : (a.choice b).1.Same (a'.choice b').1 where
  providedVar k := by
    rw [choice_providedVar ha hb, choice_providedVar ha' hb', h.providedVar, h'.providedVar]
  providedCorr k := by
    rw [choice_providedCorr ha hb, choice_providedCorr ha' hb', h.providedCorr, h'.providedCorr]
  fresh k := by
    rw [choice_freshAt ha hb, choice_freshAt ha' hb', h.fresh, h'.fresh, h.providedCorr,
      h'.providedCorr]
  neededVar := of_wellFormed (ha.choice hb) (ha'.choice hb')
  neededCorr k := by
    rw [choice_neededCorr ha hb, choice_neededCorr ha' hb', h.neededCorr, h'.neededCorr]
  invalidated k := by
    rw [choice_invalidated ha hb, choice_invalidated ha' hb', h.invalidated, h'.invalidated]

theorem handler : (a.handler b).Same (a'.handler b') where
  providedVar k := by
    rw [handler_providedVar a hb, handler_providedVar a' hb', h.providedVar, h'.providedVar,
      h'.invalidated]
  providedCorr k := by
    rw [handler_providedCorr a hb, handler_providedCorr a' hb', h.providedCorr, h'.providedCorr]
  fresh k := by
    rw [handler_freshAt a hb, handler_freshAt a' hb', h.fresh, h'.fresh]
  neededVar := of_wellFormed (ha.handler hb) (ha'.handler hb')
  neededCorr k := by
    rw [handler_neededCorr a hb, handler_neededCorr a' hb', h.neededCorr, h'.neededCorr,
      h.available]
  invalidated k := by
    rw [handler_invalidated a hb, handler_invalidated a' hb', h.invalidated, h'.invalidated,
      h'.providedCorr, h'.providedVar]

end Merge

/-- The same facts clash with the same facts. -/
theorem clashes (h : a.Same a') (h' : b.Same b') :
    (a.sequence b).2 = [] ↔ (a'.sequence b').2 = [] := by
  rw [sequence_clashes, sequence_clashes]
  simp only [h.providedCorr, h'.providedCorr]

end Same

/-! ## Regrouping -/

/-- What it takes for three parts to be grouped either way. -/
structure Regroupable (a b c : Facts) : Prop where
  /-- Of what the second part provides, the third makes untraceable only what it provides again. -/
  provided : ∀ k ∈ b.providedCorr.keys, k ∈ c.invalidated.keys → k ∈ c.providedCorr.keys
  /-- What only the third part needs is available after the first two exactly if it is after one of
  them. -/
  needed : ∀ k ∈ c.neededCorr.keys, k ∉ (a.sequence b).1.neededCorr.keys →
    ((a.sequence b).1.Available k ↔ a.Available k ∨ b.Available k)
  /-- A key that is an ordinary path of the first part, lost its track later and is a correlation
  path of the third part is an ordinary path again in the end. -/
  ordinary : ∀ k ∈ a.providedVar.keys, k ∈ c.providedCorr.keys →
    (k ∈ b.invalidated.keys ∨ k ∈ c.invalidated.keys) → k ∈ (b.sequence c).1.providedVar.keys

section Regroup

variable (a) (hb : b.WellFormed) (hc : c.WellFormed)
include hb hc

theorem regroup_providedVar :
    (∀ k, k ∈ ((a.sequence b).1.sequence c).1.providedVar.keys ↔
      k ∈ (a.sequence (b.sequence c).1).1.providedVar.keys) ↔
    ∀ k ∈ a.providedVar.keys, k ∈ c.providedCorr.keys →
      (k ∈ b.invalidated.keys ∨ k ∈ c.invalidated.keys) →
        k ∈ (b.sequence c).1.providedVar.keys := by
  refine forall_congr' fun k => ?_
  rw [sequence_providedVar _ hc, sequence_providedVar a hb, sequence_providedVar a (hb.sequence hc),
    sequence_invalidated b hc, sequence_providedVar b hc]
  grind

theorem regroup_neededCorr :
    (∀ k, k ∈ ((a.sequence b).1.sequence c).1.neededCorr.keys ↔
      k ∈ (a.sequence (b.sequence c).1).1.neededCorr.keys) ↔
    ∀ k ∈ c.neededCorr.keys, k ∉ (a.sequence b).1.neededCorr.keys →
      ((a.sequence b).1.Available k ↔ a.Available k ∨ b.Available k) := by
  refine forall_congr' fun k => ?_
  rw [sequence_neededCorr _ hc, sequence_neededCorr a hb, sequence_neededCorr a (hb.sequence hc),
    sequence_neededCorr b hc]
  grind

theorem regroup_invalidated :
    (∀ k, k ∈ ((a.sequence b).1.sequence c).1.invalidated.keys ↔
      k ∈ (a.sequence (b.sequence c).1).1.invalidated.keys) ↔
    ∀ k ∈ b.providedCorr.keys, k ∈ c.invalidated.keys → k ∈ c.providedCorr.keys := by
  refine forall_congr' fun k => ?_
  have htracked := hc.tracked k
  rw [sequence_invalidated _ hc, sequence_invalidated a hb, sequence_invalidated a (hb.sequence hc),
    sequence_invalidated b hc, sequence_providedVar b hc, sequence_providedCorr b hc]
  grind

theorem regroup_providedCorr :
    k ∈ ((a.sequence b).1.sequence c).1.providedCorr.keys ↔
      k ∈ (a.sequence (b.sequence c).1).1.providedCorr.keys := by
  rw [sequence_providedCorr _ hc, sequence_providedCorr a hb,
    sequence_providedCorr a (hb.sequence hc), sequence_providedCorr b hc, or_assoc]

theorem regroup_freshAt :
    ((a.sequence b).1.sequence c).1.providedCorr.freshAt k = true ↔
      (a.sequence (b.sequence c).1).1.providedCorr.freshAt k = true := by
  rw [sequence_freshAt _ hc, sequence_freshAt a hb, sequence_freshAt a (hb.sequence hc),
    sequence_freshAt b hc, sequence_providedCorr a hb]
  grind

/-- Three parts give the same facts grouped either way exactly if they are regroupable. -/
theorem regroup_iff (ha : a.WellFormed) :
    ((a.sequence b).1.sequence c).1.Same (a.sequence (b.sequence c).1).1 ↔
      Regroupable a b c := by
  constructor
  · intro h
    exact ⟨(regroup_invalidated a hb hc).1 h.invalidated,
      (regroup_neededCorr a hb hc).1 h.neededCorr, (regroup_providedVar a hb hc).1 h.providedVar⟩
  · intro h
    exact ⟨(regroup_providedVar a hb hc).2 h.ordinary, fun _ => regroup_providedCorr a hb hc,
      fun _ => regroup_freshAt a hb hc,
      Same.of_wellFormed ((ha.sequence hb).sequence hc) (ha.sequence (hb.sequence hc)),
      (regroup_neededCorr a hb hc).2 h.needed, (regroup_invalidated a hb hc).2 h.provided⟩

/-- The clashes do not depend on the grouping. -/
theorem regroup_clashes :
    ((a.sequence b).2 = [] ∧ ((a.sequence b).1.sequence c).2 = []) ↔
      ((b.sequence c).2 = [] ∧ (a.sequence (b.sequence c).1).2 = []) := by
  simp only [sequence_clashes, sequence_providedCorr a hb, sequence_providedCorr b hc, not_or,
    or_imp, forall_and]
  grind

end Regroup

end Sessions.Facts
