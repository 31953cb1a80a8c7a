import Sessions.Proofs.Facts.Handler

/-!
# Sessions.Proofs.Facts.Parallel

Any number of parts in no relative order. They are put together from the left, each one with all
before it (`together`), and `Pooled` says without an order what must come out: one part adds to it
what two parts amount to, so by induction the fold pools all of them. What is `Pooled` does not
change with the order of the parts, so that neither does the result (`together_perm`).
-/

namespace Sessions.Facts

variable {a b f g : Facts} {fs gs : List Facts} {r r' : Facts × List Path} {k : String}

theorem count_conflicts (a : Facts) (hb : b.Apart) :
    ((a.parallel b).2.map Path.key).count k =
      if k ∈ a.providedCorr.keys ∧ k ∈ b.providedCorr.keys then 1 else 0 := by
  have hmem : k ∈ (a.parallel b).2.map Path.key ↔
      k ∈ a.providedCorr.keys ∧ k ∈ b.providedCorr.keys := mem_conflicts a b k
  have hnodup : ((a.parallel b).2.map Path.key).Nodup := by
    show ((clashes a b.providedCorr.entries).map Path.key).Nodup
    rw [clashes, List.map_map]
    exact hb.providedCorr.nodup.sublist (List.filter_sublist.map _)
  rw [hnodup.count]
  simp only [hmem]

/-! ## Any number of parts -/

/-- One more part, in no order relative to those that are put together already. -/
def joinNext (r : Facts × List Path) (g : Facts) : Facts × List Path :=
  ((r.1.parallel g).1, r.2 ++ (r.1.parallel g).2)

/-- The parts put together from the left, and all conflicts on the way. -/
def together (f : Facts) (fs : List Facts) : Facts × List Path :=
  fs.foldl joinNext (f, [])

/-- How many of the parts provide a correlation path. -/
def providers (k : String) (fs : List Facts) : Nat :=
  fs.countP fun f => decide (k ∈ f.providedCorr.keys)

theorem providers_append (k : String) (fs : List Facts) (g : Facts) :
    providers k (fs ++ [g]) = providers k fs + if k ∈ g.providedCorr.keys then 1 else 0 := by
  rw [providers, List.countP_append, List.countP_singleton, providers]
  simp only [decide_eq_true_eq]

/-- What parts in no relative order amount to. -/
structure Pooled (fs : List Facts) (r : Facts × List Path) : Prop where
  apart : r.1.Apart
  /-- An ordinary path is provided by one part, and no other part loses the track of it. -/
  providedVar : ∀ k, k ∈ r.1.providedVar.keys ↔ ∃ f others, fs.Perm (f :: others) ∧
    k ∈ f.providedVar.keys ∧ ∀ g ∈ others, k ∉ g.invalidated.keys
  providedCorr : ∀ k, k ∈ r.1.providedCorr.keys ↔ 0 < providers k fs
  conflicts : ∀ k, (r.2.map Path.key).count k = providers k fs - 1
  fresh : ∀ k, providers k fs = 1 →
    (r.1.providedCorr.freshAt k = true ↔ ∃ f ∈ fs, f.providedCorr.freshAt k = true)
  neededVar : ∀ k, k ∈ r.1.neededVar.keys ↔ ∃ f ∈ fs, k ∈ f.neededVar.keys
  neededCorr : ∀ k, k ∈ r.1.neededCorr.keys ↔ ∃ f ∈ fs, k ∈ f.neededCorr.keys
  invalidated : ∀ k, k ∈ r.1.invalidated.keys ↔ ∃ f ∈ fs, k ∈ f.invalidated.keys

/-- Either the last element is set against all others, or one of the others is and the last one is
among those that it is set against. -/
theorem exists_against_append {α : Type} {P Q : α → Prop} (l : List α) (x : α) :
    (∃ y others, (l ++ [x]).Perm (y :: others) ∧ P y ∧ ∀ z ∈ others, Q z) ↔
      ((∃ y others, l.Perm (y :: others) ∧ P y ∧ ∀ z ∈ others, Q z) ∧ Q x) ∨
        (P x ∧ ∀ z ∈ l, Q z) := by
  constructor
  · rintro ⟨y, others, hperm, hy, hothers⟩
    have hmem : y ∈ l ++ [x] := hperm.mem_iff.2 List.mem_cons_self
    rcases List.mem_append.1 hmem with hmem | hmem
    · obtain ⟨before, after, rfl⟩ := List.append_of_mem hmem
      have hrest : others.Perm (before ++ after ++ [x]) := by
        have hmiddle : (before ++ y :: after ++ [x]).Perm (y :: (before ++ after ++ [x])) := by
          rw [List.append_assoc, List.append_assoc]
          exact List.perm_middle
        exact ((hmiddle.symm.trans hperm).cons_inv).symm
      refine .inl ⟨⟨y, before ++ after, List.perm_middle, hy, fun z hz => ?_⟩, ?_⟩
      · exact hothers z (hrest.mem_iff.2 (List.mem_append_left _ hz))
      · exact hothers x (hrest.mem_iff.2 (List.mem_append_right _ List.mem_cons_self))
    · obtain rfl := List.mem_singleton.1 hmem
      have hrest : l.Perm others := (List.perm_append_singleton y l).symm.trans hperm |>.cons_inv
      exact .inr ⟨hy, fun z hz => hothers z (hrest.mem_iff.1 hz)⟩
  · rintro (⟨⟨y, others, hperm, hy, hothers⟩, hx⟩ | ⟨hx, hall⟩)
    · refine ⟨y, others ++ [x], hperm.append_right [x], hy, fun z hz => ?_⟩
      rcases List.mem_append.1 hz with hz | hz
      · exact hothers z hz
      · rwa [List.mem_singleton.1 hz]
    · exact ⟨x, l, List.perm_append_singleton x l, hx, hall⟩

namespace Pooled

theorem singleton (hf : f.Apart) : Pooled [f] (f, []) := by
  have hcount (k : String) : providers k [f] = if k ∈ f.providedCorr.keys then 1 else 0 := by
    rw [← List.nil_append [f], providers_append]
    exact Nat.zero_add _
  have hone (P : Facts → Prop) : P f ↔ ∃ x ∈ [f], P x := by
    simp only [List.mem_singleton, exists_eq_left]
  refine ⟨hf, fun k => ?_, fun k => ?_, fun k => ?_,
    fun k _ => hone fun x => x.providedCorr.freshAt k = true,
    fun k => hone fun x => k ∈ x.neededVar.keys, fun k => hone fun x => k ∈ x.neededCorr.keys,
    fun k => hone fun x => k ∈ x.invalidated.keys⟩
  · constructor
    · intro hk
      exact ⟨f, [], .refl _, hk, fun _ h => (List.not_mem_nil h).elim⟩
    · rintro ⟨x, others, hperm, hx, -⟩
      obtain ⟨rfl, -⟩ := List.cons.inj (List.singleton_perm.1 hperm)
      exact hx
  · rw [hcount]
    by_cases hk : k ∈ f.providedCorr.keys <;> simp [hk]
  · rw [hcount]
    by_cases hk : k ∈ f.providedCorr.keys <;> simp [hk]

theorem next (h : Pooled fs r) (hg : g.Apart) : Pooled (fs ++ [g]) (joinNext r g) := by
  refine ⟨h.apart.parallel hg, fun k => ?_, fun k => ?_, fun k => ?_, fun k hone => ?_, fun k => ?_,
    fun k => ?_, fun k => ?_⟩
  · show k ∈ (r.1.parallel g).1.providedVar.keys ↔ _
    rw [parallel_providedVar r.1 hg, exists_against_append, h.providedVar, h.invalidated]
    simp only [not_exists, not_and]
  · show k ∈ (r.1.parallel g).1.providedCorr.keys ↔ _
    rw [parallel_providedCorr r.1 hg, h.providedCorr, providers_append]
    split
    · next hk => simp [hk]
    · next hk => simp [hk]
  · show ((r.2 ++ (r.1.parallel g).2).map Path.key).count k = _
    rw [List.map_append, List.count_append, h.conflicts, count_conflicts r.1 hg, providers_append]
    have hr := h.providedCorr k
    by_cases hk : k ∈ g.providedCorr.keys
    · simp only [hk, hr, and_true, if_true]
      split <;> omega
    · simp only [hk, and_false, if_false, Nat.add_zero]
  · show (r.1.parallel g).1.providedCorr.freshAt k = true ↔ _
    rw [providers_append] at hone
    rw [parallel_freshAt r.1 hg, exists_mem_concat, h.providedCorr]
    by_cases hk : k ∈ g.providedCorr.keys
    · -- The new part is the only one that provides the key.
      rw [if_pos hk] at hone
      have hnone : providers k fs = 0 := Nat.succ.inj hone
      have hr : k ∉ r.1.providedCorr.keys := by
        rw [h.providedCorr, hnone]
        exact Nat.lt_irrefl 0
      have hfs : ∀ x ∈ fs, x.providedCorr.freshAt k = false := fun x hx =>
        PathSet.freshAt_eq_false fun hkx =>
          List.countP_eq_zero.1 hnone x hx (decide_eq_true hkx)
      have hstale : ¬ ∃ x ∈ fs, x.providedCorr.freshAt k = true := by
        rintro ⟨x, hx, hfresh⟩
        exact Bool.false_ne_true ((hfs x hx).symm.trans hfresh)
      simp only [PathSet.freshAt_eq_false hr, hnone, hstale, Nat.lt_irrefl, not_false_eq_true,
        true_and, Bool.false_eq_true]
    · rw [if_neg hk, Nat.add_zero] at hone
      rw [h.fresh k hone, PathSet.freshAt_eq_false hk]
      simp only [Bool.false_eq_true, and_false, or_false]
  · rw [exists_mem_concat, ← h.neededVar]
    exact parallel_neededVar r.1 hg
  · rw [exists_mem_concat, ← h.neededCorr]
    exact parallel_neededCorr r.1 hg
  · rw [exists_mem_concat, ← h.invalidated]
    exact parallel_invalidated r.1 hg

theorem foldl (h : Pooled fs r) (hgs : ∀ g ∈ gs, g.Apart) :
    Pooled (fs ++ gs) (gs.foldl joinNext r) := by
  induction gs generalizing fs r with
  | nil =>
    rw [List.append_nil]
    exact h
  | cons g rest ih =>
    obtain ⟨hg, hrest⟩ := List.forall_mem_cons.1 hgs
    rw [List.append_cons]
    exact ih (h.next hg) hrest

theorem perm (h : Pooled fs r) (hperm : fs.Perm gs) : Pooled gs r := by
  have hcount (k : String) : providers k gs = providers k fs := hperm.symm.countP_eq _
  refine ⟨h.apart, fun k => ?_, fun k => ?_, fun k => ?_, fun k hone => ?_, fun k => ?_,
    fun k => ?_, fun k => ?_⟩
  · rw [h.providedVar]
    refine exists₂_congr fun f others => and_congr_left' ⟨hperm.symm.trans, hperm.trans⟩
  · rw [hcount, h.providedCorr]
  · rw [hcount, h.conflicts]
  · rw [h.fresh k (hcount k ▸ hone)]
    simp only [hperm.mem_iff]
  · simp only [h.neededVar, hperm.mem_iff]
  · simp only [h.neededCorr, hperm.mem_iff]
  · simp only [h.invalidated, hperm.mem_iff]

end Pooled

theorem together_pooled (h : ∀ x ∈ f :: fs, x.Apart) : Pooled (f :: fs) (together f fs) := by
  obtain ⟨hf, hfs⟩ := List.forall_mem_cons.1 h
  exact (Pooled.singleton hf).foldl hfs

/-- The same keys in every field. -/
structure SameKeys (f g : Facts) : Prop where
  providedVar : ∀ k, k ∈ f.providedVar.keys ↔ k ∈ g.providedVar.keys
  providedCorr : ∀ k, k ∈ f.providedCorr.keys ↔ k ∈ g.providedCorr.keys
  neededVar : ∀ k, k ∈ f.neededVar.keys ↔ k ∈ g.neededVar.keys
  neededCorr : ∀ k, k ∈ f.neededCorr.keys ↔ k ∈ g.neededCorr.keys
  invalidated : ∀ k, k ∈ f.invalidated.keys ↔ k ∈ g.invalidated.keys

theorem Pooled.sameKeys (h : Pooled fs r) (h' : Pooled fs r') : r.1.SameKeys r'.1 where
  providedVar k := (h.providedVar k).trans (h'.providedVar k).symm
  providedCorr k := (h.providedCorr k).trans (h'.providedCorr k).symm
  neededVar k := (h.neededVar k).trans (h'.neededVar k).symm
  neededCorr k := (h.neededCorr k).trans (h'.neededCorr k).symm
  invalidated k := (h.invalidated k).trans (h'.invalidated k).symm

/-- Parts in no relative order may be put together in any order: every order gives the same keys,
the same conflicts, and the same flag for a path that one part provides. -/
theorem together_perm (happart : ∀ x ∈ f :: fs, x.Apart) (hperm : (f :: fs).Perm (g :: gs)) :
    Pooled (f :: fs) (together f fs) ∧
    (together f fs).1.SameKeys (together g gs).1 ∧
    ((together f fs).2.map Path.key).Perm ((together g gs).2.map Path.key) ∧
    ∀ k, providers k (f :: fs) = 1 →
      (together f fs).1.providedCorr.freshAt k = (together g gs).1.providedCorr.freshAt k := by
  have hpooled : Pooled (f :: fs) (together f fs) := together_pooled happart
  have hpooled' : Pooled (f :: fs) (together g gs) :=
    (together_pooled fun x hx => happart x (hperm.mem_iff.2 hx)).perm hperm.symm
  refine ⟨hpooled, hpooled.sameKeys hpooled', ?_, fun k hone => ?_⟩
  · rw [List.perm_iff_count]
    intro k
    rw [hpooled.conflicts, hpooled'.conflicts]
  · rw [Bool.eq_iff_iff, hpooled.fresh k hone, hpooled'.fresh k hone]

/-- Three parts that all bind the session id, which is a conflict twice, and of which one loses a
variable that the others initialise. -/
theorem together_perm_login :
    (∀ x ∈ [login, login, welcome], x.Apart) ∧
      [login, login, welcome].Perm [welcome, login, login] ∧
      (together login [login, welcome]).1.SameKeys (together welcome [login, login]).1 ∧
      ((together welcome [login, login]).2.map Path.key).count sessionId.key = 2 ∧
      "user[0]" ∉ (together login [login, welcome]).1.providedVar.keys := by
  have happart : ∀ x ∈ [login, login, welcome], x.Apart := by decide +kernel
  have hperm : [login, login, welcome].Perm [welcome, login, login] :=
    List.perm_append_singleton welcome [login, login]
  obtain ⟨hpooled, hsame, hconflicts, -⟩ := together_perm happart hperm
  refine ⟨happart, hperm, hsame, ?_, by decide +kernel⟩
  rw [← hconflicts.count_eq, hpooled.conflicts]
  decide +kernel

end Sessions.Facts
