import Sessions.Proofs.Facts.Merge
import Sessions.Proofs.Program.Trace

/-!
# Sessions.Proofs.Facts.Account

When facts tell the truth about traces. `Covers` compares facts with one trace: what the trace uses
before it is initialised is needed, what the trace initialises is provided and nothing else is, and
what is fresh got a fresh value. `Accounts` says so of all traces of a language, and each merge of
facts accounts for the corresponding combination of traces, as long as there is no conflict to
report.

Keys are initialised at most once, apart from those in `again`, which may be initialised twice.
-/

namespace Sessions.Facts

open Computability Event

variable {again : String → Prop} {f g : Facts} {t u v : List Event} {T U : Language Event}
  {k : String}

/-- The facts agree with what happens in the trace. -/
structure Covers (again : String → Prop) (f : Facts) (t : List Event) : Prop where
  needs : ∀ k, Unguarded k t → k ∈ f.neededCorr.keys
  provides : ∀ k, k ∈ f.providedCorr.keys ↔ 0 < inits k t
  fresh : ∀ k, f.providedCorr.freshAt k = true → .init k true ∈ t
  twice : ∀ k, inits k t ≤ 2
  once : ∀ k, ¬ again k → inits k t ≤ 1

theorem Covers.inits_eq_zero (h : Covers again f t) (hk : k ∉ f.providedCorr.keys) :
    inits k t = 0 := by
  rw [h.provides, Nat.not_lt, Nat.le_zero] at hk
  exact hk

/-! ## Traces one after the other -/

/-- An unguarded use in one trace after the other is one that neither provides for. -/
theorem Covers.needs_append (hf : f.Clean) (ht : Covers again f t) (hu : Covers again g u)
    (h : Unguarded k (t ++ u)) :
    k ∈ f.neededCorr.keys ∨ (k ∈ g.neededCorr.keys ∧ ¬ f.Available k) := by
  rcases unguarded_append h with h | ⟨hi, h⟩
  · exact .inl (ht.needs k h)
  · refine .inr ⟨hu.needs k h, ?_⟩
    rw [hf.available_iff, ht.provides, hi]
    exact Nat.lt_irrefl 0

theorem Covers.provides_append (ht : Covers again f t) (hu : Covers again g u) :
    k ∈ f.providedCorr.keys ∨ k ∈ g.providedCorr.keys ↔ 0 < inits k (t ++ u) := by
  rw [ht.provides, hu.provides, inits_append]
  omega

/-- Without a clash, all initialisations of a key are in one of the two traces. -/
theorem Covers.apart (ht : Covers again f t) (hu : Covers again g u)
    (h : ∀ k ∈ g.providedCorr.keys, k ∉ f.providedCorr.keys) (k : String) :
    inits k (t ++ u) ≤ 2 ∧ (¬ again k → inits k (t ++ u) ≤ 1) := by
  rw [inits_append]
  by_cases hk : k ∈ g.providedCorr.keys
  · rw [ht.inits_eq_zero (h k hk), Nat.zero_add]
    exact ⟨hu.twice k, hu.once k⟩
  · rw [hu.inits_eq_zero hk, Nat.add_zero]
    exact ⟨ht.twice k, ht.once k⟩

theorem Covers.sequence (hf : f.Clean) (hg : g.Clean) (ht : Covers again f t)
    (hu : Covers again g u) (h : (f.sequence g).2 = []) :
    Covers again (f.sequence g).1 (t ++ u) := by
  have hapart := ht.apart hu ((sequence_clashes f g).1 h)
  refine ⟨fun k hk => ?_, fun k => ?_, fun k hk => ?_, fun k => (hapart k).1, fun k => (hapart k).2⟩
  · rw [sequence_neededCorr f hg.wellFormed]
    exact ht.needs_append hf hu hk
  · rw [sequence_providedCorr f hg.wellFormed, ht.provides_append hu]
  · rw [sequence_freshAt f hg.wellFormed] at hk
    rcases hk with hk | ⟨-, hk⟩
    · exact List.mem_append_left _ (ht.fresh k hk)
    · exact List.mem_append_right _ (hu.fresh k hk)

/-- A handler may initialise once more what its operation initialises. -/
theorem Covers.handler (hf : f.Clean) (hg : g.Clean) (ht : Covers again f t)
    (hu : Covers again g u)
    (h : ∀ k, inits k (t ++ u) ≤ 2 ∧ (¬ again k → inits k (t ++ u) ≤ 1)) :
    Covers again (f.handler g) (t ++ u) := by
  refine ⟨fun k hk => ?_, fun k => ?_, fun k hk => ?_, fun k => (h k).1, fun k => (h k).2⟩
  · rw [handler_neededCorr f hg.wellFormed]
    exact ht.needs_append hf hu hk
  · rw [handler_providedCorr f hg.wellFormed, ht.provides_append hu]
  · rw [handler_freshAt f hg.wellFormed] at hk
    rcases hk with hk | hk
    · exact List.mem_append_left _ (ht.fresh k hk)
    · exact List.mem_append_right _ (hu.fresh k hk)

/-! ## Other combinations of traces -/

theorem Covers.parallel (hg : g.Clean) (ht : Covers again f t) (hu : Covers again g u)
    (h : (f.parallel g).2 = []) (hv : Interleaves t u v) : Covers again (f.parallel g).1 v := by
  have hapart := ht.apart hu ((sequence_clashes f g).1 h)
  simp only [← inits_interleaves hv] at hapart
  refine ⟨fun k hk => ?_, fun k => ?_, fun k hk => ?_, fun k => (hapart k).1, fun k => (hapart k).2⟩
  · rw [parallel_neededCorr f hg.wellFormed.apart]
    exact (unguarded_interleaves hv hk).imp (ht.needs k) (hu.needs k)
  · rw [parallel_providedCorr f hg.wellFormed.apart, ht.provides_append hu, inits_interleaves hv]
  · rw [hv.perm.mem_iff]
    rw [parallel_freshAt f hg.wellFormed.apart] at hk
    rcases hk with hk | ⟨-, hk⟩
    · exact List.mem_append_left _ (ht.fresh k hk)
    · exact List.mem_append_right _ (hu.fresh k hk)

section Choice

variable (hf : f.Clean) (hg : g.Clean) (h : (f.choice g).2 = [])
include h

omit hf hg in
/-- Branches that agree provide the same paths. -/
theorem provided_of_agree : k ∈ f.providedCorr.keys ↔ k ∈ g.providedCorr.keys := by
  have hk := choice_mismatches (k := k) f g
  rw [h, List.map_nil] at hk
  have := hk.not.1 List.not_mem_nil
  grind

include hf hg

theorem Covers.choice_left (ht : Covers again f t) : Covers again (f.choice g).1 t := by
  refine ⟨fun k hk => ?_, fun k => ?_, fun k hk => ?_, ht.twice, ht.once⟩
  · exact (choice_neededCorr hf.wellFormed hg.wellFormed).2 (.inl (ht.needs k hk))
  · rw [choice_providedCorr hf.wellFormed hg.wellFormed, ← provided_of_agree h, or_self,
      ht.provides]
  · rcases (choice_freshAt hf.wellFormed hg.wellFormed).1 hk with ⟨hk, -⟩ | ⟨hk, hk'⟩
    · exact ht.fresh k hk
    · exact absurd ((provided_of_agree h).2 (PathSet.mem_keys_of_freshAt hk')) hk

theorem Covers.choice_right (hu : Covers again g u) : Covers again (f.choice g).1 u := by
  refine ⟨fun k hk => ?_, fun k => ?_, fun k hk => ?_, hu.twice, hu.once⟩
  · exact (choice_neededCorr hf.wellFormed hg.wellFormed).2 (.inr (hu.needs k hk))
  · rw [choice_providedCorr hf.wellFormed hg.wellFormed, provided_of_agree h, or_self,
      hu.provides]
  · rcases (choice_freshAt hf.wellFormed hg.wellFormed).1 hk with ⟨hk, hk'⟩ | ⟨-, hk⟩
    · exact hu.fresh k (hk' ((provided_of_agree h).1 (PathSet.mem_keys_of_freshAt hk)))
    · exact hu.fresh k hk

end Choice

theorem Covers.nil (h : f.providedCorr.isEmpty = true) : Covers again f [] := by
  rw [PathSet.isEmpty_iff] at h
  refine ⟨fun _ hk => hk.elim, fun k => ?_, fun k hk => ?_, fun _ => Nat.zero_le _,
    fun _ _ => Nat.zero_le _⟩
  · exact ⟨fun hk => (h k hk).elim, fun hk => (Nat.lt_irrefl 0 hk).elim⟩
  · exact (h k (PathSet.mem_keys_of_freshAt hk)).elim

/-- Where nothing is initialised, another turn needs nothing new. -/
theorem Covers.turn (h : f.providedCorr.isEmpty = true) (ht : Covers again f t)
    (hu : Covers again f u) : Covers again f (t ++ u) := by
  rw [PathSet.isEmpty_iff] at h
  have hapart := ht.apart hu fun k hk => (h k hk).elim
  refine ⟨fun k hk => ?_, fun k => ?_, fun k hk => ?_, fun k => (hapart k).1, fun k => (hapart k).2⟩
  · exact (unguarded_append hk).elim (ht.needs k) fun hk => hu.needs k hk.2
  · rw [← ht.provides_append hu, or_self]
  · exact (h k (PathSet.mem_keys_of_freshAt hk)).elim

/-! ## Languages of traces -/

/-- Nothing was lost, and the facts agree with every trace. -/
structure Accounts (again : String → Prop) (f : Facts) (T : Language Event) : Prop where
  clean : f.Clean
  covers : ∀ t ∈ T, Covers again f t

namespace Accounts

theorem weaken {again' : String → Prop} (h : Accounts again f T) (hle : ∀ k, again k → again' k) :
    Accounts again' f T where
  clean := h.clean
  covers t ht :=
    { h.covers t ht with once := fun k hk => (h.covers t ht).once k fun hk' => hk (hle k hk') }

theorem mono (h : Accounts again f T) (hle : ∀ t ∈ U, t ∈ T) : Accounts again f U :=
  ⟨h.clean, fun t ht => h.covers t (hle t ht)⟩

/-! ### Single activities -/

theorem nothing (hf : f.Clean) (h : f.providedCorr.isEmpty = true) : Accounts again f 1 :=
  ⟨hf, fun _ ht => ht ▸ Covers.nil h⟩

theorem empty : Accounts again Facts.empty 1 :=
  .nothing .empty rfl

theorem provide {p : Path} (hp : p.isCorrelation = true) (fresh : Bool) :
    Accounts again (Facts.empty.provide p fresh) {[.init p.key fresh]} := by
  refine ⟨.provide p fresh, fun t ht => ?_⟩
  obtain rfl : t = [.init p.key fresh] := ht
  have hcount (k : String) : inits k [.init p.key fresh] = [p.key].count k :=
    inits_inits [p.key] fresh
  rw [Facts.provide, if_pos hp]
  refine ⟨fun k hk => hk.2.elim, fun k => ?_, fun k hk => ?_, fun k => ?_, fun k _ => ?_⟩
  · rw [hcount, List.count_pos_iff, PathSet.mem_keys_add, List.mem_singleton]
    exact or_iff_right List.not_mem_nil
  · rw [PathSet.freshAt_add] at hk
    rcases hk with hk | ⟨rfl, rfl⟩
    · cases hk
    · exact List.mem_singleton_self _
  · rw [hcount]
    exact List.count_le_length.trans (by simp)
  · rw [hcount]
    exact List.count_le_length

theorem uses {ps : List Path} (hf : Facts.Clean { neededCorr := PathSet.empty.addPaths ps }) :
    Accounts again { neededCorr := PathSet.empty.addPaths ps } {(ps.map Path.key).map .use} := by
  refine ⟨hf, fun t ht => ?_⟩
  obtain rfl : t = (ps.map Path.key).map .use := ht
  refine ⟨fun k hk => ?_, fun k => ?_, fun k hk => ?_, fun k => ?_, fun k _ => ?_⟩
  · exact PathSet.mem_keys_addPaths.2 (.inr (unguarded_uses hk))
  · rw [inits_uses]
    exact ⟨fun hk => (List.not_mem_nil hk).elim, fun hk => (Nat.lt_irrefl 0 hk).elim⟩
  · cases hk
  · rw [inits_uses]
    exact Nat.zero_le 2
  · rw [inits_uses]
    exact Nat.zero_le 1

theorem receives {ps : List Path} (hf : Facts.Clean { providedCorr := PathSet.empty.addPaths ps }) :
    Accounts again { providedCorr := PathSet.empty.addPaths ps }
      {(ps.map Path.key).dedup.map (.init · false)} := by
  refine ⟨hf, fun t ht => ?_⟩
  obtain rfl : t = (ps.map Path.key).dedup.map (.init · false) := ht
  have hone (k : String) : (ps.map Path.key).dedup.count k ≤ 1 :=
    List.nodup_iff_count_le_one.1 (List.nodup_dedup _) k
  refine ⟨fun k hk => (not_unguarded_inits hk).elim, fun k => ?_, fun k hk => ?_, fun k => ?_,
    fun k _ => ?_⟩
  · rw [inits_inits, List.count_pos_iff, List.mem_dedup, PathSet.mem_keys_addPaths,
      PathSet.keys_empty]
    exact or_iff_right List.not_mem_nil
  · have hstale : (PathSet.empty.addPaths ps).Holds fun e => e.fresh = false :=
      PathSet.Holds.empty.addPaths fun _ _ => rfl
    obtain ⟨e, he, -, hfresh⟩ := PathSet.freshAt_iff.1 hk
    rw [hstale.all e he] at hfresh
    cases hfresh
  · rw [inits_inits]
    exact (hone k).trans (Nat.le_succ 1)
  · rw [inits_inits]
    exact hone k

/-! ### Compound activities -/

theorem sequence (hf : Accounts again f T) (hg : Accounts again g U) (h : (f.sequence g).2 = []) :
    Accounts again (f.sequence g).1 (T * U) := by
  refine ⟨hf.clean.sequence hg.clean, fun v hv => ?_⟩
  obtain ⟨t, ht, u, hu, rfl⟩ := Language.mem_mul.1 hv
  exact (hf.covers t ht).sequence hf.clean hg.clean (hg.covers u hu) h

theorem parallel (hf : Accounts again f T) (hg : Accounts again g U) (h : (f.parallel g).2 = []) :
    Accounts again (f.parallel g).1 (interleavings T U) := by
  refine ⟨hf.clean.parallel hg.clean, fun v hv => ?_⟩
  obtain ⟨t, ht, u, hu, hv⟩ := hv
  exact (hf.covers t ht).parallel hg.clean (hg.covers u hu) h hv

theorem choice (hf : Accounts again f T) (hg : Accounts again g U) (h : (f.choice g).2 = []) :
    Accounts again (f.choice g).1 (T + U) := by
  refine ⟨hf.clean.choice hg.clean, fun t ht => ?_⟩
  rcases ht with ht | ht
  · exact (hf.covers t ht).choice_left hf.clean hg.clean h
  · exact (hg.covers t ht).choice_right hf.clean hg.clean h

theorem loop (hf : Accounts again f T) (h : f.providedCorr.isEmpty = true) :
    Accounts again f T∗ := by
  refine ⟨hf.clean, fun t ht => ?_⟩
  obtain ⟨turns, rfl, hturns⟩ := Language.mem_kstar.1 ht
  clear ht
  induction turns with
  | nil => exact .nil h
  | cons turn rest ih =>
    obtain ⟨hturn, hrest⟩ := List.forall_mem_cons.1 hturns
    exact (hf.covers turn hturn).turn h (ih hrest)

/-- Without a clash no key is initialised in traces of both languages. -/
theorem parted (hf : Accounts again f T) (hg : Accounts again g U) (h : (f.sequence g).2 = []) :
    Parted T U := by
  intro t ht u hu k
  by_cases hk : k ∈ g.providedCorr.keys
  · exact .inl ((hf.covers t ht).inits_eq_zero ((sequence_clashes f g).1 h k hk))
  · exact .inr ((hg.covers u hu).inits_eq_zero hk)

/-- The handler of an operation that initialises nothing. -/
theorem handler (hf : Accounts again f T) (hg : Accounts again g U)
    (h : f.providedCorr.isEmpty = true) : Accounts again (f.handler g) (T * U) := by
  rw [PathSet.isEmpty_iff] at h
  refine ⟨hf.clean.handler hg.clean, fun v hv => ?_⟩
  obtain ⟨t, ht, u, hu, rfl⟩ := Language.mem_mul.1 hv
  have ht := hf.covers t ht
  have hu := hg.covers u hu
  exact ht.handler hf.clean hg.clean hu (ht.apart hu fun k _ => h k)

/-- The handler of an operation that starts a session may initialise its paths once more. -/
theorem handler_again (hf : Accounts (fun _ => False) f T) (hg : Accounts (fun _ => False) g U)
    (h : ∀ k ∈ f.providedCorr.keys, again k) : Accounts again (f.handler g) (T * U) := by
  refine ⟨hf.clean.handler hg.clean, fun v hv => ?_⟩
  obtain ⟨t, ht, u, hu, rfl⟩ := Language.mem_mul.1 hv
  have ht' : Covers again f t := (hf.weaken fun _ => False.elim).covers t ht
  have hu' : Covers again g u := (hg.weaken fun _ => False.elim).covers u hu
  refine ht'.handler hf.clean hg.clean hu' fun k => ?_
  have hone := (hf.covers t ht).once k id
  have hone' := (hg.covers u hu).once k id
  rw [inits_append]
  refine ⟨by omega, fun hk => ?_⟩
  have := ht'.inits_eq_zero fun hk' => hk (h k hk')
  omega

end Accounts

end Sessions.Facts
