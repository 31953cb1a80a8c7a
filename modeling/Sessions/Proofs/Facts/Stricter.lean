import Sessions.Proofs.Facts.Merge

/-!
# Sessions.Proofs.Facts.Stricter

Facts that have lost the track of more. `f.Stricter spare f'` says that `f'` provides the same
correlation paths as `f`, needs at least those that `f` needs, and has lost all that `f` has lost.
The keys in `spare` are left out of account: `f'` may still trace them. This does no harm as long as
they are no keys of correlation paths that are provided (`Spares`), because only such paths can
satisfy a need.

Every merge keeps this: a lost path stays provided, so the same parts are in conflict, and it
satisfies no need.
-/

namespace Sessions.Facts

variable {spare : List String} {f f' g g' : Facts} {p q : Path} {k : String}

/-- None of the keys is the key of a correlation path that is provided. -/
def Spares (spare : List String) (f : Facts) : Prop :=
  ∀ k ∈ spare, k ∉ f.providedCorr.keys

theorem spares_nil (f : Facts) : f.Spares [] :=
  List.forall_mem_nil _

theorem Spares.of_merge {r : Facts} (h : r.Spares spare)
    (hr : ∀ {k}, k ∈ r.providedCorr.keys ↔ k ∈ f.providedCorr.keys ∨ k ∈ g.providedCorr.keys) :
    f.Spares spare ∧ g.Spares spare :=
  ⟨fun k hk hf => h k hk (hr.2 (.inl hf)), fun k hk hg => h k hk (hr.2 (.inr hg))⟩

theorem Spares.sequence (hg : g.WellFormed) (h : f.Spares spare) (h' : g.Spares spare) :
    (f.sequence g).1.Spares spare := by
  intro k hk hr
  rcases (sequence_providedCorr f hg).1 hr with hr | hr
  · exact h k hk hr
  · exact h' k hk hr

/-- The second facts have lost the track of more, the spare keys left aside. -/
structure Stricter (spare : List String) (f f' : Facts) : Prop where
  left : f.WellFormed
  right : f'.WellFormed
  providedCorr : f.providedCorr = f'.providedCorr
  neededCorr : f.Spares spare → ∀ {k}, k ∈ f.neededCorr.keys → k ∈ f'.neededCorr.keys
  invalidated : ∀ {k}, k ∉ spare → k ∈ f.invalidated.keys → k ∈ f'.invalidated.keys
  providedVar : ∀ {k}, k ∉ spare → k ∈ f'.providedVar.keys → k ∈ f.providedVar.keys

namespace Stricter

theorem refl (hf : f.WellFormed) : f.Stricter spare f :=
  ⟨hf, hf, rfl, fun _ {_} hk => hk, fun _ hk => hk, fun _ hk => hk⟩

theorem invalidate (h : f.Stricter spare f') : f.Stricter spare (f'.invalidate p) where
  left := h.left
  right := h.right.invalidate
  providedCorr := h.providedCorr
  neededCorr := h.neededCorr
  invalidated hs hk := PathSet.mem_keys_add.2 (.inl (h.invalidated hs hk))
  providedVar hs hk := h.providedVar hs (PathSet.mem_keys_remove.1 hk).1

/-- Losing one path instead of another, whose key is spare. -/
theorem invalidate_instead (h : f.Stricter spare f') (hp : p.key ∈ spare ∨ p.key = q.key) :
    (f.invalidate p).Stricter spare (f'.invalidate q) where
  left := h.left.invalidate
  right := h.right.invalidate
  providedCorr := h.providedCorr
  neededCorr := h.neededCorr
  invalidated {k} hs hk := by
    rcases PathSet.mem_keys_add.1 hk with hk | rfl
    · exact PathSet.mem_keys_add.2 (.inl (h.invalidated hs hk))
    · exact PathSet.mem_keys_add.2 (.inr (hp.resolve_left hs))
  providedVar {k} hs hk := by
    obtain ⟨hk, hne⟩ := PathSet.mem_keys_remove.1 hk
    refine PathSet.mem_keys_remove.2 ⟨h.providedVar hs hk, ?_⟩
    rintro rfl
    exact hne (hp.resolve_left hs)

/-- What satisfies a need in the second facts satisfies it in the first. -/
theorem available (h : f.Stricter spare f') (hspare : f.Spares spare) (hk : f'.Available k) :
    f.Available k := by
  have hprovided : k ∈ f.providedCorr.keys := h.providedCorr ▸ hk.1
  exact ⟨hprovided, fun hi => hk.2 (h.invalidated (fun hs => hspare k hs hprovided) hi)⟩

/-! ## Merges -/

section Merges

variable (hf : f.Stricter spare f') (hg : g.Stricter spare g')
include hf hg

/-- What `f` leaves of the needs of `g`, `f'` leaves of those of `g'`. -/
theorem unmet (hspare : f.Spares spare) (hspare' : g.Spares spare) :
    k ∈ f.neededCorr.keys ∨ (k ∈ g.neededCorr.keys ∧ ¬ f.Available k) →
      k ∈ f'.neededCorr.keys ∨ (k ∈ g'.neededCorr.keys ∧ ¬ f'.Available k) := by
  rintro (hk | ⟨hk, hav⟩)
  · exact .inl (hf.neededCorr hspare hk)
  · exact .inr ⟨hg.neededCorr hspare' hk, fun h => hav (hf.available hspare h)⟩

/-- What `f` and then `g` lose, `f'` and then `g'` lose too. -/
theorem lost (hs : k ∉ spare) :
    (k ∈ f.invalidated.keys ∨ k ∈ g.invalidated.keys) ∧ k ∉ g.providedCorr.keys ∧
        k ∉ g.providedVar.keys →
      (k ∈ f'.invalidated.keys ∨ k ∈ g'.invalidated.keys) ∧ k ∉ g'.providedCorr.keys ∧
        k ∉ g'.providedVar.keys := by
  rintro ⟨hk, hcorr, hvar⟩
  rw [← hg.providedCorr]
  exact ⟨hk.imp (hf.invalidated hs) (hg.invalidated hs), hcorr,
    fun hv => hvar (hg.providedVar hs hv)⟩

/-- What `f'` and then `g'` provide, `f` and then `g` provide too. -/
theorem kept (hs : k ∉ spare) :
    (k ∈ f'.providedVar.keys ∧ k ∉ g'.invalidated.keys) ∨ k ∈ g'.providedVar.keys →
      (k ∈ f.providedVar.keys ∧ k ∉ g.invalidated.keys) ∨ k ∈ g.providedVar.keys := by
  rintro (⟨hk, hi⟩ | hk)
  · exact .inl ⟨hf.providedVar hs hk, fun h => hi (hg.invalidated hs h)⟩
  · exact .inr (hg.providedVar hs hk)

theorem sequence : (f.sequence g).1.Stricter spare (f'.sequence g').1 where
  left := hf.left.sequence hg.left
  right := hf.right.sequence hg.right
  providedCorr := by
    rw [sequence_eq f hg.left, sequence_eq f' hg.right, hf.providedCorr, hg.providedCorr]
  neededCorr hspare {k} hk := by
    obtain ⟨hsf, hsg⟩ := hspare.of_merge (sequence_providedCorr f hg.left)
    rw [sequence_neededCorr f hg.left] at hk
    rw [sequence_neededCorr f' hg.right]
    exact unmet hf hg hsf hsg hk
  invalidated {k} hs hk := by
    rw [sequence_invalidated f hg.left] at hk
    rw [sequence_invalidated f' hg.right]
    exact lost hf hg hs hk
  providedVar {k} hs hk := by
    rw [sequence_providedVar f' hg.right] at hk
    rw [sequence_providedVar f hg.left]
    exact kept hf hg hs hk

theorem parallel : (f.parallel g).1.Stricter spare (f'.parallel g').1 where
  left := hf.left.parallel hg.left
  right := hf.right.parallel hg.right
  providedCorr := by
    rw [parallel_eq f hg.left.apart, parallel_eq f' hg.right.apart, hf.providedCorr,
      hg.providedCorr]
  neededCorr hspare {k} hk := by
    obtain ⟨hsf, hsg⟩ := hspare.of_merge (parallel_providedCorr f hg.left.apart)
    rw [parallel_neededCorr f hg.left.apart] at hk
    rw [parallel_neededCorr f' hg.right.apart]
    exact hk.imp (hf.neededCorr hsf) (hg.neededCorr hsg)
  invalidated {k} hs hk := by
    rw [parallel_invalidated f hg.left.apart] at hk
    rw [parallel_invalidated f' hg.right.apart]
    exact hk.imp (hf.invalidated hs) (hg.invalidated hs)
  providedVar {k} hs hk := by
    rw [parallel_providedVar f' hg.right.apart] at hk
    rw [parallel_providedVar f hg.left.apart]
    rcases hk with ⟨hk, hlost⟩ | ⟨hk, hlost⟩
    · exact .inl ⟨hf.providedVar hs hk, fun hi => hlost (hg.invalidated hs hi)⟩
    · exact .inr ⟨hg.providedVar hs hk, fun hi => hlost (hf.invalidated hs hi)⟩

theorem choice : (f.choice g).1.Stricter spare (f'.choice g').1 where
  left := .choice hf.left hg.left
  right := .choice hf.right hg.right
  providedCorr := by
    rw [choice_eq hf.left hg.left, choice_eq hf.right hg.right]
    simp only [eitherCorr, commonFlag, hf.providedCorr, hg.providedCorr]
  neededCorr hspare {k} hk := by
    obtain ⟨hsf, hsg⟩ := hspare.of_merge (choice_providedCorr hf.left hg.left)
    rw [choice_neededCorr hf.left hg.left] at hk
    rw [choice_neededCorr hf.right hg.right]
    exact hk.imp (hf.neededCorr hsf) (hg.neededCorr hsg)
  invalidated {k} hs hk := by
    rw [choice_invalidated hf.left hg.left] at hk
    rw [choice_invalidated hf.right hg.right]
    exact hk.imp (hf.invalidated hs) (hg.invalidated hs)
  providedVar {k} hs hk := by
    rw [choice_providedVar hf.right hg.right] at hk
    rw [choice_providedVar hf.left hg.left]
    exact ⟨hf.providedVar hs hk.1, hg.providedVar hs hk.2⟩

theorem handler : (f.handler g).Stricter spare (f'.handler g') where
  left := hf.left.handler hg.left
  right := hf.right.handler hg.right
  providedCorr := by
    rw [handler_eq f hg.left, handler_eq f' hg.right, hf.providedCorr, hg.providedCorr]
  neededCorr hspare {k} hk := by
    obtain ⟨hsf, hsg⟩ := hspare.of_merge (handler_providedCorr f hg.left)
    rw [handler_neededCorr f hg.left] at hk
    rw [handler_neededCorr f' hg.right]
    exact unmet hf hg hsf hsg hk
  invalidated {k} hs hk := by
    rw [handler_invalidated f hg.left] at hk
    rw [handler_invalidated f' hg.right]
    exact lost hf hg hs hk
  providedVar {k} hs hk := by
    rw [handler_providedVar f' hg.right] at hk
    rw [handler_providedVar f hg.left]
    exact kept hf hg hs hk

/-! ## Conflicts -/

theorem clashes : (f.sequence g).2 = (f'.sequence g').2 := by
  show Facts.clashes f g.providedCorr.entries = Facts.clashes f' g'.providedCorr.entries
  rw [Facts.clashes, Facts.clashes, hf.providedCorr, hg.providedCorr]

theorem mismatches : (f.choice g).2 = (f'.choice g').2 := by
  show ((lacking g.providedCorr f.providedCorr.entries) ++
      (lacking f.providedCorr g.providedCorr.entries)).map (·.path) =
    ((lacking g'.providedCorr f'.providedCorr.entries) ++
      (lacking f'.providedCorr g'.providedCorr.entries)).map (·.path)
  rw [hf.providedCorr, hg.providedCorr]

end Merges

end Stricter

end Sessions.Facts
