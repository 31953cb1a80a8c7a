import Sessions.Proofs.Check.WellFormed

/-!
# Sessions.Proofs.Check.Needs

Which needs of a part are left over when another runs before it, or when it is the handler of an
operation. The two merges keep the same needs (`needs_sequence_iff`, `needs_handler_iff`).

A part may need a path and lose the track of it as well. What came before can not be known to
satisfy such a need, so an ordinary path stays needed. A correlation path does not: if it was
available before, its need is dropped, also where the part removes the path first and uses it
afterwards (`undone`).
-/

namespace Sessions.Facts

variable {a b f : Facts} {p q : Path}

/-- Needs are kept apart by the kind of their paths. -/
structure Sorted (f : Facts) : Prop where
  var : ∀ p ∈ f.neededVar.paths, p.isCorrelation = false
  corr : ∀ p ∈ f.neededCorr.paths, p.isCorrelation = true

theorem WellFormed.sorted (h : f.WellFormed) : f.Sorted := by
  refine ⟨fun p hp => ?_, fun p hp => h.needed_path hp⟩
  rw [h.neededVar] at hp
  cases hp

/-- Whether what came before satisfies a need of the path in the part `b`. -/
def meets (a b : Facts) (p : Path) : Bool :=
  if p.isCorrelation then a.available p
  else a.providedVar.contains p && !b.invalidated.contains p

/-! ## What changes needs -/

theorem needs_iff : f.needs q = true ↔
    (q.isCorrelation = true ∧ q.key ∈ f.neededCorr.keys) ∨
      (q.isCorrelation = false ∧ q.key ∈ f.neededVar.keys) := by
  unfold needs
  cases q.isCorrelation <;> simp [PathSet.contains_iff]

theorem needs_congr (hvar : a.neededVar = b.neededVar) (hcorr : a.neededCorr = b.neededCorr)
    (q : Path) : a.needs q = b.needs q := by
  rw [needs, needs, hvar, hcorr]

theorem needs_need : (f.need p).needs q = true ↔
    f.needs q = true ∨ (p.isCorrelation = q.isCorrelation ∧ q.key = p.key) := by
  rw [needs_iff, needs_iff, need]
  cases hp : p.isCorrelation <;> cases hq : q.isCorrelation <;> simp

theorem needs_foldl_need (ps : List Path) (f : Facts) :
    (ps.foldl need f).needs q = true ↔
      f.needs q = true ∨ ∃ p ∈ ps, p.isCorrelation = q.isCorrelation ∧ q.key = p.key := by
  induction ps generalizing f with
  | nil => simp
  | cons p rest ih => simp only [List.foldl_cons, ih, needs_need, List.exists_mem_cons_iff, or_assoc]

theorem needs_provide (f : Facts) (p : Path) (fresh : Bool) (q : Path) :
    (f.provide p fresh).needs q = f.needs q := by
  unfold provide
  split <;> rfl

theorem needs_provideAll (f g : Facts) (q : Path) : (f.provideAll g).needs q = f.needs q := by
  have hcorr : ∀ (es : List PathEntry) (f : Facts),
      (es.foldl (fun f e => f.provide e.path e.fresh) f).needs q = f.needs q := by
    intro es
    induction es with
    | nil => exact fun _ => rfl
    | cons e rest ih => exact fun f => (ih _).trans (needs_provide f e.path e.fresh q)
  have hvar : ∀ (ps : List Path) (f : Facts),
      (ps.foldl (fun f p => f.provide p false) f).needs q = f.needs q := by
    intro ps
    induction ps with
    | nil => exact fun _ => rfl
    | cons p rest ih => exact fun f => (ih _).trans (needs_provide f p false q)
  rw [provideAll, hvar, hcorr]

/-! ## Needs that are left -/

theorem exists_unmet_iff (a : Facts) (hb : b.Sorted) (q : Path) :
    (∃ p ∈ unmetNeeds a b, p.isCorrelation = q.isCorrelation ∧ q.key = p.key) ↔
      b.needs q = true ∧ a.meets b q = false := by
  have hkeys : ∀ {s : PathSet} {p : Path}, q.key = p.key → s.contains p = s.contains q := by
    intro s p hk
    rw [PathSet.contains, PathSet.contains, hk]
  have hmem : ∀ {s : PathSet}, q.key ∈ s.keys ↔ ∃ p ∈ s.paths, q.key = p.key := by
    intro s
    rw [PathSet.keys_eq_map_paths, List.mem_map]
    simp only [eq_comm]
  simp only [unmetNeeds, List.mem_append, List.mem_filter, or_and_right, exists_or]
  rw [needs_iff, hmem, hmem, meets]
  -- `b` keeps the two kinds of needs apart, so a need of one kind does not come from the other.
  cases hq : q.isCorrelation with
  | true =>
    constructor
    · rintro (⟨p, ⟨hp, -⟩, hc, -⟩ | ⟨p, ⟨hp, hun⟩, -, hk⟩)
      · rw [hb.var p hp] at hc
        cases hc
      · refine ⟨.inl ⟨rfl, p, hp, hk⟩, ?_⟩
        rw [Bool.not_eq_true', available, hkeys hk, hkeys hk] at hun
        exact hun
    · rintro ⟨⟨-, p, hp, hk⟩ | ⟨hc, -⟩, hun⟩
      · refine .inr ⟨p, ⟨hp, ?_⟩, hb.corr p hp, hk⟩
        rw [Bool.not_eq_true', available, hkeys hk, hkeys hk]
        exact hun
      · cases hc
  | false =>
    constructor
    · rintro (⟨p, ⟨hp, hun⟩, -, hk⟩ | ⟨p, ⟨hp, -⟩, hc, -⟩)
      · refine ⟨.inr ⟨rfl, p, hp, hk⟩, ?_⟩
        rw [hkeys hk, hkeys hk] at hun
        revert hun
        cases a.providedVar.contains q <;> simp
      · rw [hb.corr p hp] at hc
        cases hc
    · rintro ⟨⟨hc, -⟩ | ⟨-, p, hp, hk⟩, hun⟩
      · cases hc
      · refine .inl ⟨p, ⟨hp, ?_⟩, hb.var p hp, hk⟩
        rw [hkeys hk, hkeys hk]
        revert hun
        cases a.providedVar.contains q <;> simp

theorem needs_sequence_iff (a : Facts) (hb : b.Sorted) (q : Path) :
    (a.sequence b).1.needs q = true ↔
      a.needs q = true ∨ (b.needs q = true ∧ a.meets b q = false) := by
  have hneeds : (a.sequence b).1.needs q = ((unmetNeeds a b).foldl need a).needs q := by
    simp only [sequence, invalidateAll, foldl_invalidate, foldl_rebind, foldl_rebindVar]
    exact needs_congr rfl rfl q
  rw [hneeds, needs_foldl_need, exists_unmet_iff a hb]

theorem needs_handler_iff (a : Facts) (hb : b.Sorted) (q : Path) :
    (a.handler b).needs q = true ↔
      a.needs q = true ∨ (b.needs q = true ∧ a.meets b q = false) := by
  have hneeds : (a.handler b).needs q = ((unmetNeeds a b).foldl need a).needs q := by
    simp only [handler, needs_provideAll, invalidateAll, foldl_invalidate, foldl_revalidate]
    exact needs_congr rfl rfl q
  rw [hneeds, needs_foldl_need, exists_unmet_iff a hb]

end Sessions.Facts

namespace Sessions.Check.Checker

theorem Produces.sorted {c : Checker} {f : Facts} (h : c.Produces f) : f.Sorted :=
  h.wellFormed.sorted

/-- What is left of a need. The facts that a check computes are sorted. Where the part `b` is sorted
and keeps the track of a path that it needs, the path is needed by the whole exactly if it was
needed before or is not provided by what came before. Where `b` loses the track of the path, the
need is left in any case, except that of a correlation path which was available, and not needed,
before. -/
theorem lost_needs_left (c : Checker) :
    (∀ f, c.Produces f → f.Sorted) ∧
    ∀ a b : Facts, b.Sorted → ∀ p : Path, ∀ f ∈ [(a.sequence b).1, a.handler b],
      (b.needs p = false → f.needs p = a.needs p) ∧
      (b.needs p = true → b.invalidated.contains p = false →
        (f.needs p = true ↔ a.needs p = true ∨
          (if p.isCorrelation then a.available p else a.provides p) = false)) ∧
      (b.needs p = true → b.invalidated.contains p = true →
        (f.needs p = true ↔
          ¬ (p.isCorrelation = true ∧ a.available p = true ∧ a.needs p = false))) := by
  refine ⟨fun f hf => hf.sorted, fun a b hb p f hf => ?_⟩
  have hneeds : f.needs p = true ↔
      a.needs p = true ∨ (b.needs p = true ∧ a.meets b p = false) := by
    rcases List.mem_cons.1 hf with rfl | hf
    · exact Facts.needs_sequence_iff a hb p
    · rw [List.mem_singleton.1 hf]
      exact Facts.needs_handler_iff a hb p
  refine ⟨fun hnone => ?_, fun hneed hkept => ?_, fun hneed hlost => ?_⟩
  · rw [Bool.eq_iff_iff, hneeds, hnone]
    simp
  · rw [hneeds, Facts.meets, Facts.provides, hneed, hkept]
    cases p.isCorrelation <;> simp
  · rw [hneeds, Facts.meets, hneed, hlost]
    cases p.isCorrelation <;> cases a.needs p <;> simp

/-- Opens a session with two values of its own. -/
def starting : Activity :=
  .sequence {} [receive "start", token "sid", token "uid"]

/-- Removes the session id and then waits for a message of the session. -/
def ending : Activity :=
  .sequence {} [.undef {} (corrPath "sid"), receive "next"]

/-- The check of an activity in which messages `next` belong to a session by two values. -/
def visitor (body : Activity) : Checker :=
  ofMain { sets := [corrSet "S" ["sid", "uid"]], operations := [("login", "S"), ("next", "S")] } body

/-- The check of a session that is opened, loses its id and goes on. -/
def undone : Checker :=
  visitor (.sequence {} [starting, ending])

/-- The facts of a part of the session, at the moment when the check comes to it. -/
def partFacts (part : Activity) (starter : Bool) : Facts :=
  ((walk (undone.scope.setting 0) part starter).run { active := ["main"] }).1.1

theorem undone_produces {part : Activity} (starter : Bool) (h : part ∈ [starting, ending]) :
    undone.Produces (partFacts part starter) := by
  have hvisits : undone.Visits "main" 0 { active := ["main"] } := by
    refine ⟨⟨by decide, by decide +kernel, by decide +kernel, ?_⟩, List.nil_prefix⟩
    intro m hm
    rw [List.mem_singleton.1 hm]
  exact ⟨"main", ⟨{}, "main", .sequence {} [starting, ending]⟩, 0, _, part, starter, rfl, hvisits,
    Activity.mem_parts_of_child h, rfl⟩

/-- The second part of the session needs the id that it has removed, and the whole does not; the
message is accepted. So it is in the handler of an operation that opens the session. With the same
activities in one sequence the need is reported. -/
theorem lost_need_dropped :
    undone.Produces (partFacts starting true) ∧ undone.Produces (partFacts ending false) ∧
      (partFacts ending false).needs (corrPath "sid") = true ∧
      (partFacts ending false).invalidated.contains (corrPath "sid") = true ∧
      ((partFacts starting true).sequence (partFacts ending false)).1.needs (corrPath "sid") =
        false ∧
      ((partFacts starting true).handler (partFacts ending false)).needs (corrPath "sid") = false ∧
      undone.check.valid = true ∧
      (visitor (.requestResponse {} "login" none .missing (.sequence {} [token "uid",
        .undef {} (corrPath "sid"), receive "next"]))).check.valid = true ∧
      (visitor (.sequence {} [receive "start", token "sid", token "uid",
        .undef {} (corrPath "sid"), receive "next"])).check.kinds = ["UsedBeforeInitialized"] := by
  refine ⟨undone_produces true (by simp), undone_produces false (by simp), ?_⟩
  decide +kernel

/-- In the same session the second value keeps its track: the need of it is met by the first part. -/
theorem lost_needs_left_uid :
    (partFacts ending false).Sorted ∧
      (partFacts ending false).needs (corrPath "uid") = true ∧
      (partFacts ending false).invalidated.contains (corrPath "uid") = false ∧
      ¬ ((partFacts starting true).sequence (partFacts ending false)).1.needs (corrPath "uid") =
        true ∧
      (Facts.empty.sequence (partFacts ending false)).1.needs (corrPath "sid") = true := by
  obtain ⟨hsorted, hleft⟩ := lost_needs_left undone
  have hending : (partFacts ending false).Sorted :=
    hsorted _ (undone_produces false (by simp))
  obtain ⟨-, hkept, -⟩ := hleft (partFacts starting true) _ hending (corrPath "uid") _
    List.mem_cons_self
  obtain ⟨-, -, hlost⟩ := hleft Facts.empty _ hending (corrPath "sid") _ List.mem_cons_self
  refine ⟨hending, by decide +kernel, by decide +kernel, ?_, ?_⟩
  · rw [hkept (by decide +kernel) (by decide +kernel)]
    decide +kernel
  · rw [hlost (by decide +kernel) (by decide +kernel)]
    decide +kernel

end Sessions.Check.Checker
