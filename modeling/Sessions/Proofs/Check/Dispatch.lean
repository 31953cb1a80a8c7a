import Sessions.Proofs.Check.WellFormed

/-!
# Sessions.Proofs.Check.Dispatch

A choice that starts a session. Its branches may bind different sets, and what one of them provides
counts as provided by the whole (`choice_available`), also on the way through a branch that does not
provide it. So what follows in the same sequence never asks for such a path
(`walkSequence_needs`).
-/

namespace Sessions.Check

open Facts (Clean)

variable {α : Type}

/-! ## The branches -/

/-- The results of computations that are made one after the other. -/
def collect : List (Walk α) → Walk (List α)
  | [] => return []
  | m :: rest => do
    let a ← m
    let as ← collect rest
    return a :: as

/-- The facts of the branches, one after the other. -/
def walkEach (w : Setting) (s : Bool) : List Branch → Walk (List Facts)
  | [] => pure []
  | b :: rest => do
    let f ← walkBranch w b s
    let fs ← walkEach w s rest
    return f :: fs

theorem walkEach_eq (w : Setting) (s : Bool) (bs : List Branch) :
    walkEach w s bs = collect (bs.map fun b => walkBranch w b s) := by
  induction bs with
  | nil => rfl
  | cons b rest ih => rw [walkEach, List.map_cons, collect, ih]

/-- Either of the parts. -/
def eitherOf (f : Facts) (fs : List Facts) : Facts :=
  fs.foldl (fun f g => (f.choice g).1) f

theorem walkBranches_starter (w : Setting) (bs : List Branch) (f : Facts)
    (reported : List String) :
    walkBranches w bs true f reported = (do
      let fs ← walkEach w true bs
      return eitherOf f fs) := by
  induction bs generalizing f reported with
  | nil => rw [walkBranches, walkEach, pure_bind]; rfl
  | cons b rest ih =>
    rw [walkBranches_cons, walkEach]
    simp only [reportBranches, if_true, pure_bind, bind_assoc, ih]
    rfl

/-- A choice that starts a session gives the facts of either branch; nothing is reported of the
differences between them. -/
theorem walk_choice_starter (w : Setting) (l : Location) (b : Branch) (bs : List Branch) :
    walk w (.choice l (b :: bs)) true = (do
      let f ← walkBranch w b true
      let fs ← walkEach w true bs
      return (eitherOf f fs, false)) := by
  rw [walk_choice_cons]
  simp only [walkBranches_starter, bind_assoc, pure_bind]

theorem eitherOf_providedCorr {f : Facts} {fs : List Facts} (hf : Clean f)
    (hfs : ∀ g ∈ fs, Clean g) {k : String} :
    k ∈ (eitherOf f fs).providedCorr.keys ↔ ∃ g ∈ f :: fs, k ∈ g.providedCorr.keys := by
  induction fs generalizing f with
  | nil => simp [eitherOf]
  | cons g rest ih =>
    obtain ⟨hg, hrest⟩ := List.forall_mem_cons.1 hfs
    rw [eitherOf, List.foldl_cons, ← eitherOf, ih (clean_invariant.choice hf hg) hrest]
    simp only [List.mem_cons, exists_eq_or_imp,
      Facts.choice_providedCorr hf.wellFormed hg.wellFormed, or_assoc]

/-- What holds of the result of each computation, as long as it holds of the facts in the table. -/
theorem collect_invariant {P : Facts → Prop} {active : List String} {ms : List (Walk Facts)}
    (hms : ∀ m ∈ ms, Related (.alone fun _ => P) active (fun f _ => P f) m m) {p : Progress}
    (hp : Linked (.alone fun _ => P) active p p) : ∀ f ∈ ((collect ms).run p).1, P f := by
  induction ms generalizing p with
  | nil => exact List.forall_mem_nil _
  | cons m rest ih =>
    obtain ⟨hm, hrest⟩ := List.forall_mem_cons.1 hms
    obtain ⟨hf, hlink, -⟩ := hm p p hp trivial
    exact List.forall_mem_cons.2 ⟨hf, ih hrest hlink⟩

section Walks

variable {w : Setting} [∀ n, Grows (w.lookup n)] {active : List String}

/-- What follows in a sequence asks for no path that is available already. -/
theorem walkSequence_needs {as : List Activity} {f f' : Facts} {s : Bool} {k : String}
    (h : AlikeAll (.alone fun _ => Clean) (fun f _ => Clean f) w w active s as as) (hf : Clean f)
    (hk : k ∈ f.providedCorr.keys) :
    Related (.alone fun _ => Clean) active
      (fun r _ => k ∈ r.1.neededCorr.keys ↔ k ∈ f.neededCorr.keys) (walkSequence w as f s)
      (walkSequence w as f' s) := by
  induction as generalizing f f' s with
  | nil => rw [walkSequence, walkSequence]; exact .pure .rfl
  | cons a rest ih =>
    cases h with
    | cons ha hrest =>
      rw [walkSequence_cons, walkSequence_cons]
      refine ha.results.bind ?_
      rintro r r' ⟨hr, hs, hs'⟩
      have hkeep : k ∈ (f.sequence r.1).1.providedCorr.keys :=
        (Facts.sequence_providedCorr f hr.wellFormed).2 (.inl hk)
      have hneeds : k ∈ (f.sequence r.1).1.neededCorr.keys ↔ k ∈ f.neededCorr.keys := by
        rw [Facts.sequence_neededCorr f hr.wellFormed]
        exact ⟨fun h => h.elim id fun h => absurd (hf.available_iff.2 hk) h.2, .inl⟩
      have hmerge : Related (.alone fun _ => Clean) active (fun g _ => g = (f.sequence r.1).1)
          (inSequence f r.1) (inSequence f' r'.1) :=
        (inSequence_gives f r.1).related (inSequence_gives f' r'.1) rfl trivial
      refine hmerge.bind fun g g' hg => ?_
      rw [hg, hs, hs', ← hneeds]
      exact ih hrest (clean_invariant.sequence hf hr) hkeep

end Walks

/-! ## A choice that starts a session -/

namespace Checker

section Dispatch

variable {c : Checker} {n : String} {d : Definition} {depth : Nat} {p : Progress} {l l' : Location}
  {b : Branch} {bs : List Branch}

/-- The branches of a choice keep an invariant. -/
theorem branch_invariant {P : Facts → Prop} {aliases : Prop} (I : Invariant P aliases)
    (h : c.scope.Admits aliases) (hd : c.scope.definition? n = some d) (hp : c.Visits n depth p)
    (hnode : .choice l bs ∈ d.body.parts) {b : Branch} (hb : b ∈ bs) (s : Bool) :
    Related (.alone fun _ => P) p.active (fun f _ => P f)
      (walkBranch (c.scope.setting depth) b s) (walkBranch (c.scope.setting depth) b s) := by
  have K := I.keeps c.scope depth depth
  have hw := hp.walkable I h hd hnode
  refine walkBranch_related K.toMerges ⟨alike_refl K (hw.child ?_) s, alike_refl K (hw.child ?_) _⟩
  · exact List.mem_flatMap.2 ⟨b, hb, List.mem_cons_self⟩
  · exact List.mem_flatMap.2 ⟨b, hb, List.mem_cons_of_mem _ List.mem_cons_self⟩

/-- The facts of the branches of a choice at the moment when the check comes to it. -/
theorem walkEach_visit (halias : c.scope.Admits False) (hd : c.scope.definition? n = some d)
    (hp : c.Visits n depth p) (hnode : .choice l bs ∈ d.body.parts) (s : Bool) :
    ∀ g ∈ ((walkEach (c.scope.setting depth) s bs).run p).1, Clean g := by
  rw [walkEach_eq]
  refine collect_invariant (fun m hm => ?_) (hp.linked (clean_invariant.bodies halias))
  obtain ⟨b, hb, rfl⟩ := List.mem_map.1 hm
  exact branch_invariant clean_invariant halias hd hp hnode hb s

theorem walk_choice_facts (w : Setting) (l : Location) (b : Branch) (bs : List Branch)
    (p : Progress) :
    ∃ f fs, ((walkEach w true (b :: bs)).run p).1 = f :: fs ∧
      ((walk w (.choice l (b :: bs)) true).run p).1.1 = eitherOf f fs := by
  rw [walk_choice_starter, walkEach]
  exact ⟨_, _, rfl, rfl⟩

/-- After a choice that starts a session, a correlation path is available exactly if some branch
provides it. -/
theorem choice_available (halias : c.scope.Admits False) (hd : c.scope.definition? n = some d)
    (hp : c.Visits n depth p) (hnode : .choice l (b :: bs) ∈ d.body.parts) (k : String) :
    ((walk (c.scope.setting depth) (.choice l (b :: bs)) true).run p).1.1.Available k ↔
      ∃ g ∈ ((walkEach (c.scope.setting depth) true (b :: bs)).run p).1,
        k ∈ g.providedCorr.keys := by
  have hclean := walkEach_visit halias hd hp hnode true
  have hwhole := visit_invariant clean_invariant halias hd hp hnode true
  obtain ⟨f, fs, hfs, hf⟩ := walk_choice_facts (c.scope.setting depth) l b bs p
  rw [hfs] at hclean
  obtain ⟨hfirst, hrest⟩ := List.forall_mem_cons.1 hclean
  rw [hwhole.available_iff, hf, hfs, eitherOf_providedCorr hfirst hrest]

/-- What follows such a choice in its sequence asks for no path that some branch provides. -/
theorem needs_after_choice (halias : c.scope.Admits False) (hd : c.scope.definition? n = some d)
    (hp : c.Visits n depth p) (hnode : .choice l (b :: bs) ∈ d.body.parts) {acc : Facts}
    {after : List Activity} (hacc : Clean acc) (hafter : ∀ a ∈ after, a ∈ d.body.parts) {k : String}
    (hk : ((walk (c.scope.setting depth) (.choice l (b :: bs)) true).run p).1.1.Available k) :
    k ∈ ((walkSequence (c.scope.setting depth) (.choice l (b :: bs) :: after) acc true).run
        p).1.1.neededCorr.keys ↔
      k ∈ (acc.sequence ((walk (c.scope.setting depth) (.choice l (b :: bs)) true).run
        p).1.1).1.neededCorr.keys := by
  have K := clean_invariant.keeps c.scope depth depth
  have hrest := alikeAll_refl (fun a ha => alike_refl K
    (hp.walkable clean_invariant halias hd (hafter a ha))) false
  obtain ⟨hclean, hlink, -⟩ := (alike_refl K (hp.walkable clean_invariant halias hd hnode)
    true).walks p p (hp.linked (clean_invariant.bodies halias)) trivial
  have hflag := walk_flag (w := c.scope.setting depth) (.choice l (b :: bs)) true p
  rw [walkSequence_cons, run_bind, run_bind]
  generalize (walk (c.scope.setting depth) (.choice l (b :: bs)) true).run p = r at *
  have hg := inSequence_gives acc r.1.1
  have hkeep : k ∈ (acc.sequence r.1.1).1.providedCorr.keys :=
    (Facts.sequence_providedCorr acc hclean.wellFormed).2 (.inr hk.1)
  have hneeds : Related (.alone fun _ => Clean) p.active
      (fun r' _ => k ∈ r'.1.neededCorr.keys ↔ k ∈ (acc.sequence r.1.1).1.neededCorr.keys)
      (walkSequence (c.scope.setting depth) after (acc.sequence r.1.1).1 false)
      (walkSequence (c.scope.setting depth) after (acc.sequence r.1.1).1 false) :=
    walkSequence_needs hrest (clean_invariant.sequence hacc hclean) hkeep
  rw [hg.value, hflag, Activity.after]
  exact (hneeds _ _ (hlink.report hg hg) trivial).1

end Dispatch

/-- After a choice that starts a session, a correlation path is available exactly if some branch
provides it. So a path over which the branches disagree is not withheld; that it is withheld from
what follows holds only where they agree. And nothing that follows in the same sequence asks for a
path that some branch provides. -/
theorem dispatch_available (c : Checker)
    (halias : ∀ d ∈ c.scope.definitions, d.body.aliasFree = true) {n : String} {d : Definition}
    {depth : Nat} {p : Progress} (hd : c.scope.definition? n = some d) (hp : c.Visits n depth p)
    {l : Location} {b : Branch} {bs : List Branch} (hnode : .choice l (b :: bs) ∈ d.body.parts)
    (q : Path) :
    let w := c.scope.setting depth
    let f := ((walk w (.choice l (b :: bs)) true).run p).1.1
    let fs := ((walkEach w true (b :: bs)).run p).1
    (f.available q = true ↔ ∃ g ∈ fs, g.providedCorr.contains q = true) ∧
    (((∃ g ∈ fs, g.providedCorr.contains q = true) →
        (∃ g ∈ fs, g.providedCorr.contains q = false) → f.available q = false) ↔
      (∀ g ∈ fs, g.providedCorr.contains q = true) ∨
        ∀ g ∈ fs, g.providedCorr.contains q = false) ∧
    (f.available q = true → ∀ acc after, Clean acc → (∀ a ∈ after, a ∈ d.body.parts) →
      (((walkSequence w (.choice l (b :: bs) :: after) acc true).run p).1.1.neededCorr.contains q =
        (acc.sequence f).1.neededCorr.contains q)) := by
  have hadmits : c.scope.Admits False := fun d hd => .inl (halias d hd)
  have hiff : ((walk (c.scope.setting depth) (.choice l (b :: bs)) true).run p).1.1.available q =
      true ↔ ∃ g ∈ ((walkEach (c.scope.setting depth) true (b :: bs)).run p).1,
        g.providedCorr.contains q = true := by
    simp only [Facts.available_iff, PathSet.contains_iff]
    exact choice_available hadmits hd hp hnode q.key
  refine ⟨hiff, ⟨fun h => ?_, fun h hsome hnone => ?_⟩, fun hav acc after hacc hafter => ?_⟩
  · by_cases hnone : ∃ g ∈ ((walkEach (c.scope.setting depth) true (b :: bs)).run p).1,
        g.providedCorr.contains q = false
    · refine .inr fun g hg => Bool.eq_false_iff.2 fun hgq => ?_
      have := h ⟨g, hg, hgq⟩ hnone
      rw [hiff.2 ⟨g, hg, hgq⟩] at this
      cases this
    · refine .inl fun g hg => ?_
      rw [← Bool.not_eq_false]
      exact fun hgq => hnone ⟨g, hg, hgq⟩
  · obtain ⟨g, hg, hgq⟩ := hsome
    obtain ⟨g', hg', hgq'⟩ := hnone
    rcases h with h | h
    · rw [h g' hg'] at hgq'; cases hgq'
    · rw [h g hg] at hgq; cases hgq
  · rw [Bool.eq_iff_iff, PathSet.contains_iff, PathSet.contains_iff]
    exact needs_after_choice hadmits hd hp hnode hacc hafter (Facts.available_iff.1 hav)

/-- A desk where a session starts with one of two messages, and only the first of them leads to a
session id. -/
def deskBranches : List Branch :=
  [⟨receive "login", .sequence {} [token "sid", token "uid"]⟩, ⟨receive "redeem", token "uid"⟩]

/-- The check of a session that starts at the desk and goes on with an input that needs both. -/
def deskSession : Checker :=
  ofMain { sets := [corrSet "S" ["sid", "uid"]], operations := [("next", "S")] }
    (.sequence {} [.choice {} deskBranches, receive "next"])

/-- The progress with which the check comes to the body of the entry point. -/
def atMain : Progress := { active := ["main"] }

/-- The session id is available after the desk and nothing is reported, though the second branch
does not provide it. -/
theorem dispatch_hides_missing :
    ((walkEach (deskSession.scope.setting 0) true deskBranches).run atMain).1.map
        (·.providedCorr.contains (corrPath "sid")) = [true, false] ∧
      ((walk (deskSession.scope.setting 0) (.choice {} deskBranches) true).run
        atMain).1.1.available (corrPath "sid") = true ∧
      deskSession.check.valid = true := by
  decide +kernel

theorem deskSession_visits : deskSession.Visits "main" 0 atMain := by
  refine ⟨⟨by decide, by decide +kernel, by decide +kernel, ?_⟩, List.nil_prefix⟩
  intro m hm
  rw [List.mem_singleton.1 hm]

/-- At the desk: the input that follows does not ask for the session id. -/
theorem dispatch_available_desk :
    ((walkSequence (deskSession.scope.setting 0) [.choice {} deskBranches, receive "next"]
      Facts.empty true).run atMain).1.1.neededCorr.contains (corrPath "sid") =
      (Facts.empty.sequence ((walk (deskSession.scope.setting 0) (.choice {} deskBranches)
        true).run atMain).1.1).1.neededCorr.contains (corrPath "sid") := by
  have hd : deskSession.scope.definition? "main" =
      some ⟨{}, "main", .sequence {} [.choice {} deskBranches, receive "next"]⟩ := rfl
  have halias : ∀ d ∈ deskSession.scope.definitions, d.body.aliasFree = true := by decide +kernel
  have hnode : .choice {} deskBranches ∈
      (Activity.sequence {} [.choice {} deskBranches, receive "next"]).parts :=
    Activity.mem_parts_of_child List.mem_cons_self
  obtain ⟨hiff, -, hneeds⟩ := dispatch_available deskSession halias hd deskSession_visits hnode
    (corrPath "sid")
  refine hneeds (hiff.2 ?_) Facts.empty [receive "next"] clean_invariant.empty ?_
  · decide +kernel
  · intro a ha
    exact Activity.mem_parts_of_child (List.mem_cons_of_mem _ ha)

end Checker

end Sessions.Check
