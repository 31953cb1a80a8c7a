import Sessions.Proofs.Check.Neutral

/-!
# Sessions.Proofs.Check.Grouping

Splicing a sequence into the one around it. The children of the inner sequence are then merged one
by one with what came before, and not first with each other. `Splices` lists what makes no
difference, `Agree` says what stays the same: the facts of every definition up to the order and the
places of paths, and whether anything was reported (`splices_check`).
-/

namespace Sessions.Check

/-! ## Walks that find the same paths -/

/-- The facts are well-formed and the same. -/
structure Agree (f f' : Facts) : Prop where
  left : f.WellFormed
  right : f'.WellFormed
  same : f.Same f'

theorem Agree.refl {f : Facts} (hf : f.WellFormed) : Agree f f :=
  ⟨hf, hf, .refl f⟩

section Agree

variable {f f' g g' : Facts}

theorem Agree.sequence (hf : Agree f f') (hg : Agree g g') :
    Agree (f.sequence g).1 (f'.sequence g').1 :=
  ⟨hf.left.sequence hg.left, hf.right.sequence hg.right,
    .sequence hf.left hg.left hf.right hg.right hf.same hg.same⟩

theorem Agree.parallel (hf : Agree f f') (hg : Agree g g') :
    Agree (f.parallel g).1 (f'.parallel g').1 :=
  ⟨hf.left.parallel hg.left, hf.right.parallel hg.right,
    .parallel hf.left hg.left hf.right hg.right hf.same hg.same⟩

theorem Agree.choice (hf : Agree f f') (hg : Agree g g') :
    Agree (f.choice g).1 (f'.choice g').1 :=
  ⟨hf.left.choice hg.left, hf.right.choice hg.right,
    .choice hf.left hg.left hf.right hg.right hf.same hg.same⟩

theorem Agree.handler (hf : Agree f f') (hg : Agree g g') :
    Agree (f.handler g) (f'.handler g') :=
  ⟨hf.left.handler hg.left, hf.right.handler hg.right,
    .handler hf.left hg.left hf.right hg.right hf.same hg.same⟩

theorem Agree.mismatches (hf : Agree f f') (hg : Agree g g') (k : String) :
    k ∈ (f.choice g).2.map Path.key ↔ k ∈ (f'.choice g').2.map Path.key := by
  rw [Facts.choice_mismatches, Facts.choice_mismatches, hf.same.providedCorr,
    hg.same.providedCorr]

theorem Agree.isEmpty (hf : Agree f f') :
    f.providedCorr.isEmpty = true ↔ f'.providedCorr.isEmpty = true := by
  rw [PathSet.isEmpty_iff, PathSet.isEmpty_iff]
  simp only [hf.same.providedCorr]

end Agree

theorem append_nil_iff {ds ds' es es' : List Diagnostic} (h : ds = [] ↔ ds' = [])
    (h' : es = [] ↔ es' = []) : ds ++ es = [] ↔ ds' ++ es' = [] := by
  rw [List.append_eq_nil_iff, List.append_eq_nil_iff, h, h']

/-- Two walks find the same paths, and one of them reports something exactly if the other does, as
long as the table of the first leads to the given one. -/
def Link.agree (table : List (String × Facts)) : Link where
  stage p := p.table <+: table
  earlier h hq := h.leads hq
  reports ds ds' := ds = [] ↔ ds' = []
  nil := .rfl
  append := append_nil_iff
  known _ := True
  facts _ := Agree

theorem keeps_agree (table : List (String × Facts)) {w w' : Setting} (hm : w.mode = w'.mode)
    (hc : w.correlation = w'.correlation) (hf : w.fresh = w'.fresh) :
    Keeps (.agree table) Agree (fun r r' => ∀ k, k ∈ r ↔ k ∈ r') True w w' where
  mode := hm
  correlation := hc
  fresh := hf
  reports _ := .rfl
  seen _ := .rfl
  empty := .refl .empty
  sequence := .sequence
  parallel := .parallel
  clashes hf hg := by
    show _ ↔ _
    rw [pathDiagnostics_eq_nil, pathDiagnostics_eq_nil]
    exact hf.same.clashes hg.same
  choice := .choice
  mismatches b hf hg hr := by
    refine ⟨fun k => ?_, ?_⟩
    · rw [mem_reportedAfter, mem_reportedAfter, hr, hf.mismatches hg]
    · show _ ↔ _
      rw [pathDiagnostics_eq_nil, pathDiagnostics_eq_nil, unreported_eq_nil, unreported_eq_nil]
      simp only [hr, hf.mismatches hg]
  handler := .handler
  loops l hf := by
    show _ ↔ _
    rw [loopDiagnostics_eq_nil, loopDiagnostics_eq_nil, hf.isEmpty]
  input l op s := .refl (inputFacts_wellFormed w l op s)
  provide p fresh := .refl (wellFormed_invariant.provide p fresh)
  pointer _ left right := .refl (wellFormed_invariant.pointer trivial left right)
  undef _ target := .refl (wellFormed_invariant.undef trivial target)

/-! ## The verdict -/

namespace Checker

section Verdict

variable {c : Checker} {f f' : Facts}

theorem Agree.isFresh (h : Agree f f') (ps : List Path) : isFresh f ps = isFresh f' ps := by
  rw [Bool.eq_iff_iff, isFresh_iff h.left, isFresh_iff h.right]
  simp only [h.same.available, h.same.fresh]

theorem shortcomings_agree (h : Agree f f') :
    c.shortcomings f = [] ↔ c.shortcomings f' = [] := by
  have hstale : staleSets f c.sets = staleSets f' c.sets := by
    rw [staleSets, staleSets]
    simp only [Agree.isFresh h]
  simp only [shortcomings, List.append_eq_nil_iff, pathDiagnostics_eq_nil, PathSet.paths_eq_nil,
    h.same.neededCorr, h.same.neededVar, hstale]

/-- Facts that agree are judged alike. -/
theorem verdict_agree {c' : Checker} (hsets : c'.sets = c.sets) {init init' main main' : Option Facts}
    (hi : Option.Rel Agree init init') (hm : Option.Rel Agree main main') :
    c.verdict init main = [] ↔ c'.verdict init' main' = [] := by
  have hshort (f : Facts) : c'.shortcomings f = c.shortcomings f := by
    rw [shortcomings, shortcomings, hsets]
  cases hm with
  | none => cases hi <;> exact ⟨fun h => (List.cons_ne_nil _ _ h).elim,
      fun h => (List.cons_ne_nil _ _ h).elim⟩
  | some hm =>
    cases hi with
    | none =>
      rw [verdict, verdict, hshort]
      exact shortcomings_agree hm
    | some hi =>
      rw [verdict, verdict, hshort]
      simp only [List.append_eq_nil_iff, pathDiagnostics_eq_nil, PathSet.paths_eq_nil,
        hi.same.providedCorr, hi.same.clashes hm.same, shortcomings_agree (hi.sequence hm)]

end Verdict

end Checker

/-! ## Splicing -/

/-- The activities run one after the other, after `f` and with the progress `p`. Each of them can be
regrouped with what ran before it: `acc`, and `f` after that. -/
def Regroups (w : Setting) (acc : Facts) : List Activity → Facts → Bool → Progress → Prop
  | [], _, _, _ => True
  | a :: rest, f, s, p =>
    Facts.Regroupable acc f ((walk w a s).run p).1.1 ∧
      Regroups w acc rest (f.sequence ((walk w a s).run p).1.1).1 ((walk w a s).run p).1.2
        ((inSequence f ((walk w a s).run p).1.1).run ((walk w a s).run p).2).2

section Splice

variable {table : List (String × Facts)} {w w' : Setting} {active : List String} {acc : Facts}
  {S : List String → List String → Prop}

/-- Whether parts clash does not depend on the grouping: `acc` with `f`, and `r`, which agrees with
the two, with `g`; or `f` with `g`, and `acc` with the two. -/
theorem clashes_regroup {f g r g' : Facts} (hf : f.WellFormed) (hr : Agree (acc.sequence f).1 r)
    (hg : Agree g g') :
    ((f.sequence g).2 = [] ∧ (acc.sequence (f.sequence g).1).2 = []) ↔
      ((acc.sequence f).2 = [] ∧ (r.sequence g').2 = []) := by
  rw [← Facts.regroup_clashes acc hf hg.left, hr.same.clashes hg.same]

theorem walkSequence_single (a : Activity) (f : Facts) (s : Bool) :
    walkSequence w [a] f s = (do
      let r ← walk w a s
      let f ← inSequence f r.1
      return (f, r.2)) := by
  rw [walkSequence_cons]
  simp only [walkSequence]

variable [∀ n, Grows (w.lookup n)]

/-- The rest of the inner sequence, merged with `f` on the left and, after it was spliced, with
`r` on the right. The clash between `acc` and the inner sequence is reported later on the left. -/
theorem walkSequence_splice {as : List Activity} {f r : Facts} {s : Bool} {p p' : Progress}
    (hacc : acc.WellFormed) (has : AlikeAll (.agree table) Agree w w' active s as as)
    (hf : f.WellFormed) (hr : Agree (acc.sequence f).1 r) (hp : Linked (.agree table) active p p')
    (hst : ((walkSequence w as f s).run p).2.table <+: table) (hreg : Regroups w acc as f s p) :
    ((walkSequence w as f s).run p).1.1.WellFormed ∧
      Agree (acc.sequence ((walkSequence w as f s).run p).1.1).1
        ((walkSequence w' as r s).run p').1.1 ∧
      Linked (.agree table) active ((walkSequence w as f s).run p).2
        ((walkSequence w' as r s).run p').2 ∧
      ∃ ds ds', ((walkSequence w as f s).run p).2.diagnostics = p.diagnostics ++ ds ∧
        ((walkSequence w' as r s).run p').2.diagnostics = p'.diagnostics ++ ds' ∧
        ((ds = [] ∧ (acc.sequence ((walkSequence w as f s).run p).1.1).2 = []) ↔
          ((acc.sequence f).2 = [] ∧ ds' = [])) := by
  induction as generalizing f r s p p' with
  | nil =>
    rw [walkSequence, walkSequence]
    refine ⟨hf, hr, hp, [], [], (List.append_nil _).symm, (List.append_nil _).symm, ?_⟩
    exact and_comm
  | cons a rest ih =>
    cases has with
    | cons ha hrest =>
      rw [walkSequence_cons, run_bind, run_bind] at hst
      rw [walkSequence_cons, walkSequence_cons]
      simp only [run_bind]
      have hmid := (Grows.precedes (m := inSequence f ((walk w a s).run p).1.1)
        ((walk w a s).run p).2).table.trans ((Grows.precedes _).table.trans hst)
      obtain ⟨⟨hA, hflag, hflag'⟩, hq, ds, ds', hd, hd', hds⟩ := ha.results p p' hp hmid
      obtain ⟨hstep, hreg⟩ := hreg
      generalize (walk w a s).run p = x at *
      generalize (walk w' a s).run p' = x' at *
      have hg := inSequence_gives f x.1.1
      have hg' := inSequence_gives r x'.1.1
      have hr' : Agree (acc.sequence (f.sequence x.1.1).1).1 (r.sequence x'.1.1).1 := by
        have hassoc := (Facts.regroup_iff acc hf hA.left hacc).2 hstep
        have hcongr := hr.sequence hA
        exact ⟨hacc.sequence (hf.sequence hA.left), hcongr.right,
          hassoc.symm.trans hcongr.same⟩
      have hclash := clashes_regroup hf hr hA
      rw [hg.value, hflag] at hst
      rw [hflag] at hreg
      rw [hg.value, hg'.value, hflag, hflag']
      obtain ⟨hwf, hend, hlink, es, es', he, he', hes⟩ := ih hrest (hf.sequence hA.left) hr'
        (hq.report hg hg') hst hreg
      refine ⟨hwf, hend, hlink,
        ds ++ (pathDiagnostics .initialisedTwice (f.sequence x.1.1).2 ++ es),
        ds' ++ (pathDiagnostics .initialisedTwice (r.sequence x'.1.1).2 ++ es'), ?_, ?_, ?_⟩
      · rw [he, hg.diagnostics, hd]
        simp only [List.append_assoc]
      · rw [he', hg'.diagnostics, hd']
        simp only [List.append_assoc]
      · have hds : ds = [] ↔ ds' = [] := hds
        -- the clash with `acc` moves from the end of the left side to the start of the right one
        simp only [List.append_eq_nil_iff, pathDiagnostics_eq_nil, and_assoc]
        rw [hes, ← and_assoc (a := (f.sequence x.1.1).2 = []), hclash, hds, and_assoc, and_left_comm]

/-- The inner sequence as a whole on the left, and its children one by one on the right. -/
theorem walkSequence_nested {acc' : Facts} {l : Location} {a : Activity} {rest : List Activity}
    {s : Bool} {p p' : Progress} (hacc : Agree acc acc')
    (has : AlikeAll (.agree table) Agree w w' active s (a :: rest) (a :: rest))
    (hp : Linked (.agree table) active p p')
    (hst : ((walkSequence w [.sequence l (a :: rest)] acc s).run p).2.table <+: table)
    (hreg : Regroups w acc rest ((walk w a s).run p).1.1 ((walk w a s).run p).1.2
      ((walk w a s).run p).2) :
    Agree ((walkSequence w [.sequence l (a :: rest)] acc s).run p).1.1
        ((walkSequence w' (a :: rest) acc' s).run p').1.1 ∧
      Linked (.agree table) active ((walkSequence w [.sequence l (a :: rest)] acc s).run p).2
        ((walkSequence w' (a :: rest) acc' s).run p').2 ∧
      Link.Report (.agree table) p ((walkSequence w [.sequence l (a :: rest)] acc s).run p).2 p'
        ((walkSequence w' (a :: rest) acc' s).run p').2 := by
  cases has with
  | cons ha hrest =>
    rw [walkSequence_single, walk_sequence_cons, run_bind, run_bind, run_bind] at hst
    rw [walkSequence_single, walkSequence_cons, walk_sequence_cons]
    simp only [run_bind]
    have hend := (Grows.precedes (m := inSequence acc _) _).table.trans hst
    have hmid := (Grows.precedes (m := walkSequence w rest _ _) _).table.trans hend
    obtain ⟨⟨hA, hflag, hflag'⟩, hq, ds, ds', hd, hd', hds⟩ := ha.results p p' hp hmid
    generalize (walk w a s).run p = x at *
    generalize (walk w' a s).run p' = x' at *
    have hg' := inSequence_gives acc' x'.1.1
    rw [hflag] at hst hend hreg
    rw [hflag, hflag', hg'.value]
    have hlink : Linked (.agree table) active x.2 ((inSequence acc' x'.1.1).run x'.2).2 :=
      hq.report (Gives.pure ()) hg'
    obtain ⟨hwf, hagree, hlink, es, es', he, he', hes⟩ := walkSequence_splice hacc.left hrest hA.left
      (hacc.sequence hA) hlink hend hreg
    generalize (walkSequence w rest x.1.1 (a.after s)).run x.2 = y at *
    have hg := inSequence_gives acc y.1.1
    refine ⟨?_, ?_, ds ++ (es ++ pathDiagnostics .initialisedTwice (acc.sequence y.1.1).2),
      ds' ++ (pathDiagnostics .initialisedTwice (acc'.sequence x'.1.1).2 ++ es'), ?_, ?_, ?_⟩
    · show Agree ((inSequence acc y.1.1).run y.2).1 _
      rw [hg.value]
      exact hagree
    · exact hlink.report (hg.map fun f => (f, y.1.2)) (Gives.pure ())
    · show ((inSequence acc y.1.1).run y.2).2.diagnostics = _
      rw [hg.diagnostics, he, hd]
      simp only [List.append_assoc]
    · rw [he', hg'.diagnostics, hd']
      simp only [List.append_assoc]
    · have hds : ds = [] ↔ ds' = [] := hds
      show _ ↔ _
      simp only [List.append_eq_nil_iff, pathDiagnostics_eq_nil]
      rw [hds, hes, hacc.same.clashes hA.same]

end Splice

namespace Checker

/-- A sequence inside a sequence of definition `n`, which the check reaches with the flag `s`, is
spliced into it. -/
inductive Splices (c : Checker) (n : String) (s : Bool) : Activity → Activity → Prop
  /-- It stands first. -/
  | first (l l' : Location) (a : Activity) (inner after : List Activity) :
      Splices c n s (.sequence l (.sequence l' (a :: inner) :: after))
        (.sequence l (a :: inner ++ after))
  /-- It has no children and stands alone. -/
  | alone (l l' : Location) : Splices c n s (.sequence l [.sequence l' []]) (.sequence l [])
  /-- It has no children and stands first: what follows has to be tracked. -/
  | vanishes (l l' : Location) (a : Activity) (after : List Activity)
      (h : ∀ depth p, c.Visits n depth p →
        ((walk (c.scope.setting depth) a s).run p).1.1.Tracked) :
      Splices c n s (.sequence l (.sequence l' [] :: a :: after)) (.sequence l (a :: after))
  /-- It has no children and stands further on. -/
  | vanishesLater (l l' : Location) (b : Activity) (before after : List Activity) :
      Splices c n s (.sequence l (b :: before ++ .sequence l' [] :: after))
        (.sequence l (b :: before ++ after))
  /-- It stands further on: its children can be regrouped with what stands before. -/
  | later (l l' : Location) (b a : Activity) (before inner after : List Activity)
      (h : ∀ depth p, c.Visits n depth p →
        let w := c.scope.setting depth
        let r := (walk w (.sequence l (b :: before)) s).run p
        let q := (walk w a r.1.2).run r.2
        Regroups w r.1.1 inner q.1.1 q.1.2 q.2) :
      Splices c n s (.sequence l (b :: before ++ .sequence l' (a :: inner) :: after))
        (.sequence l (b :: before ++ (a :: inner ++ after)))

section Splices

variable {c c' : Checker} {active : List String} {depth depth' : Nat} {n : String} {s : Bool}

theorem alike_later
    (K : Keeps (.agree c.progress.table) Agree (fun r r' => ∀ k, k ∈ r ↔ k ∈ r') True
      (c.scope.setting depth) (c'.scope.setting depth'))
    (hs : c.scope.Stack active depth n) (l l' : Location) {b a : Activity}
    {before inner after : List Activity}
    (hreg : ∀ depth p, c.Visits n depth p →
      let w := c.scope.setting depth
      let r := (walk w (.sequence l (b :: before)) s).run p
      let q := (walk w a r.1.2).run r.2
      Regroups w r.1.1 inner q.1.1 q.1.2 q.2)
    (hw : Walkable (.agree c.progress.table) Agree True (c.scope.setting depth)
      (c'.scope.setting depth') active
      (.sequence l (b :: before ++ .sequence l' (a :: inner) :: after))) :
    Alike (.agree c.progress.table) Agree (c.scope.setting depth) (c'.scope.setting depth')
      active s (.sequence l (b :: before ++ .sequence l' (a :: inner) :: after))
      (.sequence l (b :: before ++ (a :: inner ++ after))) := by
  have hchild {x : Activity} (hx : x ∈ b :: before ++ .sequence l' (a :: inner) :: after) :=
    hw.child hx
  have hinner := hchild (List.mem_append_right _ List.mem_cons_self)
  have hbefore (s : Bool) : AlikeAll (.agree c.progress.table) Agree (c.scope.setting depth)
      (c'.scope.setting depth') active s (b :: before) (b :: before) :=
    alikeAll_refl (fun x hx => alike_refl K (hchild (List.mem_append_left _ hx))) s
  have hnested (s : Bool) : AlikeAll (.agree c.progress.table) Agree (c.scope.setting depth)
      (c'.scope.setting depth') active s (a :: inner) (a :: inner) :=
    alikeAll_refl (fun x hx => alike_refl K (hinner.child hx)) s
  have hafter (s : Bool) : AlikeAll (.agree c.progress.table) Agree (c.scope.setting depth)
      (c'.scope.setting depth') active s after after :=
    alikeAll_refl (fun x hx => alike_refl K
      (hchild (List.mem_append_right _ (List.mem_cons_of_mem _ hx)))) s
  refine ⟨?_, ?_⟩
  · intro p p' hp hst
    have hnest : .sequence l' (a :: inner) :: after = [.sequence l' (a :: inner)] ++ after := rfl
    rw [hnest, walk_sequence_append] at hst ⊢
    rw [walk_sequence_append]
    simp only [walkSequence_append, run_bind] at hst ⊢
    have hend := (Grows.precedes (m := walkSequence _ after _ _) _).table.trans hst
    have hmid := (Grows.precedes (m := walkSequence _ [.sequence l' (a :: inner)] _ _) _).table.trans
      hend
    have halike : Alike (.agree c.progress.table) Agree (c.scope.setting depth)
        (c'.scope.setting depth') active s (.sequence l (b :: before)) (.sequence l (b :: before)) :=
      alike_sequence K.toMerges (hbefore s)
    obtain ⟨⟨hA, hflag, hflag'⟩, hq, hd⟩ := halike.results p p' hp hmid
    have hregs := hreg depth p ⟨by rw [hp.left]; exact hs, (Grows.precedes p).table.trans hmid⟩
    simp only [] at hregs
    generalize (walk (c.scope.setting depth) (.sequence l (b :: before)) s).run p = r at *
    generalize (walk (c'.scope.setting depth') (.sequence l (b :: before)) s).run p' = r' at *
    rw [hflag] at hst hend hregs
    rw [hflag, hflag']
    obtain ⟨hagree, hlink, hreport⟩ := walkSequence_nested hA (hnested _) hq hend hregs
    have hflags : ((walkSequence (c.scope.setting depth) [.sequence l' (a :: inner)] r.1.1
        (Activity.after (.sequence l (b :: before)) s)).run r.2).1.2 = Activity.afterAll (a :: inner)
          (Activity.after (.sequence l (b :: before)) s) := by
      rw [walkSequence_flag fun x _ => walk_flag x, Activity.afterAll, Activity.afterAll,
        Activity.after]
    have hflags' : ((walkSequence (c'.scope.setting depth') (a :: inner) r'.1.1
        (Activity.after (.sequence l (b :: before)) s)).run r'.2).1.2 = Activity.afterAll (a :: inner)
          (Activity.after (.sequence l (b :: before)) s) :=
      walkSequence_flag (fun x _ => walk_flag x) _ _ _
    rw [hflags] at hst
    rw [hflags, hflags']
    obtain ⟨hfinal, hlast, hrest⟩ := walkSequence_related K.toMerges (hafter _) hagree _ _ hlink hst
    exact ⟨hfinal, hlast, (hd.trans hreport).trans hrest⟩
  · rw [Activity.after, Activity.after, Activity.afterAll_append, Activity.afterAll_append,
      Activity.afterAll_append (a :: inner), Activity.afterAll, Activity.after]

theorem alike_vanishes
    (K : Keeps (.agree c.progress.table) Agree (fun r r' => ∀ k, k ∈ r ↔ k ∈ r') True
      (c.scope.setting depth) (c'.scope.setting depth'))
    (hs : c.scope.Stack active depth n) (l l' : Location) {a : Activity} {after : List Activity}
    (ha : ∀ depth p, c.Visits n depth p →
      ((walk (c.scope.setting depth) a s).run p).1.1.Tracked)
    (hw : Walkable (.agree c.progress.table) Agree True (c.scope.setting depth)
      (c'.scope.setting depth') active (.sequence l (.sequence l' [] :: a :: after))) :
    Alike (.agree c.progress.table) Agree (c.scope.setting depth) (c'.scope.setting depth') active
      s (.sequence l (.sequence l' [] :: a :: after)) (.sequence l (a :: after)) := by
  have hf := alike_refl K (hw.child (List.mem_cons_of_mem _ List.mem_cons_self)) s
  have hrest := alikeAll_refl (fun x hx => alike_refl K
    (hw.child (List.mem_cons_of_mem _ (List.mem_cons_of_mem _ hx)))) (a.after s)
  refine ⟨?_, by simp only [Activity.after, Activity.afterAll]⟩
  rw [walk_sequence_cons, walk_sequence_cons, walk, pure_bind, walkSequence_cons]
  refine (Alike.tracked (fun _ h => h) hf hs ha).bind ?_
  rintro r r' ⟨hr, ht, hflag, hflag'⟩
  rw [inSequence_of_tracked hr.left ht, pure_bind, hflag, hflag']
  exact walkSequence_related K.toMerges hrest hr

/-- Splicing a sequence is not noticed. -/
theorem alike_splices
    (K : Keeps (.agree c.progress.table) Agree (fun r r' => ∀ k, k ∈ r ↔ k ∈ r') True
      (c.scope.setting depth) (c'.scope.setting depth'))
    (hs : c.scope.Stack active depth n) {x x' : Activity} (h : c.Splices n s x x')
    (hw : Walkable (.agree c.progress.table) Agree True (c.scope.setting depth)
      (c'.scope.setting depth') active x) :
    Alike (.agree c.progress.table) Agree (c.scope.setting depth) (c'.scope.setting depth') active
      s x x' := by
  cases h with
  | first l l' a inner after =>
    refine (alike_refl K hw s).of_walk_eq ?_
    simp only [walk_sequence_append, walk_sequence_cons]
  | alone l l' =>
    refine (alike_refl K hw s).of_walk_eq ?_
    simp only [walk, pure_bind, walkSequence]
  | vanishes l l' a after h => exact alike_vanishes K hs l l' h hw
  | vanishesLater l l' b before after =>
    refine (alike_refl K hw s).of_walk_eq ?_
    rw [walk_sequence_append, walk_sequence_append]
    simp only [walkSequence_cons, walk, pure_bind, inSequence_empty]
  | later l l' b a before inner after h => exact alike_later K hs l l' h hw

end Splices

/-- Splicing sequences changes neither the verdict nor the paths in the facts of any definition. -/
theorem splices_check (c : Checker) (l : Location) {items items' : List Item}
    (h : List.Forall₂ (Item.Edits (c.on ⟨l, items⟩).Splices c.entryName) items items') :
    (c.on ⟨l, items'⟩).check.valid = (c.on ⟨l, items⟩).check.valid ∧
      List.Forall₂ (fun x x' => x.1 = x'.1 ∧ x.2.Same x'.2) (c.on ⟨l, items⟩).facts
        (c.on ⟨l, items'⟩).facts := by
  have K (depth depth' : Nat) : Keeps (.agree (c.on ⟨l, items⟩).progress.table) Agree
      (fun r r' => ∀ k, k ∈ r ↔ k ∈ r') True ((c.on ⟨l, items⟩).scope.setting depth)
      ((c.on ⟨l, items'⟩).scope.setting depth') := keeps_agree _ rfl rfl rfl
  obtain ⟨htable, hd⟩ := edits_walked (fun _ => rfl) (fun _ => trivial) K
    (fun hs hx hw => alike_splices (K _ _) hs hx hw) h
    (by rw [progress_table]; exact List.prefix_rfl)
  refine ⟨?_, ?_⟩
  · rw [Bool.eq_iff_iff, valid_iff, valid_iff]
    exact (and_congr hd (verdict_agree rfl (htable _) (htable _))).symm
  · rw [facts, facts, progress_table, progress_table]
    exact forall₂_lookup htable (fun n f => (n, f)) (fun hf => ⟨rfl, hf.same⟩)
      ((scope_edits h).imp fun _ _ hd => hd.name)

/-- Grouping sequences differently makes no difference as far as parts are regroupable. The facts
that a check computes are well-formed; for well-formed facts, grouping three parts one way or the
other gives the same paths exactly if they are regroupable, and the same clashes in any case. A
sequence inside another may be spliced into it, wherever in a program it stands, if its children
can be regrouped with what stands before. -/
theorem grouping_irrelevant (c : Checker) (l : Location) :
    (∀ f, c.Produces f → f.WellFormed) ∧
    (∀ f g h : Facts, f.WellFormed → g.WellFormed → h.WellFormed →
      (((f.sequence g).1.sequence h).1.Same (f.sequence (g.sequence h).1).1 ↔
        f.Regroupable g h) ∧
      (((f.sequence g).2 = [] ∧ ((f.sequence g).1.sequence h).2 = []) ↔
        ((g.sequence h).2 = [] ∧ (f.sequence (g.sequence h).1).2 = []))) ∧
    ∀ items items',
      List.Forall₂ (Item.Edits (c.on ⟨l, items⟩).Splices c.entryName) items items' →
      (c.on ⟨l, items'⟩).check.valid = (c.on ⟨l, items⟩).check.valid ∧
        List.Forall₂ (fun x x' => x.1 = x'.1 ∧ x.2.Same x'.2) (c.on ⟨l, items⟩).facts
          (c.on ⟨l, items'⟩).facts := by
  refine ⟨fun _ hf => hf.wellFormed, fun f g h hf hg hh => ⟨?_, ?_⟩, fun _ _ => splices_check c l⟩
  · exact Facts.regroup_iff f hg hh hf
  · exact Facts.regroup_clashes f hg hh

/-- A fresh value whose track is lost inside an inner sequence still counts after it; spliced into
the outer sequence, the same activities leave the set without a fresh value. -/
theorem grouping_hides_loss :
    (ofMain { sets := [corrSet "S" ["sid"]] } (.sequence {} [receive "start",
        .sequence {} [token "sid", .undef {} (corrPath "sid")]])).check.valid = true ∧
      (ofMain { sets := [corrSet "S" ["sid"]] } (.sequence {} [receive "start",
        token "sid", .undef {} (corrPath "sid")])).check.kinds = ["NoFreshCorrelationValue"] := by
  decide +kernel

/-- A session that gets a fresh value and then loses the track of something else. -/
def drafts : List Activity :=
  [token "sid", .undef {} ⟨{}, [⟨"draft", none⟩]⟩]

/-- The check of a session, with the activities that follow its first input. -/
def session (following : List Activity) : Checker :=
  ofMain { sets := [corrSet "S" ["sid"]] } (.sequence {} (receive "start" :: following))

theorem walk_sequence_single {w : Setting} (l : Location) (a : Activity) (s : Bool) :
    walk w (.sequence l [a]) s = walk w a s := by
  rw [walk_sequence_cons]
  simp only [walkSequence]
  exact bind_pure _

theorem walk_token (w : Setting) (name : String) (s : Bool) (p : Progress) :
    ((walk w (token name) s).run p).1 = (Facts.empty.provide (corrPath name) true, s) := by
  obtain ⟨ds, h⟩ := assignment_gives {} (corrPath name) "=" (.fresh {})
  rw [token, walk_assign, run_bind, h.value]
  rfl

theorem regroups_drafts (w : Setting) (p : Progress) :
    Regroups w (inputFacts w {} "start" true) [.undef {} ⟨{}, [⟨"draft", none⟩]⟩]
      (Facts.empty.provide (corrPath "sid") true) false p := by
  refine ⟨?_, trivial⟩
  rw [inputFacts_true, walk]
  show Facts.Regroupable _ _ (Facts.empty.invalidate _)
  refine ⟨by decide +kernel, fun k hk => ?_, fun k hk => ?_⟩
  · exact (List.not_mem_nil hk).elim
  · exact (List.not_mem_nil hk).elim

theorem session_splices :
    (session [.sequence {} drafts]).Splices "main" true
      (.sequence {} [receive "start", .sequence {} drafts])
      (.sequence {} (receive "start" :: drafts)) := by
  refine .later {} {} (receive "start") (token "sid") [] [.undef {} ⟨{}, [⟨"draft", none⟩]⟩] [] ?_
  intro depth p _
  have hflag : ((walk ((session [.sequence {} drafts]).scope.setting depth) (receive "start")
      true).run p).1.2 = false := walk_flag _ _ _
  simp only [walk_sequence_single, walk_token, hflag]
  rw [receive, walk_oneWay_facts]
  exact regroups_drafts _ _

/-- The inner sequence of such a session may be spliced. -/
theorem grouping_irrelevant_drafts :
    (session drafts).check.valid = (session [.sequence {} drafts]).check.valid ∧
      List.Forall₂ (fun x x' => x.1 = x'.1 ∧ x.2.Same x'.2)
        (session [.sequence {} drafts]).facts (session drafts).facts := by
  obtain ⟨-, -, h⟩ := grouping_irrelevant (session []) {}
  exact h [.definition ⟨{}, "main", .sequence {} [receive "start", .sequence {} drafts]⟩]
    [.definition ⟨{}, "main", .sequence {} (receive "start" :: drafts)⟩]
    (.cons (.body {} "main" (.here session_splices)) .nil)

end Checker

end Sessions.Check
