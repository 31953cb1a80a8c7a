import Sessions.Proofs.Check.Edit
import Sessions.Proofs.Facts.Algebra

/-!
# Sessions.Proofs.Check.Neutral

Activities that do nothing. Inserting one into a sequence changes nothing in the report, if it does
not come to stand first; before what stood first it changes nothing if the facts of that activity
are tracked (`InsertsNothing`, `insertsNothing_check`): nothing before a part changes nothing exactly
if all that the part provides can still be traced when it ends.
-/

namespace Sessions.Check

/-! ## Walks that find the same -/

/-- Two walks find the same, as long as the table of the first leads to the given one. -/
def Link.exact (table : List (String × Facts)) (known : String → Prop) : Link where
  stage p := p.table <+: table
  earlier h hq := h.leads hq
  reports ds ds' := ds = ds'
  nil := rfl
  append h h' := by rw [h, h']
  known := known
  facts _ f f' := f = f' ∧ f.WellFormed

theorem keeps_exact (table : List (String × Facts)) (known : String → Prop) {w w' : Setting}
    (hm : w.mode = w'.mode) (hc : w.correlation = w'.correlation) (hf : w.fresh = w'.fresh) :
    Keeps (.exact table known) (fun f f' => f = f' ∧ f.WellFormed) Eq True w w' where
  mode := hm
  correlation := hc
  fresh := hf
  reports _ := rfl
  seen := rfl
  empty := ⟨rfl, .empty⟩
  sequence := by rintro f _ g _ ⟨rfl, hf⟩ ⟨rfl, hg⟩; exact ⟨rfl, hf.sequence hg⟩
  parallel := by rintro f _ g _ ⟨rfl, hf⟩ ⟨rfl, hg⟩; exact ⟨rfl, hf.parallel hg⟩
  clashes := by rintro f _ g _ ⟨rfl, hf⟩ ⟨rfl, hg⟩; rfl
  choice := by rintro f _ g _ ⟨rfl, hf⟩ ⟨rfl, hg⟩; exact ⟨rfl, hf.choice hg⟩
  mismatches := by rintro f _ g _ r _ b ⟨rfl, hf⟩ ⟨rfl, hg⟩ rfl; exact ⟨rfl, rfl⟩
  handler := by rintro f _ g _ ⟨rfl, hf⟩ ⟨rfl, hg⟩; exact ⟨rfl, hf.handler hg⟩
  loops := by rintro f _ l ⟨rfl, hf⟩; rfl
  input l op s := ⟨rfl, inputFacts_wellFormed w l op s⟩
  provide p fresh := ⟨rfl, wellFormed_invariant.provide p fresh⟩
  pointer _ left right := ⟨rfl, wellFormed_invariant.pointer trivial left right⟩
  undef _ target := ⟨rfl, wellFormed_invariant.undef trivial target⟩

/-! ## Sequences -/

section Sequence

variable {w : Setting}

theorem walkSequence_append (as bs : List Activity) (f : Facts) (s : Bool) :
    walkSequence w (as ++ bs) f s =
      walkSequence w as f s >>= fun r => walkSequence w bs r.1 r.2 := by
  induction as generalizing f s with
  | nil => rw [List.nil_append, walkSequence, pure_bind]
  | cons a rest ih =>
    rw [List.cons_append, walkSequence_cons, walkSequence_cons]
    simp only [bind_assoc, ih]

theorem walk_sequence_append (l : Location) (first : Activity) (as bs : List Activity) (s : Bool) :
    walk w (.sequence l (first :: as ++ bs)) s =
      walk w (.sequence l (first :: as)) s >>= fun r => walkSequence w bs r.1 r.2 := by
  rw [List.cons_append, walk_sequence_cons, walk_sequence_cons]
  simp only [walkSequence_append, bind_assoc]

theorem inSequence_empty (f : Facts) : inSequence f Facts.empty = pure f := rfl

theorem inSequence_of_tracked {f : Facts} (hf : f.WellFormed) (ht : f.Tracked) :
    inSequence Facts.empty f = pure f := by
  rw [inSequence, (Facts.empty_sequence_iff hf).2 ht]
  rfl

theorem walkSequence_nothing (t : Location) (rest : List Activity) (f : Facts) (s : Bool) :
    walkSequence w (.nothing t :: rest) f s = walkSequence w rest f s := by
  rw [walkSequence_cons, walk, pure_bind, inSequence_empty, pure_bind]

/-- An activity that does nothing is not noticed after another one. -/
theorem walk_insert_nothing (l t : Location) (first : Activity) (before after : List Activity)
    (s : Bool) :
    walk w (.sequence l (first :: before ++ .nothing t :: after)) s =
      walk w (.sequence l (first :: before ++ after)) s := by
  simp only [walk_sequence_append, walkSequence_nothing]

end Sequence

/-- Activities with the same walks are alike if one of them is like itself. -/
theorem Alike.of_walk_eq {L : Link} {A : Facts → Facts → Prop} {w w' : Setting}
    {active : List String} {s : Bool} {a a' : Activity} (h : Alike L A w w' active s a a)
    (heq : walk w' a' s = walk w' a s) : Alike L A w w' active s a a' := by
  refine ⟨by rw [heq]; exact h.walks, ?_⟩
  rw [← walk_flag (w := w') a s {}, ← walk_flag (w := w') a' s {}, heq]

/-! ## Insertion -/

namespace Checker

/-- An activity that does nothing is inserted into a sequence of definition `n` that the check
reaches with the flag `s`. At the start of a sequence that is not empty, the facts of what stood
there have to be tracked whenever the check comes to it. -/
inductive InsertsNothing (c : Checker) (n : String) (s : Bool) : Activity → Activity → Prop
  | inside (l t : Location) (first : Activity) (before after : List Activity) :
      InsertsNothing c n s (.sequence l (first :: before ++ after))
        (.sequence l (first :: before ++ .nothing t :: after))
  | alone (l t : Location) : InsertsNothing c n s (.sequence l []) (.sequence l [.nothing t])
  | start (l t : Location) (first : Activity) (rest : List Activity)
      (h : ∀ depth p, c.Visits n depth p →
        ((walk (c.scope.setting depth) first s).run p).1.1.Tracked) :
      InsertsNothing c n s (.sequence l (first :: rest)) (.sequence l (.nothing t :: first :: rest))

section Insert

variable {c c' : Checker} {known : String → Prop} {active : List String} {depth depth' : Nat}
  {n : String} {s : Bool}

/-- The facts of an activity that is tracked whenever the check comes to it. -/
theorem Alike.tracked {L : Link} {A : Facts → Facts → Prop} {a a' : Activity}
    (hL : ∀ p, L.stage p → p.table <+: c.progress.table)
    (h : Alike L A (c.scope.setting depth) (c'.scope.setting depth') active s a a')
    (hs : c.scope.Stack active depth n)
    (ht : ∀ depth p, c.Visits n depth p →
      ((walk (c.scope.setting depth) a s).run p).1.1.Tracked) :
    Related L active (fun r r' => A r.1 r'.1 ∧ r.1.Tracked ∧ r.2 = a.after s ∧ r'.2 = a.after s)
      (walk (c.scope.setting depth) a s) (walk (c'.scope.setting depth') a' s) := by
  intro p p' hp hst
  obtain ⟨⟨hA, hflag, hflag'⟩, hq, hd⟩ := h.results p p' hp hst
  refine ⟨⟨hA, ht depth p ⟨?_, ?_⟩, hflag, hflag'⟩, hq, hd⟩
  · rw [hp.left]; exact hs
  · exact (Grows.precedes p).table.trans (hL _ hst)

/-- At the start of a sequence: the facts of the activity that stood there are the same after
nothing, because they are tracked. -/
theorem alike_start
    (K : Keeps (.exact c.progress.table known) (fun f f' => f = f' ∧ f.WellFormed) Eq True
      (c.scope.setting depth) (c'.scope.setting depth'))
    (hs : c.scope.Stack active depth n) (l t : Location) {first : Activity}
    {rest : List Activity}
    (hfirst : ∀ depth p, c.Visits n depth p →
      ((walk (c.scope.setting depth) first s).run p).1.1.Tracked)
    (hw : Walkable (.exact c.progress.table known) (fun f f' => f = f' ∧ f.WellFormed) True
      (c.scope.setting depth) (c'.scope.setting depth') active (.sequence l (first :: rest))) :
    Alike (.exact c.progress.table known) (fun f f' => f = f' ∧ f.WellFormed)
      (c.scope.setting depth) (c'.scope.setting depth') active s (.sequence l (first :: rest))
      (.sequence l (.nothing t :: first :: rest)) := by
  have hf := alike_refl K (hw.child List.mem_cons_self) s
  have hrest := alikeAll_refl (fun a ha => alike_refl K
    (hw.child (List.mem_cons_of_mem _ ha))) (first.after s)
  refine ⟨?_, by simp only [Activity.after, Activity.afterAll]⟩
  rw [walk_sequence_cons, walk_sequence_cons, walk, pure_bind, walkSequence_cons]
  refine (Alike.tracked (fun _ h => h) hf hs hfirst).bind ?_
  rintro r r' ⟨⟨hr, hwf⟩, ht, hflag, hflag'⟩
  rw [← hr, inSequence_of_tracked hwf ht, pure_bind, hflag, hflag']
  exact walkSequence_related K.toMerges hrest ⟨rfl, hwf⟩

theorem alike_insertsNothing
    (K : Keeps (.exact c.progress.table known) (fun f f' => f = f' ∧ f.WellFormed) Eq True
      (c.scope.setting depth) (c'.scope.setting depth'))
    (hs : c.scope.Stack active depth n) {x x' : Activity} (h : c.InsertsNothing n s x x')
    (hw : Walkable (.exact c.progress.table known) (fun f f' => f = f' ∧ f.WellFormed) True
      (c.scope.setting depth) (c'.scope.setting depth') active x) :
    Alike (.exact c.progress.table known) (fun f f' => f = f' ∧ f.WellFormed)
      (c.scope.setting depth) (c'.scope.setting depth') active s x x' := by
  cases h with
  | inside l t first before after =>
    exact (alike_refl K hw s).of_walk_eq (walk_insert_nothing l t first before after s)
  | alone l t =>
    refine (alike_refl K hw s).of_walk_eq ?_
    simp only [walk, pure_bind, walkSequence]
  | start l t first rest h => exact alike_start K hs l t h hw

end Insert

theorem eq_of_exact {o o' : Option Facts}
    (h : Option.Rel (fun f f' => f = f' ∧ f.WellFormed) o o') : o' = o := by
  cases h with
  | none => rfl
  | some h => rw [h.1]

theorem filterMap_names {R : String → Bool → Activity → Activity → Prop} {entry : String}
    {ds ds' : List Definition} (h : List.Forall₂ (Definition.Edits R entry) ds ds')
    (g : String → Option Summary) :
    ds.filterMap (fun d => g d.name) = ds'.filterMap fun d => g d.name := by
  induction h with
  | nil => rfl
  | cons h _ ih => rw [List.filterMap_cons, List.filterMap_cons, ih, h.name]

/-- Inserting activities that do nothing does not change the report. -/
theorem insertsNothing_check (c : Checker) (l : Location) {items items' : List Item}
    (h : List.Forall₂ (Item.Edits (c.on ⟨l, items⟩).InsertsNothing c.entryName) items items') :
    (c.on ⟨l, items'⟩).check = (c.on ⟨l, items⟩).check := by
  have K (depth depth' : Nat) : Keeps (.exact (c.on ⟨l, items⟩).progress.table fun _ => True)
      (fun f f' => f = f' ∧ f.WellFormed) Eq True ((c.on ⟨l, items⟩).scope.setting depth)
      ((c.on ⟨l, items'⟩).scope.setting depth') := keeps_exact _ _ rfl rfl rfl
  obtain ⟨htable, hd⟩ := edits_walked (fun _ => rfl) (fun _ => trivial) K
    (fun hs hx hw => alike_insertsNothing (K _ _) hs hx hw) h
    (by rw [progress_table]; exact List.prefix_rfl)
  have hlookup (n : String) : (c.on ⟨l, items'⟩).walked.table.lookup n =
      (c.on ⟨l, items⟩).walked.table.lookup n := eq_of_exact (htable n)
  refine report_eq ?_ ?_
  · rw [check_diagnostics, check_diagnostics, hlookup, hlookup, hd]
    rfl
  · rw [check_definitions, check_definitions]
    simp only [hlookup]
    exact (filterMap_names (scope_edits h) fun n =>
      ((c.on ⟨l, items⟩).walked.table.lookup n).map (Summary.ofFacts n)).symm

end Checker

end Sessions.Check
