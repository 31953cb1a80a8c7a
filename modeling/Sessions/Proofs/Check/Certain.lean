import Sessions.Proofs.Check.Accounted
import Sessions.Proofs.Check.Branching
import Sessions.Proofs.Check.Unroll
import Sessions.Proofs.Program.Effect

/-!
# Sessions.Proofs.Check.Certain

What is certain of the ordinary paths that a check reports as provided. Facts vouch for an execution
(`Facts.Vouches`) if a path that they provide has a value when it ends, and a path that they do not
invalidate is not lost by it. Every merge keeps this, and without cycles of calls it holds of the
facts of every activity and of each execution of it (`evaluate_vouches`).

There is one exception. A loop exports what its turn provides, although it may run no turn at all
(`provides_uncertain`). So a path is certain in the executions in which each loop that provides it
runs at least one turn (`provides_certain`).
-/

namespace Sessions

/-! ## Facts that vouch for an execution -/

namespace Facts

variable {held : Activity → Bool} {k : String} {a b f : Facts} {t u v : List Effect}

/-- What the facts say of an ordinary location is true at the end of the execution. -/
def Vouches (held : Activity → Bool) (k : String) (f : Facts) (t : List Effect) : Prop :=
  k ∉ f.providedCorr.keys →
    (k ∈ f.providedVar.keys → Effect.fate held k t = some true) ∧
    (k ∉ f.invalidated.keys → Effect.fate held k t ≠ some false)

theorem vouches_empty : empty.Vouches held k [] :=
  fun _ => ⟨fun h => absurd h List.not_mem_nil, fun _ h => by cases h⟩

/-- Facts that provide nothing vouch for doing nothing. -/
theorem vouches_nothing (h : f.providedVar.keys = []) : f.Vouches held k [] := by
  intro _
  rw [h]
  exact ⟨fun hk => absurd hk List.not_mem_nil, fun _ h => by cases h⟩

theorem Vouches.invalidate (h : f.Vouches held k t) (p : Path) :
    (f.invalidate p).Vouches held k (t ++ [.lose p.key]) := by
  intro hk
  obtain ⟨hprovided, htracked⟩ := h hk
  have hfate : k ≠ p.key → Effect.fate held k (t ++ [.lose p.key]) = Effect.fate held k t := by
    intro hne
    rw [Effect.fate_append, Effect.fate, Effect.fate, Effect.state, if_neg (Ne.symm hne)]
    rfl
  constructor
  · intro hv
    obtain ⟨hv, hne⟩ := PathSet.mem_keys_remove.1 hv
    rw [hfate hne]
    exact hprovided hv
  · intro hi
    obtain ⟨hi, hne⟩ := not_or.1 (PathSet.mem_keys_add.not.1 hi)
    rw [hfate hne]
    exact htracked hi

theorem vouches_alias (left right : Path) :
    ((empty.invalidate right).invalidate left).Vouches held k
      [.lose right.key, .lose left.key] :=
  (vouches_empty.invalidate right).invalidate left

/-- The value of an accepted assignment is there afterwards. -/
theorem vouches_assign {p : Path} (hp : p.isCorrelation = false) (fresh : Bool) :
    (empty.provide p fresh).Vouches held k [.assign p.key] := by
  intro _
  have hkeys : (empty.provide p fresh).providedVar.keys = [p.key] := by
    rw [provide, hp]
    rfl
  rw [hkeys, List.mem_singleton, Effect.fate, Effect.fate, Effect.state, Option.none_or]
  refine ⟨fun hk => if_pos hk.symm, fun _ => ?_⟩
  split_ifs <;> exact fun h => by cases h

namespace Vouches

theorem or_eq_true {x y : Option Bool} (hx : x ≠ some false) (hy : y = some true) :
    x.or y = some true := by
  cases x with
  | none => exact hy
  | some b => cases b with
    | false => exact absurd rfl hx
    | true => rfl

theorem or_ne_false {x y : Option Bool} (hx : x ≠ some false) (hy : y ≠ some false) :
    x.or y ≠ some false := by
  cases x with
  | none => exact hy
  | some b => exact hx

/-- Facts of one part after another: the later part may lose what the earlier one provides, and it
may provide what the earlier one lost. -/
theorem after (hcorr : k ∈ f.providedCorr.keys ↔ k ∈ a.providedCorr.keys ∨ k ∈ b.providedCorr.keys)
    (hvar : k ∈ f.providedVar.keys ↔
      (k ∈ a.providedVar.keys ∧ k ∉ b.invalidated.keys) ∨ k ∈ b.providedVar.keys)
    (hinvalidated : k ∈ f.invalidated.keys ↔ (k ∈ a.invalidated.keys ∨ k ∈ b.invalidated.keys) ∧
      k ∉ b.providedCorr.keys ∧ k ∉ b.providedVar.keys)
    (h : a.Vouches held k t) (h' : b.Vouches held k u) : f.Vouches held k (t ++ u) := by
  intro hk
  rw [hcorr, not_or] at hk
  obtain ⟨hprovided, htracked⟩ := h hk.1
  obtain ⟨hprovided', htracked'⟩ := h' hk.2
  rw [hvar, hinvalidated, Effect.fate_append]
  constructor
  · rintro (⟨hka, hkb⟩ | hkb)
    · exact or_eq_true (htracked' hkb) (hprovided hka)
    · rw [hprovided' hkb, Option.some_or]
  · intro hnot
    by_cases hkb : k ∈ b.providedVar.keys
    · rw [hprovided' hkb, Option.some_or]
      exact fun h => by cases h
    · have htraced : k ∉ a.invalidated.keys ∧ k ∉ b.invalidated.keys :=
        not_or.1 fun hi => hnot ⟨hi, hk.2, hkb⟩
      exact or_ne_false (htracked' htraced.2) (htracked htraced.1)

theorem sequence (hb : b.WellFormed) (h : a.Vouches held k t) (h' : b.Vouches held k u) :
    (a.sequence b).1.Vouches held k (t ++ u) :=
  after (sequence_providedCorr a hb) (sequence_providedVar a hb) (sequence_invalidated a hb) h h'

theorem handler (hb : b.WellFormed) (h : a.Vouches held k t) (h' : b.Vouches held k u) :
    (a.handler b).Vouches held k (t ++ u) :=
  after (handler_providedCorr a hb) (handler_providedVar a hb) (handler_invalidated a hb) h h'

/-- In parallel, what one part provides is kept if the other part does not lose it. -/
theorem parallel (hb : b.WellFormed) (h : a.Vouches held k t) (h' : b.Vouches held k u)
    (hv : Interleaves t u v) : (a.parallel b).1.Vouches held k v := by
  intro hk
  rw [parallel_providedCorr a hb.apart, not_or] at hk
  obtain ⟨hprovided, htracked⟩ := h hk.1
  obtain ⟨hprovided', htracked'⟩ := h' hk.2
  rw [parallel_providedVar a hb.apart, parallel_invalidated a hb.apart, not_or]
  have hfate : Effect.fate held k v = (Effect.fate held k u).or (Effect.fate held k t) ∨
      Effect.fate held k v = (Effect.fate held k t).or (Effect.fate held k u) :=
    Effect.fate_interleaves hv
  rcases hfate with hfate | hfate <;> rw [hfate]
  · refine ⟨?_, fun hi => or_ne_false (htracked' hi.2) (htracked hi.1)⟩
    rintro (⟨hka, hkb⟩ | ⟨hkb, -⟩)
    · exact or_eq_true (htracked' hkb) (hprovided hka)
    · rw [hprovided' hkb, Option.some_or]
  · refine ⟨?_, fun hi => or_ne_false (htracked hi.1) (htracked' hi.2)⟩
    rintro (⟨hka, -⟩ | ⟨hkb, hka⟩)
    · rw [hprovided hka, Option.some_or]
    · exact or_eq_true (htracked hka) (hprovided' hkb)

/-- One of several parts runs. -/
theorem reconciles {fs : List Facts} {g : Facts} (hf : Reconciles fs f) (hg : g ∈ fs)
    (h : g.Vouches held k t) : f.Vouches held k t := by
  intro hk
  have hkg : k ∉ g.providedCorr.keys := fun hkg => hk ((hf.providedCorr k).2 ⟨g, hg, hkg⟩)
  obtain ⟨hprovided, htracked⟩ := h hkg
  rw [hf.providedVar, hf.invalidated]
  exact ⟨fun hv => hprovided (hv.2 g hg).1, fun hi => htracked fun hkg => hi ⟨g, hg, hkg⟩⟩

/-- The turns of a loop, one after the other. -/
theorem turns {ts : List (List Effect)} (hsome : ts ≠ []) (h : ∀ t ∈ ts, f.Vouches held k t) :
    f.Vouches held k ts.flatten := by
  induction ts with
  | nil => exact absurd rfl hsome
  | cons t rest ih =>
    obtain ⟨ht, hrest⟩ := List.forall_mem_cons.1 h
    by_cases hnil : rest = []
    · rw [hnil, List.flatten_singleton]
      exact ht
    · intro hk
      obtain ⟨hprovided, htracked⟩ := ih hnil hrest hk
      rw [List.flatten_cons, Effect.fate_append]
      refine ⟨fun hv => ?_, fun hi => or_ne_false (htracked hi) ((ht hk).2 hi)⟩
      rw [hprovided hv, Option.some_or]

/-- A loop that is passed by counts as if it had run, where its turn provides the location. -/
theorem pass {turn : Activity} (hheld : k ∈ f.providedVar.keys → held turn = true) :
    f.Vouches held k [.pass turn] := by
  intro _
  simp only [Effect.fate, Effect.state, Option.none_or]
  constructor
  · intro hv
    rw [if_pos (hheld hv)]
  · intro _
    split_ifs <;> exact fun h => by cases h

end Vouches

end Facts

namespace Check

/-! ## Evaluation -/

namespace Scope

/-- An invariant holds of what is evaluated, if it holds of the facts of the definitions. -/
theorem evaluate_invariant {P : Facts → Prop} (I : Invariant P True) (s : Scope)
    {call : String → Facts} (hcall : ∀ n, P (call n)) (a : Activity) (b : Bool) :
    P (s.evaluate call a b).1 := by
  let w := s.answering fun n => some (call n)
  have hgrows : ∀ n, Grows (w.lookup n) := fun n => grows_pure (some (call n))
  have K : Keeps (.alone fun _ => P) (fun f _ => P f) (fun _ _ => True) True w w :=
    { I.keeps s 0 0 with mode := rfl, correlation := rfl, fresh := rfl, input := I.input w }
  have hcalls : ∀ n ∈ a.calls, Related (.alone fun _ => P) [] (Option.Rel fun f _ => P f)
      (w.lookup n) (w.lookup n) := fun n _ => .pure (.some (hcall n))
  have hwalk := (alike_refl K ⟨hcalls, .inr trivial⟩ b).walks {} {}
    ⟨rfl, rfl, fun _ _ => .none⟩ trivial
  have heq := walk_yields s (fun n => some (call n)) a b {}
  rw [← show _ = s.evaluate call a b from heq]
  exact hwalk.1

section Evaluate

variable {s : Scope} {call : String → Facts} {held : Activity → Bool} {k : String}
  {f : Facts} {l : Location} {t u : List Effect}

/-- Walked with any flag, the activity has facts that vouch for each of its executions. -/
def Sound (s : Scope) (call : String → Facts) (held : Activity → Bool) (k : String)
    (a : Activity) : Prop :=
  ∀ b t, s.Affects a t → (s.evaluate call a b).1.Vouches held k t

/-- The facts of a branch: its guard and then its body. -/
def branchFacts (s : Scope) (call : String → Facts) (b : Bool) (x : Branch) : Facts :=
  ((s.evaluate call x.guard b).1.sequence
    (s.evaluate call x.body (s.evaluate call x.guard b).2).1).1

/-- The facts of an arm. -/
def armFacts (s : Scope) (call : String → Facts) (b : Bool) (x : Arm) : Facts :=
  (s.evaluate call x.body b).1

theorem evaluateBranches_eq (bs : List Branch) (b : Bool) (f : Facts) :
    s.evaluateBranches call bs b f = eitherOf f (bs.map (s.branchFacts call b)) := by
  induction bs generalizing f with
  | nil => rw [evaluateBranches]; rfl
  | cons x rest ih => cases x; rw [evaluateBranches, ih]; rfl

theorem evaluateArms_eq (arms : List Arm) (b : Bool) (f : Facts) (sofar : Bool) :
    (s.evaluateArms call arms b f sofar).1 = eitherOf f (arms.map (s.armFacts call b)) := by
  induction arms generalizing f sofar with
  | nil => rw [evaluateArms]; rfl
  | cons x rest ih => cases x; rw [evaluateArms, ih]; rfl

theorem evaluate_choice (bs : List Branch) (b : Bool) :
    (s.evaluate call (.choice l bs) b).1 = anyOf (bs.map (s.branchFacts call b)) := by
  cases bs with
  | nil => rfl
  | cons x rest => cases x; rw [evaluate, evaluateBranches_eq]; rfl

theorem evaluate_cond (arms : List Arm) (otherwise : Activity) (b : Bool) :
    (s.evaluate call (.cond l arms otherwise) b).1 =
      anyOf (arms.map (s.armFacts call b) ++ [(s.evaluate call otherwise b).1]) := by
  cases arms with
  | nil => rw [evaluate]; rfl
  | cons x rest =>
    rw [List.map_cons, List.cons_append, anyOf, eitherOf, List.foldl_concat, ← eitherOf]
    cases x
    rw [evaluate, ← evaluateArms_eq]
    rfl

variable (hwf : ∀ n, (call n).WellFormed)
include hwf

theorem evaluate_wellFormed (a : Activity) (b : Bool) : (s.evaluate call a b).1.WellFormed :=
  evaluate_invariant wellFormed_invariant s hwf a b

theorem evaluateSequence_vouches {as : List Activity}
    (h : ∀ a ∈ as, s.Sound call held k a) (hf : f.Vouches held k t)
    (hu : s.Affects (.sequence l as) u) (b : Bool) :
    (s.evaluateSequence call as f b).1.Vouches held k (t ++ u) := by
  induction as generalizing f t u b with
  | nil =>
    rw [affects_sequence_nil hu, List.append_nil, evaluateSequence]
    exact hf
  | cons a rest ih =>
    obtain ⟨ha, hrest⟩ := List.forall_mem_cons.1 h
    obtain ⟨v, w, rfl, hv, hw⟩ := affects_sequence_cons hu
    rw [evaluateSequence, ← List.append_assoc]
    exact ih hrest (hf.sequence (evaluate_wellFormed hwf a b) (ha b v hv)) hw _

theorem evaluateParallel_vouches {as : List Activity}
    (h : ∀ a ∈ as, s.Sound call held k a) (hf : f.Vouches held k t)
    (hu : s.Affects (.parallel l as) u) (b : Bool) {v : List Effect} (hv : Interleaves t u v) :
    (s.evaluateParallel call as f b).1.Vouches held k v := by
  induction as generalizing f t u v b with
  | nil =>
    rw [affects_parallel_nil hu] at hv
    rw [hv.eq_left, evaluateParallel]
    exact hf
  | cons a rest ih =>
    obtain ⟨ha, hrest⟩ := List.forall_mem_cons.1 h
    obtain ⟨x, y, hxy, hx, hy⟩ := affects_parallel_cons hu
    obtain ⟨z, hz, hzv⟩ := hv.assoc hxy
    rw [evaluateParallel]
    exact ih hrest (hf.parallel (evaluate_wellFormed hwf a b) (ha b x hx) hz) hy _ hzv

theorem sound_sequence {as : List Activity} (h : ∀ a ∈ as, s.Sound call held k a) :
    s.Sound call held k (.sequence l as) := by
  intro b t ht
  cases as with
  | nil =>
    rw [affects_sequence_nil ht]
    exact Facts.vouches_empty
  | cons a rest =>
    obtain ⟨ha, hrest⟩ := List.forall_mem_cons.1 h
    obtain ⟨u, v, rfl, hu, hv⟩ := affects_sequence_cons ht
    rw [evaluate]
    exact evaluateSequence_vouches hwf hrest (ha b u hu) hv _

theorem sound_parallel {as : List Activity} (h : ∀ a ∈ as, s.Sound call held k a) :
    s.Sound call held k (.parallel l as) := by
  intro b t ht
  cases as with
  | nil =>
    rw [affects_parallel_nil ht]
    exact Facts.vouches_empty
  | cons a rest =>
    obtain ⟨ha, hrest⟩ := List.forall_mem_cons.1 h
    obtain ⟨u, v, hv, hu, hrestv⟩ := affects_parallel_cons ht
    rw [evaluate]
    exact evaluateParallel_vouches hwf hrest (ha b u hu) hrestv _ hv

theorem sound_choice {bs : List Branch}
    (h : ∀ x ∈ bs, s.Sound call held k x.guard ∧ s.Sound call held k x.body) :
    s.Sound call held k (.choice l bs) := by
  intro b t ht
  obtain ⟨x, hx, u, v, rfl, hu, hv⟩ := affects_choice ht
  have hbranches : ∀ f ∈ bs.map (s.branchFacts call b), f.WellFormed := by
    intro f hf
    obtain ⟨y, -, rfl⟩ := List.mem_map.1 hf
    exact (evaluate_wellFormed hwf _ _).sequence (evaluate_wellFormed hwf _ _)
  have hbranch : (s.branchFacts call b x).Vouches held k (u ++ v) :=
    ((h x hx).1 b u hu).sequence (evaluate_wellFormed hwf _ _) ((h x hx).2 _ v hv)
  rw [evaluate_choice]
  exact .reconciles (anyOf_reconciles hbranches) (List.mem_map_of_mem hx) hbranch

theorem sound_cond {arms : List Arm} {otherwise : Activity}
    (h : ∀ x ∈ arms, s.Sound call held k x.body) (ho : s.Sound call held k otherwise) :
    s.Sound call held k (.cond l arms otherwise) := by
  intro b t ht
  have harms : ∀ f ∈ arms.map (s.armFacts call b) ++ [(s.evaluate call otherwise b).1],
      f.WellFormed := by
    intro f hf
    rcases List.mem_append.1 hf with hf | hf
    · obtain ⟨y, -, rfl⟩ := List.mem_map.1 hf
      exact evaluate_wellFormed hwf _ _
    · rw [List.mem_singleton.1 hf]
      exact evaluate_wellFormed hwf _ _
  rw [evaluate_cond]
  rcases affects_cond ht with ⟨x, hx, ht⟩ | ht
  · have hmem := List.mem_map_of_mem (f := s.armFacts call b) hx
    exact .reconciles (anyOf_reconciles harms) (List.mem_append_left _ hmem) (h x hx b t ht)
  · have hmem : (s.evaluate call otherwise b).1 ∈ [(s.evaluate call otherwise b).1] :=
      List.mem_cons_self
    exact .reconciles (anyOf_reconciles harms) (List.mem_append_right _ hmem) (ho b t ht)

theorem sound_loop {a turn : Activity} {first : List Activity} (ha : a.Turns l first turn)
    (hfirst : s.Sound call held k (.sequence l first)) (hturn : s.Sound call held k turn)
    (hheld : ∀ b, k ∈ (s.evaluate call turn b).1.providedVar.keys → held turn = true) :
    s.Sound call held k a := by
  intro b t ht
  obtain ⟨u, hu, hrest⟩ := affects_turns ha ht
  obtain ⟨v, rfl, hv⟩ : ∃ v, t = u ++ v ∧ ∀ b, (s.evaluate call turn b).1.Vouches held k v := by
    rcases hrest with rfl | ⟨turns, hsome, hturns, rfl⟩
    · exact ⟨_, rfl, fun b => .pass (hheld b)⟩
    · exact ⟨_, rfl, fun b => .turns hsome fun v hv => hturn b v (hturns v hv)⟩
  cases ha with
  | whileLoop l c body =>
    rw [affects_sequence_nil hu, List.nil_append, evaluate]
    exact hv b
  | forEach l key target body =>
    rw [affects_sequence_nil hu, List.nil_append, evaluate]
    exact hv b
  | forLoop l first c post body =>
    have hfacts := (hfirst b u hu).sequence (evaluate_wellFormed hwf _ _) (hv (first.after b))
    simp only [evaluate, evaluateSequence, evaluate_flag] at hfacts ⊢
    exact hfacts

omit hwf in
theorem vouches_intake (op : String) (b : Bool) : (s.intake l op b).Vouches held k [] := by
  refine Facts.vouches_nothing ?_
  unfold intake
  cases b with
  | true => rw [inputFacts_true]; rfl
  | false => rw [inputFacts_false]; rfl

omit hwf in
theorem vouches_assignment {target : Path} {op : String} {value : Expr} {t : List Effect}
    (ht : effects (.assign l target op value) = some t) :
    (assignmentFacts target op value).Vouches held k t := by
  cases ht
  rw [assignmentFacts_eq]
  cases accepted target op value with
  | none => simpa using Facts.vouches_empty
  | some fresh =>
    show (Facts.empty.provide target fresh).Vouches held k _
    by_cases hc : target.isCorrelation = true
    · rw [hc, if_neg (by simp)]
      refine Facts.vouches_nothing ?_
      rw [Facts.provide, if_pos hc]
      rfl
    · rw [Bool.not_eq_true] at hc
      rw [if_pos ⟨hc, rfl⟩]
      exact Facts.vouches_assign hc fresh

omit hwf in
theorem vouches_reply {op port : String} {output : Expr} {target : Option Path} (b : Bool) :
    (s.evaluate call (.solicitResponse l op port output target) b).1.Vouches held k [] := by
  cases target with
  | none => exact Facts.vouches_empty
  | some p =>
    rw [evaluate]
    refine Facts.vouches_nothing ?_
    split_ifs with hp
    · rw [Facts.provide, if_pos hp]; rfl
    · rfl

/-- The facts of an activity vouch for each of its executions, if those of its calls do. A loop
counts as held if its turn provides the location. -/
theorem evaluate_vouches {a : Activity}
    (hcall : ∀ n ∈ a.calls, ∀ d t, s.definition? n = some d → s.Affects d.body t →
      (call n).Vouches held k t)
    (hheld : ∀ turn b, k ∈ (s.evaluate call turn b).1.providedVar.keys → held turn = true) :
    s.Sound call held k a := by
  have hchild : ∀ {a x : Activity}, x ∈ a.children →
      (∀ n ∈ a.calls, ∀ d t, s.definition? n = some d → s.Affects d.body t →
        (call n).Vouches held k t) →
      ∀ n ∈ x.calls, ∀ d t, s.definition? n = some d → s.Affects d.body t →
        (call n).Vouches held k t :=
    fun hx h n hn => h n (Activity.mem_calls_of_child hx hn)
  induction a with
  | sequence l as ih =>
    exact sound_sequence hwf fun x hx => ih x hx (hchild (a := .sequence l as) hx hcall)
  | parallel l as ih =>
    exact sound_parallel hwf fun x hx => ih x hx (hchild (a := .parallel l as) hx hcall)
  | choice l bs ih =>
    refine sound_choice hwf fun x hx =>
      ⟨(ih x hx).1 (hchild ?_ hcall), (ih x hx).2 (hchild ?_ hcall)⟩
    · exact List.mem_flatMap.2 ⟨x, hx, List.mem_cons_self⟩
    · exact List.mem_flatMap.2 ⟨x, hx, List.mem_cons_of_mem _ List.mem_cons_self⟩
  | cond l arms otherwise iha iho =>
    refine sound_cond hwf (fun x hx => iha x hx (hchild ?_ hcall)) (iho (hchild ?_ hcall))
    · exact List.mem_append_left _ (List.mem_map_of_mem hx)
    · exact List.mem_append_right _ List.mem_cons_self
  | whileLoop l c body ih =>
    exact sound_loop hwf (.whileLoop l c body) (sound_sequence hwf (List.forall_mem_nil _))
      (ih (hchild List.mem_cons_self hcall)) (hheld body)
  | forEach l key target body ih =>
    exact sound_loop hwf (.forEach l key target body) (sound_sequence hwf (List.forall_mem_nil _))
      (ih (hchild List.mem_cons_self hcall)) (hheld body)
  | forLoop l first c post body ihf ihp ihb =>
    have hf := ihf (hchild (by simp [Activity.children]) hcall)
    have hb := ihb (hchild (by simp [Activity.children]) hcall)
    have hp := ihp (hchild (by simp [Activity.children]) hcall)
    refine sound_loop hwf (.forLoop l first c post body) (sound_sequence hwf ?_)
      (sound_sequence hwf ?_) (hheld _)
    · exact List.forall_mem_singleton.2 hf
    · exact List.forall_mem_cons.2 ⟨hb, List.forall_mem_singleton.2 hp⟩
  | call l n =>
    intro b t ht
    obtain ⟨d, hd, ht⟩ := affects_call ht
    exact hcall n (Activity.mem_calls_call l n) d t hd ht
  | requestResponse l op target output handler ih =>
    intro b t ht
    rw [evaluate]
    exact (vouches_intake op b).handler (evaluate_wellFormed hwf _ _)
      (ih (hchild List.mem_cons_self hcall) false t (affects_requestResponse ht))
  | scope l name body ih =>
    intro b t ht
    rw [evaluate]
    exact ih (hchild List.mem_cons_self hcall) b t (affects_scope ht)
  | synchronized l id body ih =>
    intro b t ht
    rw [evaluate]
    exact ih (hchild List.mem_cons_self hcall) b t (affects_synchronized ht)
  | assign l target op value =>
    intro b t ht
    rw [affects_own rfl ht, evaluate]
    exact vouches_assignment (l := l) rfl
  | pointer l left right =>
    intro b t ht
    rw [affects_own rfl ht, evaluate]
    exact Facts.vouches_alias left right
  | deepCopy l left right =>
    intro b t ht
    rw [affects_own rfl ht, evaluate]
    exact Facts.vouches_alias left right
  | undef l target =>
    intro b t ht
    rw [affects_own rfl ht, evaluate]
    exact Facts.vouches_empty.invalidate target
  | oneWay l op target =>
    intro b t ht
    rw [affects_own rfl ht, evaluate]
    exact vouches_intake op b
  | solicitResponse l op port output target =>
    intro b t ht
    rw [affects_own rfl ht]
    exact vouches_reply b
  | _ =>
    intro b t ht
    rw [affects_own rfl ht]
    exact Facts.vouches_empty

end Evaluate

end Scope

/-! ## Whole checks -/

namespace Checker

variable {c : Checker} {n k : String} {f : Facts} {t : List Effect}

theorem settled_wellFormed (hacyclic : c.scope.Acyclic) (n : String) :
    (c.settled n).WellFormed := by
  cases hd : c.scope.definition? n with
  | none =>
    rw [settled, Scope.inlined_unknown hd]
    exact .empty
  | some d =>
    refine walked_wellFormed (c := c) (n := n) ?_
    rw [c.walked_inlined hacyclic (Nat.le_refl _), hd]
    rfl

/-- The turn of a loop provides the location. -/
def TurnProvides (c : Checker) (k : String) (turn : Activity) : Prop :=
  ∃ b, k ∈ (c.scope.evaluate c.settled turn b).1.providedVar.keys

instance (k : String) : DecidablePred (c.TurnProvides k) := fun turn =>
  inferInstanceAs (Decidable (∃ b, k ∈ (c.scope.evaluate c.settled turn b).1.providedVar.keys))

/-- The executions of a definition. -/
def Executes (c : Checker) (n : String) (t : List Effect) : Prop :=
  ∃ d, c.scope.definition? n = some d ∧ c.scope.Affects d.body t

theorem settled_vouches (hacyclic : c.scope.Acyclic) (ht : c.Executes n t) :
    (c.settled n).Vouches (fun turn => decide (c.TurnProvides k turn)) k t := by
  have hstack := Scope.Stack.nil c.scope n
  refine hstack.induct (P := fun _ n => ∀ t, c.Executes n t →
    (c.settled n).Vouches (fun turn => decide (c.TurnProvides k turn)) k t) ?_ ?_ List.not_mem_nil
    (fun m _ => hacyclic.lone m) t ht
  · rintro _ n hd t ⟨d, hd', -⟩
    rw [hd] at hd'
    cases hd'
  · rintro _ n d hd - ih t ⟨d', hd', ht⟩
    cases hd.symm.trans hd'
    rw [← settled_eq hacyclic hd]
    refine Scope.evaluate_vouches (settled_wellFormed hacyclic) (fun m hm e u he hu => ?_)
      (fun turn b h => decide_eq_true ⟨b, h⟩) _ t ht
    have hne : m ≠ n := by
      rintro rfl
      exact hacyclic m (.single ⟨d, hd, hm⟩)
    exact ih m hm hne u ⟨e, he, hu⟩

/-- What is reported as provided is certain. In each execution of a definition that provides an
ordinary path, the path gets a value or a loop is passed by whose turn provides it, and after that
the path is not lost. So it is assigned for good if each such loop runs a turn. -/
theorem provides_certain (c : Checker) (hacyclic : c.scope.Acyclic) {n : String} {f : Facts}
    (hf : c.progress.table.lookup n = some f) {p : Path} (hp : p ∈ f.providedVar.paths)
    (hcorr : f.providedCorr.contains p = false) {t : List Effect} (ht : c.Executes n t) :
    (∃ u e v, t = u ++ e :: v ∧
      (e = .assign p.key ∨ ∃ turn, e = .pass turn ∧ c.TurnProvides p.key turn) ∧
      .lose p.key ∉ v) ∧
    ((∀ turn, .pass turn ∈ t → ¬ c.TurnProvides p.key turn) →
      ∃ u v, t = u ++ .assign p.key :: v ∧ .lose p.key ∉ v) := by
  obtain ⟨d, hd, -⟩ := id ht
  have hsettled : c.settled n = f := by
    rw [progress_table, c.walked_inlined hacyclic (Nat.le_refl _), hd] at hf
    exact Option.some.inj hf
  have hvouch := settled_vouches (k := p.key) hacyclic ht
  rw [hsettled] at hvouch
  have hfate :=
    (hvouch (PathSet.contains_eq_false_iff.1 hcorr)).1 (PathSet.mem_keys_of_mem_paths hp)
  obtain ⟨u, e, v, heq, he, hv⟩ := Effect.exists_of_fate hfate
  simp only [decide_eq_true_eq] at he
  refine ⟨⟨u, e, v, heq, he, hv⟩, fun hpass => ?_⟩
  rcases he with rfl | ⟨turn, rfl, hturn⟩
  · exact ⟨u, v, heq, hv⟩
  · refine absurd hturn (hpass turn ?_)
    rw [heq]
    exact List.mem_append_right _ List.mem_cons_self

/-- An ordinary path of one name. -/
def plainPath (name : String) : Path :=
  ⟨{}, [⟨name, none⟩]⟩

def setToOne (name : String) : Activity :=
  .assign {} (plainPath name) "=" (.constant {} (.int 1))

/-- A session that takes a default if it has no reply, and then counts in a loop. -/
def defaultSession : Checker where
  program := some ⟨{}, [
    .definition ⟨{}, "main", .sequence {} [receive "start",
      .cond {} [⟨.missing, .sequence {} [.undef {} (plainPath "reply"), setToOne "reply"]⟩]
        (.call {} "default"),
      .whileLoop {} .missing (setToOne "count"), .undef {} (plainPath "scratch")]⟩,
    .definition ⟨{}, "default", setToOne "reply"⟩]⟩
  correlation := none
  fresh _ _ := ⟨false, none⟩

/-- An execution without a reply and without a turn of the loop. -/
def defaultEffects : List Effect :=
  [.assign (plainPath "reply").key, .pass (setToOne "count"), .lose (plainPath "scratch").key]

theorem defaultSession_executes : defaultSession.Executes "main" defaultEffects := by
  refine ⟨_, rfl, .sequenceCons {} _ (t := []) (.own rfl) ?_⟩
  refine .sequenceCons {} _ (t := [.assign (plainPath "reply").key])
    (.otherwise {} _ _ (.call {} rfl (.own rfl))) ?_
  refine .sequenceCons {} _ (t := [.pass (setToOne "count")])
    (.pass (t := []) (.whileLoop {} .missing _) (.sequenceNil {})) ?_
  exact .sequenceCons {} _ (t := [.lose (plainPath "scratch").key]) (.own rfl) (.sequenceNil {})

theorem provides_certain_default :
    defaultSession.scope.Acyclic ∧ defaultSession.check.valid = true ∧
      (∃ f, defaultSession.progress.table.lookup "main" = some f ∧
        ∃ p ∈ f.providedVar.paths, p.key = (plainPath "reply").key) ∧
      defaultSession.Executes "main" defaultEffects ∧
      ∃ u v, defaultEffects = u ++ .assign (plainPath "reply").key :: v ∧
        .lose (plainPath "reply").key ∉ v := by
  have hacyclic : defaultSession.scope.Acyclic :=
    Scope.acyclic_of_rank (fun n => if n = "main" then 1 else 0) (by decide +kernel)
  have hreported : ∃ p ∈ ((defaultSession.progress.table.lookup "main").getD
      .empty).providedVar.paths, p.key = (plainPath "reply").key ∧
        ((defaultSession.progress.table.lookup "main").getD .empty).providedCorr.contains p =
          false := by decide +kernel
  have hsome : (defaultSession.progress.table.lookup "main").isSome = true := by decide +kernel
  obtain ⟨f, hf⟩ := Option.isSome_iff_exists.1 hsome
  rw [hf, Option.getD_some] at hreported
  have hidle : ¬ defaultSession.TurnProvides (plainPath "reply").key (setToOne "count") := by
    decide +kernel
  obtain ⟨p, hp, hkey, hcorr⟩ := hreported
  refine ⟨hacyclic, by decide +kernel, ⟨f, hf, p, hp, hkey⟩, defaultSession_executes, ?_⟩
  rw [← hkey] at hidle ⊢
  refine (provides_certain defaultSession hacyclic hf hp hcorr defaultSession_executes).2
    fun turn hturn => ?_
  obtain rfl : turn = setToOne "count" := by simpa [defaultEffects] using hturn
  exact hidle

/-- A session whose only assignment stands in a loop. -/
def idleSession : Checker where
  program := some ⟨{}, [.definition ⟨{}, "main",
    .sequence {} [receive "start",
      .whileLoop {} (.constant {} (.bool false)) (setToOne "x")]⟩]⟩
  correlation := none
  fresh _ _ := ⟨false, none⟩

/-- The path is reported as provided, but if the loop runs no turn then nothing is assigned. -/
theorem provides_uncertain :
    idleSession.scope.Acyclic ∧ idleSession.check.valid = true ∧
      (∃ f, idleSession.progress.table.lookup "main" = some f ∧
        ∃ p ∈ f.providedVar.paths, p.key = (plainPath "x").key) ∧
      idleSession.Executes "main" [.pass (setToOne "x")] ∧
      .assign (plainPath "x").key ∉ [Effect.pass (setToOne "x")] := by
  have hreported : ∃ p ∈ ((idleSession.progress.table.lookup "main").getD
      .empty).providedVar.paths, p.key = (plainPath "x").key := by decide +kernel
  have hsome : (idleSession.progress.table.lookup "main").isSome = true := by decide +kernel
  obtain ⟨f, hf⟩ := Option.isSome_iff_exists.1 hsome
  rw [hf, Option.getD_some] at hreported
  refine ⟨Scope.acyclic_of_rank (fun _ => 0) (by decide +kernel), by decide +kernel,
    ⟨f, hf, hreported⟩, ?_, by simp⟩
  refine ⟨_, rfl, .sequenceCons {} _ (t := []) (.own rfl) ?_⟩
  exact .sequenceCons {} _ (t := [.pass (setToOne "x")])
    (.pass (t := []) (.whileLoop {} _ _) (.sequenceNil {})) (.sequenceNil {})

end Checker

end Check

end Sessions
