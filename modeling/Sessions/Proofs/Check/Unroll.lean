import Sessions.Proofs.Check.Inline
import Sessions.Proofs.Check.WellFormed
import Sessions.Proofs.Facts.Algebra

/-!
# Sessions.Proofs.Check.Unroll

A loop is walked as if its body ran once. A turn that provides no correlation path may follow itself
any number of times without changing its facts (`Facts.repeated_eq`), so that the loop has the facts
of its unrolled form, whatever the number of turns.

The second walk of a turn starts with more definitions in the table than the first one did. Without
cycles of calls this makes no difference (`Visits.facts_eq`): at every moment of a check the walk
gives the facts of the evaluation with calls inlined.
-/

namespace Sessions

namespace Check

/-! ## The facts at a moment of a check -/

namespace Checker

variable {c : Checker} {n : String} {d : Definition} {depth : Nat} {p : Progress}
  {active : List String} {a : Activity} {s : Bool}

/-- The facts of a definition with all its calls inlined. -/
def settled (c : Checker) (n : String) : Facts :=
  c.scope.inlined c.scope.definitions.length n

def found (c : Checker) (n : String) : Option Facts :=
  (c.scope.definition? n).map fun _ => c.settled n

/-- The definitions in `active` are open, and the entries of the table are settled. -/
structure Settles (c : Checker) (active : List String) (p : Progress) : Prop where
  active : p.active = active
  table : ∀ m f, p.table.lookup m = some f → c.found m = some f

theorem settled_eq (hacyclic : c.scope.Acyclic) (hd : c.scope.definition? n = some d) :
    (c.scope.evaluate c.settled d.body (n == c.scope.entry)).1 = c.settled n := by
  have hmore := c.walked_inlined hacyclic (Nat.le_succ c.scope.definitions.length) n
  rw [c.walked_inlined hacyclic (Nat.le_refl _) n, hd] at hmore
  have heq : c.settled n = c.scope.inlined (c.scope.definitions.length + 1) n :=
    Option.some.inj hmore
  rw [heq, Scope.inlined_known hd]
  rfl

theorem getD_found (n : String) : (c.found n).getD Facts.empty = c.settled n :=
  Scope.inlined_getD c.scope.definitions.length n

theorem Settles.close {r : (Facts × Bool) × Progress} (h : c.Settles (n :: active) r.2)
    (hf : c.found n = some r.1.1) : c.Settles active (Scope.close n r) := by
  constructor
  · show r.2.active.erase n = active
    rw [h.active, List.erase_cons_head]
  · intro m f hm
    have hm : (r.2.table ++ [(n, r.1.1)]).lookup m = some f := hm
    rw [List.lookup_append] at hm
    cases hl : r.2.table.lookup m with
    | some g =>
      rw [hl, Option.some_or] at hm
      cases hm
      exact h.table m _ hl
    | none =>
      rw [hl, Option.none_or, List.lookup_cons, List.lookup_nil] at hm
      split at hm
      · next heq =>
        rw [beq_iff_eq] at heq
        rw [heq, hf]
        exact hm
      · cases hm

/-- The walk of an activity whose calls are answered by the settled facts. -/
theorem walk_settled
    (hcalls : ∀ m ∈ a.calls, ∀ q, c.Settles active q →
      ((c.scope.define depth m).run q).1 = c.found m ∧
        c.Settles active ((c.scope.define depth m).run q).2)
    (hp : c.Settles active p) :
    ((walk (c.scope.setting depth) a s).run p).1 = c.scope.evaluate c.settled a s ∧
      c.Settles active ((walk (c.scope.setting depth) a s).run p).2 := by
  have hsteady : Steady fun q (_ : Progress) => c.Settles active q :=
    fun _ _ _ _ hq => ⟨hq.active, hq.table⟩
  have hlook : ∀ m ∈ a.calls, Simulates (fun _ => True) (fun q (_ : Progress) => c.Settles active q)
      ((c.scope.setting depth).lookup m) ((c.scope.answering c.found).lookup m) :=
    fun m hm q _ hq _ => hcalls m hm q hq
  have hwalk : Simulates _ _ (walk (c.scope.setting depth) a s)
      (walk (c.scope.answering c.found) a s) :=
    walk_simulates (c.scope.sameRules _ _) (fun _ _ _ _ => trivial) hsteady a hlook s
  obtain ⟨hval, hend⟩ := hwalk p {} hp trivial
  refine ⟨?_, hend⟩
  have hcall : (fun m => (c.found m).getD Facts.empty) = c.settled := funext getD_found
  rw [hval, Scope.walk_yields c.scope c.found a s, hcall]

/-- The look-ups that a body makes close no cycle. -/
theorem call_notMem (hacyclic : c.scope.Acyclic) (hs : c.scope.Stack active depth n) {m : String}
    (hcall : c.scope.Calls n m) : m ∉ active :=
  fun hopen => hacyclic m (.tail' (hs.reaches m hopen) hcall)

/-- A call that closes no cycle is answered by the settled facts. -/
theorem define_settled (hacyclic : c.scope.Acyclic) (hs : c.scope.Stack active depth n)
    (ha : n ∉ active) (hp : c.Settles active p) :
    ((c.scope.define depth n).run p).1 = c.found n ∧
      c.Settles active ((c.scope.define depth n).run p).2 := by
  induction depth using Nat.strongRecOn generalizing n active p with
  | _ depth ih =>
    cases ht : p.table.lookup n with
    | some f =>
      rw [Scope.define_known ht]
      exact ⟨(hp.table n f ht).symm, hp⟩
    | none =>
      cases hd : c.scope.definition? n with
      | none =>
        rw [Scope.define_unknown ht hd, found, hd]
        exact ⟨rfl, hp⟩
      | some d =>
        obtain ⟨k, rfl, hpush⟩ := hs.push ha (by rw [hd]; rfl)
        have hopen : c.Settles (n :: active) { p with active := n :: p.active } :=
          ⟨by rw [hp.active], hp.table⟩
        have hcalls : ∀ m ∈ d.body.calls, ∀ q, c.Settles (n :: active) q →
            ((c.scope.define k m).run q).1 = c.found m ∧
              c.Settles (n :: active) ((c.scope.define k m).run q).2 := by
          intro m hm q hq
          have hcall : c.scope.Calls n m := ⟨d, hd, hm⟩
          exact ih k (Nat.lt_succ_self k) (hpush.call hcall) (call_notMem hacyclic hpush hcall) hq
        obtain ⟨hval, hend⟩ := walk_settled (s := n == c.scope.entry) hcalls hopen
        have hfound : c.found n = some (c.scope.opened k d n p).1.1 := by
          rw [found, hd, Option.map_some, ← settled_eq hacyclic hd, ← hval]
          rfl
        rw [Scope.define_open ht hd (by rw [hp.active]; exact ha)]
        exact ⟨hfound.symm, Settles.close hend hfound⟩

theorem Visits.settles (hacyclic : c.scope.Acyclic) (hp : c.Visits n depth p) :
    c.Settles p.active p := by
  refine ⟨rfl, fun m f hm => ?_⟩
  have htable := hp.table
  rw [progress_table] at htable
  rw [← Scope.lookup_of_isPrefix htable hm, c.walked_inlined hacyclic (Nat.le_refl _) m]
  rfl

/-- Whenever the check comes to an activity, the walk gives what the evaluation gives; this also
holds of one that is put together from parts of the body, and of what it leaves behind. -/
theorem visit_settled (hacyclic : c.scope.Acyclic) (hd : c.scope.definition? n = some d)
    (hp : c.Visits n depth p) (ha : ∀ m ∈ a.calls, m ∈ d.body.calls) {q : Progress}
    (hq : c.Settles p.active q) :
    ((walk (c.scope.setting depth) a s).run q).1 = c.scope.evaluate c.settled a s ∧
      c.Settles p.active ((walk (c.scope.setting depth) a s).run q).2 := by
  refine walk_settled (fun m hm r hr => ?_) hq
  have hcall : c.scope.Calls n m := ⟨d, hd, ha m hm⟩
  exact define_settled hacyclic (hp.stack.call hcall) (call_notMem hacyclic hp.stack hcall) hr

theorem part_settled_wellFormed (hacyclic : c.scope.Acyclic)
    (hd : c.scope.definition? n = some d) (hp : c.Visits n depth p) (ha : a ∈ d.body.parts) :
    (c.scope.evaluate c.settled a s).1.WellFormed := by
  have hwalk := (visit_settled (a := a) (s := s) hacyclic hd hp
    (fun m => Activity.mem_calls_of_part ha) (hp.settles hacyclic)).1
  rw [← hwalk]
  exact visit_invariant wellFormed_invariant (admits_true _) hd hp ha s

end Checker

/-! ## Turns -/

namespace Scope

variable {s : Scope} {call : String → Facts} {loop turn : Activity} {l : Location}
  {first : List Activity} {r : Facts}

theorem evaluate_flag (s : Scope) (call : String → Facts) (a : Activity) (b : Bool) :
    (s.evaluate call a b).2 = a.after b := by
  rw [← walk_flag (w := s.answering fun n => some (call n)) a b {},
    walk_yields s (fun n => some (call n)) a b]
  rfl

theorem evaluateSequence_replicate (h : s.evaluate call turn false = (r, false))
    (hr : r.sequence r = (r, [])) (k : Nat) :
    s.evaluateSequence call (List.replicate k turn) r false = (r, false) := by
  induction k with
  | zero => rw [List.replicate_zero, evaluateSequence]
  | succ k ih =>
    rw [List.replicate_succ, evaluateSequence, h]
    simp only [hr]
    exact ih

/-- A turn that may follow itself gives the loop the facts of its unrolled form. -/
theorem evaluate_unrolled (h : loop.Turns l first turn)
    (hr : ((s.evaluate call turn false).1.sequence (s.evaluate call turn false).1) =
      ((s.evaluate call turn false).1, [])) (k : Nat) :
    (s.evaluate call (Activity.unrolled l first turn (k + 1)) false).1 =
      (s.evaluate call loop false).1 := by
  have hflag : ∀ a : Activity, (s.evaluate call a false).2 = false := fun a => by
    rw [evaluate_flag, Activity.after_false]
  have hturn : s.evaluate call turn false = ((s.evaluate call turn false).1, false) :=
    Prod.ext rfl (hflag turn)
  have hturns : s.evaluate call (.sequence l (List.replicate (k + 1) turn)) false =
      s.evaluate call turn false := by
    rw [List.replicate_succ, evaluate, hflag, evaluateSequence_replicate hturn hr, ← hturn]
  unfold Activity.unrolled
  cases h with
  | whileLoop l c body =>
    rw [List.nil_append, evaluate, evaluateSequence, hturns, evaluate]
  | forEach l key target body =>
    rw [List.nil_append, evaluate, evaluateSequence, hturns, evaluate]
  | forLoop l first c post body =>
    rw [List.singleton_append, evaluate, evaluateSequence, hflag, hturns]
    simp only [evaluate, evaluateSequence, hflag]

end Scope

/-- The facts of a turn when the walk comes to it. -/
def turnFacts (w : Setting) (l : Location) (first : List Activity) (turn : Activity)
    (p : Progress) : Facts :=
  ((walk w turn false).run ((walk w (.sequence l first) false).run p).2).1.1

/-- The report that a loop initialises these correlation variables. -/
def loopReport (l : Location) (paths : List String) : Diagnostic where
  kind := "LoopInitForbidden"
  loc := l
  path := ""
  message := "initialising correlation variables in loops is forbidden ([" ++
    " ".intercalate paths ++ "])"

theorem mem_forbidInit {l : Location} {f : Facts} (h : f.providedCorr.isEmpty = false)
    (p : Progress) :
    loopReport l f.providedCorr.texts ∈ ((forbidInit l f).run p).2.diagnostics := by
  have hreport : loopReport l f.providedCorr.texts =
      Diagnostic.ofProblem l (.initialisedInLoop f.providedCorr.texts) := rfl
  rw [(forbidInit_gives l f).diagnostics, loopDiagnostics, h, hreport]
  simp

/-- A loop whose turn provides a correlation path is reported. -/
theorem turn_reported {w : Setting} [∀ n, Grows (w.lookup n)] {loop turn : Activity} {l : Location}
    {first : List Activity} {p : Progress} (h : loop.Turns l first turn)
    (hcorr : (turnFacts w l first turn p).providedCorr.isEmpty = false) :
    loopReport l (turnFacts w l first turn p).providedCorr.texts ∈
      ((walk w loop false).run p).2.diagnostics := by
  have hflag : ∀ a q, ((walk w a false).run q).1.2 = false := fun a q => by
    rw [walk_flag, Activity.after_false]
  unfold turnFacts at hcorr ⊢
  cases h with
  | whileLoop l c body =>
    rw [walk] at hcorr ⊢
    rw [walk_whileLoop, run_bind, run_bind]
    exact mem_forbidInit hcorr _
  | forEach l key target body =>
    rw [walk] at hcorr ⊢
    rw [walk_forEach, run_bind, run_bind]
    exact mem_forbidInit hcorr _
  | forLoop l first c post body =>
    have hstart : ∀ q, ((walk w (.sequence l [first]) false).run q).2 =
        ((walk w first false).run q).2 := fun q => by
      rw [walk_sequence_cons, run_bind, walkSequence]
      rfl
    have hturn : ∀ q, ((walk w (.sequence l [body, post]) false).run q).1.1 = ((do
        let b ← walk w body false
        let c ← walk w post b.2
        inSequence b.1 c.1).run q).1 := fun q => by
      rw [walk_sequence_cons]
      simp only [run_bind, walkSequence_cons]
      rw [walkSequence]
      rfl
    rw [hstart, hturn] at hcorr ⊢
    rw [walk_forLoop]
    simp only [run_bind, hflag] at hcorr ⊢
    exact (Grows.precedes (m := inSequence _ _) _).diagnostics.subset (mem_forbidInit hcorr _)

namespace Checker

variable {c : Checker} {n : String} {d : Definition} {depth : Nat} {p : Progress}
  {loop turn : Activity} {l : Location} {first : List Activity}

theorem turn_settled_wellFormed (hacyclic : c.scope.Acyclic)
    (hd : c.scope.definition? n = some d) (hp : c.Visits n depth p) (hloop : loop ∈ d.body.parts)
    (h : loop.Turns l first turn) : (c.scope.evaluate c.settled turn false).1.WellFormed := by
  have hpart : ∀ a ∈ loop.children, ∀ s, (c.scope.evaluate c.settled a s).1.WellFormed :=
    fun a ha s => part_settled_wellFormed hacyclic hd hp
      (Activity.parts_subset hloop (Activity.mem_parts_of_child ha))
  cases h with
  | whileLoop => exact hpart turn (by simp [Activity.children]) false
  | forEach => exact hpart turn (by simp [Activity.children]) false
  | forLoop l first e post body =>
    rw [Scope.evaluate, Scope.evaluateSequence, Scope.evaluateSequence]
    exact (hpart body (by simp [Activity.children]) _).sequence
      (hpart post (by simp [Activity.children]) _)

/-- One pass over a loop is enough. All facts of a check are well-formed, and well-formed facts that
provide no correlation path stay the same when their part runs again and again. So, without cycles
of calls, a loop that the session has come to after its start is either reported, or it has the
facts of any number of its turns. -/
theorem one_turn_suffices (c : Checker) :
    (∀ r, c.Produces r → r.WellFormed) ∧
    (∀ r : Facts, r.WellFormed → r.providedCorr.isEmpty = true → ∀ n, r.repeated n = (r, [])) ∧
    (c.scope.Acyclic → ∀ n d depth p loop l first turn, c.scope.definition? n = some d →
      c.Visits n depth p → loop ∈ d.body.parts → Activity.Turns loop l first turn →
      ((turnFacts (c.scope.setting depth) l first turn p).providedCorr.isEmpty = false →
        loopReport l (turnFacts (c.scope.setting depth) l first turn p).providedCorr.texts ∈
          ((walk (c.scope.setting depth) loop false).run p).2.diagnostics) ∧
      ((turnFacts (c.scope.setting depth) l first turn p).providedCorr.isEmpty = true → ∀ k, 0 < k →
        ((walk (c.scope.setting depth) (Activity.unrolled l first turn k) false).run p).1.1 =
          ((walk (c.scope.setting depth) loop false).run p).1.1)) := by
  refine ⟨fun _ hr => hr.wellFormed, fun _ => Facts.repeated_eq, ?_⟩
  intro hacyclic n d depth p loop l first turn hd hp hloop hturns
  refine ⟨turn_reported hturns, fun hcorr k hk => ?_⟩
  obtain ⟨k, rfl⟩ : ∃ m, k = m + 1 := ⟨k - 1, by omega⟩
  have hbody : ∀ {m}, m ∈ loop.calls → m ∈ d.body.calls := Activity.mem_calls_of_part hloop
  have hsettled := hp.settles hacyclic
  have hfirst := (visit_settled (a := .sequence l first) (s := false) hacyclic hd hp
    (fun m hm => hbody (hturns.calls.2.1 hm)) hsettled).2
  have hturn := (visit_settled (a := turn) (s := false) hacyclic hd hp
    (fun m hm => hbody (hturns.calls.1 hm)) hfirst).1
  have hunrolled := (visit_settled (a := Activity.unrolled l first turn (k + 1)) (s := false)
    hacyclic hd hp (fun m hm => hbody (hturns.calls.2.2 _ hm)) hsettled).1
  have hwhole := (visit_settled (a := loop) (s := false) hacyclic hd hp
    (fun m hm => hbody hm) hsettled).1
  rw [hunrolled, hwhole]
  refine Scope.evaluate_unrolled hturns ?_ k
  rw [turnFacts, hturn] at hcorr
  exact Facts.sequence_self (turn_settled_wellFormed hacyclic hd hp hloop hturns) hcorr

/-- A turn that receives, counts in another definition and drops what it made. -/
def pollTurn : Activity :=
  .sequence {} [receive "next", .call {} "log", .pointer {} ⟨{}, [⟨"reply", none⟩]⟩
    ⟨{}, [⟨"scratch", none⟩]⟩]

def pollStart : Activity :=
  .assign {} ⟨{}, [⟨"turn", none⟩]⟩ "=" (.constant {} (.int 0))

def pollStep : Activity :=
  .assign {} ⟨{}, [⟨"reply", none⟩]⟩ "=" (.constant {} .null)

def pollLoop : Activity :=
  .forLoop {} pollStart .missing pollStep pollTurn

/-- A session that polls in a loop. -/
def pollSession : Checker where
  program := some ⟨{}, [
    .definition ⟨{}, "main", .sequence {} [receive "start", token "sid", pollLoop]⟩,
    .definition ⟨{}, "log", .assign {} ⟨{}, [⟨"count", none⟩]⟩ "=" (.fresh {})⟩]⟩
  correlation := some { sets := [corrSet "S" ["sid"]], operations := [("next", "S")] }
  fresh _ _ := ⟨false, none⟩

theorem pollSession_visits : pollSession.Visits "main" 1 { active := ["main"] } := by
  refine ⟨⟨by decide, by decide +kernel, by decide +kernel, ?_⟩, List.nil_prefix⟩
  intro m hm
  rw [List.mem_singleton.1 hm]

theorem one_turn_suffices_poll :
    pollSession.scope.Acyclic ∧ pollSession.Visits "main" 1 { active := ["main"] } ∧
      (∃ r, pollSession.Produces r ∧ r.providedVar.texts = ["count"] ∧
        r.neededCorr.texts = ["csets.sid"] ∧ r.invalidated.texts = ["scratch", "reply"] ∧
        r.repeated 5 = (r, [])) ∧
      ((walk (pollSession.scope.setting 1) (.unrolled {} [pollStart]
          (.sequence {} [pollTurn, pollStep]) 3) false).run { active := ["main"] }).1.1 =
        ((walk (pollSession.scope.setting 1) pollLoop false).run { active := ["main"] }).1.1 := by
  have hacyclic : pollSession.scope.Acyclic :=
    Scope.acyclic_of_rank (fun n => if n = "main" then 1 else 0) (by decide +kernel)
  have hd : pollSession.scope.definition? "main" =
      some ⟨{}, "main", .sequence {} [receive "start", token "sid", pollLoop]⟩ := rfl
  have hloop : pollLoop ∈ (Activity.sequence {} [receive "start", token "sid", pollLoop]).parts :=
    Activity.mem_parts_of_child (by simp [Activity.children])
  have hturn : pollTurn ∈ (Activity.sequence {} [receive "start", token "sid", pollLoop]).parts :=
    Activity.parts_subset hloop
      (Activity.mem_parts_of_child (by simp [pollLoop, Activity.children]))
  obtain ⟨hwellFormed, hrepeat, hunroll⟩ := one_turn_suffices pollSession
  have hproduced : pollSession.Produces
      ((walk (pollSession.scope.setting 1) pollTurn false).run { active := ["main"] }).1.1 :=
    ⟨"main", _, 1, _, pollTurn, false, hd, pollSession_visits, hturn, rfl⟩
  refine ⟨hacyclic, pollSession_visits, ⟨_, hproduced, by decide +kernel, by decide +kernel,
    by decide +kernel, hrepeat _ (hwellFormed _ hproduced) (by decide +kernel) 5⟩, ?_⟩
  exact (hunroll hacyclic "main" _ 1 _ pollLoop {} [pollStart] (.sequence {} [pollTurn, pollStep])
    hd pollSession_visits hloop (.forLoop {} _ _ _ _)).2 (by decide +kernel) 3 (by decide)

end Checker

end Check

end Sessions
