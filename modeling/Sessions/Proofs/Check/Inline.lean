import Sessions.Proofs.Check.Ledger

/-!
# Sessions.Proofs.Check.Inline

Facts without a table. `Scope.evaluate` computes the facts of an activity as a plain function; the
facts of definitions are a parameter. `Scope.inlined` takes for them what the evaluation of the
definition's own body gives, again and again at each call, to a given depth.

`facts_inlined`: if no definition calls itself, directly or through others, the facts that a check
keeps are the inlined ones, for any depth that is at least the number of definitions.
-/

namespace Sessions.Check

namespace Scope

/-- The facts of an input operation under the rules of the scope. -/
def intake (s : Scope) (l : Location) (operation : String) (starter : Bool) : Facts :=
  inputFacts (s.answering fun _ => none) l operation starter

mutual

/-- The facts of an activity, and whether the input that starts a session is still to come. A call
gives the facts of its definition and leaves it at that. -/
def evaluate (s : Scope) (call : String → Facts) : Activity → (starter : Bool) → Facts × Bool
  | .sequence _ (a :: rest), starter =>
    let r := s.evaluate call a starter
    s.evaluateSequence call rest r.1 r.2
  | .parallel _ (a :: rest), starter =>
    let r := s.evaluate call a starter
    s.evaluateParallel call rest r.1 r.2
  | .choice _ (⟨guard, body⟩ :: rest), starter =>
    let g := s.evaluate call guard starter
    let b := s.evaluate call body g.2
    (s.evaluateBranches call rest starter (g.1.sequence b.1).1, false)
  | .cond _ [] otherwise, starter => s.evaluate call otherwise starter
  | .cond _ (⟨_, body⟩ :: rest) otherwise, starter =>
    let r := s.evaluate call body starter
    let q := s.evaluateArms call rest starter r.1 (starter && r.2)
    let e := s.evaluate call otherwise starter
    ((q.1.choice e.1).1, q.2 && e.2)
  | .whileLoop _ _ body, starter => s.evaluate call body starter
  | .forEach _ _ _ body, starter => s.evaluate call body starter
  | .forLoop _ first _ post body, starter =>
    let a := s.evaluate call first starter
    let b := s.evaluate call body a.2
    let c := s.evaluate call post b.2
    ((a.1.sequence (b.1.sequence c.1).1).1, c.2)
  | .call _ name, starter => (call name, starter)
  | .oneWay l op _, starter => (s.intake l op starter, false)
  | .requestResponse l op _ _ handler, starter =>
    let r := s.evaluate call handler false
    ((s.intake l op starter).handler r.1, false)
  | .solicitResponse _ op port _ (some p), starter =>
    (if p.isCorrelation then Facts.empty.provide p (s.fresh port op).fresh else Facts.empty,
      starter)
  | .assign _ target op value, starter => (assignmentFacts target op value, starter)
  | .scope _ _ body, starter => s.evaluate call body starter
  | .synchronized _ _ body, starter => s.evaluate call body starter
  | .pointer _ left right, starter => ((Facts.empty.invalidate right).invalidate left, starter)
  | .deepCopy _ left right, starter => ((Facts.empty.invalidate right).invalidate left, starter)
  | .undef _ target, starter => (Facts.empty.invalidate target, starter)
  | _, starter => (Facts.empty, starter)

def evaluateSequence (s : Scope) (call : String → Facts) :
    List Activity → Facts → (starter : Bool) → Facts × Bool
  | [], f, starter => (f, starter)
  | a :: rest, f, starter =>
    let r := s.evaluate call a starter
    s.evaluateSequence call rest (f.sequence r.1).1 r.2

def evaluateParallel (s : Scope) (call : String → Facts) :
    List Activity → Facts → (starter : Bool) → Facts × Bool
  | [], f, starter => (f, starter)
  | a :: rest, f, starter =>
    let r := s.evaluate call a starter
    s.evaluateParallel call rest (f.parallel r.1).1 r.2

def evaluateBranches (s : Scope) (call : String → Facts) :
    List Branch → (starter : Bool) → Facts → Facts
  | [], _, f => f
  | ⟨guard, body⟩ :: rest, starter, f =>
    let g := s.evaluate call guard starter
    let b := s.evaluate call body g.2
    s.evaluateBranches call rest starter (f.choice (g.1.sequence b.1).1).1

def evaluateArms (s : Scope) (call : String → Facts) :
    List Arm → (starter : Bool) → Facts → (sofar : Bool) → Facts × Bool
  | [], _, f, sofar => (f, sofar)
  | ⟨_, body⟩ :: rest, starter, f, sofar =>
    let r := s.evaluate call body starter
    s.evaluateArms call rest starter (f.choice r.1).1 (sofar && r.2)

end

/-- The facts of a definition, its calls inlined to the given depth. -/
def inlined (s : Scope) : (depth : Nat) → String → Facts
  | 0, _ => Facts.empty
  | depth + 1, n =>
    match s.definition? n with
    | none => Facts.empty
    | some d => (s.evaluate (s.inlined depth) d.body (n == s.entry)).1

end Scope

/-! ## Evaluation and walk -/

section Yields

variable {α β : Type}

/-- The computation gives this result whatever the progress is. -/
def Yields (m : Walk α) (a : α) : Prop :=
  ∀ p, (m.run p).1 = a

theorem Gives.yields {m : Walk α} {a : α} {ds : List Diagnostic} (h : Gives m a ds) :
    Yields m a :=
  h.value

theorem Yields.bind {m : Walk α} {f : α → Walk β} {a : α} {b : β} (h : Yields m a)
    (hf : Yields (f a) b) : Yields (m >>= f) b := by
  intro p
  rw [run_bind, h p]
  exact hf _

theorem Yields.then {m : Walk α} {n : Walk β} {b : β} (h : Yields n b) :
    Yields (m >>= fun _ => n) b := by
  intro p
  rw [run_bind]
  exact h _

theorem Yields.pure (a : α) : Yields (Pure.pure a : Walk α) a :=
  fun _ => rfl

end Yields

namespace Scope

variable {s : Scope} {look : String → Option Facts} {call : String → Facts}

theorem walkSequence_yields {w : Setting} {as : List Activity}
    (h : ∀ a ∈ as, ∀ b, Yields (walk w a b) (s.evaluate call a b)) (f : Facts) (b : Bool) :
    Yields (walkSequence w as f b) (s.evaluateSequence call as f b) := by
  induction as generalizing f b with
  | nil => rw [walkSequence, evaluateSequence]; exact .pure _
  | cons a rest ih =>
    obtain ⟨ha, hrest⟩ := List.forall_mem_cons.1 h
    rw [walkSequence_cons, evaluateSequence]
    exact (ha b).bind ((inSequence_gives f _).yields.bind (ih hrest _ _))

theorem walkParallel_yields {w : Setting} {as : List Activity}
    (h : ∀ a ∈ as, ∀ b, Yields (walk w a b) (s.evaluate call a b)) (f : Facts) (b : Bool) :
    Yields (walkParallel w as f b) (s.evaluateParallel call as f b) := by
  induction as generalizing f b with
  | nil => rw [walkParallel, evaluateParallel]; exact .pure _
  | cons a rest ih =>
    obtain ⟨ha, hrest⟩ := List.forall_mem_cons.1 h
    rw [walkParallel_cons, evaluateParallel]
    exact (ha b).bind ((inParallel_gives f _).yields.bind (ih hrest _ _))

theorem walkBranch_yields {w : Setting} {guard body : Activity}
    (hg : ∀ b, Yields (walk w guard b) (s.evaluate call guard b))
    (hb : ∀ b, Yields (walk w body b) (s.evaluate call body b)) (b : Bool) :
    Yields (walkBranch w ⟨guard, body⟩ b) ((s.evaluate call guard b).1.sequence
      (s.evaluate call body (s.evaluate call guard b).2).1).1 :=
  (hg b).bind ((hb _).bind (inSequence_gives _ _).yields)

theorem walkBranches_yields {w : Setting} {bs : List Branch}
    (h : ∀ x ∈ bs, (∀ b, Yields (walk w x.guard b) (s.evaluate call x.guard b)) ∧
      ∀ b, Yields (walk w x.body b) (s.evaluate call x.body b))
    (b : Bool) (f : Facts) (reported : List String) :
    Yields (walkBranches w bs b f reported) (s.evaluateBranches call bs b f) := by
  induction bs generalizing f reported with
  | nil => rw [walkBranches, evaluateBranches]; exact .pure _
  | cons x rest ih =>
    obtain ⟨⟨hg, hb⟩, hrest⟩ := List.forall_mem_cons.1 h
    cases x with
    | mk guard body =>
      rw [walkBranches_cons, evaluateBranches]
      refine (walkBranch_yields hg hb b).bind ?_
      intro p
      rw [run_bind]
      exact ih hrest _ _ _

theorem walkArms_yields {w : Setting} {arms : List Arm}
    (h : ∀ x ∈ arms, ∀ b, Yields (walk w x.body b) (s.evaluate call x.body b))
    (b : Bool) (f : Facts) (sofar : Bool) (reported : List String) (p : Progress) :
    (((walkArms w arms b f sofar reported).run p).1.1,
      ((walkArms w arms b f sofar reported).run p).1.2.1) =
        s.evaluateArms call arms b f sofar := by
  induction arms generalizing f sofar reported p with
  | nil => rw [walkArms, evaluateArms]; rfl
  | cons x rest ih =>
    obtain ⟨hx, hrest⟩ := List.forall_mem_cons.1 h
    cases x with
    | mk c body =>
      rw [walkArms_cons, evaluateArms]
      simp only [run_bind]
      rw [hx b]
      exact ih hrest _ _ _ _

/-- A walk that follows no call gives what the evaluation gives. -/
theorem walk_yields (s : Scope) (look : String → Option Facts) (a : Activity) (b : Bool) :
    Yields (walk (s.answering look) a b)
      (s.evaluate (fun n => (look n).getD Facts.empty) a b) := by
  induction a generalizing b with
  | sequence l as ih =>
    cases as with
    | nil => rw [walk]; exact .pure _
    | cons a rest =>
      obtain ⟨ha, hrest⟩ := List.forall_mem_cons.1 ih
      rw [walk_sequence_cons, evaluate]
      exact (ha b).bind (walkSequence_yields hrest _ _)
  | parallel l as ih =>
    cases as with
    | nil => rw [walk]; exact .pure _
    | cons a rest =>
      obtain ⟨ha, hrest⟩ := List.forall_mem_cons.1 ih
      rw [walk_parallel_cons, evaluate]
      exact (ha b).bind (walkParallel_yields hrest _ _)
  | choice l bs ih =>
    cases bs with
    | nil => rw [walk]; exact .pure _
    | cons x rest =>
      obtain ⟨⟨hg, hb⟩, hrest⟩ := List.forall_mem_cons.1 ih
      cases x with
      | mk guard body =>
        rw [walk_choice_cons, evaluate]
        exact (walkBranch_yields hg hb b).bind ((walkBranches_yields hrest b _ []).bind (.pure _))
  | cond l arms otherwise iha iho =>
    cases arms with
    | nil => rw [walk, evaluate]; exact iho b
    | cons x rest =>
      obtain ⟨hx, hrest⟩ := List.forall_mem_cons.1 iha
      cases x with
      | mk c body =>
        rw [walk_cond_cons, evaluate]
        refine (hx b).bind fun p => ?_
        have harms := fun f sofar => walkArms_yields hrest b f sofar [] p
        simp only [run_bind]
        rw [iho b, ← harms]
        rfl
  | whileLoop l c body ih =>
    rw [walk_whileLoop, evaluate]
    exact (ih b).bind (Yields.then (.pure _))
  | forEach l key target body ih =>
    rw [walk_forEach, evaluate]
    exact (ih b).bind (Yields.then (.pure _))
  | forLoop l first c post body ihf ihp ihb =>
    rw [walk_forLoop, evaluate]
    refine (ihf b).bind ((ihb _).bind ((ihp _).bind ?_))
    refine (inSequence_gives _ _).yields.bind (Yields.then ?_)
    exact (inSequence_gives _ _).yields.bind (.pure _)
  | call l n =>
    rw [walk_call, evaluate]
    refine (Yields.pure (look n)).bind ?_
    cases look n with
    | some f => exact .pure _
    | none => exact Yields.then (.pure _)
  | oneWay l op target =>
    rw [walk_oneWay, evaluate]
    obtain ⟨ds, h⟩ := input_gives (s.answering look) l op target b
    exact h.yields.bind (.pure _)
  | requestResponse l op target output handler ih =>
    rw [walk_requestResponse, evaluate]
    obtain ⟨ds, h⟩ := input_gives (s.answering look) l op target b
    exact h.yields.bind ((ih false).bind (.pure _))
  | solicitResponse l op port output target =>
    rw [walk_solicitResponse]
    cases target with
    | none => exact .pure _
    | some p =>
      rw [evaluate]
      by_cases hp : p.isCorrelation = true
      · simp only [hp, if_true]
        exact (reply_gives _ op port p).yields.bind (.pure _)
      · simp only [hp]
        exact .pure _
  | assign l target op value =>
    rw [walk_assign, evaluate]
    obtain ⟨ds, h⟩ := assignment_gives l target op value
    exact h.yields.bind (.pure _)
  | increment l p pre decrement =>
    rw [walk_increment]
    by_cases hp : p.isCorrelation = true
    · simp only [hp, if_true]
      exact Yields.then (.pure _)
    · simp only [hp]
      exact .pure _
  | scope l name body ih => rw [walk, evaluate]; exact ih b
  | synchronized l id body ih => rw [walk, evaluate]; exact ih b
  | install l hs ih =>
    rw [walk_install]
    exact Yields.then (.pure _)
  | _ => rw [walk]; exact .pure _

theorem apart_facts (s : Scope) (look : String → Option Facts) (d : Definition) (n : String) :
    (s.apart look d n).1 =
      (s.evaluate (fun m => (look m).getD Facts.empty) d.body (n == s.entry)).1 :=
  congrArg Prod.fst (walk_yields s look d.body (n == s.entry) {})

theorem inlined_unknown {n : String} (h : s.definition? n = none) (depth : Nat) :
    s.inlined depth n = Facts.empty := by
  cases depth with
  | zero => rfl
  | succ depth => rw [inlined, h]

theorem inlined_known {n : String} {d : Definition} (h : s.definition? n = some d) (depth : Nat) :
    s.inlined (depth + 1) n = (s.evaluate (s.inlined depth) d.body (n == s.entry)).1 := by
  rw [inlined, h]

/-- A name without definition gives no facts, whether it is looked up or inlined. -/
theorem inlined_getD (depth : Nat) (n : String) :
    ((s.definition? n).map fun _ => s.inlined depth n).getD Facts.empty = s.inlined depth n := by
  cases h : s.definition? n with
  | none => rw [inlined_unknown h]; rfl
  | some _ => rfl

/-- If calls go down in rank, there is no cycle. -/
theorem acyclic_of_rank (rank : String → Nat)
    (h : ∀ d ∈ s.definitions, ∀ m ∈ d.body.calls, rank m < rank d.name) : s.Acyclic := by
  intro n hcycle
  obtain ⟨m, hcall, hback⟩ := Relation.TransGen.head'_iff.1 hcycle
  have hlone := lone_of_rank rank (fun d hd m hm => .inr (h d hd m hm)) n
  obtain rfl : m = n := hlone m (.single hcall) hback
  obtain ⟨d, hd, hm⟩ := hcall
  have hdown := h d (List.mem_of_find?_eq_some hd) m hm
  rw [name_of_definition? hd] at hdown
  exact Nat.lt_irrefl _ hdown

end Scope

namespace Checker

/-- Without cycles the table holds the inlined facts. The depth that is left for the calls of a
definition is enough for them, since they are not among the definitions that led to it. -/
theorem walked_inlined (c : Checker) (h : c.scope.Acyclic) {depth : Nat}
    (hdepth : c.scope.definitions.length ≤ depth) (n : String) :
    c.walked.table.lookup n = (c.scope.definition? n).map fun _ => c.scope.inlined depth n := by
  have hstack : c.scope.Stack [] depth n :=
    ⟨List.nodup_nil, List.forall_mem_nil _, by simpa using hdepth, List.forall_mem_nil _⟩
  refine hstack.induct (P := fun depth n => c.walked.table.lookup n =
    (c.scope.definition? n).map fun _ => c.scope.inlined depth n) ?_ ?_ List.not_mem_nil
    fun m _ => h.lone m
  · intro depth n hd
    rw [hd]
    exact walked_unknown hd
  · intro depth n d hd hlone ih
    obtain ⟨f, hf⟩ := c.walked_lookup hd
    obtain ⟨ds, hexplains⟩ := walked_explains hf
    obtain ⟨d', hd', hapart⟩ := hexplains.lone hlone
    obtain rfl : d = d' := Option.some.inj (hd.symm.trans hd')
    have hcalls : ∀ m ∈ d.body.calls, answer c.walked.table [n] m =
        (c.scope.definition? m).map fun _ => c.scope.inlined depth m := by
      intro m hm
      have hne : m ≠ n := by
        rintro rfl
        exact h m (.single ⟨d, hd, hm⟩)
      rw [answer, if_neg (by simpa using hne)]
      exact ih m hm hne
    rw [Scope.apart_congr hcalls] at hapart
    have hfacts := c.scope.apart_facts
      (fun m => (c.scope.definition? m).map fun _ => c.scope.inlined depth m) d n
    rw [hapart] at hfacts
    simp only [Scope.inlined_getD] at hfacts
    rw [hf, hd, Option.map_some, Scope.inlined_known hd]
    exact congrArg some hfacts

/-- The facts that a check keeps are those of plain inlining, and at this depth inlining is a plain
recursion: the calls of a body are inlined as the definition itself is. -/
theorem facts_inlined (c : Checker) (hacyclic : c.scope.Acyclic) {depth : Nat}
    (hdepth : c.scope.definitions.length ≤ depth) :
    (∀ n d, c.declared.find? (fun e => e.name == n) = some d →
      c.progress.table.lookup n = some (c.scope.inlined depth n) ∧
      c.scope.inlined depth n =
        (c.scope.evaluate (c.scope.inlined depth) d.body (n == c.entryName)).1) ∧
    c.facts = (firstDefinitions c.declared).map fun d =>
      (d.name, c.scope.inlined depth d.name) := by
  have hlookup : ∀ n d, c.scope.definition? n = some d →
      c.progress.table.lookup n = some (c.scope.inlined depth n) := by
    intro n d hd
    rw [progress_table, c.walked_inlined hacyclic hdepth, hd]
    rfl
  refine ⟨fun n d hd => ?_, ?_⟩
  · rw [← definition?_eq] at hd
    refine ⟨hlookup n d hd, ?_⟩
    -- One more level of inlining changes nothing, as both are the facts in the table.
    have hmore := c.walked_inlined hacyclic (Nat.le_succ_of_le hdepth) n
    rw [c.walked_inlined hacyclic hdepth n, hd] at hmore
    have heq : c.scope.inlined depth n = c.scope.inlined (depth + 1) n := Option.some.inj hmore
    rw [heq, Scope.inlined_known hd]
    rfl
  · rw [facts]
    have hsome : ∀ d ∈ c.scope.definitions,
        (c.progress.table.lookup d.name).map (fun f => (d.name, f)) =
          some (d.name, c.scope.inlined depth d.name) := by
      intro d hd
      rw [hlookup d.name d (definition?_of_mem hd)]
      rfl
    rw [List.filterMap_congr hsome]
    exact congrFun List.filterMap_eq_map _

/-- A session whose definitions call others that come later; two of them share one. -/
def relaySession : Checker where
  program := some ⟨{}, [
    .definition ⟨{}, "main", .sequence {} [receive "start", .call {} "open", .call {} "serve"]⟩,
    .definition ⟨{}, "serve",
      .whileLoop {} .missing (.sequence {} [receive "next", .call {} "log"])⟩,
    .definition ⟨{}, "open", .sequence {} [.call {} "log", token "sid"]⟩,
    .definition ⟨{}, "log", .assign {} ⟨{}, [⟨"count", none⟩]⟩ "=" (.fresh {})⟩]⟩
  correlation := some
    { sets := [corrSet "S" ["sid"]], operations := [("next", "S")] }
  fresh _ _ := ⟨false, none⟩

theorem facts_inlined_relay :
    relaySession.scope.Acyclic ∧
      relaySession.progress.table.lookup "main" = some (relaySession.scope.inlined 4 "main") ∧
      (relaySession.scope.inlined 4 "main").providedCorr.keys = [(corrPath "sid").key] := by
  have hacyclic : relaySession.scope.Acyclic := by
    refine Scope.acyclic_of_rank
      (fun n => if n = "main" then 2 else if n = "log" then 0 else 1) ?_
    decide +kernel
  have hmain : (relaySession.declared.find? fun e => e.name == "main").isSome = true := by
    decide +kernel
  obtain ⟨d, hd⟩ := Option.isSome_iff_exists.1 hmain
  have hdepth : relaySession.scope.definitions.length ≤ 4 := by decide +kernel
  exact ⟨hacyclic, ((facts_inlined relaySession hacyclic hdepth).1 "main" d hd).1,
    by decide +kernel⟩

end Checker

end Sessions.Check
