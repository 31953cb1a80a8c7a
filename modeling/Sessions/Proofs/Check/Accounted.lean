import Sessions.Proofs.Check.WellFormed
import Sessions.Proofs.Facts.Account

/-!
# Sessions.Proofs.Check.Accounted

The facts that a walk computes, against the traces of what it walks. As long as nothing was
reported, the facts of each activity account for its traces (`accounted`), and so do those of the
entry point (`entry_accounted`) and of every definition (`quiet_bodies`).

The handler of the request that starts a session may initialise the variables that came with the
request once more; nothing else initialises a variable twice.
-/

namespace Sessions

/-- Whether the activity receives a message. -/
def Activity.isInput : Activity → Bool
  | .oneWay .. => true
  | .requestResponse .. => true
  | _ => false

namespace Check

open Facts (Accounts)

/-! ## Walks that report nothing -/

namespace Scope

/-- The keys that the request which starts a session brings along. -/
def rebound (s : Scope) : List String :=
  match (s.definition? s.entry).map Definition.body with
  | some (.sequence _ (.requestResponse _ op _ _ _ :: _)) => s.setKeys op
  | _ => []

theorem mem_rebound {s : Scope} {d : Definition} {l l' : Location} {op : String}
    {target : Option Path} {output : Expr} {handler : Activity} {rest : List Activity} {k : String}
    (hd : s.definition? s.entry = some d)
    (hbody : d.body = .sequence l (.requestResponse l' op target output handler :: rest)) :
    k ∈ s.rebound ↔ k ∈ s.setKeys op := by
  rw [rebound, hd, Option.map_some, hbody]

/-- The definition may initialise the key a second time: it reaches the entry point, which starts
with a request that brings the key along. -/
def Rebinds (s : Scope) (n k : String) : Prop :=
  Relation.ReflTransGen s.Calls n s.entry ∧ k ∈ s.rebound

end Scope

/-- What the activity that the entry point starts with initialises, the rest of it does not. -/
def Scope.Settled (s : Scope) : Prop :=
  ∀ d l first rest, s.definition? s.entry = some d → d.body = .sequence l (first :: rest) →
    Parted (s.traces true first) (s.traces false (.sequence l rest))

/-- A walk that reports nothing: the facts of each definition account for its traces. -/
def Link.quiet (s : Scope) : Link where
  stage p := p.diagnostics = []
  earlier h hq := List.prefix_nil.1 (hq ▸ h.diagnostics)
  reports _ _ := True
  nil := trivial
  append _ _ := trivial
  known _ := True
  facts n f _ := Accounts (s.Rebinds n) f (s.definitionTraces n) ∧ (n = s.entry → s.Settled)

section Quiet

variable {s : Scope} {active : List String} {again : String → Prop} {depth depth' : Nat}

theorem Gives.quiet {α β : Type} {m : Walk α} {m' : Walk β} {a : α} {b : β}
    {ds ds' : List Diagnostic} (h : Gives m a ds) (h' : Gives m' b ds') :
    Related (.quiet s) active (fun x y => x = a ∧ y = b ∧ ds = []) m m' := by
  intro p p' hp hs
  have hnil : (m.run p).2.diagnostics = [] := hs
  rw [h.diagnostics, List.append_eq_nil_iff] at hnil
  exact ⟨⟨h.value p, h'.value p', hnil.2⟩, hp.report h h', ds, ds', h.diagnostics p,
    h'.diagnostics p', trivial⟩

/-- Walks of the activity, after the session has started, give facts that account for its
traces. -/
def Accounted (s : Scope) (again : String → Prop) (active : List String) (depth depth' : Nat)
    (a : Activity) : Prop :=
  Related (.quiet s) active (fun r _ => Accounts again r.1 (s.traces false a))
    (walk (s.setting depth) a false) (walk (s.setting depth') a false)

theorem Related.flags {L : Link} {A : Facts × Bool → Facts × Bool → Prop} {w w' : Setting}
    {a : Activity} {b : Bool} (h : Related L active A (walk w a b) (walk w' a b))
    (hafter : a.after b = false) :
    Related L active (fun r r' => A r r' ∧ r.2 = false ∧ r'.2 = false) (walk w a b)
      (walk w' a b) := by
  intro p p' hp hs
  obtain ⟨hr, hlink⟩ := h p p' hp hs
  exact ⟨⟨hr, (walk_flag a b p).trans hafter, (walk_flag a b p').trans hafter⟩, hlink⟩

theorem Accounted.results {a : Activity} (h : Accounted s again active depth depth' a) :
    Related (.quiet s) active
      (fun r r' => Accounts again r.1 (s.traces false a) ∧ r.2 = false ∧ r'.2 = false)
      (walk (s.setting depth) a false) (walk (s.setting depth') a false) :=
  Related.flags h a.after_false

theorem Accounted.weaken {again' : String → Prop} {a : Activity}
    (h : Accounted s again active depth depth' a) (hle : ∀ k, again k → again' k) :
    Accounted s again' active depth depth' a :=
  Related.mono h fun _ _ hr => hr.weaken hle

/-- If nothing was reported of two parts that run one after the other, there is no clash. -/
theorem inSequence_parted {f g f' g' : Facts} {T U : Language Event}
    (hf : Accounts again f T) (hg : Accounts again g U) :
    Related (.quiet s) active (fun r _ => Accounts again r (T * U) ∧ Parted T U)
      (inSequence f g) (inSequence f' g') := by
  refine ((inSequence_gives f g).quiet (inSequence_gives f' g')).mono ?_
  rintro _ _ ⟨rfl, -, hd⟩
  have hnone := pathDiagnostics_eq_nil.1 hd
  exact ⟨hf.sequence hg hnone, hf.parted hg hnone⟩

theorem inSequence_accounted {f g f' g' : Facts} {T U : Language Event}
    (hf : Accounts again f T) (hg : Accounts again g U) :
    Related (.quiet s) active (fun r _ => Accounts again r (T * U)) (inSequence f g)
      (inSequence f' g') :=
  (inSequence_parted hf hg).mono fun _ _ h => h.1

theorem inParallel_accounted {f g f' g' : Facts} {T U : Language Event}
    (hf : Accounts again f T) (hg : Accounts again g U) :
    Related (.quiet s) active (fun r _ => Accounts again r (interleavings T U)) (inParallel f g)
      (inParallel f' g') := by
  refine ((inParallel_gives f g).quiet (inParallel_gives f' g')).mono ?_
  rintro _ _ ⟨rfl, -, hd⟩
  exact hf.parallel hg (pathDiagnostics_eq_nil.1 hd)

/-- If nothing was reported of two branches, they agree. -/
theorem reportMismatches_accounted {f g f' g' : Facts} {T U : Language Event} {r' : List String}
    (b : Branching) (hf : Accounts again f T) (hg : Accounts again g U) :
    Related (.quiet s) active
      (fun r _ => r = [] ∧ Accounts again (f.choice g).1 (T + U))
      (reportMismatches b [] (f.choice g).2) (reportMismatches b r' (f'.choice g').2) := by
  refine ((reportMismatches_gives b [] _).quiet (reportMismatches_gives b r' _)).mono ?_
  rintro _ _ ⟨rfl, -, hd⟩
  have hnil := pathDiagnostics_eq_nil.1 hd
  have hagree : (f.choice g).2 = [] := by
    rw [unreported_eq_nil] at hnil
    refine List.eq_nil_iff_forall_not_mem.2 fun p hp => ?_
    exact List.not_mem_nil (hnil p.key (List.mem_map_of_mem hp))
  exact ⟨by rw [reportedAfter, hnil]; rfl, hf.choice hg hagree⟩

theorem forbidInit_accounted {f f' : Facts} (l : Location) :
    Related (.quiet s) active (fun _ _ => f.providedCorr.isEmpty = true) (forbidInit l f)
      (forbidInit l f') := by
  refine ((forbidInit_gives l f).quiet (forbidInit_gives l f')).mono ?_
  rintro _ _ ⟨-, -, hd⟩
  exact loopDiagnostics_eq_nil.1 hd

/-! ## Parts and wholes -/

/-- The rest of a sequence initialises nothing that was initialised before. -/
theorem walkSequence_parted {as : List Activity} {f f' : Facts} {T : Language Event}
    (h : ∀ a ∈ as, Accounted s again active depth depth' a) (hf : Accounts again f T)
    (l : Location) :
    Related (.quiet s) active
      (fun r _ => Accounts again r.1 (T * s.traces false (.sequence l as)) ∧
        Parted T (s.traces false (.sequence l as)))
      (walkSequence (s.setting depth) as f false) (walkSequence (s.setting depth') as f' false) := by
  induction as generalizing f f' T with
  | nil =>
    rw [walkSequence, walkSequence, Scope.traces_sequence_nil, mul_one]
    exact .pure ⟨hf, .one T⟩
  | cons a rest ih =>
    obtain ⟨ha, hrest⟩ := List.forall_mem_cons.1 h
    rw [walkSequence_cons, walkSequence_cons, Scope.traces_sequence_cons, ← mul_assoc]
    refine ha.results.bind ?_
    rintro r r' ⟨hr, hs, hs'⟩
    refine (inSequence_parted hf hr).bind ?_
    rintro g g' ⟨hg, hparted⟩
    rw [hs, hs']
    exact (ih hrest hg).mono fun _ _ hq => ⟨hq.1, hparted.mul hq.2⟩

theorem walkSequence_accounted {as : List Activity} {f f' : Facts} {T : Language Event}
    (h : ∀ a ∈ as, Accounted s again active depth depth' a) (hf : Accounts again f T)
    (l : Location) :
    Related (.quiet s) active
      (fun r _ => Accounts again r.1 (T * s.traces false (.sequence l as)))
      (walkSequence (s.setting depth) as f false) (walkSequence (s.setting depth') as f' false) :=
  (walkSequence_parted h hf l).mono fun _ _ hr => hr.1

theorem walkParallel_accounted {as : List Activity} {f f' : Facts} {T : Language Event}
    (h : ∀ a ∈ as, Accounted s again active depth depth' a) (hf : Accounts again f T)
    (l : Location) :
    Related (.quiet s) active
      (fun r _ => Accounts again r.1 (interleavings T (s.traces false (.parallel l as))))
      (walkParallel (s.setting depth) as f false) (walkParallel (s.setting depth') as f' false) := by
  induction as generalizing f f' T with
  | nil =>
    rw [walkParallel, walkParallel, Scope.traces_parallel_nil]
    exact .pure (hf.mono fun _ => mem_of_interleavings_one)
  | cons a rest ih =>
    obtain ⟨ha, hrest⟩ := List.forall_mem_cons.1 h
    rw [walkParallel_cons, walkParallel_cons, Scope.traces_parallel_cons]
    refine ha.results.bind ?_
    rintro r r' ⟨hr, hs, hs'⟩
    refine (inParallel_accounted hf hr).bind fun g g' hg => ?_
    rw [hs, hs']
    exact (ih hrest hg).mono fun _ _ hq => hq.mono fun _ => mem_interleavings_assoc

/-- A branch: the guard and then the body. -/
theorem walkBranch_accounted {b : Branch} (hguard : Accounted s again active depth depth' b.guard)
    (hbody : Accounted s again active depth depth' b.body) :
    Related (.quiet s) active
      (fun f _ => Accounts again f (s.traces false b.guard * s.traces false b.body))
      (walkBranch (s.setting depth) b false) (walkBranch (s.setting depth') b false) := by
  refine hguard.results.bind ?_
  rintro r r' ⟨hr, hs, hs'⟩
  rw [hs, hs']
  exact hbody.bind fun q q' hq => inSequence_accounted hr hq

theorem walkBranches_accounted {bs : List Branch} {f f' : Facts} {T : Language Event}
    {reported' : List String}
    (h : ∀ b ∈ bs, Accounted s again active depth depth' b.guard ∧
      Accounted s again active depth depth' b.body)
    (hf : Accounts again f T) (l : Location) :
    Related (.quiet s) active (fun r _ => Accounts again r (T + s.traces false (.choice l bs)))
      (walkBranches (s.setting depth) bs false f [])
      (walkBranches (s.setting depth') bs false f' reported') := by
  induction bs generalizing f f' T reported' with
  | nil =>
    rw [walkBranches, walkBranches, Scope.traces_choice_nil, add_zero]
    exact .pure hf
  | cons b rest ih =>
    obtain ⟨hb, hrest⟩ := List.forall_mem_cons.1 h
    rw [walkBranches_cons, walkBranches_cons, Scope.traces_choice_cons, ← add_assoc]
    refine (walkBranch_accounted hb.1 hb.2).bind fun g g' hg => ?_
    refine (reportMismatches_accounted .choice hf hg).bind ?_
    rintro r r' ⟨hr, hchoice⟩
    rw [hr]
    exact ih hrest hchoice

theorem walkArms_accounted {arms : List Arm} {f f' : Facts} {T : Language Event}
    {sofar sofar' : Bool} {reported' : List String}
    (h : ∀ a ∈ arms, Accounted s again active depth depth' a.body) (hf : Accounts again f T) :
    Related (.quiet s) active
      (fun r _ => r.2.2 = [] ∧
        Accounts again r.1 (T + (arms.map fun a => s.traces false a.body).sum))
      (walkArms (s.setting depth) arms false f sofar [])
      (walkArms (s.setting depth') arms false f' sofar' reported') := by
  induction arms generalizing f f' T sofar sofar' reported' with
  | nil =>
    rw [walkArms, walkArms, List.map_nil, List.sum_nil, add_zero]
    exact .pure ⟨rfl, hf⟩
  | cons a rest ih =>
    obtain ⟨ha, hrest⟩ := List.forall_mem_cons.1 h
    rw [walkArms_cons, walkArms_cons, List.map_cons, List.sum_cons, ← add_assoc]
    refine Related.bind ha fun g g' hg => ?_
    refine (reportMismatches_accounted .cond hf hg).bind ?_
    rintro r r' ⟨hr, hchoice⟩
    rw [hr]
    exact ih hrest hchoice

theorem walkHandlers_accounted {hs : List Handler}
    (h : ∀ x ∈ hs, Accounted s again active depth depth' x.body) :
    Related (.quiet s) active (fun _ _ => True) (walkHandlers (s.setting depth) hs)
      (walkHandlers (s.setting depth') hs) := by
  induction hs with
  | nil => rw [walkHandlers, walkHandlers]; exact .pure trivial
  | cons x rest ih =>
    obtain ⟨hx, hrest⟩ := List.forall_mem_cons.1 h
    rw [walkHandlers_cons, walkHandlers_cons]
    exact Related.bind hx fun _ _ _ => ih hrest

/-! ## Inputs and assignments -/

theorem keys_received (hmode : s.mode ≠ .single) (l : Location) (op : String) :
    (receivedPaths (s.setting depth) l op).map Path.key = s.setKeys op := by
  have h : (s.setting depth).mode ≠ .single := hmode
  rw [keys_receivedPaths, inputPaths, if_neg h]
  rfl

theorem inputFacts_accounts (hmode : s.mode ≠ .single) (l : Location) (op : String)
    (first : Bool) :
    Accounts again (inputFacts (s.setting depth) l op first) {s.received first op} := by
  have hclean := inputFacts_clean (s.setting depth) l op first
  rw [Scope.received, ← keys_received hmode l op]
  cases first with
  | true =>
    rw [inputFacts_true] at hclean ⊢
    exact .receives hclean
  | false =>
    rw [inputFacts_false] at hclean ⊢
    exact .uses hclean

theorem input_accounted (l : Location) (op : String) (target : Option Path) (first : Bool) :
    Related (.quiet s) active (fun f _ => f = inputFacts (s.setting depth) l op first)
      (input (s.setting depth) l op target first) (input (s.setting depth') l op target first) := by
  obtain ⟨ds, h⟩ := input_gives (s.setting depth) l op target first
  obtain ⟨ds', h'⟩ := input_gives (s.setting depth') l op target first
  exact (h.quiet h').mono fun _ _ hf => hf.1

/-- An assignment provides its target if its value is accepted. -/
theorem assignmentFacts_eq (target : Path) (op : String) (value : Expr) :
    assignmentFacts target op value =
      ((Scope.accepted target op value).map (Facts.empty.provide target)).getD Facts.empty := by
  by_cases hop : op = "" ∨ op = "="
  · have hplain : (op ≠ "" && op ≠ "=") = false := by
      rcases hop with rfl | rfl <;> rfl
    rw [assignmentFacts, hplain, if_neg Bool.false_ne_true, Scope.accepted, if_pos hop]
    cases assigned target value <;> rfl
  · have hcompound : (op ≠ "" && op ≠ "=") = true := by simpa [not_or] using hop
    rw [assignmentFacts, if_pos hcompound, Scope.accepted, if_neg hop]
    rfl

theorem assignmentFacts_accounts (target : Path) (op : String) (value : Expr) :
    Accounts again (assignmentFacts target op value)
      {if target.isCorrelation then
        ((Scope.accepted target op value).map (.init target.key)).toList else []} := by
  rw [assignmentFacts_eq]
  cases Scope.accepted target op value with
  | none => rw [Option.map_none, Option.map_none, Option.toList_none, ite_self]; exact .empty
  | some fresh =>
    by_cases hc : target.isCorrelation = true
    · rw [if_pos hc]
      exact .provide hc fresh
    · rw [if_neg hc]
      refine .nothing (.provide target fresh) ?_
      show (Facts.empty.provide target fresh).providedCorr.isEmpty = true
      rw [Facts.provide, if_neg hc]
      rfl

/-! ## Whole activities -/

/-- The look-ups of the activity are related, what they may initialise a second time is allowed
here, and it makes no path untraceable. -/
structure Traceable (s : Scope) (again : String → Prop) (active : List String)
    (depth depth' : Nat) (a : Activity) : Prop where
  calls : ∀ n ∈ a.calls, Related (.quiet s) active (Option.Rel ((Link.quiet s).facts n))
    (s.define depth n) (s.define depth' n)
  again : ∀ n ∈ a.calls, ∀ k, s.Rebinds n k → again k
  aliasFree : a.aliasFree = true

theorem Traceable.child {a b : Activity} (h : Traceable s again active depth depth' a)
    (hb : b ∈ a.children) : Traceable s again active depth depth' b := by
  have hpart := Activity.mem_parts_of_child hb
  exact ⟨fun n hn => h.calls n (Activity.mem_calls_of_part hpart hn),
    fun n hn => h.again n (Activity.mem_calls_of_part hpart hn),
    Activity.aliasFree_of_part hpart h.aliasFree⟩

theorem accounted_sequence {l : Location} {as : List Activity}
    (h : ∀ a ∈ as, Accounted s again active depth depth' a) :
    Accounted s again active depth depth' (.sequence l as) := by
  unfold Accounted
  cases as with
  | nil =>
    rw [walk, walk, Scope.traces_sequence_nil]
    exact .pure .empty
  | cons a rest =>
    obtain ⟨ha, hrest⟩ := List.forall_mem_cons.1 h
    rw [walk_sequence_cons, walk_sequence_cons, Scope.traces_sequence_cons]
    refine ha.results.bind ?_
    rintro r r' ⟨hr, hs, hs'⟩
    rw [hs, hs']
    exact walkSequence_accounted hrest hr l

theorem accounted_parallel {l : Location} {as : List Activity}
    (h : ∀ a ∈ as, Accounted s again active depth depth' a) :
    Accounted s again active depth depth' (.parallel l as) := by
  unfold Accounted
  cases as with
  | nil =>
    rw [walk, walk, Scope.traces_parallel_nil]
    exact .pure .empty
  | cons a rest =>
    obtain ⟨ha, hrest⟩ := List.forall_mem_cons.1 h
    rw [walk_parallel_cons, walk_parallel_cons, Scope.traces_parallel_cons]
    refine ha.results.bind ?_
    rintro r r' ⟨hr, hs, hs'⟩
    rw [hs, hs']
    exact walkParallel_accounted hrest hr l

theorem accounted_choice {l : Location} {bs : List Branch}
    (h : ∀ b ∈ bs, Accounted s again active depth depth' b.guard ∧
      Accounted s again active depth depth' b.body) :
    Accounted s again active depth depth' (.choice l bs) := by
  unfold Accounted
  cases bs with
  | nil =>
    -- without a branch there is no trace to account for
    rw [walk, walk, Scope.traces_choice_nil]
    exact .pure (Accounts.empty.mono fun t ht => (Language.notMem_zero t ht).elim)
  | cons b rest =>
    obtain ⟨hb, hrest⟩ := List.forall_mem_cons.1 h
    rw [walk_choice_cons, walk_choice_cons, Scope.traces_choice_cons]
    refine (walkBranch_accounted hb.1 hb.2).bind fun f f' hf => ?_
    exact (walkBranches_accounted hrest hf l).bind fun g g' hg => .pure hg

theorem accounted_call {l : Location} {n : String}
    (h : Related (.quiet s) active (Option.Rel ((Link.quiet s).facts n)) (s.define depth n)
      (s.define depth' n)) (hagain : ∀ k, s.Rebinds n k → again k) :
    Accounted s again active depth depth' (.call l n) := by
  unfold Accounted
  rw [walk_call, walk_call, Scope.traces_call]
  refine Related.bind h fun found found' hfound => ?_
  cases hfound with
  | some hf => exact .pure (Accounts.weaken hf.1 hagain)
  | none =>
    -- an unknown name is reported
    refine ((Gives.report l (.noDefinition n)).quiet (Gives.report l _)).bind ?_
    rintro _ _ ⟨-, -, hd⟩
    cases hd

theorem accounted_forLoop {l : Location} {first post body : Activity} {c : Expr}
    (hf : Accounted s again active depth depth' first)
    (hb : Accounted s again active depth depth' body)
    (hp : Accounted s again active depth depth' post) :
    Accounted s again active depth depth' (.forLoop l first c post body) := by
  unfold Accounted
  rw [walk_forLoop, walk_forLoop, Scope.traces_forLoop]
  refine hf.results.bind ?_
  rintro a a' ⟨ha, hs, hs'⟩
  rw [hs, hs']
  refine hb.results.bind ?_
  rintro b b' ⟨hb, hs, hs'⟩
  rw [hs, hs']
  refine Related.bind hp fun c c' hc => ?_
  refine (inSequence_accounted hb hc).bind fun turn turn' hturn => ?_
  refine (forbidInit_accounted l).bind fun _ _ hempty => ?_
  exact (inSequence_accounted ha (hturn.loop hempty)).bind fun _ _ hr => .pure hr

theorem accounted_cond {l : Location} {arms : List Arm} {otherwise : Activity}
    (harms : ∀ a ∈ arms, Accounted s again active depth depth' a.body)
    (hother : Accounted s again active depth depth' otherwise) :
    Accounted s again active depth depth' (.cond l arms otherwise) := by
  unfold Accounted
  cases arms with
  | nil =>
    rw [walk, walk, Scope.traces_cond_nil]
    exact hother
  | cons a rest =>
    obtain ⟨ha, hrest⟩ := List.forall_mem_cons.1 harms
    rw [walk_cond_cons, walk_cond_cons, Scope.traces_cond, List.map_cons, List.sum_cons]
    refine Related.bind ha fun r r' hr => ?_
    refine (walkArms_accounted hrest hr).bind ?_
    rintro q q' ⟨hq, hqa⟩
    refine Related.bind hother fun e e' he => ?_
    rw [hq]
    exact (reportMismatches_accounted .cond hqa he).bind fun _ _ hr => .pure hr.2

theorem accounted_requestResponse (hmode : s.mode ≠ .single) {l : Location} {op : String}
    {target : Option Path} {output : Expr} {handler : Activity}
    (h : Accounted s again active depth depth' handler) :
    Accounted s again active depth depth' (.requestResponse l op target output handler) := by
  unfold Accounted
  rw [walk_requestResponse, walk_requestResponse, Scope.traces_requestResponse]
  refine (input_accounted l op target false).bind fun f f' hf => ?_
  refine Related.bind h fun r r' hr => .pure ?_
  have hin : Accounts again f {s.received false op} := hf ▸ inputFacts_accounts hmode l op false
  refine hin.handler hr ?_
  rw [hf, inputFacts_false]
  rfl

theorem oneWay_accounted (hmode : s.mode ≠ .single) (first : Bool) {l : Location} {op : String}
    {target : Option Path} :
    Related (.quiet s) active
      (fun r _ => Accounts again r.1 (s.traces first (.oneWay l op target)))
      (walk (s.setting depth) (.oneWay l op target) first)
      (walk (s.setting depth') (.oneWay l op target) first) := by
  rw [walk_oneWay, walk_oneWay, Scope.traces_emitted rfl]
  exact (input_accounted l op target first).bind fun f _ hf =>
    .pure (hf ▸ inputFacts_accounts hmode l op first)

theorem accounted_of_emitted {a : Activity} {f : Facts} {t : List Event}
    (h : Related (.quiet s) active (fun r _ => r.1 = f) (walk (s.setting depth) a false)
      (walk (s.setting depth') a false))
    (ht : s.emitted false a = some t) (hf : Accounts again f {t}) :
    Accounted s again active depth depth' a := by
  unfold Accounted
  rw [Scope.traces_emitted ht]
  exact h.mono fun _ _ hr => hr ▸ hf

theorem accounted_solicitResponse {l : Location} {op port : String} {output : Expr}
    {target : Option Path} :
    Accounted s again active depth depth' (.solicitResponse l op port output target) := by
  cases target with
  | none =>
    refine accounted_of_emitted ?_ rfl .empty
    rw [walk_solicitResponse, walk_solicitResponse]
    exact .pure rfl
  | some p =>
    by_cases hp : p.isCorrelation = true
    · refine accounted_of_emitted ?_ (by rw [Scope.emitted, if_pos hp]) (.provide hp _)
      rw [walk_solicitResponse, walk_solicitResponse]
      simp only [if_pos hp]
      exact ((reply_gives _ op port p).quiet (reply_gives _ op port p)).bind
        fun _ _ hf => .pure hf.1
    · refine accounted_of_emitted ?_ (by rw [Scope.emitted, if_neg hp]) .empty
      rw [walk_solicitResponse, walk_solicitResponse]
      simp only [if_neg hp]
      exact .pure rfl

/-- The facts of an activity account for its traces if those of its calls do. -/
theorem accounted (hmode : s.mode ≠ .single) {a : Activity}
    (h : Traceable s again active depth depth' a) : Accounted s again active depth depth' a := by
  induction a with
  | sequence l as ih => exact accounted_sequence fun a ha => ih a ha (h.child ha)
  | parallel l as ih => exact accounted_parallel fun a ha => ih a ha (h.child ha)
  | choice l bs ih =>
    refine accounted_choice fun b hb => ⟨(ih b hb).1 (h.child ?_), (ih b hb).2 (h.child ?_)⟩
    · exact List.mem_flatMap.2 ⟨b, hb, List.mem_cons_self⟩
    · exact List.mem_flatMap.2 ⟨b, hb, List.mem_cons_of_mem _ List.mem_cons_self⟩
  | cond l arms otherwise iha iho =>
    refine accounted_cond (fun a ha => iha a ha ?_) (iho ?_)
    · exact h.child (List.mem_append_left _ (List.mem_map_of_mem ha))
    · exact h.child (List.mem_append_right _ List.mem_cons_self)
  | whileLoop l c body ih =>
    unfold Accounted
    rw [walk_whileLoop, walk_whileLoop, Scope.traces_whileLoop]
    refine Related.bind (ih (h.child List.mem_cons_self)) fun r r' hr => ?_
    exact (forbidInit_accounted l).bind fun _ _ hempty => .pure (hr.loop hempty)
  | forEach l key target body ih =>
    unfold Accounted
    rw [walk_forEach, walk_forEach, Scope.traces_forEach]
    refine Related.bind (ih (h.child List.mem_cons_self)) fun r r' hr => ?_
    exact (forbidInit_accounted l).bind fun _ _ hempty => .pure (hr.loop hempty)
  | forLoop l first c post body ihf ihp ihb =>
    exact accounted_forLoop (ihf (h.child (by simp [Activity.children])))
      (ihb (h.child (by simp [Activity.children]))) (ihp (h.child (by simp [Activity.children])))
  | call l n =>
    have hn := Activity.mem_calls_call l n
    exact accounted_call (h.calls n hn) (h.again n hn)
  | oneWay l op target => exact oneWay_accounted hmode false
  | requestResponse l op target output handler ih =>
    exact accounted_requestResponse hmode (ih (h.child List.mem_cons_self))
  | solicitResponse l op port output target => exact accounted_solicitResponse
  | assign l target op value =>
    refine accounted_of_emitted ?_ rfl (assignmentFacts_accounts target op value)
    obtain ⟨ds, hg⟩ := assignment_gives l target op value
    rw [walk_assign, walk_assign]
    exact (hg.quiet hg).bind fun _ _ hf => .pure hf.1
  | increment l p pre decrement =>
    refine accounted_of_emitted ?_ rfl .empty
    rw [walk_increment, walk_increment]
    exact .ite (fun _ => ((Gives.report l _).quiet (Gives.report l _)).bind fun _ _ _ => .pure rfl)
      fun _ => .pure rfl
  | scope l name body ih =>
    unfold Accounted
    rw [walk, walk, Scope.traces_scope]
    exact ih (h.child List.mem_cons_self)
  | synchronized l id body ih =>
    unfold Accounted
    rw [walk, walk, Scope.traces_synchronized]
    exact ih (h.child List.mem_cons_self)
  | install l hs ih =>
    refine accounted_of_emitted ?_ rfl .empty
    rw [walk_install, walk_install]
    exact (walkHandlers_accounted fun x hx => ih x hx (h.child (List.mem_map_of_mem hx))).bind
      fun _ _ _ => .pure rfl
  | pointer l left right => cases Activity.isAlias_of_aliasFree h.aliasFree
  | deepCopy l left right => cases Activity.isAlias_of_aliasFree h.aliasFree
  | undef l target => cases Activity.isAlias_of_aliasFree h.aliasFree
  | _ =>
    refine accounted_of_emitted ?_ rfl .empty
    rw [walk, walk]
    exact .pure rfl

end Quiet

/-! ## The entry point -/

section Entry

variable {s : Scope} {active : List String} {again : String → Prop} {depth depth' : Nat}
  {l : Location} {op : String} {target : Option Path}

/-- The handler of the request that starts a session may initialise what came with the request once
more. -/
theorem requestResponse_accounted (hmode : s.mode ≠ .single) {output : Expr} {handler : Activity}
    (h : Accounted s (fun _ => False) active depth depth' handler)
    (hagain : ∀ k ∈ s.setKeys op, again k) :
    Related (.quiet s) active
      (fun r _ => Accounts again r.1
        (s.traces true (.requestResponse l op target output handler)))
      (walk (s.setting depth) (.requestResponse l op target output handler) true)
      (walk (s.setting depth') (.requestResponse l op target output handler) true) := by
  rw [walk_requestResponse, walk_requestResponse, Scope.traces_requestResponse]
  refine (input_accounted l op target true).bind fun f f' hf => ?_
  refine Related.bind h fun r r' hr => .pure ?_
  have hin : Accounts (fun _ => False) f {s.received true op} :=
    hf ▸ inputFacts_accounts hmode l op true
  refine hin.handler_again hr fun k hk => hagain k ?_
  rw [hf, inputFacts_true, PathSet.mem_keys_addPaths, keys_received hmode] at hk
  exact hk.resolve_left List.not_mem_nil

/-- The body of the entry point: the input that starts the session, and what follows. -/
theorem entry_accounted (hmode : s.mode ≠ .single) {d : Definition} {first : Activity}
    {rest : List Activity} (hd : s.definition? s.entry = some d)
    (hbody : d.body = .sequence l (first :: rest)) (hfirst : first.isInput = true)
    (h : Traceable s (fun _ => False) active depth depth' d.body) :
    Related (.quiet s) active
      (fun r _ => Accounts (s.Rebinds s.entry) r.1 (s.traces true d.body) ∧ s.Settled)
      (walk (s.setting depth) d.body true) (walk (s.setting depth') d.body true) := by
  have hstart : first.after true = false ∧ Related (.quiet s) active
      (fun r _ => Accounts (s.Rebinds s.entry) r.1 (s.traces true first))
      (walk (s.setting depth) first true) (walk (s.setting depth') first true) := by
    cases first with
    | oneWay l' op target => exact ⟨by rw [Activity.after], oneWay_accounted hmode true⟩
    | requestResponse l' op target output handler =>
      have hhandler : Accounted s (fun _ => False) active depth depth' handler := by
        rw [hbody] at h
        exact accounted hmode ((h.child List.mem_cons_self).child List.mem_cons_self)
      refine ⟨by rw [Activity.after], requestResponse_accounted hmode hhandler fun k hk => ?_⟩
      exact ⟨.refl, (Scope.mem_rebound hd hbody).2 hk⟩
    | _ => cases hfirst
  obtain ⟨hafter, hwalk⟩ := hstart
  have hrest : ∀ a ∈ rest, Accounted s (s.Rebinds s.entry) active depth depth' a := by
    intro a ha
    rw [hbody] at h
    exact (accounted hmode (h.child (List.mem_cons_of_mem _ ha))).weaken fun _ => False.elim
  rw [hbody, walk_sequence_cons, walk_sequence_cons, Scope.traces_sequence_cons]
  refine (hwalk.flags hafter).bind ?_
  rintro r r' ⟨hr, hs, hs'⟩
  rw [hs, hs']
  refine (walkSequence_parted hrest hr l).mono fun _ _ hq => ⟨hq.1, ?_⟩
  intro d' l' first' rest' hd' hbody'
  cases hd.symm.trans hd'
  cases hbody.symm.trans hbody'
  exact hq.2

end Entry

/-! ## Definitions -/

/-- The facts of every definition account for its traces, as long as nothing was reported. -/
theorem quiet_bodies {s : Scope} (hmode : s.mode ≠ .single) (hacyclic : s.Acyclic)
    (halias : ∀ d ∈ s.definitions, d.body.aliasFree = true) {main : Definition} {l : Location}
    {first : Activity} {rest : List Activity} (hmain : s.definition? s.entry = some main)
    (hbody : main.body = .sequence l (first :: rest)) (hfirst : first.isInput = true) :
    Bodies (.quiet s) s s where
  defined _ := Iff.rfl
  calls _ _ := trivial
  cut h := (hacyclic _ h).elim
  body := by
    intro n d d' active depth depth' _ hd hd' _ hcalls
    cases hd.symm.trans hd'
    have hfree := halias d (List.mem_of_find?_eq_some hd)
    show Related (.quiet s) active
      (fun (r _ : Facts × Bool) =>
        Accounts (s.Rebinds n) r.1 (s.definitionTraces n) ∧ (n = s.entry → s.Settled)) _ _
    rw [Scope.definitionTraces_eq hd]
    by_cases hn : n = s.entry
    · subst hn
      cases hd.symm.trans hmain
      rw [beq_self_eq_true]
      -- no call of the entry point comes back to it
      have hagain : ∀ m ∈ main.body.calls, ∀ k, s.Rebinds m k → False :=
        fun m hm k hk => hacyclic s.entry (.head' ⟨main, hd, hm⟩ hk.1)
      exact (entry_accounted hmode hd hbody hfirst ⟨hcalls, hagain, hfree⟩).mono
        fun _ _ hr => ⟨hr.1, fun _ => hr.2⟩
    · have hflag : (n == s.entry) = false := by simpa using hn
      rw [hflag]
      have hagain : ∀ m ∈ d.body.calls, ∀ k, s.Rebinds m k → s.Rebinds n k :=
        fun m hm k hk => ⟨.head ⟨d, hd, hm⟩ hk.1, hk.2⟩
      exact Related.mono (accounted hmode ⟨hcalls, hagain, hfree⟩) fun _ _ hr =>
        ⟨hr, fun h => (hn h).elim⟩

end Check

end Sessions
