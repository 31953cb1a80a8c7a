import Sessions.Proofs.Check.Growth

/-!
# Sessions.Proofs.Check.Related

Two walks side by side. A `Link` says how the findings of two walks correspond: what they report
and, name by name, the facts in their tables. `Related` says that two computations, started from
linked progress, give corresponding results, corresponding reports and linked progress again. The
correspondence is asked for only up to a `stage` of the first walk, a property that an earlier
progress has whenever a later one has it: that nothing was reported so far, or that the table
leads to a given end.

The operations that only report are described by `Gives`: what they return and what they add to
the diagnostics.
-/

namespace Sessions.Check

variable {α β α' β' : Type}

/-- How the findings of two walks correspond. -/
structure Link where
  stage : Progress → Prop
  earlier : ∀ {p q : Progress}, p.Precedes q → stage q → stage p
  /-- The correspondence of what the two walks report. -/
  reports : List Diagnostic → List Diagnostic → Prop
  nil : reports [] []
  append : ∀ {ds ds' es es'}, reports ds ds' → reports es es' → reports (ds ++ es) (ds' ++ es')
  /-- The names whose facts are compared. -/
  known : String → Prop
  /-- The correspondence of the facts of a definition. -/
  facts : String → Facts → Facts → Prop

/-- The tables correspond, and the definitions in `active` are being walked. -/
structure Linked (L : Link) (active : List String) (p p' : Progress) : Prop where
  left : p.active = active
  right : p'.active = active
  table : ∀ n, L.known n → Option.Rel (L.facts n) (p.table.lookup n) (p'.table.lookup n)

/-- What was reported from `p` to `q` corresponds to what was reported from `p'` to `q'`. -/
def Link.Report (L : Link) (p q p' q' : Progress) : Prop :=
  ∃ ds ds', q.diagnostics = p.diagnostics ++ ds ∧ q'.diagnostics = p'.diagnostics ++ ds' ∧
    L.reports ds ds'

theorem Link.Report.refl {L : Link} (p p' : Progress) : L.Report p p p' p' :=
  ⟨[], [], (List.append_nil _).symm, (List.append_nil _).symm, L.nil⟩

theorem Link.Report.trans {L : Link} {p q r p' q' r' : Progress} (h : L.Report p q p' q')
    (h' : L.Report q r q' r') : L.Report p r p' r' := by
  obtain ⟨ds, ds', hd, hd', hr⟩ := h
  obtain ⟨es, es', he, he', hr'⟩ := h'
  refine ⟨ds ++ es, ds' ++ es', ?_, ?_, L.append hr hr'⟩
  · rw [he, hd, List.append_assoc]
  · rw [he', hd', List.append_assoc]

/-- From linked progress the computations give related results and linked progress. -/
def Related (L : Link) (active : List String) (A : α → β → Prop) (m : Walk α) (m' : Walk β) :
    Prop :=
  ∀ p p', Linked L active p p' → L.stage (m.run p).2 →
    A (m.run p).1 (m'.run p').1 ∧ Linked L active (m.run p).2 (m'.run p').2 ∧
      L.Report p (m.run p).2 p' (m'.run p').2

namespace Related

variable {L : Link} {active : List String} {A : α → β → Prop} {B : α' → β' → Prop}

theorem pure {a : α} {b : β} (h : A a b) :
    Related L active A (Pure.pure a : Walk α) (Pure.pure b : Walk β) :=
  fun p p' hp _ => ⟨h, hp, .refl p p'⟩

theorem bind {m : Walk α} {m' : Walk β} {f : α → Walk α'} {f' : β → Walk β'}
    [∀ a, Grows (f a)] (hm : Related L active A m m')
    (hf : ∀ a b, A a b → Related L active B (f a) (f' b)) :
    Related L active B (m >>= f) (m' >>= f') := by
  intro p p' hp hs
  rw [run_bind] at hs
  have hmid : L.stage (m.run p).2 := L.earlier (Grows.precedes _) hs
  obtain ⟨hab, hq, hd⟩ := hm p p' hp hmid
  rw [run_bind, run_bind]
  obtain ⟨hb, hr, he⟩ := hf _ _ hab _ _ hq hs
  exact ⟨hb, hr, hd.trans he⟩

theorem mono {A' : α → β → Prop} {m : Walk α} {m' : Walk β} (h : Related L active A m m')
    (hA : ∀ a b, A a b → A' a b) : Related L active A' m m' := by
  intro p p' hp hs
  obtain ⟨ha, hq, hd⟩ := h p p' hp hs
  exact ⟨hA _ _ ha, hq, hd⟩

/-- What was looked up may be compared by less. -/
theorem found {A' : α → β → Prop} {m : Walk (Option α)} {m' : Walk (Option β)}
    (h : Related L active (Option.Rel A) m m') (hA : ∀ a b, A a b → A' a b) :
    Related L active (Option.Rel A') m m' := by
  refine h.mono fun o o' ho => ?_
  cases ho with
  | none => exact .none
  | some h => exact .some (hA _ _ h)

theorem ite {c : Prop} [Decidable c] {m n : Walk α} {m' n' : Walk β}
    (hm : c → Related L active A m m') (hn : ¬c → Related L active A n n') :
    Related L active A (if c then m else n) (if c then m' else n') := by
  split
  · exact hm ‹c›
  · exact hn ‹¬c›

end Related

/-! ## Computations that only report -/

/-- The computation returns `a` and touches nothing but the log and the diagnostics, to which it
adds `ds`. -/
structure Gives (m : Walk α) (a : α) (ds : List Diagnostic) : Prop where
  value : ∀ p, (m.run p).1 = a
  diagnostics : ∀ p, (m.run p).2.diagnostics = p.diagnostics ++ ds
  table : ∀ p, (m.run p).2.table = p.table
  active : ∀ p, (m.run p).2.active = p.active

namespace Gives

theorem pure (a : α) : Gives (Pure.pure a : Walk α) a [] :=
  ⟨fun _ => rfl, fun p => (List.append_nil p.diagnostics).symm, fun _ => rfl, fun _ => rfl⟩

theorem note (line : String) : Gives (note line) () [] :=
  ⟨fun _ => rfl, fun p => (List.append_nil p.diagnostics).symm, fun _ => rfl, fun _ => rfl⟩

theorem report (l : Location) (pr : Problem) :
    Gives (report l pr) () [Diagnostic.ofProblem l pr] :=
  ⟨fun _ => rfl, fun _ => rfl, fun _ => rfl, fun _ => rfl⟩

theorem bind {m : Walk α} {f : α → Walk β} {a : α} {b : β} {ds es : List Diagnostic}
    (h : Gives m a ds) (hf : Gives (f a) b es) : Gives (m >>= f) b (ds ++ es) := by
  refine ⟨fun p => ?_, fun p => ?_, fun p => ?_, fun p => ?_⟩
  · rw [run_bind, h.value, hf.value]
  · rw [run_bind, h.value, hf.diagnostics, h.diagnostics, List.append_assoc]
  · rw [run_bind, h.value, hf.table, h.table]
  · rw [run_bind, h.value, hf.active, h.active]

theorem map {m : Walk α} {a : α} {ds : List Diagnostic} (h : Gives m a ds) (f : α → β) :
    Gives (m >>= fun a => Pure.pure (f a)) (f a) ds := by
  have := h.bind (f := fun a => Pure.pure (f a)) (pure (f a))
  rwa [List.append_nil] at this

end Gives

theorem Linked.report {L : Link} {active : List String} {m : Walk α} {m' : Walk β} {a : α} {b : β}
    {ds ds' : List Diagnostic} {p p' : Progress} (hp : Linked L active p p') (h : Gives m a ds)
    (h' : Gives m' b ds') : Linked L active (m.run p).2 (m'.run p').2 :=
  ⟨by rw [h.active, hp.left], by rw [h'.active, hp.right], by rw [h.table, h'.table]; exact hp.table⟩

theorem Gives.related {L : Link} {active : List String} {A : α → β → Prop} {m : Walk α} {m' : Walk β}
    {a : α} {b : β} {ds ds' : List Diagnostic} (h : Gives m a ds) (h' : Gives m' b ds')
    (hA : A a b) (hd : L.reports ds ds') : Related L active A m m' := by
  intro p p' hp _
  refine ⟨?_, hp.report h h', ds, ds', h.diagnostics p, h'.diagnostics p', hd⟩
  rw [h.value, h'.value]
  exact hA

/-- The diagnostics about a problem that each of the paths has. -/
def pathDiagnostics (problem : Path → Problem) (ps : List Path) : List Diagnostic :=
  ps.map fun p => Diagnostic.ofProblem p.loc (problem p)

theorem pathDiagnostics_eq_nil {problem : Path → Problem} {ps : List Path} :
    pathDiagnostics problem ps = [] ↔ ps = [] :=
  List.map_eq_nil_iff

theorem reportClashes_gives (ps : List Path) :
    Gives (reportClashes ps) () (pathDiagnostics .initialisedTwice ps) := by
  induction ps with
  | nil => exact .pure ()
  | cons p rest ih =>
    rw [reportClashes]
    exact (Gives.report p.loc (.initialisedTwice p)).bind ih

theorem inSequence_gives (f g : Facts) :
    Gives (inSequence f g) (f.sequence g).1 (pathDiagnostics .initialisedTwice (f.sequence g).2) :=
  (reportClashes_gives (f.sequence g).2).map fun _ => (f.sequence g).1

theorem inParallel_gives (f g : Facts) :
    Gives (inParallel f g) (f.parallel g).1 (pathDiagnostics .initialisedTwice (f.parallel g).2) :=
  (reportClashes_gives (f.parallel g).2).map fun _ => (f.parallel g).1

/-- The paths whose keys are new, each key once. -/
def unreported : List String → List Path → List Path
  | _, [] => []
  | reported, p :: rest =>
    if reported.contains p.key then unreported reported rest
    else p :: unreported (p.key :: reported) rest

/-- The keys reported before and those of the paths whose keys are new. -/
def reportedAfter (reported : List String) (ps : List Path) : List String :=
  ((unreported reported ps).map Path.key).reverse ++ reported

theorem mem_of_mem_unreported {reported : List String} {ps : List Path} {p : Path}
    (h : p ∈ unreported reported ps) : p ∈ ps := by
  induction ps generalizing reported with
  | nil => exact h
  | cons q rest ih =>
    rw [unreported] at h
    split at h
    · exact List.mem_cons_of_mem _ (ih h)
    · rcases List.mem_cons.1 h with rfl | h
      · exact List.mem_cons_self
      · exact List.mem_cons_of_mem _ (ih h)

theorem reportMismatches_gives (b : Branching) (reported : List String) (ps : List Path) :
    Gives (reportMismatches b reported ps) (reportedAfter reported ps)
      (pathDiagnostics (.branchesDisagree b) (unreported reported ps)) := by
  induction ps generalizing reported with
  | nil => exact .pure reported
  | cons p rest ih =>
    rw [reportMismatches]
    by_cases hp : reported.contains p.key
    · simpa only [if_pos hp, unreported, reportedAfter] using ih reported
    · have := (Gives.report p.loc (.branchesDisagree b p)).bind
        (f := fun _ => reportMismatches b (p.key :: reported) rest) (ih (p.key :: reported))
      simpa only [if_neg hp, unreported, reportedAfter, pathDiagnostics, List.map_cons, List.reverse_cons,
        List.append_assoc, List.singleton_append] using this

theorem reportedAfter_cons (reported : List String) (p : Path) (rest : List Path) :
    reportedAfter reported (p :: rest) =
      if reported.contains p.key then reportedAfter reported rest
      else reportedAfter (p.key :: reported) rest := by
  rw [reportedAfter, unreported]
  split
  · rfl
  · rw [reportedAfter, List.map_cons, List.reverse_cons, List.append_assoc, List.singleton_append]

theorem mem_reportedAfter {reported : List String} {ps : List Path} {k : String} :
    k ∈ reportedAfter reported ps ↔ k ∈ reported ∨ k ∈ ps.map Path.key := by
  induction ps generalizing reported with
  | nil => simp [reportedAfter, unreported]
  | cons p rest ih =>
    rw [reportedAfter_cons, List.map_cons, List.mem_cons]
    split
    · next h =>
      rw [ih]
      refine ⟨fun hk => hk.imp_right .inr, ?_⟩
      rintro (hk | rfl | hk)
      · exact .inl hk
      · exact .inl (List.contains_iff_mem.1 h)
      · exact .inr hk
    · rw [ih, List.mem_cons, or_assoc, or_left_comm]

theorem unreported_eq_nil {reported : List String} {ps : List Path} :
    unreported reported ps = [] ↔ ∀ k ∈ ps.map Path.key, k ∈ reported := by
  induction ps with
  | nil => simp [unreported]
  | cons p rest ih =>
    rw [unreported, List.map_cons, List.forall_mem_cons]
    split
    · next h => rw [ih, and_iff_right (List.contains_iff_mem.1 h)]
    · next h =>
      refine ⟨fun hnil => (List.cons_ne_nil _ _ hnil).elim, fun hk => ?_⟩
      exact absurd (List.contains_iff_mem.2 hk.1) h

/-- What is reported of a loop that initialises correlation variables. -/
def loopDiagnostics (l : Location) (f : Facts) : List Diagnostic :=
  if f.providedCorr.isEmpty then []
  else [Diagnostic.ofProblem l (.initialisedInLoop f.providedCorr.texts)]

theorem loopDiagnostics_eq_nil {l : Location} {f : Facts} :
    loopDiagnostics l f = [] ↔ f.providedCorr.isEmpty = true := by
  unfold loopDiagnostics
  split <;> simp_all

theorem forbidInit_gives (l : Location) (f : Facts) :
    Gives (forbidInit l f) () (loopDiagnostics l f) := by
  unfold forbidInit loopDiagnostics
  split
  · exact .pure ()
  · exact .report l _

/-- The paths of the correlation set of an operation, where the walk looks at sets at all. -/
def inputPaths (w : Setting) (operation : String) : List Path :=
  if w.mode = .single then []
  else ((w.correlation.bind (·.setFor? operation)).map (·.paths)).getD []

/-- The facts of an input operation. -/
def inputFacts (w : Setting) (l : Location) (operation : String) (starter : Bool) : Facts :=
  (inputPaths w operation).foldl
    (fun f p => if starter then f.provide (p.relocate l) false else f.need (p.relocate l))
    Facts.empty

/-- What is reported of an input that receives straight into a correlation variable. -/
def receptionDiagnostics (l : Location) (operation : String) : Option Path → List Diagnostic
  | some p => if p.isCorrelation then [Diagnostic.ofProblem l (.receivesOn operation p)] else []
  | none => []

/-- What is reported of an input operation. -/
def inputDiagnostics (w : Setting) (l : Location) (operation : String) (target : Option Path)
    (starter : Bool) : List Diagnostic :=
  receptionDiagnostics l operation target ++
    if w.mode ≠ .single ∧ starter = false ∧ inputPaths w operation = [] then
      [Diagnostic.ofProblem l (.noSet operation)]
    else []

theorem input_reports (w : Setting) (l : Location) (op : String) (target : Option Path)
    (s : Bool) :
    Gives (input w l op target s) (inputFacts w l op s) (inputDiagnostics w l op target s) := by
  have hset : Gives (do
      if w.mode = .single then return Facts.empty
      let set := w.correlation.bind (·.setFor? op)
      let paths := (set.map (·.paths)).getD []
      if !s && paths.isEmpty then report l (.noSet op)
      return paths.foldl
        (fun f p => if s then f.provide (p.relocate l) false else f.need (p.relocate l))
        Facts.empty) (inputFacts w l op s)
      (if w.mode ≠ .single ∧ s = false ∧ inputPaths w op = [] then
        [Diagnostic.ofProblem l (.noSet op)] else []) := by
    unfold inputFacts inputPaths
    by_cases hm : w.mode = .single
    · simp only [hm, ne_eq, not_true_eq_false, false_and, if_true, if_false]
      exact .pure _
    · simp only [hm, ne_eq, not_false_eq_true, true_and, if_false]
      generalize (Option.map (·.paths) (w.correlation.bind (·.setFor? op))).getD [] = paths
      cases s with
      | true => exact .pure _
      | false =>
        cases paths with
        | nil => exact (Gives.report l (.noSet op)).map _
        | cons p rest => exact .pure _
  unfold input inputDiagnostics
  cases target with
  | none => exact hset
  | some p =>
    simp only [receptionDiagnostics]
    split
    · exact (Gives.report l (.receivesOn op p)).bind hset
    · exact hset

theorem input_gives (w : Setting) (l : Location) (op : String) (target : Option Path)
    (s : Bool) : ∃ ds, Gives (input w l op target s) (inputFacts w l op s) ds :=
  ⟨_, input_reports w l op target s⟩

theorem input_congr {w w' : Setting} (hm : w.mode = w'.mode)
    (hc : w.correlation = w'.correlation) (l : Location) (op : String) (target : Option Path)
    (s : Bool) : input w l op target s = input w' l op target s := by
  unfold input
  rw [hm, hc]

/-- The facts of an assignment. -/
def assignmentFacts (target : Path) (op : String) (value : Expr) : Facts :=
  if op ≠ "" && op ≠ "=" then Facts.empty
  else match assigned target value with
    | some fresh => Facts.empty.provide target fresh
    | none => Facts.empty

/-- What is reported of an assignment. -/
def assignmentDiagnostics (l : Location) (target : Path) (op : String) (value : Expr) :
    List Diagnostic :=
  if target.isCorrelation = false then []
  else if op ≠ "" && op ≠ "=" then [Diagnostic.ofProblem l (.updated target op)]
  else if (assigned target value).isSome then []
  else [Diagnostic.ofProblem l (.notLiteral target)]

theorem assignment_reports (l : Location) (target : Path) (op : String) (value : Expr) :
    Gives (assignment l target op value) (assignmentFacts target op value)
      (assignmentDiagnostics l target op value) := by
  unfold assignment assignmentFacts assignmentDiagnostics
  by_cases ho : (op ≠ "" && op ≠ "=") = true
  · simp only [if_pos ho]
    cases target.isCorrelation with
    | true => exact (Gives.report l (.updated target op)).map _
    | false => exact .pure _
  · simp only [if_neg ho]
    cases assigned target value with
    | some fresh => simpa using Gives.pure _
    | none =>
      cases target.isCorrelation with
      | true => exact (Gives.report l (.notLiteral target)).map _
      | false => exact .pure _

theorem assignment_gives (l : Location) (target : Path) (op : String) (value : Expr) :
    ∃ ds, Gives (assignment l target op value) (assignmentFacts target op value) ds :=
  ⟨_, assignment_reports l target op value⟩

theorem reply_gives (w : Setting) (op port : String) (p : Path) :
    Gives (reply w op port p) (Facts.empty.provide p (w.fresh port op).fresh) [] := by
  unfold reply
  cases (w.fresh port op).remark with
  | none => exact .pure _
  | some line => exact (Gives.note line).map _

end Sessions.Check
