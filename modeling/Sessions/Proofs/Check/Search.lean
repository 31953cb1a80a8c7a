import Mathlib.Data.List.Perm.Subperm
import Sessions.Proofs.Check.Findings
import Sessions.Proofs.Check.Verdict
import Sessions.Proofs.Text.Lookup

/-!
# Sessions.Proofs.Check.Search

The search for the facts of all definitions. Looking up a definition walks its body, which looks up
other definitions, and so on; the definitions that wait to be opened get fewer with each body.

* `Scope.step` — one look-up, with the look-ups inside the body left open. `search_step` says that
  the search takes this step, and that the answers it needs are those for progress with fewer
  definitions waiting. So the search ends, and no depth has to be given.
* `Scope.marked` — the same search, with a line in the log for each body that it walks.
* `Orderly` — each definition is either waiting, or open, or in the table.

`definitions_walked_once` puts these together for a whole check: each distinct name is walked once,
and has one entry in the table and in the report.
-/

namespace Sessions

/-! ## The first definition of each name -/

theorem filter_eraseDups {α : Type} [BEq α] [LawfulBEq α] (p : α → Bool) (l : List α) :
    l.eraseDups.filter p = (l.filter p).eraseDups := by
  induction h : l.length using Nat.strongRecOn generalizing l with
  | _ k ih =>
    cases l with
    | nil => rfl
    | cons a rest =>
      have hlen : (rest.filter fun b => !b == a).length < k := by
        have := List.length_filter_le (fun b => !b == a) rest
        simp only [List.length_cons] at h
        omega
      rw [List.eraseDups_cons]
      by_cases ha : p a = true
      · rw [List.filter_cons_of_pos ha, List.filter_cons_of_pos ha, List.eraseDups_cons,
          ih _ hlen _ rfl, List.filter_filter, List.filter_filter]
        simp only [Bool.and_comm]
      · -- What `p` accepts differs from `a`.
        have hne : ∀ b, (p b && !b == a) = p b := by
          intro b
          by_cases hb : b = a
          · simp [hb, ha]
          · simp [hb]
        rw [List.filter_cons_of_neg ha, List.filter_cons_of_neg ha, ih _ hlen _ rfl,
          List.filter_filter]
        simp only [hne]

theorem names_firstDefinitions (ds : List Definition) :
    (firstDefinitions ds).map (·.name) = (ds.map (·.name)).eraseDups := by
  induction ds with
  | nil => rfl
  | cons d rest ih =>
    have hfilter : ((firstDefinitions rest).filter fun e => e.name ≠ d.name).map (·.name) =
        ((firstDefinitions rest).map (·.name)).filter fun n => !n == d.name := by
      rw [List.filter_map]
      congr 1
      apply List.filter_congr
      intro e _
      by_cases he : e.name = d.name <;> simp [he]
    rw [firstDefinitions, List.map_cons, List.map_cons, List.eraseDups_cons, hfilter, ih,
      filter_eraseDups]

theorem nodup_names_firstDefinitions (ds : List Definition) :
    ((firstDefinitions ds).map (·.name)).Nodup := by
  induction ds with
  | nil => exact List.nodup_nil
  | cons d rest ih =>
    rw [firstDefinitions, List.map_cons, List.nodup_cons]
    refine ⟨?_, ih.sublist (List.filter_sublist.map _)⟩
    intro h
    obtain ⟨e, he, hname⟩ := List.mem_map.1 h
    have := (List.mem_filter.1 he).2
    simp [hname] at this

theorem find?_firstDefinitions (ds : List Definition) (n : String) :
    (firstDefinitions ds).find? (fun d => d.name == n) = ds.find? fun d => d.name == n := by
  induction ds with
  | nil => rfl
  | cons d rest ih =>
    rw [firstDefinitions, List.find?_cons, List.find?_cons]
    cases hd : d.name == n with
    | true => rfl
    | false =>
      simp only []
      rw [← ih, List.find?_filter]
      congr 1
      funext e
      have hne : d.name ≠ n := by simpa using hd
      by_cases he : e.name = n
      · simp [he, Ne.symm hne]
      · simp [he]

/-- Where names differ, a definition is found by its name. -/
theorem find?_of_nodup {ds : List Definition} (h : (ds.map (·.name)).Nodup) {d : Definition}
    (hd : d ∈ ds) : ds.find? (fun e => e.name == d.name) = some d := by
  induction ds with
  | nil => exact (List.not_mem_nil hd).elim
  | cons e rest ih =>
    rw [List.map_cons, List.nodup_cons] at h
    rcases List.mem_cons.1 hd with rfl | hd
    · simp
    · have hne : e.name ≠ d.name := fun he => h.1 (he ▸ List.mem_map_of_mem hd)
      rw [List.find?_cons_of_neg (by simpa using hne)]
      exact ih h.2 hd

namespace Check

namespace Scope

variable {s : Scope} {n : String} {p q : Progress}

theorem definition?_isSome_iff :
    (s.definition? n).isSome = true ↔ n ∈ s.definitions.map (·.name) := by
  rw [definition?, List.find?_isSome, List.mem_map]
  simp

theorem name_of_definition? {d : Definition} (h : s.definition? n = some d) : d.name = n := by
  have hname : (d.name == n) = true := List.find?_some (p := fun d : Definition => d.name == n) h
  simpa using hname

/-! ## Definitions that wait -/

/-- The definitions that are neither open nor in the table. -/
def waiting (s : Scope) (p : Progress) : List String :=
  (s.definitions.map (·.name)).filter fun n => !p.active.contains n && (p.table.lookup n).isNone

theorem mem_waiting : n ∈ s.waiting p ↔
    (s.definition? n).isSome = true ∧ n ∉ p.active ∧ p.table.lookup n = none := by
  rw [waiting, List.mem_filter, ← definition?_isSome_iff]
  simp

theorem waiting_le_length (s : Scope) (p : Progress) :
    (s.waiting p).length ≤ s.definitions.length := by
  have := List.length_filter_le
    (fun n => !p.active.contains n && (p.table.lookup n).isNone) (s.definitions.map (·.name))
  rwa [List.length_map] at this

/-- A definition that is opened waits no longer. -/
theorem waiting_open (h : n ∈ s.waiting p) :
    (s.waiting { p with active := n :: p.active }).length < (s.waiting p).length := by
  have heq : s.waiting { p with active := n :: p.active } =
      (s.waiting p).filter fun m => m != n := by
    rw [waiting, waiting, List.filter_filter]
    apply List.filter_congr
    intro m _
    by_cases hm : m = n <;> simp [hm]
  rw [heq, List.length_filter_lt_length_iff_exists]
  exact ⟨n, h, by simp⟩

theorem waiting_antitone (hpq : p.Precedes q) (ha : q.active = p.active) :
    (s.waiting q).length ≤ (s.waiting p).length := by
  refine (List.monotone_filter_right _ fun n hn => ?_).length_le
  rw [ha, Bool.and_eq_true] at hn
  rw [Bool.and_eq_true]
  refine ⟨hn.1, ?_⟩
  cases hl : p.table.lookup n with
  | none => rfl
  | some f =>
    have := hn.2
    rw [lookup_of_isPrefix hpq.table hl] at this
    cases this

/-! ## One step of the search -/

/-- The rules of the scope, with definitions looked up by `look`. -/
def asking (s : Scope) (look : String → Walk (Option Facts)) : Setting :=
  ⟨s.mode, s.correlation, s.fresh, look⟩

instance grows_asking (s : Scope) (look : String → Walk (Option Facts)) [∀ m, Grows (look m)]
    (n : String) : Grows ((s.asking look).lookup n) :=
  inferInstanceAs (Grows (look n))

theorem sameRules (s : Scope) (look look' : String → Walk (Option Facts)) :
    (s.asking look).SameRules (s.asking look') :=
  ⟨rfl, rfl, rfl⟩

/-- A look-up that tells of each body it walks; the definitions that are called inside the body are
looked up by `look`. -/
def step (s : Scope) (tell : Definition → Walk Unit) (look : String → Walk (Option Facts))
    (name : String) : Walk (Option Facts) := do
  let progress ← get
  match progress.table.lookup name with
  | some f => return some f
  | none =>
    match s.definition? name with
    | none => return none
    | some d =>
      if progress.active.contains name then return some Facts.empty
      else do
        tell d
        modify fun p => { p with active := name :: p.active }
        let (f, _) ← walk (s.asking look) d.body (name == s.entry)
        modify fun p => { p with
          active := p.active.erase name
          table := p.table ++ [(name, f)] }
        return some f

/-- Tells nothing. -/
def silent (_ : Definition) : Walk Unit :=
  pure ()

/-- The walk of a body that is opened at `p`. -/
def inside (s : Scope) (look : String → Walk (Option Facts)) (d : Definition) (n : String)
    (p : Progress) : (Facts × Bool) × Progress :=
  (walk (s.asking look) d.body (n == s.entry)).run { p with active := n :: p.active }

theorem step_run (s : Scope) (tell : Definition → Walk Unit)
    (look : String → Walk (Option Facts)) (n : String) (p : Progress) :
    (s.step tell look n).run p =
      match p.table.lookup n, s.definition? n with
      | some f, _ => (some f, p)
      | none, none => (none, p)
      | none, some d =>
        if n ∈ p.active then (some Facts.empty, p)
        else (some (s.inside look d n ((tell d).run p).2).1.1,
          close n (s.inside look d n ((tell d).run p).2)) := by
  have hget : (get : Walk Progress).run p = (p, p) := rfl
  unfold step
  simp only [run_bind, hget]
  cases p.table.lookup n with
  | some f => rfl
  | none =>
    cases s.definition? n with
    | none => rfl
    | some d =>
      simp only []
      by_cases ha : n ∈ p.active
      · rw [if_pos ha, if_pos (List.contains_iff_mem.2 ha)]; rfl
      · rw [if_neg ha, if_neg (fun h => ha (List.contains_iff_mem.1 h))]; rfl

/-- A look-up that may open a body takes a step. -/
theorem define_succ (s : Scope) (depth : Nat) (n : String) (p : Progress) :
    (s.define (depth + 1) n).run p = (s.step silent (s.define depth) n).run p := by
  rw [define_run, step_run]
  cases p.table.lookup n with
  | some f => rfl
  | none => cases s.definition? n <;> rfl

/-- The step depends on `look` only for progress with fewer definitions waiting. -/
theorem step_congr {look look' : String → Walk (Option Facts)} [∀ m, Grows (look m)]
    (h : ∀ m q, (s.waiting q).length < (s.waiting p).length → (look' m).run q = (look m).run q) :
    (s.step silent look' n).run p = (s.step silent look n).run p := by
  rw [step_run, step_run]
  cases hl : p.table.lookup n with
  | some f => rfl
  | none =>
    cases hd : s.definition? n with
    | none => rfl
    | some d =>
      simp only []
      by_cases ha : n ∈ p.active
      · rw [if_pos ha, if_pos ha]
      · rw [if_neg ha, if_neg ha]
        have hwait : n ∈ s.waiting p := mem_waiting.2 ⟨by rw [hd]; rfl, ha, hl⟩
        -- Inside the body the two walks stay at the same progress, below the measure at `p`.
        have hsteady : Steady fun q q' =>
            q = q' ∧ (s.waiting q).length < (s.waiting p).length := by
          rintro q _ ds lines ⟨rfl, hq⟩
          exact ⟨rfl, hq⟩
        have hlook : ∀ m ∈ d.body.calls, Simulates (fun _ => True)
            (fun q q' => q = q' ∧ (s.waiting q).length < (s.waiting p).length)
            (look m) (look' m) := by
          rintro m _ q _ ⟨rfl, hq⟩ _
          have hle := waiting_antitone (s := s) (Grows.precedes (m := look m) q)
            (Grows.active (m := look m) q)
          rw [h m q hq]
          exact ⟨rfl, rfl, Nat.lt_of_le_of_lt hle hq⟩
        have hwalk : Simulates _ _ (walk (s.asking look) d.body (n == s.entry))
            (walk (s.asking look') d.body (n == s.entry)) :=
          walk_simulates (s.sameRules look look') (fun _ _ _ _ => trivial) hsteady d.body hlook _
        obtain ⟨hval, hend, -⟩ := hwalk { p with active := n :: p.active }
          { p with active := n :: p.active } ⟨rfl, waiting_open hwait⟩ trivial
        have heq : s.inside look' d n p = s.inside look d n p := (Prod.ext hval hend).symm
        have htell : ((silent d).run p).2 = p := rfl
        rw [htell, heq]

/-- Without a body to open, no depth is needed. -/
theorem define_zero (h : s.waiting p = []) (n : String) :
    (s.define 0 n).run p = (s.define 1 n).run p := by
  rw [define_run, define_run]
  cases hl : p.table.lookup n with
  | some f => rfl
  | none =>
    cases hd : s.definition? n with
    | none => rfl
    | some d =>
      by_cases ha : n ∈ p.active
      · simp only [if_pos ha]
      · have hwait : n ∈ s.waiting p := mem_waiting.2 ⟨by rw [hd]; rfl, ha, hl⟩
        rw [h] at hwait
        exact (List.not_mem_nil hwait).elim

/-- A depth that lets all waiting definitions be opened is as good as any other. -/
theorem define_stable {depth : Nat} (h : (s.waiting p).length ≤ depth) (n : String) :
    (s.define (depth + 1) n).run p = (s.define depth n).run p := by
  induction depth generalizing n p with
  | zero => exact (define_zero (List.length_eq_zero_iff.1 (Nat.le_zero.1 h)) n).symm
  | succ depth ih =>
    rw [define_succ, define_succ]
    refine step_congr fun m q hq => ih ?_ m
    omega

/-- The look-up of a definition in a check. -/
def search (s : Scope) (n : String) : Walk (Option Facts) :=
  s.define s.definitions.length n

/-- The search takes one step, and what it asks for in the body are its own answers for progress
with fewer definitions waiting. -/
theorem search_step {look : String → Walk (Option Facts)}
    (h : ∀ m q, (s.waiting q).length < (s.waiting p).length →
      (look m).run q = (s.search m).run q) (n : String) :
    (s.step silent look n).run p = (s.search n).run p := by
  have hgrows : ∀ m, Grows (s.search m) := fun m => inferInstanceAs (Grows (s.define _ m))
  rw [step_congr h]
  exact (define_succ s s.definitions.length n p).symm.trans
    (define_stable (waiting_le_length s p) n)

/-! ## Waiting, open or done -/

/-- The definitions in the table and the open ones are definitions of the scope, and all are
different. -/
structure Orderly (s : Scope) (p : Progress) : Prop where
  nodup : (p.table.map (·.1) ++ p.active).Nodup
  defined : ∀ n ∈ p.table.map (·.1) ++ p.active, (s.definition? n).isSome = true

theorem Orderly.nil (s : Scope) {p : Progress} (ht : p.table = []) (ha : p.active = []) :
    s.Orderly p := by
  constructor <;> simp [ht, ha]

theorem Orderly.open (h : s.Orderly p) (hd : (s.definition? n).isSome = true)
    (ht : p.table.lookup n = none) (ha : n ∉ p.active) :
    s.Orderly { p with active := n :: p.active } := by
  have hperm : (p.table.map (·.1) ++ n :: p.active).Perm (n :: (p.table.map (·.1) ++ p.active)) :=
    List.perm_middle
  constructor
  · rw [hperm.nodup_iff, List.nodup_cons, List.mem_append]
    refine ⟨?_, h.nodup⟩
    rintro (hn | hn)
    · exact Text.lookup_eq_none_iff.1 ht hn
    · exact ha hn
  · intro m hm
    rcases List.mem_cons.1 (hperm.subset hm) with rfl | hm
    · exact hd
    · exact h.defined m hm

theorem Orderly.close {r : (Facts × Bool) × Progress} {active : List String}
    (h : s.Orderly r.2) (ha : r.2.active = n :: active) : s.Orderly (close n r) := by
  have hperm : ((Scope.close n r).table.map (·.1) ++ (Scope.close n r).active).Perm
      (r.2.table.map (·.1) ++ r.2.active) := by
    simp [Scope.close, ha]
  exact ⟨hperm.nodup_iff.2 h.nodup, fun m hm => h.defined m (hperm.subset hm)⟩

theorem define_orderly (s : Scope) (depth : Nat) (n : String) {p : Progress} (h : s.Orderly p) :
    s.Orderly ((s.define depth n).run p).2 := by
  induction depth generalizing n p with
  | zero =>
    obtain hp | ⟨_, _, hk, _⟩ := s.define_cases 0 n p
    · rw [hp]; exact h
    · cases hk
  | succ depth ih =>
    rw [define_run]
    cases hl : p.table.lookup n with
    | some f => exact h
    | none =>
      cases hd : s.definition? n with
      | none => exact h
      | some d =>
        simp only []
        by_cases ha : n ∈ p.active
        · rw [if_pos ha]; exact h
        · rw [if_neg ha]
          have hopen : s.Orderly { p with active := n :: p.active } :=
            h.open (by rw [hd]; rfl) hl ha
          have hbody : s.Orderly (s.opened depth d n p).2 :=
            walk_keeps (w := s.setting depth) (fun _ _ _ hq => ⟨hq.nodup, hq.defined⟩)
              (fun m q hq => ih m hq) d.body (n == s.entry) hopen
          have hactive : (s.opened depth d n p).2.active = n :: p.active :=
            Grows.active (m := walk (s.setting depth) d.body (n == s.entry)) _
          exact hbody.close hactive

theorem defineAll_orderly (s : Scope) (ds : List Definition) {p : Progress} (h : s.Orderly p) :
    s.Orderly ((s.defineAll ds).run p).2 := by
  induction ds generalizing p with
  | nil => exact h
  | cons d rest ih =>
    rw [defineAll, run_bind]
    exact ih (define_orderly s _ d.name h)

/-! ## A line for each body -/

/-- The search to a depth, with a line in the log for each body that is walked. -/
def marked (s : Scope) (mark : Definition → String) : (depth : Nat) → String →
    Walk (Option Facts)
  | 0, n => s.define 0 n
  | depth + 1, n => s.step (fun d => note (mark d)) (s.marked mark depth) n

def markedAll (s : Scope) (mark : Definition → String) : List Definition → Walk Unit
  | [] => return ()
  | d :: rest => do
    let _ ← s.marked mark s.definitions.length d.name
    s.markedAll mark rest

/-- The lines for the definitions of these names. -/
def marks (s : Scope) (mark : Definition → String) (ns : List String) : List String :=
  ns.filterMap fun n => (s.definition? n).map mark

/-- The second progress is the first with one more line for each definition that was opened. -/
structure Marked (s : Scope) (mark : Definition → String) (p p' : Progress) : Prop where
  table : p'.table = p.table
  active : p'.active = p.active
  diagnostics : p'.diagnostics = p.diagnostics
  log : p'.log.Perm (p.log ++ s.marks mark (p.active ++ p.table.map (·.1)))

variable {mark : Definition → String} {p' : Progress}

theorem Marked.steady : Steady (s.Marked mark) := by
  intro p p' ds lines h
  refine ⟨h.table, h.active, ?_, ?_⟩
  · simp [Progress.tell, h.diagnostics]
  · have hlog := h.log.append_right lines
    refine hlog.trans ?_
    show (p.log ++ _ ++ lines).Perm (p.log ++ lines ++ _)
    rw [List.append_assoc, List.append_assoc]
    exact List.perm_append_comm.append_left p.log

theorem Marked.open {d : Definition} (h : s.Marked mark p p') (hd : s.definition? n = some d) :
    s.Marked mark { p with active := n :: p.active }
      { p' with active := n :: p'.active, log := p'.log ++ [mark d] } := by
  refine ⟨h.table, by simp [h.active], h.diagnostics, ?_⟩
  have hmark : s.marks mark (n :: p.active ++ p.table.map (·.1)) =
      mark d :: s.marks mark (p.active ++ p.table.map (·.1)) := by
    simp [marks, hd]
  show (p'.log ++ [mark d]).Perm (p.log ++ s.marks mark (n :: p.active ++ p.table.map (·.1)))
  rw [hmark]
  refine (h.log.append_right _).trans ?_
  rw [List.append_assoc]
  exact (List.perm_append_singleton _ _).append_left p.log

theorem Marked.close {r r' : (Facts × Bool) × Progress} {active : List String}
    (h : s.Marked mark r.2 r'.2) (hf : r.1 = r'.1) (ha : r.2.active = n :: active) :
    s.Marked mark (Scope.close n r) (Scope.close n r') := by
  refine ⟨?_, ?_, h.diagnostics, h.log.trans (List.Perm.append_left _ (List.Perm.filterMap _ ?_))⟩
  · simp [Scope.close, h.table, hf]
  · simp [Scope.close, h.active]
  · simp only [Scope.close, ha, List.erase_cons_head, List.map_append, List.map_cons, List.map_nil]
    rw [List.cons_append, ← List.append_assoc]
    exact (List.perm_append_singleton _ _).symm

/-- The search that writes a line for each body finds the same, and writes one line for each
definition that it opens. -/
theorem marked_simulates (s : Scope) (mark : Definition → String) (depth : Nat) (n : String) :
    Simulates (fun _ => True) (s.Marked mark) (s.define depth n) (s.marked mark depth n) := by
  induction depth generalizing n with
  | zero =>
    intro p p' h _
    rw [marked, define_run, define_run, h.table]
    cases p.table.lookup n with
    | some f => exact ⟨rfl, h⟩
    | none => cases s.definition? n <;> exact ⟨rfl, h⟩
  | succ depth ih =>
    intro p p' h _
    rw [marked, define_succ, step_run, step_run, h.table, h.active]
    cases p.table.lookup n with
    | some f => exact ⟨rfl, h⟩
    | none =>
      cases hd : s.definition? n with
      | none => exact ⟨rfl, h⟩
      | some d =>
        simp only []
        by_cases ha : n ∈ p.active
        · rw [if_pos ha, if_pos ha]; exact ⟨rfl, h⟩
        · rw [if_neg ha, if_neg ha]
          have hwalk : Simulates _ _ (walk (s.asking (s.define depth)) d.body (n == s.entry))
              (walk (s.asking (s.marked mark depth)) d.body (n == s.entry)) :=
            walk_simulates (s.sameRules _ _) (fun _ _ _ _ => trivial) Marked.steady d.body
              (fun m _ => ih m) _
          obtain ⟨hval, hbody⟩ := hwalk _ _ (h.open hd) trivial
          have hactive : (s.inside (s.define depth) d n p).2.active = n :: p.active :=
            Grows.active (m := walk (s.asking (s.define depth)) d.body (n == s.entry)) _
          exact ⟨congrArg (fun r => some r.1) hval, hbody.close hval hactive⟩

theorem markedAll_simulates (s : Scope) (mark : Definition → String) (ds : List Definition) :
    Simulates (fun _ => True) (s.Marked mark) (s.defineAll ds) (s.markedAll mark ds) := by
  induction ds with
  | nil => exact .pure ()
  | cons d rest ih =>
    rw [defineAll, markedAll]
    exact (marked_simulates s mark _ d.name).bind (fun _ _ _ _ => trivial) fun _ => ih

end Scope

/-! ## Whole checks -/

namespace Checker

theorem definition?_eq (c : Checker) (n : String) :
    c.scope.definition? n = c.declared.find? fun d => d.name == n :=
  find?_firstDefinitions c.declared n

theorem walked_active (c : Checker) : c.walked.active = [] := by
  have h : c.walked.active = c.start.active :=
    Grows.active (m := c.scope.defineAll c.scope.definitions) c.start
  rw [h, c.start_active]

theorem walked_orderly (c : Checker) : c.scope.Orderly c.walked :=
  Scope.defineAll_orderly _ _ (Scope.Orderly.nil _ c.start_table c.start_active)

/-- The table holds each definition once. -/
theorem names_walked (c : Checker) :
    (c.walked.table.map (·.1)).Perm (c.scope.definitions.map (·.name)) := by
  have horder := c.walked_orderly
  have hnodup : (c.walked.table.map (·.1)).Nodup := by
    have := horder.nodup
    rwa [c.walked_active, List.append_nil] at this
  have hnames : (c.scope.definitions.map (·.name)).Nodup := nodup_names_firstDefinitions c.declared
  rw [List.perm_ext_iff_of_nodup hnodup hnames]
  intro n
  rw [← Scope.definition?_isSome_iff]
  constructor
  · intro hn
    exact horder.defined n (List.mem_append_left _ hn)
  · intro hn
    obtain ⟨d, hd⟩ := Option.isSome_iff_exists.1 hn
    obtain ⟨f, hf⟩ := c.walked_lookup hd
    by_contra hnot
    rw [Text.lookup_eq_none_iff.2 hnot] at hf
    cases hf

theorem definition?_of_mem {c : Checker} {d : Definition} (h : d ∈ c.scope.definitions) :
    c.scope.definition? d.name = some d :=
  find?_of_nodup (nodup_names_firstDefinitions c.declared) h

theorem names_check (c : Checker) :
    c.check.definitions.map (·.name) = c.scope.definitions.map (·.name) := by
  have hsome : ∀ d ∈ c.scope.definitions,
      (c.walked.table.lookup d.name).map (Summary.ofFacts d.name) =
        some (Summary.ofFacts d.name ((c.walked.table.lookup d.name).getD Facts.empty)) := by
    intro d hd
    obtain ⟨f, hf⟩ := c.walked_lookup (definition?_of_mem hd)
    rw [hf]
    rfl
  rw [check_definitions, List.filterMap_congr hsome, List.filterMap_eq_map', List.map_map]
  rfl

/-- What is found by the search that writes a line for each body. -/
def marked (c : Checker) (mark : Definition → String) : Progress :=
  ((c.scope.markedAll mark c.scope.definitions).run c.start).2

theorem marks_walked (c : Checker) (mark : Definition → String) :
    (c.scope.marks mark (c.walked.table.map (·.1))).Perm (c.scope.definitions.map mark) := by
  have hmarks : c.scope.marks mark (c.scope.definitions.map (·.name)) =
      c.scope.definitions.map mark := by
    have hsome : ∀ d ∈ c.scope.definitions,
        (c.scope.definition? d.name).map mark = some (mark d) := by
      intro d hd
      rw [definition?_of_mem hd]
      rfl
    rw [Scope.marks, List.filterMap_map]
    refine (List.filterMap_congr hsome).trans ?_
    exact congrFun List.filterMap_eq_map _
  rw [← hmarks]
  exact c.names_walked.filterMap _

theorem marked_walked (c : Checker) (mark : Definition → String) :
    c.scope.Marked mark c.walked (c.marked mark) := by
  have hstart : c.scope.Marked mark c.start c.start := by
    refine ⟨rfl, rfl, rfl, ?_⟩
    simp [c.start_table, c.start_active, Scope.marks]
  exact (Scope.markedAll_simulates c.scope mark _ _ _ hstart trivial).2

/-- The check walks each definition once. The search for facts takes one step after the other, and
each of them asks only for progress with fewer definitions waiting, so that it ends; told to write
a line for each body that it walks, it writes one for the first declaration of each name and finds
the same. In the end nothing is open, and the table and the report have one entry for each name,
the report in the order in which the names are first declared. -/
theorem definitions_walked_once (c : Checker) :
    (∀ (look : String → Walk (Option Facts)) (n : String) (p : Progress),
      (∀ m q, (c.scope.waiting q).length < (c.scope.waiting p).length →
        (look m).run q = (c.scope.search m).run q) →
      (c.scope.step Scope.silent look n).run p = (c.scope.search n).run p) ∧
    (∀ mark : Definition → String,
      (c.marked mark).table = c.walked.table ∧
      (c.marked mark).diagnostics = c.walked.diagnostics ∧
      (c.marked mark).log.Perm (c.walked.log ++ c.scope.definitions.map mark)) ∧
    (∀ d ∈ c.scope.definitions, c.declared.find? (fun e => e.name == d.name) = some d) ∧
    c.scope.definitions.map (·.name) = (c.declared.map (·.name)).eraseDups ∧
    c.progress.active = [] ∧
    (c.progress.table.map (·.1)).Perm (c.declared.map (·.name)).eraseDups ∧
    c.check.definitions.map (·.name) = (c.declared.map (·.name)).eraseDups := by
  have hnames : c.scope.definitions.map (·.name) = (c.declared.map (·.name)).eraseDups :=
    names_firstDefinitions c.declared
  refine ⟨fun look n p h => Scope.search_step h n, fun mark => ?_, fun d hd => ?_, hnames, ?_, ?_,
    ?_⟩
  · have hmarked := c.marked_walked mark
    refine ⟨hmarked.table, hmarked.diagnostics, hmarked.log.trans (List.Perm.append_left _ ?_)⟩
    rw [c.walked_active, List.nil_append]
    exact c.marks_walked mark
  · rw [← definition?_eq]
    exact definition?_of_mem hd
  · rw [progress_eq, conclude_run, (c.concluding_gives _ _).active]
    exact c.walked_active
  · rw [progress_table, ← hnames]
    exact c.names_walked
  · rw [names_check, hnames]

end Checker

end Check

end Sessions
