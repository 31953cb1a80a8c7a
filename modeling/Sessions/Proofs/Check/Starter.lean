import Sessions.Proofs.Check.Inline
import Sessions.Proofs.Check.Neutral

/-!
# Sessions.Proofs.Check.Starter

When the input that starts a session counts as met. An activity `Receives` if each execution of it
performs an input. A walk that starts with the flag set clears it exactly if an input stands in the
activity, or a choice that waits for one, be it in a branch or a loop (`after_true_iff`).

A call does not clear the flag, since the table keeps facts of definitions and no flags. So an
activity that receives clears it unless all that it receives is received by definitions it calls
(`starter_met`), and after such a call the next input counts as the one that starts the session
(`starter_met_twice`).
-/

namespace Sessions

namespace Activity

/-- Whether the activity is an input or waits for one of several. -/
def takesInput : Activity → Bool
  | .oneWay .. => true
  | .requestResponse .. => true
  | .choice _ (_ :: _) => true
  | _ => false

/-! ## The flag after an activity -/

theorem after_eq_and (a : Activity) (s : Bool) : a.after s = (s && a.after true) := by
  cases s with
  | true => rw [Bool.true_and]
  | false => rw [after_false, Bool.false_and]

theorem afterAll_eq (as : List Activity) (s : Bool) :
    afterAll as s = (s && as.all fun a => a.after true) := by
  induction as generalizing s with
  | nil => rw [afterAll, List.all_nil, Bool.and_true]
  | cons a rest ih => rw [afterAll, ih, after_eq_and, List.all_cons, Bool.and_assoc]

theorem afterArms_eq (arms : List Arm) (sofar : Bool) :
    afterArms arms true sofar = (sofar && arms.all fun a => a.body.after true) := by
  induction arms generalizing sofar with
  | nil => rw [afterArms, List.all_nil, Bool.and_true]
  | cons a rest ih =>
    cases a
    rw [afterArms, ih, List.all_cons, Bool.and_assoc]

/-- What an activity does to the flag comes from itself and from the activities right inside. -/
theorem after_true_eq (a : Activity) :
    a.after true = (!a.takesInput && a.steps.all fun b => b.after true) := by
  cases a with
  | sequence l as => exact afterAll_eq as true
  | parallel l as => exact afterAll_eq as true
  | choice l bs => cases bs <;> rfl
  | cond l arms otherwise =>
    have hsteps : (cond l arms otherwise).steps = arms.map Arm.body ++ [otherwise] := rfl
    rw [hsteps, List.all_append, List.all_map, List.all_cons, List.all_nil, Bool.and_true]
    cases arms with
    | nil => rfl
    | cons arm rest =>
      cases arm
      rw [after, afterArms_eq, List.all_cons]
      rfl
  | forLoop l first c post body =>
    have hsteps : (forLoop l first c post body).steps = [first, body, post] := rfl
    rw [hsteps, after, after_eq_and post, after_eq_and body, Bool.and_assoc]
    simp [takesInput]
  | whileLoop l c body => simp [after, takesInput, steps, children]
  | forEach l key target body => simp [after, takesInput, steps, children]
  | scope l name body => simp [after, takesInput, steps, children]
  | synchronized l id body => simp [after, takesInput, steps, children]
  | _ => rfl

theorem after_true_iff (a : Activity) :
    a.after true = true ↔ ∀ x, a.Includes x → x.takesInput = false := by
  induction a using induct_children with
  | h a ih =>
    rw [after_true_eq, Bool.and_eq_true, Bool.not_eq_true', List.all_eq_true]
    constructor
    · rintro ⟨hself, hsteps⟩ x hx
      cases hx with
      | self => exact hself
      | inside hb hx => exact (ih _ (steps_subset a hb)).1 (hsteps _ hb) x hx
    · intro h
      refine ⟨h a (.self a), fun b hb => ?_⟩
      exact (ih b (steps_subset a hb)).2 fun x hx => h x (.inside hb hx)

theorem after_true_eq_false (a : Activity) :
    a.after true = false ↔ ∃ x, a.Includes x ∧ x.takesInput = true := by
  rw [← Bool.not_eq_true, after_true_iff]
  simp only [not_forall, Bool.not_eq_false, exists_prop]

end Activity

namespace Check

/-! ## Activities that receive -/

mutual

/-- Every execution of the activity performs an input. -/
inductive Scope.Receives (s : Scope) : Activity → Prop
  | oneWay (l : Location) (op : String) (target : Option Path) : s.Receives (.oneWay l op target)
  | requestResponse (l : Location) (op : String) (target : Option Path) (output : Expr)
      (handler : Activity) : s.Receives (.requestResponse l op target output handler)
  | sequence {l : Location} {as : List Activity} {a : Activity} (hmem : a ∈ as)
      (h : s.Receives a) : s.Receives (.sequence l as)
  | parallel {l : Location} {as : List Activity} {a : Activity} (hmem : a ∈ as)
      (h : s.Receives a) : s.Receives (.parallel l as)
  | choice {l : Location} {bs : List Branch} (hne : bs ≠ [])
      (h : ∀ b ∈ bs, s.ReceivesInBranch b) : s.Receives (.choice l bs)
  | cond {l : Location} {arms : List Arm} {otherwise : Activity}
      (harms : ∀ arm ∈ arms, s.Receives arm.body) (hother : s.Receives otherwise) :
      s.Receives (.cond l arms otherwise)
  | scope {l : Location} {name : String} {body : Activity} (h : s.Receives body) :
      s.Receives (.scope l name body)
  | synchronized {l : Location} {id : String} {body : Activity} (h : s.Receives body) :
      s.Receives (.synchronized l id body)
  | forLoop {l : Location} {first : Activity} {c : Expr} {post body : Activity}
      (h : s.Receives first) : s.Receives (.forLoop l first c post body)
  | call {l : Location} {name : String} {d : Definition} (hd : s.definition? name = some d)
      (h : s.Receives d.body) : s.Receives (.call l name)

/-- The guard or the body of the branch receives. -/
inductive Scope.ReceivesInBranch (s : Scope) : Branch → Prop
  | guard {b : Branch} (h : s.Receives b.guard) : s.ReceivesInBranch b
  | body {b : Branch} (h : s.Receives b.body) : s.ReceivesInBranch b

end

namespace Scope.Receives

variable {s : Scope} {a : Activity}

/-- What receives takes an input itself, has something right inside that receives, or calls a
definition that does. -/
theorem step (h : s.Receives a) :
    a.takesInput = true ∨ (∃ b ∈ a.steps, s.Receives b) ∨
      ∃ l name d, a = .call l name ∧ s.definition? name = some d ∧ s.Receives d.body := by
  cases h with
  | oneWay => exact .inl rfl
  | requestResponse => exact .inl rfl
  | sequence hmem h => exact .inr (.inl ⟨_, hmem, h⟩)
  | parallel hmem h => exact .inr (.inl ⟨_, hmem, h⟩)
  | @choice l bs hne _ =>
    cases bs with
    | nil => exact absurd rfl hne
    | cons => exact .inl rfl
  | @cond l arms otherwise _ hother =>
    exact .inr (.inl ⟨otherwise, List.mem_append_right _ (List.mem_singleton_self _), hother⟩)
  | scope h => exact .inr (.inl ⟨_, List.mem_singleton_self _, h⟩)
  | synchronized h => exact .inr (.inl ⟨_, List.mem_singleton_self _, h⟩)
  | forLoop h => exact .inr (.inl ⟨_, List.mem_cons_self, h⟩)
  | call hd h => exact .inr (.inr ⟨_, _, _, rfl, hd, h⟩)

theorem exists_call (h : s.Receives a) (hnone : ∀ x, a.Includes x → x.takesInput = false) :
    ∃ l name d, a.Includes (.call l name) ∧ s.definition? name = some d ∧ s.Receives d.body := by
  induction a using Activity.induct_children with
  | h a ih =>
    -- The induction follows the part that receives down to the call in which it does so.
    rcases h.step with htakes | ⟨b, hb, hreceives⟩ | ⟨l, name, d, rfl, hd, hreceives⟩
    · rw [hnone a (.self a)] at htakes
      cases htakes
    · obtain ⟨l, name, d, hcall, hd, hbody⟩ := ih b (Activity.steps_subset a hb) hreceives
        fun x hx => hnone x (.inside hb hx)
      exact ⟨l, name, d, .inside hb hcall, hd, hbody⟩
    · exact ⟨l, name, d, .self _, hd, hreceives⟩

end Scope.Receives

/-! ## What runs afterwards -/

variable {w : Setting}

theorem bind_cleared {α : Type} {m : Walk (Facts × Bool)} (h : ∀ p, (m.run p).1.2 = false)
    (next : Facts → Bool → Walk α) :
    (m >>= fun r => next r.1 r.2) = (m >>= fun r => next r.1 false) := by
  funext p
  show (next (m.run p).1.1 (m.run p).1.2).run (m.run p).2 =
    (next (m.run p).1.1 false).run (m.run p).2
  rw [h p]

theorem walk_sequence_cleared {a : Activity} (ha : a.after true = false) (l : Location)
    (before after : List Activity) (s : Bool) :
    walk w (.sequence l (before ++ a :: after)) s =
      walk w (.sequence l (before ++ [a])) s >>= fun r => walkSequence w after r.1 false := by
  have hflag : (Activity.sequence l (before ++ [a])).after s = false := by
    show Activity.afterAll (before ++ [a]) s = false
    rw [Activity.afterAll_eq, List.all_append, List.all_cons, ha, Bool.false_and, Bool.and_false,
      Bool.and_false]
  -- A sequence checks what stands first on its own, so that this may be `a` itself.
  have hsplit : walk w (.sequence l (before ++ a :: after)) s =
      walk w (.sequence l (before ++ [a])) s >>= fun r => walkSequence w after r.1 r.2 := by
    cases before with
    | nil => exact walk_sequence_append l a [] after s
    | cons b rest =>
      rw [List.append_cons]
      exact walk_sequence_append l b (rest ++ [a]) after s
  rw [hsplit]
  refine bind_cleared (fun p => ?_) fun f s => walkSequence w after f s
  rw [walk_flag, hflag]

namespace Checker

/-- An activity that receives clears the flag exactly if it takes an input itself, and then no input
after it counts as the one that starts the session. Otherwise it calls a definition that receives
in its place. -/
theorem starter_met (c : Checker) (w : Setting) {a : Activity} (ha : c.scope.Receives a) :
    (∀ p, ((walk w a true).run p).1.2 = false ↔ ∃ x, a.Includes x ∧ x.takesInput = true) ∧
    ((∃ x, a.Includes x ∧ x.takesInput = true) → ∀ l before after s,
      walk w (.sequence l (before ++ a :: after)) s =
        walk w (.sequence l (before ++ [a])) s >>= fun r => walkSequence w after r.1 false) ∧
    ((∀ x, a.Includes x → x.takesInput = false) → ∃ l name d,
      a.Includes (.call l name) ∧ c.scope.definition? name = some d ∧
        c.scope.Receives d.body) := by
  refine ⟨fun p => ?_, fun htakes l before after s => ?_, ha.exists_call⟩
  · rw [walk_flag, Activity.after_true_eq_false]
  · exact walk_sequence_cleared ((Activity.after_true_eq_false a).2 htakes) l before after s

/-- The second message of the program below. -/
def request : Activity :=
  .requestResponse {} "next" none .missing (token "sid")

/-- A program that lets a definition receive its first message. -/
def reception : Checker where
  program := some ⟨{}, [
    .definition ⟨{}, "main", .sequence {} [token "gid", .call {} "hello", request]⟩,
    .definition ⟨{}, "hello", receive "greet"⟩]⟩
  correlation := some
    { sets := [corrSet "G" ["gid"], corrSet "S" ["sid"]]
      operations := [("greet", "G"), ("next", "S")] }
  fresh _ _ := ⟨false, none⟩

theorem reception_receives : reception.scope.Receives (.call {} "hello") :=
  .call (d := ⟨{}, "hello", receive "greet"⟩) rfl (.oneWay {} "greet" none)

theorem reception_acyclic : reception.scope.Acyclic := by
  refine Scope.acyclic_of_rank (fun n => if n = "main" then 1 else 0) ?_
  decide +kernel

/-- The call receives a message and the flag stays as it was. So the request after it counts as the
input that starts the session, which need not be in a session yet, and the program is accepted. -/
theorem starter_met_twice :
    reception.scope.Acyclic ∧ reception.scope.Receives (.call {} "hello") ∧
      (∀ w p, ((walk w (.call {} "hello") true).run p).1.2 = true) ∧
      ((walk (reception.scope.setting 1) request false).run {}).1.1.needs (corrPath "sid") = true ∧
      ((walk (reception.scope.setting 1) request true).run {}).1.1.needs (corrPath "sid") = false ∧
      reception.check.valid = true := by
  refine ⟨reception_acyclic, reception_receives, fun w p => ?_, by decide +kernel⟩
  rw [walk_flag]
  rfl

/-- After the request, whether the program called the definition before or not, every input belongs
to the session. -/
theorem starter_met_reception :
    reception.scope.Receives request ∧
      (∀ w p, ((walk w request true).run p).1.2 = false) ∧
      ∀ w l rest, walk w (.sequence l (.call {} "hello" :: request :: rest)) true =
        walk w (.sequence l [.call {} "hello", request]) true >>= fun r =>
          walkSequence w rest r.1 false := by
  have hreceives : reception.scope.Receives request := .requestResponse {} "next" none .missing _
  have htakes : ∃ x, request.Includes x ∧ x.takesInput = true := ⟨request, .self request, rfl⟩
  refine ⟨hreceives, fun w p => ?_, fun w l rest => ?_⟩
  · exact ((starter_met reception w hreceives).1 p).2 htakes
  · exact (starter_met reception w hreceives).2.1 htakes l [.call {} "hello"] rest true

end Checker

end Check

end Sessions
