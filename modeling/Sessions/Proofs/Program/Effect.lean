import Sessions.Proofs.Program.Activity
import Sessions.Proofs.Program.Trace

/-!
# Sessions.Proofs.Program.Effect

What a program does to its ordinary locations. An execution is read as a list of effects: a location
is assigned, or it can no longer be traced because it got an alias, was copied over or was removed.
A loop that runs no turn at all is on record as well (`Effect.pass`).

`Scope.Affects` says which effects an activity may have. It does not look at facts: sequences run one
part after the other, parallel parts interleave, a choice and a conditional take one branch, a loop
takes any number of turns, a call runs the body of the definition, and a request runs its handler.
Fault handlers and spawned instances do nothing.

What an execution leaves of one location is decided by the last effect that concerns it
(`Effect.fate`).
-/

namespace Sessions

inductive Effect where
  | assign (key : String)
  | lose (key : String)
  /-- A loop was passed by without a turn. -/
  | pass (turn : Activity)

namespace Effect

/-- What the effect does to the location: a value is there, or it is lost, or nothing is known. A
loop that was passed by counts as if it had run where `held` says so of its turn. -/
def state (held : Activity → Bool) (k : String) : Effect → Option Bool
  | .assign j => if j = k then some true else none
  | .lose j => if j = k then some false else none
  | .pass turn => if held turn then some true else none

/-- What the last effect that concerns the location does to it. -/
def fate (held : Activity → Bool) (k : String) : List Effect → Option Bool
  | [] => none
  | e :: rest => (fate held k rest).or (e.state held k)

variable {held : Activity → Bool} {k : String} {t u v : List Effect}

theorem fate_append : fate held k (t ++ u) = (fate held k u).or (fate held k t) := by
  induction t with
  | nil => rw [List.nil_append, fate, Option.or_none]
  | cons e rest ih => rw [List.cons_append, fate, ih, fate, Option.or_assoc]

/-- The last effect of an interleaving is the last one of one of its parts. -/
theorem fate_interleaves (h : Interleaves t u v) :
    fate held k v = (fate held k u).or (fate held k t) ∨
      fate held k v = (fate held k t).or (fate held k u) := by
  induction h with
  | nil => exact .inl rfl
  | left _ ih =>
    rw [fate, fate]
    rcases ih with ih | ih <;> rw [ih]
    · exact .inl (Option.or_assoc)
    · cases fate held k _ <;> simp
  | right _ ih =>
    rw [fate, fate]
    rcases ih with ih | ih <;> rw [ih]
    · cases fate held k _ <;> simp
    · exact .inr (Option.or_assoc)

theorem fate_of_lose (h : .lose k ∈ t) : fate held k t ≠ none := by
  induction t with
  | nil => exact absurd h List.not_mem_nil
  | cons e rest ih =>
    rw [fate, ne_eq, Option.or_eq_none_iff, not_and_or]
    rcases List.mem_cons.1 h with rfl | h
    · exact .inr (by simp [state])
    · exact .inl (ih h)

/-- A location that has a value got it from an assignment or from a loop that was passed by, and was
not lost after that. -/
theorem exists_of_fate (h : fate held k t = some true) :
    ∃ u e v, t = u ++ e :: v ∧ (e = .assign k ∨ ∃ turn, e = .pass turn ∧ held turn = true) ∧
      .lose k ∉ v := by
  induction t with
  | nil => cases h
  | cons e rest ih =>
    rw [fate] at h
    cases hrest : fate held k rest with
    | some b =>
      rw [hrest, Option.some_or] at h
      obtain ⟨u, e', v, rfl, he, hv⟩ := ih (hrest.trans h)
      exact ⟨e :: u, e', v, rfl, he, hv⟩
    | none =>
      rw [hrest, Option.none_or] at h
      refine ⟨[], e, rest, rfl, ?_, fun hv => fate_of_lose hv hrest⟩
      cases e with
      | assign j =>
        rw [state] at h
        split_ifs at h with hj
        exact .inl (by rw [hj])
      | lose j =>
        rw [state] at h
        split_ifs at h
        cases h
      | pass turn =>
        rw [state] at h
        split_ifs at h with hturn
        exact .inr ⟨turn, rfl, hturn⟩

end Effect

namespace Check.Scope

/-- The effects of an activity that has no parts to run. An assignment counts if the check accepts
its value. -/
def effects : Activity → Option (List Effect)
  | .assign _ target op value =>
    some (if target.isCorrelation = false ∧ (accepted target op value).isSome = true
      then [.assign target.key] else [])
  | .pointer _ left right => some [.lose right.key, .lose left.key]
  | .deepCopy _ left right => some [.lose right.key, .lose left.key]
  | .undef _ target => some [.lose target.key]
  | .sequence .. => none
  | .parallel .. => none
  | .choice .. => none
  | .cond .. => none
  | .whileLoop .. => none
  | .forLoop .. => none
  | .forEach .. => none
  | .call .. => none
  | .requestResponse .. => none
  | .scope .. => none
  | .synchronized .. => none
  | _ => some []

/-- The effects that an execution of the activity may have. -/
inductive Affects (s : Scope) : Activity → List Effect → Prop
  | own {a t} (h : effects a = some t) : Affects s a t
  | sequenceNil (l) : Affects s (.sequence l []) []
  | sequenceCons {a t u} (l rest) (ha : Affects s a t) (hrest : Affects s (.sequence l rest) u) :
      Affects s (.sequence l (a :: rest)) (t ++ u)
  | parallelNil (l) : Affects s (.parallel l []) []
  | parallelCons {a t u v} (l rest) (ha : Affects s a t) (hrest : Affects s (.parallel l rest) u)
      (h : Interleaves t u v) : Affects s (.parallel l (a :: rest)) v
  | choice {t u} (l branches) (branch : Branch) (hb : branch ∈ branches)
      (hguard : Affects s branch.guard t) (hbody : Affects s branch.body u) :
      Affects s (.choice l branches) (t ++ u)
  | arm {t} (l arms otherwise) (arm : Arm) (ha : arm ∈ arms) (hbody : Affects s arm.body t) :
      Affects s (.cond l arms otherwise) t
  | otherwise {t} (l arms otherwise) (h : Affects s otherwise t) :
      Affects s (.cond l arms otherwise) t
  | loop {a l first turn t} (ha : a.Turns l first turn) (hfirst : Affects s (.sequence l first) t)
      (turns : List (List Effect)) (hsome : turns ≠ []) (h : ∀ u ∈ turns, Affects s turn u) :
      Affects s a (t ++ turns.flatten)
  | pass {a l first turn t} (ha : a.Turns l first turn) (hfirst : Affects s (.sequence l first) t) :
      Affects s a (t ++ [.pass turn])
  | call {t n d} (l) (hd : s.definition? n = some d) (h : Affects s d.body t) :
      Affects s (.call l n) t
  | requestResponse {t handler} (l op target output) (h : Affects s handler t) :
      Affects s (.requestResponse l op target output handler) t
  | scope {t body} (l name) (h : Affects s body t) : Affects s (.scope l name body) t
  | synchronized {t body} (l id) (h : Affects s body t) : Affects s (.synchronized l id body) t

section Affects

variable {s : Scope} {l : Location} {t : List Effect}

theorem affects_own {a : Activity} {u : List Effect} (h : effects a = some u)
    (ht : s.Affects a t) : t = u := by
  cases ht with
  | own h' => exact Option.some.inj (h'.symm.trans h)
  | loop ha => cases ha <;> cases h
  | pass ha => cases ha <;> cases h
  | _ => cases h

theorem affects_sequence_nil (h : s.Affects (.sequence l []) t) : t = [] := by
  cases h with
  | sequenceNil => rfl
  | own h | loop h | pass h => cases h

theorem affects_sequence_cons {a : Activity} {rest : List Activity}
    (h : s.Affects (.sequence l (a :: rest)) t) :
    ∃ u v, t = u ++ v ∧ s.Affects a u ∧ s.Affects (.sequence l rest) v := by
  cases h with
  | sequenceCons _ _ ha hrest => exact ⟨_, _, rfl, ha, hrest⟩
  | own h | loop h | pass h => cases h

theorem affects_parallel_nil (h : s.Affects (.parallel l []) t) : t = [] := by
  cases h with
  | parallelNil => rfl
  | own h | loop h | pass h => cases h

theorem affects_parallel_cons {a : Activity} {rest : List Activity}
    (h : s.Affects (.parallel l (a :: rest)) t) :
    ∃ u v, Interleaves u v t ∧ s.Affects a u ∧ s.Affects (.parallel l rest) v := by
  cases h with
  | parallelCons _ _ ha hrest h => exact ⟨_, _, h, ha, hrest⟩
  | own h | loop h | pass h => cases h

theorem affects_choice {branches : List Branch} (h : s.Affects (.choice l branches) t) :
    ∃ b ∈ branches, ∃ u v, t = u ++ v ∧ s.Affects b.guard u ∧ s.Affects b.body v := by
  cases h with
  | choice _ _ b hb hguard hbody => exact ⟨b, hb, _, _, rfl, hguard, hbody⟩
  | own h | loop h | pass h => cases h

theorem affects_cond {arms : List Arm} {otherwise : Activity}
    (h : s.Affects (.cond l arms otherwise) t) :
    (∃ a ∈ arms, s.Affects a.body t) ∨ s.Affects otherwise t := by
  cases h with
  | arm _ _ _ a ha hbody => exact .inl ⟨a, ha, hbody⟩
  | otherwise _ _ _ h => exact .inr h
  | own h | loop h | pass h => cases h

theorem affects_call {n : String} (h : s.Affects (.call l n) t) :
    ∃ d, s.definition? n = some d ∧ s.Affects d.body t := by
  cases h with
  | call _ hd h => exact ⟨_, hd, h⟩
  | own h | loop h | pass h => cases h

theorem affects_requestResponse {op : String} {target : Option Path} {output : Expr}
    {handler : Activity} (h : s.Affects (.requestResponse l op target output handler) t) :
    s.Affects handler t := by
  cases h with
  | requestResponse _ _ _ _ h => exact h
  | own h | loop h | pass h => cases h

theorem affects_scope {name : String} {body : Activity} (h : s.Affects (.scope l name body) t) :
    s.Affects body t := by
  cases h with
  | scope _ _ h => exact h
  | own h | loop h | pass h => cases h

theorem affects_synchronized {id : String} {body : Activity}
    (h : s.Affects (.synchronized l id body) t) : s.Affects body t := by
  cases h with
  | synchronized _ _ h => exact h
  | own h | loop h | pass h => cases h

/-- A loop runs some turns, or it is passed by. -/
theorem affects_turns {a turn : Activity} {first : List Activity} (ha : a.Turns l first turn)
    (h : s.Affects a t) : ∃ u, s.Affects (.sequence l first) u ∧
      (t = u ++ [.pass turn] ∨ ∃ turns : List (List Effect), turns ≠ [] ∧
        (∀ v ∈ turns, s.Affects turn v) ∧ t = u ++ turns.flatten) := by
  cases h with
  | own h => cases ha <;> cases h
  | loop ha' hfirst turns hsome h =>
    cases ha <;> cases ha' <;> exact ⟨_, hfirst, .inr ⟨turns, hsome, h, rfl⟩⟩
  | pass ha' hfirst => cases ha <;> cases ha' <;> exact ⟨_, hfirst, .inl rfl⟩
  | _ => cases ha

end Affects

end Check.Scope

end Sessions
