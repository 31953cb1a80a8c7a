import Mathlib.Computability.Language
import Mathlib.Data.List.Dedup
import Sessions.Check.Walk

/-!
# Sessions.Proofs.Program.Trace

What a program does to its correlation variables. An execution is read as a trace of events: a key
is initialised, perhaps with a fresh value, or it is used. `Scope.Runs` says which traces an
activity has, without regard to any facts: sequences run one part after the other, parallel parts
interleave, a choice takes one branch, a loop takes any number of turns, and a call runs the body of
the definition.

* The operation that the entry point starts with initialises each variable of its correlation set;
  every other input uses them.
* An accepted assignment to a correlation path initialises it, and so does a reply that is stored in
  one.
* Fault handlers and spawned instances leave no trace.

The traces of an activity form a language, and `Scope.traces` of a compound activity is that of its
parts put together by the operations on languages.
-/

namespace Sessions

open Computability

/-- What happens to the value of a key. -/
inductive Event where
  | init (key : String) (fresh : Bool)
  | use (key : String)
deriving DecidableEq, Repr

/-- The third list is an interleaving of the first two. -/
inductive Interleaves {α : Type} : List α → List α → List α → Prop
  | nil : Interleaves [] [] []
  | left {x t u v} (h : Interleaves t u v) : Interleaves (x :: t) u (x :: v)
  | right {x t u v} (h : Interleaves t u v) : Interleaves t (x :: u) (x :: v)

theorem Interleaves.perm {α : Type} {t u v : List α} (h : Interleaves t u v) : v.Perm (t ++ u) := by
  induction h with
  | nil => exact .nil
  | left _ ih => exact ih.cons _
  | right _ ih => exact (ih.cons _).trans List.perm_middle.symm

theorem Interleaves.eq_left {α : Type} {t v : List α} (h : Interleaves t [] v) : v = t := by
  induction v generalizing t with
  | nil => cases h; rfl
  | cons x v ih =>
    cases h with
    | left h => rw [ih h]

/-- Interleaving with an interleaving of two lists is interleaving with one after the other. -/
theorem Interleaves.assoc {α : Type} {t x u y v : List α} (h : Interleaves t x v)
    (hx : Interleaves u y x) : ∃ z, Interleaves t u z ∧ Interleaves z y v := by
  induction h generalizing u y with
  | nil => cases hx; exact ⟨[], .nil, .nil⟩
  | left _ ih =>
    obtain ⟨z, hz, hv⟩ := ih hx
    exact ⟨_, hz.left, hv.left⟩
  | right _ ih =>
    cases hx with
    | left hx =>
      obtain ⟨z, hz, hv⟩ := ih hx
      exact ⟨_, hz.right, hv.left⟩
    | right hx =>
      obtain ⟨z, hz, hv⟩ := ih hx
      exact ⟨z, hz, hv.right⟩

/-- The interleavings of a word of each language. -/
def interleavings {α : Type} (T U : Language α) : Language α :=
  { v | ∃ t ∈ T, ∃ u ∈ U, Interleaves t u v }

theorem mem_of_interleavings_one {α : Type} {T : Language α} {v : List α}
    (h : v ∈ interleavings T 1) : v ∈ T := by
  obtain ⟨t, ht, _, rfl, hv⟩ := h
  exact hv.eq_left ▸ ht

theorem mem_interleavings_assoc {α : Type} {T U V : Language α} {v : List α}
    (h : v ∈ interleavings T (interleavings U V)) : v ∈ interleavings (interleavings T U) V := by
  obtain ⟨t, ht, x, ⟨u, hu, y, hy, hx⟩, hv⟩ := h
  obtain ⟨z, hz, hzv⟩ := hv.assoc hx
  exact ⟨z, ⟨t, ht, u, hu, hz⟩, y, hy, hzv⟩

/-! ## Events in a trace -/

namespace Event

/-- The event initialises the key. -/
def initialises (k : String) : Event → Bool
  | .init j _ => j == k
  | .use _ => false

/-- How often the key is initialised. -/
def inits (k : String) (t : List Event) : Nat :=
  t.countP (initialises k)

/-- The key is used before it is initialised. -/
def Unguarded (k : String) : List Event → Prop
  | [] => False
  | .init j _ :: rest => j ≠ k ∧ Unguarded k rest
  | .use j :: rest => j = k ∨ Unguarded k rest

variable {k : String} {t u v : List Event}

theorem inits_append : inits k (t ++ u) = inits k t + inits k u :=
  List.countP_append

theorem inits_interleaves (h : Interleaves t u v) : inits k v = inits k (t ++ u) :=
  h.perm.countP_eq _

theorem unguarded_append (h : Unguarded k (t ++ u)) :
    Unguarded k t ∨ (inits k t = 0 ∧ Unguarded k u) := by
  induction t with
  | nil => exact .inr ⟨rfl, h⟩
  | cons e rest ih =>
    cases e with
    | init j fresh =>
      obtain ⟨hj, h⟩ := h
      rcases ih h with h | ⟨hi, hu⟩
      · exact .inl ⟨hj, h⟩
      · refine .inr ⟨?_, hu⟩
        rw [inits, List.countP_cons_of_neg (by simpa [initialises] using hj)]
        exact hi
    | use j =>
      rcases h with h | h
      · exact .inl (.inl h)
      · rcases ih h with h | ⟨hi, hu⟩
        · exact .inl (.inr h)
        · refine .inr ⟨?_, hu⟩
          rw [inits, List.countP_cons_of_neg (by simp [initialises])]
          exact hi

theorem unguarded_interleaves (h : Interleaves t u v) (hv : Unguarded k v) :
    Unguarded k t ∨ Unguarded k u := by
  induction h with
  | nil => exact hv.elim
  | @left e _ _ _ _ ih =>
    cases e with
    | init j fresh => exact (ih hv.2).imp_left fun h => ⟨hv.1, h⟩
    | use j =>
      rcases hv with hj | hv
      · exact .inl (.inl hj)
      · exact (ih hv).imp_left .inr
  | @right e _ _ _ _ ih =>
    cases e with
    | init j fresh => exact (ih hv.2).imp_right fun h => ⟨hv.1, h⟩
    | use j =>
      rcases hv with hj | hv
      · exact .inr (.inl hj)
      · exact (ih hv).imp_right .inr

theorem unguarded_uses {ks : List String} (h : Unguarded k (ks.map .use)) : k ∈ ks := by
  induction ks with
  | nil => exact h.elim
  | cons j rest ih =>
    rcases h with rfl | h
    · exact List.mem_cons_self
    · exact List.mem_cons_of_mem _ (ih h)

theorem inits_uses (ks : List String) : inits k (ks.map .use) = 0 := by
  rw [inits, List.countP_eq_zero]
  rintro e he
  obtain ⟨j, -, rfl⟩ := List.mem_map.1 he
  exact Bool.false_ne_true

theorem not_unguarded_inits {ks : List String} {fresh : Bool} :
    ¬ Unguarded k (ks.map (.init · fresh)) := by
  induction ks with
  | nil => exact id
  | cons j rest ih => exact fun h => ih h.2

theorem inits_inits (ks : List String) (fresh : Bool) :
    inits k (ks.map (.init · fresh)) = ks.count k := by
  rw [inits, List.countP_map]
  rfl

/-- A use that is not preceded by an initialisation is unguarded. -/
theorem unguarded_of_use (h : ∀ fresh, .init k fresh ∉ t) : Unguarded k (t ++ .use k :: u) := by
  induction t with
  | nil => exact .inl rfl
  | cons e rest ih =>
    have hrest := ih fun fresh hf => h fresh (List.mem_cons_of_mem _ hf)
    cases e with
    | init j fresh =>
      refine ⟨?_, hrest⟩
      rintro rfl
      exact h fresh List.mem_cons_self
    | use j => exact .inr hrest

end Event

/-- No key is initialised in a trace of one language and in a trace of the other. -/
def Parted (T U : Language Event) : Prop :=
  ∀ t ∈ T, ∀ u ∈ U, ∀ k, Event.inits k t = 0 ∨ Event.inits k u = 0

theorem Parted.one (T : Language Event) : Parted T 1 := by
  rintro t - _ rfl k
  exact .inr rfl

theorem Parted.mul {T U V : Language Event} (h : Parted T U) (h' : Parted (T * U) V) :
    Parted T (U * V) := by
  rintro t ht _ ⟨u, hu, v, hv, rfl⟩ k
  have hfirst := h t ht u hu k
  have hlast := h' (t ++ u) (Language.append_mem_mul ht hu) v hv k
  dsimp only
  rw [Event.inits_append] at hlast ⊢
  omega

namespace Check.Scope

/-- The keys of the correlation set of an operation. -/
def setKeys (s : Scope) (operation : String) : List String :=
  (((s.correlation.bind (·.setFor? operation)).map (·.paths)).getD []).map Path.key

/-- The events of an input: the first one of a session initialises what others use. -/
def received (s : Scope) (first : Bool) (operation : String) : List Event :=
  if first then (s.setKeys operation).dedup.map (.init · false)
  else (s.setKeys operation).map .use

/-- The input that starts a session initialises each variable of its set once. -/
theorem inits_received {s : Scope} {operation k : String} (h : k ∈ s.setKeys operation) :
    Event.inits k (s.received true operation) = 1 := by
  rw [received, if_pos rfl, Event.inits_inits]
  exact List.count_eq_one_of_mem (List.nodup_dedup _) (List.mem_dedup.2 h)

/-- Whether an assignment is accepted and, if so, whether its value is fresh. -/
def accepted (target : Path) (op : String) (value : Expr) : Option Bool :=
  if op = "" ∨ op = "=" then assigned target value else none

/-- The events of an activity that has no parts to run. -/
def emitted (s : Scope) (first : Bool) : Activity → Option (List Event)
  | .oneWay _ op _ => some (s.received first op)
  | .solicitResponse _ op port _ (some p) =>
    some (if p.isCorrelation then [.init p.key (s.fresh port op).fresh] else [])
  | .assign _ target op value =>
    some (if target.isCorrelation then ((accepted target op value).map (.init target.key)).toList
      else [])
  | .sequence .. => none
  | .parallel .. => none
  | .choice .. => none
  | .cond .. => none
  | .whileLoop .. => none
  | .forLoop .. => none
  | .forEach .. => none
  | .call .. => none
  | .requestResponse .. => none
  | .scope .. => none
  | .synchronized .. => none
  | _ => some []

/-- The traces of an activity. The flag says that it starts with the first operation of the entry
point, which only the head of a sequence can do. -/
inductive Runs (s : Scope) : (first : Bool) → Activity → List Event → Prop
  | emit {b a t} (h : s.emitted b a = some t) : Runs s b a t
  | sequenceNil {b} (l) : Runs s b (.sequence l []) []
  | sequenceCons {b a t u} (l rest) (ha : Runs s b a t) (hrest : Runs s false (.sequence l rest) u) :
      Runs s b (.sequence l (a :: rest)) (t ++ u)
  | parallelNil {b} (l) : Runs s b (.parallel l []) []
  | parallelCons {b a t u v} (l rest) (ha : Runs s false a t)
      (hrest : Runs s false (.parallel l rest) u) (h : Interleaves t u v) :
      Runs s b (.parallel l (a :: rest)) v
  | choice {b t u} (l branches) (branch : Branch) (hb : branch ∈ branches)
      (hguard : Runs s false branch.guard t) (hbody : Runs s false branch.body u) :
      Runs s b (.choice l branches) (t ++ u)
  | arm {b t} (l arms otherwise) (arm : Arm) (ha : arm ∈ arms) (hbody : Runs s false arm.body t) :
      Runs s b (.cond l arms otherwise) t
  | otherwise {b t} (l arms otherwise) (h : Runs s false otherwise t) :
      Runs s b (.cond l arms otherwise) t
  | whileLoop {b body} (l c) (turns : List (List Event))
      (h : ∀ t ∈ turns, Runs s false body t) : Runs s b (.whileLoop l c body) turns.flatten
  | forEach {b body} (l key target) (turns : List (List Event))
      (h : ∀ t ∈ turns, Runs s false body t) : Runs s b (.forEach l key target body) turns.flatten
  | forLoop {b first post body t} (l c) (turns : List (List Event × List Event))
      (hfirst : Runs s false first t) (hbody : ∀ x ∈ turns, Runs s false body x.1)
      (hpost : ∀ x ∈ turns, Runs s false post x.2) :
      Runs s b (.forLoop l first c post body) (t ++ (turns.map fun x => x.1 ++ x.2).flatten)
  | call {b t n d} (l) (hd : s.definition? n = some d) (h : Runs s (n == s.entry) d.body t) :
      Runs s b (.call l n) t
  | requestResponse {b t handler} (l op target output) (h : Runs s false handler t) :
      Runs s b (.requestResponse l op target output handler) (s.received b op ++ t)
  | scope {b t body} (l name) (h : Runs s false body t) : Runs s b (.scope l name body) t
  | synchronized {b t body} (l id) (h : Runs s false body t) : Runs s b (.synchronized l id body) t

/-- The traces of an activity. -/
def traces (s : Scope) (first : Bool) (a : Activity) : Language Event :=
  { t | s.Runs first a t }

/-- The traces of a definition. -/
def definitionTraces (s : Scope) (n : String) : Language Event :=
  { t | ∃ d, s.definition? n = some d ∧ t ∈ s.traces (n == s.entry) d.body }

theorem definitionTraces_eq {s : Scope} {n : String} {d : Definition}
    (hd : s.definition? n = some d) : s.definitionTraces n = s.traces (n == s.entry) d.body := by
  ext t
  constructor
  · rintro ⟨d', hd', ht⟩
    cases hd.symm.trans hd'
    exact ht
  · exact fun ht => ⟨d, hd, ht⟩

section Traces

variable {s : Scope} {b : Bool} {l : Location}

theorem traces_emitted {a : Activity} {t : List Event} (h : s.emitted b a = some t) :
    s.traces b a = {t} := by
  ext u
  refine ⟨fun hu => ?_, ?_⟩
  · cases hu with
    | emit hu => exact Option.some.inj (hu.symm.trans h)
    | _ => cases h
  · rintro rfl
    exact .emit h

theorem traces_sequence_nil : s.traces b (.sequence l []) = 1 := by
  ext t
  refine ⟨fun ht => ?_, ?_⟩
  · cases ht with
    | emit h => cases h
    | sequenceNil => rfl
  · rintro rfl
    exact .sequenceNil l

theorem traces_sequence_cons {a : Activity} {rest : List Activity} :
    s.traces b (.sequence l (a :: rest)) = s.traces b a * s.traces false (.sequence l rest) := by
  ext t
  rw [Language.mem_mul]
  refine ⟨fun ht => ?_, ?_⟩
  · cases ht with
    | emit h => cases h
    | sequenceCons _ _ ha hrest => exact ⟨_, ha, _, hrest, rfl⟩
  · rintro ⟨x, hx, y, hy, rfl⟩
    exact .sequenceCons l rest hx hy

theorem traces_parallel_nil : s.traces b (.parallel l []) = 1 := by
  ext t
  refine ⟨fun ht => ?_, ?_⟩
  · cases ht with
    | emit h => cases h
    | parallelNil => rfl
  · rintro rfl
    exact .parallelNil l

theorem traces_parallel_cons {a : Activity} {rest : List Activity} :
    s.traces b (.parallel l (a :: rest)) =
      interleavings (s.traces false a) (s.traces false (.parallel l rest)) := by
  ext t
  refine ⟨fun ht => ?_, ?_⟩
  · cases ht with
    | emit h => cases h
    | parallelCons _ _ ha hrest h => exact ⟨_, ha, _, hrest, h⟩
  · rintro ⟨x, hx, y, hy, h⟩
    exact .parallelCons l rest hx hy h

theorem traces_choice_nil : s.traces b (.choice l []) = 0 := by
  ext t
  refine ⟨fun ht => ?_, fun ht => (Language.notMem_zero t ht).elim⟩
  cases ht with
  | emit h => cases h
  | choice _ _ _ hb => exact (List.not_mem_nil hb).elim

theorem traces_choice_cons {branch : Branch} {rest : List Branch} :
    s.traces b (.choice l (branch :: rest)) =
      s.traces false branch.guard * s.traces false branch.body +
        s.traces false (.choice l rest) := by
  ext t
  rw [Language.mem_add, Language.mem_mul]
  refine ⟨fun ht => ?_, ?_⟩
  · cases ht with
    | emit h => cases h
    | choice _ _ other hb hguard hbody =>
      rcases List.mem_cons.1 hb with rfl | hb
      · exact .inl ⟨_, hguard, _, hbody, rfl⟩
      · exact .inr (.choice l rest other hb hguard hbody)
  · rintro (⟨x, hx, y, hy, rfl⟩ | ht)
    · exact .choice l _ branch List.mem_cons_self hx hy
    · cases ht with
      | emit h => cases h
      | choice _ _ other hb hguard hbody =>
        exact .choice l _ other (List.mem_cons_of_mem _ hb) hguard hbody

theorem traces_cond_nil {otherwise : Activity} :
    s.traces b (.cond l [] otherwise) = s.traces false otherwise := by
  ext t
  refine ⟨fun ht => ?_, .otherwise l [] otherwise⟩
  cases ht with
  | emit h => cases h
  | arm _ _ _ _ ha => exact (List.not_mem_nil ha).elim
  | otherwise _ _ _ h => exact h

theorem traces_cond_cons {arm : Arm} {rest : List Arm} {otherwise : Activity} :
    s.traces b (.cond l (arm :: rest) otherwise) =
      s.traces false arm.body + s.traces false (.cond l rest otherwise) := by
  ext t
  rw [Language.mem_add]
  refine ⟨fun ht => ?_, ?_⟩
  · cases ht with
    | emit h => cases h
    | arm _ _ _ other ha hbody =>
      rcases List.mem_cons.1 ha with rfl | ha
      · exact .inl hbody
      · exact .inr (.arm l rest otherwise other ha hbody)
    | otherwise _ _ _ h => exact .inr (.otherwise l rest otherwise h)
  · rintro (ht | ht)
    · exact .arm l _ otherwise arm List.mem_cons_self ht
    · cases ht with
      | emit h => cases h
      | arm _ _ _ other ha hbody =>
        exact .arm l _ otherwise other (List.mem_cons_of_mem _ ha) hbody
      | otherwise _ _ _ h => exact .otherwise l _ otherwise h

/-- A conditional runs one of its arms, or what stands at its end. -/
theorem traces_cond {arms : List Arm} {otherwise : Activity} :
    s.traces b (.cond l arms otherwise) =
      (arms.map fun arm => s.traces false arm.body).sum + s.traces false otherwise := by
  induction arms generalizing b with
  | nil => rw [traces_cond_nil, List.map_nil, List.sum_nil, zero_add]
  | cons arm rest ih => rw [traces_cond_cons, ih, List.map_cons, List.sum_cons, add_assoc]

theorem traces_whileLoop {c : Expr} {body : Activity} :
    s.traces b (.whileLoop l c body) = (s.traces false body)∗ := by
  ext t
  rw [Language.mem_kstar]
  refine ⟨fun ht => ?_, ?_⟩
  · cases ht with
    | emit h => cases h
    | whileLoop _ _ turns h => exact ⟨turns, rfl, h⟩
  · rintro ⟨turns, rfl, h⟩
    exact .whileLoop l c turns h

theorem traces_forEach {key target : Option Path} {body : Activity} :
    s.traces b (.forEach l key target body) = (s.traces false body)∗ := by
  ext t
  rw [Language.mem_kstar]
  refine ⟨fun ht => ?_, ?_⟩
  · cases ht with
    | emit h => cases h
    | forEach _ _ _ turns h => exact ⟨turns, rfl, h⟩
  · rintro ⟨turns, rfl, h⟩
    exact .forEach l key target turns h

theorem traces_forLoop {first post body : Activity} {c : Expr} :
    s.traces b (.forLoop l first c post body) =
      s.traces false first * (s.traces false body * s.traces false post)∗ := by
  ext t
  rw [Language.mem_mul]
  refine ⟨fun ht => ?_, ?_⟩
  · cases ht with
    | emit h => cases h
    | forLoop _ _ turns hfirst hbody hpost =>
      refine ⟨_, hfirst, _, Language.join_mem_kstar fun y hy => ?_, rfl⟩
      obtain ⟨x, hx, rfl⟩ := List.mem_map.1 hy
      exact Language.append_mem_mul (hbody x hx) (hpost x hx)
  · rintro ⟨x, hx, y, hy, rfl⟩
    obtain ⟨turns, rfl, hturns⟩ := Language.mem_kstar.1 hy
    have hpairs : ∃ pairs : List (List Event × List Event),
        turns = (pairs.map fun x => x.1 ++ x.2) ∧
        ∀ p ∈ pairs, s.Runs false body p.1 ∧ s.Runs false post p.2 := by
      clear hy
      induction turns with
      | nil => exact ⟨[], rfl, List.forall_mem_nil _⟩
      | cons turn rest ih =>
        obtain ⟨hturn, hrest⟩ := List.forall_mem_cons.1 hturns
        obtain ⟨pairs, rfl, hpairs⟩ := ih hrest
        obtain ⟨u, hu, v, hv, rfl⟩ := Language.mem_mul.1 hturn
        exact ⟨(u, v) :: pairs, rfl, List.forall_mem_cons.2 ⟨⟨hu, hv⟩, hpairs⟩⟩
    obtain ⟨pairs, rfl, hpairs⟩ := hpairs
    exact .forLoop l c pairs hx (fun p hp => (hpairs p hp).1) fun p hp => (hpairs p hp).2

theorem traces_call {n : String} : s.traces b (.call l n) = s.definitionTraces n := by
  ext t
  refine ⟨fun ht => ?_, ?_⟩
  · cases ht with
    | emit h => cases h
    | call _ hd h => exact ⟨_, hd, h⟩
  · rintro ⟨_, hd, ht⟩
    exact .call l hd ht

theorem traces_requestResponse {op : String} {target : Option Path} {output : Expr}
    {handler : Activity} :
    s.traces b (.requestResponse l op target output handler) =
      {s.received b op} * s.traces false handler := by
  ext t
  rw [Language.mem_mul]
  refine ⟨fun ht => ?_, ?_⟩
  · cases ht with
    | emit h => cases h
    | requestResponse _ _ _ _ h => exact ⟨_, rfl, _, h, rfl⟩
  · rintro ⟨_, rfl, y, hy, rfl⟩
    exact .requestResponse l op target output hy

theorem traces_scope {name : String} {body : Activity} :
    s.traces b (.scope l name body) = s.traces false body := by
  ext t
  refine ⟨fun ht => ?_, .scope l name⟩
  cases ht with
  | emit h => cases h
  | scope _ _ h => exact h

theorem traces_synchronized {id : String} {body : Activity} :
    s.traces b (.synchronized l id body) = s.traces false body := by
  ext t
  refine ⟨fun ht => ?_, .synchronized l id⟩
  cases ht with
  | emit h => cases h
  | synchronized _ _ h => exact h

end Traces

end Check.Scope

end Sessions
