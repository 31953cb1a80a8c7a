import Sessions.Program.Activity

/-!
# Sessions.Proofs.Program.Activity

Induction on activities, and what a proof asks of an activity's text: what stands inside it, which
definitions it calls, whether it takes aliases and, if it is a loop, what its turns are. All of it
leaves out what runs in instances of its own (`spawn`); `Includes` leaves out what fault handlers do
as well.
-/

namespace Sessions.Activity

/-- Induction on activities: the parts of a list are at hand one by one. -/
@[elab_as_elim, induction_eliminator]
theorem induct {P : Activity → Prop}
    (missing : P .missing)
    (sequence : ∀ l as, (∀ a ∈ as, P a) → P (.sequence l as))
    (parallel : ∀ l as, (∀ a ∈ as, P a) → P (.parallel l as))
    (choice : ∀ l bs, (∀ b ∈ bs, P b.guard ∧ P b.body) → P (.choice l bs))
    (cond : ∀ l arms otherwise, (∀ a ∈ arms, P a.body) → P otherwise →
      P (.cond l arms otherwise))
    (whileLoop : ∀ l c body, P body → P (.whileLoop l c body))
    (forLoop : ∀ l first c post body, P first → P post → P body →
      P (.forLoop l first c post body))
    (forEach : ∀ l key target body, P body → P (.forEach l key target body))
    (call : ∀ l name, P (.call l name))
    (oneWay : ∀ l op target, P (.oneWay l op target))
    (requestResponse : ∀ l op target output handler, P handler →
      P (.requestResponse l op target output handler))
    (notification : ∀ l op port output, P (.notification l op port output))
    (solicitResponse : ∀ l op port output target, P (.solicitResponse l op port output target))
    (assign : ∀ l target op value, P (.assign l target op value))
    (increment : ∀ l p pre decrement, P (.increment l p pre decrement))
    (scope : ∀ l name body, P body → P (.scope l name body))
    (synchronized : ∀ l id body, P body → P (.synchronized l id body))
    (pointer : ∀ l left right, P (.pointer l left right))
    (deepCopy : ∀ l left right, P (.deepCopy l left right))
    (undef : ∀ l target, P (.undef l target))
    (install : ∀ l hs, (∀ h ∈ hs, P h.body) → P (.install l hs))
    (spawn : ∀ l body, P body → P (.spawn l body))
    (nothing : ∀ l, P (.nothing l))
    (exit : ∀ l, P (.exit l))
    (throw : ∀ l fault, P (.throw l fault))
    (compensate : ∀ l scope, P (.compensate l scope))
    (linkIn : ∀ l link, P (.linkIn l link))
    (linkOut : ∀ l link, P (.linkOut l link))
    (run : ∀ l code, P (.run l code))
    (currentHandler : ∀ l, P (.currentHandler l)) (a : Activity) : P a :=
  @Activity.rec P (fun b => P b.guard ∧ P b.body) (fun a => P a.body) (fun h => P h.body)
    (fun as => ∀ a ∈ as, P a) (fun bs => ∀ b ∈ bs, P b.guard ∧ P b.body)
    (fun arms => ∀ a ∈ arms, P a.body) (fun hs => ∀ h ∈ hs, P h.body)
    missing sequence parallel choice cond whileLoop forLoop forEach call oneWay requestResponse
    notification solicitResponse assign increment scope synchronized pointer deepCopy undef
    install spawn nothing exit throw compensate linkIn linkOut run currentHandler
    (fun _ _ hg hb => ⟨hg, hb⟩) (fun _ _ h => h) (fun _ _ h => h)
    (List.forall_mem_nil _) (fun _ _ h hs => List.forall_mem_cons.2 ⟨h, hs⟩)
    (List.forall_mem_nil _) (fun _ _ h hs => List.forall_mem_cons.2 ⟨h, hs⟩)
    (List.forall_mem_nil _) (fun _ _ h hs => List.forall_mem_cons.2 ⟨h, hs⟩)
    (List.forall_mem_nil _) (fun _ _ h hs => List.forall_mem_cons.2 ⟨h, hs⟩) a

/-! ## Parts -/

/-- The activities right inside an activity, apart from one that is spawned. -/
def children : Activity → List Activity
  | .sequence _ as => as
  | .parallel _ as => as
  | .choice _ bs => bs.flatMap fun b => [b.guard, b.body]
  | .cond _ arms otherwise => arms.map Arm.body ++ [otherwise]
  | .whileLoop _ _ body => [body]
  | .forLoop _ first _ post body => [first, body, post]
  | .forEach _ _ _ body => [body]
  | .requestResponse _ _ _ _ handler => [handler]
  | .scope _ _ body => [body]
  | .synchronized _ _ body => [body]
  | .install _ hs => hs.map Handler.body
  | _ => []

mutual

/-- The activity and all that stand inside it, apart from those that are spawned. -/
def parts : Activity → List Activity
  | .sequence l as => .sequence l as :: partsOfAll as
  | .parallel l as => .parallel l as :: partsOfAll as
  | .choice l bs => .choice l bs :: partsOfBranches bs
  | .cond l arms otherwise => .cond l arms otherwise :: (partsOfArms arms ++ otherwise.parts)
  | .whileLoop l c body => .whileLoop l c body :: body.parts
  | .forLoop l first c post body =>
    .forLoop l first c post body :: (first.parts ++ body.parts ++ post.parts)
  | .forEach l key target body => .forEach l key target body :: body.parts
  | .requestResponse l op target output handler =>
    .requestResponse l op target output handler :: handler.parts
  | .scope l name body => .scope l name body :: body.parts
  | .synchronized l id body => .synchronized l id body :: body.parts
  | .install l hs => .install l hs :: partsOfHandlers hs
  | a => [a]

def partsOfAll : List Activity → List Activity
  | [] => []
  | a :: rest => a.parts ++ partsOfAll rest

def partsOfBranches : List Branch → List Activity
  | [] => []
  | ⟨guard, body⟩ :: rest => guard.parts ++ body.parts ++ partsOfBranches rest

def partsOfArms : List Arm → List Activity
  | [] => []
  | ⟨_, body⟩ :: rest => body.parts ++ partsOfArms rest

def partsOfHandlers : List Handler → List Activity
  | [] => []
  | ⟨_, body⟩ :: rest => body.parts ++ partsOfHandlers rest

end

theorem partsOfAll_eq (as : List Activity) : partsOfAll as = as.flatMap parts := by
  induction as with
  | nil => rfl
  | cons a rest ih => rw [partsOfAll, ih, List.flatMap_cons]

theorem partsOfBranches_eq (bs : List Branch) :
    partsOfBranches bs = (bs.flatMap fun b => [b.guard, b.body]).flatMap parts := by
  induction bs with
  | nil => rfl
  | cons b rest ih => cases b; simp [partsOfBranches, ih]

theorem partsOfArms_eq (arms : List Arm) :
    partsOfArms arms = (arms.map Arm.body).flatMap parts := by
  induction arms with
  | nil => rfl
  | cons a rest ih => cases a; simp [partsOfArms, ih]

theorem partsOfHandlers_eq (hs : List Handler) :
    partsOfHandlers hs = (hs.map Handler.body).flatMap parts := by
  induction hs with
  | nil => rfl
  | cons h rest ih => cases h; simp [partsOfHandlers, ih]

theorem parts_eq (a : Activity) : a.parts = a :: a.children.flatMap parts := by
  cases a with
  | sequence l as => rw [parts, partsOfAll_eq]; rfl
  | parallel l as => rw [parts, partsOfAll_eq]; rfl
  | choice l bs => rw [parts, partsOfBranches_eq]; rfl
  | cond l arms otherwise => simp [parts, partsOfArms_eq, children]
  | forLoop l first c post body => simp [parts, children]
  | install l hs => rw [parts, partsOfHandlers_eq]; rfl
  | _ => simp [parts, children]

/-- Induction on the parts of an activity, whatever its kind. -/
theorem induct_children {P : Activity → Prop} (h : ∀ a, (∀ b ∈ a.children, P b) → P a)
    (a : Activity) : P a := by
  induction a with
  | sequence l as ih => exact h _ ih
  | parallel l as ih => exact h _ ih
  | choice l bs ih =>
    refine h _ fun x hx => ?_
    obtain ⟨b, hb, hx⟩ := List.mem_flatMap.1 hx
    simp only [List.mem_cons, List.not_mem_nil, or_false] at hx
    rcases hx with rfl | rfl
    · exact (ih b hb).1
    · exact (ih b hb).2
  | cond l arms otherwise iha iho =>
    refine h _ fun x hx => ?_
    rcases List.mem_append.1 hx with hx | hx
    · obtain ⟨a, ha, rfl⟩ := List.mem_map.1 hx
      exact iha a ha
    · exact List.mem_singleton.1 hx ▸ iho
  | whileLoop l c body ih => exact h _ (List.forall_mem_singleton.2 ih)
  | forLoop l first c post body ihf ihp ihb =>
    exact h _ (List.forall_mem_cons.2 ⟨ihf, List.forall_mem_cons.2 ⟨ihb,
      List.forall_mem_singleton.2 ihp⟩⟩)
  | forEach l key target body ih => exact h _ (List.forall_mem_singleton.2 ih)
  | requestResponse l op target output handler ih =>
    exact h _ (List.forall_mem_singleton.2 ih)
  | scope l name body ih => exact h _ (List.forall_mem_singleton.2 ih)
  | synchronized l id body ih => exact h _ (List.forall_mem_singleton.2 ih)
  | install l hs ih =>
    refine h _ fun x hx => ?_
    obtain ⟨b, hb, rfl⟩ := List.mem_map.1 hx
    exact ih b hb
  | _ => exact h _ (List.forall_mem_nil _)

theorem mem_parts_self (a : Activity) : a ∈ a.parts := by
  rw [parts_eq]; exact List.mem_cons_self

/-- The parts of a part are parts. -/
theorem parts_subset {a b : Activity} (h : a ∈ b.parts) : a.parts ⊆ b.parts := by
  induction b using induct_children with
  | h b ih =>
    rw [parts_eq b] at h
    rcases List.mem_cons.1 h with rfl | h
    · exact List.Subset.refl _
    · obtain ⟨x, hx, hax⟩ := List.mem_flatMap.1 h
      intro y hy
      rw [parts_eq b]
      exact List.mem_cons_of_mem _ (List.mem_flatMap.2 ⟨x, hx, ih x hx hax hy⟩)

theorem mem_parts_of_child {a b : Activity} (hb : b ∈ a.children) : b ∈ a.parts := by
  rw [parts_eq]
  exact List.mem_cons_of_mem _ (List.mem_flatMap.2 ⟨b, hb, mem_parts_self b⟩)

/-! ## What counts -/

/-- The activities right inside an activity whose facts count for it. Fault handlers run only on
faults, so that nothing they do is certain. -/
def steps : Activity → List Activity
  | .install _ _ => []
  | a => a.children

/-- The activity is the given one or stands inside it, neither spawned nor in a fault handler. -/
inductive Includes : Activity → Activity → Prop
  | self (a : Activity) : Includes a a
  | inside {a b x : Activity} (hb : b ∈ a.steps) (hx : Includes b x) : Includes a x

theorem steps_subset (a : Activity) : a.steps ⊆ a.children := by
  cases a with
  | install l hs => exact List.nil_subset _
  | _ => exact List.Subset.refl _

theorem Includes.step {a b x : Activity} (h : a.Includes b) (hx : x ∈ b.steps) : a.Includes x := by
  induction h with
  | self a => exact .inside hx (.self x)
  | inside hb _ ih => exact .inside hb (ih hx)

theorem Includes.mem_parts {a b : Activity} (h : a.Includes b) : b ∈ a.parts := by
  induction h with
  | self a => exact mem_parts_self a
  | @inside a b x hb _ ih => exact parts_subset (mem_parts_of_child (steps_subset a hb)) ih

/-- Whether the activity may run its body again and again. -/
def isLoop : Activity → Bool
  | .whileLoop .. => true
  | .forEach .. => true
  | .forLoop .. => true
  | _ => false

/-! ## Calls and aliases -/

/-- The definition that the activity calls, if it is a call. -/
def callee? : Activity → Option String
  | .call _ name => some name
  | _ => none

/-- The definitions that are called inside the activity. -/
def calls (a : Activity) : List String :=
  a.parts.filterMap callee?

/-- Whether the activity makes paths untraceable: an alias, a copy of a tree or a removal. -/
def isAlias : Activity → Bool
  | .pointer .. => true
  | .deepCopy .. => true
  | .undef .. => true
  | _ => false

/-- Whether nothing inside the activity makes paths untraceable. -/
def aliasFree (a : Activity) : Bool :=
  a.parts.all fun x => !x.isAlias

theorem mem_calls_call (l : Location) (n : String) : n ∈ (call l n).calls :=
  List.mem_filterMap.2 ⟨call l n, mem_parts_self _, rfl⟩

theorem mem_calls_of_part {a b : Activity} {n : String} (hb : b ∈ a.parts) (hn : n ∈ b.calls) :
    n ∈ a.calls := by
  obtain ⟨x, hx, hxn⟩ := List.mem_filterMap.1 hn
  exact List.mem_filterMap.2 ⟨x, parts_subset hb hx, hxn⟩

theorem aliasFree_of_part {a b : Activity} (hb : b ∈ a.parts) (ha : a.aliasFree) :
    b.aliasFree := by
  rw [aliasFree, List.all_eq_true] at ha ⊢
  exact fun x hx => ha x (parts_subset hb hx)

theorem isAlias_of_aliasFree {a : Activity} (ha : a.aliasFree) : a.isAlias = false := by
  rw [aliasFree, List.all_eq_true] at ha
  simpa using ha a (mem_parts_self a)

/-! ## Loops -/

/-- The loop: what runs before its first turn, and what runs in each turn. -/
inductive Turns : Activity → Location → List Activity → Activity → Prop
  | whileLoop (l c body) : Turns (.whileLoop l c body) l [] body
  | forEach (l key target body) : Turns (.forEach l key target body) l [] body
  | forLoop (l first c post body) :
      Turns (.forLoop l first c post body) l [first] (.sequence l [body, post])

/-- What runs first, and then `n` turns. -/
def unrolled (l : Location) (first : List Activity) (turn : Activity) (n : Nat) :
    Activity :=
  .sequence l (first ++ [.sequence l (List.replicate n turn)])

theorem mem_calls_sequence {l : Location} {as : List Activity} {n : String} :
    n ∈ (sequence l as).calls ↔ ∃ a ∈ as, n ∈ a.calls := by
  rw [calls, parts_eq, List.filterMap_cons_none rfl]
  simp only [List.mem_filterMap, List.mem_flatMap, calls, children]
  constructor
  · rintro ⟨x, ⟨a, ha, hx⟩, hn⟩
    exact ⟨a, ha, x, hx, hn⟩
  · rintro ⟨a, ha, x, hx, hn⟩
    exact ⟨x, ⟨a, ha, hx⟩, hn⟩

theorem mem_calls_of_child {a b : Activity} {n : String} (hb : b ∈ a.children)
    (hn : n ∈ b.calls) : n ∈ a.calls :=
  mem_calls_of_part (mem_parts_of_child hb) hn

/-- The unrolled loop and its parts call what the loop calls. -/
theorem Turns.calls {loop turn : Activity} {l : Location} {first : List Activity}
    (h : loop.Turns l first turn) {n : String} :
    (n ∈ turn.calls → n ∈ loop.calls) ∧ (n ∈ (sequence l first).calls → n ∈ loop.calls) ∧
      ∀ k, n ∈ (unrolled l first turn k).calls → n ∈ loop.calls := by
  have hparts : (n ∈ turn.calls → n ∈ loop.calls) ∧
      (n ∈ (sequence l first).calls → n ∈ loop.calls) := by
    simp only [mem_calls_sequence]
    cases h with
    | whileLoop => exact ⟨mem_calls_of_child (by simp [children]), by simp⟩
    | forEach => exact ⟨mem_calls_of_child (by simp [children]), by simp⟩
    | forLoop =>
      simp only [mem_calls_sequence, List.mem_cons, List.not_mem_nil, or_false]
      constructor <;> rintro ⟨x, hx, hn⟩ <;> refine mem_calls_of_child ?_ hn
      · rcases hx with rfl | rfl <;> simp [children]
      · simp [hx, children]
  refine ⟨hparts.1, hparts.2, fun k hn => ?_⟩
  obtain ⟨x, hx, hn⟩ := mem_calls_sequence.1 hn
  rcases List.mem_append.1 hx with hx | hx
  · exact hparts.2 (mem_calls_sequence.2 ⟨x, hx, hn⟩)
  · rw [List.mem_singleton.1 hx] at hn
    obtain ⟨y, hy, hn⟩ := mem_calls_sequence.1 hn
    rw [List.eq_of_mem_replicate hy] at hn
    exact hparts.1 hn

end Sessions.Activity
