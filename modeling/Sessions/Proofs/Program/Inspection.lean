import Mathlib.Data.List.ReduceOption
import Mathlib.Data.List.Pairwise
import Sessions.Proofs.Program.Activity
import Sessions.Program.Node

/-!
# Sessions.Proofs.Program.Inspection

The walk over the nodes of a program, without the walk. A `Layout` says in which places the children
of a node stand; there may be places where nothing stands. An occurrence of a node is the list of
places that lead to it, and occurrences in lexicographic order are in depth-first pre-order, so that
`Visits` says which nodes are visited, how often and in which order. `exists_visits` proves it of
`Node.visit` for every node and whatever is pruned.
-/

namespace Sessions

/-! ## Children -/

/-- The expressions right inside an expression, in the order of the fields. -/
def Expr.fields : Expr → List Node
  | .binary _ _ a b => [.expr a, .expr b]
  | .all _ es => es.map .expr
  | .any _ es => es.map .expr
  | .not _ e => [.expr e]
  | .compare _ _ a b => [.expr a, .expr b]
  | .cast _ _ e => [.expr e]
  | _ => []

/-- What stands right inside an activity, in the order of the fields. -/
def Activity.fields : Activity → List Node
  | .sequence _ as => as.map .activity
  | .parallel _ as => as.map .activity
  | .choice _ bs => bs.flatMap fun b => [.activity b.guard, .activity b.body]
  | .cond _ arms otherwise =>
    (arms.flatMap fun a => [.expr a.cond, .activity a.body]) ++ [.activity otherwise]
  | .whileLoop _ c body => [.expr c, .activity body]
  | .forLoop _ first c post body => [.activity first, .expr c, .activity post, .activity body]
  | .forEach _ _ _ body => [.activity body]
  | .requestResponse _ _ _ output handler => [.expr output, .activity handler]
  | .notification _ _ _ output => [.expr output]
  | .solicitResponse _ _ _ output _ => [.expr output]
  | .assign _ _ _ value => [.expr value]
  | .scope _ _ body => [.activity body]
  | .synchronized _ _ body => [.activity body]
  | .install _ hs => hs.map fun h => .activity h.body
  | .spawn _ body => [.activity body]
  | .run _ code => [.expr code]
  | _ => []

/-- The node of an item. -/
def Item.node : Item → Node
  | .definition d => .definition d
  | .declaration d => .declaration d

namespace Node

/-- What stands right inside a node, in the order of the fields. -/
def fields : Node → List Node
  | .program p => p.items.map Item.node
  | .definition d => [.activity d.body]
  | .declaration _ => []
  | .activity a => a.fields
  | .expr e => e.fields

/-- Whether something stands here. -/
def isThere : Node → Bool
  | .activity .missing => false
  | .expr .missing => false
  | _ => true

/-- The nodes right inside a node. -/
def children (n : Node) : List Node :=
  n.fields.filter isThere

theorem sizeOf_expr_fields {e : Expr} {m : Node} (h : m ∈ e.fields) :
    sizeOf m < sizeOf (Node.expr e) := by
  cases e with
  | all l es =>
    obtain ⟨x, hx, rfl⟩ := List.mem_map.1 h
    have := List.sizeOf_lt_of_mem hx
    simp only [Node.expr.sizeOf_spec, Expr.all.sizeOf_spec]
    omega
  | any l es =>
    obtain ⟨x, hx, rfl⟩ := List.mem_map.1 h
    have := List.sizeOf_lt_of_mem hx
    simp only [Node.expr.sizeOf_spec, Expr.any.sizeOf_spec]
    omega
  | _ => simp [Expr.fields] at h <;> (try rcases h with rfl | rfl) <;> simp <;> omega

theorem sizeOf_activity_fields {a : Activity} {m : Node} (h : m ∈ a.fields) :
    sizeOf m < sizeOf (Node.activity a) := by
  cases a with
  | sequence l as =>
    obtain ⟨x, hx, rfl⟩ := List.mem_map.1 h
    have := List.sizeOf_lt_of_mem hx
    simp only [Node.activity.sizeOf_spec, Activity.sequence.sizeOf_spec]
    omega
  | parallel l as =>
    obtain ⟨x, hx, rfl⟩ := List.mem_map.1 h
    have := List.sizeOf_lt_of_mem hx
    simp only [Node.activity.sizeOf_spec, Activity.parallel.sizeOf_spec]
    omega
  | choice l bs =>
    obtain ⟨⟨guard, body⟩, hx, hm⟩ := List.mem_flatMap.1 h
    have := List.sizeOf_lt_of_mem hx
    simp only [Branch.mk.sizeOf_spec] at this
    simp only [List.mem_cons, List.not_mem_nil, or_false] at hm
    rcases hm with rfl | rfl
    all_goals
      simp only [Node.activity.sizeOf_spec, Activity.choice.sizeOf_spec]
      omega
  | cond l arms otherwise =>
    rcases List.mem_append.1 h with h | h
    · obtain ⟨⟨c, body⟩, hx, hm⟩ := List.mem_flatMap.1 h
      have := List.sizeOf_lt_of_mem hx
      simp only [Arm.mk.sizeOf_spec] at this
      simp only [List.mem_cons, List.not_mem_nil, or_false] at hm
      rcases hm with rfl | rfl
      all_goals
        simp only [Node.activity.sizeOf_spec, Node.expr.sizeOf_spec, Activity.cond.sizeOf_spec]
        omega
    · rw [List.mem_singleton.1 h]
      simp only [Node.activity.sizeOf_spec, Activity.cond.sizeOf_spec]
      omega
  | install l hs =>
    obtain ⟨⟨fault, body⟩, hx, rfl⟩ := List.mem_map.1 h
    have := List.sizeOf_lt_of_mem hx
    simp only [Handler.mk.sizeOf_spec] at this
    simp only [Node.activity.sizeOf_spec, Activity.install.sizeOf_spec]
    omega
  | forLoop l first c post body =>
    simp only [Activity.fields, List.mem_cons, List.not_mem_nil, or_false] at h
    rcases h with rfl | rfl | rfl | rfl
    all_goals
      simp only [Node.activity.sizeOf_spec, Node.expr.sizeOf_spec, Activity.forLoop.sizeOf_spec]
      omega
  | _ => simp [Activity.fields] at h <;> (try rcases h with rfl | rfl) <;> simp <;> omega

theorem sizeOf_fields {m n : Node} (h : m ∈ n.fields) : sizeOf m < sizeOf n := by
  cases n with
  | program p =>
    obtain ⟨i, hi, rfl⟩ := List.mem_map.1 h
    have := List.sizeOf_lt_of_mem hi
    cases p
    cases i <;> simp [Item.node] at * <;> omega
  | definition d =>
    rw [List.mem_singleton.1 h]
    cases d
    simp only [Node.definition.sizeOf_spec, Node.activity.sizeOf_spec, Definition.mk.sizeOf_spec]
    omega
  | declaration d => exact (List.not_mem_nil h).elim
  | activity a => exact sizeOf_activity_fields h
  | expr e => exact sizeOf_expr_fields h

/-- Induction on nodes, from the children to the node. -/
theorem induct {P : Node → Prop} (h : ∀ n, (∀ m ∈ n.fields, P m) → P n) (n : Node) : P n :=
  h n fun m hm =>
    have := sizeOf_fields hm
    induct h m
termination_by sizeOf n

theorem isThere_of_child {m n : Node} (h : m ∈ n.children) : n.isThere = true := by
  cases n with
  | activity a =>
    cases a with
    | missing => exact (List.not_mem_nil h).elim
    | _ => rfl
  | expr e =>
    cases e with
    | missing => exact (List.not_mem_nil h).elim
    | _ => rfl
  | _ => rfl

section Visit

variable (enter : Node → Bool)

theorem visitAll_expr (es : List Expr) :
    Expr.visitAll enter es = (es.map Node.expr).flatMap (visit enter) := by
  induction es with
  | nil => rfl
  | cons e rest ih => rw [Expr.visitAll, ih]; rfl

theorem visitAll_activity (as : List Activity) :
    Activity.visitAll enter as = (as.map Node.activity).flatMap (visit enter) := by
  induction as with
  | nil => rfl
  | cons a rest ih => rw [Activity.visitAll, ih]; rfl

theorem visitAll_branch (bs : List Branch) :
    Branch.visitAll enter bs =
      (bs.flatMap fun b => [Node.activity b.guard, .activity b.body]).flatMap (visit enter) := by
  induction bs with
  | nil => rfl
  | cons b rest ih => cases b; rw [Branch.visitAll, ih]; simp [visit]

theorem visitAll_arm (arms : List Arm) :
    Arm.visitAll enter arms =
      (arms.flatMap fun a => [Node.expr a.cond, .activity a.body]).flatMap (visit enter) := by
  induction arms with
  | nil => rfl
  | cons a rest ih => cases a; rw [Arm.visitAll, ih]; simp [visit]

theorem visitAll_handler (hs : List Handler) :
    Handler.visitAll enter hs =
      (hs.map fun h => Node.activity h.body).flatMap (visit enter) := by
  induction hs with
  | nil => rfl
  | cons h rest ih => cases h; rw [Handler.visitAll, ih]; rfl

theorem visit_expr (e : Expr) :
    (Node.expr e).visit enter = if (Node.expr e).isThere then
      Node.enter enter (.expr e) (e.fields.flatMap (visit enter)) else [] := by
  cases e with
  | missing => rfl
  | all l es => rw [visit, Expr.visit, visitAll_expr]; rfl
  | any l es => rw [visit, Expr.visit, visitAll_expr]; rfl
  | _ => simp [visit, Expr.visit, Expr.fields, isThere, Node.enter]

theorem visit_activity (a : Activity) :
    (Node.activity a).visit enter = if (Node.activity a).isThere then
      Node.enter enter (.activity a) (a.fields.flatMap (visit enter)) else [] := by
  cases a with
  | missing => rfl
  | sequence l as => rw [visit, Activity.visit, visitAll_activity]; rfl
  | parallel l as => rw [visit, Activity.visit, visitAll_activity]; rfl
  | choice l bs => rw [visit, Activity.visit, visitAll_branch]; rfl
  | cond l arms otherwise =>
    rw [visit, Activity.visit, visitAll_arm]
    simp [Activity.fields, isThere, visit]
  | install l hs => rw [visit, Activity.visit, visitAll_handler]; rfl
  | _ => simp [visit, Activity.visit, Activity.fields, isThere, Node.enter]

theorem visit_item (i : Item) : visitItem enter i = i.node.visit enter := by
  cases i <;> rfl

/-- The walk of a node: the node, and if it is entered what stands inside. -/
theorem visit_fields (n : Node) :
    n.visit enter =
      if n.isThere then Node.enter enter n (n.fields.flatMap (visit enter)) else [] := by
  cases n with
  | program p =>
    have hitems : visitItem enter = fun i => i.node.visit enter := funext (visit_item enter)
    rw [visit, hitems, fields, List.flatMap_map]
    rfl
  | definition d => rw [visit, visitItem, fields]; simp [isThere, visit]
  | declaration d => simp [visit, visitItem, isThere, Node.enter, fields]
  | activity a => exact visit_activity enter a
  | expr e => exact visit_expr enter e

theorem visit_of_not_isThere {n : Node} (h : n.isThere = false) : n.visit enter = [] := by
  rw [visit_fields, h]
  rfl

theorem flatMap_children (n : Node) :
    n.fields.flatMap (visit enter) = n.children.flatMap (visit enter) := by
  rw [children]
  induction n.fields with
  | nil => rfl
  | cons m rest ih =>
    rw [List.flatMap_cons, ih, List.filter_cons]
    cases hm : m.isThere with
    | true => rfl
    | false => rw [visit_of_not_isThere enter hm]; rfl

theorem visit_eq {n : Node} (h : n.isThere = true) :
    n.visit enter = n :: if enter n then n.children.flatMap (visit enter) else [] := by
  rw [visit_fields, h, flatMap_children]
  rfl

end Visit

/-- What stands inside a child stands inside the node. -/
theorem mem_all_of_child {m n x : Node} (h : m ∈ n.children) (hx : x ∈ m.all) : x ∈ n.all := by
  rw [all, visit_eq _ (isThere_of_child h), if_pos rfl]
  exact List.mem_cons_of_mem _ (List.mem_flatMap.2 ⟨m, h, hx⟩)

theorem mem_all_self {n : Node} (h : n.isThere = true) : n ∈ n.all := by
  rw [all, visit_eq _ h]
  exact List.mem_cons_self

end Node

/-! ## Parts of activities -/

theorem Activity.mem_fields_of_child {a b : Activity} (h : b ∈ a.children) :
    Node.activity b ∈ a.fields := by
  cases a with
  | sequence l as => exact List.mem_map_of_mem h
  | parallel l as => exact List.mem_map_of_mem h
  | choice l bs =>
    obtain ⟨x, hx, hb⟩ := List.mem_flatMap.1 h
    refine List.mem_flatMap.2 ⟨x, hx, ?_⟩
    simpa using hb
  | cond l arms otherwise =>
    refine List.mem_append.2 ((List.mem_append.1 h).imp (fun h => ?_) fun h => ?_)
    · obtain ⟨x, hx, rfl⟩ := List.mem_map.1 h
      exact List.mem_flatMap.2 ⟨x, hx, by simp⟩
    · rw [List.mem_singleton.1 h]
      exact List.mem_singleton_self _
  | install l hs =>
    obtain ⟨x, hx, rfl⟩ := List.mem_map.1 h
    exact List.mem_map_of_mem hx
  | forLoop l first c post body =>
    simp only [Activity.children, List.mem_cons, List.not_mem_nil, or_false] at h
    rcases h with rfl | rfl | rfl <;> simp [Activity.fields]
  | _ => simp_all [Activity.children, Activity.fields]

/-- The walk over the nodes comes to every part of an activity, except those that are missing. -/
theorem Activity.mem_all_of_mem_parts {a b : Activity} (h : b ∈ a.parts)
    (hb : (Node.activity b).isThere = true) : Node.activity b ∈ (Node.activity a).all := by
  induction a using Activity.induct_children with
  | h a ih =>
    rw [parts_eq] at h
    rcases List.mem_cons.1 h with rfl | h
    · exact Node.mem_all_self hb
    · obtain ⟨x, hx, hbx⟩ := List.mem_flatMap.1 h
      have hall := ih x hx hbx
      cases hthere : (Node.activity x).isThere with
      | true =>
        exact Node.mem_all_of_child (List.mem_filter.2 ⟨mem_fields_of_child hx, hthere⟩) hall
      | false =>
        rw [Node.all, Node.visit_of_not_isThere _ hthere] at hall
        exact (List.not_mem_nil hall).elim

/-! ## Occurrences -/

/-- The places right inside each node, in order; a child stands in some of them, and nothing stands
in the others. -/
structure Layout where
  places : Node → List (Option Node)
  children : ∀ n, (places n).reduceOption = n.children

namespace Layout

/-- The layout by fields: where a field is missing its place is empty. -/
def byFields : Layout where
  places n := n.fields.map fun m => if m.isThere then some m else none
  children n := by
    rw [Node.children]
    induction n.fields with
    | nil => rfl
    | cons m rest ih =>
      rw [List.map_cons, List.filter_cons]
      cases m.isThere with
      | true => rw [if_pos rfl, if_pos rfl, List.reduceOption_cons_of_some, ih]
      | false => rw [if_neg Bool.false_ne_true, if_neg Bool.false_ne_true,
          List.reduceOption_cons_of_none, ih]

instance : Inhabited Layout := ⟨byFields⟩

variable (L : Layout)

/-- What stands where the places lead to, one inside the other. -/
def at? : Node → List Nat → Option Node
  | n, [] => if n.isThere then some n else none
  | n, i :: q => ((L.places n)[i]?).join.bind fun m => at? m q

/-- The node stands there, and the walk enters every node on the way to it. -/
def Reaches (enter : Node → Bool) (root : Node) (q : List Nat) (n : Node) : Prop :=
  L.at? root q = some n ∧
    ∀ q' m, q' <+: q → q' ≠ q → L.at? root q' = some m → enter m = true

/-- The nodes that a walk visits, each with where it stands: they are those that the walk reaches,
each of them once, in depth-first order and a node before what stands inside it. -/
structure Visits (enter : Node → Bool) (root : Node) (ps : List (List Nat × Node)) : Prop where
  nodes : ps.map Prod.snd = root.visit enter
  preorder : (ps.map Prod.fst).Pairwise (· < ·)
  reached : ∀ q n, (q, n) ∈ ps ↔ L.Reaches enter root q n

variable {L} {enter : Node → Bool} {n m : Node} {i : Nat} {q : List Nat}

theorem mem_children_of_mem_places (h : some m ∈ L.places n) : m ∈ n.children := by
  rw [← L.children]
  exact List.reduceOption_mem_iff.2 h

theorem at?_cons : L.at? n (i :: q) = some m ↔
    ∃ c, (L.places n)[i]? = some (some c) ∧ L.at? c q = some m := by
  rw [at?, Option.bind_eq_some_iff]
  simp only [Option.join_eq_some_iff]

theorem reaches_nil : L.Reaches enter n [] m ↔ n.isThere = true ∧ m = n := by
  have hself : L.at? n [] = some m ↔ n.isThere = true ∧ m = n := by
    rw [at?]
    split
    · next h => simp [h, eq_comm]
    · next h => simp [h]
  rw [Reaches, hself, and_iff_left_iff_imp]
  intro _ q' m' hprefix hne
  exact absurd (List.prefix_nil.1 hprefix) hne

theorem reaches_cons : L.Reaches enter n (i :: q) m ↔
    enter n = true ∧ ∃ c, (L.places n)[i]? = some (some c) ∧ L.Reaches enter c q m := by
  constructor
  · rintro ⟨hat, hway⟩
    obtain ⟨c, hc, hat⟩ := at?_cons.1 hat
    have hthere : n.isThere = true :=
      Node.isThere_of_child (mem_children_of_mem_places (List.mem_of_getElem? hc))
    have hself : L.at? n [] = some n := by rw [at?, if_pos hthere]
    refine ⟨hway [] n List.nil_prefix (List.cons_ne_nil _ _).symm hself, c, hc, hat, ?_⟩
    intro q' m' hprefix hne hat'
    have hprefix' : i :: q' <+: i :: q := (List.prefix_cons_inj i).2 hprefix
    exact hway (i :: q') m' hprefix' (fun h => hne (List.cons.inj h).2) (at?_cons.2 ⟨c, hc, hat'⟩)
  · rintro ⟨henter, c, hc, hat, hway⟩
    refine ⟨at?_cons.2 ⟨c, hc, hat⟩, fun q' m' hprefix hne hat' => ?_⟩
    cases q' with
    | nil =>
      rw [at?] at hat'
      split at hat'
      · cases hat'; exact henter
      · cases hat'
    | cons j q' =>
      obtain ⟨rfl, hrest⟩ := List.cons_prefix_cons.1 hprefix
      obtain ⟨c', hc', hat'⟩ := at?_cons.1 hat'
      rw [hc] at hc'
      cases hc'
      exact hway q' m' hrest (fun h => hne (congrArg (j :: ·) h)) hat'

/-! ## Walks -/

/-- What is visited in these places, numbered from `k`. -/
structure VisitsAll (L : Layout) (enter : Node → Bool) (k : Nat) (places : List (Option Node))
    (ps : List (List Nat × Node)) : Prop where
  nodes : ps.map Prod.snd = places.reduceOption.flatMap (Node.visit enter)
  preorder : (ps.map Prod.fst).Pairwise (· < ·)
  reached : ∀ q n, (q, n) ∈ ps ↔ ∃ i r c, q = (k + i) :: r ∧ places[i]? = some (some c) ∧
    L.Reaches enter c r n

theorem visitsAll_nil (k : Nat) : VisitsAll L enter k [] [] :=
  ⟨rfl, .nil, by simp⟩

theorem VisitsAll.none {k : Nat} {places : List (Option Node)} {ps : List (List Nat × Node)}
    (h : VisitsAll L enter (k + 1) places ps) : VisitsAll L enter k (none :: places) ps where
  nodes := by rw [List.reduceOption_cons_of_none, h.nodes]
  preorder := h.preorder
  reached q n := by
    rw [h.reached]
    constructor
    · rintro ⟨i, r, c, rfl, hc, hr⟩
      exact ⟨i + 1, r, c, by congr 1; omega, hc, hr⟩
    · rintro ⟨i, r, c, rfl, hc, hr⟩
      cases i with
      | zero => cases hc
      | succ i => exact ⟨i, r, c, by congr 1; omega, hc, hr⟩

/-- The visits below a child, numbered by the place in which it stands. -/
def below (k : Nat) (ps : List (List Nat × Node)) : List (List Nat × Node) :=
  ps.map fun p => (k :: p.1, p.2)

theorem mem_below {k : Nat} {ps : List (List Nat × Node)} :
    (q, n) ∈ below k ps ↔ ∃ r, q = k :: r ∧ (r, n) ∈ ps := by
  rw [below, List.mem_map]
  constructor
  · rintro ⟨⟨r, n⟩, hp, h⟩
    cases h
    exact ⟨r, rfl, hp⟩
  · rintro ⟨r, rfl, hp⟩
    exact ⟨(r, n), hp, rfl⟩

theorem VisitsAll.some {k : Nat} {places : List (Option Node)} {ps ps' : List (List Nat × Node)}
    (hm : L.Visits enter m ps) (h : VisitsAll L enter (k + 1) places ps') :
    VisitsAll L enter k (some m :: places) (below k ps ++ ps') where
  nodes := by
    rw [List.reduceOption_cons_of_some, List.flatMap_cons, ← h.nodes, ← hm.nodes, List.map_append,
      below, List.map_map]
    rfl
  preorder := by
    rw [List.map_append, List.pairwise_append]
    refine ⟨?_, h.preorder, ?_⟩
    · have hkeys : (below k ps).map Prod.fst = (ps.map Prod.fst).map (k :: ·) := by
        rw [below, List.map_map, List.map_map]
        rfl
      rw [hkeys, List.pairwise_map]
      exact hm.preorder.imp fun h => List.cons_lt_cons_iff.2 (.inr ⟨rfl, h⟩)
    · -- What follows stands in a later place.
      intro q hq q' hq'
      obtain ⟨⟨q, n⟩, hp, rfl⟩ := List.mem_map.1 hq
      obtain ⟨⟨q', n'⟩, hp', rfl⟩ := List.mem_map.1 hq'
      obtain ⟨r, rfl, -⟩ := mem_below.1 hp
      obtain ⟨i, r', c, rfl, -, -⟩ := (h.reached _ _).1 hp'
      exact List.cons_lt_cons_iff.2 (.inl (by omega))
  reached q n := by
    rw [List.mem_append, mem_below, h.reached]
    constructor
    · rintro (⟨r, rfl, hr⟩ | ⟨i, r, c, rfl, hc, hr⟩)
      · exact ⟨0, r, m, rfl, rfl, (hm.reached r n).1 hr⟩
      · exact ⟨i + 1, r, c, by congr 1; omega, hc, hr⟩
    · rintro ⟨i, r, c, rfl, hc, hr⟩
      cases i with
      | zero =>
        cases hc
        exact .inl ⟨r, rfl, (hm.reached r n).2 hr⟩
      | succ i => exact .inr ⟨i, r, c, by congr 1; omega, hc, hr⟩

theorem exists_visitsAll {places : List (Option Node)}
    (h : ∀ m, some m ∈ places → ∃ ps, L.Visits enter m ps) (k : Nat) :
    ∃ ps, VisitsAll L enter k places ps := by
  induction places generalizing k with
  | nil => exact ⟨[], visitsAll_nil k⟩
  | cons place rest ih =>
    obtain ⟨ps', hrest⟩ := ih (fun m hm => h m (List.mem_cons_of_mem _ hm)) (k + 1)
    cases place with
    | none => exact ⟨ps', hrest.none⟩
    | some m =>
      obtain ⟨ps, hm⟩ := h m List.mem_cons_self
      exact ⟨below k ps ++ ps', .some hm hrest⟩

/-- A node that is entered: itself, and then what stands inside. -/
theorem Visits.entered {ps : List (List Nat × Node)} (hthere : n.isThere = true)
    (henter : enter n = true) (h : VisitsAll L enter 0 (L.places n) ps) :
    L.Visits enter n (([], n) :: ps) where
  nodes := by rw [List.map_cons, h.nodes, L.children, Node.visit_eq enter hthere, if_pos henter]
  preorder := by
    refine List.pairwise_cons.2 ⟨fun q hq => ?_, h.preorder⟩
    obtain ⟨⟨q, m⟩, hp, rfl⟩ := List.mem_map.1 hq
    obtain ⟨i, r, c, rfl, -, -⟩ := (h.reached _ _).1 hp
    exact List.nil_lt_cons _ _
  reached q m := by
    rw [List.mem_cons, h.reached]
    cases q with
    | nil => simp [reaches_nil, hthere]
    | cons i r => simp [reaches_cons, henter]

/-- A node that is not entered: itself and nothing else. -/
theorem Visits.refused (hthere : n.isThere = true) (henter : enter n = false) :
    L.Visits enter n [([], n)] where
  nodes := by rw [Node.visit_eq enter hthere, henter]; rfl
  preorder := List.pairwise_singleton _ _
  reached q m := by
    cases q with
    | nil => simp [reaches_nil, hthere]
    | cons i r => simp [reaches_cons, henter]

theorem Visits.missing (hmissing : n.isThere = false) : L.Visits enter n [] where
  nodes := (Node.visit_of_not_isThere enter hmissing).symm
  preorder := .nil
  reached q m := by
    refine ⟨fun h => (List.not_mem_nil h).elim, fun h => ?_⟩
    cases q with
    | nil => rw [(reaches_nil.1 h).1] at hmissing; cases hmissing
    | cons i r =>
      obtain ⟨-, c, hc, -⟩ := reaches_cons.1 h
      rw [Node.isThere_of_child (mem_children_of_mem_places (List.mem_of_getElem? hc))] at hmissing
      cases hmissing

/-- Whatever is pruned and wherever nothing stands, a walk visits the nodes in this way. -/
theorem exists_visits (L : Layout) (enter : Node → Bool) (n : Node) :
    ∃ ps, L.Visits enter n ps := by
  induction n using Node.induct with
  | h n ih =>
    cases hthere : n.isThere with
    | false => exact ⟨[], .missing hthere⟩
    | true =>
      cases henter : enter n with
      | false => exact ⟨_, .refused hthere henter⟩
      | true =>
        have hplaces : ∀ m, some m ∈ L.places n → ∃ ps, L.Visits enter m ps := fun m hm =>
          ih m (List.mem_filter.1 (mem_children_of_mem_places hm)).1
        obtain ⟨ps, h⟩ := exists_visitsAll hplaces 0
        exact ⟨_, .entered hthere henter h⟩

end Layout

end Sessions
