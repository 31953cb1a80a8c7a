import Sessions.Proofs.Document.Faithful
import Sessions.Proofs.Program.Inspection

/-!
# Sessions.Proofs.Document.Constants

The constants of a program without a literal. A `const` of a document may hold any expression, and
one that holds no constant is read without a fault all the same, as the empty constant. Exactly such
a `const` puts an empty constant into a program (`hollow_expr_iff`, `hollow_activity_iff`).
-/

namespace Sessions

/-- An empty constant stands in a node. -/
inductive Node.Hollow : Node → Prop where
  | here (l : Location) : Hollow (.expr (.constant l .null))
  | inside {n m : Node} (hm : m ∈ n.fields) (h : Hollow m) : Hollow n

theorem Node.hollow_iff {n : Node} :
    n.Hollow ↔ (∃ l, n = .expr (.constant l .null)) ∨ ∃ m ∈ n.fields, m.Hollow := by
  constructor
  · rintro (⟨l⟩ | ⟨hm, h⟩)
    · exact .inl ⟨l, rfl⟩
    · exact .inr ⟨_, hm, h⟩
  · rintro (⟨l, rfl⟩ | ⟨m, hm, h⟩)
    · exact .here l
    · exact .inside hm h

namespace Document

/-- The literal of the constant that a value writes, if it writes one. -/
inductive WritesConstant : Datum → Literal → Prop where
  | scalar {d : Datum} {v : Literal} (h : WritesLiteral d v) : WritesConstant d v
  | const {es : Entries} {v : Literal} (hkind : textOf es "kind" = "const")
      (h : WritesConstant (es.get "value") v) : WritesConstant (.map es) v

/-- Whether a field of a node, by its shape, holds what `P` says. -/
def Shape.Holds (s : Shape) (P : Position → Datum → Prop) (es : Entries) : Prop :=
  (∃ part ∈ s.parts, P part.1 (es.get part.2)) ∨
  (∃ part ∈ s.lists, ∃ d ∈ (es.get part.2).items, P part.1 d) ∨
  ∃ field ∈ s.elements, ∃ fs : Entries, .map fs ∈ (es.get field.1).items ∧
    ∃ part ∈ field.2, P part.1 (fs.get part.2)

/-- A `const` without a literal stands in a value, at a place that is read. -/
inductive Hollow : Position → Datum → Prop where
  | here {es : Entries} (hkind : textOf es "kind" = "const")
      (hnone : ∀ v, ¬ WritesConstant (es.get "value") v) : Hollow .expression (.map es)
  | listed {ds : List Datum} {d : Datum} (hd : d ∈ ds) (h : Hollow .activity d) :
      Hollow .activity (.list ds)
  | part {p : Position} {es : Entries} {s : Shape} {part : Position × String}
      (hshape : p.shape? (textOf es "kind") = some s) (hpart : part ∈ s.parts)
      (h : Hollow part.1 (es.get part.2)) : Hollow p (.map es)
  | item {p : Position} {es : Entries} {s : Shape} {part : Position × String} {d : Datum}
      (hshape : p.shape? (textOf es "kind") = some s) (hpart : part ∈ s.lists)
      (hd : d ∈ (es.get part.2).items) (h : Hollow part.1 d) : Hollow p (.map es)
  | element {p : Position} {es fs : Entries} {s : Shape} {field : String × List (Position × String)}
      {part : Position × String} (hshape : p.shape? (textOf es "kind") = some s)
      (hfield : field ∈ s.elements) (hfs : .map fs ∈ (es.get field.1).items)
      (hpart : part ∈ field.2) (h : Hollow part.1 (fs.get part.2)) : Hollow p (.map es)

theorem hollow_map_iff {p : Position} {es : Entries} :
    Hollow p (.map es) ↔
      (p = .expression ∧ textOf es "kind" = "const" ∧ ∀ v, ¬ WritesConstant (es.get "value") v) ∨
      ∃ s, p.shape? (textOf es "kind") = some s ∧ s.Holds Hollow es := by
  constructor
  · intro h
    cases h with
    | here hkind hnone => exact .inl ⟨rfl, hkind, hnone⟩
    | part hshape hpart h => exact .inr ⟨_, hshape, .inl ⟨_, hpart, h⟩⟩
    | item hshape hpart hd h => exact .inr ⟨_, hshape, .inr (.inl ⟨_, hpart, _, hd, h⟩)⟩
    | element hshape hfield hfs hpart h =>
      exact .inr ⟨_, hshape, .inr (.inr ⟨_, hfield, _, hfs, _, hpart, h⟩)⟩
  · rintro (⟨rfl, hkind, hnone⟩ | ⟨s, hshape, ⟨part, hpart, h⟩ | ⟨part, hpart, d, hd, h⟩ |
      ⟨field, hfield, fs, hfs, part, hpart, h⟩⟩)
    · exact .here hkind hnone
    · exact .part hshape hpart h
    · exact .item hshape hpart hd h
    · exact .element hshape hfield hfs hpart h

/-- The map of an activity is hollow where its shape holds something hollow. -/
theorem hollow_activity_map_iff {es : Entries} {kind : String} {s : Shape}
    (hkind : textOf es "kind" = kind) (hshape : activityShapes.lookup kind = some s) :
    Hollow .activity (.map es) ↔ s.Holds Hollow es := by
  simp [hollow_map_iff, Position.shape?, hkind, hshape]

theorem hollow_list_iff {ds : List Datum} :
    Hollow .activity (.list ds) ↔ ∃ d ∈ ds, Hollow .activity d := by
  constructor
  · rintro ⟨⟩
    exact ⟨_, ‹_›, ‹_›⟩
  · rintro ⟨d, hd, h⟩
    exact .listed hd h

/-! ## Constants -/

section Constants

variable {source : String} {d : Datum} {e : Expr} {v : Literal}

theorem WritesLiteral.ne_null (h : WritesLiteral d v) : v ≠ .null := by
  rintro rfl
  cases h

theorem WritesLiteral.unique {w : Literal} (h : WritesLiteral d v) (h' : WritesLiteral d w) :
    v = w :=
  Option.some.inj ((literal?_eq_some_iff.2 h).symm.trans (literal?_eq_some_iff.2 h'))

/-- What writes a constant stands for it, and the constant is not empty. -/
theorem WritesConstant.reads (h : WritesConstant d v) (he : ReadsExpr source d e) :
    v ≠ .null ∧ ∃ l, e = .constant l v := by
  induction h generalizing e with
  | scalar h =>
    refine ⟨h.ne_null, ?_⟩
    cases he with
    | scalar h' => exact ⟨_, by rw [h.unique h']⟩
    | _ => cases h
  | const hkind _ ih =>
    cases he with
    | scalar h => cases h
    | const _ hvalue =>
      obtain ⟨hne, l, hl⟩ := ih hvalue
      cases hl
      exact ⟨hne, _, rfl⟩
    | hollow _ hvalue hother =>
      obtain ⟨-, l, hl⟩ := ih hvalue
      exact absurd hl (hother l _)
    | var h _ | new h | binary h _ _ | incdec h _ | and h _ | or h _ | not h _ | compare h _ _
    | istype h _ | cast h _ | size h _ => exact absurd (hkind.symm.trans h) (by decide)

/-- A constant that is not empty is written. -/
theorem ReadsExpr.writesConstant (d : Datum) {l : Location}
    (h : ReadsExpr source d (.constant l v)) (hne : v ≠ .null) : WritesConstant d v := by
  match d with
  | .map es =>
    cases h with
    | scalar h => cases h
    | const hkind hvalue => exact .const hkind (ReadsExpr.writesConstant _ hvalue hne)
    | hollow => exact absurd rfl hne
  | .null | .bool _ | .int _ | .float _ | .text _ | .list _ =>
    cases h with
    | scalar h => exact .scalar h
termination_by sizeOf d
decreasing_by exact Entries.sizeOf_get_lt _ _

theorem hollow_constant_iff {l : Location} : (Node.expr (.constant l v)).Hollow ↔ v = .null := by
  rw [Node.hollow_iff]
  simp [Node.fields, Expr.fields]

theorem exists_mem_flatMap_iff {α β : Type} {xs : List α} {f : α → List β} {P : β → Prop} :
    (∃ y ∈ xs.flatMap f, P y) ↔ ∃ x ∈ xs, ∃ y ∈ f x, P y := by
  simp only [List.mem_flatMap]
  constructor
  · rintro ⟨y, ⟨x, hx, hy⟩, h⟩
    exact ⟨x, hx, y, hy, h⟩
  · rintro ⟨x, hx, y, hy, h⟩
    exact ⟨y, ⟨x, hx, hy⟩, h⟩

theorem exists_mem_append_iff {α : Type} {xs ys : List α} {P : α → Prop} :
    (∃ x ∈ xs ++ ys, P x) ↔ (∃ x ∈ xs, P x) ∨ ∃ x ∈ ys, P x := by
  simp only [List.mem_append, or_and_right, exists_or]

theorem exists_hollow_iff {α β : Type} {R : α → β → Prop} {xs : List α} {ys : List β}
    {P : α → Prop} {Q : β → Prop} (h : List.Forall₂ R xs ys)
    (himp : ∀ x ∈ xs, ∀ y, R x y → (P x ↔ Q y)) : (∃ x ∈ xs, P x) ↔ ∃ y ∈ ys, Q y := by
  induction h with
  | nil => simp
  | cons hfirst _ ih =>
    obtain ⟨hx, hxs⟩ := List.forall_mem_cons.1 himp
    rw [List.exists_mem_cons_iff, List.exists_mem_cons_iff, hx _ hfirst, ih hxs]

end Constants

/-! ## Expressions -/

/-- An empty constant stands in an expression exactly if a `const` without a literal stands in the
value that it was read from. -/
theorem hollow_expr_iff (source : String) (d : Datum) (e : Expr) (h : ReadsExpr source d e) :
    Hollow .expression d ↔ (Node.expr e).Hollow := by
  match d with
  | .null =>
    cases h with
    | null =>
      rw [Node.hollow_iff]
      refine ⟨fun h => ?_, fun h => ?_⟩
      · cases h
      · simp [Node.fields, Expr.fields] at h
    | scalar h => cases h
  | .bool _ | .int _ | .float _ | .text _ | .list _ =>
    cases h with
    | scalar h =>
      rw [hollow_constant_iff]
      refine ⟨fun h => ?_, fun hnull => absurd hnull h.ne_null⟩
      cases h
  | .map es =>
    have hpart : ∀ {key a}, ReadsExpr source (Entries.get es key) a →
        (Hollow .expression (Entries.get es key) ↔ (Node.expr a).Hollow) := fun {key a} =>
      hollow_expr_iff source (Entries.get es key) a
    have hlist : ∀ {key as}, List.Forall₂ (ReadsExpr source) (Entries.get es key).items as →
        ((∃ c ∈ (Entries.get es key).items, Hollow .expression c) ↔
          ∃ a ∈ as, (Node.expr a).Hollow) := fun {key as} has =>
      exists_hollow_iff has fun c hc a => hollow_expr_iff source c a
    cases h with
    | scalar h => cases h
    | const hkind hvalue =>
      rw [hollow_map_iff, hollow_constant_iff]
      constructor
      · rintro (⟨-, -, hnone⟩ | ⟨s, hshape, hholds⟩)
        · exact not_not.1 fun hne => hnone _ (ReadsExpr.writesConstant _ hvalue hne)
        · rw [hkind] at hshape
          obtain rfl := Option.some.inj hshape
          simpa [Shape.Holds, hpart hvalue, hollow_constant_iff] using hholds
      · rintro rfl
        refine .inl ⟨rfl, hkind, fun v hv => ?_⟩
        obtain ⟨hne, l, hl⟩ := hv.reads hvalue
        cases hl
        exact hne rfl
    | hollow hkind hvalue hother =>
      refine iff_of_true (.here hkind fun v hv => ?_) (.here _)
      obtain ⟨-, l, hl⟩ := hv.reads hvalue
      exact hother l v hl
    | var hkind _ | new hkind | incdec hkind _ | istype hkind _ | size hkind _ =>
      rw [hollow_map_iff, Node.hollow_iff]
      simp [hkind, Position.shape?, exprShapes, List.lookup_cons, Shape.Holds, Node.fields,
        Expr.fields]
    | binary hkind ha hb | compare hkind ha hb =>
      rw [hollow_map_iff, Node.hollow_iff]
      simp [hkind, Position.shape?, exprShapes, List.lookup_cons, Shape.Holds, Node.fields,
        Expr.fields, -List.mem_cons, -Prod.exists, List.exists_mem_cons_iff, hpart ha, hpart hb]
    | and hkind hcs | or hkind hcs =>
      rw [hollow_map_iff, Node.hollow_iff]
      simp [hkind, Position.shape?, exprShapes, List.lookup_cons, Shape.Holds, Node.fields,
        Expr.fields, hlist hcs]
    | not hkind ha | cast hkind ha =>
      rw [hollow_map_iff, Node.hollow_iff]
      simp [hkind, Position.shape?, exprShapes, List.lookup_cons, Shape.Holds, Node.fields,
        Expr.fields, hpart ha]
termination_by sizeOf d
decreasing_by
  · exact Entries.sizeOf_get_lt _ _
  · exact sizeOf_item_lt hc

/-! ## Activities -/

/-- What holds of some element of a list of maps, if every element is read. -/
theorem exists_element_iff {β : Type} {R : Datum → β → Prop} {ds : List Datum} {bs : List β}
    {P : Entries → Prop} {Q : β → Prop} (h : List.Forall₂ R ds bs)
    (himp : ∀ d ∈ ds, ∀ b, R d b → ∃ fs, d = .map fs ∧ (P fs ↔ Q b)) :
    (∃ fs, .map fs ∈ ds ∧ P fs) ↔ ∃ b ∈ bs, Q b := by
  have hmap : (∃ fs, .map fs ∈ ds ∧ P fs) ↔ ∃ d ∈ ds, ∃ fs, d = .map fs ∧ P fs := by
    constructor
    · rintro ⟨fs, hfs, hP⟩
      exact ⟨_, hfs, fs, rfl, hP⟩
    · rintro ⟨_, hd, fs, rfl, hP⟩
      exact ⟨fs, hd, hP⟩
  rw [hmap]
  refine exists_hollow_iff h fun d hd b hb => ?_
  obtain ⟨fs, rfl, hiff⟩ := himp d hd b hb
  rw [← hiff]
  constructor
  · rintro ⟨fs', hfs, hP⟩
    cases hfs
    exact hP
  · intro hP
    exact ⟨fs, rfl, hP⟩

/-- An empty constant stands in an activity exactly if a `const` without a literal stands in the
value that it was read from. -/
theorem hollow_activity_iff (source : String) (d : Datum) (p : Activity)
    (h : ReadsActivity source d p) : Hollow .activity d ↔ (Node.activity p).Hollow := by
  match d with
  | .bool _ | .int _ | .float _ | .text _ => cases h
  | .null =>
    cases h with
    | null =>
      rw [Node.hollow_iff]
      refine ⟨fun h => ?_, fun h => ?_⟩
      · cases h
      · simp [Node.fields, Activity.fields] at h
  | .list ds =>
    cases h with
    | list hps =>
      rw [hollow_list_iff, Node.hollow_iff,
        exists_hollow_iff hps fun c hc a => hollow_activity_iff source c a]
      simp [Node.fields, Activity.fields]
  | .map es =>
    have hexpr : ∀ {key e}, ReadsExpr source (Entries.get es key) e →
        (Hollow .expression (Entries.get es key) ↔ (Node.expr e).Hollow) := fun he =>
      hollow_expr_iff source _ _ he
    have hpart : ∀ {key q}, ReadsActivity source (Entries.get es key) q →
        (Hollow .activity (Entries.get es key) ↔ (Node.activity q).Hollow) := fun {key q} =>
      hollow_activity_iff source (Entries.get es key) q
    have hlist : ∀ {key ps}, List.Forall₂ (ReadsActivity source) (Entries.get es key).items ps →
        ((∃ c ∈ (Entries.get es key).items, Hollow .activity c) ↔
          ∃ q ∈ ps, (Node.activity q).Hollow) := fun {key ps} hps =>
      exists_hollow_iff hps fun c hc q => hollow_activity_iff source c q
    have helement : ∀ {key fs}, .map fs ∈ (Entries.get es key).items → ∀ {key' q},
        ReadsActivity source (Entries.get fs key') q →
          (Hollow .activity (Entries.get fs key') ↔ (Node.activity q).Hollow) :=
      fun {key fs} hfs {key' q} => hollow_activity_iff source (Entries.get fs key') q
    cases h with
    | seq hkind hps | par hkind hps =>
      rw [hollow_activity_map_iff hkind rfl, Node.hollow_iff]
      simp [Shape.Holds, Node.fields, Activity.fields, hlist hps]
    | choice hkind hbs =>
      have hbranches := exists_element_iff hbs
        (P := fun fs => Hollow .activity (fs.get "guard") ∨ Hollow .activity (fs.get "body"))
        (Q := fun b => (Node.activity b.guard).Hollow ∨ (Node.activity b.body).Hollow) (by
          rintro _ hd _ ⟨hguard, hbody⟩
          exact ⟨_, rfl, or_congr (helement hd hguard) (helement hd hbody)⟩)
      rw [hollow_activity_map_iff hkind rfl, Node.hollow_iff]
      simp [Shape.Holds, Node.fields, Activity.fields, -List.mem_cons, -List.mem_flatMap,
        -Prod.exists, List.exists_mem_cons_iff, exists_mem_flatMap_iff, hbranches]
    | cond hkind hp harms =>
      have hbranches := exists_element_iff harms
        (P := fun fs => Hollow .expression (fs.get "cond") ∨ Hollow .activity (fs.get "body"))
        (Q := fun a => (Node.expr a.cond).Hollow ∨ (Node.activity a.body).Hollow) (by
          rintro _ hd _ ⟨hc, hbody⟩
          exact ⟨_, rfl, or_congr (hollow_expr_iff source _ _ hc) (helement hd hbody)⟩)
      rw [hollow_activity_map_iff hkind rfl, Node.hollow_iff]
      -- The branches come first in the node, and the `else` does in the shape.
      rw [or_iff_right (by simp), Node.fields, Activity.fields, exists_mem_append_iff, or_comm]
      simp [Shape.Holds, -List.mem_cons, -List.mem_flatMap, -Prod.exists, List.exists_mem_cons_iff,
        exists_mem_flatMap_iff, hbranches, hpart hp]
    | install hkind hhs =>
      have hhandlers := exists_element_iff hhs
        (P := fun fs => Hollow .activity (fs.get "body"))
        (Q := fun h => (Node.activity h.body).Hollow) (by
          rintro _ hd _ ⟨hbody⟩
          exact ⟨_, rfl, helement hd hbody⟩)
      rw [hollow_activity_map_iff hkind rfl, Node.hollow_iff]
      simp [Shape.Holds, Node.fields, Activity.fields, hhandlers]
    | whileLoop hkind hc hp =>
      rw [hollow_activity_map_iff hkind rfl, Node.hollow_iff]
      simp [Shape.Holds, Node.fields, Activity.fields, -List.mem_cons, -Prod.exists, List.exists_mem_cons_iff, hexpr hc, hpart hp]
    | forLoop hkind hfirst hc hpost hbody =>
      rw [hollow_activity_map_iff hkind rfl, Node.hollow_iff]
      simp [Shape.Holds, Node.fields, Activity.fields, -List.mem_cons, -Prod.exists, List.exists_mem_cons_iff, hexpr hc,
        hpart hfirst, hpart hpost, hpart hbody]
    | reqres hkind _ houtput hp =>
      rw [hollow_activity_map_iff hkind rfl, Node.hollow_iff]
      simp [Shape.Holds, Node.fields, Activity.fields, -List.mem_cons, -Prod.exists, List.exists_mem_cons_iff, hexpr houtput,
        hpart hp]
    | forEach hkind _ _ hp | scope hkind hp | sync hkind hp | spawn hkind hp =>
      rw [hollow_activity_map_iff hkind rfl, Node.hollow_iff]
      simp [Shape.Holds, Node.fields, Activity.fields, hpart hp]
    | notify hkind he | solicit hkind he _ | assign hkind _ he | run hkind he =>
      rw [hollow_activity_map_iff hkind rfl, Node.hollow_iff]
      simp [Shape.Holds, Node.fields, Activity.fields, hexpr he]
    | call hkind | oneway hkind _ | incdec hkind _ | pointer hkind _ _ | deepcopy hkind _ _
    | undef hkind _ | nothing hkind | exit hkind | throw hkind | compensate hkind | linkIn hkind
    | linkOut hkind | currentHandler hkind =>
      rw [hollow_activity_map_iff hkind rfl, Node.hollow_iff]
      simp [Shape.Holds, Node.fields, Activity.fields]
termination_by sizeOf d
decreasing_by
  · exact sizeOf_listed_lt hc
  · exact Entries.sizeOf_get_lt _ _
  · exact sizeOf_item_lt hc
  · exact sizeOf_element_lt hfs

end Document

end Sessions
