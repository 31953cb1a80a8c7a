import Mathlib.Tactic.MkIffOfInductiveProp
import Sessions.Proofs.Document.Reading

/-!
# Sessions.Proofs.Document.Grammar

Which values write expressions and activities. Each kind of node has a shape: fields that need the
text of a path, fields that may have one, and fields with nodes of their own. A value is well-formed
if all of it has the shapes that it should have, and reading meets no fault in exactly these values
(`accepted_readExpr_iff`, `accepted_readActivity_iff`).
-/

namespace Sessions.Document

/-- Where a value stands. -/
inductive Position where
  | expression
  | activity
deriving DecidableEq, Repr

/-- What the map of a node has to have. -/
structure Shape where
  /-- Fields that need the text of a path. -/
  required : List String := []
  /-- Fields with the text of a path or none. -/
  optional : List String := []
  /-- Fields with a node. -/
  parts : List (Position × String) := []
  /-- Fields with a list of nodes. -/
  lists : List (Position × String) := []
  /-- Fields with a list of maps, with the fields of these that have a node. -/
  elements : List (String × List (Position × String)) := []
deriving DecidableEq, Repr

open Position in
/-- The shapes of expressions. -/
def exprShapes : List (String × Shape) :=
  [("const", { parts := [(expression, "value")] }),
   ("var", { required := ["path"] }),
   ("new", {}),
   ("binary", { parts := [(expression, "left"), (expression, "right")] }),
   ("incdec", { required := ["path"] }),
   ("and", { lists := [(expression, "children")] }),
   ("or", { lists := [(expression, "children")] }),
   ("not", { parts := [(expression, "expr")] }),
   ("compare", { parts := [(expression, "left"), (expression, "right")] }),
   ("istype", { required := ["path"] }),
   ("cast", { parts := [(expression, "expr")] }),
   ("size", { required := ["path"] })]

open Position in
/-- The shapes of activities. -/
def activityShapes : List (String × Shape) :=
  [("seq", { lists := [(activity, "children")] }),
   ("par", { lists := [(activity, "children")] }),
   ("choice", { elements := [("branches", [(activity, "guard"), (activity, "body")])] }),
   ("if", { parts := [(activity, "else")],
            elements := [("branches", [(expression, "cond"), (activity, "body")])] }),
   ("while", { parts := [(expression, "cond"), (activity, "body")] }),
   ("for", { parts := [(activity, "init"), (expression, "cond"), (activity, "post"),
      (activity, "body")] }),
   ("foreach", { optional := ["key", "target"], parts := [(activity, "body")] }),
   ("call", {}),
   ("oneway", { optional := ["input"] }),
   ("reqres", { optional := ["input"], parts := [(expression, "output"), (activity, "handler")] }),
   ("notify", { parts := [(expression, "output")] }),
   ("solicit", { optional := ["input"], parts := [(expression, "output")] }),
   ("assign", { required := ["target"], parts := [(expression, "value")] }),
   ("incdec", { required := ["path"] }),
   ("scope", { parts := [(activity, "body")] }),
   ("sync", { parts := [(activity, "body")] }),
   ("pointer", { required := ["left", "right"] }),
   ("deepcopy", { required := ["left", "right"] }),
   ("undef", { required := ["target"] }),
   ("install", { elements := [("handlers", [(activity, "body")])] }),
   ("spawn", { parts := [(activity, "body")] }),
   ("nil", {}),
   ("exit", {}),
   ("throw", {}),
   ("compensate", {}),
   ("linkin", {}),
   ("linkout", {}),
   ("run", { parts := [(expression, "code")] }),
   ("currentHandler", {})]

/-- The shape that a kind of node has at a position. -/
def Position.shape? : Position → String → Option Shape
  | expression, kind => exprShapes.lookup kind
  | activity, kind => activityShapes.lookup kind

theorem lookup_eq_none_of_names {shapes : List (String × Shape)} {kind : String}
    (h : ∀ name ∈ shapes.map Prod.fst, kind ≠ name) : shapes.lookup kind = none := by
  rw [List.lookup_eq_none_iff]
  intro entry hentry
  exact bne_iff_ne.2 (h entry.1 (List.mem_map_of_mem hentry))

/-- The literal that a scalar writes. Of a whole number the last 64 bits count. -/
inductive WritesLiteral : Datum → Literal → Prop where
  | bool (b : Bool) : WritesLiteral (.bool b) (.bool b)
  | int {n m : Int} (hlow : -Int.pow 2 63 ≤ m) (hhigh : m < Int.pow 2 63)
      (hbits : Int.pow 2 64 ∣ n - m) : WritesLiteral (.int n) (.int m)
  | float (x : Double) : WritesLiteral (.float x) (.float x)
  | text (s : String) : WritesLiteral (.text s) (.text s)

theorem wrap64_eq_iff {n m : Int} :
    wrap64 n = m ↔ -Int.pow 2 63 ≤ m ∧ m < Int.pow 2 63 ∧ Int.pow 2 64 ∣ n - m := by
  have hbits : Nat.pow 2 64 = 18446744073709551616 := rfl
  have hhigh : Int.pow 2 63 = 9223372036854775808 := rfl
  have hwrap : Int.pow 2 64 = 18446744073709551616 := rfl
  rw [wrap64, hbits, hhigh, hwrap, Int.bmod_def]
  omega

/-- The literal that the reader takes from a scalar is the one that it writes. -/
theorem literal?_eq_some_iff {d : Datum} {v : Literal} :
    literal? d = some v ↔ WritesLiteral d v := by
  constructor
  · intro h
    cases d with
    | int n =>
      obtain rfl := Option.some.inj h
      obtain ⟨hlow, hhigh, hbits⟩ := wrap64_eq_iff.1 (rfl : wrap64 n = wrap64 n)
      exact .int hlow hhigh hbits
    | null | list _ | map _ => cases h
    | _ =>
      obtain rfl := Option.some.inj h
      constructor
  · intro h
    cases h with
    | int hlow hhigh hbits =>
      rw [literal?, wrap64_eq_iff.2 ⟨hlow, hhigh, hbits⟩]
    | _ => rfl

/-- A value that can stand at a position. -/
inductive WellFormed : Position → Datum → Prop where
  | null (p : Position) : WellFormed p .null
  | scalar {d : Datum} {v : Literal} (h : WritesLiteral d v) : WellFormed .expression d
  | list {ds : List Datum} (h : ∀ d ∈ ds, WellFormed .activity d) : WellFormed .activity (.list ds)
  | map {p : Position} {es : Entries} (s : Shape) (hshape : p.shape? (textOf es "kind") = some s)
      (hrequired : ∀ key ∈ s.required, textOf es key ≠ "" ∧ Path.IsText (textOf es key))
      (hoptional : ∀ key ∈ s.optional, textOf es key = "" ∨ Path.IsText (textOf es key))
      (hparts : ∀ part ∈ s.parts, WellFormed part.1 (es.get part.2))
      (hlists : ∀ part ∈ s.lists, ∀ d ∈ (es.get part.2).items, WellFormed part.1 d)
      (hmaps : ∀ field ∈ s.elements, ∀ d ∈ (es.get field.1).items, ∃ fs, d = .map fs)
      (helements : ∀ field ∈ s.elements, ∀ fs : Entries, .map fs ∈ (es.get field.1).items →
        ∀ part ∈ field.2, WellFormed part.1 (fs.get part.2)) :
      WellFormed p (.map es)

/-- Whether entries have a shape, if `W` says which nodes are well-formed. -/
@[mk_iff]
structure Shape.Fits (s : Shape) (W : Position → Datum → Prop) (es : Entries) : Prop where
  required : ∀ key ∈ s.required, textOf es key ≠ "" ∧ Path.IsText (textOf es key)
  optional : ∀ key ∈ s.optional, textOf es key = "" ∨ Path.IsText (textOf es key)
  parts : ∀ part ∈ s.parts, W part.1 (es.get part.2)
  lists : ∀ part ∈ s.lists, ∀ d ∈ (es.get part.2).items, W part.1 d
  maps : ∀ field ∈ s.elements, ∀ d ∈ (es.get field.1).items, ∃ fs, d = .map fs
  elements : ∀ field ∈ s.elements, ∀ fs : Entries, .map fs ∈ (es.get field.1).items →
    ∀ part ∈ field.2, W part.1 (fs.get part.2)

theorem wellFormed_map_iff {p : Position} {es : Entries} :
    WellFormed p (.map es) ↔
      ∃ s, p.shape? (textOf es "kind") = some s ∧ s.Fits WellFormed es := by
  constructor
  · intro h
    cases h with
    | scalar h => cases h
    | map s hshape hrequired hoptional hparts hlists hmaps helements =>
      exact ⟨s, hshape, hrequired, hoptional, hparts, hlists, hmaps, helements⟩
  · rintro ⟨s, hshape, h⟩
    exact .map s hshape h.required h.optional h.parts h.lists h.maps h.elements

/-! ## Lists -/

/-- The maps in a list. -/
def mapsIn (ds : List Datum) : List Entries :=
  ds.filterMap Datum.entries?

theorem mem_mapsIn {ds : List Datum} {fs : Entries} : fs ∈ mapsIn ds ↔ .map fs ∈ ds := by
  rw [mapsIn, List.mem_filterMap]
  constructor
  · rintro ⟨d, hd, h⟩
    cases d with
    | map es =>
      obtain rfl := Option.some.inj h
      exact hd
    | _ => cases h
  · intro h
    exact ⟨_, h, rfl⟩

section Lists

variable {source : String} {es fs : Entries} {key key' : String} {d : Datum}

theorem sizeOf_listed_lt {ds : List Datum} (h : d ∈ ds) : sizeOf d < sizeOf (Datum.list ds) := by
  have hitem := List.sizeOf_lt_of_mem h
  simp only [Datum.list.sizeOf_spec]
  omega

theorem sizeOf_item_lt (h : d ∈ (es.get key).items) : sizeOf d < sizeOf (Datum.map es) := by
  have hitem := List.sizeOf_lt_of_mem h
  have hitems := Datum.sizeOf_items_le (es.get key)
  have hfield := es.sizeOf_get_lt key
  omega

theorem sizeOf_element_lt (h : .map fs ∈ (es.get key).items) :
    sizeOf (fs.get key') < sizeOf (Datum.map es) :=
  Nat.lt_trans (fs.sizeOf_get_lt key') (sizeOf_item_lt h)

theorem readExprs_eq (source : String) (ds : List Datum) :
    readExprs source ds = ds.mapM (readExpr source) := by
  induction ds with
  | nil => rw [readExprs, List.mapM_nil]
  | cons d rest ih => rw [readExprs, List.mapM_cons, ih]

theorem readActivities_eq (source : String) (ds : List Datum) :
    readActivities source ds = ds.mapM (readActivity source) := by
  induction ds with
  | nil => rw [readActivities, List.mapM_nil]
  | cons d rest ih => rw [readActivities, List.mapM_cons, ih]

def readBranch (source : String) (es : Entries) : Reading Branch := do
  let guard ← readActivity source (es.get "guard")
  let body ← readActivity source (es.get "body")
  return ⟨guard, body⟩

def readArm (source : String) (es : Entries) : Reading Arm := do
  let c ← readExpr source (es.get "cond")
  let body ← readActivity source (es.get "body")
  return ⟨c, body⟩

def readHandler (source : String) (es : Entries) : Reading Handler := do
  let body ← readActivity source (es.get "body")
  return ⟨textOf es "fault", body⟩

/-- Reading the maps of a list and passing over all else. -/
theorem eq_mapM_mapsIn {β : Type} {read : List Datum → Reading (List β)} {f : Entries → Reading β}
    (hnil : read [] = pure [])
    (hmap : ∀ es rest, read (.map es :: rest) = do
      let b ← f es
      let bs ← read rest
      return b :: bs)
    (hother : ∀ d rest, d.entries? = none → read (d :: rest) = read rest) (ds : List Datum) :
    read ds = (mapsIn ds).mapM f := by
  induction ds with
  | nil => rw [hnil, mapsIn, List.filterMap_nil, List.mapM_nil]
  | cons d rest ih =>
    cases hd : d.entries? with
    | none => rw [hother d rest hd, ih, mapsIn, mapsIn, List.filterMap_cons_none hd]
    | some es =>
      cases d with
      | map fs =>
        obtain rfl := Option.some.inj hd
        rw [hmap, ih, mapsIn, mapsIn, List.filterMap_cons_some hd, List.mapM_cons]
      | _ => cases hd

theorem accepted_mapsIn_iff {β : Type} {f : Entries → Reading β} [∀ fs, Sticky (f fs)]
    {P : Entries → Prop} {ds : List Datum} (h : ∀ fs, .map fs ∈ ds → (Accepted (f fs) ↔ P fs)) :
    Accepted ((mapsIn ds).mapM f) ↔ ∀ fs, .map fs ∈ ds → P fs := by
  rw [accepted_mapM_iff]
  refine forall_congr' fun fs => ?_
  rw [mem_mapsIn]
  exact imp_congr_right (h fs)

theorem readBranches_eq (source : String) (ds : List Datum) :
    readBranches source ds = (mapsIn ds).mapM (readBranch source) := by
  refine eq_mapM_mapsIn ?_ (fun es rest => ?_) (fun d rest hd => ?_) ds
  · rw [readBranches]
  · simp [readBranches, readBranch]
  · cases d <;> simp [readBranches, Datum.entries?] at hd ⊢

theorem readArms_eq (source : String) (ds : List Datum) :
    readArms source ds = (mapsIn ds).mapM (readArm source) := by
  refine eq_mapM_mapsIn ?_ (fun es rest => ?_) (fun d rest hd => ?_) ds
  · rw [readArms]
  · simp [readArms, readArm]
  · cases d <;> simp [readArms, Datum.entries?] at hd ⊢

theorem readHandlers_eq (source : String) (ds : List Datum) :
    readHandlers source ds = (mapsIn ds).mapM (readHandler source) := by
  refine eq_mapM_mapsIn ?_ (fun es rest => ?_) (fun d rest hd => ?_) ds
  · rw [readHandlers]
  · simp [readHandlers, readHandler]
  · cases d <;> simp [readHandlers, Datum.entries?] at hd ⊢

end Lists

/-! ## Expressions -/

section Expressions

instance sticky_readExpr (source : String) (d : Datum) : Sticky (readExpr source d) := by
  match d with
  | .null =>
    unfold readExpr
    infer_instance
  | .bool _ | .int _ | .float _ | .text _ | .list _ =>
    unfold readExpr
    dsimp only [literal?]
    infer_instance
  | .map es =>
    have hpart : ∀ key, Sticky (readExpr source (Entries.get es key)) := fun key =>
      sticky_readExpr source (Entries.get es key)
    have hlist : ∀ key, Sticky (readExprs source (Entries.get es key).items) := by
      intro key
      rw [readExprs_eq]
      exact sticky_mapM fun d hd => sticky_readExpr source d
    unfold readExpr
    dsimp only
    split <;> infer_instance
termination_by sizeOf d
decreasing_by
  · exact Entries.sizeOf_get_lt _ _
  · exact sizeOf_item_lt hd

/-- Expressions are read without a fault exactly from well-formed values. -/
theorem accepted_readExpr_iff (source : String) (d : Datum) :
    Accepted (readExpr source d) ↔ WellFormed .expression d := by
  match d with
  | .null =>
    unfold readExpr
    exact ⟨fun _ => .null _, fun _ => accepted_pure _⟩
  | .bool _ | .int _ | .float _ | .text _ =>
    unfold readExpr
    exact ⟨fun _ => .scalar (literal?_eq_some_iff.1 rfl), fun _ => accepted_pure _⟩
  | .list ds =>
    unfold readExpr
    refine ⟨fun h => ?_, fun h => ?_⟩
    · simp [literal?] at h
    · cases h with
      | scalar h => cases h
  | .map es =>
    have hpart : ∀ key, Accepted (readExpr source (Entries.get es key)) ↔
        WellFormed .expression (Entries.get es key) := fun key =>
      accepted_readExpr_iff source (Entries.get es key)
    have hlist : ∀ key, Accepted (readExprs source (Entries.get es key).items) ↔
        ∀ d ∈ (Entries.get es key).items, WellFormed .expression d := by
      intro key
      rw [readExprs_eq, accepted_mapM_iff]
      exact forall₂_congr fun d hd => accepted_readExpr_iff source d
    rw [wellFormed_map_iff]
    unfold readExpr
    dsimp only
    split
    case h_13 =>
      have hnone : exprShapes.lookup (textOf es "kind") = none := by
        apply lookup_eq_none_of_names
        simp only [exprShapes, List.map_cons, List.map_nil, List.forall_mem_cons, List.not_mem_nil,
          false_implies, implies_true, and_true]
        and_intros <;> assumption
      simp [Position.shape?, hnone]
    all_goals
      rename_i hkind
      simp [hkind, Position.shape?, exprShapes, List.lookup_cons, Shape.fits_iff,
        List.forall_mem_cons, -List.mem_cons, -Prod.forall, hpart, hlist]
termination_by sizeOf d
decreasing_by
  · exact Entries.sizeOf_get_lt _ _
  · exact sizeOf_item_lt hd

end Expressions

/-! ## Activities -/

section Activities

instance sticky_readActivity (source : String) (d : Datum) : Sticky (readActivity source d) := by
  match d with
  | .null | .bool _ | .int _ | .float _ | .text _ =>
    unfold readActivity
    infer_instance
  | .list ds =>
    have hlist : Sticky (readActivities source ds) := by
      rw [readActivities_eq]
      exact sticky_mapM fun d hd => sticky_readActivity source d
    unfold readActivity
    infer_instance
  | .map es =>
    have hpart : ∀ key, Sticky (readActivity source (Entries.get es key)) := fun key =>
      sticky_readActivity source (Entries.get es key)
    have hlist : ∀ key, Sticky (readActivities source (Entries.get es key).items) := by
      intro key
      rw [readActivities_eq]
      exact sticky_mapM fun d hd => sticky_readActivity source d
    have helement : ∀ key, ∀ fs ∈ mapsIn (Entries.get es key).items, ∀ key',
        Sticky (readActivity source (Entries.get fs key')) := fun key fs hfs key' =>
      sticky_readActivity source (Entries.get fs key')
    have hbranches : ∀ key, Sticky (readBranches source (Entries.get es key).items) := by
      intro key
      rw [readBranches_eq]
      refine sticky_mapM fun fs hfs => ?_
      have := helement key fs hfs
      unfold readBranch
      infer_instance
    have harms : ∀ key, Sticky (readArms source (Entries.get es key).items) := by
      intro key
      rw [readArms_eq]
      refine sticky_mapM fun fs hfs => ?_
      have := helement key fs hfs
      unfold readArm
      infer_instance
    have hhandlers : ∀ key, Sticky (readHandlers source (Entries.get es key).items) := by
      intro key
      rw [readHandlers_eq]
      refine sticky_mapM fun fs hfs => ?_
      have := helement key fs hfs
      unfold readHandler
      infer_instance
    unfold readActivity
    dsimp only
    split <;> infer_instance
termination_by sizeOf d
decreasing_by
  · exact sizeOf_listed_lt hd
  · exact Entries.sizeOf_get_lt _ _
  · exact sizeOf_item_lt hd
  · exact sizeOf_element_lt (mem_mapsIn.1 hfs)

instance sticky_readBranch (source : String) (es : Entries) : Sticky (readBranch source es) := by
  unfold readBranch
  infer_instance

instance sticky_readArm (source : String) (es : Entries) : Sticky (readArm source es) := by
  unfold readArm
  infer_instance

instance sticky_readHandler (source : String) (es : Entries) : Sticky (readHandler source es) := by
  unfold readHandler
  infer_instance

instance sticky_readBranches (source : String) (ds : List Datum) :
    Sticky (readBranches source ds) := by
  rw [readBranches_eq]
  exact sticky_mapM fun fs _ => inferInstance

instance sticky_readArms (source : String) (ds : List Datum) : Sticky (readArms source ds) := by
  rw [readArms_eq]
  exact sticky_mapM fun fs _ => inferInstance

instance sticky_readHandlers (source : String) (ds : List Datum) :
    Sticky (readHandlers source ds) := by
  rw [readHandlers_eq]
  exact sticky_mapM fun fs _ => inferInstance

/-- Activities are read without a fault exactly from well-formed values. -/
theorem accepted_readActivity_iff (source : String) (d : Datum) :
    Accepted (readActivity source d) ↔ WellFormed .activity d := by
  match d with
  | .null =>
    unfold readActivity
    exact ⟨fun _ => .null _, fun _ => accepted_pure _⟩
  | .bool _ | .int _ | .float _ | .text _ =>
    unfold readActivity
    refine ⟨fun h => ?_, fun h => ?_⟩
    · simp at h
    · cases h
  | .list ds =>
    unfold readActivity
    simp only [bind_pure_comp, accepted_map_iff, readActivities_eq, accepted_mapM_iff]
    refine ⟨fun h => .list fun d hd => ?_, fun h d hd => ?_⟩
    · exact (accepted_readActivity_iff source d).1 (h d hd)
    · cases h with
      | list h => exact (accepted_readActivity_iff source d).2 (h d hd)
  | .map es =>
    have hexpr : ∀ d, Accepted (readExpr source d) ↔ WellFormed .expression d :=
      accepted_readExpr_iff source
    have hpart : ∀ key, Accepted (readActivity source (Entries.get es key)) ↔
        WellFormed .activity (Entries.get es key) := fun key =>
      accepted_readActivity_iff source (Entries.get es key)
    have hlist : ∀ key, Accepted (readActivities source (Entries.get es key).items) ↔
        ∀ d ∈ (Entries.get es key).items, WellFormed .activity d := by
      intro key
      rw [readActivities_eq, accepted_mapM_iff]
      exact forall₂_congr fun d hd => accepted_readActivity_iff source d
    have helement : ∀ key fs, .map fs ∈ (Entries.get es key).items → ∀ key',
        Accepted (readActivity source (Entries.get fs key')) ↔
          WellFormed .activity (Entries.get fs key') := fun key fs hfs key' =>
      accepted_readActivity_iff source (Entries.get fs key')
    have hbranches : ∀ key, Accepted (readBranches source (Entries.get es key).items) ↔
        ∀ fs, .map fs ∈ (Entries.get es key).items →
          WellFormed .activity (Entries.get fs "guard") ∧
            WellFormed .activity (Entries.get fs "body") := by
      intro key
      rw [readBranches_eq]
      refine accepted_mapsIn_iff fun fs hfs => ?_
      simp [readBranch, helement key fs hfs]
    have harms : ∀ key, Accepted (readArms source (Entries.get es key).items) ↔
        ∀ fs, .map fs ∈ (Entries.get es key).items →
          WellFormed .expression (Entries.get fs "cond") ∧
            WellFormed .activity (Entries.get fs "body") := by
      intro key
      rw [readArms_eq]
      refine accepted_mapsIn_iff fun fs hfs => ?_
      simp [readArm, hexpr, helement key fs hfs]
    have hhandlers : ∀ key, Accepted (readHandlers source (Entries.get es key).items) ↔
        ∀ fs, .map fs ∈ (Entries.get es key).items →
          WellFormed .activity (Entries.get fs "body") := by
      intro key
      rw [readHandlers_eq]
      refine accepted_mapsIn_iff fun fs hfs => ?_
      simp [readHandler, helement key fs hfs]
    rw [wellFormed_map_iff]
    unfold readActivity
    dsimp only
    split
    case h_30 =>
      have hnone : activityShapes.lookup (textOf es "kind") = none := by
        apply lookup_eq_none_of_names
        simp only [activityShapes, List.map_cons, List.map_nil, List.forall_mem_cons,
          List.not_mem_nil, false_implies, implies_true, and_true]
        and_intros <;> assumption
      simp [Position.shape?, hnone]
    case h_12 =>
      -- Of this kind alone a part is read before a path.
      rename_i hkind
      have hshape : Position.activity.shape? (textOf es "kind") =
          some { optional := ["input"], parts := [(.expression, "output")] } := by
        rw [hkind]
        rfl
      simp [hshape, Shape.fits_iff, hexpr]
      exact and_comm
    all_goals
      rename_i hkind
      simp [hkind, Position.shape?, activityShapes, List.lookup_cons, Shape.fits_iff,
        List.forall_mem_cons, -List.mem_cons, -Prod.forall, hexpr, hpart, hlist, hbranches,
        harms, hhandlers, and_assoc]
termination_by sizeOf d
decreasing_by
  · exact sizeOf_listed_lt hd
  · exact sizeOf_listed_lt hd
  · exact Entries.sizeOf_get_lt _ _
  · exact sizeOf_item_lt hd
  · exact sizeOf_element_lt hfs

end Activities

end Sessions.Document
