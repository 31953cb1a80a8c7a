import Mathlib.Data.List.Forall2
import Sessions.Document.Basic

/-!
# Sessions.Proofs.Document.Reading

Readings that meet no fault. A reading goes on after a fault, with a stand-in for what it could not
read, and remembers the first one. So it yields a value without a fault exactly if each of its parts
does (`yields_bind_iff`), as long as no part forgets a fault (`Sticky`).

Whether a text is that of a path does not depend on where it stands (`Path.parse_succeeds_iff`).
-/

namespace Sessions

/-! ## Results without an error -/

/-- There is a result. -/
def Succeeds {ε α : Type} (x : Except ε α) : Prop :=
  ∃ a, x = .ok a

section Succeeds

variable {ε α β : Type}

@[simp] theorem succeeds_ok (a : α) : Succeeds (.ok a : Except ε α) :=
  ⟨a, rfl⟩

@[simp] theorem not_succeeds_error (e : ε) : ¬ Succeeds (.error e : Except ε α) := by
  rintro ⟨a, h⟩
  cases h

theorem bind_eq_ok_iff {x : Except ε α} {f : α → Except ε β} {b : β} :
    x >>= f = .ok b ↔ ∃ a, x = .ok a ∧ f a = .ok b := by
  cases x with
  | error e => simp [bind, Except.bind]
  | ok a => simp [bind, Except.bind]

theorem succeeds_bind_iff {x : Except ε α} {f : α → Except ε β} :
    Succeeds (x >>= f) ↔ ∃ a, x = .ok a ∧ Succeeds (f a) := by
  unfold Succeeds
  simp only [bind_eq_ok_iff]
  constructor
  · rintro ⟨b, a, ha, hb⟩
    exact ⟨a, ha, b, hb⟩
  · rintro ⟨a, ha, b, hb⟩
    exact ⟨b, a, ha, hb⟩

theorem mapM_eq_ok_iff {f : α → Except ε β} {xs : List α} {ys : List β} :
    xs.mapM f = .ok ys ↔ List.Forall₂ (fun x y => f x = .ok y) xs ys := by
  induction xs generalizing ys with
  | nil => simp [pure, Except.pure, eq_comm]
  | cons x xs ih =>
    rw [List.mapM_cons, bind_eq_ok_iff, List.forall₂_cons_left_iff]
    simp only [bind_eq_ok_iff, ih]
    constructor
    · rintro ⟨y, hy, zs, hzs, h⟩
      cases h
      exact ⟨y, zs, hy, hzs, rfl⟩
    · rintro ⟨y, zs, hy, hzs, rfl⟩
      exact ⟨y, hy, zs, hzs, rfl⟩

theorem exists_forall₂_iff {R : α → β → Prop} {xs : List α} :
    (∃ ys, List.Forall₂ R xs ys) ↔ ∀ x ∈ xs, ∃ y, R x y := by
  induction xs with
  | nil => simp
  | cons x xs ih =>
    simp only [List.forall₂_cons_left_iff, List.forall_mem_cons, ← ih]
    constructor
    · rintro ⟨_, y, zs, hy, hzs, rfl⟩
      exact ⟨⟨y, hy⟩, zs, hzs⟩
    · rintro ⟨⟨y, hy⟩, zs, hzs⟩
      exact ⟨_, y, zs, hy, hzs, rfl⟩

theorem succeeds_mapM_iff {f : α → Except ε β} {xs : List α} :
    Succeeds (xs.mapM f) ↔ ∀ x ∈ xs, Succeeds (f x) := by
  unfold Succeeds
  simp only [mapM_eq_ok_iff, exists_forall₂_iff]

end Succeeds

/-! ## Texts of paths -/

namespace Path

variable {inner inner' : List Char → Except Error Path}

theorem succeeds_index_iff (h : ∀ text, Succeeds (inner text) ↔ Succeeds (inner' text))
    (loc loc' : Location) (text : List Char) :
    Succeeds (index inner loc text) ↔ Succeeds (index inner' loc' text) := by
  have hinner := h text
  unfold index
  split
  · simp
  · cases integer? text with
    | some n => simp
    | none => cases hp : inner text <;> cases hp' : inner' text <;> simp [hp, hp'] at hinner ⊢

theorem succeeds_step_iff (h : ∀ text, Succeeds (inner text) ↔ Succeeds (inner' text))
    (loc loc' : Location) (segment : List Char) :
    Succeeds (step inner loc segment) ↔ Succeeds (step inner' loc' segment) := by
  unfold step
  rw [succeeds_bind_iff, succeeds_bind_iff]
  refine exists_congr fun ⟨name, indexText⟩ => and_congr_right fun _ => ?_
  dsimp only
  split
  · simp
  · rw [succeeds_bind_iff, succeeds_bind_iff]
    have hindex := succeeds_index_iff h loc loc' indexText
    unfold Succeeds at hindex
    simpa [pure, Except.pure] using hindex

/-- Whether a text is that of a path does not depend on where it stands. -/
theorem parseNested_succeeds_iff (depth : Nat) (loc loc' : Location) (text : List Char) :
    Succeeds (parseNested depth loc text) ↔ Succeeds (parseNested depth loc' text) := by
  -- An index in the text is a path itself, with one level of nesting less.
  induction depth generalizing text with
  | zero => simp [parseNested]
  | succ depth ih =>
    have hsteps : Succeeds (parseSteps (parseNested depth loc) loc text) ↔
        Succeeds (parseSteps (parseNested depth loc') loc' text) := by
      rw [parseSteps, parseSteps, succeeds_bind_iff, succeeds_bind_iff]
      refine exists_congr fun parts => and_congr_right fun _ => ?_
      rw [succeeds_mapM_iff, succeeds_mapM_iff]
      exact forall₂_congr fun segment _ => succeeds_step_iff ih loc loc' segment
    rw [parseNested, parseNested]
    split
    · simp
    · cases hp : parseSteps (parseNested depth loc) loc text <;>
        cases hp' : parseSteps (parseNested depth loc') loc' text <;>
          simp [hp, hp'] at hsteps ⊢

/-- Whether a text is that of a path. -/
def IsText (text : String) : Prop :=
  Succeeds (parse {} text)

theorem parse_succeeds_iff (loc : Location) (text : String) :
    (∃ p, parse loc text = .ok p) ↔ IsText text :=
  parseNested_succeeds_iff (text.length + 1) loc {} text.toList

end Path

namespace Document

/-! ## Readings without a fault -/

/-- A reading that forgets no fault. -/
class Sticky {α : Type} (m : Reading α) : Prop where
  keeps : ∀ e, (m.run (some e)).2 = some e

/-- The reading meets no fault, and this is what it yields. -/
def Yields {α : Type} (m : Reading α) (a : α) : Prop :=
  m.run none = (a, none)

section Reading

variable {α β : Type} {source : String} {es : Entries}

instance sticky_pure (a : α) : Sticky (pure a : Reading α) :=
  ⟨fun _ => rfl⟩

instance sticky_bind (m : Reading α) (f : α → Reading β) [hm : Sticky m]
    [hf : ∀ a, Sticky (f a)] : Sticky (m >>= f) := by
  refine ⟨fun e => ?_⟩
  show ((f (m.run (some e)).1).run (m.run (some e)).2).2 = some e
  rw [hm.keeps e]
  exact (hf _).keeps e

instance sticky_map (m : Reading α) (f : α → β) [hm : Sticky m] : Sticky (f <$> m) :=
  ⟨hm.keeps⟩

instance sticky_fail (line : Int) (fault : Fault) : Sticky (fail source line fault) :=
  ⟨fun _ => rfl⟩

@[simp] theorem yields_pure_iff {a b : α} : Yields (pure a) b ↔ a = b := by
  show (a, none) = (b, none) ↔ _
  simp

/-- A reading meets no fault exactly if no part of it does. -/
@[simp] theorem yields_bind_iff {m : Reading α} {f : α → Reading β} [hf : ∀ a, Sticky (f a)]
    {b : β} :
    Yields (m >>= f) b ↔ ∃ a, Yields m a ∧ Yields (f a) b := by
  show (f (m.run none).1).run (m.run none).2 = (b, none) ↔ _
  unfold Yields
  rcases m.run none with ⟨a, _ | e⟩
  · constructor
    · intro h
      exact ⟨a, rfl, h⟩
    · rintro ⟨a', ha, h⟩
      cases ha
      exact h
  · -- Whatever comes after the fault does not forget it, so both sides are false.
    have hkeeps := (hf a).keeps e
    constructor
    · intro h
      rw [h] at hkeeps
      cases hkeeps
    · rintro ⟨a', h, -⟩
      cases h

@[simp] theorem yields_map_iff {m : Reading α} {f : α → β} {b : β} :
    Yields (f <$> m) b ↔ ∃ a, Yields m a ∧ f a = b := by
  rw [← bind_pure_comp, yields_bind_iff]
  simp

@[simp] theorem not_yields_fail (line : Int) (fault : Fault) (u : Unit) :
    ¬ Yields (fail source line fault) u := by
  intro h
  cases h

theorem sticky_mapM {f : α → Reading β} {xs : List α} (h : ∀ x ∈ xs, Sticky (f x)) :
    Sticky (xs.mapM f) := by
  induction xs with
  | nil =>
    rw [List.mapM_nil]
    infer_instance
  | cons x xs ih =>
    obtain ⟨hfirst, hrest⟩ := List.forall_mem_cons.1 h
    have := ih hrest
    rw [List.mapM_cons]
    infer_instance

theorem yields_mapM_iff {f : α → Reading β} [∀ x, Sticky (f x)] {xs : List α} {ys : List β} :
    Yields (xs.mapM f) ys ↔ List.Forall₂ (fun x y => Yields (f x) y) xs ys := by
  induction xs generalizing ys with
  | nil =>
    rw [List.mapM_nil, yields_pure_iff, List.forall₂_nil_left_iff, eq_comm]
  | cons x xs ih =>
    have hrest : Sticky (xs.mapM f) := sticky_mapM fun x _ => inferInstance
    rw [List.mapM_cons, List.forall₂_cons_left_iff]
    simp only [yields_bind_iff, yields_pure_iff, ih]
    constructor
    · rintro ⟨y, hy, zs, hzs, rfl⟩
      exact ⟨y, zs, hy, hzs, rfl⟩
    · rintro ⟨y, zs, hy, hzs, rfl⟩
      exact ⟨y, hy, zs, hzs, rfl⟩

/-! ## Fields -/

/-- The path that a field writes. -/
def Writes (source : String) (es : Entries) (key : String) (p : Path) : Prop :=
  textOf es key ≠ "" ∧ Path.parse (locOf source es) (textOf es key) = .ok p

/-- The path that a field writes, if it does not stay empty. -/
def MayWrite (source : String) (es : Entries) (key : String) : Option Path → Prop
  | none => textOf es key = ""
  | some p => Writes source es key p

instance sticky_pathOf (key : String) : Sticky (pathOf source es key) := by
  unfold pathOf
  dsimp only
  split
  · infer_instance
  · split <;> infer_instance

@[simp] theorem yields_pathOf_iff {key : String} {p : Option Path} :
    Yields (pathOf source es key) p ↔ MayWrite source es key p := by
  unfold pathOf
  dsimp only
  split
  · rename_i hempty
    cases p <;> simp [MayWrite, Writes, hempty]
  · rename_i htext
    cases hparse : Path.parse (locOf source es) (textOf es key) with
    | ok q => cases p <;> simp [MayWrite, Writes, htext, hparse]
    | error e => cases p <;> simp [MayWrite, Writes, htext, hparse]

/-- What is made of the path of a field that needs one. -/
def insist (source : String) (es : Entries) (key : String) : Option Path → Reading Path
  | some p => return p
  | none => do
    fail source (lineOf es) (.noPath (textOf es "kind") (textOf es "name") key)
    return standIn

theorem requiredPath_eq (key : String) :
    requiredPath source es key = pathOf source es key >>= insist source es key := by
  unfold requiredPath
  congr 1

instance sticky_insist (key : String) (p : Option Path) : Sticky (insist source es key p) := by
  cases p <;> unfold insist <;> infer_instance

instance sticky_requiredPath (key : String) : Sticky (requiredPath source es key) := by
  rw [requiredPath_eq]
  infer_instance

@[simp] theorem yields_requiredPath_iff {key : String} {p : Path} :
    Yields (requiredPath source es key) p ↔ Writes source es key p := by
  rw [requiredPath_eq, yields_bind_iff]
  constructor
  · rintro ⟨q, hq, hp⟩
    cases q with
    | none => simp [insist] at hp
    | some q =>
      obtain rfl := yields_pure_iff.1 hp
      exact yields_pathOf_iff.1 hq
  · intro h
    exact ⟨some p, yields_pathOf_iff.2 h, yields_pure_iff.2 rfl⟩

instance sticky_requireMaps (line : Int) (key : String) (ds : List Datum) :
    Sticky (requireMaps source line key ds) := by
  induction ds with
  | nil =>
    unfold requireMaps
    infer_instance
  | cons d rest ih =>
    cases d <;> unfold requireMaps <;> infer_instance

@[simp] theorem yields_requireMaps_iff {line : Int} {key : String} {ds : List Datum} {u : Unit} :
    Yields (requireMaps source line key ds) u ↔ ∀ d ∈ ds, ∃ fs, d = .map fs := by
  induction ds with
  | nil => simp [requireMaps]
  | cons d rest ih => cases d <;> simp [requireMaps, ih]

/-! ## Readings that some value comes of -/

/-- The reading meets no fault. -/
def Accepted {α : Type} (m : Reading α) : Prop :=
  ∃ a, Yields m a

@[simp] theorem exists_yields_iff {m : Reading α} : (∃ a, Yields m a) ↔ Accepted m := Iff.rfl

@[simp] theorem accepted_pure (a : α) : Accepted (pure a : Reading α) :=
  ⟨a, yields_pure_iff.2 rfl⟩

@[simp] theorem not_accepted_fail (line : Int) (fault : Fault) :
    ¬ Accepted (fail source line fault) :=
  fun ⟨u, h⟩ => not_yields_fail line fault u h

@[simp] theorem accepted_bind_iff {m : Reading α} {f : α → Reading β} [∀ a, Sticky (f a)] :
    Accepted (m >>= f) ↔ ∃ a, Yields m a ∧ Accepted (f a) := by
  unfold Accepted
  simp only [yields_bind_iff]
  constructor
  · rintro ⟨b, a, ha, hb⟩
    exact ⟨a, ha, b, hb⟩
  · rintro ⟨a, ha, b, hb⟩
    exact ⟨b, a, ha, hb⟩

@[simp] theorem accepted_map_iff {m : Reading α} {f : α → β} : Accepted (f <$> m) ↔ Accepted m := by
  unfold Accepted
  simp only [yields_map_iff]
  constructor
  · rintro ⟨b, a, ha, -⟩
    exact ⟨a, ha⟩
  · rintro ⟨a, ha⟩
    exact ⟨f a, a, ha, rfl⟩

theorem accepted_mapM_iff {f : α → Reading β} [∀ x, Sticky (f x)] {xs : List α} :
    Accepted (xs.mapM f) ↔ ∀ x ∈ xs, Accepted (f x) := by
  unfold Accepted
  simp only [yields_mapM_iff, exists_forall₂_iff]

@[simp] theorem exists_writes_iff {key : String} :
    (∃ p, Writes source es key p) ↔ textOf es key ≠ "" ∧ Path.IsText (textOf es key) := by
  rw [← Path.parse_succeeds_iff (locOf source es)]
  unfold Writes
  exact exists_and_left

@[simp] theorem accepted_requiredPath_iff {key : String} :
    Accepted (requiredPath source es key) ↔ textOf es key ≠ "" ∧ Path.IsText (textOf es key) := by
  exact (exists_congr fun _ => yields_requiredPath_iff).trans exists_writes_iff

@[simp] theorem exists_mayWrite_iff {key : String} :
    (∃ p, MayWrite source es key p) ↔ textOf es key = "" ∨ Path.IsText (textOf es key) := by
  simp only [Option.exists, MayWrite, exists_writes_iff]
  by_cases hempty : textOf es key = "" <;> simp [hempty]

@[simp] theorem accepted_pathOf_iff {key : String} :
    Accepted (pathOf source es key) ↔ textOf es key = "" ∨ Path.IsText (textOf es key) :=
  (exists_congr fun _ => yields_pathOf_iff).trans exists_mayWrite_iff

end Reading

end Document

end Sessions
