import Sessions.Proofs.Check.Replace
import Sessions.Proofs.Check.WellFormed

/-!
# Sessions.Proofs.Check.Edit

Checking a program twice, before and after parts of its definitions were replaced. `Item.Edits R`
relates the items of the two programs; `R n` relates a part of the definition `n` to what takes its
place.

`edits_walked`: if the walks of each part and of its replacement are alike, then the facts of all
definitions correspond, and so does what was reported.
-/

namespace Sessions

/-- An item with a part of its activity replaced, or the same item. -/
inductive Item.Edits (R : String → Bool → Activity → Activity → Prop) (entry : String) :
    Item → Item → Prop
  | same (i : Item) : Edits R entry i i
  | body (l : Location) (n : String) {a a' : Activity}
      (h : Activity.Replaces (R n) (n == entry) a a') :
      Edits R entry (.definition ⟨l, n, a⟩) (.definition ⟨l, n, a'⟩)

/-- A definition with a part of its activity replaced, or one with the same activity. -/
structure Definition.Edits (R : String → Bool → Activity → Activity → Prop) (entry : String)
    (d d' : Definition) : Prop where
  name : d.name = d'.name
  body : d.body = d'.body ∨ Activity.Replaces (R d.name) (d.name == entry) d.body d'.body

section Definitions

variable {R : String → Bool → Activity → Activity → Prop} {entry : String}

theorem Definition.Edits.refl (d : Definition) : d.Edits R entry d :=
  ⟨rfl, .inl rfl⟩

theorem definitions_edits {items items' : List Item} {l l' : Location}
    (h : List.Forall₂ (Item.Edits R entry) items items') :
    List.Forall₂ (Definition.Edits R entry) (Program.definitions ⟨l, items⟩)
      (Program.definitions ⟨l', items'⟩) := by
  unfold Program.definitions
  induction h with
  | nil => exact .nil
  | @cons i _ _ _ h _ ih =>
    cases h with
    | same =>
      cases i with
      | definition d => exact .cons (.refl d) ih
      | declaration _ => exact ih
    | body l n h => exact .cons ⟨rfl, .inr h⟩ ih

theorem filter_edits {ds ds' : List Definition} (h : List.Forall₂ (Definition.Edits R entry) ds ds')
    (n : String) :
    List.Forall₂ (Definition.Edits R entry) (ds.filter fun e => e.name ≠ n)
      (ds'.filter fun e => e.name ≠ n) := by
  induction h with
  | nil => exact .nil
  | @cons d d' _ _ h _ ih =>
    rw [List.filter_cons, List.filter_cons, ← h.name]
    split
    · exact .cons h ih
    · exact ih

theorem firstDefinitions_edits {ds ds' : List Definition}
    (h : List.Forall₂ (Definition.Edits R entry) ds ds') :
    List.Forall₂ (Definition.Edits R entry) (firstDefinitions ds) (firstDefinitions ds') := by
  induction h with
  | nil => exact .nil
  | cons h _ ih =>
    rw [firstDefinitions, firstDefinitions, ← h.name]
    exact .cons h (filter_edits ih _)

theorem find?_edits {ds ds' : List Definition} (h : List.Forall₂ (Definition.Edits R entry) ds ds')
    (n : String) :
    Option.Rel (Definition.Edits R entry) (ds.find? fun d => d.name == n)
      (ds'.find? fun d => d.name == n) := by
  induction h with
  | nil => exact .none
  | @cons d d' _ _ h _ ih =>
    rw [List.find?_cons, List.find?_cons, ← h.name]
    split
    · exact .some h
    · exact ih

end Definitions

namespace Check.Checker

variable {R : String → Bool → Activity → Activity → Prop} {c : Checker} {l : Location}
  {items items' : List Item}

theorem scope_edits (h : List.Forall₂ (Item.Edits R c.entryName) items items') :
    List.Forall₂ (Definition.Edits R c.entryName) (c.on ⟨l, items⟩).scope.definitions
      (c.on ⟨l, items'⟩).scope.definitions :=
  firstDefinitions_edits (definitions_edits h)

section Walked

variable {L : Link} {A : Facts → Facts → Prop} {S : List String → List String → Prop}
  (hfacts : ∀ n, L.facts n = A) (hknown : ∀ n, L.known n)
  (K : ∀ depth depth', Keeps L A S True ((c.on ⟨l, items⟩).scope.setting depth)
    ((c.on ⟨l, items'⟩).scope.setting depth'))
  (hR : ∀ {n active depth depth' s x x'}, (c.on ⟨l, items⟩).scope.Stack active depth n →
    R n s x x' → Walkable L A True ((c.on ⟨l, items⟩).scope.setting depth)
      ((c.on ⟨l, items'⟩).scope.setting depth') active x →
    Alike L A ((c.on ⟨l, items⟩).scope.setting depth)
      ((c.on ⟨l, items'⟩).scope.setting depth') active s x x')
  (h : List.Forall₂ (Item.Edits R c.entryName) items items')
include hfacts hknown K hR h

theorem edits_bodies :
    Bodies L (c.on ⟨l, items⟩).scope (c.on ⟨l, items'⟩).scope where
  defined {n} _ := by
    have := find?_edits (scope_edits (l := l) h) n
    unfold Scope.definition?
    revert this
    generalize List.find? _ (c.on ⟨l, items⟩).scope.definitions = o
    generalize List.find? _ (c.on ⟨l, items'⟩).scope.definitions = o'
    intro ho
    cases ho <;> simp
  calls _ _ := hknown _
  cut _ := by rw [hfacts]; exact (K 0 0).empty
  body := by
    intro n d d' active depth depth' _ hd hd' hs hcalls
    have hedit : d.Edits R c.entryName d' := by
      have := find?_edits (scope_edits (l := l) h) n
      unfold Scope.definition? at hd hd'
      rw [hd, hd'] at this
      cases this with
      | some h => exact h
    have hname : d.name = n := by
      simpa using List.find?_some (p := fun d : Definition => d.name == n) hd
    simp only [hfacts] at hcalls ⊢
    have hw : Walkable L A True ((c.on ⟨l, items⟩).scope.setting depth)
        ((c.on ⟨l, items'⟩).scope.setting depth') active d.body := ⟨hcalls, .inr trivial⟩
    rcases hedit.body with heq | hrep
    · rw [← heq]
      exact (alike_refl (K depth depth') hw _).walks
    · rw [hname] at hrep
      exact (alike_replaces (K depth depth') (fun hx => hR hs hx) hw hrep).walks

/-- The facts of all definitions before and after the edit correspond, and so does what was
reported of them. -/
theorem edits_walked (hstage : L.stage (c.on ⟨l, items⟩).walked) :
    (∀ n, Option.Rel A ((c.on ⟨l, items⟩).walked.table.lookup n)
      ((c.on ⟨l, items'⟩).walked.table.lookup n)) ∧
      L.reports (c.on ⟨l, items⟩).walked.diagnostics (c.on ⟨l, items'⟩).walked.diagnostics := by
  obtain ⟨htable, hreports⟩ := walked_related (edits_bodies hfacts hknown K hR h) hknown
    ((scope_edits h).imp fun _ _ hd => hd.name) hstage
  exact ⟨fun n => hfacts n ▸ htable n, hreports⟩

end Walked

end Check.Checker

end Sessions
