import Mathlib.Data.List.Nodup

/-!
# Sessions.Proofs.Text.Lookup

Lists of pairs that are looked up by a text: the first pair of that text counts, and where the texts
are distinct it is the only one.
-/

namespace Sessions.Text

variable {α : Type} {l : List (String × α)} {k : String} {a : α}

theorem mem_of_lookup (h : l.lookup k = some a) : (k, a) ∈ l := by
  obtain ⟨before, after, rfl, -⟩ := List.lookup_eq_some_iff.1 h
  exact List.mem_append_right _ List.mem_cons_self

theorem lookup_of_mem (hdistinct : (l.map (·.1)).Nodup) (h : (k, a) ∈ l) :
    l.lookup k = some a := by
  obtain ⟨before, after, rfl⟩ := List.append_of_mem h
  rw [List.map_append, List.nodup_append] at hdistinct
  refine List.lookup_eq_some_iff.2 ⟨before, after, rfl, fun x hx => ?_⟩
  have hne := hdistinct.2.2 x.1 (List.mem_map_of_mem hx) k List.mem_cons_self
  simpa using hne.symm

theorem lookup_eq_none_iff : l.lookup k = none ↔ k ∉ l.map (·.1) := by
  rw [List.lookup_eq_none_iff, List.mem_map]
  constructor
  · rintro h ⟨e, he, rfl⟩
    simpa using h e he
  · intro h e he
    simp only [bne_iff_ne, ne_eq]
    rintro rfl
    exact h ⟨e, he, rfl⟩

theorem lookup_isSome_iff : (l.lookup k).isSome = true ↔ k ∈ l.map (·.1) := by
  rw [← not_iff_not, ← lookup_eq_none_iff, Option.not_isSome_iff_eq_none]

theorem lookup_filter (l : List (String × α)) (p q : String) :
    (l.filter (·.1 != q)).lookup p = if q = p then none else l.lookup p := by
  induction l with
  | nil => simp
  | cons e rest ih =>
    rw [List.filter_cons, List.lookup_cons]
    by_cases he : e.1 = q
    · rw [if_neg (by simpa using he), ih]
      by_cases hq : q = p
      · rw [if_pos hq, if_pos hq]
      · have hne : (p == e.1) = false := by
          rw [beq_eq_false_iff_ne, he]
          exact fun heq => hq heq.symm
        rw [if_neg hq, if_neg hq, hne]
    · rw [if_pos (by simpa using he), List.lookup_cons, ih]
      by_cases hp : p == e.1
      · have hne : q ≠ p := by
          rw [eq_of_beq hp]
          exact fun heq => he heq.symm
        simp only [hp, if_neg hne]
      · simp only [hp]

end Sessions.Text
