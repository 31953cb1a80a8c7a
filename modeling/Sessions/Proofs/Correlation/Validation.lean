import Mathlib.Data.List.Induction
import Sessions.Proofs.Correlation.Table
import Sessions.Proofs.Text.Lookup

/-!
# Sessions.Proofs.Correlation.Validation

What it means that a table is usable, and what its first fault is, without a look at the loops that
decide it. `validate_eq_none_iff` and `validate_eq_some_iff` say that `Table.validate` decides just
this; in a table that it accepts, the look-up by operation never meets a set that is missing, empty
or one of several of its name (`Usable.setFor?_of_mem`).
-/

namespace Sessions.Correlation

/-- The sets have distinct names, and each of them has a variable. -/
structure Sound (sets : List CorrelationSet) : Prop where
  distinct : (sets.map (·.name)).Nodup
  filled : ∀ s ∈ sets, s.vars ≠ []

/-- What is wrong with a set that is declared after these: it repeats a name, or its name is new and
it has no variables. -/
inductive Faulty (before : List CorrelationSet) (s : CorrelationSet) : TableError → Prop
  | repeated (h : s.name ∈ before.map (·.name)) : Faulty before s (.duplicateSet s.name)
  | empty (h : s.name ∉ before.map (·.name)) (hv : s.vars = []) : Faulty before s (.emptySet s.name)

namespace Table

/-- The operation has a set, which nobody declared. -/
def Dangles (t : Table) (o : String × String) : Prop :=
  o.2 ≠ "" ∧ ∀ s ∈ t.sets, s.name ≠ o.2

/-- The operation has no set: it is unmapped or mapped to the empty name. -/
def Unassigned (t : Table) (operation : String) : Prop :=
  operation ∉ t.operations.map (·.1) ∨ (operation, "") ∈ t.operations

instance (t : Table) (operation : String) : Decidable (t.Unassigned operation) :=
  inferInstanceAs (Decidable (_ ∨ _))

/-- Every reference in the table makes sense. -/
structure Usable (t : Table) : Prop where
  sound : Sound t.sets
  declared : ∀ o ∈ t.operations, o.2 ≠ "" → ∃ s ∈ t.sets, s.name = o.2

/-- What is wrong with the table: the first set that is faulty; or, if the sets are sound, the least
operation that dangles. -/
inductive Fault (t : Table) : TableError → Prop
  | set {before after : List CorrelationSet} {s : CorrelationSet} {e : TableError}
      (hsplit : t.sets = before ++ s :: after) (hbefore : Sound before) (h : Faulty before s e) :
      Fault t e
  | operation {op name : String} (hsets : Sound t.sets) (hmem : (op, name) ∈ t.operations)
      (h : t.Dangles (op, name))
      (hleast : ∀ o ∈ t.operations, t.Dangles o → Text.bytesOf op ≤ Text.bytesOf o.1) :
      Fault t (.unknownSet op name)

end Table

/-! ## Sets -/

section Sets

variable {before sets : List CorrelationSet} {s : CorrelationSet} {e : TableError}

theorem Sound.nil : Sound [] :=
  ⟨List.nodup_nil, List.forall_mem_nil _⟩

theorem Sound.left {after : List CorrelationSet} (h : Sound (sets ++ after)) : Sound sets where
  distinct := (List.nodup_append.1 (List.map_append ▸ h.distinct)).1
  filled s hs := h.filled s (List.mem_append_left _ hs)

theorem Sound.add (h : Sound sets) (hname : s.name ∉ sets.map (·.name)) (hv : s.vars ≠ []) :
    Sound (sets ++ [s]) where
  distinct := by
    rw [List.map_append, List.nodup_append]
    refine ⟨h.distinct, List.nodup_singleton _, fun n hn m hm hnm => hname ?_⟩
    have hm : m = s.name := List.mem_singleton.1 hm
    rwa [← hm, ← hnm]
  filled x hx := by
    rcases List.mem_append.1 hx with hx | hx
    · exact h.filled x hx
    · rwa [List.mem_singleton.1 hx]

/-- Either the sets are sound or there is a first one that is not. -/
theorem sound_or_faulty (sets : List CorrelationSet) :
    Sound sets ∨ ∃ before s after e,
      sets = before ++ s :: after ∧ Sound before ∧ Faulty before s e := by
  induction sets using List.reverseRecOn with
  | nil => exact .inl .nil
  | append_singleton sets s ih =>
    -- The first fault of the earlier sets stays the first; if there is none the last set counts.
    rcases ih with h | ⟨before, x, after, e, rfl, hbefore, hx⟩
    · by_cases hname : s.name ∈ sets.map (·.name)
      · exact .inr ⟨sets, s, [], _, rfl, h, .repeated hname⟩
      · by_cases hv : s.vars = []
        · exact .inr ⟨sets, s, [], _, rfl, h, .empty hname hv⟩
        · exact .inl (h.add hname hv)
    · refine .inr ⟨before, x, after ++ [s], e, ?_, hbefore, hx⟩
      rw [List.append_assoc, List.cons_append]

namespace Table

/-- The scan passes over sets that are sound; `seen` are the names of those before. -/
theorem faultySet?_append {seen : List String} (hseen : ∀ n, n ∈ seen ↔ n ∈ before.map (·.name))
    (h : Sound (before ++ sets)) : ∃ seen', (∀ n, n ∈ seen' ↔ n ∈ (before ++ sets).map (·.name)) ∧
      ∀ rest, faultySet? seen (sets ++ rest) = faultySet? seen' rest := by
  induction sets generalizing before seen with
  | nil => exact ⟨seen, by simpa using hseen, fun _ => rfl⟩
  | cons s sets ih =>
    rw [List.append_cons] at h
    have hnew : s.name ∉ seen := by
      have hdistinct := h.left.distinct
      rw [List.map_append, List.nodup_append] at hdistinct
      exact fun hs => hdistinct.2.2 _ ((hseen _).1 hs) _ (List.mem_singleton_self _) rfl
    have hfilled : s.vars ≠ [] := h.filled s (by simp)
    have hseen' : ∀ n, n ∈ s.name :: seen ↔ n ∈ (before ++ [s]).map (·.name) := by
      intro n
      rw [List.map_append, List.mem_append, List.mem_cons, hseen, or_comm]
      simp
    obtain ⟨seen', hmem, hrest⟩ := ih hseen' h
    refine ⟨seen', List.append_cons _ _ _ ▸ hmem, fun rest => ?_⟩
    rw [List.cons_append, faultySet?, if_neg (by simpa using hnew),
      if_neg (by simpa using hfilled), hrest]

theorem faultySet?_pass (h : Sound sets) : ∃ seen, (∀ n, n ∈ seen ↔ n ∈ sets.map (·.name)) ∧
    ∀ rest, faultySet? [] (sets ++ rest) = faultySet? seen rest := by
  have hnone : ∀ n, n ∈ ([] : List String) ↔ n ∈ ([] : List CorrelationSet).map (·.name) :=
    fun _ => .rfl
  exact faultySet?_append hnone h

theorem faultySet?_sound (h : Sound sets) : faultySet? [] sets = none := by
  obtain ⟨seen, -, hrest⟩ := faultySet?_pass h
  rw [← List.append_nil sets, hrest, faultySet?]

theorem faultySet?_faulty (hbefore : Sound before) (h : Faulty before s e)
    (after : List CorrelationSet) : faultySet? [] (before ++ s :: after) = some e := by
  obtain ⟨seen, hseen, hrest⟩ := faultySet?_pass hbefore
  rw [hrest, faultySet?]
  cases h with
  | repeated h => rw [if_pos (by simpa [hseen] using h)]
  | empty h hv => rw [if_neg (by simpa [hseen] using h), if_pos (by simpa using hv)]

theorem faultySet?_eq_none_iff : faultySet? [] sets = none ↔ Sound sets := by
  refine ⟨fun h => ?_, faultySet?_sound⟩
  rcases sound_or_faulty sets with hsound | ⟨before, s, after, e, rfl, hbefore, hs⟩
  · exact hsound
  · rw [faultySet?_faulty hbefore hs] at h
    cases h

theorem faultySet?_eq_some_iff : faultySet? [] sets = some e ↔
    ∃ before s after, sets = before ++ s :: after ∧ Sound before ∧ Faulty before s e := by
  constructor
  · intro h
    rcases sound_or_faulty sets with hsound | ⟨before, s, after, e', rfl, hbefore, hs⟩
    · rw [faultySet?_sound hsound] at h
      cases h
    · rw [faultySet?_faulty hbefore hs] at h
      cases h
      exact ⟨before, s, after, rfl, hbefore, hs⟩
  · rintro ⟨before, s, after, rfl, hbefore, hs⟩
    exact faultySet?_faulty hbefore hs after

end Table

end Sets

/-! ## Operations -/

namespace Table

variable {t : Table} {o : String × String} {e : TableError}

theorem dangles_iff (t : Table) (o : String × String) :
    (decide (o.2 ≠ "") && !(t.sets.any fun s => s.name == o.2)) = true ↔ t.Dangles o := by
  simp [Dangles]

theorem faultyOperation?_eq_none_iff :
    t.faultyOperation? = none ↔ ∀ o ∈ t.operations, ¬t.Dangles o := by
  rw [faultyOperation?, Option.map_eq_none_iff, List.find?_eq_none]
  simp only [dangles_iff, t.sortedOperations_perm.mem_iff]

/-- The operation that the scan finds dangles, and none that comes before it does. -/
theorem faultyOperation?_least (h : t.faultyOperation? = some e) :
    ∃ o ∈ t.operations, t.Dangles o ∧ (∀ o' ∈ t.operations, t.Dangles o' → o.1 ≤ o'.1) ∧
      e = .unknownSet o.1 o.2 := by
  rw [faultyOperation?, Option.map_eq_some_iff] at h
  obtain ⟨o, hfind, rfl⟩ := h
  obtain ⟨hdangles, before, after, hsplit, hbefore⟩ := List.find?_eq_some_iff_append.1 hfind
  have hmem : ∀ o', o' ∈ t.sortedOperations ↔ o' ∈ t.operations :=
    fun _ => t.sortedOperations_perm.mem_iff
  refine ⟨o, (hmem o).1 (List.mem_of_find?_eq_some hfind), (t.dangles_iff o).1 hdangles,
    fun o' ho' hd => ?_, rfl⟩
  have hsorted := t.sorted_sortedOperations
  rw [← hmem, hsplit, List.mem_append, List.mem_cons] at ho'
  rw [hsplit, List.pairwise_append, List.pairwise_cons] at hsorted
  -- Nothing in front of the one that was found dangles, and what follows is not less.
  rcases ho' with ho' | rfl | ho'
  · have hnot := hbefore o' ho'
    rw [(t.dangles_iff o').2 hd] at hnot
    cases hnot
  · exact String.le_refl _
  · exact hsorted.2.1.1 o' ho'

theorem bytesOf_le_iff (a b : String) : Text.bytesOf a ≤ Text.bytesOf b ↔ a ≤ b := by
  rw [← List.not_lt, ← Text.lt_iff_bytesOf, String.not_lt]

theorem faultyOperation?_eq_some_iff (hdistinct : (t.operations.map (·.1)).Nodup) :
    t.faultyOperation? = some e ↔ ∃ op name, (op, name) ∈ t.operations ∧ t.Dangles (op, name) ∧
      (∀ o ∈ t.operations, t.Dangles o → Text.bytesOf op ≤ Text.bytesOf o.1) ∧
      e = .unknownSet op name := by
  simp only [bytesOf_le_iff]
  constructor
  · intro h
    obtain ⟨⟨op, name⟩, hmem, hdangles, hleast, he⟩ := faultyOperation?_least h
    exact ⟨op, name, hmem, hdangles, hleast, he⟩
  · rintro ⟨op, name, hmem, hdangles, hleast, rfl⟩
    cases h : t.faultyOperation? with
    | none => exact absurd hdangles (faultyOperation?_eq_none_iff.1 h _ hmem)
    | some e =>
      obtain ⟨o, hmem', hdangles', hleast', rfl⟩ := faultyOperation?_least h
      have hname : o.1 = op :=
        String.le_antisymm (hleast' _ hmem hdangles) (hleast _ hmem' hdangles')
      rw [List.inj_on_of_nodup_map hdistinct hmem' hmem hname]

/-! ## The verdict on a table -/

theorem usable_iff : t.Usable ↔ Sound t.sets ∧ ∀ o ∈ t.operations, ¬t.Dangles o := by
  constructor
  · rintro ⟨hsound, hdeclared⟩
    refine ⟨hsound, fun o ho hd => ?_⟩
    obtain ⟨s, hs, hname⟩ := hdeclared o ho hd.1
    exact hd.2 s hs hname
  · rintro ⟨hsound, hnone⟩
    refine ⟨hsound, fun o ho hne => ?_⟩
    simpa [Dangles, hne] using hnone o ho

theorem validate_eq_none_iff : t.validate = none ↔ t.Usable := by
  rw [validate, Option.or_eq_none_iff, faultySet?_eq_none_iff, faultyOperation?_eq_none_iff,
    usable_iff]

theorem validate_eq_some_iff (hdistinct : (t.operations.map (·.1)).Nodup) :
    t.validate = some e ↔ t.Fault e := by
  rw [validate, Option.or_eq_some_iff, faultySet?_eq_some_iff, faultySet?_eq_none_iff,
    faultyOperation?_eq_some_iff hdistinct]
  constructor
  · rintro (⟨before, s, after, hsplit, hbefore, hs⟩ |
      ⟨hsets, op, name, hmem, hdangles, hleast, rfl⟩)
    · exact .set hsplit hbefore hs
    · exact .operation hsets hmem hdangles hleast
  · intro h
    cases h with
    | set hsplit hbefore hs => exact .inl ⟨_, _, _, hsplit, hbefore, hs⟩
    | operation hsets hmem hdangles hleast =>
      exact .inr ⟨hsets, _, _, hmem, hdangles, hleast, rfl⟩

/-! ## Looking up -/

theorem setFor?_eq (t : Table) (op : String) :
    t.setFor? op =
      (t.operations.lookup op).bind fun name => if name = "" then none else t.set? name := by
  rw [setFor?]
  split
  · next h => rw [h]; rfl
  · next h => rw [h]; rfl
  · next name hne h => rw [h, Option.bind_some, if_neg hne]

theorem setFor?_of_unassigned (hdistinct : (t.operations.map (·.1)).Nodup) {op : String}
    (h : t.Unassigned op) : t.setFor? op = none := by
  rw [setFor?_eq]
  rcases h with h | h
  · rw [Text.lookup_eq_none_iff.2 h, Option.bind_none]
  · rw [Text.lookup_of_mem hdistinct h, Option.bind_some, if_pos rfl]

/-- The set that a sound table has for a name is the only one of that name. -/
theorem Usable.filter_name (h : t.Usable) {s : CorrelationSet} (hs : s ∈ t.sets) :
    (t.sets.filter fun x => x.name == s.name) = [s] := by
  have hall : ∀ x ∈ t.sets.filter (fun x => x.name == s.name), x = s := by
    intro x hx
    obtain ⟨hx, hname⟩ := List.mem_filter.1 hx
    exact List.inj_on_of_nodup_map h.sound.distinct hx hs (by simpa using hname)
  have hnodup : (t.sets.filter fun x => x.name == s.name).Nodup :=
    (List.Nodup.of_map _ h.sound.distinct).filter _
  have hmem : s ∈ t.sets.filter fun x => x.name == s.name := List.mem_filter.2 ⟨hs, by simp⟩
  exact List.perm_singleton.1 ((List.perm_ext_iff_of_nodup hnodup (List.nodup_singleton s)).2
    fun x => ⟨fun hx => List.mem_singleton.2 (hall x hx), fun hx => List.mem_singleton.1 hx ▸ hmem⟩)

/-- In a usable table an operation with a set has one that is not empty, the only one of its
name. -/
theorem Usable.setFor?_of_mem (h : t.Usable) (hdistinct : (t.operations.map (·.1)).Nodup)
    {op name : String} (hmem : (op, name) ∈ t.operations) (hname : name ≠ "") :
    ∃ s, t.setFor? op = some s ∧ s.vars ≠ [] ∧ (t.sets.filter fun x => x.name == name) = [s] := by
  obtain ⟨s, hs, rfl⟩ := h.declared _ hmem hname
  refine ⟨s, ?_, h.sound.filled s hs, h.filter_name hs⟩
  rw [setFor?_eq, Text.lookup_of_mem hdistinct hmem, Option.bind_some, if_neg hname, set?,
    ← List.head?_filter, h.filter_name hs, List.head?_singleton]

end Table

end Sessions.Correlation
