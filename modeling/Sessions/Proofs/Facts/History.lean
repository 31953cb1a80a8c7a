import Mathlib.Data.List.Induction
import Mathlib.Data.List.Range
import Sessions.Proofs.Facts.PathSet

/-!
# Sessions.Proofs.Facts.History

Path sets as what their history says. A change adds or removes a path. A path is there if the last
change of its key added it, and then its entry comes from the latest insertion: the change that
added it when it was not there. `insertions` lists these entries in the order in which they were
inserted, each with the path of its insertion and with every flag that was added since.
`entries_ofChanges` says that this is what a path set holds.
-/

namespace Sessions

/-- A change of a path set. -/
inductive Change where
  | add (path : Path) (fresh : Bool)
  | remove (path : Path)

namespace Change

/-- The key that the change is about. -/
def key : Change → String
  | .add p _ => p.key
  | .remove p => p.key

def isAdd : Change → Bool
  | .add _ _ => true
  | .remove _ => false

/-- Whether the change takes the key out. -/
def removes (k : String) : Change → Bool
  | .add _ _ => false
  | .remove p => p.key == k

/-- Whether the change adds the key as a fresh one. -/
def refreshes (k : String) : Change → Bool
  | .add p fresh => p.key == k && fresh
  | .remove _ => false

end Change

/-- What one more change leaves of an entry. -/
def PathEntry.after (c : Change) (e : PathEntry) : Option PathEntry :=
  if c.removes e.key then none else some ⟨e.path, e.fresh || c.refreshes e.key⟩

namespace PathSet

/-- Makes the change. -/
def apply (s : PathSet) : Change → PathSet
  | .add p fresh => s.add p fresh
  | .remove p => s.remove p

/-- The set after all changes. -/
def ofChanges (cs : List Change) : PathSet :=
  cs.foldl apply empty

/-- Whether the last change of the key added it. -/
def present (k : String) (cs : List Change) : Bool :=
  ((cs.filter fun c => c.key == k).getLast?.map Change.isAdd).getD false

/-- The entry that the change of this number inserted and that is there still. -/
def inserted (cs : List Change) (i : Nat) : Option PathEntry :=
  match cs[i]? with
  | some (.add p _) =>
    if present p.key (cs.take i) || (cs.drop (i + 1)).any (Change.removes p.key) then none
    else some ⟨p, (cs.drop i).any (Change.refreshes p.key)⟩
  | _ => none

/-- The entries of the paths that are there, in the order of their latest insertion. -/
def insertions (cs : List Change) : List PathEntry :=
  (List.range cs.length).filterMap (inserted cs)

/-! ## One more change -/

/-- The entry that one more change inserts. -/
def insertedBy (cs : List Change) : Change → Option PathEntry
  | .add p fresh => if present p.key cs then none else some ⟨p, fresh⟩
  | .remove _ => none

variable {cs : List Change} {c : Change} {k : String} {p : Path} {i : Nat}

theorem present_append (k : String) (cs : List Change) (c : Change) :
    present k (cs ++ [c]) = if c.key = k then c.isAdd else present k cs := by
  rw [present, present, List.filter_append, List.filter_cons, List.filter_nil]
  by_cases h : c.key = k
  · rw [if_pos h, if_pos (by simpa using h), List.getLast?_append]
    rfl
  · rw [if_neg h, if_neg (by simpa using h), List.append_nil]

theorem inserted_append_of_lt (h : i < cs.length) :
    inserted (cs ++ [c]) i = (inserted cs i).bind (PathEntry.after c) := by
  rw [inserted, inserted, List.getElem?_append_left h, List.take_append_of_le_length (by omega),
    List.drop_append_of_le_length (by omega), List.drop_append_of_le_length (by omega)]
  cases cs[i]? with
  | none => rfl
  | some d =>
    cases d with
    | remove p => rfl
    | add p fresh =>
      simp only [List.any_append, List.any_cons, List.any_nil, Bool.or_false]
      cases present p.key (cs.take i) with
      | true => rfl
      | false =>
        cases (cs.drop (i + 1)).any (Change.removes p.key) with
        | true => rfl
        | false => rfl

theorem inserted_last : inserted (cs ++ [c]) cs.length = insertedBy cs c := by
  rw [inserted]
  simp only [List.getElem?_concat_length]
  cases c with
  | remove p => rfl
  | add p fresh => simp [insertedBy, Change.refreshes]

theorem insertions_append : insertions (cs ++ [c]) =
    (insertions cs).filterMap (PathEntry.after c) ++ (insertedBy cs c).toList := by
  have hold : (List.range cs.length).filterMap (inserted (cs ++ [c])) =
      (insertions cs).filterMap (PathEntry.after c) := by
    rw [insertions, List.filterMap_filterMap]
    refine List.filterMap_congr fun i hi => ?_
    exact inserted_append_of_lt (List.mem_range.1 hi)
  rw [insertions, List.length_append, List.length_singleton, List.range_succ,
    List.filterMap_append, hold]
  congr 1
  rw [List.filterMap_cons, inserted_last]
  cases insertedBy cs c <;> rfl

/-! ## Sets -/

theorem ofChanges_append (cs : List Change) (c : Change) :
    ofChanges (cs ++ [c]) = (ofChanges cs).apply c := by
  rw [ofChanges, ofChanges, List.foldl_append, List.foldl_cons, List.foldl_nil]

theorem present_iff (k : String) (cs : List Change) :
    present k cs = true ↔ k ∈ (ofChanges cs).keys := by
  induction cs using List.reverseRecOn with
  | nil => simp [present, ofChanges, keys_empty]
  | append_singleton cs c ih =>
    rw [present_append, ofChanges_append]
    cases c with
    | add p fresh =>
      rw [apply, mem_keys_add, ← ih]
      by_cases h : p.key = k
      · simp [Change.key, Change.isAdd, h]
      · simp [Change.key, h, Ne.symm h]
    | remove p =>
      rw [apply, mem_keys_remove, ← ih]
      by_cases h : p.key = k
      · simp [Change.key, Change.isAdd, h]
      · simp [Change.key, h, Ne.symm h]

/-- A change of another key leaves the entry as it is. -/
theorem after_of_ne {c : Change} {e : PathEntry} (h : c.key ≠ e.key) : e.after c = some e := by
  cases c with
  | add p fresh =>
    have hk : (p.key == e.key) = false := beq_eq_false_iff_ne.2 h
    rw [PathEntry.after, Change.removes, Change.refreshes, hk, Bool.false_and, Bool.or_false]
    rfl
  | remove p =>
    have hk : (p.key == e.key) = false := beq_eq_false_iff_ne.2 h
    rw [PathEntry.after, Change.removes, Change.refreshes, hk, Bool.or_false]
    rfl

theorem filterMap_after_of_notMem {s : PathSet} (h : c.key ∉ s.keys) :
    s.entries.filterMap (PathEntry.after c) = s.entries := by
  have hsome : ∀ e ∈ s.entries, PathEntry.after c e = some e := fun e he =>
    after_of_ne fun hk => h (hk ▸ List.mem_map_of_mem he)
  rw [List.filterMap_congr hsome, List.filterMap_some]

theorem entries_add (s : PathSet) (p : Path) (fresh : Bool) :
    (s.add p fresh).entries = s.entries.filterMap (PathEntry.after (.add p fresh)) ++
      if p.key ∈ s.keys then [] else [⟨p, fresh⟩] := by
  by_cases hp : p.key ∈ s.keys
  · rw [add, if_pos (contains_iff.2 hp), if_pos hp, List.append_nil, ← List.filterMap_eq_map]
    refine List.filterMap_congr fun e _ => ?_
    by_cases hk : e.key = p.key
    · simp [PathEntry.after, Change.removes, Change.refreshes, hk]
    · rw [after_of_ne (c := .add p fresh) (Ne.symm hk), Function.comp_apply,
        if_neg (by simpa using hk)]
  · rw [add_of_notMem hp, filterMap_after_of_notMem hp, if_neg hp]

theorem entries_remove (s : PathSet) (p : Path) :
    (s.remove p).entries = s.entries.filterMap (PathEntry.after (.remove p)) := by
  rw [remove, ← List.filterMap_eq_filter]
  refine List.filterMap_congr fun e _ => ?_
  by_cases hk : e.key = p.key
  · simp [Option.guard, PathEntry.after, Change.removes, hk]
  · rw [after_of_ne (c := .remove p) (Ne.symm hk)]
    simp [Option.guard, hk]

/-- A set holds the entries that its history inserts. -/
theorem entries_ofChanges (cs : List Change) : (ofChanges cs).entries = insertions cs := by
  induction cs using List.reverseRecOn with
  | nil => rfl
  | append_singleton cs c ih =>
    rw [ofChanges_append, insertions_append, ← ih]
    cases c with
    | add p fresh =>
      rw [apply, entries_add, insertedBy]
      by_cases hp : p.key ∈ (ofChanges cs).keys
      · rw [if_pos hp, if_pos ((present_iff p.key cs).2 hp)]
        rfl
      · rw [if_neg hp, if_neg (mt (present_iff p.key cs).1 hp)]
        rfl
    | remove p =>
      rw [apply, entries_remove, insertedBy, Option.toList_none, List.append_nil]

-- `a` comes back behind `b`, with the line and the flag of its second insertion.
example :
    let path (name : String) (line : Int) : Path := ⟨{ line := line }, [⟨name, none⟩]⟩
    (insertions [.add (path "a" 1) true, .add (path "b" 2) false, .remove (path "a" 3),
      .add (path "a" 4) false, .add (path "b" 5) true]).map
        (fun e => (e.path.render, e.path.loc.line, e.fresh)) =
      [("b", 2, true), ("a", 4, false)] := by
  cbv

end PathSet

end Sessions
