import Mathlib.Data.List.Perm.Basic
import Sessions.Facts.PathSet

/-!
# Sessions.Proofs.Facts.PathSet

Path sets through their keys: which keys a set holds after paths were added or taken out, and for
which of them a fresh value was added (`freshAt`). `Holds P s` says that the members of `s` satisfy
`P` and have different keys; every operation keeps it.
-/

namespace Sessions

theorem exists_mem_concat {α : Type} {P : α → Prop} {l : List α} {x : α} :
    (∃ y ∈ l ++ [x], P y) ↔ (∃ y ∈ l, P y) ∨ P x := by
  simp only [List.mem_append, List.mem_singleton, or_and_right, exists_or, exists_eq_left]

/-- The entry of a path to which another one is added. -/
def PathEntry.refreshedBy (e x : PathEntry) : PathEntry :=
  ⟨e.path, e.fresh || x.fresh⟩

namespace PathSet

variable {s : PathSet} {p q : Path} {e : PathEntry} {k : String} {b : Bool} {ps qs : List Path}
  {es : List PathEntry} {P : PathEntry → Prop}

/-! ## Members -/

theorem keys_eq_map_paths (s : PathSet) : s.keys = s.paths.map Path.key := by
  rw [keys, paths, List.map_map]; rfl

theorem mem_keys_of_mem_paths (h : p ∈ s.paths) : p.key ∈ s.keys := by
  rw [keys_eq_map_paths]
  exact List.mem_map_of_mem h

theorem paths_eq_nil : s.paths = [] ↔ ∀ k, k ∉ s.keys := by
  rw [← List.eq_nil_iff_forall_not_mem, keys_eq_map_paths, List.map_eq_nil_iff]

theorem keys_empty : empty.keys = [] := rfl

theorem contains_iff : s.contains p = true ↔ p.key ∈ s.keys := by
  rw [contains, List.any_eq_true, keys, List.mem_map]
  simp only [beq_iff_eq]

theorem contains_eq_false_iff : s.contains p = false ↔ p.key ∉ s.keys := by
  rw [← contains_iff, Bool.not_eq_true]

theorem isEmpty_iff : s.isEmpty = true ↔ ∀ k, k ∉ s.keys := by
  rw [isEmpty, List.isEmpty_iff, ← List.eq_nil_iff_forall_not_mem, keys, List.map_eq_nil_iff]

theorem keys_add_of_mem (h : p.key ∈ s.keys) : (s.add p b).keys = s.keys := by
  rw [add, if_pos (contains_iff.2 h), keys, keys, List.map_map]
  refine List.map_congr_left fun e _ => ?_
  show PathEntry.key (if e.key == p.key then ⟨e.path, e.fresh || b⟩ else e) = e.key
  split <;> rfl

theorem add_of_notMem (h : p.key ∉ s.keys) : s.add p b = ⟨s.entries ++ [⟨p, b⟩]⟩ := by
  rw [add, if_neg (mt contains_iff.1 h)]

theorem keys_add_of_notMem (h : p.key ∉ s.keys) : (s.add p b).keys = s.keys ++ [p.key] := by
  rw [add_of_notMem h, keys, List.map_append]; rfl

@[simp] theorem mem_keys_add : k ∈ (s.add p b).keys ↔ k ∈ s.keys ∨ k = p.key := by
  by_cases h : p.key ∈ s.keys
  · rw [keys_add_of_mem h]
    exact ⟨.inl, fun hk => hk.elim id fun hk => hk ▸ h⟩
  · rw [keys_add_of_notMem h, List.mem_append, List.mem_singleton]

@[simp] theorem mem_keys_remove : k ∈ (s.remove p).keys ↔ k ∈ s.keys ∧ k ≠ p.key := by
  simp only [keys, remove, List.mem_map, List.mem_filter, bne_iff_ne]
  constructor
  · rintro ⟨e, ⟨he, hne⟩, rfl⟩
    exact ⟨⟨e, he, rfl⟩, hne⟩
  · rintro ⟨⟨e, he, rfl⟩, hne⟩
    exact ⟨e, ⟨he, hne⟩, rfl⟩

theorem remove_of_notMem (h : p.key ∉ s.keys) : s.remove p = s := by
  rw [remove]
  congr 1
  refine List.filter_eq_self.2 fun e he => ?_
  rw [bne_iff_ne]
  rintro heq
  exact h (heq ▸ List.mem_map_of_mem he)

/-! ## Many paths at once -/

/-- Adds paths whose freshness does not matter. -/
def addPaths (s : PathSet) (ps : List Path) : PathSet :=
  ps.foldl (fun s p => s.add p false) s

/-- Adds paths with their flags. -/
def addAll (s : PathSet) (es : List PathEntry) : PathSet :=
  es.foldl (fun s e => s.add e.path e.fresh) s

/-- Adds a path unless its key is there. -/
def addNew (s : PathSet) (e : PathEntry) : PathSet :=
  if s.contains e.path then s else s.add e.path e.fresh

def addNewAll (s : PathSet) (es : List PathEntry) : PathSet :=
  es.foldl addNew s

/-- Takes paths out. -/
def removeAll (s : PathSet) (ps : List Path) : PathSet :=
  ps.foldl remove s

theorem mem_keys_addNew : k ∈ (s.addNew e).keys ↔ k ∈ s.keys ∨ k = e.key := by
  rw [addNew]
  split
  · next h =>
    exact ⟨.inl, fun hk => hk.elim id fun hk => hk ▸ contains_iff.1 h⟩
  · exact mem_keys_add

@[simp] theorem mem_keys_addPaths : k ∈ (s.addPaths ps).keys ↔ k ∈ s.keys ∨ k ∈ ps.map Path.key := by
  induction ps generalizing s with
  | nil => simp [addPaths]
  | cons p rest ih =>
    rw [addPaths, List.foldl_cons, ← addPaths, ih, mem_keys_add, List.map_cons, List.mem_cons,
      or_assoc]

@[simp] theorem mem_keys_addAll :
    k ∈ (s.addAll es).keys ↔ k ∈ s.keys ∨ k ∈ es.map PathEntry.key := by
  induction es generalizing s with
  | nil => simp [addAll]
  | cons e rest ih =>
    rw [addAll, List.foldl_cons, ← addAll, ih, mem_keys_add, List.map_cons, List.mem_cons,
      or_assoc]
    rfl

@[simp] theorem mem_keys_addNewAll :
    k ∈ (s.addNewAll es).keys ↔ k ∈ s.keys ∨ k ∈ es.map PathEntry.key := by
  induction es generalizing s with
  | nil => simp [addNewAll]
  | cons e rest ih =>
    rw [addNewAll, List.foldl_cons, ← addNewAll, ih, mem_keys_addNew, List.map_cons,
      List.mem_cons, or_assoc]

@[simp] theorem mem_keys_removeAll :
    k ∈ (s.removeAll ps).keys ↔ k ∈ s.keys ∧ k ∉ ps.map Path.key := by
  induction ps generalizing s with
  | nil => simp [removeAll]
  | cons p rest ih =>
    rw [removeAll, List.foldl_cons, ← removeAll, ih, mem_keys_remove, List.map_cons,
      List.mem_cons, not_or, and_assoc]

instance : RightCommutative PathSet.remove where
  right_comm s p q := by
    simp only [remove, List.filter_filter, Bool.and_comm]

theorem removeAll_append : s.removeAll (ps ++ qs) = (s.removeAll ps).removeAll qs :=
  List.foldl_append

theorem removeAll_comm : (s.removeAll ps).removeAll qs = (s.removeAll qs).removeAll ps := by
  rw [← removeAll_append, ← removeAll_append]
  exact List.perm_append_comm.foldl_eq s

theorem removeAll_of_disjoint (h : ∀ p ∈ ps, p.key ∉ s.keys) : s.removeAll ps = s := by
  induction ps with
  | nil => rfl
  | cons p rest ih =>
    obtain ⟨hp, hrest⟩ := List.forall_mem_cons.1 h
    rw [removeAll, List.foldl_cons, remove_of_notMem hp]
    exact ih hrest

/-- Adding a path that is there changes nothing, not even its flag. -/
theorem add_of_mem (h : p.key ∈ s.keys) : s.add p false = s := by
  rw [add, if_pos (contains_iff.2 h)]
  simp only [Bool.or_false, ite_self, List.map_id']

theorem addPaths_of_mem (h : ∀ p ∈ ps, p.key ∈ s.keys) : s.addPaths ps = s := by
  induction ps with
  | nil => rfl
  | cons p rest ih =>
    obtain ⟨hp, hrest⟩ := List.forall_mem_cons.1 h
    rw [addPaths, List.foldl_cons, add_of_mem hp]
    exact ih hrest

/-- Paths of new and different keys come after what is there. -/
theorem addNewAll_of_disjoint (hnodup : (es.map PathEntry.key).Nodup)
    (h : ∀ e ∈ es, e.key ∉ s.keys) : s.addNewAll es = ⟨s.entries ++ es⟩ := by
  induction es generalizing s with
  | nil => rw [List.append_nil]; rfl
  | cons e rest ih =>
    obtain ⟨he, hrest⟩ := List.forall_mem_cons.1 h
    rw [List.map_cons, List.nodup_cons] at hnodup
    have hadd : s.addNew e = ⟨s.entries ++ [e]⟩ := by
      rw [addNew, if_neg (mt contains_iff.1 he), add_of_notMem he]
    rw [addNewAll, List.foldl_cons, ← addNewAll, hadd, ih hnodup.2 fun x hx => ?_]
    · rw [List.append_assoc, List.singleton_append]
    · rw [keys, List.map_append, List.mem_append, not_or]
      refine ⟨hrest x hx, fun hxe => hnodup.1 ?_⟩
      have heq : x.key = e.key := List.mem_singleton.1 hxe
      exact heq ▸ List.mem_map_of_mem hx

theorem addNewAll_empty (h : s.keys.Nodup) : empty.addNewAll s.entries = s := by
  rw [addNewAll_of_disjoint h fun _ _ => List.not_mem_nil]
  rfl

theorem addPaths_eq_addNewAll (hnodup : (ps.map Path.key).Nodup) (h : ∀ p ∈ ps, p.key ∉ s.keys) :
    s.addPaths ps = s.addNewAll (ps.map fun p => ⟨p, false⟩) := by
  induction ps generalizing s with
  | nil => rfl
  | cons p rest ih =>
    obtain ⟨hp, hrest⟩ := List.forall_mem_cons.1 h
    rw [List.map_cons, List.nodup_cons] at hnodup
    have hadd : s.addNew ⟨p, false⟩ = s.add p false := by
      rw [addNew, if_neg (mt contains_iff.1 hp)]
    rw [List.map_cons, addNewAll, List.foldl_cons, hadd, ← addNewAll, addPaths, List.foldl_cons,
      ← addPaths, ih hnodup.2 fun q hq => ?_]
    rw [mem_keys_add, not_or]
    exact ⟨hrest q hq, fun hqp => hnodup.1 (hqp ▸ List.mem_map_of_mem hq)⟩

theorem addPaths_empty (h : s.keys.Nodup) (hflags : ∀ e ∈ s.entries, e.fresh = false) :
    empty.addPaths s.paths = s := by
  have hentries : s.paths.map (fun p => (⟨p, false⟩ : PathEntry)) = s.entries := by
    rw [paths, List.map_map]
    refine (List.map_congr_left fun e he => ?_).trans (List.map_id _)
    show (⟨e.path, false⟩ : PathEntry) = e
    rw [← hflags e he]
  rw [addPaths_eq_addNewAll (by rw [← keys_eq_map_paths]; exact h) fun _ _ => List.not_mem_nil,
    hentries, addNewAll_empty h]

/-! ## The entry of a path -/

theorem get?_isSome : (s.get? p).isSome = true ↔ p.key ∈ s.keys := by
  rw [get?, List.find?_isSome, keys, List.mem_map]
  simp only [beq_iff_eq]

theorem get?_eq_none : s.get? p = none ↔ p.key ∉ s.keys := by
  rw [← get?_isSome, Option.not_isSome_iff_eq_none]

theorem get?_key (h : s.get? p = some e) : e.key = p.key :=
  beq_iff_eq.1 (List.find?_some (p := fun e : PathEntry => e.key == p.key) h)

theorem get?_cons (e : PathEntry) (es : List PathEntry) (q : Path) :
    get? ⟨e :: es⟩ q = if e.key = q.key then some e else get? ⟨es⟩ q := by
  rw [get?, List.find?_cons]
  by_cases h : e.key = q.key
  · rw [if_pos h, h, beq_self_eq_true]
  · rw [if_neg h, beq_eq_false_iff_ne.2 h]
    rfl

theorem get?_add : (s.add e.path e.fresh).get? q =
    Option.merge PathEntry.refreshedBy (s.get? q) (if e.key = q.key then some e else none) := by
  by_cases hmem : e.path.key ∈ s.keys
  · have hget : (s.add e.path e.fresh).get? q = (s.get? q).map fun x =>
        if x.key == e.path.key then ⟨x.path, x.fresh || e.fresh⟩ else x := by
      rw [add, if_pos (contains_iff.2 hmem), get?, get?, List.find?_map]
      congr 2
      funext x
      show (PathEntry.key (if x.key == e.path.key then _ else x) == q.key) = (x.key == q.key)
      split <;> rfl
    rw [hget]
    cases hq : s.get? q with
    | none =>
      have hne : e.key ≠ q.key := fun heq => get?_eq_none.1 hq (heq ▸ hmem)
      rw [if_neg hne]
      rfl
    | some x =>
      have hkey : x.key = q.key := get?_key hq
      by_cases heq : e.key = q.key
      · have hbeq : (x.key == e.path.key) = true := beq_iff_eq.2 (hkey.trans heq.symm)
        rw [if_pos heq, Option.map_some, if_pos hbeq]
        rfl
      · have hbne : ¬ (x.key == e.path.key) = true := fun h =>
          heq ((beq_iff_eq.1 h).symm.trans hkey)
        rw [if_neg heq, Option.map_some, if_neg hbne]
        rfl
  · have hget : (s.add e.path e.fresh).get? q = (s.get? q).or (get? ⟨[e]⟩ q) := by
      rw [add_of_notMem hmem, get?, List.find?_append]
      rfl
    rw [hget, get?_cons]
    by_cases heq : e.key = q.key
    · have hq : s.get? q = none := get?_eq_none.2 (heq ▸ hmem)
      rw [hq, if_pos heq, if_pos heq]
      rfl
    · rw [if_neg heq, if_neg heq]
      cases s.get? q <;> rfl

/-- Of the paths that are added only where they are new, a path keeps the entry it has. -/
theorem get?_addNewAll : (s.addNewAll es).get? q = (s.get? q).or (get? ⟨es⟩ q) := by
  induction es generalizing s with
  | nil => cases h : s.get? q <;> exact h
  | cons e rest ih =>
    rw [addNewAll, List.foldl_cons, ← addNewAll, ih, get?_cons, addNew]
    by_cases hmem : s.contains e.path = true
    · rw [if_pos hmem]
      by_cases heq : e.key = q.key
      · have hsome : (s.get? q).isSome = true := get?_isSome.2 (heq ▸ contains_iff.1 hmem)
        obtain ⟨x, hx⟩ := Option.isSome_iff_exists.1 hsome
        rw [hx, Option.some_or, Option.some_or]
      · rw [if_neg heq]
    · rw [if_neg hmem, get?_add]
      by_cases heq : e.key = q.key
      · have hnone : s.get? q = none := get?_eq_none.2 (heq ▸ mt contains_iff.2 hmem)
        rw [hnone, if_pos heq, if_pos heq]
        rfl
      · rw [if_neg heq, if_neg heq]
        cases s.get? q <;> rfl

/-- Of the paths that are added in any case, each passes its flag on to the entry that is there. -/
theorem get?_addAll (h : (es.map PathEntry.key).Nodup) : (s.addAll es).get? q =
    Option.merge PathEntry.refreshedBy (s.get? q) (get? ⟨es⟩ q) := by
  induction es generalizing s with
  | nil => cases h : s.get? q <;> exact h
  | cons e rest ih =>
    rw [List.map_cons, List.nodup_cons] at h
    rw [addAll, List.foldl_cons, ← addAll, ih h.2, get?_cons, get?_add]
    by_cases heq : e.key = q.key
    · have hrest : get? ⟨rest⟩ q = none := get?_eq_none.2 (heq ▸ h.1)
      rw [hrest, if_pos heq]
      cases s.get? q <;> rfl
    · rw [if_neg heq, if_neg heq]
      cases s.get? q <;> rfl

/-! ## Fresh values -/

/-- Whether a fresh value was added for the key. -/
def freshAt (s : PathSet) (k : String) : Bool :=
  s.entries.any fun e => e.key == k && e.fresh

theorem freshAt_iff : s.freshAt k = true ↔ ∃ e ∈ s.entries, e.key = k ∧ e.fresh = true := by
  simp only [freshAt, List.any_eq_true, Bool.and_eq_true, beq_iff_eq]

theorem mem_keys_of_freshAt (h : s.freshAt k = true) : k ∈ s.keys := by
  obtain ⟨e, he, rfl, _⟩ := freshAt_iff.1 h
  exact List.mem_map_of_mem he

theorem freshAt_eq_false (h : k ∉ s.keys) : s.freshAt k = false :=
  Bool.eq_false_iff.2 fun hfresh => h (mem_keys_of_freshAt hfresh)

theorem freshAt_add :
    (s.add p b).freshAt k = true ↔ s.freshAt k = true ∨ (k = p.key ∧ b = true) := by
  by_cases h : p.key ∈ s.keys
  · obtain ⟨e, he, hek⟩ := List.mem_map.1 h
    rw [freshAt_iff, freshAt_iff, add, if_pos (contains_iff.2 h)]
    simp only [List.mem_map]
    constructor
    · rintro ⟨_, ⟨x, hx, rfl⟩, hxk, hf⟩
      by_cases hxp : x.key = p.key
      · rw [if_pos (beq_iff_eq.2 hxp)] at hxk hf
        rcases Bool.or_eq_true_iff.1 hf with hf | hf
        · exact .inl ⟨x, hx, hxk, hf⟩
        · exact .inr ⟨hxk ▸ hxp, hf⟩
      · rw [if_neg (mt beq_iff_eq.1 hxp)] at hxk hf
        exact .inl ⟨x, hx, hxk, hf⟩
    · rintro (⟨x, hx, rfl, hf⟩ | ⟨rfl, hb⟩)
      · refine ⟨_, ⟨x, hx, rfl⟩, ?_⟩
        split
        · exact ⟨rfl, by rw [hf]; rfl⟩
        · exact ⟨rfl, hf⟩
      · refine ⟨_, ⟨e, he, rfl⟩, ?_⟩
        rw [if_pos (beq_iff_eq.2 hek)]
        exact ⟨hek, by rw [hb, Bool.or_true]⟩
  · rw [freshAt_iff, freshAt_iff, add_of_notMem h, exists_mem_concat]
    exact or_congr_right (and_congr_left' eq_comm)

theorem freshAt_addNew :
    (s.addNew e).freshAt k = true ↔
      s.freshAt k = true ∨ (k ∉ s.keys ∧ k = e.key ∧ e.fresh = true) := by
  rw [addNew]
  by_cases h : s.contains e.path
  · rw [if_pos h]
    refine ⟨.inl, fun hk => hk.elim id ?_⟩
    rintro ⟨hk, rfl, _⟩
    exact absurd (contains_iff.1 h) hk
  · rw [if_neg h, freshAt_add]
    refine or_congr_right ⟨?_, fun hk => hk.2⟩
    rintro ⟨rfl, hb⟩
    exact ⟨mt contains_iff.2 h, rfl, hb⟩

theorem freshAt_addAll :
    (s.addAll es).freshAt k = true ↔
      s.freshAt k = true ∨ ∃ e ∈ es, e.key = k ∧ e.fresh = true := by
  induction es generalizing s with
  | nil => simp [addAll]
  | cons e rest ih =>
    rw [addAll, List.foldl_cons, ← addAll, ih, freshAt_add, or_assoc, List.exists_mem_cons_iff]
    exact or_congr_right (or_congr_left (and_congr_left' eq_comm))

/-- Of the paths that are added only where they are new, the first of each key counts. -/
theorem freshAt_addNewAll (hes : (es.map PathEntry.key).Nodup) :
    (s.addNewAll es).freshAt k = true ↔
      s.freshAt k = true ∨ (k ∉ s.keys ∧ ∃ e ∈ es, e.key = k ∧ e.fresh = true) := by
  induction es generalizing s with
  | nil => simp [addNewAll]
  | cons e rest ih =>
    rw [List.map_cons, List.nodup_cons] at hes
    rw [addNewAll, List.foldl_cons, ← addNewAll, ih hes.2, freshAt_addNew, mem_keys_addNew, or_assoc]
    refine or_congr_right ⟨?_, ?_⟩
    · rintro (⟨hk, rfl, hf⟩ | ⟨hk, x, hx, hxk, hf⟩)
      · exact ⟨hk, e, List.mem_cons_self, rfl, hf⟩
      · exact ⟨fun h => hk (.inl h), x, List.mem_cons_of_mem _ hx, hxk, hf⟩
    · rintro ⟨hk, x, hx, rfl, hf⟩
      rcases List.mem_cons.1 hx with rfl | hx
      · exact .inl ⟨hk, rfl, hf⟩
      · refine .inr ⟨?_, x, hx, rfl, hf⟩
        rintro (h | h)
        · exact hk h
        · exact hes.1 (h ▸ List.mem_map_of_mem hx)

/-! ## What holds of every member -/

/-- The members satisfy `P`, and no two have the same key. -/
structure Holds (P : PathEntry → Prop) (s : PathSet) : Prop where
  nodup : s.keys.Nodup
  all : ∀ e ∈ s.entries, P e

instance [DecidablePred P] (s : PathSet) : Decidable (s.Holds P) :=
  decidable_of_iff (s.keys.Nodup ∧ ∀ e ∈ s.entries, P e)
    ⟨fun h => ⟨h.1, h.2⟩, fun h => ⟨h.nodup, h.all⟩⟩

namespace Holds

theorem empty : Holds P PathSet.empty :=
  ⟨List.nodup_nil, List.forall_mem_nil _⟩

theorem add (h : Holds P s) (hp : P ⟨p, b⟩) (hb : ∀ e, P e → P ⟨e.path, e.fresh || b⟩) :
    Holds P (s.add p b) := by
  by_cases hk : p.key ∈ s.keys
  · refine ⟨by rw [keys_add_of_mem hk]; exact h.nodup, ?_⟩
    rw [PathSet.add, if_pos (contains_iff.2 hk)]
    intro e he
    obtain ⟨x, hx, rfl⟩ := List.mem_map.1 he
    split
    · exact hb x (h.all x hx)
    · exact h.all x hx
  · refine ⟨?_, ?_⟩
    · rw [keys_add_of_notMem hk]
      exact List.nodup_append.2 ⟨h.nodup, by simp, by
        rintro x hx y hy rfl
        exact hk (List.mem_singleton.1 hy ▸ hx)⟩
    · rw [add_of_notMem hk]
      intro e he
      rcases List.mem_append.1 he with he | he
      · exact h.all e he
      · exact List.mem_singleton.1 he ▸ hp

theorem remove (h : Holds P s) : Holds P (s.remove p) :=
  ⟨h.nodup.sublist (List.filter_sublist.map _), fun e he => h.all e (List.mem_filter.1 he).1⟩

theorem addPaths (h : Holds P s) (hps : ∀ p ∈ ps, P ⟨p, false⟩) : Holds P (s.addPaths ps) := by
  induction ps generalizing s with
  | nil => exact h
  | cons p rest ih =>
    obtain ⟨hp, hrest⟩ := List.forall_mem_cons.1 hps
    refine ih (h.add hp fun e he => ?_) hrest
    rwa [Bool.or_false]

theorem addAll (h : Holds P s) (hes : ∀ e ∈ es, P e)
    (hb : ∀ e b, P e → P ⟨e.path, e.fresh || b⟩) : Holds P (s.addAll es) := by
  induction es generalizing s with
  | nil => exact h
  | cons e rest ih =>
    obtain ⟨he, hrest⟩ := List.forall_mem_cons.1 hes
    exact ih (h.add he fun x hx => hb x _ hx) hrest

theorem addNewAll (h : Holds P s) (hes : ∀ e ∈ es, P e)
    (hb : ∀ e b, P e → P ⟨e.path, e.fresh || b⟩) : Holds P (s.addNewAll es) := by
  induction es generalizing s with
  | nil => exact h
  | cons e rest ih =>
    obtain ⟨he, hrest⟩ := List.forall_mem_cons.1 hes
    refine ih ?_ hrest
    unfold addNew
    split
    · exact h
    · exact h.add he fun x hx => hb x _ hx

theorem removeAll (h : Holds P s) : Holds P (s.removeAll ps) := by
  induction ps generalizing s with
  | nil => exact h
  | cons p rest ih => exact ih h.remove

/-- With different keys, the entry of a path is the only one that counts. -/
theorem get?_fresh (h : Holds P s) (p : Path) :
    ((s.get? p).map (·.fresh)).getD false = s.freshAt p.key := by
  rw [Bool.eq_iff_iff, freshAt_iff]
  constructor
  · intro hf
    cases hg : s.get? p with
    | none => rw [hg] at hf; cases hf
    | some e =>
      rw [hg] at hf
      have hkey : e.key == p.key := List.find?_some (p := fun e : PathEntry => e.key == p.key) hg
      exact ⟨e, List.mem_of_find?_eq_some hg, beq_iff_eq.1 hkey, hf⟩
  · rintro ⟨e, he, hek, hf⟩
    have hg : s.get? p = some e := by
      obtain ⟨before, after, hs⟩ := List.append_of_mem he
      have hn := h.nodup
      rw [keys, hs, List.map_append, List.map_cons] at hn
      have hbefore : ∀ x ∈ before, ¬ (x.key == p.key) = true := by
        intro x hx hxk
        rw [beq_iff_eq, ← hek] at hxk
        exact (List.nodup_append.1 hn).2.2 _ (List.mem_map_of_mem hx) _ List.mem_cons_self hxk
      rw [get?, hs, List.find?_append, List.find?_eq_none.2 hbefore, Option.none_or,
        List.find?_cons_of_pos (by rw [hek]; exact beq_self_eq_true _)]
    rw [hg]
    exact hf

end Holds

end PathSet

end Sessions
