import Mathlib.Logic.Function.Basic
import Mathlib.Data.List.Nodup
import Sessions.Proofs.Facts.History
import Sessions.Proofs.Text.Lookup

/-!
# Sessions.Proofs.Facts.Memory

Path sets as they lie in memory. A set keeps its keys at the start of an array, and a map from each
key to the address of its entry. A key is taken out of the array in place, one that is added goes
into the room that the array has to spare, or else into a new array; entries are changed through
their addresses, and a copy gets an array, a map and entries of its own.

* `Represents μ h s` — the memory `μ` holds the set `s` at the handle `h`. Adding, removing and
  copying keep it (`Represents.add`, `Represents.remove`, `Represents.copy`).
* `Touches μ h ν g` — a step from `h` to `g` changes nothing but what `h` owns.
-/

namespace Sessions

/-- What is left to whoever runs a program: how much room the new array at an address has to spare,
and in which order a map is read when the next free address is this one. -/
structure Runtime where
  spare : Nat → Nat
  order : Nat → List (String × Nat) → List (String × Nat)
  perm : ∀ a m, (order a m).Perm m

/-- No room to spare, and maps in the order in which they are written down. -/
instance : Inhabited Runtime := ⟨⟨fun _ => 0, fun _ m => m, fun _ _ => .refl _⟩⟩

/-- Arrays, maps and entries by their addresses. The addresses from `free` on are not in use. -/
structure Memory where
  arrays : Nat → List String
  maps : Nat → List (String × Nat)
  cells : Nat → PathEntry
  free : Nat

/-- A path set in memory: its keys are the first so many of its array. -/
structure Handle where
  array : Nat
  size : Nat
  map : Nat

namespace Memory

/-! ## Reading -/

def keys (μ : Memory) (h : Handle) : List String :=
  (μ.arrays h.array).take h.size

/-- The address of a key's entry. -/
def pointer? (μ : Memory) (h : Handle) (k : String) : Option Nat :=
  (μ.maps h.map).lookup k

def cell? (μ : Memory) (h : Handle) (k : String) : Option PathEntry :=
  (μ.pointer? h k).map μ.cells

/-- The entries in the order of the keys; nothing for a key that the map does not have. -/
def entries (μ : Memory) (h : Handle) : List (Option PathEntry) :=
  (μ.keys h).map (μ.cell? h)

/-- The paths in the order of the keys, which cannot be read if an entry is not there. -/
def paths? (μ : Memory) (h : Handle) : Option (List Path) :=
  (μ.entries h).mapM (Option.map PathEntry.path)

def texts? (μ : Memory) (h : Handle) : Option (List String) :=
  (μ.entries h).mapM (Option.map fun e => e.path.render)

def get? (μ : Memory) (h : Handle) (p : Path) : Option PathEntry :=
  μ.cell? h p.key

def contains (μ : Memory) (h : Handle) (p : Path) : Bool :=
  (μ.pointer? h p.key).isSome

/-! ## Writing -/

/-- Puts the keys into a new array with some room to spare. -/
def newArray (R : Runtime) (μ : Memory) (ks : List String) : Memory :=
  { μ with
    arrays := Function.update μ.arrays μ.free (ks ++ List.replicate (R.spare μ.free) "")
    free := μ.free + 1 }

def newMap (μ : Memory) : Memory :=
  { μ with maps := Function.update μ.maps μ.free [], free := μ.free + 1 }

def newCell (μ : Memory) (e : PathEntry) : Memory :=
  { μ with cells := Function.update μ.cells μ.free e, free := μ.free + 1 }

def setArray (μ : Memory) (a : Nat) (ks : List String) : Memory :=
  { μ with arrays := Function.update μ.arrays a ks }

def setMap (μ : Memory) (a : Nat) (m : List (String × Nat)) : Memory :=
  { μ with maps := Function.update μ.maps a m }

def setCell (μ : Memory) (a : Nat) (e : PathEntry) : Memory :=
  { μ with cells := Function.update μ.cells a e }

/-- Gives the map at `b` one more key, with an entry of its own. -/
def insert (μ : Memory) (b : Nat) (k : String) (e : PathEntry) : Memory :=
  (μ.newCell e).setMap b ((k, μ.free) :: μ.maps b)

/-- Adds a key behind the others: in place if the array has room. -/
def pushKey (R : Runtime) (μ : Memory) (h : Handle) (k : String) : Memory × Handle :=
  if h.size < (μ.arrays h.array).length then
    (μ.setArray h.array ((μ.arrays h.array).set h.size k), { h with size := h.size + 1 })
  else
    (μ.newArray R (μ.keys h ++ [k]), { h with array := μ.free, size := h.size + 1 })

/-- Takes a key out in place: the keys behind it move up. -/
def dropKey (μ : Memory) (h : Handle) (k : String) : Memory × Handle :=
  match (μ.keys h).idxOf? k with
  | none => (μ, h)
  | some i =>
    let a := μ.arrays h.array
    (μ.setArray h.array (a.take i ++ (μ.keys h).drop (i + 1) ++ a.drop (h.size - 1)),
      { h with size := h.size - 1 })

/-- Adds a path. The entry of a path that is there is changed where it lies. -/
def add (R : Runtime) (μ : Memory) (h : Handle) (p : Path) (fresh : Bool) : Memory × Handle :=
  match μ.pointer? h p.key with
  | some a => (μ.setCell a ⟨(μ.cells a).path, (μ.cells a).fresh || fresh⟩, h)
  | none =>
    let (ν, g) := μ.pushKey R h p.key
    (ν.insert g.map p.key ⟨p, fresh⟩, g)

/-- Takes a path out, if it is there. -/
def remove (μ : Memory) (h : Handle) (p : Path) : Memory × Handle :=
  match μ.pointer? h p.key with
  | none => (μ, h)
  | some _ =>
    (μ.setMap h.map ((μ.maps h.map).filter fun x => x.1 != p.key)).dropKey h p.key

/-- Gives the map at `b` these keys, with copies of their entries. -/
def copyEntries (b : Nat) : List (String × Nat) → Memory → Memory
  | [], μ => μ
  | (k, a) :: rest, μ => copyEntries b rest (μ.insert b k (μ.cells a))

def copy (R : Runtime) (μ : Memory) (h : Handle) : Memory × Handle :=
  (copyEntries (μ.free + 1) (R.order μ.free (μ.maps h.map)) (μ.newArray R (μ.keys h)).newMap,
    ⟨μ.free, h.size, μ.free + 1⟩)

variable {μ ν ξ : Memory} {g h j : Handle} {s : PathSet} {p : Path} {k : String} {a : Nat}
  {ks : List String} {fresh : Bool} {R : Runtime}

/-! ## One set -/

/-- The addresses of the entries. -/
def pointers (μ : Memory) (h : Handle) : List Nat :=
  (μ.maps h.map).map Prod.snd

/-- The array has these keys at its start. -/
structure HoldsKeys (μ : Memory) (h : Handle) (ks : List String) : Prop where
  size : h.size ≤ (μ.arrays h.array).length
  keys : μ.keys h = ks
  below : h.array < μ.free

/-- The map has the keys of the set and leads to its entries. -/
structure HoldsEntries (μ : Memory) (h : Handle) (s : PathSet) : Prop where
  domain : ((μ.maps h.map).map Prod.fst).Perm s.keys
  entry : ∀ e ∈ s.entries, μ.cell? h e.key = some e
  below : h.map < μ.free
  pointers : ∀ a ∈ μ.pointers h, a < μ.free

/-- The set lies in the memory. -/
structure Represents (μ : Memory) (h : Handle) (s : PathSet) : Prop where
  nodup : s.keys.Nodup
  keys : μ.HoldsKeys h s.keys
  entries : μ.HoldsEntries h s

theorem mem_pointers_of_pointer? (hk : μ.pointer? h k = some a) : a ∈ μ.pointers h :=
  List.mem_map.2 ⟨(k, a), Text.mem_of_lookup hk, rfl⟩

namespace HoldsEntries

variable (H : μ.HoldsEntries h s)
include H

theorem pointer?_isSome_iff (k : String) : (μ.pointer? h k).isSome = true ↔ k ∈ s.keys := by
  rw [pointer?, Text.lookup_isSome_iff, H.domain.mem_iff]

theorem pointer?_eq_none_iff (k : String) : μ.pointer? h k = none ↔ k ∉ s.keys := by
  rw [← H.pointer?_isSome_iff, Option.not_isSome_iff_eq_none]

/-- What the address of a key leads to. -/
theorem cell_of_pointer? (hk : μ.pointer? h k = some a) :
    μ.cells a ∈ s.entries ∧ (μ.cells a).key = k := by
  have hmem : k ∈ s.keys := (H.pointer?_isSome_iff k).1 (by rw [hk]; rfl)
  obtain ⟨e, he, rfl⟩ := List.mem_map.1 hmem
  have hentry := H.entry e he
  rw [cell?, hk] at hentry
  cases hentry
  exact ⟨he, rfl⟩

end HoldsEntries

namespace Represents

variable (H : μ.Represents h s)
include H

theorem entries_eq : μ.entries h = s.entries.map some := by
  rw [Memory.entries, H.keys.keys, PathSet.keys, List.map_map]
  exact List.map_congr_left fun e he => H.entries.entry e he

theorem get?_eq (p : Path) : μ.get? h p = s.get? p := by
  cases hp : s.get? p with
  | none =>
    rw [PathSet.get?_eq_none] at hp
    rw [get?, cell?, (H.entries.pointer?_eq_none_iff p.key).2 hp]
    rfl
  | some e =>
    rw [get?, ← PathSet.get?_key hp]
    exact H.entries.entry e (List.mem_of_find?_eq_some hp)

theorem contains_eq (p : Path) : μ.contains h p = s.contains p := by
  rw [Bool.eq_iff_iff, PathSet.contains_iff, contains, H.entries.pointer?_isSome_iff]

theorem mapM_entries {α : Type} (f : PathEntry → α) :
    (μ.entries h).mapM (Option.map f) = some (s.entries.map f) := by
  rw [H.entries_eq]
  induction s.entries with
  | nil => rfl
  | cons e rest ih =>
    rw [List.map_cons, List.mapM_cons, ih]
    rfl

end Represents

theorem pointers_setMap (m : List (String × Nat)) :
    (μ.setMap h.map m).pointers h = m.map Prod.snd := by
  rw [pointers]
  exact congrArg _ (Function.update_self _ _ _)

theorem pointers_insert (k : String) (e : PathEntry) :
    (μ.insert h.map k e).pointers h = μ.free :: μ.pointers h :=
  pointers_setMap _

/-! ## What a step may change -/

/-- The step from `h` to `g` leaves alone what is in use and not owned by `h`. -/
structure Touches (μ : Memory) (h : Handle) (ν : Memory) (g : Handle) : Prop where
  free : μ.free ≤ ν.free
  arrays : ∀ x < μ.free, x ≠ h.array → ν.arrays x = μ.arrays x
  maps : ∀ x < μ.free, x ≠ h.map → ν.maps x = μ.maps x
  cells : ∀ x < μ.free, x ∉ μ.pointers h → ν.cells x = μ.cells x
  array : g.array = h.array ∨ μ.free ≤ g.array
  map : g.map = h.map ∨ μ.free ≤ g.map
  pointers : ∀ x ∈ ν.pointers g, x ∈ μ.pointers h ∨ μ.free ≤ x

theorem Touches.refl (μ : Memory) (h : Handle) : μ.Touches h μ h :=
  ⟨le_rfl, fun _ _ _ => rfl, fun _ _ _ => rfl, fun _ _ _ => rfl, .inl rfl, .inl rfl,
    fun _ hx => .inl hx⟩

-- What `g` owns was owned by `h` or is new, so the second step leaves alone what the first one did.
theorem Touches.trans (H : μ.Touches h ν g) (H' : ν.Touches g ξ j) : μ.Touches h ξ j where
  free := H.free.trans H'.free
  arrays x hx hne := by
    have hne' : x ≠ g.array := by
      rcases H.array with he | he
      · rwa [he]
      · omega
    rw [H'.arrays x (hx.trans_le H.free) hne', H.arrays x hx hne]
  maps x hx hne := by
    have hne' : x ≠ g.map := by
      rcases H.map with he | he
      · rwa [he]
      · omega
    rw [H'.maps x (hx.trans_le H.free) hne', H.maps x hx hne]
  cells x hx hne := by
    have hne' : x ∉ ν.pointers g := fun hp => (H.pointers x hp).elim hne (by omega)
    rw [H'.cells x (hx.trans_le H.free) hne', H.cells x hx hne]
  array := by
    rcases H'.array with he | he
    · rw [he]; exact H.array
    · exact .inr (H.free.trans he)
  map := by
    rcases H'.map with he | he
    · rw [he]; exact H.map
    · exact .inr (H.free.trans he)
  pointers x hx := (H'.pointers x hx).elim (H.pointers x) fun hx => .inr (H.free.trans hx)

theorem touches_setArray (ks : List String) (n : Nat) :
    μ.Touches h (μ.setArray h.array ks) { h with size := n } :=
  { Touches.refl μ h with arrays := fun _ _ hne => Function.update_of_ne hne _ _ }

theorem touches_newArray (R : Runtime) (ks : List String) (n : Nat) :
    μ.Touches h (μ.newArray R ks) { h with array := μ.free, size := n } :=
  { Touches.refl μ h with
    free := Nat.le_succ _
    arrays := fun _ hx _ => Function.update_of_ne hx.ne _ _
    array := .inr le_rfl }

theorem touches_setCell (e : PathEntry) (ha : a ∈ μ.pointers h) : μ.Touches h (μ.setCell a e) h :=
  { Touches.refl μ h with
    cells := fun _ _ hx => Function.update_of_ne (by rintro rfl; exact hx ha) _ _ }

theorem touches_setMap {m : List (String × Nat)} (hm : ∀ x ∈ m.map Prod.snd, x ∈ μ.pointers h) :
    μ.Touches h (μ.setMap h.map m) h :=
  { Touches.refl μ h with
    maps := fun _ _ hne => Function.update_of_ne hne _ _
    pointers := fun x hx => by
      rw [pointers_setMap] at hx
      exact .inl (hm x hx) }

theorem touches_insert (k : String) (e : PathEntry) : μ.Touches h (μ.insert h.map k e) h :=
  { Touches.refl μ h with
    free := Nat.le_succ _
    maps := fun _ _ hne => Function.update_of_ne hne _ _
    cells := fun _ hx _ => Function.update_of_ne hx.ne _ _
    pointers := fun x hx => by
      rw [pointers_insert, List.mem_cons] at hx
      exact hx.symm.imp id fun hx => hx.ge }

/-! ## Adding -/

theorem HoldsKeys.length (H : μ.HoldsKeys h ks) : ks.length = h.size := by
  have hkeys : (μ.arrays h.array).take h.size = ks := H.keys
  rw [← hkeys, List.length_take, min_eq_left H.size]

theorem HoldsKeys.congr (H : μ.HoldsKeys h ks) (harray : ν.arrays h.array = μ.arrays h.array)
    (hfree : μ.free ≤ ν.free) : ν.HoldsKeys h ks := by
  refine ⟨?_, ?_, H.below.trans_le hfree⟩
  · rw [harray]; exact H.size
  · rw [Memory.keys, harray]; exact H.keys

/-- An array that starts with the keys holds them. -/
theorem holdsKeys_of_prefix {n : Nat} (hn : ks.length = n) (ha : ks <+: μ.arrays h.array)
    (hbelow : h.array < μ.free) : μ.HoldsKeys { h with size := n } ks :=
  ⟨hn ▸ ha.length_le, (hn ▸ List.prefix_iff_eq_take.1 ha).symm, hbelow⟩

theorem holdsKeys_newArray (R : Runtime) {n : Nat} (hn : ks.length = n) (b : Nat) :
    (μ.newArray R ks).HoldsKeys ⟨μ.free, n, b⟩ ks := by
  refine holdsKeys_of_prefix (h := ⟨μ.free, n, b⟩) hn ?_ (Nat.lt_succ_self _)
  have harray : (μ.newArray R ks).arrays μ.free = _ := Function.update_self _ _ _
  rw [harray]
  exact List.prefix_append _ _

theorem HoldsKeys.pushKey (H : μ.HoldsKeys h ks) (R : Runtime) (k : String) :
    (μ.pushKey R h k).1.HoldsKeys (μ.pushKey R h k).2 (ks ++ [k]) := by
  have hlength : (ks ++ [k]).length = h.size + 1 := by
    rw [List.length_append, H.length, List.length_singleton]
  have hkeys : (μ.arrays h.array).take h.size = ks := H.keys
  rw [Memory.pushKey]
  split
  · next hroom =>
    refine holdsKeys_of_prefix hlength ?_ H.below
    have hset : (μ.arrays h.array).set h.size k =
        ks ++ [k] ++ (μ.arrays h.array).drop (h.size + 1) := by
      rw [List.set_eq_take_append_cons_drop, if_pos hroom, hkeys, List.append_assoc]
      rfl
    have harray : (μ.setArray h.array ((μ.arrays h.array).set h.size k)).arrays h.array = _ :=
      Function.update_self _ _ _
    rw [harray, hset]
    exact List.prefix_append _ _
  · rw [H.keys]
    exact holdsKeys_newArray R hlength _

theorem pushKey_touches (R : Runtime) (k : String) :
    μ.Touches h (μ.pushKey R h k).1 (μ.pushKey R h k).2 := by
  rw [pushKey]
  split
  · exact touches_setArray _ _
  · exact touches_newArray _ _ _

/-- Only arrays differ. -/
structure SameEntries (μ : Memory) (h : Handle) (ν : Memory) (g : Handle) : Prop where
  map : g.map = h.map
  maps : ν.maps = μ.maps
  cells : ν.cells = μ.cells
  free : μ.free ≤ ν.free

theorem pushKey_sameEntries (R : Runtime) (k : String) :
    μ.SameEntries h (μ.pushKey R h k).1 (μ.pushKey R h k).2 := by
  rw [pushKey]
  split
  · exact ⟨rfl, rfl, rfl, le_rfl⟩
  · exact ⟨rfl, rfl, rfl, Nat.le_succ _⟩

theorem HoldsEntries.congr (H : μ.HoldsEntries h s) (hν : μ.SameEntries h ν g) :
    ν.HoldsEntries g s := by
  have hpointers : ν.pointers g = μ.pointers h := by
    rw [Memory.pointers, Memory.pointers, hν.map, hν.maps]
  refine ⟨?_, fun e he => ?_, ?_, fun a ha => ?_⟩
  · rw [hν.map, hν.maps]; exact H.domain
  · rw [cell?, pointer?, hν.map, hν.maps, hν.cells]; exact H.entry e he
  · rw [hν.map]; exact H.below.trans_le hν.free
  · rw [hpointers] at ha; exact (H.pointers a ha).trans_le hν.free

theorem pointer?_insert (k k' : String) (e : PathEntry) :
    (μ.insert h.map k e).pointer? h k' = if k' = k then some μ.free else μ.pointer? h k' := by
  have hmaps : (μ.insert h.map k e).maps h.map = (k, μ.free) :: μ.maps h.map :=
    Function.update_self _ _ _
  rw [pointer?, pointer?, hmaps, List.lookup_cons]
  by_cases hk : k' = k
  · rw [if_pos hk, hk, beq_self_eq_true]
  · rw [if_neg hk, beq_eq_false_iff_ne.2 hk]

/-- A new key with its entry. -/
theorem HoldsEntries.insert (H : μ.HoldsEntries h s) {e : PathEntry} (hk : e.key ∉ s.keys) :
    (μ.insert h.map e.key e).HoldsEntries h ⟨s.entries ++ [e]⟩ where
  domain := by
    have hmaps : (μ.insert h.map e.key e).maps h.map = (e.key, μ.free) :: μ.maps h.map :=
      Function.update_self _ _ _
    rw [hmaps, List.map_cons, PathSet.keys, List.map_append]
    exact (H.domain.cons _).trans (List.perm_append_singleton _ _).symm
  entry x hx := by
    rw [cell?, pointer?_insert]
    rcases List.mem_append.1 hx with hx | hx
    · have hne : x.key ≠ e.key := fun h => hk (h ▸ List.mem_map_of_mem hx)
      have hentry := H.entry x hx
      rw [cell?, Option.map_eq_some_iff] at hentry
      obtain ⟨a, ha, hcell⟩ := hentry
      have hold : a ≠ μ.free := (H.pointers a (mem_pointers_of_pointer? ha)).ne
      rw [if_neg hne, ha, Option.map_some, ← hcell]
      exact congrArg some (Function.update_of_ne hold _ _)
    · rw [List.mem_singleton.1 hx, if_pos rfl, Option.map_some]
      exact congrArg some (Function.update_self _ _ _)
  below := H.below.trans (Nat.lt_succ_self _)
  pointers a ha := by
    rw [pointers_insert, List.mem_cons] at ha
    rcases ha with rfl | ha
    · exact Nat.lt_succ_self _
    · exact (H.pointers a ha).trans (Nat.lt_succ_self _)

theorem cell?_setCell_self (hk : μ.pointer? h k = some a) (e : PathEntry) :
    (μ.setCell a e).cell? h k = some e := by
  have hpointer : (μ.setCell a e).pointer? h k = some a := hk
  rw [cell?, hpointer, Option.map_some]
  exact congrArg some (Function.update_self _ _ _)

theorem cell?_setCell_of_ne (hk : μ.pointer? h k ≠ some a) (e : PathEntry) :
    (μ.setCell a e).cell? h k = μ.cell? h k := by
  refine Option.map_congr fun b hb => ?_
  have hne : b ≠ a := by
    rintro rfl
    exact hk hb
  exact Function.update_of_ne hne _ _

/-- The entry of a key is changed where it lies. -/
theorem HoldsEntries.refresh (H : μ.HoldsEntries h s) (hp : μ.pointer? h p.key = some a) :
    (μ.setCell a ⟨(μ.cells a).path, (μ.cells a).fresh || fresh⟩).HoldsEntries h
      (s.add p fresh) := by
  have hmem : p.key ∈ s.keys := (H.pointer?_isSome_iff p.key).1 (by rw [hp]; rfl)
  refine ⟨?_, fun x hx => ?_, H.below, H.pointers⟩
  · rw [PathSet.keys_add_of_mem hmem]
    exact H.domain
  · rw [PathSet.add, if_pos (PathSet.contains_iff.2 hmem)] at hx
    obtain ⟨e, he, rfl⟩ := List.mem_map.1 hx
    have hentry := H.entry e he
    by_cases hk : e.key = p.key
    · have hpointer : μ.pointer? h e.key = some a := hk ▸ hp
      obtain rfl : μ.cells a = e := by
        rw [cell?, hpointer] at hentry
        exact Option.some.inj hentry
      rw [if_pos (beq_iff_eq.2 hk)]
      exact cell?_setCell_self hpointer _
    · have hpointer : μ.pointer? h e.key ≠ some a := fun ha =>
        hk ((H.cell_of_pointer? ha).2.symm.trans (H.cell_of_pointer? hp).2)
      rw [if_neg (by simpa using hk), cell?_setCell_of_ne hpointer]
      exact hentry

theorem Represents.add (H : μ.Represents h s) (R : Runtime) (p : Path) (fresh : Bool) :
    (μ.add R h p fresh).1.Represents (μ.add R h p fresh).2 (s.add p fresh) := by
  rw [Memory.add]
  cases hp : μ.pointer? h p.key with
  | some a =>
    have hmem : p.key ∈ s.keys := (H.entries.pointer?_isSome_iff p.key).1 (by rw [hp]; rfl)
    have hkeys : (s.add p fresh).keys = s.keys := PathSet.keys_add_of_mem hmem
    exact ⟨hkeys ▸ H.nodup, hkeys ▸ H.keys.congr rfl le_rfl, H.entries.refresh hp⟩
  | none =>
    have hnew : p.key ∉ s.keys := (H.entries.pointer?_eq_none_iff p.key).1 hp
    rw [PathSet.add_of_notMem hnew]
    have hentries := H.entries.congr (pushKey_sameEntries R p.key)
    have hnodup : (s.keys ++ [p.key]).Nodup := by
      rw [← List.concat_eq_append, List.nodup_concat]
      exact ⟨hnew, H.nodup⟩
    have hkeys : PathSet.keys ⟨s.entries ++ [⟨p, fresh⟩]⟩ = s.keys ++ [p.key] := by
      rw [PathSet.keys, List.map_append]
      rfl
    refine ⟨hkeys ▸ hnodup, ?_, hentries.insert (e := ⟨p, fresh⟩) hnew⟩
    rw [hkeys]
    exact (H.keys.pushKey R p.key).congr rfl (Nat.le_succ _)

theorem add_touches (R : Runtime) (p : Path) (fresh : Bool) :
    μ.Touches h (μ.add R h p fresh).1 (μ.add R h p fresh).2 := by
  rw [Memory.add]
  cases hp : μ.pointer? h p.key with
  | some a => exact touches_setCell _ (mem_pointers_of_pointer? hp)
  | none => exact (pushKey_touches R p.key).trans (touches_insert _ _)

/-! ## Removing -/

theorem HoldsKeys.dropKey (H : μ.HoldsKeys h ks) (hk : k ∈ ks) :
    (μ.dropKey h k).1.HoldsKeys (μ.dropKey h k).2 (ks.erase k) := by
  have hkeys : (μ.arrays h.array).take h.size = ks := H.keys
  rw [Memory.dropKey, H.keys]
  cases hi : ks.idxOf? k with
  | none => exact absurd hk (List.idxOf?_eq_none_iff.1 hi)
  | some i =>
    have herase : ks.erase k = ks.take i ++ ks.drop (i + 1) := by
      rw [List.erase_eq_eraseIdx, hi]
      exact List.eraseIdx_eq_take_drop_succ _ _
    have hlength : (ks.erase k).length = h.size - 1 := by
      rw [List.length_erase_of_mem hk, H.length]
    have hle : i ≤ h.size := by
      obtain ⟨hlt, -⟩ := List.idxOf?_eq_some_iff.1 hi
      exact H.length ▸ hlt.le
    have htake : (μ.arrays h.array).take i = ks.take i := by
      rw [← hkeys, List.take_take, min_eq_left hle]
    have harray : (μ.setArray h.array ((μ.arrays h.array).take i ++ ks.drop (i + 1) ++
        (μ.arrays h.array).drop (h.size - 1))).arrays h.array = _ := Function.update_self _ _ _
    refine holdsKeys_of_prefix hlength ?_ H.below
    rw [harray, htake, ← herase]
    exact List.prefix_append _ _

theorem dropKey_touches (k : String) : μ.Touches h (μ.dropKey h k).1 (μ.dropKey h k).2 := by
  rw [dropKey]
  split
  · exact .refl μ h
  · exact touches_setArray _ _

theorem dropKey_sameEntries (k : String) :
    μ.SameEntries h (μ.dropKey h k).1 (μ.dropKey h k).2 := by
  rw [dropKey]
  split
  · exact ⟨rfl, rfl, rfl, le_rfl⟩
  · exact ⟨rfl, rfl, rfl, le_rfl⟩

theorem HoldsEntries.erase (H : μ.HoldsEntries h s) (p : Path) :
    (μ.setMap h.map ((μ.maps h.map).filter fun x => x.1 != p.key)).HoldsEntries h (s.remove p) where
  domain := by
    have hmaps : (μ.setMap h.map ((μ.maps h.map).filter fun x => x.1 != p.key)).maps h.map = _ :=
      Function.update_self _ _ _
    have hkeys : (s.remove p).keys = s.keys.filter fun k => k != p.key := by
      rw [PathSet.keys, PathSet.remove, PathSet.keys, List.filter_map]
      rfl
    have hdomain := H.domain.filter fun k => k != p.key
    rw [List.filter_map] at hdomain
    rw [hmaps, hkeys]
    exact hdomain
  entry e he := by
    obtain ⟨he, hne⟩ := List.mem_filter.1 he
    have hmaps : (μ.setMap h.map ((μ.maps h.map).filter fun x => x.1 != p.key)).maps h.map = _ :=
      Function.update_self _ _ _
    have hne : p.key ≠ e.key := by
      rintro heq
      simp [heq] at hne
    have hentry := H.entry e he
    rw [cell?, pointer?] at hentry ⊢
    rw [hmaps, Text.lookup_filter, if_neg hne]
    exact hentry
  below := H.below
  pointers a ha := by
    rw [pointers_setMap] at ha
    exact H.pointers a (List.map_subset _ (List.filter_subset_self _) ha)

theorem Represents.remove (H : μ.Represents h s) (p : Path) :
    (μ.remove h p).1.Represents (μ.remove h p).2 (s.remove p) := by
  rw [Memory.remove]
  cases hp : μ.pointer? h p.key with
  | none =>
    have habsent : p.key ∉ s.keys := (H.entries.pointer?_eq_none_iff p.key).1 hp
    rw [PathSet.remove_of_notMem habsent]
    exact H
  | some a =>
    have hmem : p.key ∈ s.keys := (H.entries.pointer?_isSome_iff p.key).1 (by rw [hp]; rfl)
    have hkeys : (s.remove p).keys = s.keys.erase p.key := by
      rw [H.nodup.erase_eq_filter, PathSet.keys, PathSet.remove, PathSet.keys, List.filter_map]
      rfl
    have hkept : (μ.setMap h.map ((μ.maps h.map).filter fun x => x.1 != p.key)).HoldsKeys h
        s.keys := H.keys.congr rfl le_rfl
    refine ⟨?_, ?_, (H.entries.erase p).congr (dropKey_sameEntries p.key)⟩
    · rw [hkeys]
      exact H.nodup.erase _
    · rw [hkeys]
      exact hkept.dropKey hmem

theorem remove_touches (p : Path) : μ.Touches h (μ.remove h p).1 (μ.remove h p).2 := by
  rw [remove]
  cases hp : μ.pointer? h p.key with
  | none => exact .refl μ h
  | some a =>
    refine (touches_setMap fun x hx => ?_).trans (dropKey_touches p.key)
    exact List.map_subset _ (List.filter_subset_self _) hx

/-! ## Copying -/

theorem copyEntries_arrays (b : Nat) (m : List (String × Nat)) (μ : Memory) :
    (copyEntries b m μ).arrays = μ.arrays := by
  induction m generalizing μ with
  | nil => rfl
  | cons x rest ih => exact ih _

theorem copyEntries_touches (m : List (String × Nat)) (μ : Memory) :
    μ.Touches h (copyEntries h.map m μ) h := by
  induction m generalizing μ with
  | nil => exact .refl μ h
  | cons x rest ih => exact (touches_insert x.1 (μ.cells x.2)).trans (ih _)

/-- The order in which a map has its keys is not that of the set. -/
theorem HoldsEntries.perm {s' : PathSet} (H : μ.HoldsEntries h s)
    (hs : s.entries.Perm s'.entries) : μ.HoldsEntries h s' :=
  ⟨H.domain.trans (hs.map _), fun e he => H.entry e (hs.mem_iff.2 he), H.below, H.pointers⟩

/-- The copied entries follow those that the map has already. -/
theorem HoldsEntries.copyEntries {m : List (String × Nat)} (H : μ.HoldsEntries h s)
    (hm : ∀ x ∈ m, x.2 < μ.free ∧ (μ.cells x.2).key = x.1)
    (hnodup : (s.keys ++ m.map Prod.fst).Nodup) :
    (copyEntries h.map m μ).HoldsEntries h ⟨s.entries ++ m.map fun x => μ.cells x.2⟩ := by
  induction m generalizing μ s with
  | nil => exact (List.append_nil s.entries).symm ▸ H
  | cons x rest ih =>
    obtain ⟨⟨hbelow, hkey⟩, hrest⟩ := List.forall_mem_cons.1 hm
    have hnew : (μ.cells x.2).key ∉ s.keys := by
      rw [hkey]
      exact fun hx => (List.nodup_append.1 hnodup).2.2 x.1 hx x.1 List.mem_cons_self rfl
    -- The entries that are still to be copied are in use, and a new one does not replace them.
    have hcells : ∀ a < μ.free, (μ.insert h.map x.1 (μ.cells x.2)).cells a = μ.cells a :=
      fun a ha => Function.update_of_ne ha.ne _ _
    have hinsert := H.insert hnew
    rw [hkey] at hinsert
    have hcopied := ih hinsert (fun y hy => ?_) ?_
    · have hmap : (rest.map fun y => (μ.insert h.map x.1 (μ.cells x.2)).cells y.2) =
          rest.map fun y => μ.cells y.2 :=
        List.map_congr_left fun y hy => hcells y.2 (hrest y hy).1
      rw [hmap, List.append_assoc] at hcopied
      exact hcopied
    · obtain ⟨hy, hk⟩ := hrest y hy
      exact ⟨hy.trans (Nat.lt_succ_self _), hcells y.2 hy ▸ hk⟩
    · have hkeys : PathSet.keys ⟨s.entries ++ [μ.cells x.2]⟩ = s.keys ++ [x.1] := by
        rw [PathSet.keys, List.map_append, ← hkey]
        rfl
      rw [hkeys, List.append_assoc]
      exact hnodup

/-- The map leads to each entry once. -/
theorem Represents.cells_perm (H : μ.Represents h s) :
    ((μ.maps h.map).map fun x => μ.cells x.2).Perm s.entries := by
  have hdistinct : ((μ.maps h.map).map Prod.fst).Nodup := H.entries.domain.nodup_iff.2 H.nodup
  have hlookup : ∀ x ∈ μ.maps h.map, μ.pointer? h x.1 = some x.2 :=
    fun x hx => Text.lookup_of_mem hdistinct hx
  have hkeys : ((μ.maps h.map).map fun x => μ.cells x.2).map PathEntry.key =
      (μ.maps h.map).map Prod.fst := by
    rw [List.map_map]
    exact List.map_congr_left fun x hx => (H.entries.cell_of_pointer? (hlookup x hx)).2
  refine (List.perm_ext_iff_of_nodup (.of_map _ (hkeys ▸ hdistinct)) (.of_map _ H.nodup)).2
    fun e => ⟨fun he => ?_, fun he => ?_⟩
  · obtain ⟨x, hx, rfl⟩ := List.mem_map.1 he
    exact (H.entries.cell_of_pointer? (hlookup x hx)).1
  · have hentry := H.entries.entry e he
    rw [cell?, Option.map_eq_some_iff] at hentry
    obtain ⟨a, ha, rfl⟩ := hentry
    exact List.mem_map.2 ⟨_, Text.mem_of_lookup ha, rfl⟩

theorem copy_touches (R : Runtime) (μ : Memory) (h : Handle) :
    (μ.newArray R (μ.keys h)).newMap.Touches (μ.copy R h).2 (μ.copy R h).1 (μ.copy R h).2 :=
  copyEntries_touches _ _

theorem maps_newMap (μ : Memory) : μ.newMap.maps μ.free = [] :=
  Function.update_self _ _ _

theorem Represents.copy (H : μ.Represents h s) (R : Runtime) :
    (μ.copy R h).1.Represents (μ.copy R h).2 s := by
  have hdistinct : ((μ.maps h.map).map Prod.fst).Nodup := H.entries.domain.nodup_iff.2 H.nodup
  have hperm := R.perm μ.free (μ.maps h.map)
  -- Nothing is in the new map, and the old entries are where they were.
  have hempty : (μ.newArray R (μ.keys h)).newMap.HoldsEntries
      ⟨μ.free, h.size, μ.free + 1⟩ PathSet.empty := by
    have hmaps : (μ.newArray R (μ.keys h)).newMap.maps (μ.free + 1) = [] := maps_newMap _
    refine ⟨?_, List.forall_mem_nil _, Nat.lt_succ_self _, fun a ha => ?_⟩
    · rw [hmaps]
      exact .nil
    · rw [Memory.pointers, hmaps] at ha
      exact (List.not_mem_nil ha).elim
  have hcells : ∀ x ∈ R.order μ.free (μ.maps h.map),
      x.2 < (μ.newArray R (μ.keys h)).newMap.free ∧ (μ.cells x.2).key = x.1 := fun x hx => by
    have hx := hperm.mem_iff.1 hx
    have hlookup : μ.pointer? h x.1 = some x.2 := Text.lookup_of_mem hdistinct hx
    have hbelow : x.2 < μ.free := H.entries.pointers x.2 (List.mem_map_of_mem hx)
    exact ⟨hbelow.trans (Nat.lt_add_of_pos_right Nat.two_pos),
      (H.entries.cell_of_pointer? hlookup).2⟩
  have hnodup : (PathSet.empty.keys ++ (R.order μ.free (μ.maps h.map)).map Prod.fst).Nodup :=
    (hperm.map Prod.fst).nodup_iff.2 hdistinct
  have hkeys : (μ.newArray R (μ.keys h)).HoldsKeys ⟨μ.free, h.size, μ.free + 1⟩ s.keys := by
    rw [H.keys.keys]
    exact holdsKeys_newArray R H.keys.length _
  have harrays : (μ.copy R h).1.arrays = (μ.newArray R (μ.keys h)).arrays :=
    copyEntries_arrays _ _ _
  have hfree : (μ.newArray R (μ.keys h)).free ≤ (μ.copy R h).1.free :=
    (Nat.le_succ _).trans (copy_touches R μ h).free
  exact ⟨H.nodup, hkeys.congr (congrFun harrays _) hfree,
    (hempty.copyEntries hcells hnodup).perm ((hperm.map _).trans H.cells_perm)⟩

end Memory

end Sessions
