import Mathlib.Data.List.Forall2
import Mathlib.Data.List.Lattice
import Sessions.Proofs.Facts.Memory

/-!
# Sessions.Proofs.Facts.Heap

All the path sets that a program makes out of an empty one, by adding, removing and copying.

* `Keeps μ ν g` — what the handle `g` owns is the same in both memories.
* `Apart μ g h` — the two handles share nothing that can be changed.
* `Sound σ ss` — each set lies in the memory, and all are apart.

One step keeps this (`Sound.step`), and so does a run (`sound_run`). At the end each set shows what
its own history says, whatever happened to the others (`run_shows`).
-/

namespace Sessions

/-! ## Runs -/

/-- An operation on the sets that there are, which are numbered in the order in which they came. -/
inductive Operation where
  | add (i : Nat) (p : Path) (fresh : Bool)
  | remove (i : Nat) (p : Path)
  | copy (i : Nat)

/-- The number of the set that the operation changes. -/
def Operation.target? : Operation → Option Nat
  | .add i _ _ => some i
  | .remove i _ => some i
  | .copy _ => none

/-- A memory with the sets in it. -/
structure Heap where
  memory : Memory
  sets : List Handle

namespace Heap

/-- One empty set. -/
def new : Heap where
  memory := ⟨fun _ => [], fun _ => [], fun _ => default, 1⟩
  sets := [⟨0, 0, 0⟩]

/-- Changes one of the sets, if there is one of this number. -/
def change (σ : Heap) (i : Nat) (f : Memory → Handle → Memory × Handle) : Heap :=
  match σ.sets[i]? with
  | none => σ
  | some h => ⟨(f σ.memory h).1, σ.sets.set i (f σ.memory h).2⟩

def step (R : Runtime) (σ : Heap) : Operation → Heap
  | .add i p fresh => σ.change i fun μ h => μ.add R h p fresh
  | .remove i p => σ.change i fun μ h => μ.remove h p
  | .copy i =>
    match σ.sets[i]? with
    | none => σ
    | some h => ⟨(σ.memory.copy R h).1, σ.sets ++ [(σ.memory.copy R h).2]⟩

def run (R : Runtime) (ops : List Operation) : Heap :=
  ops.foldl (step R) new

end Heap

/-- What one more operation does to the histories of the sets. -/
def recorded (hs : List (List Change)) : Operation → List (List Change)
  | .add i p fresh => hs.modify i (· ++ [.add p fresh])
  | .remove i p => hs.modify i (· ++ [.remove p])
  | .copy i => hs ++ hs[i]?.toList

/-- The history of each set. A copy starts with the history of its original. -/
def histories (ops : List Operation) : List (List Change) :=
  ops.foldl recorded [[]]

namespace Memory

variable {μ ν : Memory} {g g' h h' : Handle} {s t : PathSet} {R : Runtime}

/-! ## Two sets -/

/-- What `g` owns is as it was. -/
structure Keeps (μ ν : Memory) (g : Handle) : Prop where
  free : μ.free ≤ ν.free
  array : ν.arrays g.array = μ.arrays g.array
  map : ν.maps g.map = μ.maps g.map
  cells : ∀ a ∈ μ.pointers g, ν.cells a = μ.cells a

/-- The two handles share nothing. -/
structure Apart (μ : Memory) (g h : Handle) : Prop where
  array : g.array ≠ h.array
  map : g.map ≠ h.map
  pointers : (μ.pointers g).Disjoint (μ.pointers h)

theorem Apart.symm (H : μ.Apart g h) : μ.Apart h g :=
  ⟨H.array.symm, H.map.symm, List.Disjoint.symm H.pointers⟩

theorem Keeps.pointers (K : μ.Keeps ν g) : ν.pointers g = μ.pointers g :=
  congrArg _ K.map

theorem Keeps.cell? (K : μ.Keeps ν g) (k : String) : ν.cell? g k = μ.cell? g k := by
  have hpointer : ν.pointer? g k = μ.pointer? g k := congrArg _ K.map
  rw [Memory.cell?, Memory.cell?, hpointer]
  exact Option.map_congr fun a ha => K.cells a (mem_pointers_of_pointer? ha)

theorem Keeps.trans {ξ : Memory} (K : μ.Keeps ν g) (K' : ν.Keeps ξ g) : μ.Keeps ξ g where
  free := K.free.trans K'.free
  array := K'.array.trans K.array
  map := K'.map.trans K.map
  cells a ha := by rw [K'.cells a (by rwa [K.pointers]), K.cells a ha]

theorem Represents.keeps (H : μ.Represents g s) (K : μ.Keeps ν g) : ν.Represents g s where
  nodup := H.nodup
  keys := H.keys.congr K.array K.free
  entries :=
    { domain := by rw [K.map]; exact H.entries.domain
      entry := fun e he => by rw [K.cell?]; exact H.entries.entry e he
      below := H.entries.below.trans_le K.free
      pointers := fun a ha => by
        rw [K.pointers] at ha
        exact (H.entries.pointers a ha).trans_le K.free }

theorem Apart.keeps (A : μ.Apart g h) (Kg : μ.Keeps ν g) (Kh : μ.Keeps ν h) : ν.Apart g h := by
  refine ⟨A.array, A.map, ?_⟩
  rw [Kg.pointers, Kh.pointers]
  exact A.pointers

/-- A step of one set changes nothing that another owns. -/
theorem Touches.keeps (T : μ.Touches h ν h') (H : μ.Represents g s) (A : μ.Apart g h) :
    μ.Keeps ν g where
  free := T.free
  array := T.arrays _ H.keys.below A.array
  map := T.maps _ H.entries.below A.map
  cells a ha := T.cells a (H.entries.pointers a ha) (A.pointers ha)

/-- The set that made the step stays apart: what it owns it had before, or is new. -/
theorem Touches.apart (T : μ.Touches h ν h') (H : μ.Represents g s) (A : μ.Apart g h) :
    ν.Apart g h' where
  array := by
    rcases T.array with he | he
    · rw [he]; exact A.array
    · exact (H.keys.below.trans_le he).ne
  map := by
    rcases T.map with he | he
    · rw [he]; exact A.map
    · exact (H.entries.below.trans_le he).ne
  pointers a ha ha' := by
    rw [(T.keeps H A).pointers] at ha
    rcases T.pointers a ha' with hold | hnew
    · exact A.pointers ha hold
    · exact (H.entries.pointers a ha).not_ge hnew

/-- Copying changes nothing that was there, and what the copy owns is new. -/
theorem Represents.of_copy (H : μ.Represents g s) (R : Runtime) (h : Handle) :
    μ.Keeps (μ.copy R h).1 g ∧ (μ.copy R h).1.Apart g (μ.copy R h).2 := by
  have hmap : g.map < μ.free + 1 := H.entries.below.trans (Nat.lt_succ_self _)
  have hkeeps : μ.Keeps (μ.newArray R (μ.keys h)).newMap g :=
    { free := Nat.le_add_right _ 2
      array := Function.update_of_ne H.keys.below.ne _ _
      map := Function.update_of_ne hmap.ne _ _
      cells := fun _ _ => rfl }
  have hapart : (μ.newArray R (μ.keys h)).newMap.Apart g (μ.copy R h).2 :=
    { array := H.keys.below.ne
      map := hmap.ne
      pointers := fun a _ ha => by
        have hnil : (μ.newArray R (μ.keys h)).newMap.pointers (μ.copy R h).2 = [] :=
          congrArg (List.map Prod.snd) (maps_newMap _)
        rw [hnil] at ha
        exact List.not_mem_nil ha }
  have T := copy_touches R μ h
  exact ⟨hkeeps.trans (T.keeps (H.keeps hkeeps) hapart), T.apart (H.keeps hkeeps) hapart⟩

end Memory

namespace Heap

open Memory

variable {σ : Heap} {ss : List PathSet} {f : Memory → Handle → Memory × Handle}
  {φ : PathSet → PathSet} {R : Runtime}

/-- Each set lies in the memory, and all are apart. -/
structure Sound (σ : Heap) (ss : List PathSet) : Prop where
  length : σ.sets.length = ss.length
  represents : ∀ (i : Nat) h s, σ.sets[i]? = some h → ss[i]? = some s → σ.memory.Represents h s
  apart : ∀ (i j : Nat) g h, i ≠ j → σ.sets[i]? = some g → σ.sets[j]? = some h →
    σ.memory.Apart g h

theorem represents_new : new.memory.Represents ⟨0, 0, 0⟩ PathSet.empty where
  nodup := .nil
  keys := ⟨Nat.zero_le _, rfl, Nat.one_pos⟩
  entries := ⟨.nil, List.forall_mem_nil _, Nat.one_pos, List.forall_mem_nil _⟩

theorem sound_new : new.Sound [PathSet.empty] where
  length := rfl
  represents i h s hh hs := by
    obtain ⟨hi, rfl⟩ := List.getElem?_eq_some_iff.1 hh
    obtain rfl : i = 0 := Nat.lt_one_iff.1 hi
    cases hs
    exact represents_new
  apart i j g h hne hg hh := by
    have hi : i < 1 := (List.getElem?_eq_some_iff.1 hg).1
    have hj : j < 1 := (List.getElem?_eq_some_iff.1 hh).1
    omega

variable {i j : Nat} {g h : Handle} {s : PathSet}

theorem change_of_none (hi : σ.sets[i]? = none) : σ.change i f = σ := by
  rw [change, hi]

theorem change_of_some (hi : σ.sets[i]? = some h) :
    σ.change i f = ⟨(f σ.memory h).1, σ.sets.set i (f σ.memory h).2⟩ := by
  rw [change, hi]

theorem step_copy_of_none (hi : σ.sets[i]? = none) : step R σ (.copy i) = σ := by
  rw [step, hi]

theorem step_copy_of_some (hi : σ.sets[i]? = some h) :
    step R σ (.copy i) = ⟨(σ.memory.copy R h).1, σ.sets ++ [(σ.memory.copy R h).2]⟩ := by
  rw [step, hi]

theorem getElem?_set_eq_some {gs : List Handle} {h' : Handle} (hg : (gs.set i h')[j]? = some g) :
    (j = i ∧ g = h') ∨ (j ≠ i ∧ gs[j]? = some g) := by
  rw [List.getElem?_set] at hg
  by_cases hj : i = j
  · rw [if_pos hj, Option.ite_none_right_eq_some] at hg
    exact .inl ⟨hj.symm, (Option.some.inj hg.2).symm⟩
  · rw [if_neg hj] at hg
    exact .inr ⟨Ne.symm hj, hg⟩

theorem getElem?_concat_eq_some {α : Type} {xs : List α} {x y : α}
    (hy : (xs ++ [x])[j]? = some y) : xs[j]? = some y ∨ (j = xs.length ∧ y = x) := by
  rw [List.getElem?_append] at hy
  by_cases hj : j < xs.length
  · rw [if_pos hj] at hy
    exact .inl hy
  · rw [if_neg hj, List.getElem?_singleton, Option.ite_none_right_eq_some] at hy
    obtain ⟨hlength, hx⟩ := hy
    exact .inr ⟨by omega, (Option.some.inj hx).symm⟩

/-- One more change at the end of a history is one more change of the set. -/
theorem map_ofChanges_modify (hs : List (List Change)) (i : Nat) (c : Change) :
    (hs.modify i (· ++ [c])).map PathSet.ofChanges =
      (hs.map PathSet.ofChanges).modify i (·.apply c) := by
  refine List.ext_getElem? fun j => ?_
  rw [List.getElem?_map, List.getElem?_modify, List.getElem?_modify, List.getElem?_map]
  cases hs[j]? with
  | none => rfl
  | some cs =>
    by_cases hj : i = j
    · simp [hj, PathSet.ofChanges_append]
    · simp [hj]

namespace Sound

theorem exists_represents (H : σ.Sound ss) (hi : σ.sets[i]? = some h) :
    ∃ s, ss[i]? = some s ∧ σ.memory.Represents h s := by
  have hlt : i < ss.length := by
    rw [← H.length]
    exact (List.getElem?_eq_some_iff.1 hi).1
  exact ⟨ss[i], List.getElem?_eq_getElem hlt, H.represents i h _ hi (List.getElem?_eq_getElem hlt)⟩

/-- The step of one set keeps every other. -/
theorem keeps_of_touches {ν : Memory} {h' : Handle} (H : σ.Sound ss) (hi : σ.sets[i]? = some h)
    (T : σ.memory.Touches h ν h') (hj : σ.sets[j]? = some g) (hne : j ≠ i) :
    σ.memory.Keeps ν g ∧ ν.Apart g h' := by
  obtain ⟨s, -, hs⟩ := H.exists_represents hj
  have hapart := H.apart j i g h hne hj hi
  exact ⟨T.keeps hs hapart, T.apart hs hapart⟩

theorem change (H : σ.Sound ss)
    (hf : ∀ μ h s, Represents μ h s → (f μ h).1.Represents (f μ h).2 (φ s))
    (ht : ∀ μ h, Touches μ h (f μ h).1 (f μ h).2) (i : Nat) :
    (σ.change i f).Sound (ss.modify i φ) := by
  cases hi : σ.sets[i]? with
  | none =>
    have hlength : ss.length ≤ i := by
      rw [← H.length]
      exact List.getElem?_eq_none_iff.1 hi
    rw [change_of_none hi, List.modify_eq_self hlength]
    exact H
  | some h =>
    rw [change_of_some hi]
    have hother : ∀ {j g}, σ.sets[j]? = some g → j ≠ i →
        σ.memory.Keeps (f σ.memory h).1 g ∧ (f σ.memory h).1.Apart g (f σ.memory h).2 :=
      fun hg hne => H.keeps_of_touches hi (ht σ.memory h) hg hne
    -- Two sets, neither of which was changed, are as they were; otherwise `hother` has both parts.
    refine ⟨?_, fun j g s hg hs => ?_, fun j k g g' hne hg hg' => ?_⟩
    · rw [List.length_set, List.length_modify]
      exact H.length
    · rw [List.getElem?_modify] at hs
      rcases getElem?_set_eq_some hg with ⟨rfl, rfl⟩ | ⟨hj, hold⟩
      · obtain ⟨t, ht, hrep⟩ := H.exists_represents hi
        rw [ht] at hs
        obtain rfl : φ t = s := by simpa using hs
        exact hf _ _ _ hrep
      · have hs : ss[j]? = some s := by simpa [Ne.symm hj] using hs
        exact (H.represents j g s hold hs).keeps (hother hold hj).1
    · rcases getElem?_set_eq_some hg with ⟨rfl, rfl⟩ | ⟨hj, hold⟩
      · rcases getElem?_set_eq_some hg' with ⟨rfl, rfl⟩ | ⟨hk, hold'⟩
        · exact absurd rfl hne
        · exact (hother hold' hk).2.symm
      · rcases getElem?_set_eq_some hg' with ⟨rfl, rfl⟩ | ⟨hk, hold'⟩
        · exact (hother hold hj).2
        · exact (H.apart j k g g' hne hold hold').keeps (hother hold hj).1 (hother hold' hk).1

theorem copy (H : σ.Sound ss) (R : Runtime) (i : Nat) :
    (step R σ (.copy i)).Sound (ss ++ ss[i]?.toList) := by
  cases hi : σ.sets[i]? with
  | none =>
    have hnone : ss[i]? = none := by
      rw [List.getElem?_eq_none_iff, ← H.length]
      exact List.getElem?_eq_none_iff.1 hi
    rw [step_copy_of_none hi, hnone, Option.toList_none, List.append_nil]
    exact H
  | some h =>
    obtain ⟨s, hs, hrep⟩ := H.exists_represents hi
    rw [step_copy_of_some hi, hs, Option.toList_some]
    -- Each of the sets that were there is as it was, and shares nothing with the copy.
    have hold : ∀ {j g}, σ.sets[j]? = some g →
        σ.memory.Keeps (σ.memory.copy R h).1 g ∧
          (σ.memory.copy R h).1.Apart g (σ.memory.copy R h).2 := fun {j g} hg => by
      obtain ⟨t, -, ht⟩ := H.exists_represents hg
      exact ht.of_copy R h
    refine ⟨?_, fun j g t hg ht => ?_, fun j k g g' hne hg hg' => ?_⟩
    · rw [List.length_append, List.length_append, H.length]
      rfl
    · rcases getElem?_concat_eq_some hg with hg | ⟨rfl, rfl⟩
      · rcases getElem?_concat_eq_some ht with ht | ⟨rfl, -⟩
        · exact (H.represents j g t hg ht).keeps (hold hg).1
        · exact absurd H.length (List.getElem?_eq_some_iff.1 hg).1.ne'
      · rw [H.length, List.getElem?_concat_length] at ht
        cases ht
        exact hrep.copy R
    · rcases getElem?_concat_eq_some hg with hg | ⟨rfl, rfl⟩
      · rcases getElem?_concat_eq_some hg' with hg' | ⟨rfl, rfl⟩
        · exact (H.apart j k g g' hne hg hg').keeps (hold hg).1 (hold hg').1
        · exact (hold hg).2
      · rcases getElem?_concat_eq_some hg' with hg' | ⟨rfl, rfl⟩
        · exact (hold hg').2.symm
        · exact absurd rfl hne

/-- One step does to each set what it does to its history. -/
theorem step {hs : List (List Change)} (H : σ.Sound (hs.map PathSet.ofChanges)) (R : Runtime)
    (op : Operation) : (Heap.step R σ op).Sound ((recorded hs op).map PathSet.ofChanges) := by
  cases op with
  | add i p fresh =>
    rw [recorded, map_ofChanges_modify]
    exact H.change (fun _ _ _ hr => hr.add R p fresh) (fun _ _ => add_touches R p fresh) i
  | remove i p =>
    rw [recorded, map_ofChanges_modify]
    exact H.change (fun _ _ _ hr => hr.remove p) (fun _ _ => remove_touches p) i
  | copy i =>
    rw [recorded, List.map_append, ← Option.toList_map, ← List.getElem?_map]
    exact H.copy R i

end Sound

/-- Whatever is added, removed and copied, each set lies in the memory as its history says. -/
theorem sound_run (R : Runtime) (ops : List Operation) :
    (run R ops).Sound ((histories ops).map PathSet.ofChanges) := by
  induction ops using List.reverseRecOn with
  | nil => exact sound_new
  | append_singleton ops op ih =>
    rw [run, histories, List.foldl_append, List.foldl_append]
    exact ih.step R op

/-! ## What the sets show -/

/-- Whoever reads the set sees what its history says: the entries of the paths that are there, in
the order of their latest insertion. -/
structure Shows (μ : Memory) (h : Handle) (cs : List Change) : Prop where
  nodup : (μ.keys h).Nodup
  domain : ((μ.maps h.map).map Prod.fst).Perm (μ.keys h)
  key : ∀ k a, (k, a) ∈ μ.maps h.map → (μ.cells a).key = k
  entries : μ.entries h = (PathSet.insertions cs).map some
  paths : μ.paths? h = some ((PathSet.insertions cs).map PathEntry.path)
  texts : μ.texts? h = some ((PathSet.insertions cs).map fun e => e.path.render)
  get? : ∀ p, μ.get? h p = (PathSet.insertions cs).find? fun e => e.key == p.key
  contains : ∀ p, μ.contains h p = (PathSet.insertions cs).any fun e => e.key == p.key
  set : PathSet.ofChanges cs = ⟨PathSet.insertions cs⟩

theorem shows_of_represents {μ : Memory} {cs : List Change}
    (H : μ.Represents h (PathSet.ofChanges cs)) : Shows μ h cs := by
  have hset : PathSet.ofChanges cs = ⟨PathSet.insertions cs⟩ :=
    congrArg PathSet.mk (PathSet.entries_ofChanges cs)
  have hkeys : μ.keys h = (PathSet.ofChanges cs).keys := H.keys.keys
  have hdistinct := H.entries.domain.nodup_iff.2 H.nodup
  refine ⟨hkeys ▸ H.nodup, hkeys ▸ H.entries.domain, fun k a ha => ?_, ?_, ?_, ?_, fun p => ?_,
    fun p => ?_, hset⟩
  · exact (H.entries.cell_of_pointer? (Text.lookup_of_mem hdistinct ha)).2
  · rw [H.entries_eq, PathSet.entries_ofChanges]
  · rw [paths?, H.mapM_entries, PathSet.entries_ofChanges]
  · rw [texts?, H.mapM_entries, PathSet.entries_ofChanges]
  · rw [H.get?_eq, PathSet.get?, PathSet.entries_ofChanges]
  · rw [H.contains_eq, PathSet.contains, PathSet.entries_ofChanges]

theorem shows_run {ops : List Operation} {cs : List Change} (hh : (run R ops).sets[i]? = some h)
    (hcs : (histories ops)[i]? = some cs) : Shows (run R ops).memory h cs := by
  refine shows_of_represents ((sound_run R ops).represents i h _ hh ?_)
  rw [List.getElem?_map, hcs, Option.map_some]

theorem length_sets_run (R : Runtime) (ops : List Operation) :
    (run R ops).sets.length = (histories ops).length := by
  rw [(sound_run R ops).length, List.length_map]

/-- An operation on another set leaves the history as it is. -/
theorem getElem?_recorded {hs : List (List Change)} {op : Operation} {cs : List Change}
    (hop : op.target? ≠ some i) (hi : hs[i]? = some cs) : (recorded hs op)[i]? = some cs := by
  cases op with
  | add j p fresh =>
    have hne : j ≠ i := fun h => hop (congrArg some h)
    simp [recorded, hne, hi]
  | remove j p =>
    have hne : j ≠ i := fun h => hop (congrArg some h)
    simp [recorded, hne, hi]
  | copy j =>
    rw [recorded, List.getElem?_append_left (List.getElem?_eq_some_iff.1 hi).1, hi]

theorem getElem?_histories {ops more : List Operation} {cs : List Change}
    (hmore : ∀ op ∈ more, op.target? ≠ some i) (hi : (histories ops)[i]? = some cs) :
    (histories (ops ++ more))[i]? = some cs := by
  induction more using List.reverseRecOn with
  | nil => rwa [List.append_nil]
  | append_singleton more op ih =>
    rw [← List.append_assoc, histories, List.foldl_append]
    exact getElem?_recorded (hmore op (by simp)) (ih fun op hop => hmore op (by simp [hop]))

/-- Each set shows what its history says, and goes on showing it until it is changed itself. -/
theorem run_shows (R : Runtime) (ops : List Operation) :
    List.Forall₂ (Shows (run R ops).memory) (run R ops).sets (histories ops) ∧
      ∀ (more : List Operation) (i : Nat) (h : Handle), (run R ops).sets[i]? = some h →
        (∀ op ∈ more, op.target? ≠ some i) → ∃ g, (run R (ops ++ more)).sets[i]? = some g ∧
          (run R (ops ++ more)).memory.entries g = (run R ops).memory.entries h ∧
          ∀ p, (run R (ops ++ more)).memory.get? g p = (run R ops).memory.get? h p := by
  refine ⟨List.forall₂_iff_get.2 ⟨length_sets_run R ops, fun i hi hi' => ?_⟩,
    fun more i h hh hmore => ?_⟩
  · exact shows_run (List.getElem?_eq_getElem hi) (List.getElem?_eq_getElem hi')
  · have hlt : i < (histories ops).length := by
      rw [← length_sets_run R ops]
      exact (List.getElem?_eq_some_iff.1 hh).1
    have hcs := List.getElem?_eq_getElem hlt
    have hcs' := getElem?_histories hmore hcs
    have hlt' : i < (run R (ops ++ more)).sets.length := by
      rw [length_sets_run]
      exact (List.getElem?_eq_some_iff.1 hcs').1
    have hbefore := shows_run hh hcs
    have hafter := shows_run (List.getElem?_eq_getElem hlt') hcs'
    exact ⟨_, List.getElem?_eq_getElem hlt', hafter.entries.trans hbefore.entries.symm,
      fun p => (hafter.get? p).trans (hbefore.get? p).symm⟩

end Heap

end Sessions
