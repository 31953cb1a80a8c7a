import Mathlib.Data.List.Induction
import Sessions.History.Archive
import Sessions.Proofs.Time.Order

/-!
# Sessions.Proofs.History.Shelf

What a shelf holds after a run of writes. Its records are those that it ever got, sorted by instant
with records of one instant in the order of their arrival, and of these the newest within the limit
(`writeAll_records`): what is dropped on the way would have been dropped in the end as well, also
when instants repeat or go backwards.

A shelf is an ordered map. Under the keys of its records it is what a map holds that is kept in the
bytewise order of its keys (`Bucket.writeAll_eq`).
-/

namespace Sessions.History

/-- The last items within a limit; a limit that is not positive is none. -/
def newest {α : Type} (limit : Int) (xs : List α) : List α :=
  xs.drop (if limit ≤ 0 then 0 else xs.length - limit.toNat)

theorem newest_map {α β : Type} (limit : Int) (f : α → β) (xs : List α) :
    newest limit (xs.map f) = (newest limit xs).map f := by
  rw [newest, newest, List.length_map, List.map_drop]

theorem newest_eq_nil_iff {α : Type} {limit : Int} {xs : List α} :
    newest limit xs = [] ↔ xs = [] := by
  rw [newest, List.drop_eq_nil_iff, ← List.length_eq_zero_iff]
  split <;> omega

/-- Of the items before the last so many, none is kept. -/
theorem newest_append {α : Type} {limit : Int} {xs ys : List α} (hlimit : 0 < limit)
    (h : limit.toNat ≤ ys.length) : newest limit (xs ++ ys) = newest limit ys := by
  have hpos : ¬ limit ≤ 0 := by omega
  rw [newest, newest, if_neg hpos, if_neg hpos, List.drop_append, List.length_append,
    List.drop_eq_nil_of_le (by omega), List.nil_append]
  congr 1
  omega

theorem newest_eq_self {α : Type} {limit : Int} {xs : List α}
    (h : limit ≤ 0 ∨ xs.length ≤ limit.toNat) : newest limit xs = xs := by
  have hnone : (if limit ≤ 0 then 0 else xs.length - limit.toNat) = 0 := by
    split <;> omega
  rw [newest, hnone, List.drop_zero]

/-! ## Sorting by instant -/

namespace Record

def time (r : Record) : Int :=
  r.instant.nanoseconds

/-- Whether the first record is not later than the second. -/
def noLater (r q : Record) : Bool :=
  decide (r.time ≤ q.time)

theorem noLater_iff {r q : Record} : r.noLater q = true ↔ r.time ≤ q.time :=
  decide_eq_true_iff

theorem noLater_trans (a b c : Record) (hab : a.noLater b = true) (hbc : b.noLater c = true) :
    a.noLater c = true := by
  rw [noLater_iff] at *
  omega

theorem noLater_total (a b : Record) : (a.noLater b || b.noLater a) = true := by
  rw [Bool.or_eq_true, noLater_iff, noLater_iff]
  omega

end Record

/-- Records by instant, those of one instant in the order in which they stand. -/
def chronological (rs : List Record) : List Record :=
  rs.mergeSort Record.noLater

/-- Sorted lists with the same items of each time are equal. -/
theorem eq_of_sorted_of_filter {α : Type} {time : α → Int} {xs ys : List α}
    (hx : xs.Pairwise fun a b => time a ≤ time b) (hy : ys.Pairwise fun a b => time a ≤ time b)
    (h : ∀ t, xs.filter (time · = t) = ys.filter (time · = t)) : xs = ys := by
  have hhead : ∀ {a : α} {xs : List α}, (a :: xs).filter (time · = time a) =
      a :: xs.filter (time · = time a) := by simp
  induction xs generalizing ys with
  | nil =>
    cases ys with
    | nil => rfl
    | cons b ys =>
      have hb := h (time b)
      rw [hhead] at hb
      cases hb
  | cons a xs ih =>
    cases ys with
    | nil =>
      have ha := h (time a)
      rw [hhead] at ha
      cases ha
    | cons b ys =>
      obtain ⟨hax, hxs⟩ := List.pairwise_cons.1 hx
      obtain ⟨hby, hys⟩ := List.pairwise_cons.1 hy
      -- The first item of each list is among those of its time in the other list.
      have ha : a ∈ (b :: ys).filter (time · = time a) := by
        rw [← h, hhead]
        exact List.mem_cons_self
      have hb : b ∈ (a :: xs).filter (time · = time b) := by
        rw [h, hhead]
        exact List.mem_cons_self
      have htime : time a = time b := by
        have hle : time b ≤ time a := by
          rcases List.mem_cons.1 (List.mem_filter.1 ha).1 with rfl | ha
          · exact Int.le_refl _
          · exact hby a ha
        have hge : time a ≤ time b := by
          rcases List.mem_cons.1 (List.mem_filter.1 hb).1 with rfl | hb
          · exact Int.le_refl _
          · exact hax b hb
        omega
      have hfirst := h (time a)
      rw [hhead, htime, hhead] at hfirst
      obtain rfl := (List.cons.inj hfirst).1
      congr 1
      refine ih hxs hys fun t => ?_
      have ht := h t
      simp only [List.filter_cons] at ht
      split at ht
      · exact (List.cons.inj ht).2
      · exact ht

theorem chronological_sorted (rs : List Record) :
    (chronological rs).Pairwise fun a b => a.time ≤ b.time :=
  (List.pairwise_mergeSort Record.noLater_trans Record.noLater_total rs).imp Record.noLater_iff.1

/-- Sorting keeps the order of the records of one instant. -/
theorem filter_chronological (rs : List Record) (t : Int) :
    (chronological rs).filter (Record.time · = t) = rs.filter (Record.time · = t) := by
  have hequal : (rs.filter (Record.time · = t)).Pairwise fun a b => a.noLater b = true := by
    refine List.pairwise_of_forall_mem_list fun a ha b hb => ?_
    have hta : a.time = t := of_decide_eq_true (List.mem_filter.1 ha).2
    have htb : b.time = t := of_decide_eq_true (List.mem_filter.1 hb).2
    exact Record.noLater_iff.2 (Int.le_of_eq (hta.trans htb.symm))
  have hsub : (rs.filter (Record.time · = t)).Sublist (chronological rs) :=
    List.sublist_mergeSort Record.noLater_trans Record.noLater_total hequal List.filter_sublist
  have hsub := hsub.filter (Record.time · = t)
  rw [List.filter_filter] at hsub
  simp only [Bool.and_self] at hsub
  refine (hsub.eq_of_length ?_).symm
  exact ((List.mergeSort_perm rs Record.noLater).filter _).length_eq.symm

/-! ## Placing one record after the other -/

namespace Filed

def time (f : Filed) : Int :=
  f.record.time

end Filed

namespace Shelf

variable {x : Filed} {l : List Filed}

theorem place_cons (x g : Filed) (rest : List Filed) :
    place x (g :: rest) = if g.time ≤ x.time then g :: place x rest else x :: g :: rest := rfl

theorem mem_place {f : Filed} : f ∈ place x l ↔ f = x ∨ f ∈ l := by
  induction l with
  | nil => simp [place]
  | cons g rest ih =>
    rw [place_cons]
    split
    · rw [List.mem_cons, ih, List.mem_cons, or_left_comm]
    · rw [List.mem_cons]

theorem length_place (x : Filed) (l : List Filed) : (place x l).length = l.length + 1 := by
  induction l with
  | nil => rfl
  | cons g rest ih =>
    rw [place_cons]
    split <;> simp [ih]

theorem place_sorted (h : l.Pairwise fun f g => f.time ≤ g.time) :
    (place x l).Pairwise fun f g => f.time ≤ g.time := by
  induction l with
  | nil => exact List.pairwise_singleton _ x
  | cons g rest ih =>
    obtain ⟨hg, hrest⟩ := List.pairwise_cons.1 h
    rw [place_cons]
    split
    · rename_i hle
      refine List.pairwise_cons.2 ⟨fun f hf => ?_, ih hrest⟩
      rcases mem_place.1 hf with rfl | hf
      · exact hle
      · exact hg f hf
    · rename_i hlt
      refine List.pairwise_cons.2 ⟨fun f hf => ?_, h⟩
      rcases List.mem_cons.1 hf with rfl | hf
      · omega
      · have := hg f hf
        omega

/-- The last arrival stands behind all records of its instant. -/
theorem filter_place (h : l.Pairwise fun f g => f.time ≤ g.time) (t : Int) :
    (place x l).filter (Filed.time · = t) =
      l.filter (Filed.time · = t) ++ if x.time = t then [x] else [] := by
  induction l with
  | nil => rw [place, List.filter_cons]; simp
  | cons g rest ih =>
    obtain ⟨hg, hrest⟩ := List.pairwise_cons.1 h
    rw [place_cons]
    split
    · rw [List.filter_cons, List.filter_cons, ih hrest]
      split <;> simp
    · rename_i hlt
      rw [List.filter_cons]
      by_cases ht : x.time = t
      · have hnone : (g :: rest).filter (Filed.time · = t) = [] := by
          refine List.filter_eq_nil_iff.2 fun f hf => ?_
          rw [decide_eq_true_iff]
          rcases List.mem_cons.1 hf with rfl | hf
          · omega
          · have := hg f hf
            omega
        simp [ht, hnone]
      · simp [ht]

/-- Where all records of the first part are not later, the place is in the second part. -/
theorem place_append_of_le {l' : List Filed} (h : ∀ f ∈ l, f.time ≤ x.time) :
    place x (l ++ l') = l ++ place x l' := by
  induction l with
  | nil => rfl
  | cons g rest ih =>
    obtain ⟨hg, hrest⟩ := List.forall_mem_cons.1 h
    rw [List.cons_append, place_cons, if_pos hg, ih hrest]
    rfl

theorem place_append_of_lt {l' : List Filed} (h : ∃ f ∈ l, x.time < f.time) :
    place x (l ++ l') = place x l ++ l' := by
  induction l with
  | nil => simp at h
  | cons g rest ih =>
    rw [List.cons_append, place_cons, place_cons]
    split
    · rename_i hle
      rw [ih, List.cons_append]
      obtain ⟨f, hf, hlt⟩ := h
      rcases List.mem_cons.1 hf with rfl | hf
      · omega
      · exact ⟨f, hf, hlt⟩
    · rfl

/-- Trimming before a record is placed makes no difference to what is left after it. -/
theorem newest_place (limit : Int) (h : l.Pairwise fun f g => f.time ≤ g.time) :
    newest limit (place x (newest limit l)) = newest limit (place x l) := by
  rcases Int.lt_or_le 0 limit with hlimit | hlimit
  · rcases Nat.lt_or_ge limit.toNat l.length with hlong | hshort
    · -- The records that are dropped, and those that are left: as many as the limit says.
      obtain ⟨old, kept, rfl, hkept⟩ : ∃ old kept, l = old ++ kept ∧ kept.length = limit.toNat :=
        ⟨_, _, (List.take_append_drop (l.length - limit.toNat) l).symm, by
          rw [List.length_drop]; omega⟩
      have hnewest : newest limit (old ++ kept) = kept := by
        rw [newest_append hlimit (by omega), newest_eq_self (.inr (Nat.le_of_eq hkept))]
      rw [hnewest]
      by_cases hle : ∀ f ∈ old, f.time ≤ x.time
      · rw [place_append_of_le hle, newest_append hlimit]
        rw [length_place]
        omega
      · simp only [not_forall, Int.not_le] at hle
        obtain ⟨f, hf, hlt⟩ := hle
        rw [place_append_of_lt ⟨f, hf, hlt⟩, newest_append hlimit (by omega),
          newest_eq_self (.inr (Nat.le_of_eq hkept))]
        -- Every record that is left is later than the new one, which is dropped at once.
        have hfront : place x kept = [x] ++ kept := by
          cases kept with
          | nil => rfl
          | cons g rest =>
            have hg := (List.pairwise_append.1 h).2.2 f hf g List.mem_cons_self
            rw [place_cons, if_neg (by omega)]
            rfl
        rw [hfront, newest_append hlimit (by omega), newest_eq_self (.inr (Nat.le_of_eq hkept))]
    · rw [newest_eq_self (.inr hshort)]
  · have hall : newest limit l = l := newest_eq_self (.inl hlimit)
    rw [hall]

/-! ## Runs of writes -/

/-- The shelf after some records arrived, with none of them dropped. -/
def receiveAll (rs : List Record) : Shelf :=
  rs.foldl receive {}

/-- The shelf after some records were written. -/
def writeAll (limit : Int) (rs : List Record) : Shelf :=
  rs.foldl (write limit) {}

theorem receiveAll_concat (rs : List Record) (r : Record) :
    receiveAll (rs ++ [r]) = (receiveAll rs).receive r := by
  simp [receiveAll]

theorem writeAll_concat (limit : Int) (rs : List Record) (r : Record) :
    writeAll limit (rs ++ [r]) = (writeAll limit rs).write limit r := by
  simp [writeAll]

theorem write_filed (limit : Int) (s : Shelf) (r : Record) :
    (s.write limit r).filed = newest limit (place ⟨s.received + 1, r⟩ s.filed) := rfl

theorem receiveAll_received (rs : List Record) : (receiveAll rs).received = rs.length := by
  induction rs using List.reverseRecOn with
  | nil => rfl
  | append_singleton rs r ih => rw [receiveAll_concat, receive, ih, List.length_append]; rfl

theorem receiveAll_sorted (rs : List Record) :
    (receiveAll rs).filed.Pairwise fun f g => f.time ≤ g.time := by
  induction rs using List.reverseRecOn with
  | nil => exact List.Pairwise.nil
  | append_singleton rs r ih => rw [receiveAll_concat]; exact place_sorted ih

theorem receiveAll_filter (rs : List Record) (t : Int) :
    ((receiveAll rs).filed.filter (Filed.time · = t)).map (·.record) =
      rs.filter (Record.time · = t) := by
  induction rs using List.reverseRecOn with
  | nil => rfl
  | append_singleton rs r ih =>
    rw [receiveAll_concat, receive, filter_place (receiveAll_sorted rs), List.map_append, ih,
      List.filter_append, List.filter_cons, Filed.time]
    by_cases ht : r.time = t <;> simp [ht]

/-- With none dropped, the records stand by instant, then by arrival. -/
theorem receiveAll_records (rs : List Record) : (receiveAll rs).records = chronological rs := by
  refine @eq_of_sorted_of_filter _ Record.time _ _ ?_ (chronological_sorted rs) fun t => ?_
  · rw [records, List.pairwise_map]
    exact receiveAll_sorted rs
  · rw [records, List.filter_map, filter_chronological, ← receiveAll_filter]
    rfl

/-- Trimming after each write leaves what trimming once in the end would leave. -/
theorem writeAll_eq (limit : Int) (rs : List Record) :
    writeAll limit rs = ⟨rs.length, newest limit (receiveAll rs).filed⟩ := by
  induction rs using List.reverseRecOn with
  | nil =>
    rw [show (receiveAll []).filed = [] from rfl, newest_eq_nil_iff.2 rfl]
    rfl
  | append_singleton rs r ih =>
    have hplace := newest_place (x := ⟨rs.length + 1, r⟩) limit (receiveAll_sorted rs)
    rw [writeAll_concat, ih, receiveAll_concat, receive, receiveAll_received, ← hplace,
      List.length_append]
    rfl

theorem writeAll_received (limit : Int) (rs : List Record) :
    (writeAll limit rs).received = rs.length := by
  rw [writeAll_eq]

/-- A shelf holds the newest of the records that it ever got. -/
theorem writeAll_records (limit : Int) (rs : List Record) :
    (writeAll limit rs).records = newest limit (chronological rs) := by
  rw [writeAll_eq, ← receiveAll_records, records, records, newest_map]

theorem writeAll_number (limit : Int) (rs : List Record) :
    ∀ f ∈ (writeAll limit rs).filed, f.number ≤ rs.length ∧ f.record ∈ rs := by
  have hall : ∀ f ∈ (receiveAll rs).filed, f.number ≤ rs.length ∧ f.record ∈ rs := by
    induction rs using List.reverseRecOn with
    | nil => exact List.forall_mem_nil _
    | append_singleton rs r ih =>
      intro f hf
      rw [receiveAll_concat, receive, receiveAll_received] at hf
      rw [List.length_append]
      rcases mem_place.1 hf with rfl | hf
      · exact ⟨Nat.le_refl _, List.mem_append_right _ List.mem_cons_self⟩
      · exact ⟨Nat.le_succ_of_le (ih f hf).1, List.mem_append_left _ (ih f hf).2⟩
  rw [writeAll_eq]
  exact fun f hf => hall f (List.mem_of_mem_drop hf)

end Shelf

/-! ## Keys -/

namespace Filed

/-- What a map holds for a record. -/
def entry (f : Filed) : String × Record :=
  (f.key, f.record)

theorem toList_key (f : Filed) : f.key.toList =
    f.record.instant.renderFull.toList ++
      '-' :: (Time.Instant.padded 20 f.number).toList := by
  simp [key]

/-- Keys sort by instant, then by number. -/
theorem key_lt {f g : Filed} (hf : f.record.isWritable = true) (hg : g.record.isWritable = true)
    (hnumber : g.number < 10 ^ 20) (h : f.time < g.time ∨ f.time = g.time ∧ f.number < g.number) :
    Text.bytesOf f.key < Text.bytesOf g.key := by
  rw [← Text.lt_iff_bytesOf]
  show f.key.toList < g.key.toList
  rw [toList_key, toList_key]
  rcases h with hlt | ⟨heq, hlt⟩
  · exact Time.Instant.renderFull_append_lt hf hg hlt _ _
  · have hinstant : f.record.instant = g.record.instant := by
      rw [Time.Instant.mk.injEq]
      exact heq
    have hdigits := Text.padded_append_lt (by decide) hlt hnumber [] []
    rw [List.append_nil, List.append_nil] at hdigits
    rw [hinstant, Text.append_lt_append_iff]
    exact List.cons_lt_cons_iff.2 (.inr ⟨rfl, hdigits⟩)

end Filed

/-! ## Shelves as ordered maps -/

/-- A map from texts to records in the bytewise order of its keys, with a counter of its own. -/
structure Bucket where
  sequence : Nat := 0
  entries : List (String × Record) := []

namespace Bucket

/-- Stores a value under a key. -/
def put (key : String) (r : Record) : List (String × Record) → List (String × Record)
  | [] => [(key, r)]
  | e :: rest =>
    if Text.bytesOf key < Text.bytesOf e.1 then (key, r) :: e :: rest
    else if key = e.1 then (key, r) :: rest
    else e :: put key r rest

/-- Stores a record under its instant and the next number, and drops the first keys that are over
the limit. -/
def write (limit : Int) (b : Bucket) (r : Record) : Bucket :=
  ⟨b.sequence + 1, newest limit (put (Filed.key ⟨b.sequence + 1, r⟩) r b.entries)⟩

def writeAll (limit : Int) (rs : List Record) : Bucket :=
  rs.foldl (write limit) {}

/-- The keys of a map in order. -/
def Ordered (entries : List (String × Record)) : Prop :=
  entries.Pairwise fun e e' => Text.bytesOf e.1 < Text.bytesOf e'.1

theorem mem_put {key : String} {r : Record} {entries : List (String × Record)} {e : String × Record}
    (h : e ∈ put key r entries) : e = (key, r) ∨ e ∈ entries := by
  induction entries with
  | nil => exact .inl (List.mem_singleton.1 h)
  | cons e' rest ih =>
    rw [put] at h
    split at h
    · exact List.mem_cons.1 h
    · split at h
      · exact (List.mem_cons.1 h).imp id (List.mem_cons_of_mem _)
      · rcases List.mem_cons.1 h with rfl | h
        · exact .inr List.mem_cons_self
        · exact (ih h).imp id (List.mem_cons_of_mem _)

theorem put_ordered {key : String} {r : Record} {entries : List (String × Record)}
    (h : Ordered entries) : Ordered (put key r entries) := by
  induction entries with
  | nil => exact List.pairwise_singleton _ _
  | cons e rest ih =>
    obtain ⟨he, hrest⟩ := List.pairwise_cons.1 h
    rw [put]
    split
    · rename_i hlt
      refine List.pairwise_cons.2 ⟨fun e' he' => ?_, h⟩
      rcases List.mem_cons.1 he' with rfl | he'
      · exact hlt
      · exact List.lt_trans hlt (he e' he')
    · rename_i hge
      split
      · rename_i heq
        rw [← heq] at he
        exact List.pairwise_cons.2 ⟨he, hrest⟩
      · rename_i hne
        refine List.pairwise_cons.2 ⟨fun e' he' => ?_, ih hrest⟩
        rcases mem_put he' with rfl | he'
        · rw [← Text.lt_iff_bytesOf] at hge ⊢
          by_contra hle
          exact hne (String.le_antisymm (String.not_lt.1 hle) (String.not_lt.1 hge))
        · exact he e' he'

/-- Under its key a new record comes to the place that the shelf gives it. -/
theorem put_key {x : Filed} {l : List Filed} (hx : x.record.isWritable = true)
    (hnumber : x.number < 10 ^ 20)
    (hl : ∀ f ∈ l, f.number < x.number ∧ f.record.isWritable = true) :
    put x.key x.record (l.map Filed.entry) = (Shelf.place x l).map Filed.entry := by
  induction l with
  | nil => rfl
  | cons g rest ih =>
    obtain ⟨⟨hg, hwritable⟩, hrest⟩ := List.forall_mem_cons.1 hl
    rw [List.map_cons, put, Shelf.place_cons]
    by_cases hle : g.time ≤ x.time
    · have hlt : Text.bytesOf g.entry.1 < Text.bytesOf x.key :=
        Filed.key_lt hwritable hx hnumber (by omega)
      have hne : x.key ≠ g.entry.1 := by
        intro heq
        rw [heq] at hlt
        exact List.lt_irrefl _ hlt
      rw [if_neg (List.lt_asymm hlt), if_neg hne, if_pos hle, ih hrest, List.map_cons]
    · have hlt : Text.bytesOf x.key < Text.bytesOf g.entry.1 :=
        Filed.key_lt hx hwritable (by omega) (by omega)
      rw [if_pos hlt, if_neg hle]
      rfl

theorem writeAll_concat (limit : Int) (rs : List Record) (r : Record) :
    writeAll limit (rs ++ [r]) = (writeAll limit rs).write limit r := by
  simp [writeAll]

theorem writeAll_ordered (limit : Int) (rs : List Record) : Ordered (writeAll limit rs).entries := by
  induction rs using List.reverseRecOn with
  | nil => exact List.Pairwise.nil
  | append_singleton rs r ih =>
    rw [writeAll_concat]
    exact (put_ordered ih).sublist (List.drop_sublist _ _)

/-- A shelf is a map that is kept in the bytewise order of its keys. -/
theorem writeAll_eq (limit : Int) {rs : List Record} (hrs : ∀ r ∈ rs, r.isWritable = true)
    (hlength : rs.length < 10 ^ 20) :
    writeAll limit rs = ⟨rs.length, (Shelf.writeAll limit rs).filed.map Filed.entry⟩ := by
  induction rs using List.reverseRecOn with
  | nil => rfl
  | append_singleton rs r ih =>
    obtain ⟨hbefore, hr⟩ := List.forall_mem_append.1 hrs
    rw [List.length_append, List.length_singleton] at hlength
    have hfiled : ∀ f ∈ (Shelf.writeAll limit rs).filed,
        f.number < rs.length + 1 ∧ f.record.isWritable = true := by
      intro f hf
      obtain ⟨hnumber, hmem⟩ := Shelf.writeAll_number limit rs f hf
      exact ⟨Nat.lt_succ_of_le hnumber, hbefore f.record hmem⟩
    have hput := put_key (x := ⟨rs.length + 1, r⟩) (hr r List.mem_cons_self) hlength hfiled
    have hshelf : (Shelf.writeAll limit (rs ++ [r])).filed =
        newest limit (Shelf.place ⟨rs.length + 1, r⟩ (Shelf.writeAll limit rs).filed) := by
      rw [Shelf.writeAll_concat, Shelf.write_filed, Shelf.writeAll_received]
    rw [writeAll_concat, ih hbefore (by omega), write, hput, newest_map, hshelf, List.length_append]
    rfl

end Bucket

end Sessions.History
