import Mathlib
import Sessions.History.Store
import Sessions.Proofs.History.Shelf
import Sessions.Proofs.Text.Lookup

/-!
# Sessions.Proofs.History.Runs

What a database answers after any run of writes and removals. The shelf of a program holds what was
written to it since the program was last forgotten (`Store.performAll_holds`), so its history is the
newest of these records, by instant and then by arrival. The programs are those with such records.
-/

namespace Sessions.History

/-- What changes a store. -/
inductive Operation where
  | write (r : Record)
  | forget (program : String)
deriving DecidableEq, Repr

namespace Operation

def program : Operation → String
  | write r => r.program
  | forget p => p

/-- Whether an open database takes the operation. -/
def isAccepted : Operation → Bool
  | write r => r.isWritable && r.program != ""
  | forget p => p != ""

/-- The record that the operation writes to a program, if it does. -/
def recordFor (p : String) : Operation → Option Record
  | write r => if r.program = p then some r else none
  | forget _ => none

end Operation

/-- The records written to a program since it was last forgotten. -/
def since (p : String) (ops : List Operation) : List Record :=
  (ops.reverse.takeWhile (· ≠ .forget p)).reverse.filterMap (Operation.recordFor p)

theorem since_write (p : String) (ops : List Operation) (r : Record) :
    since p (ops ++ [.write r]) = since p ops ++ if r.program = p then [r] else [] := by
  rw [since, List.reverse_append, List.reverse_singleton, List.singleton_append,
    List.takeWhile_cons_of_pos (by simp), List.reverse_cons, List.filterMap_append, since]
  by_cases hp : r.program = p <;> simp [Operation.recordFor, hp]

theorem since_forget (p q : String) (ops : List Operation) :
    since p (ops ++ [.forget q]) = if q = p then [] else since p ops := by
  rw [since, List.reverse_append, List.reverse_singleton, List.singleton_append]
  by_cases hq : q = p
  · simp [hq]
  · rw [List.takeWhile_cons_of_pos (by simpa using hq), List.reverse_cons, List.filterMap_append,
      if_neg hq, since]
    simp [Operation.recordFor]

/-- Only operations on the program itself count. -/
theorem since_filter (p : String) (ops : List Operation) :
    since p (ops.filter (·.program = p)) = since p ops := by
  induction ops using List.reverseRecOn with
  | nil => rfl
  | append_singleton ops o ih =>
    rw [List.filter_append]
    by_cases hp : o.program = p
    · rw [List.filter_cons_of_pos (by simpa using hp), List.filter_nil]
      cases o with
      | write r => rw [since_write, since_write, ih]
      | forget q => rw [since_forget, since_forget, ih]
    · rw [List.filter_cons_of_neg (by simpa using hp), List.filter_nil, List.append_nil, ih]
      cases o with
      | write r =>
        have hr : r.program ≠ p := hp
        rw [since_write, if_neg hr, List.append_nil]
      | forget q =>
        have hq : q ≠ p := hp
        rw [since_forget, if_neg hq]

theorem isWritable_of_mem_since {p : String} {ops : List Operation} {r : Record}
    (hops : ∀ o ∈ ops, o.isAccepted = true) (h : r ∈ since p ops) : r.isWritable = true := by
  obtain ⟨o, ho, hr⟩ := List.mem_filterMap.1 h
  have hmem : o ∈ ops :=
    List.mem_reverse.1 ((List.takeWhile_sublist _).mem (List.mem_reverse.1 ho))
  have haccepted := hops o hmem
  cases o with
  | write q =>
    rw [Operation.recordFor] at hr
    split at hr
    · obtain rfl := Option.some.inj hr
      exact (Bool.and_eq_true_iff.1 haccepted).1
    · cases hr
  | forget q => cases hr

/-! ## Archives -/

namespace Archive

variable (a : Archive)

theorem shelf_erase (p q : String) : (a.erase q).shelf p = if q = p then {} else a.shelf p := by
  rw [shelf, erase, Text.lookup_filter]
  split <;> rfl

theorem shelf_write (r : Record) (p : String) :
    (a.write r).shelf p = if r.program = p then (a.shelf p).write a.limit r else a.shelf p := by
  rw [shelf, write, List.lookup_append, Text.lookup_filter]
  by_cases hp : r.program = p
  · simp [hp]
  · have hne : (p == r.program) = false := by
      rw [beq_eq_false_iff_ne]
      exact fun heq => hp heq.symm
    rw [if_neg hp, if_neg hp, List.lookup_cons, hne, List.lookup_nil, Option.or_none]
    rfl

/-- The programs that have a shelf. -/
def names : List String :=
  a.shelves.map (·.1)

theorem names_erase (p : String) : (a.erase p).names = a.names.filter (· != p) := by
  rw [names, names, List.filter_map]
  rfl

theorem names_write (r : Record) :
    (a.write r).names = a.names.filter (· != r.program) ++ [r.program] := by
  rw [names, names, List.filter_map, write, List.map_append]
  rfl

/-- The programs come in the order of their bytes. -/
theorem programs_sorted (h : a.names.Nodup) :
    a.programs.Pairwise fun p q => Text.bytesOf p < Text.bytesOf q := by
  have hle : a.programs.Pairwise fun p q => p ≤ q := by
    refine List.Pairwise.imp (R := fun p q => (!decide (q < p)) = true) (fun {p q} hpq => ?_) ?_
    · simp only [Bool.not_eq_true', decide_eq_false_iff_not, String.not_lt] at hpq
      exact hpq
    · refine List.pairwise_mergeSort (fun p q r hpq hqr => ?_) (fun p q => ?_) _
      · simp only [Bool.not_eq_true', decide_eq_false_iff_not, String.not_lt] at *
        exact String.le_trans hpq hqr
      · simp only [Bool.or_eq_true, Bool.not_eq_true', decide_eq_false_iff_not, String.not_lt]
        exact String.le_total p q
  have hne : a.programs.Pairwise fun p q => p ≠ q :=
    (List.mergeSort_perm _ _).nodup_iff.2 h
  refine (hle.and hne).imp fun {p q} hpq => ?_
  rw [← Text.lt_iff_bytesOf]
  by_contra hlt
  exact hpq.2 (String.le_antisymm hpq.1 (String.not_lt.1 hlt))

end Archive

/-! ## Databases -/

namespace Archive

/-- The archive after an operation. -/
def perform (a : Archive) : Operation → Archive
  | .write r => a.write r
  | .forget p => a.erase p

/-- What an archive holds after a run from an empty one. -/
structure Holds (limit : Int) (ops : List Operation) (a : Archive) : Prop where
  limit_eq : a.limit = limit
  shelf_eq : ∀ p, a.shelf p = Shelf.writeAll limit (since p ops)
  names_nodup : a.names.Nodup
  mem_names : ∀ p, p ∈ a.names ↔ since p ops ≠ []

namespace Holds

variable {limit : Int} {ops : List Operation} {a : Archive}

theorem nil (limit : Int) : Holds limit [] { limit } :=
  ⟨rfl, fun _ => rfl, List.nodup_nil, fun p => by simp [names, since]⟩

theorem write (h : Holds limit ops a) (r : Record) :
    Holds limit (ops ++ [.write r]) (a.write r) := by
  refine ⟨h.limit_eq, fun p => ?_, ?_, fun p => ?_⟩
  · rw [shelf_write, since_write, h.shelf_eq, h.limit_eq]
    split
    · rw [Shelf.writeAll_concat]
    · rw [List.append_nil]
  · rw [names_write, List.nodup_append]
    refine ⟨h.names_nodup.filter _, List.pairwise_singleton _ _, fun p hp q hq => ?_⟩
    rw [List.mem_singleton.1 hq]
    simpa using (List.mem_filter.1 hp).2
  · rw [names_write, List.mem_append, List.mem_filter, h.mem_names, since_write,
      List.mem_singleton]
    by_cases hp : r.program = p
    · simp [hp]
    · have hne : p ≠ r.program := fun heq => hp heq.symm
      simp [hp, hne]

theorem erase (h : Holds limit ops a) (q : String) :
    Holds limit (ops ++ [.forget q]) (a.erase q) := by
  refine ⟨h.limit_eq, fun p => ?_, ?_, fun p => ?_⟩
  · rw [shelf_erase, since_forget, h.shelf_eq]
    split <;> rfl
  · rw [names_erase]
    exact h.names_nodup.filter _
  · rw [names_erase, List.mem_filter, h.mem_names, since_forget]
    by_cases hq : q = p
    · simp [hq]
    · have hne : p ≠ q := fun heq => hq heq.symm
      simp [hq, hne]

theorem history_eq (h : Holds limit ops a) (p : String) :
    a.history p = newest limit (chronological (since p ops)) := by
  rw [history, h.shelf_eq, Shelf.writeAll_records]

theorem mem_programs (h : Holds limit ops a) (p : String) : p ∈ a.programs ↔ a.history p ≠ [] := by
  have hsorted : chronological (since p ops) = [] ↔ since p ops = [] := by
    rw [← List.length_eq_zero_iff, chronological, List.length_mergeSort, List.length_eq_zero_iff]
  rw [programs, (List.mergeSort_perm _ _).mem_iff, h.history_eq, Ne, newest_eq_nil_iff, hsorted]
  exact h.mem_names p

/-- What an archive holds that got some records and nothing else. -/
theorem writeAll (limit : Int) (rs : List Record) :
    Holds limit (rs.map .write) (rs.foldl Archive.write { limit }) := by
  induction rs using List.reverseRecOn with
  | nil => exact nil limit
  | append_singleton rs r ih =>
    rw [List.map_append, List.foldl_append]
    exact ih.write r

end Holds

end Archive

namespace Store

/-- The answer of a store to an operation. -/
def perform (s : Store) : Operation → Except StoreError Store
  | .write r => (s.write r).answer
  | .forget p => (s.erase p).answer

/-- The answer of a store to a run, which ends with the first refusal. -/
def performAll (s : Store) (ops : List Operation) : Except StoreError Store :=
  ops.foldlM perform s

theorem perform_database {a : Archive} {o : Operation} (h : o.isAccepted = true) :
    (database true a).perform o = .ok (database true (a.perform o)) := by
  cases o with
  | write r =>
    obtain ⟨hwritable, hname⟩ := Bool.and_eq_true_iff.1 h
    simp [perform, Store.write, hwritable, bne_iff_ne.1 hname, Archive.perform]
  | forget p => simp [perform, Store.erase, bne_iff_ne.1 h, Archive.perform]

theorem performAll_holds (limit : Int) {ops : List Operation}
    (h : ∀ o ∈ ops, o.isAccepted = true) :
    ∃ a, (database true { limit }).performAll ops = .ok (database true a) ∧ a.Holds limit ops := by
  induction ops using List.reverseRecOn with
  | nil => exact ⟨_, rfl, .nil limit⟩
  | append_singleton ops o ih =>
    obtain ⟨hbefore, ho⟩ := List.forall_mem_append.1 h
    obtain ⟨a, hrun, ha⟩ := ih hbefore
    refine ⟨a.perform o, ?_, ?_⟩
    · rw [performAll] at hrun ⊢
      rw [List.foldlM_append, hrun]
      have hstep := perform_database (a := a) (ho o List.mem_cons_self)
      simp [bind, Except.bind, pure, Except.pure, hstep]
    · cases o with
      | write r => exact ha.write r
      | forget q => exact ha.erase q

end Store

/-- After any run of operations that a database takes, the history of each program is the newest, by
instant and then by arrival, of the records that it got since it was last forgotten. Operations on
other programs have no part in it. The programs are listed in the order of their bytes, each once,
and they are those with history. Each history is kept in the order of its keys. -/
theorem history_newest (limit : Int) (ops : List Operation)
    (h : ∀ o ∈ ops, o.isAccepted = true) :
    ∃ a, (Store.database true { limit }).performAll ops = .ok (.database true a) ∧
      (∀ p, ((Store.database true a).history p).answer =
        .ok (newest limit (chronological (since p ops)))) ∧
      (∀ p, ∃ b, (Store.database true { limit }).performAll (ops.filter (·.program = p)) =
          .ok (.database true b) ∧
        ((Store.database true a).history p).answer = ((Store.database true b).history p).answer) ∧
      (∃ names, (Store.database true a).programs.answer = .ok names ∧
        (names.Pairwise fun p q => Text.bytesOf p < Text.bytesOf q) ∧
        ∀ p, p ∈ names ↔ ((Store.database true a).history p).answer ≠ .ok []) ∧
      ∀ p, (since p ops).length < 10 ^ 20 →
        (a.shelf p).filed.map Filed.entry = (Bucket.writeAll limit (since p ops)).entries ∧
        Bucket.Ordered ((a.shelf p).filed.map Filed.entry) := by
  obtain ⟨a, hrun, ha⟩ := Store.performAll_holds limit h
  refine ⟨a, hrun, fun p => ?_, fun p => ?_, ⟨a.programs, rfl, ?_, fun p => ?_⟩, fun p hp => ?_⟩
  · rw [← ha.history_eq]
    rfl
  · obtain ⟨b, hown, hb⟩ :=
      Store.performAll_holds limit fun o ho => h o (List.mem_of_mem_filter ho)
    refine ⟨b, hown, ?_⟩
    have heq : a.history p = b.history p := by
      rw [ha.history_eq, hb.history_eq, since_filter]
    exact congrArg Except.ok heq
  · exact a.programs_sorted ha.names_nodup
  · rw [ha.mem_programs]
    exact not_congr (Except.ok.injEq _ _).symm.to_iff
  · have hentries : (a.shelf p).filed.map Filed.entry =
        (Bucket.writeAll limit (since p ops)).entries := by
      rw [ha.shelf_eq, Bucket.writeAll_eq limit (fun r => isWritable_of_mem_since h) hp]
    rw [hentries]
    exact ⟨rfl, Bucket.writeAll_ordered limit (since p ops)⟩

/-- Instants that repeat and go back, a program that is forgotten on the way, and a limit. -/
def mixedRun : List Operation :=
  let verdict (p : String) (n : Int) (valid : Bool) : Operation :=
    .write ⟨p, ⟨n⟩, "", valid, []⟩
  [verdict "b" 5 true, verdict "a" 7 true, .forget "b", verdict "a" 3 true, verdict "b" 2 true,
    verdict "a" 7 false, verdict "a" 4 true, .forget "c"]

theorem history_newest_mixedRun :
    (∀ o ∈ mixedRun, o.isAccepted = true) ∧
      ∃ a, (Store.database true { limit := 2 }).performAll mixedRun = .ok (.database true a) ∧
        ((Store.database true a).history "a").answer =
          .ok [⟨"a", ⟨7⟩, "", true, []⟩, ⟨"a", ⟨7⟩, "", false, []⟩] ∧
        ((Store.database true a).history "b").answer = .ok [⟨"b", ⟨2⟩, "", true, []⟩] ∧
        ((Store.database true a).history "c").answer = .ok [] := by
  have haccepted : ∀ o ∈ mixedRun, o.isAccepted = true := by decide
  obtain ⟨a, hrun, hhistory, -⟩ := history_newest 2 mixedRun haccepted
  refine ⟨haccepted, a, hrun, ?_, ?_, ?_⟩
  · rw [hhistory]
    cbv
  · rw [hhistory]
    cbv
  · rw [hhistory]
    cbv

end Sessions.History
