import Mathlib.Data.List.Basic
import Mathlib.Data.List.Nodup
import Sessions.Correlation.Table
import Sessions.Proofs.Text.Order

/-!
# Sessions.Proofs.Correlation.Table

The operations of a table are a map: in whatever order they are listed, sorted by name they are one
list (`sortedOperations_eq`), and so a table is validated with one result (`validate_perm`).
-/

namespace Sessions.Correlation.Table

theorem sortedOperations_perm (t : Table) : t.sortedOperations.Perm t.operations :=
  List.mergeSort_perm _ _

theorem sorted_sortedOperations (t : Table) :
    t.sortedOperations.Pairwise fun a b => a.1 ≤ b.1 :=
  Text.pairwise_mergeSort Prod.fst t.operations

variable {sets : List CorrelationSet} {ops ops' : List (String × String)}

/-- Operations with distinct names come in one order when sorted by name. -/
theorem sortedOperations_eq (h : ops.Perm ops') (hdistinct : (ops.map (·.1)).Nodup) :
    sortedOperations ⟨sets, ops⟩ = sortedOperations ⟨sets, ops'⟩ := by
  have hsorted : (sortedOperations ⟨sets, ops⟩).Perm ops := sortedOperations_perm _
  have hsorted' : (sortedOperations ⟨sets, ops'⟩).Perm ops' := sortedOperations_perm _
  have hperm := hsorted.trans (h.trans hsorted'.symm)
  refine hperm.eq_of_pairwise ?_ (sorted_sortedOperations _) (sorted_sortedOperations _)
  intro a b ha hb hab hba
  have ha := hsorted.mem_iff.1 ha
  have hb := h.mem_iff.2 (hsorted'.mem_iff.1 hb)
  exact List.inj_on_of_nodup_map hdistinct ha hb (String.le_antisymm hab hba)

theorem validate_perm (h : ops.Perm ops') (hdistinct : (ops.map (·.1)).Nodup) :
    validate ⟨sets, ops⟩ = validate ⟨sets, ops'⟩ := by
  rw [validate, validate, faultyOperation?, faultyOperation?, sortedOperations_eq h hdistinct]

end Sessions.Correlation.Table
