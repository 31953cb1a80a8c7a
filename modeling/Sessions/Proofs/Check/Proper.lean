import Sessions.Proofs.Check.Origin

/-!
# Sessions.Proofs.Check.Proper

What holds of all facts of a check: they are well-formed, and they need only variables of sets that
are declared. It holds of the facts of every activity at the moment when the check comes to it, of
those in the table, and of those of the whole run.
-/

namespace Sessions.Check.Checker

variable {c : Checker} {f : Facts}

/-- The path is that of a variable of a declared correlation set, wherever it stands. -/
def Declares (c : Checker) (p : Path) : Prop :=
  ∃ set ∈ c.sets, ∃ v ∈ set.vars, p = v.path.underRoot p.loc

/-- Facts as a check may compute them. -/
structure Proper (c : Checker) (f : Facts) : Prop where
  wellFormed : f.WellFormed
  declared : ∀ e ∈ f.neededCorr.entries, c.Declares e.path

/-- Anything may be provided and lost, but only what is declared may be needed. -/
def setSources (c : Checker) : Facts.Sources where
  provides _ := True
  refreshes _ := True
  needs := c.Declares
  loses _ := True

theorem Proper.of_sourced (h : Sourced c.setSources f) : c.Proper f :=
  ⟨h.wellFormed, h.origin.neededCorr.all⟩

theorem mem_sets {t : Correlation.Table} {op : String} {set : Correlation.CorrelationSet}
    (h : t.setFor? op = some set) : set ∈ t.sets := by
  unfold Correlation.Table.setFor? at h
  split at h
  · cases h
  · cases h
  · exact List.mem_of_find?_eq_some h

theorem declares_of_correlates {l : Location} {op : String} {p : Path}
    (h : c.scope.Correlates l op p) : c.Declares p := by
  obtain ⟨hmode, t, set, v, ht, hset, hv, rfl⟩ := h
  refine ⟨set, ?_, v, hv, rfl⟩
  have hmode : c.mode ≠ .single := hmode
  have ht : c.correlation = some t := ht
  rw [sets, if_neg hmode, ht]
  exact mem_sets hset

theorem input_declared (depth : Nat) (l : Location) (op : String) (s : Bool) :
    (inputFacts (c.scope.setting depth) l op s).From c.setSources := by
  cases s with
  | false =>
    rw [inputFacts_false]
    exact { Facts.From.empty with
      neededCorr := PathSet.Holds.empty.addPaths fun p hp =>
        declares_of_correlates (Scope.correlates_of_mem hp) }
  | true =>
    rw [inputFacts_true]
    exact { Facts.From.empty with
      providedCorr := PathSet.Holds.empty.addPaths fun _ _ => trivial
      fresh := fun _ => trivial }

theorem own_declared (depth : Nat) (a : Activity) (s : Bool) :
    Sourced c.setSources (ownFacts (c.scope.setting depth) a s) := by
  refine ⟨ownFacts_wellFormed _ a s, ownFacts_cases .empty ?_ ?_ ?_ ?_⟩
  · exact fun l op => input_declared depth l op s
  · exact fun p fresh => .provide trivial fun _ => trivial
  · exact fun _ left right => (Facts.From.empty.invalidate trivial).invalidate trivial
  · exact fun _ target => Facts.From.empty.invalidate trivial

theorem corresponds_declared (c : Checker) :
    Scope.Corresponds (.alone fun _ => Sourced c.setSources) (fun f _ => Sourced c.setSources f)
      (fun _ _ => True) c.scope c.scope where
  toMerges := Sourced.merges (fun _ _ _ => trivial) fun _ _ _ _ => trivial
  definitions := rfl
  entry := rfl
  known _ := trivial
  facts _ := rfl
  own depth _ a s := own_declared depth a s
  reports _ _ _ _ := trivial
  loops _ _ := trivial
  unknown _ _ := trivial

theorem walked_declared {n : String} (hf : c.walked.table.lookup n = some f) :
    Sourced c.setSources f :=
  walked_alone c.corresponds_declared.bodies hf

theorem Produces.declared (h : c.Produces f) : Sourced c.setSources f := by
  obtain ⟨n, d, depth, p, a, s, hd, hp, ha, rfl⟩ := h
  have B := c.corresponds_declared.bodies
  have hcalls := calls_related B trivial hd hp.stack (fun _ _ => trivial) hp.stack.room
  have hwalk := c.corresponds_declared.alike
    (fun m hm => hcalls m (Activity.mem_calls_of_part ha hm)) s
  exact (hwalk.walks p p (hp.linked B) trivial).1

theorem runFacts_declared {main : Facts}
    (hmain : c.walked.table.lookup c.entryName = some main) :
    Sourced c.setSources ((c.runFacts main).run c.walked).1 := by
  have hm := walked_declared hmain
  rw [runFacts_value]
  cases hinit : c.walked.table.lookup c.initName with
  | none => exact hm
  | some init =>
    have hi := walked_declared hinit
    exact ⟨hi.1.sequence hm.1, hi.2.sequence hm.1 hm.2⟩

/-- All facts are proper: those of every activity that the check comes to, those in the table, and
those of the whole run. -/
theorem facts_proper (c : Checker) :
    (∀ f, c.Produces f → c.Proper f) ∧
    (∀ n f, c.progress.table.lookup n = some f → c.Proper f) ∧
    ∀ main, c.walked.table.lookup c.entryName = some main →
      c.Proper ((c.runFacts main).run c.walked).1 := by
  refine ⟨fun f hf => .of_sourced hf.declared, fun n f hf => ?_, fun main hmain => ?_⟩
  · rw [progress_table] at hf
    exact .of_sourced (walked_declared hf)
  · exact .of_sourced (runFacts_declared hmain)

/-- The moment when the check comes to the body of the entry point. -/
theorem courier_visits : courier.Visits "main" 1 { active := ["main"] } := by
  refine ⟨⟨by decide, by decide +kernel, by decide +kernel, ?_⟩, List.nil_prefix⟩
  intro m hm
  rw [List.mem_singleton.1 hm]

theorem facts_proper_courier :
    courier.Proper ((walk (courier.scope.setting 1) (receive "next") false).run
      { active := ["main"] }).1.1 ∧
    (∃ main, courier.progress.table.lookup "main" = some main ∧ courier.Proper main ∧
      courier.Proper ((courier.runFacts main).run courier.walked).1) := by
  obtain ⟨hproduced, htable, hrun⟩ := facts_proper courier
  have hd : courier.scope.definition? "main" = some ⟨{}, "main",
      .sequence {} [receive "start", .call {} "issue", token "sid", receive "next"]⟩ := rfl
  obtain ⟨main, hmain⟩ := courier.walked_lookup hd
  have hprogress : courier.progress.table.lookup "main" = some main := by
    rw [progress_table]; exact hmain
  refine ⟨hproduced _ ⟨"main", _, 1, _, receive "next", false, hd, courier_visits, ?_, rfl⟩,
    main, hprogress, htable _ _ hprogress, hrun main hmain⟩
  exact Activity.mem_parts_of_child (by simp [Activity.children])

end Sessions.Check.Checker
