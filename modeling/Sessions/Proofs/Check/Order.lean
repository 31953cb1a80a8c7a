import Sessions.Proofs.Check.Ledger

/-!
# Sessions.Proofs.Check.Order

The order in which a program declares its definitions. Of two definitions that call each other, the
one that is walked first finds the other cut off, and which one that is depends on the order:
`order_decides` shows a program that is valid in one order and not in another.

`order_irrelevant`: apart from such pairs the order plays no role. A definition has the same facts
in every order if no two definitions that it reaches call each other; and a program without such
pairs has the same diagnostics, and so the same verdict, in every order. A definition that calls
itself does no harm.
-/

namespace Sessions

namespace Program

/-- Each name is defined in the same way by both programs. -/
structure Reorders (q q' : Program) : Prop where
  loc : q.loc = q'.loc
  find : ∀ n, q.definitions.find? (fun d => d.name == n) =
    q'.definitions.find? fun d => d.name == n

theorem Reorders.of_perm {q q' : Program} (hloc : q.loc = q'.loc) (hperm : q.items.Perm q'.items)
    (hnodup : (q.definitions.map (·.name)).Nodup) : q.Reorders q' := by
  have hdefs : q.definitions.Perm q'.definitions := hperm.filterMap _
  have hnodup' : (q'.definitions.map (·.name)).Nodup := (hdefs.map _).nodup_iff.1 hnodup
  refine ⟨hloc, fun n => ?_⟩
  cases hd : q.definitions.find? (fun d => d.name == n) with
  | some d =>
    have hname : d.name = n := by simpa using List.find?_some hd
    rw [← hname]
    exact (find?_of_nodup hnodup' (hdefs.subset (List.mem_of_find?_eq_some hd))).symm
  | none =>
    symm
    rw [List.find?_eq_none] at hd ⊢
    exact fun d hmem => hd d (hdefs.symm.subset hmem)

end Program

namespace Check

namespace Checker

section Reordered

variable {c : Checker} {q q' : Program}

theorem definition?_reordered (h : q.Reorders q') (n : String) :
    (c.on q).scope.definition? n = (c.on q').scope.definition? n := by
  rw [definition?_eq, definition?_eq]
  exact h.find n

theorem lone_reordered (h : q.Reorders q') {n : String} (hlone : (c.on q).scope.Lone n) :
    (c.on q').scope.Lone n := by
  have hcalls : (c.on q').scope.Calls = (c.on q).scope.Calls := by
    funext n m
    rw [Scope.Calls, Scope.Calls, definition?_reordered h]
  rw [Scope.Lone, hcalls]
  exact hlone

/-- Where the calls of a definition have the same facts in both orders, so has the definition. -/
theorem facts_reordered (h : q.Reorders q') {n : String} {d : Definition} {f f' : Facts}
    (hd : (c.on q).scope.definition? n = some d) (hlone : (c.on q).scope.Lone n)
    (hcalls : ∀ m ∈ d.body.calls, m ≠ n →
      (c.on q).walked.table.lookup m = (c.on q').walked.table.lookup m)
    (hf : (c.on q).walked.table.lookup n = some f)
    (hf' : (c.on q').walked.table.lookup n = some f') : f = f' := by
  obtain ⟨ds, hentry⟩ := walked_explains hf
  obtain ⟨ds', hentry'⟩ := walked_explains hf'
  obtain ⟨e, he, hown⟩ := hentry.lone hlone
  obtain ⟨e', he', hown'⟩ := hentry'.lone (lone_reordered h hlone)
  rw [← definition?_reordered h] at he'
  obtain rfl : d = e := Option.some.inj (hd.symm.trans he)
  obtain rfl : d = e' := Option.some.inj (hd.symm.trans he')
  have hanswer : ∀ m ∈ d.body.calls, answer (c.on q).walked.table [n] m =
      answer (c.on q').walked.table [n] m := by
    intro m hm
    by_cases hne : m = n
    · simp [answer, hne]
    · simp [answer, hne, hcalls m hm hne]
  have hsame : (f, ds) = (f', ds') := by
    rw [← hown, ← hown', Scope.apart_congr hanswer]
    rfl
  exact congrArg Prod.fst hsame

theorem lookup_reordered (h : q.Reorders q') {n : String}
    (hlone : ∀ m, Relation.ReflTransGen (c.on q).scope.Calls n m → (c.on q).scope.Lone m) :
    (c.on q).walked.table.lookup n = (c.on q').walked.table.lookup n := by
  refine (Scope.Stack.nil (c.on q).scope n).induct (P := fun _ n =>
    (c.on q).walked.table.lookup n = (c.on q').walked.table.lookup n) ?_ ?_ List.not_mem_nil hlone
  · intro _ n hd
    have hd' := hd
    rw [definition?_reordered h] at hd'
    rw [walked_unknown hd, walked_unknown hd']
  · intro _ n d hd hself ih
    have hd' := hd
    rw [definition?_reordered h] at hd'
    obtain ⟨f, hf⟩ := walked_lookup _ hd
    obtain ⟨f', hf'⟩ := walked_lookup _ hd'
    rw [hf, hf', facts_reordered h hd hself ih hf hf']

/-- What the check of a definition reports by itself, where no two definitions call each other. -/
def own (c : Checker) (n : String) : List Diagnostic :=
  ((c.scope.definition? n).map fun d =>
    (c.scope.apart (answer c.walked.table [n]) d n).2).getD []

theorem walked_own (hlone : ∀ n, c.scope.Lone n) :
    c.walked.diagnostics.Perm ((c.scope.definitions.map (·.name)).flatMap c.own) := by
  have hown : ∀ e ds, c.scope.Explains c.walked.table e ds →
      ds.filter (fun _ => true) = c.own e.1 := by
    intro e ds h
    obtain ⟨d, hd, hapart⟩ := h.lone (hlone e.1)
    rw [List.filter_true, own, hd, Option.map_some, Option.getD_some, hapart]
  have hwalked := c.filter_walked (fun _ => true) hown
  rwa [List.filter_true] at hwalked

theorem own_reordered (h : q.Reorders q')
    (hlookup : ∀ n, (c.on q).walked.table.lookup n = (c.on q').walked.table.lookup n)
    (n : String) : (c.on q).own n = (c.on q').own n := by
  have hanswer : answer (c.on q).walked.table [n] = answer (c.on q').walked.table [n] := by
    funext m
    rw [answer, answer, hlookup]
  rw [own, own, definition?_reordered h, hanswer]
  rfl

theorem names_reordered (h : q.Reorders q') :
    ((c.on q).scope.definitions.map (·.name)).Perm
      ((c.on q').scope.definitions.map (·.name)) := by
  have hnodup : ∀ q, ((c.on q).scope.definitions.map (·.name)).Nodup := fun q =>
    nodup_names_firstDefinitions (c.on q).declared
  rw [List.perm_ext_iff_of_nodup (hnodup q) (hnodup q')]
  intro n
  rw [← Scope.definition?_isSome_iff, definition?_reordered h, Scope.definition?_isSome_iff]

theorem verdict_reordered (h : q.Reorders q') (init main : Option Facts) :
    (c.on q).verdict init main = (c.on q').verdict init main := by
  cases main with
  | none =>
    cases init <;> simp [verdict, on, h.loc]
  | some main => cases init <;> rfl

open scoped List in
theorem diagnostics_reordered (h : q.Reorders q') (hlone : ∀ n, (c.on q).scope.Lone n) :
    (c.on q).check.diagnostics.Perm (c.on q').check.diagnostics := by
  have hlookup : ∀ n, (c.on q).walked.table.lookup n = (c.on q').walked.table.lookup n :=
    fun n => lookup_reordered h fun m _ => hlone m
  rw [check_diagnostics, check_diagnostics, hlookup, hlookup, verdict_reordered h]
  refine List.Perm.append_right _ ?_
  calc (c.on q).walked.diagnostics
    _ ~ ((c.on q).scope.definitions.map (·.name)).flatMap (c.on q).own := walked_own hlone
    _ ~ ((c.on q').scope.definitions.map (·.name)).flatMap (c.on q).own :=
      (names_reordered h).flatMap_right _
    _ = ((c.on q').scope.definitions.map (·.name)).flatMap (c.on q').own := by
      rw [funext (own_reordered h hlookup)]
    _ ~ (c.on q').walked.diagnostics := (walked_own fun n => lone_reordered h (hlone n)).symm

end Reordered

/-- Where no two definitions call each other, the order of a program does not matter. -/
theorem order_irrelevant (c : Checker) {q q' : Program} (hloc : q.loc = q'.loc)
    (hperm : q.items.Perm q'.items) (hnodup : (q.definitions.map (·.name)).Nodup) :
    (∀ n, (∀ m, Relation.ReflTransGen (c.on q).scope.Calls n m → (c.on q).scope.Lone m) →
      (c.on q).progress.table.lookup n = (c.on q').progress.table.lookup n) ∧
    ((∀ n, (c.on q).scope.Lone n) →
      (c.on q).check.diagnostics.Perm (c.on q').check.diagnostics ∧
      (c.on q).check.valid = (c.on q').check.valid) := by
  have h : q.Reorders q' := .of_perm hloc hperm hnodup
  refine ⟨fun n hlone => ?_, fun hlone => ?_⟩
  · rw [progress_table, progress_table]
    exact lookup_reordered h hlone
  · have hdiag := diagnostics_reordered h hlone
    exact ⟨hdiag, hdiag.isEmpty_eq⟩

/-- A session that starts, and goes on with the given definition. -/
def startsWith (name : String) : Item :=
  .definition ⟨{}, "main", .sequence {} [receive "start", .call {} name]⟩

/-- The check of these definitions, with one correlation set. -/
def sidSession : Checker where
  program := none
  correlation := some { sets := [corrSet "S" ["sid"]], operations := [] }
  fresh _ _ := ⟨false, none⟩

/-- A definition that makes up a session id and starts over. -/
def retryItems : List Item :=
  [startsWith "retry", .definition ⟨{}, "retry", .sequence {} [token "sid", .call {} "retry"]⟩]

theorem order_irrelevant_retry :
    (sidSession.on ⟨{}, retryItems⟩).scope.Calls "retry" "retry" ∧
      (sidSession.on ⟨{}, retryItems⟩).check.valid = true ∧
      (sidSession.on ⟨{}, retryItems.reverse⟩).check.valid = true := by
  have hlone : ∀ n, (sidSession.on ⟨{}, retryItems⟩).scope.Lone n := by
    refine Scope.lone_of_rank (fun n => if n = "main" then 1 else 0) ?_
    decide +kernel
  have hnodup : ((Program.definitions ⟨{}, retryItems⟩).map (·.name)).Nodup := by decide +kernel
  have hperm : (Program.mk {} retryItems).items.Perm (Program.mk {} retryItems.reverse).items :=
    (List.reverse_perm retryItems).symm
  have hloc : (Program.mk {} retryItems).loc = (Program.mk {} retryItems.reverse).loc := rfl
  have hvalid : (sidSession.on ⟨{}, retryItems⟩).check.valid = true := by decide +kernel
  have hsame := ((order_irrelevant sidSession hloc hperm hnodup).2 hlone).2
  exact ⟨⟨_, rfl, by decide +kernel⟩, hvalid, hsame ▸ hvalid⟩

/-- Two definitions that call each other. One of them makes up the session id. -/
def pollItems : List Item :=
  [startsWith "poll", .definition ⟨{}, "poll", .call {} "login"⟩,
    .definition ⟨{}, "login", .sequence {} [token "sid", .call {} "poll"]⟩]

/-- If `login` is walked first, then `poll` does not learn of the session id. -/
theorem order_decides :
    pollItems.reverse.Perm pollItems ∧
      ((Program.definitions ⟨{}, pollItems⟩).map (·.name)).Nodup ∧
      (sidSession.on ⟨{}, pollItems⟩).check.valid = true ∧
      (sidSession.on ⟨{}, pollItems.reverse⟩).check.valid = false ∧
      ((sidSession.on ⟨{}, pollItems⟩).progress.table.lookup "poll").map
        (·.providedCorr.keys) = some [(corrPath "sid").key] ∧
      ((sidSession.on ⟨{}, pollItems.reverse⟩).progress.table.lookup "poll").map
        (·.providedCorr.keys) = some [] := by
  refine ⟨List.reverse_perm _, ?_, ?_, ?_, ?_, ?_⟩ <;> decide +kernel

end Checker

end Check

end Sessions
