import Sessions.Proofs.Check.Search

/-!
# Sessions.Proofs.Check.Ledger

Where the findings of a check come from. The body of a definition can be walked apart from all
others (`Scope.apart`): its calls are answered from a given table and not followed. A call of a
definition that is still open is answered by no facts.

`walked_ledger` says that a whole check is made up of such walks, one for each entry of the table:
the facts of the entry are those of its body walked apart, the answers being those of the table in
the end, and the diagnostics of all these walks together are those of the check. Which definitions
were open depends on where the search came from, but all of them reach the one whose body is
walked. So if that one is on no cycle of calls with another (`Scope.Lone`), only its calls of
itself are cut off, and the table alone explains it (`Explains.lone`).
-/

namespace Sessions.Check

/-- The answer to a call when `table` holds the facts in the end and the definitions in `cut` are
open. -/
def answer (table : List (String × Facts)) (cut : List String) (n : String) : Option Facts :=
  if n ∈ cut then some Facts.empty else table.lookup n

namespace Scope

/-- The rules of the scope; calls are answered and not followed. -/
def answering (s : Scope) (look : String → Option Facts) : Setting :=
  s.asking fun n => pure (look n)

/-- The facts and the diagnostics of a body by itself. -/
def apart (s : Scope) (look : String → Option Facts) (d : Definition) (n : String) :
    Facts × List Diagnostic :=
  let r := (walk (s.answering look) d.body (n == s.entry)).run {}
  (r.1.1, r.2.diagnostics)

/-- The entry has the facts of its body by itself, and `ds` are the diagnostics. The definitions
that were open when it was walked reach it. -/
def Explains (s : Scope) (table : List (String × Facts)) (e : String × Facts)
    (ds : List Diagnostic) : Prop :=
  ∃ d cut, s.definition? e.1 = some d ∧ e.1 ∈ cut ∧
    (∀ m ∈ cut, Relation.ReflTransGen s.Calls m e.1) ∧
    s.apart (answer table cut) d e.1 = (e.2, ds)

/-- From `p` to `q` the table grows by entries that are explained, and the diagnostics by those of
these entries and by `own`. -/
structure Books (s : Scope) (table : List (String × Facts)) (own : List Diagnostic)
    (p q : Progress) : Prop where
  orderly : s.Orderly q
  active : q.active = p.active
  entries : ∃ new dss, q.table = p.table ++ new ∧ List.Forall₂ (s.Explains table) new dss ∧
    q.diagnostics.Perm (p.diagnostics ++ (own ++ dss.flatten))

variable {s : Scope} {table : List (String × Facts)} {own own' : List Diagnostic}
  {p q r : Progress} {n : String}

theorem Orderly.lookup_open (h : s.Orderly p) (ha : n ∈ p.active) : p.table.lookup n = none := by
  rw [Text.lookup_eq_none_iff]
  intro hn
  exact (List.nodup_append.1 h.nodup).2.2 n hn n ha rfl

theorem Books.refl (h : s.Orderly p) : s.Books table [] p p :=
  ⟨h, rfl, [], [], by simp, .nil, by simp⟩

theorem Books.trans (h : s.Books table own p q) (h' : s.Books table own' q r) :
    s.Books table (own ++ own') p r := by
  obtain ⟨new, dss, ht, hall, hd⟩ := h.entries
  obtain ⟨new', dss', ht', hall', hd'⟩ := h'.entries
  refine ⟨h'.orderly, h'.active.trans h.active, new ++ new', dss ++ dss', ?_, ?_, ?_⟩
  · rw [ht', ht, List.append_assoc]
  · exact List.rel_append hall hall'
  · have hmove : (p.diagnostics ++ (own ++ dss.flatten) ++ (own' ++ dss'.flatten)).Perm
        (p.diagnostics ++ (own ++ own' ++ (dss ++ dss').flatten)) := by
      rw [List.flatten_append, List.append_assoc, List.append_assoc, List.append_assoc]
      exact ((List.perm_append_comm_assoc _ _ _).append_left own).append_left p.diagnostics
    exact (hd'.trans (hd.append_right _)).trans hmove

/-- Reports of the body that is walked are its own. -/
theorem Books.tell (h : s.Books table own p q) (ds : List Diagnostic) (lines : List String) :
    s.Books table (own ++ ds) p (q.tell ds lines) := by
  have hstep : s.Books table ds q (q.tell ds lines) :=
    ⟨⟨h.orderly.nodup, h.orderly.defined⟩, rfl, [], [], (List.append_nil _).symm, .nil,
      by simp [Progress.tell]⟩
  exact h.trans hstep

/-- A body that was walked is an entry of the table. -/
theorem Books.close {d : Definition} {cut : List String} {x : (Facts × Bool) × Progress}
    (h : s.Books table own { p with active := n :: p.active } x.2)
    (hd : s.definition? n = some d) (hn : n ∈ cut)
    (hreach : ∀ m ∈ cut, Relation.ReflTransGen s.Calls m n)
    (hx : s.apart (answer table cut) d n = (x.1.1, own)) :
    s.Books table [] p (close n x) := by
  obtain ⟨new, dss, ht, hall, hdiag⟩ := h.entries
  have hactive : x.2.active = n :: p.active := h.active
  refine ⟨h.orderly.close hactive, ?_, new ++ [(n, x.1.1)], dss ++ [own], ?_, ?_, ?_⟩
  · show x.2.active.erase n = p.active
    rw [hactive, List.erase_cons_head]
  · show x.2.table ++ _ = _
    rw [ht, List.append_assoc]
  · exact List.rel_append hall (.cons ⟨d, cut, hd, hn, hreach, hx⟩ .nil)
  · refine hdiag.trans (List.Perm.append_left _ ?_)
    rw [List.flatten_append, List.flatten_singleton, List.nil_append]
    exact List.perm_append_comm

/-- With the definitions in `active` open, the look-up of `n` gives the answer and leaves books that
balance, provided that the table it leads to is part of `table`. -/
def Balances (s : Scope) (table : List (String × Facts)) (active : List String) (depth : Nat)
    (n : String) : Prop :=
  ∀ p : Progress, p.active = active → s.Orderly p →
    ((s.define depth n).run p).2.table <+: table →
    ((s.define depth n).run p).1 = answer table active n ∧
      s.Books table [] p ((s.define depth n).run p).2

/-- The body of a definition that was just opened, walked in the search and by itself. -/
theorem opened_books {depth : Nat} {d : Definition}
    (hp : s.Orderly { p with active := n :: p.active })
    (hcalls : ∀ m ∈ d.body.calls, s.Balances table (n :: p.active) depth m)
    (hend : (s.opened depth d n p).2.table <+: table) :
    ∃ own, s.apart (answer table (n :: p.active)) d n = ((s.opened depth d n p).1.1, own) ∧
      s.Books table own { p with active := n :: p.active } (s.opened depth d n p).2 := by
  -- The two walks report the same, apart from what the search reports of other definitions.
  have hsteady : Steady fun q q' =>
      s.Books table q'.diagnostics { p with active := n :: p.active } q :=
    fun q q' ds lines h => h.tell ds lines
  have hlook : ∀ m ∈ d.body.calls, Simulates (fun q => q.table <+: table)
      (fun q q' => s.Books table q'.diagnostics { p with active := n :: p.active } q)
      (s.define depth m) (pure (answer table (n :: p.active) m)) := by
    intro m hm q q' h hq
    obtain ⟨hval, hbooks⟩ := hcalls m hm q h.active h.orderly hq
    have hboth := h.trans hbooks
    rw [List.append_nil] at hboth
    exact ⟨hval, hboth⟩
  have hwalk : Simulates _ _ (walk (s.setting depth) d.body (n == s.entry))
      (walk (s.answering (answer table (n :: p.active))) d.body (n == s.entry)) :=
    walk_simulates (s.sameRules _ _) (fun _ _ hpq hq => hpq.leads hq) hsteady d.body hlook _
  obtain ⟨hval, hbooks⟩ := hwalk { p with active := n :: p.active } {} (.refl hp) hend
  refine ⟨_, ?_, hbooks⟩
  have hfacts : (s.apart (answer table (n :: p.active)) d n).1 = (s.opened depth d n p).1.1 :=
    congrArg Prod.fst hval.symm
  rw [← hfacts]
  rfl

/-- A definition that is opened is booked, and the look-up gives its entry. -/
theorem define_open_books {depth : Nat} {d : Definition} (hs : s.Stack (n :: p.active) depth n)
    (hp : s.Orderly p) (ht : p.table.lookup n = none) (hd : s.definition? n = some d)
    (ha : n ∉ p.active) (hcalls : ∀ m ∈ d.body.calls, s.Balances table (n :: p.active) depth m)
    (hend : (close n (s.opened depth d n p)).table <+: table) :
    table.lookup n = some (s.opened depth d n p).1.1 ∧
      s.Books table [] p (close n (s.opened depth d n p)) := by
  have hopen : s.Orderly { p with active := n :: p.active } := hp.open (by rw [hd]; rfl) ht ha
  have hbody : (s.opened depth d n p).2.table <+: table := (List.prefix_append _ _).trans hend
  obtain ⟨own, hown, hbooks⟩ := opened_books hopen hcalls hbody
  refine ⟨?_, hbooks.close hd List.mem_cons_self hs.reaches hown⟩
  -- While the definition is open it is not in the table, so that its entry is the first one.
  have hnone : (s.opened depth d n p).2.table.lookup n = none :=
    hbooks.orderly.lookup_open (by rw [hbooks.active]; exact List.mem_cons_self)
  refine lookup_of_isPrefix hend ?_
  show List.lookup n ((s.opened depth d n p).2.table ++ [(n, _)]) = _
  rw [List.lookup_append, hnone, Option.none_or, List.lookup_cons_self]

theorem define_balances
    (hdefined : ∀ m f, table.lookup m = some f → (s.definition? m).isSome = true)
    {active : List String} {depth : Nat} (hs : s.Stack active depth n) :
    s.Balances table active depth n := by
  induction depth using Nat.strongRecOn generalizing n active with
  | _ depth ih =>
    rintro p rfl hp hend
    cases ht : p.table.lookup n with
    | some f =>
      -- The table only grows, so that the entry is there in the end.
      rw [define_known ht] at hend ⊢
      have ha : n ∉ p.active := by
        intro ha
        rw [hp.lookup_open ha] at ht
        cases ht
      rw [answer, if_neg ha, lookup_of_isPrefix hend ht]
      exact ⟨rfl, .refl hp⟩
    | none =>
      cases hd : s.definition? n with
      | none =>
        rw [define_unknown ht hd]
        have ha : n ∉ p.active := fun ha => by simpa [hd] using hs.defined n ha
        have hnone : table.lookup n = none := by
          cases h : table.lookup n with
          | none => rfl
          | some f => simpa [hd] using hdefined n f h
        rw [answer, if_neg ha, hnone]
        exact ⟨rfl, .refl hp⟩
      | some d =>
        by_cases ha : n ∈ p.active
        · rw [define_cut ht hd ha, answer, if_pos ha]
          exact ⟨rfl, .refl hp⟩
        · obtain ⟨k, rfl, hpush⟩ := hs.push ha (by rw [hd]; rfl)
          rw [define_open ht hd ha] at hend ⊢
          rw [answer, if_neg ha]
          have hcalls : ∀ m ∈ d.body.calls, s.Balances table (n :: p.active) k m :=
            fun m hm => ih k (Nat.lt_succ_self k) (hpush.call ⟨d, hd, hm⟩)
          obtain ⟨hval, hbooks⟩ := define_open_books hpush hp ht hd ha hcalls hend
          exact ⟨hval.symm, hbooks⟩

theorem defineAll_books
    (hdefined : ∀ m f, table.lookup m = some f → (s.definition? m).isSome = true)
    {ds : List Definition} (ha : p.active = []) (hp : s.Orderly p)
    (hend : ((s.defineAll ds).run p).2.table <+: table) :
    s.Books table [] p ((s.defineAll ds).run p).2 := by
  induction ds generalizing p with
  | nil => exact .refl hp
  | cons d rest ih =>
    rw [defineAll, run_bind] at hend ⊢
    have hstage : ((s.define s.definitions.length d.name).run p).2.table <+: table :=
      (Grows.precedes _).table.trans hend
    obtain ⟨-, hfirst⟩ := define_balances hdefined (.nil s d.name) p ha hp hstage
    exact hfirst.trans (ih (by rw [hfirst.active, ha]) hfirst.orderly hend)

/-! ## Definitions that share no cycle -/

/-- No other definition is on a cycle of calls with this one. It may call itself. -/
def Lone (s : Scope) (n : String) : Prop :=
  ∀ m, Relation.ReflTransGen s.Calls n m → Relation.ReflTransGen s.Calls m n → m = n

theorem Acyclic.lone (h : s.Acyclic) (n : String) : s.Lone n := by
  intro m hnm hmn
  rcases hnm.cases_head with rfl | ⟨x, hx, hxm⟩
  · rfl
  · exact absurd (Relation.TransGen.head' hx (hxm.trans hmn)) (h n)

/-- Calls go down in rank, apart from those of a definition to itself. -/
theorem lone_of_rank (rank : String → Nat)
    (h : ∀ d ∈ s.definitions, ∀ m ∈ d.body.calls, m = d.name ∨ rank m < rank d.name)
    (n : String) : s.Lone n := by
  have hcalls : ∀ n m, s.Calls n m → m = n ∨ rank m < rank n := by
    rintro n m ⟨d, hd, hm⟩
    have hdown := h d (List.mem_of_find?_eq_some hd) m hm
    rwa [name_of_definition? hd] at hdown
  have hreach : ∀ n m, Relation.ReflTransGen s.Calls n m → m = n ∨ rank m < rank n := by
    intro n m hm
    induction hm with
    | refl => exact .inl rfl
    | tail _ hstep ih =>
      rcases hcalls _ _ hstep with rfl | hlt
      · exact ih
      · rcases ih with rfl | ih
        · exact .inr hlt
        · exact .inr (Nat.lt_trans hlt ih)
  intro m hnm hmn
  rcases hreach n m hnm with rfl | hlt
  · rfl
  · rcases hreach m n hmn with rfl | hgt
    · rfl
    · omega

/-- Induction along the calls from `n`, where cycles are left aside. -/
theorem Stack.induct {P : Nat → String → Prop}
    (unknown : ∀ depth n, s.definition? n = none → P depth n)
    (known : ∀ depth n d, s.definition? n = some d → s.Lone n →
      (∀ m ∈ d.body.calls, m ≠ n → P depth m) → P (depth + 1) n)
    {active : List String} {depth : Nat} (hs : s.Stack active depth n) (ha : n ∉ active)
    (hlone : ∀ m, Relation.ReflTransGen s.Calls n m → s.Lone m) : P depth n := by
  induction depth generalizing active n with
  | zero =>
    cases hd : s.definition? n with
    | none => exact unknown 0 n hd
    | some d =>
      obtain ⟨k, hk, -⟩ := hs.push ha (by rw [hd]; rfl)
      cases hk
  | succ depth ih =>
    cases hd : s.definition? n with
    | none => exact unknown _ n hd
    | some d =>
      obtain ⟨k, hk, hpush⟩ := hs.push ha (by rw [hd]; rfl)
      cases hk
      refine known depth n d hd (hlone n .refl) fun m hm hne => ?_
      have hcall : s.Calls n m := ⟨d, hd, hm⟩
      -- A call back into the stack would close a cycle with `n`.
      refine ih (hpush.call hcall) (fun hopen => hne ?_) fun x hx => hlone x (.head hcall hx)
      exact hlone n .refl m (.single hcall) (hpush.reaches m hopen)

/-- Only the answers to the calls of a body matter. -/
theorem apart_congr {look look' : String → Option Facts} {d : Definition}
    (h : ∀ m ∈ d.body.calls, look m = look' m) (n : String) :
    s.apart look d n = s.apart look' d n := by
  have hwalk : walk (s.answering look) d.body (n == s.entry) =
      walk (s.answering look') d.body (n == s.entry) := by
    refine (walk_performs (s.sameRules _ _) d.body _).eq fun l m hm => ?_
    show pure (look m) = (pure (look' m) : Walk _)
    rw [h m (Activity.mem_calls_of_mem_scan hm)]
  rw [apart, apart, hwalk]

/-- Of the calls in such a definition only those of itself are cut off. -/
theorem Explains.lone {e : String × Facts} {ds : List Diagnostic} (h : s.Explains table e ds)
    (hlone : s.Lone e.1) :
    ∃ d, s.definition? e.1 = some d ∧ s.apart (answer table [e.1]) d e.1 = (e.2, ds) := by
  obtain ⟨d, cut, hd, hself, hreach, hapart⟩ := h
  refine ⟨d, hd, ?_⟩
  rw [← hapart]
  refine apart_congr (fun m hm => ?_) e.1
  have hcut : m ∈ [e.1] ↔ m ∈ cut := by
    rw [List.mem_singleton]
    constructor
    · rintro rfl
      exact hself
    · intro hcut
      exact hlone m (.single ⟨d, hd, hm⟩) (hreach m hcut)
  simp only [answer, hcut]

end Scope

namespace Checker

/-- The definitions have facts, and nothing else has. -/
theorem walked_isSome_iff (c : Checker) (n : String) :
    (c.walked.table.lookup n).isSome = true ↔ (c.scope.definition? n).isSome = true := by
  rw [Scope.definition?_isSome_iff, ← c.names_walked.mem_iff, ← not_iff_not,
    ← Text.lookup_eq_none_iff, Option.not_isSome_iff_eq_none]

theorem walked_unknown {c : Checker} {n : String} (h : c.scope.definition? n = none) :
    c.walked.table.lookup n = none := by
  rw [← Option.not_isSome_iff_eq_none, c.walked_isSome_iff, h]
  exact Bool.false_ne_true

/-- The check is made up of the definitions walked by themselves. -/
theorem walked_ledger (c : Checker) :
    ∃ dss, List.Forall₂ (c.scope.Explains c.walked.table) c.walked.table dss ∧
      c.walked.diagnostics.Perm dss.flatten := by
  have hdefined : ∀ m f, c.walked.table.lookup m = some f →
      (c.scope.definition? m).isSome = true := by
    intro m f hm
    rw [← walked_isSome_iff, hm]
    rfl
  have hbooks : c.scope.Books c.walked.table [] c.start c.walked :=
    Scope.defineAll_books hdefined c.start_active
      (Scope.Orderly.nil _ c.start_table c.start_active) List.prefix_rfl
  obtain ⟨new, dss, ht, hall, hd⟩ := hbooks.entries
  rw [c.start_table, List.nil_append] at ht
  rw [c.start_diagnostics, List.nil_append, List.nil_append] at hd
  rw [← ht] at hall
  exact ⟨dss, hall, hd⟩

/-- The diagnostics of one sort, where the entries tell for each name what they are. -/
theorem filter_walked (c : Checker) (sort : Diagnostic → Bool) {own : String → List Diagnostic}
    (h : ∀ e ds, c.scope.Explains c.walked.table e ds → ds.filter sort = own e.1) :
    (c.walked.diagnostics.filter sort).Perm
      ((c.scope.definitions.map (·.name)).flatMap own) := by
  obtain ⟨dss, hall, hd⟩ := c.walked_ledger
  have hown : ∀ entries dss, List.Forall₂ (c.scope.Explains c.walked.table) entries dss →
      dss.flatten.filter sort = (entries.map (·.1)).flatMap own := by
    intro entries dss hall
    induction hall with
    | nil => rfl
    | cons he _ ih =>
      rw [List.flatten_cons, List.filter_append, h _ _ he, ih, List.map_cons, List.flatMap_cons]
  refine (hd.filter sort).trans ?_
  rw [hown _ _ hall]
  exact c.names_walked.flatMap_right own

theorem walked_explains {c : Checker} {n : String} {f : Facts}
    (hf : c.walked.table.lookup n = some f) :
    ∃ ds, c.scope.Explains c.walked.table (n, f) ds := by
  obtain ⟨dss, hall, -⟩ := c.walked_ledger
  have hmem : (n, f) ∈ c.walked.table := Text.mem_of_lookup hf
  have hleft : ∀ entries dss, List.Forall₂ (c.scope.Explains c.walked.table) entries dss →
      ∀ e ∈ entries, ∃ ds, c.scope.Explains c.walked.table e ds := by
    intro entries dss h
    induction h with
    | nil => exact List.forall_mem_nil _
    | cons he _ ih => exact List.forall_mem_cons.2 ⟨⟨_, he⟩, ih⟩
  exact hleft _ _ hall _ hmem

end Checker

end Sessions.Check
