import Mathlib.Data.Set.Card
import Sessions.Analysis
import Sessions.Proofs.Check.Scan
import Sessions.Proofs.Graph.CallGraph
import Sessions.Proofs.Program.Inspection
import Sessions.Proofs.Text.Order

/-!
# Sessions.Proofs.Program.Analysis

What the analysis of a program counts and lists, in terms of the occurrences of nodes in it. The
check has a walk of its own; every name that it reports as undefined is listed by the analysis
(`undefined_missing`).
-/

namespace Sessions

namespace Layout

variable {L : Layout} {root n : Node} {q : List Nat}

/-- A walk that prunes nothing reaches whatever stands somewhere. -/
theorem reaches_all_iff : L.Reaches (fun _ => true) root q n ↔ L.at? root q = some n :=
  and_iff_left fun _ _ _ _ _ => rfl

theorem mem_all_iff (L : Layout) : n ∈ root.all ↔ ∃ q, L.at? root q = some n := by
  obtain ⟨ps, h⟩ := L.exists_visits (fun _ => true) root
  rw [Node.all, ← h.nodes, List.mem_map]
  simp only [← reaches_all_iff, ← h.reached]
  constructor
  · rintro ⟨⟨q, n⟩, hp, rfl⟩
    exact ⟨q, hp⟩
  · rintro ⟨q, hp⟩
    exact ⟨(q, n), hp, rfl⟩

/-- As many nodes of a kind are visited as occur. -/
theorem encard_occurrences (L : Layout) (root : Node) (kind : Node → Bool) :
    {q | ∃ n, L.at? root q = some n ∧ kind n = true}.encard = (root.all.countP kind : ℕ∞) := by
  obtain ⟨ps, h⟩ := L.exists_visits (fun _ => true) root
  have hnodup : ((ps.filter fun p => kind p.2).map Prod.fst).Nodup := by
    have hsublist : (ps.filter fun p => kind p.2).Sublist ps := List.filter_sublist
    exact (h.preorder.sublist (hsublist.map Prod.fst)).imp fun h => ne_of_lt h
  -- Occurrences of one node in several places are told apart by where they stand.
  have hset : {q | ∃ n, L.at? root q = some n ∧ kind n = true} =
      (((ps.filter fun p => kind p.2).map Prod.fst).toFinset : Set (List Nat)) := by
    ext q
    simp only [Set.mem_ofPred_eq, List.coe_toFinset, List.mem_map, List.mem_filter,
      ← reaches_all_iff, ← h.reached]
    constructor
    · rintro ⟨n, hp, hn⟩
      exact ⟨(q, n), ⟨hp, hn⟩, rfl⟩
    · rintro ⟨⟨q, n⟩, ⟨hp, hn⟩, rfl⟩
      exact ⟨n, hp, hn⟩
  rw [hset, Set.encard_coe_eq_coe_finsetCard, List.toFinset_card_of_nodup hnodup, List.length_map,
    Node.all, ← h.nodes, List.countP_map, List.countP_eq_length_filter]
  rfl

end Layout

namespace Analysis

/-! ## Lists of names -/

/-- The names are those in the set, each once, in the order of their bytes. -/
structure Enumerates (names : List String) (s : Set String) : Prop where
  sorted : names.Pairwise fun a b => Text.bytesOf a < Text.bytesOf b
  mem : ∀ n, n ∈ names ↔ n ∈ s

theorem enumerates_sortedNames (names : List String) :
    Enumerates (sortedNames names) {n | n ∈ names} := by
  have hperm : (sortedNames names).Perm names.eraseDups := List.mergeSort_perm _ _
  refine ⟨?_, fun n => hperm.mem_iff.trans List.mem_eraseDups⟩
  have hsorted := Text.pairwise_mergeSort id names.eraseDups
  have hnodup : (sortedNames names).Nodup := hperm.nodup_iff.2 (Graph.firsts_eraseDups names).nodup
  refine (hsorted.and hnodup).imp fun {a b} h => ?_
  rw [← Text.lt_iff_bytesOf, ← String.not_le]
  exact fun hle => h.2 (String.le_antisymm h.1 hle)

/-! ## Counters -/

/-- The kinds of nodes that have a counter. -/
inductive NodeKind where
  | definition
  | declaration
  | call
  | input
  | output
  | assignment
  | loop
  | choice
  | parallel

/-- Which nodes are of a kind. -/
inductive NodeKind.Has : NodeKind → Node → Prop
  | definition (d : Definition) : Has .definition (.definition d)
  | declaration (d : Declaration) : Has .declaration (.declaration d)
  | call (l : Location) (name : String) : Has .call (.activity (.call l name))
  | oneWay (l : Location) (operation : String) (target : Option Path) :
      Has .input (.activity (.oneWay l operation target))
  | requestResponse (l : Location) (operation : String) (target : Option Path) (output : Expr)
      (handler : Activity) :
      Has .input (.activity (.requestResponse l operation target output handler))
  | notification (l : Location) (operation port : String) (output : Expr) :
      Has .output (.activity (.notification l operation port output))
  | solicitResponse (l : Location) (operation port : String) (output : Expr)
      (target : Option Path) :
      Has .output (.activity (.solicitResponse l operation port output target))
  | assign (l : Location) (target : Path) (op : String) (value : Expr) :
      Has .assignment (.activity (.assign l target op value))
  | whileLoop (l : Location) (cond : Expr) (body : Activity) :
      Has .loop (.activity (.whileLoop l cond body))
  | forLoop (l : Location) (first : Activity) (cond : Expr) (post body : Activity) :
      Has .loop (.activity (.forLoop l first cond post body))
  | forEach (l : Location) (key target : Option Path) (body : Activity) :
      Has .loop (.activity (.forEach l key target body))
  | choice (l : Location) (branches : List Branch) : Has .choice (.activity (.choice l branches))
  | cond (l : Location) (arms : List Arm) (otherwise : Activity) :
      Has .choice (.activity (.cond l arms otherwise))
  | parallel (l : Location) (children : List Activity) :
      Has .parallel (.activity (.parallel l children))

/-- The counter of a kind. -/
def count (a : Analysis) : NodeKind → Nat
  | .definition => a.definitions
  | .declaration => a.declarations
  | .call => a.calls
  | .input => a.inputs
  | .output => a.outputs
  | .assignment => a.assignments
  | .loop => a.loops
  | .choice => a.choices
  | .parallel => a.parallels

/-- How the analysis tells that a node is of a kind. -/
def NodeKind.test : NodeKind → Node → Bool
  | .definition => isDefinition
  | .declaration => isDeclaration
  | .call => fun n => (calleeOf? n).isSome
  | .input => fun n => (inputOf? n).isSome
  | .output => isOutput
  | .assignment => isAssignment
  | .loop => isLoop
  | .choice => isChoice
  | .parallel => isParallel

theorem NodeKind.test_of_has {k : NodeKind} {n : Node} (h : k.Has n) : k.test n = true := by
  cases h <;> rfl

theorem NodeKind.has_of_test {k : NodeKind} {n : Node} (h : k.test n = true) : k.Has n := by
  cases n with
  | definition d => cases k <;> first | exact .definition d | cases h
  | declaration d => cases k <;> first | exact .declaration d | cases h
  | activity a => cases k <;> cases a <;> first | constructor | cases h
  | _ => cases k <;> cases h

theorem count_ofProgram (p : Program) (table : Option Correlation.Table) (k : NodeKind) :
    (ofProgram p table).count k = (Node.program p).all.countP k.test := by
  cases k <;> simp [count, NodeKind.test, ofProgram, List.length_filterMap_eq_countP]

theorem encard_kind (L : Layout) (p : Program) (table : Option Correlation.Table) (k : NodeKind) :
    {q | ∃ n, L.at? (.program p) q = some n ∧ k.Has n}.encard = (ofProgram p table).count k := by
  have hkind : ∀ n, k.Has n ↔ k.test n = true := fun n =>
    ⟨NodeKind.test_of_has, NodeKind.has_of_test⟩
  simp only [hkind]
  rw [L.encard_occurrences, count_ofProgram]

/-! ## Calls -/

variable {p : Program} {L : Layout} {n : String}

theorem calleeOf?_eq_some {m : Node} :
    calleeOf? m = some n ↔ ∃ l, m = .activity (.call l n) := by
  unfold calleeOf?
  split
  · next l name => simp [eq_comm]
  · next h =>
    refine ⟨nofun, ?_⟩
    rintro ⟨l, rfl⟩
    exact (h l n rfl).elim

theorem mem_called_iff (L : Layout) : n ∈ (Node.program p).all.filterMap calleeOf? ↔
    ∃ q l, L.at? (.program p) q = some (.activity (.call l n)) := by
  simp only [List.mem_filterMap, calleeOf?_eq_some, L.mem_all_iff]
  constructor
  · rintro ⟨_, ⟨q, hq⟩, l, rfl⟩
    exact ⟨q, l, hq⟩
  · rintro ⟨q, l, hq⟩
    exact ⟨_, ⟨q, hq⟩, l, rfl⟩

theorem enumerates_orphans (L : Layout) (p : Program) (table : Option Correlation.Table) :
    Enumerates (ofProgram p table).orphans {n | (∃ d ∈ p.definitions, d.name = n) ∧
      n ≠ "main" ∧ n ≠ "init" ∧ ∀ q l, L.at? (.program p) q ≠ some (.activity (.call l n))} := by
  refine ⟨(enumerates_sortedNames _).sorted, fun n => ?_⟩
  refine ((enumerates_sortedNames _).mem n).trans ?_
  have hcalled := mem_called_iff (p := p) (n := n) L
  simp only [Set.mem_ofPred_eq, List.mem_filter, List.mem_map, Bool.not_eq_true',
    Bool.or_eq_false_iff, beq_eq_false_iff_ne, List.contains_eq_mem, decide_eq_false_iff_not,
    hcalled]
  simp [and_assoc]

theorem enumerates_missing (L : Layout) (p : Program) (table : Option Correlation.Table) :
    Enumerates (ofProgram p table).missing
      {n | (∃ q l, L.at? (.program p) q = some (.activity (.call l n))) ∧
        ∀ d ∈ p.definitions, d.name ≠ n} := by
  refine ⟨(enumerates_sortedNames _).sorted, fun n => ?_⟩
  refine ((enumerates_sortedNames _).mem n).trans ?_
  have hcalled := mem_called_iff (p := p) (n := n) L
  simp only [Set.mem_ofPred_eq, List.mem_filter, hcalled]
  simp

/-! ## Undefined names -/

theorem mem_called_of_mem_calls {d : Definition} (hd : d ∈ p.definitions) (hn : n ∈ d.body.calls) :
    n ∈ (Node.program p).all.filterMap calleeOf? := by
  obtain ⟨a, ha, hcallee⟩ := List.mem_filterMap.1 hn
  obtain ⟨l, rfl⟩ : ∃ l, a = .call l n := by
    cases a <;> simp_all [Activity.callee?]
  have hbody : Node.activity (.call l n) ∈ (Node.activity d.body).all :=
    Activity.mem_all_of_mem_parts ha rfl
  have hthere : (Node.activity d.body).isThere = true := by
    by_contra h
    rw [Node.all, Node.visit_of_not_isThere _ (by simpa using h)] at hbody
    exact List.not_mem_nil hbody
  have hdefinition : Node.activity (.call l n) ∈ (Node.definition d).all :=
    Node.mem_all_of_child (List.mem_filter.2 ⟨List.mem_singleton_self _, hthere⟩) hbody
  obtain ⟨i, hi, hid⟩ := List.mem_filterMap.1 hd
  have hprogram : Node.definition d ∈ (Node.program p).children := by
    refine List.mem_filter.2 ⟨List.mem_map.2 ⟨i, hi, ?_⟩, rfl⟩
    cases i <;> simp_all [Item.node]
  exact List.mem_filterMap.2 ⟨_, Node.mem_all_of_child hprogram hdefinition, rfl⟩

open Check

theorem reception_kind {l l' : Location} {op : String} {target : Option Path} {pr : Problem}
    (h : .fault l pr ∈ receptionFindings l' op target) : pr.kind ≠ .undefinedDefinition := by
  unfold receptionFindings at h
  split at h
  · split at h
    · cases List.mem_singleton.1 h
      intro hkind
      cases hkind
    · exact (List.not_mem_nil h).elim
  · exact (List.not_mem_nil h).elim

/-- Of the findings only calls are about definitions. -/
theorem fault_kind {a : Activity} {l : Location} {pr : Problem} (h : .fault l pr ∈ a.findings) :
    pr.kind ≠ .undefinedDefinition := by
  cases a with
  | call l' m => simp [Activity.findings] at h
  | oneWay l' op target => exact reception_kind h
  | requestResponse l' op target output handler => exact reception_kind h
  | increment l' p pre decrement =>
    rw [Activity.findings] at h
    split at h
    · cases List.mem_singleton.1 h
      intro hkind
      cases hkind
    · exact (List.not_mem_nil h).elim
  | assign l' target op value =>
    rw [Activity.findings] at h
    split at h
    · exact (List.not_mem_nil h).elim
    · split at h
      · cases List.mem_singleton.1 h
        intro hkind
        cases hkind
      · split at h
        · exact (List.not_mem_nil h).elim
        · cases List.mem_singleton.1 h
          intro hkind
          cases hkind
  | _ => exact (List.not_mem_nil h).elim

/-- What the scan of a body reports as undefined is a name that it calls and nobody declares. -/
theorem undefined_of_scan {a : Activity} {names : List String} {d : Diagnostic}
    (hd : d ∈ a.scan.flatMap (Finding.diagnostics names))
    (hk : d.kind = Kind.undefinedDefinition.name) :
    ∃ l n, d = Diagnostic.ofProblem l (.noDefinition n) ∧ n ∈ a.calls ∧ n ∉ names := by
  obtain ⟨f, hf, hd⟩ := List.mem_flatMap.1 hd
  cases f with
  | call l n =>
    rw [Finding.diagnostics] at hd
    split at hd
    · exact (List.not_mem_nil hd).elim
    · next hn => exact ⟨l, n, List.mem_singleton.1 hd, Activity.mem_calls_of_mem_scan hf, hn⟩
  | fault l pr =>
    rw [List.mem_singleton.1 hd] at hk
    obtain ⟨b, -, hb⟩ := List.mem_flatMap.1 hf
    exact absurd (kind_name_injective hk) (fault_kind hb)

/-- Every name that a check reports as undefined is listed as missing. -/
theorem undefined_missing (c : Checker) (p : Program) (table : Option Correlation.Table)
    {d : Diagnostic} (hd : d ∈ (c.on p).check.diagnostics) (hk : d.kind = "UndefinedDefinition") :
    ∃ l n, d = ⟨"UndefinedDefinition", l, "", "can not find definition " ++ n⟩ ∧
      n ∈ (ofProgram p table).missing := by
  have htextual : d.isTextual = true := by
    simp [Diagnostic.isTextual, hk]
  have hwalked : d ∈ (c.on p).walked.diagnostics.filter Diagnostic.isTextual := by
    have hfilter := List.mem_filter.2 ⟨hd, htextual⟩
    rwa [Checker.check_diagnostics, List.filter_append, Checker.verdict_textual,
      List.append_nil] at hfilter
  obtain ⟨e, he, hscan⟩ := List.mem_flatMap.1 ((c.on p).walked_textual.mem_iff.1 hwalked)
  rw [Checker.scanOf, Checker.definition?_of_mem he] at hscan
  obtain ⟨l, n, rfl, hcalls, hnames⟩ := undefined_of_scan hscan hk
  have hdefined : e ∈ p.definitions := by
    have hfind := Checker.definition?_of_mem he
    rw [Checker.definition?_eq] at hfind
    exact List.mem_of_find?_eq_some hfind
  refine ⟨l, n, rfl, ((enumerates_sortedNames _).mem n).2 (List.mem_filter.2 ⟨?_, ?_⟩)⟩
  · exact mem_called_of_mem_calls hdefined hcalls
  · simpa [Checker.declared, Checker.on] using hnames

/-- A walk visits the nodes that are not pruned, each of them once, in depth-first order, wherever
nothing stands. So the analysis of a program counts how often each kind of node occurs, and it lists
the definitions that no call names, the entry point and the initial definition apart, and the names
that are called and not defined; these include whatever a check reports as undefined. -/
theorem visits_and_counts :
    (∀ (L : Layout) (enter : Node → Bool) (root : Node), ∃ ps, L.Visits enter root ps) ∧
    ∀ (L : Layout) (p : Program) (table : Option Correlation.Table),
      (∀ k : NodeKind, {q | ∃ n, L.at? (.program p) q = some n ∧ k.Has n}.encard =
        (ofProgram p table).count k) ∧
      Enumerates (ofProgram p table).orphans {n | (∃ d ∈ p.definitions, d.name = n) ∧
        n ≠ "main" ∧ n ≠ "init" ∧ ∀ q l, L.at? (.program p) q ≠ some (.activity (.call l n))} ∧
      Enumerates (ofProgram p table).missing
        {n | (∃ q l, L.at? (.program p) q = some (.activity (.call l n))) ∧
          ∀ d ∈ p.definitions, d.name ≠ n} ∧
      ∀ (c : Checker), ∀ d ∈ (c.on p).check.diagnostics, d.kind = "UndefinedDefinition" → ∃ l n,
        d = ⟨"UndefinedDefinition", l, "", "can not find definition " ++ n⟩ ∧
          n ∈ (ofProgram p table).missing := by
  refine ⟨fun L enter root => L.exists_visits enter root, fun L p table => ?_⟩
  exact ⟨encard_kind L p table, enumerates_orphans L p table, enumerates_missing L p table,
    fun c d hd hk => undefined_missing c p table hd hk⟩

end Analysis

end Sessions
