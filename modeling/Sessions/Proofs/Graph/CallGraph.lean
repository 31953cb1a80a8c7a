import Mathlib.Data.List.Basic
import Mathlib.Data.List.Nodup
import Sessions.Analysis
import Sessions.Graph.CallGraph
import Sessions.Proofs.Check.Search

/-!
# Sessions.Proofs.Graph.CallGraph

What a call graph lists, and the order in which it is drawn. Every mark of a drawing fits the names
that are drawn before it (`Orderly`): a node is new there, and both ends of an arrow are old. This is
kept by each part of a drawing, and so every name is drawn once, before the first arrow at it.
-/

namespace Sessions.Graph

/-! ## First occurrences -/

/-- The members of `xs`, each once, in the order in which they first come. -/
structure Firsts {α : Type} [BEq α] (xs ys : List α) : Prop where
  nodup : ys.Nodup
  mem : ∀ a, a ∈ ys ↔ a ∈ xs
  order : ys.Pairwise fun a b => xs.idxOf a < xs.idxOf b

section Firsts

variable {α : Type} [BEq α] [LawfulBEq α]

theorem idxOf_lt_of_filter {p : α → Bool} {l : List α} {a b : α} (ha : p a = true)
    (hb : p b = true) (h : (l.filter p).idxOf a < (l.filter p).idxOf b) :
    l.idxOf a < l.idxOf b := by
  induction l with
  | nil => exact h
  | cons c l ih =>
    by_cases hc : p c = true
    · rw [List.filter_cons_of_pos hc] at h
      rw [List.idxOf_cons, List.idxOf_cons] at h ⊢
      cases hca : c == a <;> cases hcb : c == b <;> simp_all
    · have hne : ∀ d, p d = true → (c == d) = false := by
        intro d hd
        rw [beq_eq_false_iff_ne]
        rintro rfl
        exact hc hd
      rw [List.filter_cons_of_neg hc] at h
      rw [List.idxOf_cons, List.idxOf_cons, hne a ha, hne b hb]
      simpa using ih h

theorem firsts_eraseDups (l : List α) : Firsts l l.eraseDups := by
  induction hlen : l.length using Nat.strongRecOn generalizing l with
  | _ k ih =>
    cases l with
    | nil => exact ⟨List.nodup_nil, fun _ => List.mem_eraseDups, List.Pairwise.nil⟩
    | cons a rest =>
      have hshorter : (rest.filter fun b => !b == a).length < k := by
        have := List.length_filter_le (fun b => !b == a) rest
        simp only [List.length_cons] at hlen
        omega
      obtain ⟨hnodup, -, horder⟩ := ih _ hshorter _ rfl
      have hother : ∀ b ∈ (rest.filter fun b => !b == a).eraseDups, b ≠ a := by
        intro b hb
        have := (List.mem_filter.1 (List.mem_eraseDups.1 hb)).2
        simpa using this
      refine ⟨?_, fun _ => List.mem_eraseDups, ?_⟩ <;> rw [List.eraseDups_cons]
      · exact List.nodup_cons.2 ⟨fun h => hother a h rfl, hnodup⟩
      · refine List.pairwise_cons.2 ⟨fun b hb => ?_, horder.imp_of_mem fun {b c} hb hc h => ?_⟩
        · have hne := hother b hb
          simp [hne.symm]
        · have hb := hother b hb
          have hc := hother c hc
          have := idxOf_lt_of_filter (by simpa using hb) (by simpa using hc) h
          simpa [List.idxOf_cons, hb.symm, hc.symm] using this

end Firsts

/-! ## What a graph lists -/

/-- The names in the calls of a definition, in the order of a depth-first walk. -/
def calledNames (d : Definition) : List String :=
  (Node.definition d).all.filterMap Analysis.calleeOf?

theorem callees_eq (d : Definition) : callees d = (calledNames d).eraseDups := by
  rw [callees, calledNames]
  congr 1

theorem names_ofProgram (p : Program) :
    (CallGraph.ofProgram p).names = (p.definitions.map (·.name)).eraseDups := by
  rw [CallGraph.names, CallGraph.ofProgram, List.map_map, ← names_firstDefinitions]
  rfl

theorem mem_calls_ofProgram {p : Program} {name : String} {cs : List String} :
    (name, cs) ∈ (CallGraph.ofProgram p).calls ↔
      ∃ d, p.definitions.find? (fun d => d.name == name) = some d ∧ cs = callees d := by
  rw [CallGraph.ofProgram, List.mem_map]
  constructor
  · rintro ⟨d, hd, h⟩
    cases h
    refine ⟨d, ?_, rfl⟩
    rw [← find?_firstDefinitions]
    exact find?_of_nodup (nodup_names_firstDefinitions _) hd
  · rintro ⟨d, hd, rfl⟩
    rw [← find?_firstDefinitions] at hd
    have hname : d.name = name := by simpa using List.find?_some hd
    exact ⟨d, List.mem_of_find?_eq_some hd, by rw [hname]⟩

/-! ## Drawing in order -/

/-- The name that a mark draws. -/
def Mark.name? : Mark → Option String
  | .node name => some name
  | .arrow .. => none

/-- The origin and the target of an arrow. -/
def Mark.ends? : Mark → Option (String × String)
  | .node _ => none
  | .arrow origin target _ _ => some (origin, target)

namespace CallGraph

/-- The arrows of a drawing, each as its origin and its target. -/
def edgesOf (ms : List Mark) : List (String × String) :=
  ms.filterMap Mark.ends?

theorem nodesOf_eq (ms : List Mark) : nodesOf ms = ms.filterMap Mark.name? :=
  rfl

/-- The names that are drawn after some marks. -/
def drawnAfter (drawn : List String) (ms : List Mark) : List String :=
  (nodesOf ms).reverse ++ drawn

/-- Where these names are drawn, every node is new and both ends of every arrow are drawn before. -/
def Orderly : (drawn : List String) → List Mark → Prop
  | _, [] => True
  | drawn, .node name :: ms => name ∉ drawn ∧ Orderly (name :: drawn) ms
  | drawn, .arrow origin target _ _ :: ms =>
    origin ∈ drawn ∧ target ∈ drawn ∧ Orderly drawn ms

variable {drawn : List String} {ms ns : List Mark} {name origin target : String}

theorem drawnAfter_node : drawnAfter drawn (.node name :: ms) = drawnAfter (name :: drawn) ms := by
  simp [drawnAfter, nodesOf]

theorem drawnAfter_arrow {number total : Nat} :
    drawnAfter drawn (.arrow origin target number total :: ms) = drawnAfter drawn ms := by
  simp [drawnAfter, nodesOf]

theorem drawnAfter_append :
    drawnAfter drawn (ms ++ ns) = drawnAfter (drawnAfter drawn ms) ns := by
  simp [drawnAfter, nodesOf, List.filterMap_append]

theorem orderly_append :
    Orderly drawn (ms ++ ns) ↔ Orderly drawn ms ∧ Orderly (drawnAfter drawn ms) ns := by
  induction ms generalizing drawn with
  | nil => simp [Orderly, drawnAfter, nodesOf]
  | cons m ms ih =>
    cases m with
    | node name => rw [List.cons_append, Orderly, Orderly, ih, drawnAfter_node, and_assoc]
    | arrow origin target number total =>
      rw [List.cons_append, Orderly, Orderly, ih, drawnAfter_arrow, and_assoc, and_assoc]

theorem Orderly.nodup (h : Orderly drawn ms) (hdrawn : drawn.Nodup) :
    (drawnAfter drawn ms).Nodup := by
  induction ms generalizing drawn with
  | nil => exact hdrawn
  | cons m ms ih =>
    cases m with
    | node name =>
      rw [drawnAfter_node]
      exact ih h.2 (List.nodup_cons.2 ⟨h.1, hdrawn⟩)
    | arrow origin target number total =>
      rw [drawnAfter_arrow]
      exact ih h.2.2 hdrawn

/-- What a part of a drawing has to do: it fits the names drawn before it, and it draws these. -/
structure Completes (drawn : List String) (ms : List Mark) (names : List String) : Prop where
  orderly : Orderly drawn ms
  mem : ∀ n, n ∈ drawnAfter drawn ms ↔ n ∈ drawn ∨ n ∈ names

theorem Completes.append {names names' : List String} (h : Completes drawn ms names)
    (h' : Completes (drawnAfter drawn ms) ns names') :
    Completes drawn (ms ++ ns) (names ++ names') := by
  refine ⟨orderly_append.2 ⟨h.orderly, h'.orderly⟩, fun n => ?_⟩
  rw [drawnAfter_append, h'.mem, h.mem, List.mem_append, or_assoc]

theorem drawName_completes (drawn : List String) (name : String) :
    (drawName drawn name).1 = drawnAfter drawn (drawName drawn name).2 ∧
      Completes drawn (drawName drawn name).2 [name] := by
  unfold drawName
  split_ifs with hname
  · have hmem : name ∈ drawn := by simpa using hname
    refine ⟨rfl, trivial, fun n => ?_⟩
    simp only [drawnAfter, nodesOf, List.filterMap_nil, List.reverse_nil, List.nil_append,
      List.mem_singleton]
    exact ⟨.inl, Or.rec id fun h => h ▸ hmem⟩
  · have hmem : name ∉ drawn := by simpa using hname
    refine ⟨rfl, ⟨hmem, trivial⟩, fun n => ?_⟩
    simp [drawnAfter, nodesOf, or_comm]

theorem drawArrows_completes (total number : Nat) (targets : List String)
    (horigin : origin ∈ drawn) :
    (drawArrows origin total drawn number targets).1 =
        drawnAfter drawn (drawArrows origin total drawn number targets).2 ∧
      Completes drawn (drawArrows origin total drawn number targets).2 targets := by
  induction targets generalizing drawn number with
  | nil => exact ⟨rfl, trivial, fun n => by simp [drawArrows, drawnAfter, nodesOf]⟩
  | cons target rest ih =>
    obtain ⟨hafter, hname⟩ := drawName_completes drawn target
    have horigin' : origin ∈ (drawName drawn target).1 := hafter ▸ (hname.mem _).2 (.inl horigin)
    have htarget : target ∈ (drawName drawn target).1 :=
      hafter ▸ (hname.mem _).2 (.inr List.mem_cons_self)
    obtain ⟨hrest, hcompletes⟩ := ih (number + 1) horigin'
    have harrow : Completes (drawName drawn target).1 (.arrow origin target number total ::
        (drawArrows origin total (drawName drawn target).1 (number + 1) rest).2) rest :=
      ⟨⟨horigin', htarget, hcompletes.orderly⟩, fun n => by
        rw [drawnAfter_arrow, hcompletes.mem]⟩
    refine ⟨?_, hname.append (hafter ▸ harrow)⟩
    change (drawArrows origin total (drawName drawn target).1 (number + 1) rest).1 =
      drawnAfter drawn ((drawName drawn target).2 ++ .arrow origin target number total ::
        (drawArrows origin total (drawName drawn target).1 (number + 1) rest).2)
    rw [drawnAfter_append, drawnAfter_arrow, ← hafter, hrest]

theorem drawAll_completes (drawn : List String) (calls : List (String × List String)) :
    Completes drawn (drawAll drawn calls) (calls.flatMap fun c => c.1 :: c.2) := by
  induction calls generalizing drawn with
  | nil => exact ⟨trivial, fun n => by simp [drawAll, drawnAfter, nodesOf]⟩
  | cons c rest ih =>
    obtain ⟨name, targets⟩ := c
    obtain ⟨hafter, hname⟩ := drawName_completes drawn name
    have hdrawn : name ∈ (drawName drawn name).1 :=
      hafter ▸ (hname.mem _).2 (.inr List.mem_cons_self)
    obtain ⟨hrest, harrows⟩ := drawArrows_completes targets.length 1 targets hdrawn
    have hhere : Completes drawn ((drawName drawn name).2 ++
        (drawArrows name targets.length (drawName drawn name).1 1 targets).2)
        ([name] ++ targets) :=
      hname.append (by rwa [← hafter])
    have hstart : (drawArrows name targets.length (drawName drawn name).1 1 targets).1 =
        drawnAfter drawn ((drawName drawn name).2 ++
          (drawArrows name targets.length (drawName drawn name).1 1 targets).2) := by
      rw [hrest, drawnAfter_append, ← hafter]
    change Completes drawn ((drawName drawn name).2 ++
      (drawArrows name targets.length (drawName drawn name).1 1 targets).2 ++
        drawAll (drawArrows name targets.length (drawName drawn name).1 1 targets).1 rest) _
    rw [hstart]
    exact hhere.append (ih _)

theorem nodesOf_drawing (g : CallGraph) :
    (nodesOf g.drawing).Nodup ∧ ∀ n, n ∈ nodesOf g.drawing ↔ ∃ c ∈ g.calls, n = c.1 ∨ n ∈ c.2 := by
  have h := drawAll_completes [] g.calls
  have hafter : drawnAfter [] g.drawing = (nodesOf g.drawing).reverse := List.append_nil _
  refine ⟨?_, fun n => ?_⟩
  · rw [← List.nodup_reverse, ← hafter]
    exact h.orderly.nodup List.nodup_nil
  · rw [← List.mem_reverse, ← hafter, drawing, h.mem]
    simp

/-- Both ends of an arrow are drawn before it. -/
theorem mem_nodesOf_of_drawing {g : CallGraph} {number total : Nat}
    (h : g.drawing = ms ++ .arrow origin target number total :: ns) :
    origin ∈ nodesOf ms ∧ target ∈ nodesOf ms := by
  have horderly := (drawAll_completes [] g.calls).orderly
  rw [← drawing, h, orderly_append] at horderly
  obtain ⟨-, horigin, htarget, -⟩ := horderly
  rw [drawnAfter, List.append_nil, List.mem_reverse] at horigin htarget
  exact ⟨horigin, htarget⟩

theorem mem_nodesOf_of_arrow {g : CallGraph} {number total : Nat}
    (h : .arrow origin target number total ∈ g.drawing) :
    origin ∈ nodesOf g.drawing ∧ target ∈ nodesOf g.drawing := by
  obtain ⟨ms, ns, hsplit⟩ := List.append_of_mem h
  obtain ⟨horigin, htarget⟩ := mem_nodesOf_of_drawing hsplit
  have hold (n : String) (hn : n ∈ nodesOf ms) : n ∈ nodesOf g.drawing := by
    rw [hsplit, nodesOf_eq, List.filterMap_append]
    exact List.mem_append_left _ hn
  exact ⟨hold _ horigin, hold _ htarget⟩

/-! ## Arrows -/

theorem edgesOf_append : edgesOf (ms ++ ns) = edgesOf ms ++ edgesOf ns :=
  List.filterMap_append

theorem edgesOf_drawName (drawn : List String) (name : String) :
    edgesOf (drawName drawn name).2 = [] := by
  unfold drawName
  split_ifs <;> rfl

theorem edgesOf_drawArrows (drawn : List String) (total number : Nat) (targets : List String) :
    edgesOf (drawArrows origin total drawn number targets).2 = targets.map (origin, ·) := by
  induction targets generalizing drawn number with
  | nil => rfl
  | cons target rest ih =>
    change edgesOf ((drawName drawn target).2 ++ .arrow origin target number total ::
      (drawArrows origin total (drawName drawn target).1 (number + 1) rest).2) = _
    rw [edgesOf_append, edgesOf_drawName, List.map_cons, ← ih (drawName drawn target).1 (number + 1)]
    rfl

theorem edgesOf_drawAll (drawn : List String) (calls : List (String × List String)) :
    edgesOf (drawAll drawn calls) = calls.flatMap fun c => c.2.map (c.1, ·) := by
  induction calls generalizing drawn with
  | nil => rfl
  | cons c rest ih =>
    change edgesOf ((drawName drawn c.1).2 ++
      (drawArrows c.1 c.2.length (drawName drawn c.1).1 1 c.2).2 ++ drawAll _ rest) = _
    rw [edgesOf_append, edgesOf_append, edgesOf_drawName, edgesOf_drawArrows, ih]
    rfl

/-- The arrows of the graph of a program are its calls, each drawn once. -/
theorem edgesOf_drawing (p : Program) :
    (edgesOf (ofProgram p).drawing).Nodup ∧ ∀ origin target,
      (origin, target) ∈ edgesOf (ofProgram p).drawing ↔
        ∃ cs, (origin, cs) ∈ (ofProgram p).calls ∧ target ∈ cs := by
  rw [drawing, edgesOf_drawAll]
  refine ⟨List.nodup_flatMap.2 ⟨fun c hc => ?_, ?_⟩, fun origin target => ?_⟩
  · obtain ⟨d, -, hcs⟩ := mem_calls_ofProgram.1 hc
    rw [hcs, callees_eq]
    exact (firsts_eraseDups _).nodup.map fun _ _ h => (Prod.mk.inj h).2
  · have hnames : ((ofProgram p).calls.map (·.1)).Nodup := by
      rw [← names, names_ofProgram]
      exact (firsts_eraseDups _).nodup
    refine (List.pairwise_map.1 hnames).imp fun hne => List.disjoint_left.2 ?_
    rintro _ h h'
    obtain ⟨_, -, rfl⟩ := List.mem_map.1 h
    obtain ⟨_, -, heq⟩ := List.mem_map.1 h'
    exact hne (Prod.mk.inj heq).1.symm
  · simp [List.mem_flatMap]

end CallGraph

end Sessions.Graph
