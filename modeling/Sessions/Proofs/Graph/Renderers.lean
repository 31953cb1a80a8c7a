import Sessions.Graph.Dot
import Sessions.Graph.Mermaid
import Sessions.Proofs.Graph.CallGraph
import Sessions.Proofs.Text.Quoted

/-!
# Sessions.Proofs.Graph.Renderers

Both renderers draw the call graph and nothing else. Each writes one statement for each mark of the
drawing, and a statement tells which mark it stands for (`Reads`): in Graphviz by the quoted names,
in Mermaid by the identifiers. So what a drawing does with its marks, a renderer does with its
statements (`Reads.draws`), whatever the names and the facts are. What a label says is not looked
into: it starts with the name as it is.
-/

namespace Sessions.Graph

/-- One member has the property, and the others have not. -/
def ExactlyOne {α : Type} (P : α → Prop) (xs : List α) : Prop :=
  ∃ before x after, xs = before ++ x :: after ∧ P x ∧ ∀ y ∈ before ++ after, ¬ P y

namespace CallGraph

/-- A definition has the name, or calls it. -/
def Mentions (g : CallGraph) (name : String) : Prop :=
  ∃ c ∈ g.calls, name = c.1 ∨ name ∈ c.2

def Calls (g : CallGraph) (origin target : String) : Prop :=
  ∃ cs, (origin, cs) ∈ g.calls ∧ target ∈ cs

/-- What a call graph has to say of a program. -/
structure Lists (g : CallGraph) (p : Program) : Prop where
  names : Firsts (p.definitions.map (·.name)) g.names
  calls : ∀ name cs, (name, cs) ∈ g.calls →
    ∃ d, p.definitions.find? (fun d => d.name == name) = some d ∧ Firsts (calledNames d) cs

theorem ofProgram_lists (p : Program) : (ofProgram p).Lists p where
  names := names_ofProgram p ▸ firsts_eraseDups _
  calls := fun _ _ h => by
    obtain ⟨d, hd, rfl⟩ := mem_calls_ofProgram.1 h
    exact ⟨d, hd, callees_eq d ▸ firsts_eraseDups _⟩

theorem defines_ofProgram (p : Program) (name : String) :
    (ofProgram p).defines name = true ↔ ∃ d ∈ p.definitions, d.name = name := by
  rw [defines, List.contains_iff_mem, names_ofProgram, List.mem_eraseDups, List.mem_map]

end CallGraph

open CallGraph

/-! ## Statements that draw a graph -/

/-- Statements that draw the call graph of a program, where `declares s n` says that the statement
draws a node for the name, `missing s n` that it draws it as missing, and `connects s d c` that it
draws an edge. -/
structure Draws (p : Program) (statements : List String) (declares missing : String → String → Prop)
    (connects : String → String → String → Prop) : Prop where
  node : ∀ n, (ofProgram p).Mentions n → ExactlyOne (declares · n) statements
  edge : ∀ d c, (ofProgram p).Calls d c → ExactlyOne (connects · d c) statements
  /-- Every statement is one node or one edge of the graph, and only that. -/
  reading : ∀ s ∈ statements,
    (∃ n, (ofProgram p).Mentions n ∧ (∀ m, declares s m ↔ n = m) ∧ ∀ d c, ¬ connects s d c) ∨
    ∃ d c, (ofProgram p).Calls d c ∧ (∀ d' c', connects s d' c' ↔ d = d' ∧ c = c') ∧
      ∀ n, ¬ declares s n
  declared : ∀ before s after, statements = before ++ s :: after → ∀ d c, connects s d c →
    (∃ t ∈ before, declares t d) ∧ ∃ t ∈ before, declares t c
  missing_iff : ∀ s ∈ statements, ∀ n, declares s n →
    (missing s n ↔ ¬ ∃ d ∈ p.definitions, d.name = n)

/-- From the statements of these marks one can read the marks. -/
structure Reads (line : Mark → String) (ms : List Mark) (declares : String → String → Prop)
    (connects : String → String → String → Prop) : Prop where
  node : ∀ m ∈ ms, ∀ n, declares (line m) n ↔ m.name? = some n
  edge : ∀ m ∈ ms, ∀ d c, connects (line m) d c ↔ m.ends? = some (d, c)

theorem exactlyOne_map {β : Type} {f : Mark → Option β} {line : Mark → String} {ms : List Mark}
    {b : β} {P : String → Prop} (hP : ∀ m ∈ ms, P (line m) ↔ f m = some b)
    (hnodup : (ms.filterMap f).Nodup) (hb : b ∈ ms.filterMap f) : ExactlyOne P (ms.map line) := by
  obtain ⟨m, hm, hfm⟩ := List.mem_filterMap.1 hb
  obtain ⟨before, after, rfl⟩ := List.append_of_mem hm
  have hother : b ∉ (before ++ after).filterMap f := by
    rw [List.filterMap_append, List.filterMap_cons_some hfm, List.nodup_middle,
      List.nodup_cons, ← List.filterMap_append] at hnodup
    exact hnodup.1
  refine ⟨before.map line, line m, after.map line, by rw [List.map_append, List.map_cons],
    (hP m hm).2 hfm, ?_⟩
  rw [← List.map_append]
  intro y hy hPy
  obtain ⟨m', hm', rfl⟩ := List.mem_map.1 hy
  have hin : m' ∈ before ++ m :: after := by
    simp only [List.mem_append, List.mem_cons] at hm' ⊢
    tauto
  exact hother (List.mem_filterMap.2 ⟨m', hm', (hP m' hin).1 hPy⟩)

theorem Reads.draws {p : Program} {line : Mark → String} {declares missing : String → String → Prop}
    {connects : String → String → String → Prop}
    (h : Reads line (ofProgram p).drawing declares connects)
    (hmissing : ∀ n ∈ nodesOf (ofProgram p).drawing,
      missing (line (.node n)) n ↔ ¬ (ofProgram p).defines n = true) :
    Draws p ((ofProgram p).drawing.map line) declares missing connects := by
  obtain ⟨hnodes, hmentions⟩ := nodesOf_drawing (ofProgram p)
  obtain ⟨hedges, hcalls⟩ := edgesOf_drawing p
  refine ⟨fun n hn => ?_, fun d c hdc => ?_, fun s hs => ?_, fun before s after hsplit d c hdc => ?_,
    fun s hs n hn => ?_⟩
  · exact exactlyOne_map (fun m hm => h.node m hm n) hnodes ((hmentions n).2 hn)
  · exact exactlyOne_map (fun m hm => h.edge m hm d c) hedges ((hcalls d c).2 hdc)
  · obtain ⟨m, hm, rfl⟩ := List.mem_map.1 hs
    cases m with
    | node n =>
      refine .inl ⟨n, (hmentions n).1 (List.mem_filterMap.2 ⟨_, hm, rfl⟩), fun n' => ?_, fun d c => ?_⟩
      · rw [h.node _ hm, Mark.name?, Option.some.injEq]
      · rw [h.edge _ hm]
        exact nofun
    | arrow d c =>
      refine .inr ⟨d, c, (hcalls d c).1 (List.mem_filterMap.2 ⟨_, hm, rfl⟩), fun d' c' => ?_,
        fun n => ?_⟩
      · rw [h.edge _ hm, Mark.ends?, Option.some.injEq, Prod.mk.injEq]
      · rw [h.node _ hm]
        exact nofun
  · obtain ⟨before, rest, hms, rfl, hrest⟩ := List.map_eq_append_iff.1 hsplit
    obtain ⟨m, after, rfl, rfl, rfl⟩ := List.map_eq_cons_iff.1 hrest
    have hm : m ∈ (ofProgram p).drawing := hms ▸ List.mem_append_right _ List.mem_cons_self
    have hends := (h.edge m hm d c).1 hdc
    have hdrawn (n : String) (hn : n ∈ nodesOf before) : ∃ t ∈ before.map line, declares t n := by
      obtain ⟨m', hm', hname⟩ := List.mem_filterMap.1 hn
      exact ⟨_, List.mem_map_of_mem hm',
        (h.node m' (hms ▸ List.mem_append_left _ hm') n).2 hname⟩
    cases m with
    | node => cases hends
    | arrow =>
      cases hends
      obtain ⟨horigin, htarget⟩ := mem_nodesOf_of_drawing hms
      exact ⟨hdrawn _ horigin, hdrawn _ htarget⟩
  · obtain ⟨m, hm, rfl⟩ := List.mem_map.1 hs
    have hname := (h.node m hm n).1 hn
    cases m with
    | arrow => cases hname
    | node =>
      cases hname
      rw [hmissing n (List.mem_filterMap.2 ⟨_, hm, rfl⟩), defines_ofProgram]

/-! ## Graphviz -/

namespace Dot

open Text

/-- The statement of a node. -/
def node (name style color fill label : String) : String :=
  "  " ++ quoted name ++ " [shape=\"record\", style=\"" ++ style ++ "\", color=\"" ++ color ++
    "\", fillcolor=\"" ++ fill ++ "\", label=<" ++ label ++ "> ]\n"

/-- The statement draws a node for the name, whose label starts with it. -/
def Declares (s name : String) : Prop :=
  ∃ style color fill text, s = node name style color fill (name ++ text)

def Dashed (s name : String) : Prop :=
  ∃ color fill label, s = node name "filled,dashed" color fill label

def Connects (s origin target : String) : Prop :=
  ∃ text, s = "  " ++ quoted origin ++ " -> " ++ quoted target ++ " [ label = \"" ++ text ++ "\" ]\n"

theorem quoted_after_inj {lead a b x y : String}
    (h : lead ++ (quoted a ++ x) = lead ++ (quoted b ++ y)) : a = b ∧ x = y := by
  have hlist := congrArg String.toList h
  simp only [String.toList_append] at hlist
  obtain ⟨hab, hxy⟩ := quoted_append_inj (List.append_cancel_left hlist)
  exact ⟨hab, String.toList_injective hxy⟩

theorem node_inj {a b style style' color color' fill fill' label label' : String}
    (h : node a style color fill label = node b style' color' fill' label') :
    a = b ∧ ∃ x y, style ++ ("\", color=\"" ++ x) = style' ++ ("\", color=\"" ++ y) := by
  simp only [node, String.append_assoc] at h
  obtain ⟨hab, h⟩ := quoted_after_inj h
  exact ⟨hab, _, _, (String.append_right_inj _).1 h⟩

theorem node_ne_edge {a b style color fill label x : String} :
    node a style color fill label ≠ "  " ++ (quoted b ++ (" -> " ++ x)) := by
  intro h
  simp only [node, String.append_assoc] at h
  have := congrArg String.toList (quoted_after_inj h).2
  simp at this

theorem label_eq (report : Option Check.Report) (defined : Bool) (name : String) :
    ∃ text, label report defined name = name ++ text := by
  rw [label]
  generalize (if defined then factsText (report.bind (·.definition? name)) else "") = facts
  by_cases hfacts : facts = ""
  · exact ⟨"", by rw [if_pos hfacts, String.append_empty]⟩
  · exact ⟨_, by rw [if_neg hfacts, String.append_assoc, String.append_assoc]⟩

variable {g : CallGraph} {report : Option Check.Report} {highlight : String}

/-- The style of a definition, and of what is missing. -/
theorem nodeLine_eq (g : CallGraph) (report : Option Check.Report) (highlight name : String) :
    ∃ style color fill text, nodeLine g report highlight name =
        node name style color fill (name ++ text) ∧
      (g.defines name = true → style = "filled" ∨ style = "filled,bold") ∧
      (¬ g.defines name = true → style = "filled,dashed") := by
  obtain ⟨text, htext⟩ := label_eq report (g.defines name) name
  refine ⟨_, _, _, text, by rw [nodeLine, htext]; rfl, fun h => ?_, fun h => ?_⟩
  · rw [h]
    cases name == "main"
    · exact .inl rfl
    · exact .inr rfl
  · rw [Bool.not_eq_true] at h
    rw [h]
    rfl

theorem declares_iff {a n : String} : Declares (nodeLine g report highlight a) n ↔ a = n := by
  obtain ⟨style, color, fill, text, ha, -⟩ := nodeLine_eq g report highlight a
  rw [ha]
  constructor
  · rintro ⟨style', color', fill', text', hn⟩
    exact (node_inj hn).1
  · rintro rfl
    exact ⟨style, color, fill, text, rfl⟩

theorem dashed_iff {name : String} :
    Dashed (nodeLine g report highlight name) name ↔ ¬ g.defines name = true := by
  obtain ⟨style, color, fill, text, hline, hdefined, hmissing⟩ := nodeLine_eq g report highlight name
  rw [hline]
  constructor
  · rintro ⟨color', fill', label, h⟩ hname
    obtain ⟨-, x, y, hstyle⟩ := node_inj h
    have hlist := congrArg String.toList hstyle
    rcases hdefined hname with rfl | rfl <;> simp at hlist
  · intro hname
    exact ⟨color, fill, name ++ text, by rw [hmissing hname]⟩

theorem reads_markLine (g : CallGraph) (report : Option Check.Report) (highlight : String)
    (ms : List Mark) : Reads (markLine g report highlight) ms Declares Connects where
  node := by
    rintro (a | ⟨a, b, number, total⟩) - n
    · rw [markLine, declares_iff, Mark.name?, Option.some.injEq]
    · simp only [Mark.name?, reduceCtorEq, iff_false]
      rintro ⟨style, color, fill, text, h⟩
      rw [markLine] at h
      simp only [String.append_assoc] at h
      exact node_ne_edge h.symm
  edge := by
    rintro (a | ⟨a, b, number, total⟩) - d c
    · obtain ⟨style, color, fill, text, ha, -⟩ := nodeLine_eq g report highlight a
      simp only [Mark.ends?, reduceCtorEq, iff_false]
      rintro ⟨text, h⟩
      rw [markLine, ha] at h
      simp only [String.append_assoc] at h
      exact node_ne_edge h
    · simp only [Mark.ends?, Option.some.injEq, Prod.mk.injEq]
      constructor
      · rintro ⟨text, h⟩
        rw [markLine] at h
        simp only [String.append_assoc] at h
        obtain ⟨hd, h⟩ := quoted_after_inj h
        exact ⟨hd, (quoted_after_inj h).1⟩
      · rintro ⟨rfl, rfl⟩
        refine ⟨toString number ++ "/" ++ toString total, ?_⟩
        simp only [markLine, String.append_assoc]

end Dot

/-! ## Mermaid -/

namespace Mermaid

/-- The shapes of a node: slanted, a box, and a round box. -/
def shapes : List (String × String) :=
  [("[/", "/]"), ("[", "]"), ("(", ")")]

/-- The statement of a node. -/
def node (id : String) (shape : String × String) (label fill : String) : String :=
  "  " ++ id ++ shape.1 ++ "\"" ++ label ++ "\"" ++ shape.2 ++ "\n" ++ fillLine id fill

section Statements

variable (id : String → String)

/-- The statement draws a node for the name, whose label starts with it. -/
def Declares (s name : String) : Prop :=
  ∃ shape ∈ shapes, ∃ text fill, s = node (id name) shape (name ++ text) fill

def Slanted (s name : String) : Prop :=
  ∃ label fill, s = node (id name) ("[/", "/]") label fill

def Connects (s origin target : String) : Prop :=
  s = "  " ++ id origin ++ " --> " ++ id target ++ "\n"

end Statements

/-- A number ends where no digit follows. -/
theorem toString_append_inj {m n : Nat} {x y : List Char} (hx : x.takeWhile Char.isDigit = [])
    (hy : y.takeWhile Char.isDigit = [])
    (h : (toString m).toList ++ x = (toString n).toList ++ y) : m = n ∧ x = y := by
  have hdigits (k : Nat) {z : List Char} (hz : z.takeWhile Char.isDigit = []) :
      ((toString k).toList ++ z).takeWhile Char.isDigit = Nat.toDigits 10 k := by
    rw [show (toString k).toList = Nat.toDigits 10 k from Nat.toList_repr,
      List.takeWhile_append_of_pos fun _ => Nat.isDigit_of_mem_toDigits (by decide) (by decide),
      hz, List.append_nil]
  have hmn := congrArg (List.takeWhile Char.isDigit) h
  rw [hdigits m hx, hdigits n hy] at hmn
  obtain rfl : m = n := by
    have := congrArg (fun ds => Nat.ofDigitChars 10 ds 0) hmn
    simpa only [Nat.ofDigitChars_ten_toDigits] using this
  exact ⟨rfl, List.append_cancel_left h⟩

variable {order : List String} {a b lead x y : String}

theorem nodeId_after_inj (ha : a ∈ order) (hx : x.toList.takeWhile Char.isDigit = [])
    (hy : y.toList.takeWhile Char.isDigit = [])
    (h : lead ++ (nodeId order a ++ x) = lead ++ (nodeId order b ++ y)) : a = b ∧ x = y := by
  simp only [nodeId, String.append_assoc] at h
  have hlist := congrArg String.toList h
  simp only [String.toList_append] at hlist
  obtain ⟨hid, hxy⟩ := toString_append_inj hx hy
    (List.append_cancel_left (List.append_cancel_left hlist))
  exact ⟨(List.idxOf_inj ha).1 (Nat.succ.inj hid), String.toList_injective hxy⟩

theorem nodeId_inj (ha : a ∈ order) (h : nodeId order a = nodeId order b) : a = b := by
  have heq : "" ++ (nodeId order a ++ "") = "" ++ (nodeId order b ++ "") := by rw [h]
  exact (nodeId_after_inj ha rfl rfl heq).1

theorem label_eq (opts : Options) (report : Option Check.Report) (name : String) :
    ∃ text, label opts report name = name ++ text := by
  unfold label
  cases report.bind (·.definition? name) with
  | none => exact ⟨"", String.append_empty.symm⟩
  | some s =>
    cases opts.showFacts
    · exact ⟨"", String.append_empty.symm⟩
    · exact ⟨_, String.append_assoc⟩

/-- The shape of a definition, and of what is missing. -/
theorem nodeLines_eq (g : CallGraph) (opts : Options) (report : Option Check.Report)
    (id name : String) :
    ∃ shape ∈ shapes, ∃ text fill,
      nodeLines g opts report id name = node id shape (name ++ text) fill ∧
        (shape = ("[/", "/]") ↔ ¬ g.defines name = true) := by
  obtain ⟨text, htext⟩ := label_eq opts report name
  rw [nodeLines, htext]
  cases hdefined : g.defines name
  · refine ⟨("[/", "/]"), by decide, text, opts.missingFill, ?_, by simp⟩
    rw [if_pos (by decide), node, show "/]\n" = "/]" ++ "\n" from rfl]
    simp only [String.append_assoc]
  · rw [if_neg (by decide)]
    cases name == "main"
    · refine ⟨("(", ")"), by decide, text, "", ?_, by simp⟩
      rw [if_neg (by decide), node, fillLine, if_pos rfl, show ")\n" = ")" ++ "\n" from rfl]
      simp only [String.append_assoc, String.append_empty]
    · refine ⟨("[", "]"), by decide, text, opts.entryFill, ?_, by simp⟩
      rw [if_pos rfl, node, show "]\n" = "]" ++ "\n" from rfl]
      simp only [String.append_assoc]

theorem isDigit_shape {shape : String × String} (h : shape ∈ shapes) (x : String) :
    (shape.1 ++ x).toList.takeWhile Char.isDigit = [] := by
  simp only [shapes, List.mem_cons, List.not_mem_nil, or_false] at h
  rcases h with rfl | rfl | rfl <;> simp

theorem shape_ne_arrow {shape : String × String} (h : shape ∈ shapes) :
    shape.1 ++ x ≠ " --> " ++ y := by
  intro heq
  have hlist := congrArg String.toList heq
  simp only [shapes, List.mem_cons, List.not_mem_nil, or_false] at h
  rcases h with rfl | rfl | rfl <;> simp at hlist

theorem shape_inj {shape shape' : String × String} (h : shape ∈ shapes) (h' : shape' ∈ shapes)
    (heq : shape.1 ++ ("\"" ++ x) = shape'.1 ++ ("\"" ++ y)) : shape = shape' := by
  have hlist := congrArg String.toList heq
  simp only [shapes, List.mem_cons, List.not_mem_nil, or_false] at h h'
  rcases h with rfl | rfl | rfl <;> rcases h' with rfl | rfl | rfl <;> simp at hlist ⊢

theorem node_inj {shape shape' : String × String} {label label' fill fill' : String} (ha : a ∈ order)
    (hs : shape ∈ shapes) (hs' : shape' ∈ shapes)
    (h : node (nodeId order a) shape label fill = node (nodeId order b) shape' label' fill') :
    a = b ∧ shape = shape' := by
  simp only [node, String.append_assoc] at h
  obtain ⟨hab, h⟩ := nodeId_after_inj ha (isDigit_shape hs _) (isDigit_shape hs' _) h
  exact ⟨hab, shape_inj hs hs' h⟩

theorem node_ne_edge {shape : String × String} {label fill : String} (ha : a ∈ order)
    (hs : shape ∈ shapes) :
    node (nodeId order a) shape label fill ≠ "  " ++ (nodeId order b ++ (" --> " ++ x)) := by
  intro h
  simp only [node, String.append_assoc] at h
  exact shape_ne_arrow hs (nodeId_after_inj ha (isDigit_shape hs _) (by simp) h).2

theorem edge_ne_node {shape : String × String} {label fill : String} (ha : a ∈ order)
    (hs : shape ∈ shapes) :
    "  " ++ (nodeId order a ++ (" --> " ++ x)) ≠ node (nodeId order b) shape label fill := by
  intro h
  simp only [node, String.append_assoc] at h
  exact shape_ne_arrow hs (nodeId_after_inj ha (by simp) (isDigit_shape hs _) h).2.symm

variable {g : CallGraph} {opts : Options} {report : Option Check.Report}

theorem slanted_iff {name : String} (hname : name ∈ order) :
    Slanted (nodeId order) (nodeLines g opts report (nodeId order name) name) name ↔
      ¬ g.defines name = true := by
  obtain ⟨shape, hshape, text, fill, hline, hmissing⟩ :=
    nodeLines_eq g opts report (nodeId order name) name
  rw [← hmissing, hline]
  constructor
  · rintro ⟨label, fill', h⟩
    exact (node_inj hname hshape (by decide) h).2
  · rintro rfl
    exact ⟨name ++ text, fill, rfl⟩

theorem reads_markLines (g : CallGraph) (opts : Options) (report : Option Check.Report) :
    Reads (markLines g opts report (nodesOf g.drawing)) g.drawing
      (Declares (nodeId (nodesOf g.drawing))) (Connects (nodeId (nodesOf g.drawing))) where
  node := by
    rintro (a | ⟨a, b, number, total⟩) hm n
    · have ha : a ∈ nodesOf g.drawing := List.mem_filterMap.2 ⟨_, hm, rfl⟩
      obtain ⟨shape, hshape, text, fill, hline, -⟩ :=
        nodeLines_eq g opts report (nodeId (nodesOf g.drawing) a) a
      rw [markLines, hline, Mark.name?, Option.some.injEq]
      constructor
      · rintro ⟨shape', hshape', text', fill', h⟩
        exact (node_inj ha hshape hshape' h).1
      · rintro rfl
        exact ⟨shape, hshape, text, fill, rfl⟩
    · obtain ⟨ha, -⟩ := mem_nodesOf_of_arrow hm
      simp only [Mark.name?, reduceCtorEq, iff_false]
      rintro ⟨shape, hshape, text, fill, h⟩
      rw [markLines] at h
      simp only [String.append_assoc] at h
      exact edge_ne_node ha hshape h
  edge := by
    rintro (a | ⟨a, b, number, total⟩) hm d c
    · have ha : a ∈ nodesOf g.drawing := List.mem_filterMap.2 ⟨_, hm, rfl⟩
      obtain ⟨shape, hshape, text, fill, hline, -⟩ :=
        nodeLines_eq g opts report (nodeId (nodesOf g.drawing) a) a
      simp only [Mark.ends?, reduceCtorEq, iff_false]
      intro h
      rw [Connects, markLines, hline] at h
      simp only [String.append_assoc] at h
      exact node_ne_edge ha hshape h
    · obtain ⟨ha, hb⟩ := mem_nodesOf_of_arrow hm
      simp only [Mark.ends?, Option.some.injEq, Prod.mk.injEq]
      constructor
      · intro h
        rw [Connects, markLines] at h
        simp only [String.append_assoc] at h
        obtain ⟨hd, h⟩ := nodeId_after_inj ha (by simp) (by simp) h
        exact ⟨hd, (nodeId_after_inj hb (by simp) (by simp) h).1⟩
      · rintro ⟨rfl, rfl⟩
        rfl

end Mermaid

/-! ## The two renderers -/

/-- A call graph lists the definitions and their calls, and both renderers draw it: one node for each
name in it and one edge for each call, with or without a report, for all highlights and options. -/
theorem graph_renderers_draw_calls (p : Program) (report : Option Check.Report) :
    (ofProgram p).Lists p ∧
    (∀ highlight, ∃ statements,
      Dot.render p report highlight = Dot.opening ++ String.join statements ++ "\x7d\n" ∧
      Draws p statements Dot.Declares Dot.Dashed Dot.Connects) ∧
    ∀ opts, ∃ id statements,
      Mermaid.render p report opts = "graph TB\n" ++ String.join statements ++ "\n" ∧
      (∀ a b, (ofProgram p).Mentions a → (ofProgram p).Mentions b → id a = id b → a = b) ∧
      Draws p statements (Mermaid.Declares id) (Mermaid.Slanted id) (Mermaid.Connects id) := by
  refine ⟨ofProgram_lists p, fun highlight => ⟨_, rfl, (Dot.reads_markLine _ _ _ _).draws ?_⟩,
    fun opts => ⟨_, _, rfl, fun a b ha _ => ?_, (Mermaid.reads_markLines _ _ _).draws ?_⟩⟩
  · exact fun n _ => Dot.dashed_iff
  · exact Mermaid.nodeId_inj (((nodesOf_drawing _).2 a).2 ha)
  · exact fun n hn => Mermaid.slanted_iff hn

end Sessions.Graph
