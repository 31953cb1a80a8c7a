import Mathlib
import Sessions.Proofs.Document.Constants

/-!
# Sessions.Proofs.Document.Acceptance

Which maps write documents, and which documents they write. A document is read exactly if its format
can be, its mode is known, its correlation table can be read and is valid, and all of its program is
well-formed (`exists_ofEntries_iff`). What is read is what the map writes, by rules of which one
stands something in: a `const` that holds no constant becomes the empty one, and no other constant of
the program is empty (`hollow_program_iff`).
-/

namespace Sessions.Document

/-! ## Correlation tables -/

/-- The name of a correlation variable and the text of its path. -/
def variableText? : Datum → Option (String × String)
  | .map es =>
    some (textOf es "name", if textOf es "path" = "" then textOf es "name" else textOf es "path")
  | .text s => some (s, s)
  | _ => none

/-- The correlation variable that a value writes. -/
def ReadsVariable (loc : Location) (d : Datum) (v : Correlation.Variable) : Prop :=
  ∃ text, variableText? d = some (v.name, text) ∧ Path.parse loc text = .ok v.path

/-- The correlation set that a value writes. -/
inductive ReadsSet (source : String) : Datum → Correlation.CorrelationSet → Prop where
  | mk {es : Entries} {vars : List Correlation.Variable}
      (hvars : List.Forall₂ (ReadsVariable (locOf source es)) (es.get "vars").items vars) :
      ReadsSet source (.map es) ⟨textOf es "name", locOf source es, vars⟩

/-- The sets of the operations that a value writes. -/
inductive ReadsOperations : Datum → List (String × String) → Prop where
  | null : ReadsOperations .null []
  | map {es : Entries} {ops : List (String × String)}
      (hops : List.Forall₂ (fun e o => o.1 = e.1 ∧ e.2 = .text o.2) es ops) :
      ReadsOperations (.map es) ops

/-- The correlation table that a value writes. -/
inductive ReadsTable (source : String) : Datum → Correlation.Table → Prop where
  | null : ReadsTable source .null {}
  | map {es : Entries} {sets : List Correlation.CorrelationSet} {ops : List (String × String)}
      (hsets : List.Forall₂ (ReadsSet source) (es.get "sets").items sets)
      (hops : ReadsOperations (es.get "operations") ops) : ReadsTable source (.map es) ⟨sets, ops⟩

/-- A value that writes a correlation table. -/
inductive WellFormedTable : Datum → Prop where
  | null : WellFormedTable .null
  | map {es : Entries}
      (hsets : ∀ d ∈ (es.get "sets").items, ∃ fs : Entries, d = .map fs ∧
        ∀ v ∈ (fs.get "vars").items, ∃ name text, variableText? v = some (name, text) ∧
          Path.IsText text)
      (hops : es.get "operations" = .null ∨ ∃ ops : Entries, es.get "operations" = .map ops ∧
        ∀ o ∈ ops, ∃ name, o.2 = .text name) : WellFormedTable (.map es)

section Tables

variable {source : String} {loc : Location} {line : Int} {d : Datum}

theorem text?_eq_some_iff {s : String} : d.text? = some s ↔ d = .text s := by
  cases d <;> simp [Datum.text?]

theorem refuse_ne_ok {α : Type} (fault : Fault) (a : α) : refuse source line fault ≠ .ok a := by
  intro h
  cases h

/-- The variable of a name and the text of a path. -/
def variableOf (source : String) (loc : Location) (name text : String) :
    Except Error Correlation.Variable :=
  match Path.parse loc text with
  | .ok p => .ok ⟨name, p⟩
  | .error e => refuse source loc.line (.variablePath e)

theorem variableOf_eq_ok_iff {name text : String} {v : Correlation.Variable} :
    variableOf source loc name text = .ok v ↔ name = v.name ∧ Path.parse loc text = .ok v.path := by
  obtain ⟨name', p⟩ := v
  unfold variableOf
  cases Path.parse loc text <;> simp [refuse_ne_ok]

theorem readVariable_eq (source : String) (loc : Location) (d : Datum) :
    readVariable source loc d =
      match variableText? d with
      | some (name, text) => variableOf source loc name text
      | none => refuse source 0 (.variableShape d.plain) := by
  cases d <;> rfl

theorem readVariable_eq_ok_iff {v : Correlation.Variable} :
    readVariable source loc d = .ok v ↔ ReadsVariable loc d v := by
  rw [readVariable_eq, ReadsVariable]
  cases variableText? d with
  | none => simp [refuse_ne_ok]
  | some w => simp [variableOf_eq_ok_iff, Prod.ext_iff, and_assoc]

theorem readSet_eq_ok_iff {s : Correlation.CorrelationSet} :
    readSet source line d = .ok s ↔ ReadsSet source d s := by
  constructor
  · intro h
    cases d with
    | map es =>
      obtain ⟨vars, hvars, hs⟩ := bind_eq_ok_iff.1 h
      cases hs
      rw [mapM_eq_ok_iff] at hvars
      exact .mk (hvars.imp fun _ _ => readVariable_eq_ok_iff.1)
    | _ => cases h
  · rintro ⟨hvars⟩
    refine bind_eq_ok_iff.2 ⟨_, mapM_eq_ok_iff.2 ?_, rfl⟩
    exact hvars.imp fun _ _ => readVariable_eq_ok_iff.2

theorem readOperations_eq_ok_iff {es : Entries} {ops : List (String × String)} :
    readOperations source line es = .ok ops ↔
      List.Forall₂ (fun e o => o.1 = e.1 ∧ e.2 = .text o.2) es ops := by
  induction es generalizing ops with
  | nil => simp [readOperations, eq_comm]
  | cons e rest ih =>
    obtain ⟨op, d⟩ := e
    rw [readOperations, List.forall₂_cons_left_iff]
    cases hd : d.text? with
    | none =>
      have hother : ∀ name, d ≠ .text name := by
        rintro name rfl
        cases hd
      simp [refuse, hother]
    | some name =>
      obtain rfl := text?_eq_some_iff.1 hd
      simp only [bind_eq_ok_iff, ih]
      constructor
      · rintro ⟨ops, hops, h⟩
        cases h
        exact ⟨_, _, ⟨rfl, rfl⟩, hops, rfl⟩
      · rintro ⟨⟨_, _⟩, ops, ⟨rfl, h⟩, hops, rfl⟩
        cases h
        exact ⟨ops, hops, rfl⟩

/-- Reads the field with the sets of the operations. -/
def operationsIn (source : String) (line : Int) : Datum → Except Error (List (String × String))
  | .null => .ok []
  | .map es => readOperations source line es
  | _ => refuse source line .operationsShape

theorem operationsIn_eq_ok_iff {ops : List (String × String)} :
    operationsIn source line d = .ok ops ↔ ReadsOperations d ops := by
  constructor
  · intro h
    cases d with
    | null =>
      cases h
      exact .null
    | map es => exact .map (readOperations_eq_ok_iff.1 h)
    | _ => cases h
  · intro h
    cases h with
    | null => rfl
    | map hops => exact readOperations_eq_ok_iff.2 hops

/-- The table, if it is valid. -/
def validated (source : String) (t : Correlation.Table) : Except Error Correlation.Table :=
  match t.validate with
  | some e => refuse source 0 (.table e)
  | none => .ok t

theorem validated_eq_ok_iff {t u : Correlation.Table} :
    validated source t = .ok u ↔ t = u ∧ t.validate = none := by
  unfold validated
  cases t.validate <;> simp [refuse_ne_ok]

theorem readTable_map (source : String) (es : Entries) :
    readTable source (.map es) =
      (Entries.get es "sets").items.mapM (readSet source (lineOf es)) >>= fun sets =>
        operationsIn source (lineOf es) (Entries.get es "operations") >>= fun ops =>
          validated source ⟨sets, ops⟩ := by
  rw [readTable]
  congr 1
  funext sets
  cases es.get "operations" <;> rfl

theorem validate_empty : ({} : Correlation.Table).validate = none := by
  simp [Correlation.Table.validate, Correlation.Table.faultySet?,
    Correlation.Table.faultyOperation?, Correlation.Table.sortedOperations]

/-- The correlation tables that are read are those that are written and valid. -/
theorem readTable_eq_ok_iff {t : Correlation.Table} :
    readTable source d = .ok t ↔ ReadsTable source d t ∧ t.validate = none := by
  constructor
  · intro h
    cases d with
    | null =>
      cases h
      exact ⟨.null, validate_empty⟩
    | map es =>
      rw [readTable_map] at h
      obtain ⟨sets, hsets, h⟩ := bind_eq_ok_iff.1 h
      obtain ⟨ops, hops, h⟩ := bind_eq_ok_iff.1 h
      obtain ⟨rfl, hvalid⟩ := validated_eq_ok_iff.1 h
      rw [mapM_eq_ok_iff] at hsets
      refine ⟨.map (hsets.imp fun _ _ => ?_) (operationsIn_eq_ok_iff.1 hops), hvalid⟩
      exact readSet_eq_ok_iff.1
    | _ => cases h
  · rintro ⟨h, hvalid⟩
    cases h with
    | null => rfl
    | @map es sets ops hsets hops =>
      rw [readTable_map]
      refine bind_eq_ok_iff.2 ⟨sets, mapM_eq_ok_iff.2 ?_, bind_eq_ok_iff.2 ⟨ops, ?_, ?_⟩⟩
      · exact hsets.imp fun _ _ => readSet_eq_ok_iff.2
      · exact operationsIn_eq_ok_iff.2 hops
      · exact validated_eq_ok_iff.2 ⟨rfl, hvalid⟩

/-- Whether a value writes a variable does not depend on where it stands. -/
theorem exists_readsVariable_iff :
    (∃ v, ReadsVariable loc d v) ↔
      ∃ name text, variableText? d = some (name, text) ∧ Path.IsText text := by
  constructor
  · rintro ⟨v, text, htext, hpath⟩
    exact ⟨v.name, text, htext, (Path.parse_succeeds_iff loc text).1 ⟨_, hpath⟩⟩
  · rintro ⟨name, text, htext, hpath⟩
    obtain ⟨p, hp⟩ := (Path.parse_succeeds_iff loc text).2 hpath
    exact ⟨⟨name, p⟩, text, htext, hp⟩

theorem exists_readsSet_iff :
    (∃ s, ReadsSet source d s) ↔
      ∃ fs : Entries, d = .map fs ∧ ∀ v ∈ (fs.get "vars").items,
        ∃ name text, variableText? v = some (name, text) ∧ Path.IsText text := by
  constructor
  · rintro ⟨_, ⟨hvars⟩⟩
    refine ⟨_, rfl, fun v hv => ?_⟩
    exact exists_readsVariable_iff.1 (exists_forall₂_iff.1 ⟨_, hvars⟩ v hv)
  · rintro ⟨fs, rfl, h⟩
    have hvars : ∀ v ∈ (fs.get "vars").items, ∃ w, ReadsVariable (locOf source fs) v w :=
      fun v hv => exists_readsVariable_iff.2 (h v hv)
    obtain ⟨vars, hvars⟩ := exists_forall₂_iff.2 hvars
    exact ⟨_, .mk hvars⟩

theorem exists_readsOperations_iff :
    (∃ ops, ReadsOperations d ops) ↔
      d = .null ∨ ∃ es : Entries, d = .map es ∧ ∀ o ∈ es, ∃ name, o.2 = .text name := by
  constructor
  · rintro ⟨_, h⟩
    cases h with
    | null => exact .inl rfl
    | map hops =>
      refine .inr ⟨_, rfl, fun o ho => ?_⟩
      obtain ⟨named, -, hname⟩ := exists_forall₂_iff.1 ⟨_, hops⟩ o ho
      exact ⟨_, hname⟩
  · rintro (rfl | ⟨es, rfl, h⟩)
    · exact ⟨_, .null⟩
    · have hops : ∀ e ∈ es, ∃ o : String × String, o.1 = e.1 ∧ e.2 = .text o.2 := by
        intro e he
        obtain ⟨name, hname⟩ := h e he
        exact ⟨(e.1, name), rfl, hname⟩
      obtain ⟨ops, hops⟩ := exists_forall₂_iff.2 hops
      exact ⟨ops, .map hops⟩

theorem exists_readsTable_iff : (∃ t, ReadsTable source d t) ↔ WellFormedTable d := by
  constructor
  · rintro ⟨_, h⟩
    cases h with
    | null => exact .null
    | map hsets hops =>
      refine .map (fun d hd => ?_) (exists_readsOperations_iff.1 ⟨_, hops⟩)
      exact exists_readsSet_iff.1 (exists_forall₂_iff.1 ⟨_, hsets⟩ d hd)
  · intro h
    cases h with
    | null => exact ⟨_, .null⟩
    | map hsets hops =>
      have hsets : ∀ d ∈ (Entries.get _ "sets").items, ∃ s, ReadsSet source d s :=
        fun d hd => exists_readsSet_iff.2 (hsets d hd)
      obtain ⟨sets, hsets⟩ := exists_forall₂_iff.2 hsets
      obtain ⟨ops, hops⟩ := exists_readsOperations_iff.2 hops
      exact ⟨_, .map hsets hops⟩

theorem readsVariable_unique : Relator.RightUnique (ReadsVariable loc) := by
  rintro d ⟨name, p⟩ ⟨name', p'⟩ ⟨text, htext, hp⟩ ⟨text', htext', hp'⟩
  rw [htext] at htext'
  cases htext'
  rw [hp] at hp'
  cases hp'
  rfl

theorem readsSet_unique : Relator.RightUnique (ReadsSet source) := by
  rintro d s s' ⟨hvars⟩ ⟨hvars'⟩
  rw [readsVariable_unique.forall₂ hvars hvars']

theorem readsOperations_unique : Relator.RightUnique ReadsOperations := by
  intro d ops ops' h h'
  have hnamed : Relator.RightUnique fun (e : String × Datum) (o : String × String) =>
      o.1 = e.1 ∧ e.2 = .text o.2 := by
    rintro e o o' ⟨hop, hname⟩ ⟨hop', hname'⟩
    refine Prod.ext (hop.trans hop'.symm) ?_
    rw [hname] at hname'
    exact Datum.text.inj hname'
  cases h with
  | null =>
    cases h'
    rfl
  | map hops =>
    cases h' with
    | map hops' => exact hnamed.forall₂ hops hops'

/-- A value writes one correlation table at most. -/
theorem readsTable_unique : Relator.RightUnique (ReadsTable source) := by
  intro d t t' h h'
  cases h with
  | null =>
    cases h'
    rfl
  | map hsets hops =>
    cases h' with
    | map hsets' hops' =>
      rw [readsSet_unique.forall₂ hsets hsets', readsOperations_unique hops hops']

end Tables

/-! ## Programs -/

/-- The item of a program that a value writes. -/
inductive ReadsItem (source : String) : Datum → Item → Prop where
  | define {es : Entries} {p : Activity} (hkind : textOf es "kind" = "define")
      (hname : textOf es "name" ≠ "") (hp : ReadsActivity source (es.get "body") p) :
      ReadsItem source (.map es) (.definition ⟨locOf source es, textOf es "name", p⟩)
  | decl {es : Entries} (hkind : textOf es "kind" = "decl") :
      ReadsItem source (.map es)
        (.declaration ⟨locOf source es, textOf es "what", textOf es "name"⟩)

/-- A value that writes an item of a program. -/
inductive WellFormedItem : Datum → Prop where
  | define {es : Entries} (hkind : textOf es "kind" = "define") (hname : textOf es "name" ≠ "")
      (hbody : WellFormed .activity (es.get "body")) : WellFormedItem (.map es)
  | decl {es : Entries} (hkind : textOf es "kind" = "decl") : WellFormedItem (.map es)

section Programs

variable {source : String} {d : Datum}

/-- The items that one value of a program gives: one, or none after a fault. -/
def readItem (source : String) (d : Datum) : Reading (List Item) := do
  match d with
  | .map es =>
    match textOf es "kind" with
    | "define" => do
      let name := textOf es "name"
      if name = "" then fail source (lineOf es) .unnamedDefinition
      let body ← readActivity source (Entries.get es "body")
      pure [Item.definition ⟨locOf source es, name, body⟩]
    | "decl" => pure [Item.declaration ⟨locOf source es, textOf es "what", textOf es "name"⟩]
    | kind => do
      fail source (lineOf es) (.unknownItem kind)
      pure []
  | d => do
    fail source 0 (.itemShape d.plain)
    pure []

theorem readItems_cons (source : String) (d : Datum) (rest : List Datum) :
    readItems source (d :: rest) =
      readItem source d >>= fun here =>
        readItems source rest >>= fun items => pure (here ++ items) := by
  cases d with
  | map es =>
    rw [readItems, readItem]
    dsimp only
    generalize textOf es "kind" = kind
    split
    · by_cases hname : textOf es "name" = "" <;> simp [hname]
    · simp
    · simp
  | _ => simp [readItems, readItem]

instance sticky_readItem (source : String) (d : Datum) : Sticky (readItem source d) := by
  unfold readItem
  split
  · dsimp only
    split
    · split <;> infer_instance
    · infer_instance
    · infer_instance
  · infer_instance

instance sticky_readItems (source : String) (ds : List Datum) : Sticky (readItems source ds) := by
  induction ds with
  | nil =>
    rw [readItems]
    infer_instance
  | cons d rest ih =>
    rw [readItems_cons]
    infer_instance

theorem accepted_readItem_iff : Accepted (readItem source d) ↔ WellFormedItem d := by
  cases d with
  | map es =>
    rw [readItem]
    dsimp only
    split
    · rename_i hkind
      have hiff : WellFormedItem (.map es) ↔
          textOf es "name" ≠ "" ∧ WellFormed .activity (Entries.get es "body") := by
        refine ⟨fun h => ?_, fun ⟨hname, hbody⟩ => .define hkind hname hbody⟩
        cases h with
        | define _ hname hbody => exact ⟨hname, hbody⟩
        | decl hdecl => simp [hkind] at hdecl
      rw [hiff]
      by_cases hname : textOf es "name" = "" <;> simp [hname, accepted_readActivity_iff]
    · rename_i hkind
      exact ⟨fun _ => .decl hkind, fun _ => accepted_pure _⟩
    · rename_i hdefine hdecl
      refine ⟨fun h => ?_, fun h => ?_⟩
      · simp at h
      · cases h with
        | define hkind => exact absurd hkind hdefine
        | decl hkind => exact absurd hkind hdecl
  | _ =>
    refine ⟨fun h => ?_, fun h => ?_⟩
    · simp [readItem] at h
    · cases h

theorem accepted_readItems_iff {ds : List Datum} :
    Accepted (readItems source ds) ↔ ∀ d ∈ ds, WellFormedItem d := by
  induction ds with
  | nil => simp [readItems]
  | cons d rest ih =>
    rw [readItems_cons, List.forall_mem_cons, ← ih]
    simp [accepted_readItem_iff]

theorem readItem_faithful {items : List Item} (h : Yields (readItem source d) items) :
    ∃ item, items = [item] ∧ ReadsItem source d item := by
  cases d with
  | map es =>
    rw [readItem] at h
    dsimp only at h
    split at h
    · rename_i hkind
      by_cases hname : textOf es "name" = ""
      · simp [hname] at h
      · simp only [hname, if_false, yields_bind_iff, yields_pure_iff] at h
        obtain ⟨p, hp, rfl⟩ := h
        exact ⟨_, rfl, .define hkind hname (readActivity_faithful source _ _ hp)⟩
    · rename_i hkind
      obtain rfl := yields_pure_iff.1 h
      exact ⟨_, rfl, .decl hkind⟩
    · simp at h
  | _ => simp [readItem] at h

theorem readItems_faithful {ds : List Datum} {items : List Item}
    (h : Yields (readItems source ds) items) : List.Forall₂ (ReadsItem source) ds items := by
  induction ds generalizing items with
  | nil =>
    obtain rfl := yields_pure_iff.1 h
    exact .nil
  | cons d rest ih =>
    rw [readItems_cons] at h
    simp only [yields_bind_iff, yields_pure_iff] at h
    obtain ⟨here, hhere, items, hitems, rfl⟩ := h
    obtain ⟨item, rfl, hitem⟩ := readItem_faithful hhere
    exact .cons hitem (ih hitems)

theorem readProgram_eq_ok_iff {p : Program} :
    readProgram source d = .ok p ↔
      ∃ ds, d = .list ds ∧ p.loc = ⟨source, 0⟩ ∧ Yields (readItems source ds) p.items := by
  obtain ⟨loc, items⟩ := p
  constructor
  · intro h
    cases d with
    | list ds =>
      rw [readProgram] at h
      split at h
      · rename_i hitems
        cases h
        exact ⟨ds, rfl, rfl, hitems⟩
      · cases h
    | _ => cases h
  · rintro ⟨ds, rfl, rfl, hitems⟩
    have hrun : (readItems source ds).run none = (items, none) := hitems
    rw [readProgram, hrun]

end Programs

/-! ## Documents -/

/-- The name of a document: its own field `source`, or else the name that it is given. -/
def sourceOf (name : String) (es : Entries) : String :=
  if textOf es "source" = "" then name else textOf es "source"

theorem parse_formatConstraint :
    Constraint.parse formatConstraint = .ok ⟨[[⟨.compatible, ⟨1, 0, 0, []⟩, .minor⟩]]⟩ := by
  have hranges : Constraint.withoutRanges formatConstraint = formatConstraint := by decide +kernel
  -- Splitting at the bars does not reduce in the kernel, so it is computed apart.
  have hbars : formatConstraint.splitOn "||" = [formatConstraint] := by cbv
  have hcomparison : (Constraint.alternative formatConstraint).toOption =
      some [⟨.compatible, ⟨1, 0, 0, []⟩, .minor⟩] := by decide +kernel
  rw [Constraint.parse, hranges, hbars, List.mapM_cons, List.mapM_nil]
  cases h : Constraint.alternative formatConstraint with
  | error e =>
    rw [h] at hcomparison
    cases hcomparison
  | ok c =>
    rw [h] at hcomparison
    cases hcomparison
    rfl

/-- A document without a format is in one that can be read. -/
theorem checkFormat_empty : checkFormat formatConstraint "" = .ok () := by
  rw [checkFormat, parse_formatConstraint]
  rfl

/-- The map of a document that can be read. -/
structure Admissible (name : String) (es : Entries) : Prop where
  format : checkFormat formatConstraint (textOf es "format") = .ok ()
  mode : ∃ m, Mode.ofName? (textOf es "mode") = some m
  correlation : WellFormedTable (es.get "correlation")
  valid : ∀ t, ReadsTable (sourceOf name es) (es.get "correlation") t → t.validate = none
  program : ∃ ds, es.get "program" = .list ds ∧ ∀ d ∈ ds, WellFormedItem d

/-- The document is the one that the map writes. -/
structure Faithful (name : String) (es : Entries) (d : Document) : Prop where
  fields : ∀ fs, FieldsRead d.source fs
  format : d.format = textOf es "format"
  source : d.source = sourceOf name es
  mode : Mode.ofName? (textOf es "mode") = some d.mode
  correlation : ReadsTable d.source (es.get "correlation") d.correlation
  valid : d.correlation.validate = none
  loc : d.program.loc = ⟨d.source, 0⟩
  items : ∃ ds, es.get "program" = .list ds ∧
    List.Forall₂ (ReadsItem d.source) ds d.program.items

/-- A `const` without a literal stands in the body of a definition. -/
def HollowProgram (es : Entries) : Prop :=
  ∃ ds, es.get "program" = .list ds ∧ ∃ fs : Entries, .map fs ∈ ds ∧
    textOf fs "kind" = "define" ∧ Hollow .activity (fs.get "body")

section Documents

variable {name : String} {es : Entries}

/-- A document is read in steps, each of which has to succeed. -/
theorem ofEntries_eq_ok_iff {d : Document} :
    ofEntries name es = .ok d ↔
      checkFormat formatConstraint (textOf es "format") = .ok () ∧
      d.format = textOf es "format" ∧ d.source = sourceOf name es ∧
      Mode.ofName? (textOf es "mode") = some d.mode ∧
      readTable d.source (es.get "correlation") = .ok d.correlation ∧
      readProgram d.source (es.get "program") = .ok d.program := by
  -- With the document taken apart, each step is seen to decide one of its fields.
  obtain ⟨format, source, mode, correlation, program⟩ := d
  unfold ofEntries
  dsimp only
  rw [← sourceOf, bind_eq_ok_iff]
  cases Mode.ofName? (textOf es "mode") with
  | none => simp [bind_eq_ok_iff, refuse_ne_ok]
  | some m =>
    simp only [bind_eq_ok_iff]
    constructor
    · rintro ⟨_, hformat, _, hm, t, ht, p, hp, h⟩
      cases hm
      cases h
      exact ⟨hformat, rfl, rfl, rfl, ht, hp⟩
    · rintro ⟨hformat, rfl, rfl, hm, ht, hp⟩
      cases hm
      exact ⟨_, hformat, _, rfl, _, ht, _, hp, rfl⟩

theorem exists_ofEntries_iff : (∃ d, ofEntries name es = .ok d) ↔ Admissible name es := by
  constructor
  · rintro ⟨d, h⟩
    obtain ⟨hformat, -, hsource, hmode, htable, hprogram⟩ := ofEntries_eq_ok_iff.1 h
    rw [hsource] at htable hprogram
    obtain ⟨htable, hvalid⟩ := readTable_eq_ok_iff.1 htable
    obtain ⟨ds, hds, -, hitems⟩ := readProgram_eq_ok_iff.1 hprogram
    refine ⟨hformat, ⟨_, hmode⟩, exists_readsTable_iff.1 ⟨_, htable⟩, fun t ht => ?_, ds, hds,
      accepted_readItems_iff.1 ⟨_, hitems⟩⟩
    rw [readsTable_unique ht htable]
    exact hvalid
  · intro h
    obtain ⟨mode, hmode⟩ := h.mode
    obtain ⟨ds, hds, hitems⟩ := h.program
    obtain ⟨t, ht⟩ := exists_readsTable_iff.2 h.correlation
    obtain ⟨items, hitems⟩ := accepted_readItems_iff.2 hitems
    have htable := readTable_eq_ok_iff.2 ⟨ht, h.valid t ht⟩
    have hprogram : readProgram (sourceOf name es) (es.get "program") = .ok ⟨⟨_, 0⟩, items⟩ :=
      readProgram_eq_ok_iff.2 ⟨ds, hds, rfl, hitems⟩
    exact ⟨⟨textOf es "format", sourceOf name es, mode, t, _⟩,
      ofEntries_eq_ok_iff.2 ⟨h.format, rfl, rfl, hmode, htable, hprogram⟩⟩

theorem faithful_of_ofEntries {d : Document} (h : ofEntries name es = .ok d) :
    Faithful name es d := by
  obtain ⟨-, hformat, hsource, hmode, htable, hprogram⟩ := ofEntries_eq_ok_iff.1 h
  obtain ⟨htable, hvalid⟩ := readTable_eq_ok_iff.1 htable
  obtain ⟨ds, hds, hloc, hitems⟩ := readProgram_eq_ok_iff.1 hprogram
  exact ⟨fieldsRead, hformat, hsource, hmode, htable, hvalid, hloc, ds, hds,
    readItems_faithful hitems⟩

/-- An empty constant stands in the program of a document exactly if a `const` without a literal
stands in the body of a definition. -/
theorem hollow_program_iff {d : Document} (h : Faithful name es d) :
    (Node.program d.program).Hollow ↔ HollowProgram es := by
  obtain ⟨ds, hds, hitems⟩ := h.items
  have hitem : ∀ x ∈ ds, ∀ i, ReadsItem d.source x i →
      ((∃ fs, x = .map fs ∧ textOf fs "kind" = "define" ∧ Hollow .activity (Entries.get fs "body")) ↔
        i.node.Hollow) := by
    intro x _ i hi
    rw [Node.hollow_iff]
    cases hi with
    | define hkind _ hp => simp [Item.node, Node.fields, hkind, hollow_activity_iff _ _ _ hp]
    | decl hkind => simp [Item.node, Node.fields, hkind]
  have hprogram : HollowProgram es ↔ ∃ x ∈ ds,
      ∃ fs, x = .map fs ∧ textOf fs "kind" = "define" ∧ Hollow .activity (Entries.get fs "body") := by
    constructor
    · rintro ⟨ds', hds', fs, hfs, h⟩
      cases hds.symm.trans hds'
      exact ⟨_, hfs, fs, rfl, h⟩
    · rintro ⟨_, hx, fs, rfl, h⟩
      exact ⟨ds, hds, fs, hx, h⟩
  rw [hprogram, exists_hollow_iff hitems hitem, Node.hollow_iff]
  simp [Node.fields]

/-- A document is read exactly from the maps that write one, and it is the one that the map writes.
An empty constant stands in its program exactly if the map has a `const` without a literal: no other
part of a document stands in for something. -/
theorem documents_exactly_wellFormed (name : String) (es : Entries) :
    ((∃ d, ofEntries name es = .ok d) ↔ Admissible name es) ∧
      ∀ d, ofEntries name es = .ok d →
        Faithful name es d ∧ ((Node.program d.program).Hollow ↔ HollowProgram es) := by
  refine ⟨exists_ofEntries_iff, fun d h => ?_⟩
  have hfaithful := faithful_of_ofEntries h
  exact ⟨hfaithful, hollow_program_iff hfaithful⟩

/-- The map of a document with one definition. -/
def entriesOfBody (body : Datum) : Entries :=
  [("program", .list [.map [("kind", .text "define"), ("name", .text "main"), ("body", body)]])]

theorem admissible_entriesOfBody {body : Datum} (h : WellFormed .activity body) :
    Admissible name (entriesOfBody body) := by
  refine ⟨checkFormat_empty, ⟨_, rfl⟩, .null, fun t ht => ?_, _, rfl, ?_⟩
  · cases (show ReadsTable (sourceOf name (entriesOfBody body)) .null t from ht)
    exact validate_empty
  · simp only [List.forall_mem_singleton]
    exact .define rfl (by simp [textOf, Entries.get]) h

/-- An assignment is well-formed if its target is the text of a path and its value is well-formed. -/
theorem wellFormed_assign {target : String} {value : Datum} (htarget : target ≠ "")
    (hpath : Path.IsText target) (hvalue : WellFormed .expression value) :
    WellFormed .activity
      (.map [("kind", .text "assign"), ("target", .text target), ("value", value)]) := by
  refine wellFormed_map_iff.2
    ⟨{ required := ["target"], parts := [(.expression, "value")] }, rfl, ?_⟩
  simp only [Shape.fits_iff, List.forall_mem_singleton, List.not_mem_nil, false_implies,
    implies_true, and_true, true_and]
  exact ⟨⟨htarget, hpath⟩, hvalue⟩

theorem documents_exactly_wellFormed_assigning :
    let es : Entries := [("program", .list [.map [("kind", .text "define"), ("name", .text "main"),
      ("body", .map [("kind", .text "assign"), ("target", .text "sid"),
        ("value", .map [("kind", .text "new")])])]])]
    ∃ d, ofEntries "posted" es = .ok d ∧ Faithful "posted" es d ∧
      ((Node.program d.program).Hollow ↔ HollowProgram es) := by
  intro es
  have hvalue : WellFormed .expression (.map [("kind", .text "new")]) := by
    refine wellFormed_map_iff.2 ⟨{}, rfl, ?_⟩
    simp [Shape.fits_iff]
  have hes : Admissible "posted" es :=
    admissible_entriesOfBody (wellFormed_assign (by decide) ⟨_, rfl⟩ hvalue)
  obtain ⟨hiff, hfaithful⟩ := documents_exactly_wellFormed "posted" es
  obtain ⟨d, hd⟩ := hiff.2 hes
  exact ⟨d, hd, hfaithful d hd⟩

/-- The constant of a variable is read as an empty constant, and the document is accepted. -/
theorem hollow_const_accepted :
    let es : Entries := [("program", .list [.map [("kind", .text "define"), ("name", .text "main"),
      ("body", .map [("kind", .text "assign"), ("target", .text "csets.sid"),
        ("value", .map [("kind", .text "const"),
          ("value", .map [("kind", .text "var"), ("path", .text "request.id")])])])]])]
    ∃ d, ofEntries "in.ol" es = .ok d ∧ (Node.program d.program).Hollow := by
  intro es
  have hvar : WellFormed .expression
      (.map [("kind", .text "var"), ("path", .text "request.id")]) := by
    have hpath : Path.IsText "request.id" := ⟨_, rfl⟩
    refine wellFormed_map_iff.2 ⟨{ required := ["path"] }, rfl, ?_⟩
    simp only [Shape.fits_iff, List.forall_mem_singleton, List.not_mem_nil, false_implies,
      implies_true, and_true]
    exact ⟨by decide, hpath⟩
  have hvalue : WellFormed .expression (.map [("kind", .text "const"),
      ("value", .map [("kind", .text "var"), ("path", .text "request.id")])]) := by
    refine wellFormed_map_iff.2 ⟨{ parts := [(.expression, "value")] }, rfl, ?_⟩
    simp only [Shape.fits_iff, List.forall_mem_singleton, List.not_mem_nil, false_implies,
      implies_true, and_true, true_and]
    exact hvar
  have hes : Admissible "in.ol" es :=
    admissible_entriesOfBody (wellFormed_assign (by decide) ⟨_, rfl⟩ hvalue)
  obtain ⟨d, hd⟩ := exists_ofEntries_iff.2 hes
  refine ⟨d, hd, (hollow_program_iff (faithful_of_ofEntries hd)).2 ?_⟩
  refine ⟨_, rfl, _, List.mem_singleton_self _, rfl, ?_⟩
  -- The assignment holds the `const`, and no literal is written by its value.
  refine @Hollow.part _ _ _ (.expression, "value") rfl (List.mem_singleton_self _) (.here rfl ?_)
  intro v hv
  cases hv with
  | scalar h => cases h
  | const hkind => exact absurd hkind (by decide)

end Documents

end Sessions.Document
