import Sessions.Proofs.Correlation.Table
import Sessions.Proofs.Document.Acceptance

/-!
# Sessions.Proofs.Document.Reordering

The operations of a document are a map, and a map has no order of its own. In whatever order its
entries come, one document is read or one fault is found, but for this: of several entries that name
no set, the first one to come is reported (`operations_order`).
-/

namespace Sessions.Document

/-- The value of the entry is no text, so it is not the name of a set. -/
def namesNoSet (e : String × Datum) : Bool :=
  e.2.text?.isNone

/-- Two maps that write one document, with its operations in the order of `ops` and of `ops'`. -/
structure Reordered (ops ops' es es' : Entries) : Prop where
  perm : ops.Perm ops'
  distinct : (ops.map (·.1)).Nodup
  table : ∃ c c' : Entries, es.get "correlation" = .map c ∧ es'.get "correlation" = .map c' ∧
    c.get "operations" = .map ops ∧ c'.get "operations" = .map ops' ∧
    ∀ key, key ≠ "operations" → c.get key = c'.get key
  others : ∀ key, key ≠ "correlation" → es.get key = es'.get key

/-- The same table: its operations are one map, perhaps listed in two orders. -/
structure SameTable (t t' : Correlation.Table) : Prop where
  sets : t.sets = t'.sets
  operations : t.operations.Perm t'.operations
  distinct : (t.operations.map (·.1)).Nodup

/-- The same document up to the order in which its table lists the operations. -/
structure Same (d d' : Document) : Prop where
  format : d.format = d'.format
  source : d.source = d'.source
  mode : d.mode = d'.mode
  correlation : SameTable d.correlation d'.correlation
  program : d.program = d'.program

/-- Two answers with related results, with one fault, or with two faults that `F` relates. -/
inductive Agree {α : Type} (R : α → α → Prop) (F : Error → Error → Prop) :
    Except Error α → Except Error α → Prop
  | ok {a b} (h : R a b) : Agree R F (.ok a) (.ok b)
  | fault (e : Error) : Agree R F (.error e) (.error e)
  | faults {e e'} (h : F e e') : Agree R F (.error e) (.error e')

/-- Each of two orders reports the first of its entries that names no set. -/
def ReportsFirst (source : String) (line : Int) (ops ops' : Entries) (e e' : Error) : Prop :=
  ∃ o o', ops.find? namesNoSet = some o ∧ ops'.find? namesNoSet = some o' ∧ o.1 ≠ o'.1 ∧
    e = .malformed ⟨source, line, .setNameShape o.1⟩ ∧
    e' = .malformed ⟨source, line, .setNameShape o'.1⟩

section Agree

variable {α β : Type} {R : α → α → Prop} {S : β → β → Prop} {F G : Error → Error → Prop}

theorem Agree.bind {x y : Except Error α} {f g : α → Except Error β} (h : Agree R F x y)
    (hfg : ∀ a b, R a b → Agree S F (f a) (g b)) : Agree S F (x >>= f) (y >>= g) := by
  cases h with
  | ok h => exact hfg _ _ h
  | fault e => exact .fault e
  | faults h => exact .faults h

theorem agree_bind {x : Except Error α} {f g : α → Except Error β}
    (hfg : ∀ a, Agree S F (f a) (g a)) : Agree S F (x >>= f) (x >>= g) := by
  cases x with
  | ok a => exact hfg a
  | error e => exact .fault e

theorem Agree.mono {x y : Except Error α} (h : Agree R F x y) (hF : ∀ e e', F e e' → G e e') :
    Agree R G x y := by
  cases h with
  | ok h => exact .ok h
  | fault e => exact .fault e
  | faults h => exact .faults (hF _ _ h)

end Agree

section Reordering

variable {source : String} {line : Int} {ops ops' es es' c c' : Entries}

/-! ## The operations -/

/-- The operations are read unless one of them names no set; the first such one is reported. -/
theorem readOperations_eq (source : String) (line : Int) (ops : Entries) :
    readOperations source line ops =
      match ops.find? namesNoSet with
      | some o => refuse source line (.setNameShape o.1)
      | none => .ok (ops.map fun e => (e.1, e.2.text?.getD "")) := by
  induction ops with
  | nil => rfl
  | cons e rest ih =>
    obtain ⟨op, d⟩ := e
    rw [readOperations, List.find?_cons, namesNoSet]
    cases hd : d.text? with
    | none => simp
    | some set =>
      simp only [Option.isNone_some, ih, List.map_cons, hd, Option.getD_some]
      cases rest.find? namesNoSet with
      | none => rfl
      | some o => rfl

theorem readOperations_agree (h : ops.Perm ops') (hdistinct : (ops.map (·.1)).Nodup) :
    Agree (fun os os' => os.Perm os' ∧ (os.map (·.1)).Nodup) (ReportsFirst source line ops ops')
      (readOperations source line ops) (readOperations source line ops') := by
  have hnone : ops.find? namesNoSet = none ↔ ops'.find? namesNoSet = none := by
    simp only [List.find?_eq_none, h.mem_iff]
  rw [readOperations_eq, readOperations_eq]
  cases ho : ops.find? namesNoSet with
  | none =>
    rw [hnone.1 ho]
    refine .ok ⟨h.map _, ?_⟩
    rwa [List.map_map]
  | some o =>
    cases ho' : ops'.find? namesNoSet with
    | none =>
      rw [hnone.2 ho'] at ho
      cases ho
    | some o' =>
      by_cases hname : o.1 = o'.1
      · dsimp only
        rw [hname]
        exact .fault _
      · exact .faults ⟨o, o', ho, ho', hname, rfl, rfl⟩

/-! ## Tables and documents -/

theorem validated_agree {t t' : Correlation.Table} (h : SameTable t t') :
    Agree SameTable F (validated source t) (validated source t') := by
  obtain ⟨sets, os⟩ := t
  obtain ⟨_, os'⟩ := t'
  obtain ⟨rfl, hperm, hdistinct⟩ := h
  have hvalidate : Correlation.Table.validate ⟨sets, os⟩ = Correlation.Table.validate ⟨sets, os'⟩ :=
    Correlation.Table.validate_perm hperm hdistinct
  rw [validated, validated, hvalidate]
  cases Correlation.Table.validate ⟨sets, os'⟩ with
  | some e => exact .fault _
  | none => exact .ok ⟨rfl, hperm, hdistinct⟩

theorem textOf_congr {key : String} (h : es.get key = es'.get key) :
    textOf es key = textOf es' key := by
  rw [textOf, textOf, h]

theorem lineOf_congr (h : es.get "line" = es'.get "line") : lineOf es = lineOf es' := by
  rw [lineOf, lineOf, h]

theorem readTable_agree (hperm : ops.Perm ops') (hdistinct : (ops.map (·.1)).Nodup)
    (hops : c.get "operations" = .map ops) (hops' : c'.get "operations" = .map ops')
    (h : ∀ key, key ≠ "operations" → c.get key = c'.get key) :
    Agree SameTable (ReportsFirst source (lineOf c) ops ops') (readTable source (.map c))
      (readTable source (.map c')) := by
  rw [readTable_map, readTable_map, ← h "sets" (by decide), ← lineOf_congr (h "line" (by decide)),
    hops, hops']
  refine agree_bind fun sets => (readOperations_agree hperm hdistinct).bind fun os os' hos => ?_
  exact validated_agree ⟨rfl, hos.1, hos.2⟩

theorem ofEntries_agree (name : String) (h : Reordered ops ops' es es') :
    ∃ c, es.get "correlation" = .map c ∧
      Agree Same (ReportsFirst (sourceOf name es) (lineOf c) ops ops') (ofEntries name es)
        (ofEntries name es') := by
  obtain ⟨c, c', hc, hc', hops, hops', hrest⟩ := h.table
  have htext : ∀ key, key ≠ "correlation" → textOf es' key = textOf es key :=
    fun key hkey => textOf_congr (h.others key hkey).symm
  have hsource : sourceOf name es' = sourceOf name es := by
    rw [sourceOf, sourceOf, htext "source" (by decide)]
  refine ⟨c, hc, ?_⟩
  unfold ofEntries
  dsimp only
  rw [← sourceOf, ← sourceOf, hsource, htext "format" (by decide), htext "mode" (by decide),
    ← lineOf_congr (h.others "line" (by decide)), ← h.others "program" (by decide), hc, hc']
  refine agree_bind fun _ => ?_
  cases Mode.ofName? (textOf es "mode") with
  | none => exact .fault _
  | some mode =>
    refine agree_bind fun mode => ?_
    refine (readTable_agree h.perm h.distinct hops hops' hrest).bind fun t t' ht => ?_
    refine agree_bind fun program => ?_
    exact .ok ⟨rfl, rfl, rfl, ht, rfl⟩

/-- In whatever order the operations of a document are listed, the same document is read or the same
fault is found, unless two of them name no set: then each order reports the first of them. -/
theorem operations_order (name : String) (h : Reordered ops ops' es es') :
    (∃ c, es.get "correlation" = .map c ∧
      Agree Same (ReportsFirst (sourceOf name es) (lineOf c) ops ops') (ofEntries name es)
        (ofEntries name es')) ∧
      ((∀ o ∈ ops, ∀ o' ∈ ops, namesNoSet o = true → namesNoSet o' = true → o = o') →
        Agree Same (fun _ _ => False) (ofEntries name es) (ofEntries name es')) := by
  obtain ⟨c, hc, hagree⟩ := ofEntries_agree name h
  refine ⟨⟨c, hc, hagree⟩, fun hone => hagree.mono ?_⟩
  rintro e e' ⟨o, o', ho, ho', hname, -, -⟩
  have hmem := List.mem_of_find?_eq_some ho
  have hmem' := h.perm.mem_iff.2 (List.mem_of_find?_eq_some ho')
  exact hname (congrArg _ (hone o hmem o' hmem' (List.find?_some ho) (List.find?_some ho')))

end Reordering

/-- A document of an empty program and these operations. -/
def operating (ops : Entries) : Entries :=
  [("correlation", .map [("operations", .map ops)]), ("program", .list [])]

theorem operating_reordered {ops ops' : Entries} (h : ops.Perm ops')
    (hdistinct : (ops.map (·.1)).Nodup) : Reordered ops ops' (operating ops) (operating ops') := by
  refine ⟨h, hdistinct, ⟨_, _, rfl, rfl, rfl, rfl, fun key hkey => ?_⟩, fun key hkey => ?_⟩
  · simp [Entries.get, hkey.symm]
  · simp [operating, Entries.get, hkey.symm]

/-- One entry that names no set is reported wherever it comes. -/
theorem operations_order_pay :
    Reordered [("buy", .text ""), ("pay", .int 1)] [("pay", .int 1), ("buy", .text "")]
        (operating [("buy", .text ""), ("pay", .int 1)])
        (operating [("pay", .int 1), ("buy", .text "")]) ∧
      Agree Same (fun _ _ => False)
        (ofEntries "in.ol" (operating [("buy", .text ""), ("pay", .int 1)]))
        (ofEntries "in.ol" (operating [("pay", .int 1), ("buy", .text "")])) := by
  have h := operating_reordered (List.Perm.swap ("pay", .int 1) ("buy", .text "") [])
    (by decide)
  refine ⟨h, (operations_order "in.ol" h).2 ?_⟩
  simp [namesNoSet, Datum.text?]

theorem ofEntries_operating {ops : Entries} {e : Error}
    (h : readOperations "in.ol" 0 ops = .error e) : ofEntries "in.ol" (operating ops) = .error e := by
  have hformat : checkFormat formatConstraint (textOf (operating ops) "format") = .ok () :=
    checkFormat_empty
  have htable : readTable "in.ol" ((operating ops).get "correlation") = .error e := by
    change readTable "in.ol" (.map [("operations", .map ops)]) = .error e
    rw [readTable_map]
    change readOperations "in.ol" 0 ops >>= _ = _
    rw [h]
    rfl
  change (do
    checkFormat formatConstraint (textOf (operating ops) "format")
    let correlation ← readTable "in.ol" ((operating ops).get "correlation")
    let program ← readProgram "in.ol" (.list [])
    pure (⟨"", "in.ol", Mode.concurrent, correlation, program⟩ : Document)) = .error e
  rw [hformat, htable]
  rfl

/-- Two operations that name no set: the order of the two decides which one is reported. -/
theorem operations_order_decides :
    Reordered [("next", .int 1), ("login", .int 2)] [("login", .int 2), ("next", .int 1)]
        (operating [("next", .int 1), ("login", .int 2)])
        (operating [("login", .int 2), ("next", .int 1)]) ∧
      ¬ Agree Same (fun _ _ => False)
        (ofEntries "in.ol" (operating [("next", .int 1), ("login", .int 2)]))
        (ofEntries "in.ol" (operating [("login", .int 2), ("next", .int 1)])) := by
  have hnext : ofEntries "in.ol" (operating [("next", .int 1), ("login", .int 2)]) =
      .error (.malformed ⟨"in.ol", 0, .setNameShape "next"⟩) := ofEntries_operating rfl
  have hlogin : ofEntries "in.ol" (operating [("login", .int 2), ("next", .int 1)]) =
      .error (.malformed ⟨"in.ol", 0, .setNameShape "login"⟩) := ofEntries_operating rfl
  refine ⟨operating_reordered (List.Perm.swap _ _ _) (by decide), fun h => ?_⟩
  rw [hnext, hlogin] at h
  generalize hop : Error.malformed ⟨"in.ol", 0, .setNameShape "next"⟩ = e at h
  generalize hop' : Error.malformed ⟨"in.ol", 0, .setNameShape "login"⟩ = e' at h
  cases h with
  | fault =>
    rw [← hop'] at hop
    simp at hop
  | faults h => exact h

end Sessions.Document
