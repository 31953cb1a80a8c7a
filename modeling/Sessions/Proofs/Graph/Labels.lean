import Sessions.Proofs.Graph.Renderers

/-!
# Sessions.Proofs.Graph.Labels

What the label of a definition shows. `Shows s t` undoes the tags and the escapes of a label `s`,
which leaves `t`; it has no rule for `<`, `>` or `&` standing for itself. No mark starts inside
another one, so that a label shows one text at most (`Shows.unique`) and falls apart where a tag
starts (`Shows.split`).

The facts of a definition are escaped, and their part of the label shows them as they are. Its name
is not escaped. So the label shows the name and the facts exactly if the name needs no escape
(`labels_read_back`), and a name that looks like a tag makes a label that shows nothing.
-/

namespace Sessions.Text

/-- A text with each occurrence of one character replaced. -/
def replaceChar (c : Char) (form : String) (s : List Char) : List Char :=
  s.flatMap fun d => if d = c then form.toList else [d]

/-- Escaping one character after the other does not escape an escape again, if `&` comes first. -/
theorem escapeMarkup_eq (s : String) :
    (escapeMarkup s).toList =
      replaceChar '>' "&gt;" (replaceChar '<' "&lt;" (replaceChar '&' "&amp;" s.toList)) := by
  rw [escapeMarkup, String.toList_ofList, replaceChar, replaceChar, replaceChar, List.flatMap_assoc,
    List.flatMap_assoc]
  refine List.flatMap_congr fun c _ => ?_
  by_cases hamp : c = '&'
  · subst hamp
    decide
  · by_cases hlt : c = '<'
    · subst hlt
      decide
    · simp [markupChar, hamp, hlt]

end Sessions.Text

namespace Sessions.Graph.Dot

open CallGraph Text

/-! ## Labels read back -/

/-- The tags of a label and the escapes in it, each with what it stands for. -/
def marks : List (String × String) :=
  [("<FONT POINT-SIZE=\"8\">", ""), ("</FONT>", ""), ("<BR/>", ""), ("<BR ALIGN=\"LEFT\"/>", "\n"),
    ("&amp;", "&"), ("&lt;", "<"), ("&gt;", ">")]

/-- Whether the character stands for itself in a label. -/
def isPlain (c : Char) : Bool :=
  c ≠ '<' && c ≠ '>' && c ≠ '&'

/-- Undoing the tags and the escapes of the label leaves the text. -/
inductive Shows : (label text : List Char) → Prop
  | nil : Shows [] []
  | mark {m : String × String} {s t : List Char} (hm : m ∈ marks) (h : Shows s t) :
      Shows (m.1.toList ++ s) (m.2.toList ++ t)
  | plain {c : Char} {s t : List Char} (hc : isPlain c = true) (h : Shows s t) :
      Shows (c :: s) (c :: t)

theorem ne_nil_of_mark {m : String × String} (hm : m ∈ marks) : m.1.toList ≠ [] := by
  have hall : ∀ m ∈ marks, m.1.toList ≠ [] := by decide
  exact hall m hm

theorem isPlain_of_mark {m : String × String} {c : Char} {s x : List Char} (hm : m ∈ marks)
    (hc : isPlain c = true) : m.1.toList ++ x ≠ c :: s := by
  have hhead : ∀ m ∈ marks, m.1.toList.head?.map isPlain = some false := by decide
  obtain ⟨d, hd, hplain⟩ := Option.map_eq_some_iff.1 (hhead m hm)
  intro h
  have := congrArg List.head? h
  rw [List.head?_append, hd, Option.some_or, List.head?_cons, Option.some.injEq] at this
  rw [this, hc] at hplain
  cases hplain

/-- No mark starts with another one. -/
theorem mark_inj {m m' : String × String} (hm : m ∈ marks) (hm' : m' ∈ marks) {s s' : List Char}
    (h : m.1.toList ++ s = m'.1.toList ++ s') : m = m' ∧ s = s' := by
  have hfree : ∀ m ∈ marks, ∀ m' ∈ marks, m.1.toList <+: m'.1.toList → m = m' := by decide
  have heq : m = m' := by
    rcases List.prefix_or_prefix_of_prefix (List.prefix_append _ s) (h ▸ List.prefix_append _ s')
      with hpre | hpre
    · exact hfree m hm m' hm' hpre
    · exact (hfree m' hm' m hm hpre).symm
  subst heq
  exact ⟨rfl, List.append_cancel_left h⟩

namespace Shows

variable {s s' t t' a b : List Char}

theorem append (h : Shows s t) (h' : Shows s' t') : Shows (s ++ s') (t ++ t') := by
  induction h with
  | nil => exact h'
  | mark hm _ ih =>
    rw [List.append_assoc, List.append_assoc]
    exact .mark hm ih
  | plain hc _ ih => exact .plain hc ih

/-- A label shows one text. -/
theorem unique (h : Shows s t) (h' : Shows s t') : t = t' := by
  induction h generalizing t' with
  | nil =>
    generalize hs : ([] : List Char) = s at h'
    cases h' with
    | nil => rfl
    | mark hm _ =>
      exact absurd (List.append_eq_nil_iff.1 hs.symm).1 (ne_nil_of_mark hm)
    | plain => cases hs
  | @mark m s t hm _ ih =>
    generalize hs : m.1.toList ++ s = x at h'
    cases h' with
    | nil =>
      exact absurd (List.append_eq_nil_iff.1 hs).1 (ne_nil_of_mark hm)
    | mark hm' h' =>
      obtain ⟨rfl, rfl⟩ := mark_inj hm hm' hs
      rw [ih h']
    | plain hc _ => exact absurd hs (isPlain_of_mark hm hc)
  | @plain c s t hc _ ih =>
    generalize hs : c :: s = x at h'
    cases h' with
    | nil => cases hs
    | mark hm' _ => exact absurd hs.symm (isPlain_of_mark hm' hc)
    | plain hc' h' =>
      cases hs
      rw [ih h']

/-- A label can be cut where a tag starts. -/
theorem split (h : Shows s t) (hs : s = a ++ b) (hb : b = [] ∨ b.head? = some '<') :
    ∃ t₁ t₂, t = t₁ ++ t₂ ∧ Shows a t₁ ∧ Shows b t₂ := by
  induction h generalizing a with
  | nil =>
    obtain ⟨rfl, rfl⟩ := List.append_eq_nil_iff.1 hs.symm
    exact ⟨[], [], rfl, .nil, .nil⟩
  | @mark m s t hm h ih =>
    rcases List.append_eq_append_iff.1 hs with ⟨a', rfl, hs'⟩ | ⟨x, hx, rfl⟩
    · obtain ⟨t₁, t₂, rfl, h₁, h₂⟩ := ih hs'
      exact ⟨m.2.toList ++ t₁, t₂, (List.append_assoc ..).symm, .mark hm h₁, h₂⟩
    · cases a with
      | nil =>
        rw [List.nil_append] at hx
        subst hx
        exact ⟨[], _, rfl, .nil, .mark hm h⟩
      | cons c a =>
        cases x with
        | nil =>
          rw [List.append_nil] at hx
          rw [List.nil_append] at hb ⊢
          obtain ⟨t₁, t₂, rfl, h₁, h₂⟩ := ih (List.nil_append s).symm
          refine ⟨m.2.toList ++ t₁, t₂, (List.append_assoc ..).symm, ?_, h₂⟩
          rw [← hx, ← List.append_nil m.1.toList]
          exact .mark hm h₁
        | cons d x =>
          -- A tag would start inside the mark `m`.
          have hinside : ∀ m ∈ marks, '<' ∉ m.1.toList.tail := by decide
          have hd : d = '<' := by simpa using hb
          have htail := congrArg List.tail hx
          rw [List.cons_append, List.tail_cons] at htail
          refine absurd ?_ (hinside m hm)
          rw [htail, hd]
          exact List.mem_append_right _ List.mem_cons_self
  | @plain c s t hc h ih =>
    cases a with
    | nil =>
      rw [List.nil_append] at hs
      exact ⟨[], _, rfl, .nil, hs ▸ .plain hc h⟩
    | cons d a =>
      rw [List.cons_append, List.cons.injEq] at hs
      obtain ⟨rfl, hs⟩ := hs
      obtain ⟨t₁, t₂, rfl, h₁, h₂⟩ := ih hs
      exact ⟨c :: t₁, t₂, rfl, .plain hc h₁, h₂⟩

/-- Every mark is longer than what it stands for. -/
theorem length_le (h : Shows s t) :
    t.length ≤ s.length ∧ (t.length = s.length → ∀ c ∈ s, isPlain c = true) := by
  induction h with
  | nil => exact ⟨Nat.le_refl _, fun _ => List.forall_mem_nil _⟩
  | mark hm _ ih =>
    have hshort : ∀ m ∈ marks, m.2.toList.length < m.1.toList.length := by decide
    have hlt := hshort _ hm
    have hle := ih.1
    rw [List.length_append, List.length_append]
    exact ⟨by omega, fun heq => by omega⟩
  | plain hc _ ih =>
    refine ⟨Nat.succ_le_succ ih.1, fun heq => List.forall_mem_cons.2 ⟨hc, ih.2 ?_⟩⟩
    exact Nat.succ.inj heq

theorem self_iff : Shows s s ↔ ∀ c ∈ s, isPlain c = true := by
  refine ⟨fun h => h.length_le.2 rfl, fun h => ?_⟩
  induction s with
  | nil => exact .nil
  | cons c s ih =>
    obtain ⟨hc, hs⟩ := List.forall_mem_cons.1 h
    exact .plain hc (ih hs)

end Shows

/-! ## What a label shows -/

/-- How a character of the facts stands in a label. -/
def lineChar (c : Char) : List Char :=
  (markupChar c).flatMap fun d => if d = '\n' then "<BR ALIGN=\"LEFT\"/>".toList else [d]

theorem shows_lineChar (c : Char) : Shows (lineChar c) [c] := by
  have hmark : ∀ m ∈ marks, Shows m.1.toList m.2.toList := fun m hm => by
    have h := Shows.mark hm .nil
    rwa [List.append_nil, List.append_nil] at h
  by_cases hc : c = '&' ∨ c = '<' ∨ c = '>' ∨ c = '\n'
  · rcases hc with rfl | rfl | rfl | rfl
    · exact hmark ("&amp;", "&") (by decide)
    · exact hmark ("&lt;", "<") (by decide)
    · exact hmark ("&gt;", ">") (by decide)
    · exact hmark ("<BR ALIGN=\"LEFT\"/>", "\n") (by decide)
  · simp only [not_or] at hc
    obtain ⟨hamp, hlt, hgt, hbreak⟩ := hc
    have hself : lineChar c = [c] := by
      rw [lineChar, markupChar, if_neg hamp, if_neg hlt, if_neg hgt, List.flatMap_singleton,
        if_neg hbreak]
    rw [hself]
    exact .plain (by simp [isPlain, hamp, hlt, hgt]) .nil

/-- The facts between their tags show themselves. -/
theorem shows_lines (s : String) :
    Shows (replaceBreaks "<BR ALIGN=\"LEFT\"/>" (escapeMarkup s)).toList s.toList := by
  have hlist : (replaceBreaks "<BR ALIGN=\"LEFT\"/>" (escapeMarkup s)).toList =
      s.toList.flatMap lineChar := by
    simp only [replaceBreaks, escapeMarkup, String.toList_ofList, List.flatMap_assoc]
    rfl
  rw [hlist]
  induction s.toList with
  | nil => exact .nil
  | cons c cs ih => exact (shows_lineChar c).append ih

/-- The text of the facts that the label of a definition shows. -/
def shownText (g : CallGraph) (report : Option Check.Report) (name : String) : String :=
  if g.defines name then factsText (report.bind (·.definition? name)) else ""

/-- What a label adds to a name, if there are facts to show. -/
def factsPart (facts : String) : String :=
  if facts = "" then ""
  else "<FONT POINT-SIZE=\"8\"><BR/>" ++
    replaceBreaks "<BR ALIGN=\"LEFT\"/>" (escapeMarkup facts) ++ "</FONT>"

theorem label_eq_factsPart (g : CallGraph) (report : Option Check.Report) (name : String) :
    label report (g.defines name) name = name ++ factsPart (shownText g report name) := by
  rw [label, factsPart, shownText]
  generalize (if g.defines name then factsText (report.bind (·.definition? name)) else "") = facts
  by_cases hfacts : facts = ""
  · rw [if_pos hfacts, if_pos hfacts, String.append_empty]
  · rw [if_neg hfacts, if_neg hfacts]
    simp only [String.append_assoc]

theorem shows_factsPart (facts : String) : Shows (factsPart facts).toList facts.toList := by
  unfold factsPart
  split
  · next h => rw [h]; exact .nil
  · have hopen : Shows "<FONT POINT-SIZE=\"8\"><BR/>".toList [] :=
      .mark (m := ("<FONT POINT-SIZE=\"8\">", "")) (by decide)
        (.mark (m := ("<BR/>", "")) (by decide) .nil)
    have hclose : Shows "</FONT>".toList [] := .mark (m := ("</FONT>", "")) (by decide) .nil
    rw [String.toList_append, String.toList_append]
    simpa using (hopen.append (shows_lines facts)).append hclose

theorem head?_factsPart (facts : String) :
    (factsPart facts).toList = [] ∨ (factsPart facts).toList.head? = some '<' := by
  unfold factsPart
  split
  · exact .inl rfl
  · refine .inr ?_
    rw [String.toList_append, String.toList_append]
    rfl

/-- What follows a name shows the facts, so the whole shows both if the name shows itself. -/
theorem shows_name_iff (name facts : String) :
    Shows (name ++ factsPart facts).toList (name ++ facts).toList ↔
      ∀ c ∈ name.toList, isPlain c = true := by
  have hfacts := shows_factsPart facts
  rw [String.toList_append, String.toList_append, ← Shows.self_iff]
  refine ⟨fun h => ?_, fun h => h.append hfacts⟩
  obtain ⟨t₁, t₂, heq, h₁, h₂⟩ := h.split rfl (head?_factsPart facts)
  rw [hfacts.unique h₂] at heq
  have hname : name.toList = t₁ := List.append_cancel_right heq
  rwa [← hname] at h₁

theorem nodeLine_label (g : CallGraph) (report : Option Check.Report) (highlight name : String) :
    ∃ style color fill, nodeLine g report highlight name =
      node name style color fill (label report (g.defines name) name) :=
  ⟨_, _, _, rfl⟩

/-- A graph is written with one statement for each mark of its drawing. In the label of a node the
name comes first, as it is, and what follows it shows the facts, whatever texts they hold; escaping
these is replacing `&`, `<` and `>` one after the other. So the label shows the name and the facts,
with no `<`, `>` or `&` left to stand for itself, exactly if the name holds none. -/
theorem labels_read_back (p : Program) (report : Option Check.Report) (highlight : String) :
    let g := CallGraph.ofProgram p
    render p report highlight =
        opening ++ String.join (g.drawing.map (markLine g report highlight)) ++ "\x7d\n" ∧
      (∀ facts, (escapeMarkup facts).toList = replaceChar '>' "&gt;"
        (replaceChar '<' "&lt;" (replaceChar '&' "&amp;" facts.toList))) ∧
      ∀ name, ∃ style color fill part,
        markLine g report highlight (.node name) = node name style color fill (name ++ part) ∧
        Shows part.toList (shownText g report name).toList ∧
        (Shows (name ++ part).toList (name ++ shownText g report name).toList ↔
          ∀ c ∈ name.toList, c ≠ '<' ∧ c ≠ '>' ∧ c ≠ '&') := by
  intro g
  refine ⟨rfl, escapeMarkup_eq, fun name => ?_⟩
  obtain ⟨style, color, fill, hline⟩ := nodeLine_label g report highlight name
  refine ⟨style, color, fill, factsPart (shownText g report name), ?_, shows_factsPart _, ?_⟩
  · rw [markLine, hline, label_eq_factsPart]
  · rw [shows_name_iff]
    simp only [isPlain, ne_eq, Bool.and_eq_true, decide_eq_true_eq, and_assoc]

/-- A program with a definition whose name looks like a tag. -/
def angled : Program :=
  ⟨{}, [.definition ⟨{}, "main", .call {} "<b>"⟩, .definition ⟨{}, "<b>", .nothing {}⟩]⟩

/-- The label of this definition is its name, which shows nothing. -/
theorem label_hides_name :
    "<b>" ∈ nodesOf (CallGraph.ofProgram angled).drawing ∧
      markLine (CallGraph.ofProgram angled) none "" (.node "<b>") =
        node "<b>" "filled" "black" "#99ddc8" "<b>" ∧
      ¬ ∃ text, Shows "<b>".toList text := by
  refine ⟨by decide +kernel, by decide +kernel, ?_⟩
  rintro ⟨text, h⟩
  generalize hs : "<b>".toList = s at h
  cases h with
  | nil => simp at hs
  | mark hm _ =>
    have hstart : ∀ m ∈ marks, 2 ≤ m.1.toList.length ∧ m.1.toList.take 2 ≠ ['<', 'b'] := by decide
    obtain ⟨hlen, hne⟩ := hstart _ hm
    refine hne ?_
    rw [← List.take_append_of_le_length hlen, ← hs]
    rfl
  | plain hc _ =>
    cases hs
    cases hc

end Sessions.Graph.Dot
