import Sessions.Proofs.Check.Neutral

/-!
# Sessions.Proofs.Check.Initial

Adding an initial definition that does nothing. The definitions are walked as before, but the facts
of the entry point are then taken to come after nothing. So the diagnostics change exactly if some
correlation set was given a fresh value and none that can still be traced
(`blankInit_diagnostics`).
-/

namespace Sessions.Check

/-- Whether the activity has nothing to do. -/
def isBlank : Activity → Bool
  | .missing => true
  | .nothing _ => true
  | .sequence _ [] => true
  | _ => false

theorem walk_of_isBlank {a : Activity} (h : isBlank a = true) (w : Setting) (s : Bool) :
    walk w a s = pure (Facts.empty, s) := by
  match a, h with
  | .missing, _ => rw [walk]
  | .nothing _, _ => rw [walk]
  | .sequence _ [], _ => rw [walk]

section FirstDefinitions

variable {ds ds' : List Definition} {e : Definition} {n : String}

theorem mem_of_mem_firstDefinitions {d : Definition} (h : d ∈ firstDefinitions ds) : d ∈ ds := by
  induction ds with
  | nil => exact h
  | cons x rest ih =>
    rw [firstDefinitions] at h
    rcases List.mem_cons.1 h with rfl | h
    · exact List.mem_cons_self
    · exact List.mem_cons_of_mem _ (ih (List.mem_filter.1 h).1)

theorem filter_name_of_notMem (h : ∀ d ∈ ds, d.name ≠ n) :
    (ds.filter fun d => d.name ≠ n) = ds :=
  List.filter_eq_self.2 fun d hd => decide_eq_true (h d hd)

/-- A definition of a new name only adds to what the walk sees. -/
theorem firstDefinitions_insert (h : ∀ d ∈ ds ++ ds', d.name ≠ e.name) :
    ∃ fs fs', firstDefinitions (ds ++ e :: ds') = fs ++ e :: fs' ∧
      firstDefinitions (ds ++ ds') = fs ++ fs' := by
  induction ds with
  | nil =>
    refine ⟨[], firstDefinitions ds', ?_, rfl⟩
    rw [List.nil_append, firstDefinitions, filter_name_of_notMem]
    · rfl
    · exact fun d hd => h d (mem_of_mem_firstDefinitions hd)
  | cons d rest ih =>
    obtain ⟨hd, hrest⟩ := List.forall_mem_cons.1 (List.cons_append ▸ h)
    obtain ⟨fs, fs', heq, heq'⟩ := ih hrest
    refine ⟨d :: fs.filter fun x => x.name ≠ d.name, fs'.filter fun x => x.name ≠ d.name, ?_, ?_⟩
    · rw [List.cons_append, firstDefinitions, heq, List.filter_append, List.filter_cons_of_pos]
      · rfl
      · exact decide_eq_true (Ne.symm hd)
    · rw [List.cons_append, firstDefinitions, heq', List.filter_append]
      rfl

end FirstDefinitions

/-! ## The walk of the definitions -/

theorem defineAll_append (s : Scope) (ds ds' : List Definition) :
    s.defineAll (ds ++ ds') = s.defineAll ds >>= fun _ => s.defineAll ds' := by
  induction ds with
  | nil => rw [List.nil_append, Scope.defineAll, pure_bind]
  | cons d rest ih =>
    rw [List.cons_append, Scope.defineAll, Scope.defineAll, ih, bind_assoc]

/-- Looking up a definition that does nothing finds nothing new about others. -/
theorem define_of_isBlank {s : Scope} {n : String} {d : Definition} {depth : Nat} {p : Progress}
    (hd : s.definition? n = some d) (hb : isBlank d.body = true) (ha : n ∉ p.active)
    (hdepth : 0 < depth) :
    ((s.define depth n).run p).2.active = p.active ∧
      ((s.define depth n).run p).2.diagnostics = p.diagnostics ∧
      ∀ m, m ≠ n → ((s.define depth n).run p).2.table.lookup m = p.table.lookup m := by
  cases hl : p.table.lookup n with
  | some f =>
    rw [Scope.define_known hl]
    exact ⟨rfl, rfl, fun _ _ => rfl⟩
  | none =>
    obtain ⟨k, rfl⟩ : ∃ k, depth = k + 1 := ⟨depth - 1, by omega⟩
    have hopen : s.opened k d n p =
        ((Facts.empty, n == s.entry), { p with active := n :: p.active }) := by
      rw [Scope.opened, walk_of_isBlank hb]; rfl
    rw [Scope.define_open hl hd ha, hopen]
    refine ⟨List.erase_cons_head .., rfl, fun m hm => ?_⟩
    show List.lookup m (p.table ++ [(n, Facts.empty)]) = _
    have : (m == n) = false := by simpa using hm
    rw [List.lookup_append, List.lookup_cons, this]
    simp

/-- Walking all definitions in two scopes, of which the second has one more that does nothing. -/
theorem defineAll_insert {L : Link} {s s' : Scope} {ds ds' : List Definition} {e : Definition}
    {p p' : Progress} (B : Bodies L s s') (hknown : ∀ d ∈ ds ++ ds', L.known d.name)
    (hnew : ∀ n, L.known n → n ≠ e.name) (he : s'.definition? e.name = some e)
    (hb : isBlank e.body = true) (hp : Linked L [] p p')
    (hst : L.stage ((s.defineAll (ds ++ ds')).run p).2) :
    Linked L [] ((s.defineAll (ds ++ ds')).run p).2 ((s'.defineAll (ds ++ e :: ds')).run p').2 ∧
      L.Report p ((s.defineAll (ds ++ ds')).run p).2 p'
        ((s'.defineAll (ds ++ e :: ds')).run p').2 := by
  have hdepth : 0 < s'.definitions.length := List.length_pos_of_mem (List.mem_of_find?_eq_some he)
  have hall (xs : List Definition) (hxs : ∀ d ∈ xs, L.known d.name) :
      List.Forall₂ (fun d d' : Definition => d.name = d'.name ∧ L.known d.name) xs xs :=
    List.forall₂_same.2 fun d hd => ⟨rfl, hxs d hd⟩
  obtain ⟨hknown₁, hknown₂⟩ := List.forall_mem_append.1 hknown
  rw [defineAll_append, run_bind] at hst
  rw [defineAll_append, defineAll_append, Scope.defineAll, run_bind, run_bind, run_bind]
  -- The definitions before the new one.
  obtain ⟨-, hq, hr⟩ := defineAll_related B (hall ds hknown₁) p p' hp
    (L.earlier (Grows.precedes _) hst)
  generalize ((s.defineAll ds).run p).2 = q at *
  generalize ((s'.defineAll ds).run p').2 = q' at *
  -- The new definition.
  obtain ⟨hactive, hdiag, hlookup⟩ := define_of_isBlank he hb
    (by rw [hq.right]; exact List.not_mem_nil) hdepth
  generalize ((s'.define s'.definitions.length e.name).run q').2 = r' at *
  have hr' : Linked L [] q r' :=
    ⟨hq.left, hactive.trans hq.right, fun n hn => by
      rw [hlookup n (hnew n hn)]; exact hq.table n hn⟩
  have hstep : L.Report q q q' r' :=
    ⟨[], [], (List.append_nil _).symm, by rw [hdiag, List.append_nil], L.nil⟩
  -- The definitions after it.
  obtain ⟨-, hend, hlast⟩ := defineAll_related B (hall ds' hknown₂) q r' hr' hst
  exact ⟨hend, (hr.trans hstep).trans hlast⟩

namespace Checker

variable {c : Checker}

/-- The facts of a definition that does nothing are empty. -/
theorem walked_of_isBlank {n : String} {e : Definition} {f : Facts}
    (he : c.scope.definition? n = some e) (hb : isBlank e.body = true)
    (hf : c.walked.table.lookup n = some f) : f = Facts.empty := by
  have hbody : ∀ {m d}, c.scope.definition? m = some d → ∀ depth p, m = n →
      ((walk (c.scope.setting depth) d.body (m == c.scope.entry)).run p).1.1 = Facts.empty := by
    rintro m d hd depth p rfl
    cases he.symm.trans hd
    rw [walk_of_isBlank hb]
    rfl
  exact walked_alone (bodies_alone (Q := fun m f => m = n → f = Facts.empty)
    (fun _ _ => rfl) hbody) hf rfl

/-- The program has no initial definition: none is defined and none is called, and the entry point
does not serve as one. -/
structure LacksInit (c : Checker) : Prop where
  entry : c.initName ≠ c.entryName
  defined : ∀ d ∈ c.declared, d.name ≠ c.initName
  called : ∀ d ∈ c.declared, c.initName ∉ d.body.calls

section Blank

variable {l : Location} {before after : List Item} {e : Definition}

theorem scope_insert (h : (c.on ⟨l, before ++ after⟩).LacksInit) (he : e.name = c.initName) :
    ∃ ds ds', (c.on ⟨l, before ++ .definition e :: after⟩).scope.definitions = ds ++ e :: ds' ∧
      (c.on ⟨l, before ++ after⟩).scope.definitions = ds ++ ds' := by
  have hdecl : (c.on ⟨l, before ++ after⟩).declared =
      Program.definitions ⟨l, before⟩ ++ Program.definitions ⟨l, after⟩ := List.filterMap_append
  have hdecl' : (c.on ⟨l, before ++ .definition e :: after⟩).declared =
      Program.definitions ⟨l, before⟩ ++ e :: Program.definitions ⟨l, after⟩ :=
    List.filterMap_append
  have hnew := h.defined
  rw [hdecl] at hnew
  show ∃ ds ds', firstDefinitions (c.on ⟨l, before ++ .definition e :: after⟩).declared = _ ∧
    firstDefinitions (c.on ⟨l, before ++ after⟩).declared = _
  rw [hdecl, hdecl']
  exact firstDefinitions_insert fun d hd => he ▸ hnew d hd

theorem definition?_init {ds ds' : List Definition} {s : Scope}
    (h : s.definitions = ds ++ e :: ds') (hds : ∀ d ∈ ds, d.name ≠ e.name) :
    s.definition? e.name = some e := by
  rw [Scope.definition?, h, List.find?_append, List.find?_eq_none.2, Option.none_or,
    List.find?_cons, beq_self_eq_true]
  exact fun d hd heq => hds d hd (beq_iff_eq.1 heq)

theorem definition?_other {ds ds' : List Definition} {s s' : Scope} {n : String}
    (h : s'.definitions = ds ++ e :: ds') (h' : s.definitions = ds ++ ds') (hn : n ≠ e.name) :
    s'.definition? n = s.definition? n := by
  rw [Scope.definition?, Scope.definition?, h, h', List.find?_append, List.find?_append,
    List.find?_cons_of_neg]
  exact fun heq => hn (beq_iff_eq.1 heq).symm

theorem blankInit_bodies (h : (c.on ⟨l, before ++ after⟩).LacksInit) (he : e.name = c.initName)
    (table : List (String × Facts)) :
    Bodies (.exact table (· ≠ c.initName)) (c.on ⟨l, before ++ after⟩).scope
      (c.on ⟨l, before ++ .definition e :: after⟩).scope := by
  obtain ⟨ds, ds', hds, hds'⟩ := scope_insert h he
  have hsame {n : String} (hn : n ≠ c.initName) :
      (c.on ⟨l, before ++ .definition e :: after⟩).scope.definition? n =
        (c.on ⟨l, before ++ after⟩).scope.definition? n := definition?_other hds hds' (he ▸ hn)
  refine ⟨fun hn => by rw [hsame hn], ?_, fun _ => ⟨rfl, .empty⟩, ?_⟩
  · rintro n m - ⟨d, hd, hm⟩ rfl
    refine h.called d (mem_of_mem_firstDefinitions ?_) hm
    exact List.mem_of_find?_eq_some hd
  · intro n d d' active depth depth' hn hd hd' _ hcalls
    rw [hsame hn] at hd'
    cases hd.symm.trans hd'
    have K : Keeps (.exact table (· ≠ c.initName)) (fun f f' => f = f' ∧ f.WellFormed) Eq True
        ((c.on ⟨l, before ++ after⟩).scope.setting depth)
        ((c.on ⟨l, before ++ .definition e :: after⟩).scope.setting depth') :=
      keeps_exact _ _ rfl rfl rfl
    exact (alike_refl K ⟨hcalls, .inr trivial⟩ (n == c.entryName)).walks

/-- The walk finds the same as before, and nothing for the initial definition. -/
theorem blankInit_walked (h : (c.on ⟨l, before ++ after⟩).LacksInit) (he : e.name = c.initName)
    (hb : isBlank e.body = true) :
    (c.on ⟨l, before ++ .definition e :: after⟩).walked.diagnostics =
        (c.on ⟨l, before ++ after⟩).walked.diagnostics ∧
      (∀ n, n ≠ c.initName →
        (c.on ⟨l, before ++ .definition e :: after⟩).walked.table.lookup n =
          (c.on ⟨l, before ++ after⟩).walked.table.lookup n) ∧
      (c.on ⟨l, before ++ .definition e :: after⟩).walked.table.lookup c.initName =
        some Facts.empty := by
  obtain ⟨ds, ds', hds, hds'⟩ := scope_insert h he
  have hnew : ∀ d ∈ ds ++ ds', d.name ≠ c.initName := by
    intro d hd
    rw [← hds'] at hd
    exact h.defined d (mem_of_mem_firstDefinitions hd)
  have hinit := definition?_init hds fun d hd => he ▸ hnew d (List.mem_append_left _ hd)
  have hstart : Linked (.exact (c.on ⟨l, before ++ after⟩).walked.table (· ≠ c.initName)) []
      (c.on ⟨l, before ++ after⟩).start (c.on ⟨l, before ++ .definition e :: after⟩).start :=
    ⟨start_active _, start_active _, fun n _ => by rw [start_table, start_table]; exact .none⟩
  obtain ⟨hend, xs, xs', hd, hd', hxs⟩ := defineAll_insert
    (blankInit_bodies h he _) hnew (fun n hn => he ▸ hn) hinit hb hstart
    (by rw [← hds']; exact List.prefix_rfl)
  rw [← hds, ← hds'] at *
  rw [start_diagnostics, List.nil_append] at hd hd'
  refine ⟨hd'.trans (hxs.symm.trans hd.symm), fun n hn => eq_of_exact (hend.table n hn), ?_⟩
  rw [he] at hinit
  obtain ⟨f, hf⟩ := walked_lookup _ hinit
  rw [hf, walked_of_isBlank hinit hb hf]

end Blank

/-! ## Fresh values -/

/-- Every set that was given a fresh value has one that can still be traced. -/
def FreshTraced (f : Facts) (sets : List Correlation.CorrelationSet) : Prop :=
  ∀ set ∈ sets, (∃ p ∈ set.paths, f.providedCorr.freshAt p.key = true) →
    isFresh f set.paths = true

/-- After nothing, whatever is provided counts as traced. -/
theorem isFresh_empty_sequence {f : Facts} (hf : f.WellFormed) {ps : List Path} :
    isFresh (Facts.empty.sequence f).1 ps = true ↔
      ∃ p ∈ ps, f.providedCorr.freshAt p.key = true := by
  rw [isFresh_iff (Facts.WellFormed.empty.sequence hf), Facts.empty_sequence hf]
  refine exists_congr fun p => and_congr_right fun _ => ⟨fun h => h.2, fun h => ⟨⟨?_, ?_⟩, h⟩⟩
  · exact PathSet.mem_keys_of_freshAt h
  · rw [PathSet.mem_keys_removeAll, ← PathSet.keys_eq_map_paths]
    exact fun hk => hk.2 (PathSet.mem_keys_of_freshAt h)

/-- Where more sets are fresh, the same is reported only if no more are. -/
theorem staleSets_eq_iff {f g : Facts} {sets : List Correlation.CorrelationSet}
    (h : ∀ ps, isFresh f ps = true → isFresh g ps = true) :
    staleSets g sets = staleSets f sets ↔
      ∀ set ∈ sets, isFresh g set.paths = true → isFresh f set.paths = true := by
  constructor
  · intro heq set hset hg
    have hlen := congrArg List.length heq
    rw [staleSets, staleSets, List.length_map, List.length_map] at hlen
    have hsub : (sets.filter fun s => !isFresh g s.paths).Sublist
        (sets.filter fun s => !isFresh f s.paths) := by
      refine List.monotone_filter_right sets fun s hs => ?_
      rw [Bool.not_eq_true', ← Bool.not_eq_true] at hs ⊢
      exact fun hf => hs (h s.paths hf)
    by_cases hf : isFresh f set.paths = true
    · exact hf
    · have hmem : set ∈ sets.filter fun s => !isFresh f s.paths :=
        List.mem_filter.2 ⟨hset, by rw [Bool.not_eq_true', ← Bool.not_eq_true]; exact hf⟩
      rw [← hsub.eq_of_length hlen, List.mem_filter, hg] at hmem
      cases hmem.2
  · intro h'
    rw [staleSets, staleSets]
    congr 1
    refine List.filter_congr fun set hset => ?_
    rw [Bool.eq_iff_iff.2 ⟨h set.paths, h' set hset⟩]

section Verdict

variable {l : Location} {before after : List Item} {e : Definition}

/-- An initial definition that does nothing leaves the diagnostics as they are exactly if the entry
point keeps the track of a fresh value for each set that it gives one. -/
theorem blankInit_diagnostics (h : (c.on ⟨l, before ++ after⟩).LacksInit)
    (he : e.name = c.initName) (hb : isBlank e.body = true) :
    (c.on ⟨l, before ++ .definition e :: after⟩).check.diagnostics =
        (c.on ⟨l, before ++ after⟩).check.diagnostics ↔
      ∀ main, (c.on ⟨l, before ++ after⟩).progress.table.lookup c.entryName = some main →
        FreshTraced main c.sets := by
  obtain ⟨hd, hlookup, hinit⟩ := blankInit_walked h he hb
  have hnone : (c.on ⟨l, before ++ after⟩).walked.table.lookup c.initName = none := by
    cases hf : (c.on ⟨l, before ++ after⟩).walked.table.lookup c.initName with
    | none => rfl
    | some f =>
      obtain ⟨d, hd⟩ := Option.isSome_iff_exists.1 (walked_defined hf)
      have hname : d.name = c.initName := by
        simpa using List.find?_some (p := fun d : Definition => d.name == c.initName) hd
      exact absurd hname (h.defined d (mem_of_mem_firstDefinitions (List.mem_of_find?_eq_some hd)))
  rw [check_diagnostics, check_diagnostics, hd, List.append_cancel_left_eq, progress_table]
  change verdict _ (List.lookup c.initName _) (List.lookup c.entryName _) =
    verdict _ (List.lookup c.initName _) (List.lookup c.entryName _) ↔ _
  rw [hinit, hnone, hlookup c.entryName h.entry.symm]
  cases hmain : (c.on ⟨l, before ++ after⟩).walked.table.lookup c.entryName with
  | none =>
    refine ⟨fun _ _ h => ?_, fun _ => rfl⟩
    cases h
  | some main =>
    have hwf := walked_wellFormed hmain
    have hmono (ps : List Path) (hps : isFresh main ps = true) :
        isFresh (Facts.empty.sequence main).1 ps = true := by
      obtain ⟨p, hp, -, hf⟩ := (isFresh_iff hwf).1 hps
      exact (isFresh_empty_sequence hwf).2 ⟨p, hp, hf⟩
    have hverdict : (c.on ⟨l, before ++ .definition e :: after⟩).verdict (some Facts.empty)
        (some main) = c.shortcomings (Facts.empty.sequence main).1 := by
      show [] ++ (pathDiagnostics _ _ ++ c.shortcomings _) = _
      rw [Facts.empty_sequence_clashes]
      rfl
    have hneeds : c.shortcomings (Facts.empty.sequence main).1 = c.shortcomings main ↔
        staleSets (Facts.empty.sequence main).1 c.sets = staleSets main c.sets := by
      rw [shortcomings, shortcomings]
      conv_lhs => rw [Facts.empty_sequence hwf]
      rw [List.append_cancel_left_eq, List.append_cancel_left_eq, ← Facts.empty_sequence hwf]
    rw [hverdict]
    change _ = c.shortcomings main ↔ _
    rw [hneeds, staleSets_eq_iff hmono]
    simp only [isFresh_empty_sequence hwf]
    refine ⟨fun h m hm => ?_, fun h => h main rfl⟩
    cases hm
    exact h

end Verdict

/-! ## Doing nothing -/

instance (f : Facts) (sets : List Correlation.CorrelationSet) : Decidable (FreshTraced f sets) :=
  inferInstanceAs (Decidable (∀ set ∈ sets, (∃ p ∈ set.paths, _) → _))

/-- Doing nothing is neutral as far as the track of what is provided is kept. Of the facts that a
check computes, nothing may come after any, and before those whose paths are all tracked and no
others. An activity that does nothing may be inserted into a sequence anywhere but before an
activity whose facts are not tracked. An initial definition that does nothing may be added exactly
if the entry point keeps the track of a fresh value for each set that it gives one. -/
theorem nothing_neutral (c : Checker) (l : Location) :
    (∀ f, c.Produces f → f.sequence Facts.empty = (f, []) ∧
      (Facts.empty.sequence f = (f, []) ↔ f.Tracked)) ∧
    (∀ items items',
      List.Forall₂ (Item.Edits (c.on ⟨l, items⟩).InsertsNothing c.entryName) items items' →
      (c.on ⟨l, items'⟩).check = (c.on ⟨l, items⟩).check) ∧
    ∀ before after e, (c.on ⟨l, before ++ after⟩).LacksInit → e.name = c.initName →
      isBlank e.body = true →
      ((c.on ⟨l, before ++ .definition e :: after⟩).check.diagnostics =
          (c.on ⟨l, before ++ after⟩).check.diagnostics ↔
        ∀ main, (c.on ⟨l, before ++ after⟩).progress.table.lookup c.entryName = some main →
          FreshTraced main c.sets) := by
  refine ⟨fun f hf => ⟨f.sequence_empty, Facts.empty_sequence_iff hf.wellFormed⟩, ?_, ?_⟩
  · exact fun _ _ h => insertsNothing_check c l h
  · exact fun _ _ _ h he hb => blankInit_diagnostics h he hb

/-- A table with one set, of one variable. -/
def oneSet : Correlation.Table := { sets := [corrSet "S" ["sid"]] }

/-- A session that gets a fresh value and loses its track. -/
def forgetful : List Activity :=
  [receive "start", token "sid", .undef {} (corrPath "sid")]

/-- Before a part that loses the track of a fresh value, an activity that does nothing hides the
loss; so does an initial definition that does nothing. -/
theorem nothing_first_hides_loss :
    (ofMain oneSet (.sequence {} [.sequence {} forgetful])).check.kinds =
        ["NoFreshCorrelationValue"] ∧
      (ofMain oneSet (.sequence {} [.nothing {}, .sequence {} forgetful])).check.valid = true ∧
      (ofMain oneSet (.sequence {} forgetful)).check.kinds = ["NoFreshCorrelationValue"] ∧
      ((ofMain oneSet .missing).on ⟨{}, [.definition ⟨{}, "main", .sequence {} forgetful⟩,
        .definition ⟨{}, "init", .sequence {} []⟩]⟩).check.valid = true := by
  decide +kernel

/-- A session that gets a fresh value, with further activities around it. -/
def mindful (before after : List Activity) : List Item :=
  [.definition ⟨{}, "main", .sequence {} (before ++ [receive "start", token "sid"] ++ after)⟩]

theorem tracked_inputFacts (w : Setting) (l : Location) (op : String) (s : Bool) :
    (inputFacts w l op s).Tracked := by
  intro k _
  cases s with
  | false => rw [inputFacts_false]; exact List.not_mem_nil
  | true => rw [inputFacts_true]; exact List.not_mem_nil

/-- Around a session that keeps the track of its fresh value, doing nothing is neutral. -/
theorem nothing_neutral_mindful :
    ((ofMain oneSet .missing).on ⟨{}, mindful [.nothing {}] [.nothing {}]⟩).check =
        ((ofMain oneSet .missing).on ⟨{}, mindful [] [.nothing {}]⟩).check ∧
      ((ofMain oneSet .missing).on ⟨{}, mindful [] [] ++
          [.definition ⟨{}, "init", .missing⟩]⟩).check.diagnostics =
        ((ofMain oneSet .missing).on ⟨{}, mindful [] []⟩).check.diagnostics := by
  obtain ⟨-, hinsert, hinit⟩ := nothing_neutral (ofMain oneSet .missing) {}
  refine ⟨hinsert _ _ (.cons (.body {} "main" (.here (.start {} {} _ _ ?_))) .nil),
    (hinit (mindful [] []) [] ⟨{}, "init", .missing⟩ ⟨?_, ?_, ?_⟩ rfl rfl).2 ?_⟩
  · intro depth p _
    rw [receive, walk_oneWay_facts]
    exact tracked_inputFacts _ _ _ _
  · decide
  · decide +kernel
  · decide +kernel
  · have hall : (((ofMain oneSet .missing).on ⟨{}, mindful [] []⟩).progress.table.lookup
        "main").all fun main => decide (FreshTraced main oneSet.sets) := by decide +kernel
    intro main hmain
    rw [List.append_nil] at hmain
    change List.lookup "main" _ = _ at hmain
    rw [hmain] at hall
    exact of_decide_eq_true hall

end Checker

end Sessions.Check
