import Mathlib.Data.List.Perm.Subperm
import Sessions.Proofs.Check.Grounds

/-!
# Sessions.Proofs.Check.Define

Looking up the facts of definitions. `define` answers from the table, or else opens the definition
and walks its body; a definition that is open already contributes nothing.

The definitions that are open form a stack of calls (`Stack`): each of them reaches the one that is
asked for. So a definition is cut off only if it reaches itself, and the depth never runs out.

`define_related`: two scopes give related facts for a name if walking the two bodies of each
definition is related whenever their calls are (`Bodies`).
-/

namespace Sessions.Check

namespace Scope

variable {s : Scope} {n m : String} {depth : Nat} {p : Progress}

/-- What the walk of a body sees when at most `depth` more bodies may be opened inside it. -/
def setting (s : Scope) (depth : Nat) : Setting :=
  ⟨s.mode, s.correlation, s.fresh, s.define depth⟩

/-- The body of definition `n` calls `m`. -/
def Calls (s : Scope) (n m : String) : Prop :=
  ∃ d, s.definition? n = some d ∧ m ∈ d.body.calls

/-- No definition calls itself, directly or through others. -/
def Acyclic (s : Scope) : Prop :=
  ∀ n, ¬ Relation.TransGen s.Calls n n

/-! ## Equations -/

/-- The walk of the body of a definition that is opened at `p`. -/
def opened (s : Scope) (depth : Nat) (d : Definition) (n : String) (p : Progress) :
    (Facts × Bool) × Progress :=
  (walk (s.setting depth) d.body (n == s.entry)).run { p with active := n :: p.active }

/-- The progress after a definition was walked. -/
def close (n : String) (r : (Facts × Bool) × Progress) : Progress :=
  { r.2 with active := r.2.active.erase n, table := r.2.table ++ [(n, r.1.1)] }

/-- What a look-up gives, and what it leaves behind. -/
theorem define_run (s : Scope) (depth : Nat) (n : String) (p : Progress) :
    (s.define depth n).run p =
      match p.table.lookup n, s.definition? n, depth with
      | some f, _, _ => (some f, p)
      | none, none, _ => (none, p)
      | none, some d, k + 1 =>
        if n ∈ p.active then (some Facts.empty, p)
        else (some (s.opened k d n p).1.1, close n (s.opened k d n p))
      | none, some _, 0 => (some Facts.empty, p) := by
  have hget : (get : Walk Progress).run p = (p, p) := rfl
  rw [define]
  simp only [run_bind, hget]
  cases p.table.lookup n with
  | some f => rfl
  | none =>
    cases s.definition? n with
    | none => rfl
    | some d =>
      simp only []
      split
      · next h =>
        have ha : n ∈ p.active := List.contains_iff_mem.1 h
        cases depth with
        | zero => rfl
        | succ k => simp only [if_pos ha]; rfl
      · next h =>
        have ha : n ∉ p.active := fun ha => h (List.contains_iff_mem.2 ha)
        cases depth with
        | zero => rfl
        | succ k => simp only [if_neg ha]; rfl

theorem define_known {f : Facts} (h : p.table.lookup n = some f) :
    (s.define depth n).run p = (some f, p) := by
  rw [define_run, h]

theorem define_unknown (h : p.table.lookup n = none) (hd : s.definition? n = none) :
    (s.define depth n).run p = (none, p) := by
  rw [define_run, h, hd]

theorem define_cut {d : Definition} (h : p.table.lookup n = none) (hd : s.definition? n = some d)
    (ha : n ∈ p.active) : (s.define depth n).run p = (some Facts.empty, p) := by
  rw [define_run, h, hd]
  cases depth with
  | zero => rfl
  | succ k => exact if_pos ha

theorem define_exhausted {d : Definition} (h : p.table.lookup n = none)
    (hd : s.definition? n = some d) : (s.define 0 n).run p = (some Facts.empty, p) := by
  rw [define_run, h, hd]

theorem define_open {d : Definition} (h : p.table.lookup n = none)
    (hd : s.definition? n = some d) (ha : n ∉ p.active) :
    (s.define (depth + 1) n).run p =
      (some (s.opened depth d n p).1.1, close n (s.opened depth d n p)) := by
  rw [define_run, h, hd]
  exact if_neg ha

/-- Looking up a definition changes nothing, unless it opens the definition. -/
theorem define_cases (s : Scope) (depth : Nat) (n : String) (p : Progress) :
    ((s.define depth n).run p).2 = p ∨ ∃ d k, depth = k + 1 ∧
      ((s.define depth n).run p).2 = close n (s.opened k d n p) := by
  cases ht : p.table.lookup n with
  | some f => exact .inl (by rw [define_known ht])
  | none =>
    cases hd : s.definition? n with
    | none => exact .inl (by rw [define_unknown ht hd])
    | some d =>
      by_cases ha : n ∈ p.active
      · exact .inl (by rw [define_cut ht hd ha])
      · cases depth with
        | zero => exact .inl (by rw [define_exhausted ht hd])
        | succ k => exact .inr ⟨d, k, rfl, by rw [define_open ht hd ha]⟩

theorem precedes_close [∀ m, Grows (s.define depth m)] (d : Definition) (n : String)
    (p : Progress) : p.Precedes (close n (s.opened depth d n p)) := by
  have hlook : ∀ m, Grows ((s.setting depth).lookup m) := fun m =>
    inferInstanceAs (Grows (s.define depth m))
  have hp := (grows_walk (w := s.setting depth) d.body (n == s.entry)).precedes
    { p with active := n :: p.active }
  exact ⟨hp.table.trans (List.prefix_append _ _), hp.diagnostics⟩

theorem active_close [∀ m, Grows (s.define depth m)] (d : Definition) (n : String)
    (p : Progress) : (close n (s.opened depth d n p)).active = p.active := by
  have hlook : ∀ m, Grows ((s.setting depth).lookup m) := fun m =>
    inferInstanceAs (Grows (s.define depth m))
  have hact := (grows_walk (w := s.setting depth) d.body (n == s.entry)).active
    { p with active := n :: p.active }
  show List.erase (s.opened depth d n p).2.active n = _
  rw [opened, hact, List.erase_cons_head]

instance grows_define (s : Scope) (depth : Nat) (n : String) : Grows (s.define depth n) := by
  induction depth generalizing n with
  | zero =>
    refine ⟨fun p => ?_, fun p => ?_⟩ <;>
      obtain h | ⟨_, _, hk, _⟩ := s.define_cases 0 n p
    · rw [h]; exact .refl p
    · cases hk
    · rw [h]
    · cases hk
  | succ depth ih =>
    refine ⟨fun p => ?_, fun p => ?_⟩ <;>
      obtain h | ⟨d, k, hk, h⟩ := s.define_cases (depth + 1) n p <;> rw [h]
    · exact .refl p
    · cases hk; exact precedes_close d n p
    · cases hk; exact active_close d n p

instance grows_defineAll (s : Scope) (ds : List Definition) : Grows (s.defineAll ds) := by
  induction ds with
  | nil => exact grows_pure ()
  | cons d rest ih => rw [defineAll]; infer_instance

instance grows_setting (s : Scope) (depth : Nat) (n : String) :
    Grows ((s.setting depth).lookup n) :=
  grows_define s depth n

/-! ## What is in the table -/

theorem lookup_of_isPrefix {α β : Type} [BEq α] {xs ys : List (α × β)} (h : xs <+: ys) {x : α}
    {y : β} (hx : xs.lookup x = some y) : ys.lookup x = some y := by
  obtain ⟨zs, rfl⟩ := h
  rw [List.lookup_append, hx, Option.some_or]

/-- A definition has facts once it was looked up from outside. -/
theorem define_lookup {d : Definition} (hd : s.definition? n = some d) (ha : p.active = []) :
    ∃ f, ((s.define (depth + 1) n).run p).2.table.lookup n = some f := by
  cases ht : p.table.lookup n with
  | some f => exact ⟨f, by rw [define_known ht, ht]⟩
  | none =>
    rw [define_open ht hd (by rw [ha]; exact List.not_mem_nil)]
    show ∃ f, List.lookup n ((s.opened depth d n p).2.table ++ [(n, _)]) = some f
    rw [List.lookup_append]
    cases List.lookup n (s.opened depth d n p).2.table with
    | some f => exact ⟨f, rfl⟩
    | none => exact ⟨_, List.lookup_cons_self⟩

/-- Each definition that is walked has facts in the end. -/
theorem defineAll_lookup {ds : List Definition} {d d' : Definition}
    (hd : s.definition? d.name = some d') (h : d ∈ ds) (ha : p.active = []) :
    ∃ f, ((s.defineAll ds).run p).2.table.lookup d.name = some f := by
  induction ds generalizing p with
  | nil => exact (List.not_mem_nil h).elim
  | cons e rest ih =>
    rw [defineAll, run_bind]
    rcases List.mem_cons.1 h with rfl | h
    · have hpos : 0 < s.definitions.length :=
        List.length_pos_of_mem (List.mem_of_find?_eq_some hd)
      obtain ⟨k, hk⟩ : ∃ k, s.definitions.length = k + 1 :=
        ⟨s.definitions.length - 1, by omega⟩
      have hfound : ∃ f, ((s.define (k + 1) d.name).run p).2.table.lookup d.name = some f :=
        define_lookup hd ha
      rw [← hk] at hfound
      obtain ⟨f, hf⟩ := hfound
      exact ⟨f, lookup_of_isPrefix (Grows.precedes _).table hf⟩
    · exact ih h (by rw [Grows.active, ha])

/-! ## The stack of open definitions -/

/-- The definitions in `active` are open, each of them inside those after it, and all of them reach
`n`. At most `depth` more may be opened, and that is enough for all that are not open. -/
structure Stack (s : Scope) (active : List String) (depth : Nat) (n : String) : Prop where
  nodup : active.Nodup
  defined : ∀ m ∈ active, (s.definition? m).isSome
  room : s.definitions.length ≤ active.length + depth
  reaches : ∀ m ∈ active, Relation.ReflTransGen s.Calls m n

theorem definition?_mem {d : Definition} (h : s.definition? n = some d) :
    n ∈ s.definitions.map (·.name) := by
  have hname : d.name == n := List.find?_some (p := fun d : Definition => d.name == n) h
  exact List.mem_map.2 ⟨d, List.mem_of_find?_eq_some h, by simpa using hname⟩

/-- A definition that is not open can be opened. -/
theorem depth_pos {active : List String} (hnodup : active.Nodup)
    (hdefined : ∀ m ∈ active, (s.definition? m).isSome)
    (hroom : s.definitions.length ≤ active.length + depth)
    (hn : (s.definition? n).isSome) (ha : n ∉ active) : 0 < depth := by
  have hnames : ∀ m ∈ n :: active, m ∈ s.definitions.map (·.name) := by
    intro m hm
    have hm' : (s.definition? m).isSome := by
      rcases List.mem_cons.1 hm with rfl | hm
      · exact hn
      · exact hdefined m hm
    obtain ⟨d, hd⟩ := Option.isSome_iff_exists.1 hm'
    exact definition?_mem hd
  have hlen := (List.subperm_of_subset (List.nodup_cons.2 ⟨ha, hnodup⟩) hnames).length_le
  rw [List.length_cons, List.length_map] at hlen
  omega

theorem Stack.nil (s : Scope) (n : String) : s.Stack [] s.definitions.length n :=
  ⟨List.nodup_nil, List.forall_mem_nil _, by simp, List.forall_mem_nil _⟩

theorem Stack.call {active : List String} (hs : s.Stack active depth n) (h : s.Calls n m) :
    s.Stack active depth m :=
  ⟨hs.nodup, hs.defined, hs.room, fun x hx => (hs.reaches x hx).tail h⟩

theorem Stack.push {active : List String} (hs : s.Stack active depth n) (ha : n ∉ active)
    (hn : (s.definition? n).isSome) : ∃ k, depth = k + 1 ∧ s.Stack (n :: active) k n := by
  have hpos := depth_pos hs.nodup hs.defined hs.room hn ha
  obtain ⟨k, rfl⟩ : ∃ k, depth = k + 1 := ⟨depth - 1, by omega⟩
  refine ⟨k, rfl, List.nodup_cons.2 ⟨ha, hs.nodup⟩, ?_, ?_, ?_⟩
  · exact List.forall_mem_cons.2 ⟨hn, hs.defined⟩
  · have := hs.room
    rw [List.length_cons]
    omega
  · exact List.forall_mem_cons.2 ⟨.refl, hs.reaches⟩

end Scope

/-! ## Two scopes -/

/-- Walking the two bodies of a definition is related whenever its calls are. -/
structure Bodies (L : Link) (s s' : Scope) : Prop where
  defined : ∀ {n}, L.known n → ((s.definition? n).isSome ↔ (s'.definition? n).isSome)
  calls : ∀ {n m}, L.known n → s.Calls n m → L.known m
  cut : ∀ {n}, Relation.TransGen s.Calls n n → L.facts n Facts.empty Facts.empty
  body : ∀ {n d d' active depth depth'}, L.known n → s.definition? n = some d →
    s'.definition? n = some d' → s.Stack active depth n →
    (∀ m ∈ d.body.calls, Related L active (Option.Rel (L.facts m)) (s.define depth m)
      (s'.define depth' m)) →
    Related L active (fun r r' => L.facts n r.1 r'.1)
      (walk (s.setting depth) d.body (n == s.entry))
      (walk (s'.setting depth') d'.body (n == s'.entry))

section Two

variable {L : Link} {s s' : Scope} {n : String} {d d' : Definition} {active : List String}
  {depth depth' : Nat} {p p' : Progress}

theorem Linked.push (h : Linked L active p p') (n : String) :
    Linked L (n :: active) { p with active := n :: p.active }
      { p' with active := n :: p'.active } :=
  ⟨by rw [h.left], by rw [h.right], h.table⟩

theorem Linked.close {r r' : (Facts × Bool) × Progress} (h : Linked L (n :: active) r.2 r'.2)
    (hf : L.facts n r.1.1 r'.1.1) : Linked L active (Scope.close n r) (Scope.close n r') := by
  refine ⟨?_, ?_, fun m hm => ?_⟩
  · show List.erase r.2.active n = active
    rw [h.left, List.erase_cons_head]
  · show List.erase r'.2.active n = active
    rw [h.right, List.erase_cons_head]
  · show Option.Rel (L.facts m) (List.lookup m (r.2.table ++ [(n, r.1.1)]))
      (List.lookup m (r'.2.table ++ [(n, r'.1.1)]))
    rw [List.lookup_append, List.lookup_append]
    have ht := h.table m hm
    revert ht
    generalize List.lookup m r.2.table = o
    generalize List.lookup m r'.2.table = o'
    intro ht
    cases ht with
    | some hx => exact .some hx
    | none =>
      by_cases hmn : m = n
      · subst hmn
        simpa using Option.Rel.some hf
      · have : (m == n) = false := by simpa using hmn
        simp only [List.lookup_cons, List.lookup_nil, this, Option.or]
        exact .none

/-- Opening a definition in both scopes, once its calls are related. -/
theorem opened_related (B : Bodies L s s') (hn : L.known n) (hd : s.definition? n = some d)
    (hd' : s'.definition? n = some d') (hs : s.Stack (n :: active) depth n)
    (hcalls : ∀ m ∈ d.body.calls, Related L (n :: active) (Option.Rel (L.facts m))
      (s.define depth m) (s'.define depth' m))
    (hp : Linked L active p p') (hst : L.stage (Scope.close n (s.opened depth d n p))) :
    L.facts n (s.opened depth d n p).1.1 (s'.opened depth' d' n p').1.1 ∧
      Linked L active (Scope.close n (s.opened depth d n p))
        (Scope.close n (s'.opened depth' d' n p')) ∧
      L.Report p (Scope.close n (s.opened depth d n p)) p'
        (Scope.close n (s'.opened depth' d' n p')) := by
  have hpre : (s.opened depth d n p).2.Precedes (Scope.close n (s.opened depth d n p)) :=
    ⟨List.prefix_append _ _, List.prefix_rfl⟩
  have hst' : L.stage (s.opened depth d n p).2 := L.earlier hpre hst
  obtain ⟨hf, hq, hr⟩ := B.body hn hd hd' hs hcalls _ _ (hp.push n) hst'
  exact ⟨hf, hq.close hf, hr⟩

/-- One look-up: it is related if, should it open the definition, the calls inside are. -/
theorem define_related_of (B : Bodies L s s') (hn : L.known n)
    (hreach : n ∈ active → Relation.TransGen s.Calls n n)
    (hopen : ∀ d, s.definition? n = some d → n ∉ active → ∃ k k', depth = k + 1 ∧
      depth' = k' + 1 ∧ s.Stack (n :: active) k n ∧ ∀ m ∈ d.body.calls,
        Related L (n :: active) (Option.Rel (L.facts m)) (s.define k m) (s'.define k' m)) :
    Related L active (Option.Rel (L.facts n)) (s.define depth n) (s'.define depth' n) := by
  intro p p' hp hst
  have ht := hp.table n hn
  cases hl : p.table.lookup n with
  | some f =>
    cases hl' : p'.table.lookup n with
    | none => rw [hl, hl'] at ht; cases ht
    | some f' =>
      rw [hl, hl'] at ht
      rw [Scope.define_known hl, Scope.define_known hl']
      exact ⟨ht, hp, .refl p p'⟩
  | none =>
    have hl' : p'.table.lookup n = none := by
      rw [hl] at ht
      cases h : p'.table.lookup n with
      | none => rfl
      | some _ => rw [h] at ht; cases ht
    cases hd : s.definition? n with
    | none =>
      have hd' : s'.definition? n = none := by
        have := (B.defined hn).not.1 (by rw [hd]; simp)
        simpa using this
      rw [Scope.define_unknown hl hd, Scope.define_unknown hl' hd']
      exact ⟨.none, hp, .refl p p'⟩
    | some d =>
      obtain ⟨d', hd'⟩ := Option.isSome_iff_exists.1 ((B.defined hn).1 (by rw [hd]; rfl))
      by_cases ha : n ∈ active
      · rw [Scope.define_cut hl hd (by rw [hp.left]; exact ha),
          Scope.define_cut hl' hd' (by rw [hp.right]; exact ha)]
        exact ⟨.some (B.cut (hreach ha)), hp, .refl p p'⟩
      · obtain ⟨k, k', rfl, rfl, hs, hcalls⟩ := hopen d hd ha
        rw [Scope.define_open hl hd (by rw [hp.left]; exact ha)] at hst ⊢
        rw [Scope.define_open hl' hd' (by rw [hp.right]; exact ha)]
        obtain ⟨hf, hq, hr⟩ := opened_related B hn hd hd' hs hcalls hp hst
        exact ⟨.some hf, hq, hr⟩

/-- Looking up a name in both scopes is related. -/
theorem define_related (B : Bodies L s s') (hn : L.known n) (hs : s.Stack active depth n)
    (hreach : n ∈ active → Relation.TransGen s.Calls n n) (hknown : ∀ m ∈ active, L.known m)
    (hroom : s'.definitions.length ≤ active.length + depth') :
    Related L active (Option.Rel (L.facts n)) (s.define depth n) (s'.define depth' n) := by
  induction depth generalizing n active depth' with
  | zero =>
    refine define_related_of B hn hreach fun d hd ha => ?_
    obtain ⟨k, hk, _⟩ := hs.push ha (by rw [hd]; rfl)
    cases hk
  | succ depth ih =>
    refine define_related_of B hn hreach fun d hd ha => ?_
    obtain ⟨k, hk, hpush⟩ := hs.push ha (by rw [hd]; rfl)
    cases hk
    have hpos : 0 < depth' := Scope.depth_pos hs.nodup
      (fun x hx => (B.defined (hknown x hx)).1 (hs.defined x hx)) hroom
      ((B.defined hn).1 (by rw [hd]; rfl)) ha
    obtain ⟨k', rfl⟩ : ∃ k', depth' = k' + 1 := ⟨depth' - 1, by omega⟩
    refine ⟨depth, k', rfl, rfl, hpush, fun m hm => ?_⟩
    have hcall : s.Calls n m := ⟨d, hd, hm⟩
    refine ih (B.calls hn hcall) (hpush.call hcall) (fun hm' => ?_) ?_ ?_
    · exact .tail' (hpush.reaches m hm') hcall
    · exact List.forall_mem_cons.2 ⟨hn, hknown⟩
    · rw [List.length_cons]; omega

/-- The look-ups that the body of an open definition makes are related. -/
theorem calls_related (B : Bodies L s s') (hn : L.known n) (hd : s.definition? n = some d)
    (hs : s.Stack active depth n) (hknown : ∀ m ∈ active, L.known m)
    (hroom : s'.definitions.length ≤ active.length + depth') :
    ∀ m ∈ d.body.calls,
      Related L active (Option.Rel (L.facts m)) (s.define depth m) (s'.define depth' m) := by
  intro m hm
  have hcall : s.Calls n m := ⟨d, hd, hm⟩
  exact define_related B (B.calls hn hcall) (hs.call hcall)
    (fun hm' => .tail' (hs.reaches m hm') hcall) hknown hroom

theorem defineAll_related (B : Bodies L s s') {ds ds' : List Definition}
    (h : List.Forall₂ (fun d d' => d.name = d'.name ∧ L.known d.name) ds ds') :
    Related L [] (fun _ _ => True) (s.defineAll ds) (s'.defineAll ds') := by
  induction h with
  | nil => exact .pure trivial
  | @cons d d' _ _ hd _ ih =>
    rw [Scope.defineAll, Scope.defineAll, ← hd.1]
    refine (define_related B hd.2 (.nil s d.name) ?_ ?_ ?_).bind fun _ _ _ => ih
    · exact fun hm => (List.not_mem_nil hm).elim
    · exact List.forall_mem_nil _
    · simp

end Two

/-! ## The same definitions -/

theorem nil_congr : ([] : List Diagnostic) = [] := rfl

theorem append_congr {ds ds' es es' : List Diagnostic} (h : ds = ds') (h' : es = es') :
    ds ++ es = ds' ++ es' := by
  rw [h, h']

/-- Two walks that report the same, with the facts of all definitions related by `A`. -/
def Link.uniform (A : Facts → Facts → Prop) : Link where
  stage _ := True
  earlier _ _ := trivial
  reports := Eq
  nil := nil_congr
  append h h' := append_congr h h'
  known _ := True
  facts _ := A

/-- Two scopes with the same definitions correspond on each activity, its parts left aside. -/
structure Scope.Corresponds (L : Link) (A : Facts → Facts → Prop)
    (S : List String → List String → Prop) (s s' : Scope) : Prop extends Merges L A S where
  definitions : s.definitions = s'.definitions
  entry : s.entry = s'.entry
  known : ∀ n, L.known n
  facts : ∀ n, L.facts n = A
  own : ∀ depth depth' a t, A (ownFacts (s.setting depth) a t) (ownFacts (s'.setting depth') a t)
  reports : ∀ depth depth' a t, L.reports (ownDiagnostics (s.setting depth) a t)
    (ownDiagnostics (s'.setting depth') a t)
  loops : ∀ {f f'} (l : Location), A f f' →
    L.reports (loopDiagnostics l f) (loopDiagnostics l f')
  unknown : ∀ l n, L.reports [Diagnostic.ofProblem l (.noDefinition n)]
    [Diagnostic.ofProblem l (.noDefinition n)]

namespace Scope.Corresponds

variable {L : Link} {A : Facts → Facts → Prop} {S : List String → List String → Prop}
  {s s' : Scope} {active : List String} {depth depth' : Nat} {a : Activity}

theorem alike (K : Scope.Corresponds L A S s s')
    (h : ∀ n ∈ a.calls, Related L active (Option.Rel A) (s.define depth n) (s'.define depth' n))
    (t : Bool) : Alike L A (s.setting depth) (s'.setting depth') active t a a := by
  let N (a : Activity) : Prop := ∀ n ∈ a.calls,
    Related L active (Option.Rel A) (s.define depth n) (s'.define depth' n)
  have G : Grounds L A (s.setting depth) (s'.setting depth') active true N :=
    { own := fun {a t} _ _ => K.own depth depth' a t
      reports := fun {a t} _ _ => K.reports depth depth' a t
      loops := fun _ _ hf => K.loops _ hf
      lookup := fun {l n} ha => ha n (Activity.mem_calls_call l n)
      unknown := fun {l n} _ => K.unknown l n }
  have hN : ∀ {b x : Activity}, N b → x ∈ b.children → N x := fun hb hx n hn =>
    hb n (Activity.mem_calls_of_part (Activity.mem_parts_of_child hx) hn)
  exact alike_of_children K.toMerges G hN (a := a) h fun _ => rfl

theorem definition?_eq (K : Scope.Corresponds L A S s s') (n : String) :
    s.definition? n = s'.definition? n := by
  rw [Scope.definition?, Scope.definition?, K.definitions]

theorem bodies (K : Scope.Corresponds L A S s s') : Bodies L s s' where
  defined _ := by rw [K.definition?_eq]
  calls _ _ := K.known _
  cut _ := by rw [K.facts]; exact K.empty
  body := by
    intro n d d' active depth depth' _ hd hd' _ hcalls
    rw [K.definition?_eq] at hd
    cases hd.symm.trans hd'
    simp only [K.facts] at hcalls ⊢
    rw [← K.entry]
    exact (K.alike hcalls _).walks

end Scope.Corresponds

end Sessions.Check
