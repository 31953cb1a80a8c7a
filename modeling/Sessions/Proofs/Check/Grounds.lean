import Sessions.Proofs.Check.Congruence

/-!
# Sessions.Proofs.Check.Grounds

One activity walked twice, by rules that may differ. Apart from its parts and its calls, an
activity adds little by itself (`ownFacts`, `ownDiagnostics`); the rest comes from merges. So two
walks of the same activity stay in correspondence if they do on what each part adds by itself, on
loops and on look-ups (`Grounds`).

`alike_step` takes one activity, given its parts. From it come `alike_of_steps`, which leaves fault
handlers to the caller, and `alike_of_children`, which does not. `Keeps` is the case in which both
walks follow the same rules.
-/

namespace Sessions.Check

/-! ## What an activity adds by itself -/

/-- The facts of an activity, its parts and its calls left aside. -/
def ownFacts (w : Setting) : Activity → (starter : Bool) → Facts
  | .oneWay l op _, s => inputFacts w l op s
  | .requestResponse l op _ _ _, s => inputFacts w l op s
  | .solicitResponse _ op port _ (some p), _ =>
    if p.isCorrelation then Facts.empty.provide p (w.fresh port op).fresh else Facts.empty
  | .assign _ target op value, _ => assignmentFacts target op value
  | .pointer _ left right, _ => (Facts.empty.invalidate right).invalidate left
  | .deepCopy _ left right, _ => (Facts.empty.invalidate right).invalidate left
  | .undef _ target, _ => Facts.empty.invalidate target
  | _, _ => Facts.empty

/-- What is reported of an activity whatever its parts and its calls are. -/
def ownDiagnostics (w : Setting) : Activity → (starter : Bool) → List Diagnostic
  | .oneWay l op target, s => inputDiagnostics w l op target s
  | .requestResponse l op target _ _, s => inputDiagnostics w l op target s
  | .assign l target op value, _ => assignmentDiagnostics l target op value
  | .increment l p _ _, _ =>
    if p.isCorrelation then [Diagnostic.ofProblem l (.incremented p)] else []
  | _, _ => []

/-- What holds of single paths holds of an activity's own facts. -/
theorem ownFacts_cases {w : Setting} {P : Facts → Prop} {a : Activity} {s : Bool}
    (hempty : P Facts.empty) (hinput : ∀ l op, P (inputFacts w l op s))
    (hprovide : ∀ p fresh, P (Facts.empty.provide p fresh))
    (hpointer : a.isAlias = true → ∀ left right,
      P ((Facts.empty.invalidate right).invalidate left))
    (hundef : a.isAlias = true → ∀ target, P (Facts.empty.invalidate target)) :
    P (ownFacts w a s) := by
  cases a with
  | oneWay l op target => exact hinput l op
  | requestResponse l op target output handler => exact hinput l op
  | solicitResponse l op port output target =>
    cases target with
    | none => exact hempty
    | some p =>
      rw [ownFacts]
      split
      · exact hprovide _ _
      · exact hempty
  | assign l target op value =>
    rw [ownFacts, assignmentFacts]
    split
    · exact hempty
    · cases assigned target value with
      | none => exact hempty
      | some fresh => exact hprovide target fresh
  | pointer l left right => exact hpointer rfl left right
  | deepCopy l left right => exact hpointer rfl left right
  | undef l target => exact hundef rfl target
  | _ => exact hempty

theorem ownFacts_congr {w w' : Setting} (hin : inputPaths w = inputPaths w')
    (hf : ∀ port op, (w.fresh port op).fresh = (w'.fresh port op).fresh) (a : Activity) (s : Bool) :
    ownFacts w a s = ownFacts w' a s := by
  cases a with
  | solicitResponse l op port output target => cases target <;> simp only [ownFacts, hf]
  | oneWay l op target => simp only [ownFacts, inputFacts, hin]
  | requestResponse l op target output handler => simp only [ownFacts, inputFacts, hin]
  | _ => rfl

theorem ownDiagnostics_congr {w w' : Setting} (hin : inputPaths w = inputPaths w')
    (hm : w.mode = .single ↔ w'.mode = .single) (a : Activity) (s : Bool) :
    ownDiagnostics w a s = ownDiagnostics w' a s := by
  have hinput : ∀ l op target, inputDiagnostics w l op target s =
      inputDiagnostics w' l op target s := fun l op target => by
    simp only [inputDiagnostics, hin, ne_eq, hm]
  cases a with
  | oneWay l op target => exact hinput l op target
  | requestResponse l op target output handler => exact hinput l op target
  | _ => rfl

theorem inputPaths_congr {w w' : Setting} (hm : w.mode = w'.mode)
    (hc : w.correlation = w'.correlation) : inputPaths w = inputPaths w' := by
  funext op
  rw [inputPaths, inputPaths, hc]
  simp only [hm]

/-- Two walks correspond on each activity in `N`, its parts left aside, for flags that are set only
if `start` is. -/
structure Grounds (L : Link) (A : Facts → Facts → Prop) (w w' : Setting) (active : List String)
    (start : Bool) (N : Activity → Prop) : Prop where
  own : ∀ {a s}, N a → (s = true → start = true) → A (ownFacts w a s) (ownFacts w' a s)
  reports : ∀ {a s}, N a → (s = true → start = true) →
    L.reports (ownDiagnostics w a s) (ownDiagnostics w' a s)
  loops : ∀ {a f f'}, N a → a.isLoop = true → A f f' →
    L.reports (loopDiagnostics a.loc f) (loopDiagnostics a.loc f')
  lookup : ∀ {l n}, N (.call l n) → Related L active (Option.Rel A) (w.lookup n) (w'.lookup n)
  unknown : ∀ {l n}, N (.call l n) → L.reports [Diagnostic.ofProblem l (.noDefinition n)]
    [Diagnostic.ofProblem l (.noDefinition n)]

section Grounds

variable {L : Link} {A : Facts → Facts → Prop} {S : List String → List String → Prop}
  {w w' : Setting} {active : List String} {start s : Bool} {N : Activity → Prop} {a : Activity}

theorem input_related {l : Location} {op : String} {target : Option Path}
    (hown : A (inputFacts w l op s) (inputFacts w' l op s))
    (hreports : L.reports (inputDiagnostics w l op target s) (inputDiagnostics w' l op target s)) :
    Related L active A (input w l op target s) (input w' l op target s) :=
  (input_reports w l op target s).related (input_reports w' l op target s) hown hreports

variable [∀ n, Grows (w.lookup n)]

/-- Two walks of an activity correspond if they do on what it adds by itself and on its parts. -/
theorem alike_step (M : Merges L A S) (G : Grounds L A w w' active start N) (ha : N a)
    (hs : s = true → start = true)
    (hsteps : ∀ b ∈ a.steps, ∀ t, (t = true → start = true) → Alike L A w w' active t b b)
    (hinstall : ∀ l hs, a = .install l hs →
      Related L active (fun _ _ => True) (walkHandlers w hs) (walkHandlers w' hs)) :
    Alike L A w w' active s a a := by
  -- A flag that is set after a part was set before it, so `start` bounds the flags of all parts.
  have hafter : ∀ b : Activity, ∀ {t}, (t = true → start = true) → b.after t = true →
      start = true := fun b t ht h => ht (Activity.of_after h)
  cases a with
  | sequence l as => exact alike_sequence M (alikeAll_upto hsteps hs)
  | parallel l as => exact alike_parallel M (alikeAll_upto hsteps hs)
  | choice l bs =>
    refine alike_choice M (List.forall₂_same.2 fun b hb => ⟨?_, ?_⟩)
    · exact hsteps _ (List.mem_flatMap.2 ⟨b, hb, by simp⟩) s hs
    · exact hsteps _ (List.mem_flatMap.2 ⟨b, hb, by simp⟩) _ (hafter b.guard hs)
  | cond l arms otherwise =>
    refine alike_cond M (List.forall₂_same.2 fun arm harm => ?_) ?_
    · exact hsteps _ (List.mem_append_left _ (List.mem_map_of_mem harm)) s hs
    · exact hsteps _ (List.mem_append_right _ List.mem_cons_self) s hs
  | whileLoop l c body =>
    exact alike_whileLoop (G.loops ha rfl) (hsteps body List.mem_cons_self s hs)
  | forEach l key target body =>
    exact alike_forEach (G.loops ha rfl) (hsteps body List.mem_cons_self s hs)
  | forLoop l first c post body =>
    have hbody := hafter first hs
    exact alike_forLoop M (G.loops ha rfl)
      (hsteps first (by simp [Activity.steps, Activity.children]) s hs)
      (hsteps body (by simp [Activity.steps, Activity.children]) _ hbody)
      (hsteps post (by simp [Activity.steps, Activity.children]) _ (hafter body hbody))
  | call l n => exact alike_call M.empty (G.lookup ha) (G.unknown ha)
  | oneWay l op target =>
    refine ⟨?_, rfl⟩
    rw [walk_oneWay, walk_oneWay]
    exact (input_related (G.own ha hs) (G.reports ha hs)).bind fun _ _ hf => .pure hf
  | requestResponse l op target output handler =>
    exact alike_requestResponse M (input_related (G.own ha hs) (G.reports ha hs))
      (hsteps handler List.mem_cons_self false fun h => Bool.noConfusion h)
  | solicitResponse l op port output target =>
    have hown := G.own ha hs
    refine ⟨?_, rfl⟩
    rw [walk_solicitResponse, walk_solicitResponse]
    cases target with
    | none => exact .pure hown
    | some p =>
      refine .ite (fun hp => ?_) fun hp => .pure M.empty
      simp only [ownFacts, if_pos hp] at hown
      exact ((reply_gives w op port p).map _).related ((reply_gives w' op port p).map _) hown L.nil
  | assign l target op value =>
    refine ⟨?_, rfl⟩
    rw [walk_assign, walk_assign]
    have h := assignment_reports l target op value
    exact (h.map _).related (h.map _) (G.own ha hs) (G.reports ha hs)
  | increment l p pre decrement =>
    have hown := G.reports ha hs
    refine ⟨?_, rfl⟩
    rw [walk_increment, walk_increment]
    refine .ite (fun hp => ?_) fun hp => .pure M.empty
    simp only [ownDiagnostics, if_pos hp] at hown
    exact ((Gives.report l _).map _).related ((Gives.report l _).map _) M.empty hown
  | scope l name body => exact alike_scope (hsteps body List.mem_cons_self s hs)
  | synchronized l id body => exact alike_synchronized (hsteps body List.mem_cons_self s hs)
  | install l hs => exact alike_install M.empty (hinstall l hs rfl)
  | pointer l left right => exact ⟨by rw [walk, walk]; exact .pure (G.own ha hs), rfl⟩
  | deepCopy l left right => exact ⟨by rw [walk, walk]; exact .pure (G.own ha hs), rfl⟩
  | undef l target => exact ⟨by rw [walk, walk]; exact .pure (G.own ha hs), rfl⟩
  | _ => exact ⟨by rw [walk, walk]; exact .pure M.empty, rfl⟩

/-- Two walks correspond if they do on all that counts, and on the fault handlers in any way. -/
theorem alike_of_steps (M : Merges L A S) (G : Grounds L A w w' active start N)
    (hN : ∀ {b x}, N b → x ∈ b.steps → N x)
    (hinstall : ∀ {l hs}, N (.install l hs) →
      Related L active (fun _ _ => True) (walkHandlers w hs) (walkHandlers w' hs))
    (ha : N a) (hs : s = true → start = true) : Alike L A w w' active s a a := by
  induction a using Activity.induct_children generalizing s with
  | h a ih =>
    refine alike_step M G ha hs (fun b hb t ht => ?_) ?_
    · exact ih b (Activity.steps_subset a hb) (hN ha hb) ht
    · rintro l hs rfl
      exact hinstall ha

/-- Two walks correspond if they do on all parts, fault handlers included. -/
theorem alike_of_children (M : Merges L A S) (G : Grounds L A w w' active start N)
    (hN : ∀ {b x}, N b → x ∈ b.children → N x) (ha : N a) (hs : s = true → start = true) :
    Alike L A w w' active s a a := by
  induction a using Activity.induct_children generalizing s with
  | h a ih =>
    refine alike_step M G ha hs (fun b hb t ht => ?_) ?_
    · have hb := Activity.steps_subset a hb
      exact ih b hb (hN ha hb) ht
    · rintro l hs rfl
      have hbodies : ∀ x ∈ hs, Alike L A w w' active false x.body x.body := fun x hx =>
        have hx : x.body ∈ (Activity.install l hs).children := List.mem_map_of_mem hx
        ih _ hx (hN ha hx) fun h => Bool.noConfusion h
      exact walkHandlers_related (List.forall₂_same.2 hbodies)

end Grounds

/-! ## The same rules -/

/-- What two walks by the same rules need to stay in correspondence; `aliases` says that activities
which make paths untraceable may occur. -/
structure Keeps (L : Link) (A : Facts → Facts → Prop) (S : List String → List String → Prop)
    (aliases : Prop) (w w' : Setting) : Prop extends Merges L A S where
  mode : w.mode = w'.mode
  correlation : w.correlation = w'.correlation
  fresh : w.fresh = w'.fresh
  reports : ∀ ds, L.reports ds ds
  loops : ∀ {f f'} (l : Location), A f f' →
    L.reports (loopDiagnostics l f) (loopDiagnostics l f')
  input : ∀ l op s, A (inputFacts w l op s) (inputFacts w l op s)
  provide : ∀ p fresh, A (Facts.empty.provide p fresh) (Facts.empty.provide p fresh)
  pointer : aliases → ∀ left right, A ((Facts.empty.invalidate right).invalidate left)
    ((Facts.empty.invalidate right).invalidate left)
  undef : aliases → ∀ target, A (Facts.empty.invalidate target) (Facts.empty.invalidate target)

section Keeps

variable {L : Link} {A : Facts → Facts → Prop} {S : List String → List String → Prop}
  {aliases : Prop} {w w' : Setting} {active : List String}

/-- The calls of the activity are related, and it makes paths untraceable only where that is
allowed. -/
structure Walkable (L : Link) (A : Facts → Facts → Prop) (aliases : Prop) (w w' : Setting)
    (active : List String) (a : Activity) : Prop where
  calls : ∀ n ∈ a.calls, Related L active (Option.Rel A) (w.lookup n) (w'.lookup n)
  aliases : a.aliasFree ∨ aliases

theorem Walkable.part {a b : Activity} (h : Walkable L A aliases w w' active a)
    (hb : b ∈ a.parts) : Walkable L A aliases w w' active b :=
  ⟨fun n hn => h.calls n (Activity.mem_calls_of_part hb hn),
    h.aliases.imp_left (Activity.aliasFree_of_part hb)⟩

theorem Walkable.child {a b : Activity} (h : Walkable L A aliases w w' active a)
    (hb : b ∈ a.children) : Walkable L A aliases w w' active b :=
  h.part (Activity.mem_parts_of_child hb)

theorem Walkable.mayAlias {a : Activity} (h : Walkable L A aliases w w' active a)
    (ha : a.isAlias = true) : aliases := by
  refine h.aliases.resolve_left fun hf => ?_
  rw [Activity.isAlias_of_aliasFree hf] at ha
  cases ha

theorem Keeps.inputPaths (K : Keeps L A S aliases w w') : inputPaths w = inputPaths w' :=
  inputPaths_congr K.mode K.correlation

theorem Keeps.receive (K : Keeps L A S aliases w w') (l : Location) (op : String)
    (target : Option Path) (s : Bool) :
    Related L active A (Check.input w l op target s) (Check.input w' l op target s) := by
  have h := input_reports w l op target s
  exact h.related (input_congr K.mode K.correlation l op target s ▸ h) (K.input l op s)
    (K.reports _)

theorem Keeps.own (K : Keeps L A S aliases w w') {a : Activity} (s : Bool)
    (ha : a.isAlias = true → aliases) : A (ownFacts w a s) (ownFacts w a s) :=
  ownFacts_cases (P := fun f => A f f) K.empty (fun l op => K.input l op s) K.provide
    (fun h => K.pointer (ha h)) fun h => K.undef (ha h)

theorem Keeps.grounds (K : Keeps L A S aliases w w') :
    Grounds L A w w' active true (Walkable L A aliases w w' active) where
  own {a s} ha _ := by
    rw [← ownFacts_congr K.inputPaths fun port op => by rw [K.fresh]]
    exact K.own s ha.mayAlias
  reports {a s} _ _ := by
    rw [← ownDiagnostics_congr K.inputPaths (by rw [K.mode])]
    exact K.reports _
  loops _ _ hf := K.loops _ hf
  lookup ha := ha.calls _ (Activity.mem_calls_call _ _)
  unknown _ := K.reports _

variable [∀ n, Grows (w.lookup n)]

/-- The walks of one activity are related if its calls are. -/
theorem alike_refl (K : Keeps L A S aliases w w') {a : Activity}
    (h : Walkable L A aliases w w' active a) (s : Bool) : Alike L A w w' active s a a :=
  alike_of_children K.toMerges K.grounds (fun hb hx => hb.child hx) h fun _ => rfl

end Keeps

end Sessions.Check
