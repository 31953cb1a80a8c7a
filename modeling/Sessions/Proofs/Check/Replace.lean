import Sessions.Proofs.Check.Define

/-!
# Sessions.Proofs.Check.Replace

Replacing a part of an activity. `Activity.Replaces R s a a'` says that `a'` is `a` with one part
replaced, at any depth; the walk of `a` from the flag `s` reaches that part with some flag `t`, and
`R t` relates the part to what takes its place. What is spawned is not walked, so nothing is asked
of a part there.

`alike_replaces`: if the walks of the part and of its replacement are alike, so are the walks of
the whole activities.
-/

namespace Sessions

namespace Activity

/-- One part of the activity is replaced; `R` relates it to its replacement, given the flag with
which the walk reaches it. -/
inductive Replaces (R : Bool → Activity → Activity → Prop) : Bool → Activity → Activity → Prop
  | here {s a a'} (h : R s a a') : Replaces R s a a'
  | sequence {s a a'} (l before after) (h : Replaces R (afterAll before s) a a') :
      Replaces R s (.sequence l (before ++ a :: after)) (.sequence l (before ++ a' :: after))
  | parallel {s a a'} (l before after) (h : Replaces R (afterAll before s) a a') :
      Replaces R s (.parallel l (before ++ a :: after)) (.parallel l (before ++ a' :: after))
  | guard {s a a'} (l before after body) (h : Replaces R s a a') :
      Replaces R s (.choice l (before ++ ⟨a, body⟩ :: after))
        (.choice l (before ++ ⟨a', body⟩ :: after))
  | branch {s a a'} (l before after) (guard : Activity) (h : Replaces R (guard.after s) a a') :
      Replaces R s (.choice l (before ++ ⟨guard, a⟩ :: after))
        (.choice l (before ++ ⟨guard, a'⟩ :: after))
  | arm {s a a'} (l before after c otherwise) (h : Replaces R s a a') :
      Replaces R s (.cond l (before ++ ⟨c, a⟩ :: after) otherwise)
        (.cond l (before ++ ⟨c, a'⟩ :: after) otherwise)
  | otherwise {s a a'} (l arms) (h : Replaces R s a a') :
      Replaces R s (.cond l arms a) (.cond l arms a')
  | whileLoop {s a a'} (l c) (h : Replaces R s a a') :
      Replaces R s (.whileLoop l c a) (.whileLoop l c a')
  | forEach {s a a'} (l key target) (h : Replaces R s a a') :
      Replaces R s (.forEach l key target a) (.forEach l key target a')
  | forFirst {s a a'} (l c post body) (h : Replaces R s a a') :
      Replaces R s (.forLoop l a c post body) (.forLoop l a' c post body)
  | forBody {s a a'} (l c post) (first : Activity) (h : Replaces R (first.after s) a a') :
      Replaces R s (.forLoop l first c post a) (.forLoop l first c post a')
  | forPost {s a a'} (l c) (first body : Activity)
      (h : Replaces R (body.after (first.after s)) a a') :
      Replaces R s (.forLoop l first c a body) (.forLoop l first c a' body)
  | handler {s a a'} (l op target output) (h : Replaces R false a a') :
      Replaces R s (.requestResponse l op target output a) (.requestResponse l op target output a')
  | scope {s a a'} (l name) (h : Replaces R s a a') :
      Replaces R s (.scope l name a) (.scope l name a')
  | synchronized {s a a'} (l id) (h : Replaces R s a a') :
      Replaces R s (.synchronized l id a) (.synchronized l id a')
  | install {s a a'} (l before after fault) (h : Replaces R false a a') :
      Replaces R s (.install l (before ++ ⟨fault, a⟩ :: after))
        (.install l (before ++ ⟨fault, a'⟩ :: after))
  | spawn {s} (l a a') : Replaces R s (.spawn l a) (.spawn l a')

end Activity

namespace Check

section Replace

variable {L : Link} {A : Facts → Facts → Prop} {S : List String → List String → Prop}
  {aliases : Prop} {w w' : Setting} {active : List String} {s : Bool}

theorem alikeAll_append {as as' bs bs' : List Activity} (h : AlikeAll L A w w' active s as as')
    (h' : AlikeAll L A w w' active (Activity.afterAll as s) bs bs') :
    AlikeAll L A w w' active s (as ++ bs) (as' ++ bs') := by
  induction h with
  | nil => exact h'
  | cons h _ ih => exact .cons h (ih h')

theorem forall₂_replace {α : Type} {P : α → α → Prop} {before after : List α} {x x' : α}
    (hx : P x x') (hb : ∀ y ∈ before, P y y) (ha : ∀ y ∈ after, P y y) :
    List.Forall₂ P (before ++ x :: after) (before ++ x' :: after) :=
  List.rel_append (List.forall₂_same.2 hb) (.cons hx (List.forall₂_same.2 ha))

variable [∀ n, Grows (w.lookup n)] (K : Keeps L A S aliases w w')
include K

theorem alikeAll_replace {before after : List Activity} {a a' : Activity}
    (h : ∀ x ∈ before ++ a :: after, Walkable L A aliases w w' active x)
    (ha : Alike L A w w' active (Activity.afterAll before s) a a') :
    AlikeAll L A w w' active s (before ++ a :: after) (before ++ a' :: after) := by
  refine alikeAll_append (alikeAll_refl (fun x hx s => ?_) s) (.cons ha ?_)
  · exact alike_refl K (h x (List.mem_append_left _ hx)) s
  · refine alikeAll_refl (fun x hx s => ?_) _
    exact alike_refl K (h x (List.mem_append_right _ (List.mem_cons_of_mem _ hx))) s

theorem alikeBranch_refl {b : Branch} (hg : Walkable L A aliases w w' active b.guard)
    (hb : Walkable L A aliases w w' active b.body) : AlikeBranch L A w w' active s b b :=
  ⟨alike_refl K hg s, alike_refl K hb _⟩

theorem forall₂_replace_branch {before after : List Branch} {b b' : Branch}
    (h : ∀ x ∈ before ++ b :: after, Walkable L A aliases w w' active x.guard ∧
      Walkable L A aliases w w' active x.body)
    (hb : AlikeBranch L A w w' active s b b') :
    List.Forall₂ (AlikeBranch L A w w' active s) (before ++ b :: after)
      (before ++ b' :: after) := by
  refine forall₂_replace hb (fun x hx => ?_) (fun x hx => ?_)
  · have hx := h x (List.mem_append_left _ hx)
    exact alikeBranch_refl K hx.1 hx.2
  · have hx := h x (List.mem_append_right _ (List.mem_cons_of_mem _ hx))
    exact alikeBranch_refl K hx.1 hx.2

/-- The walks of an activity and of the activity with a part replaced are alike, if those of the
part and its replacement are. -/
theorem alike_replaces {R : Bool → Activity → Activity → Prop} {a a' : Activity}
    (hR : ∀ {s x x'}, R s x x' → Walkable L A aliases w w' active x →
      Alike L A w w' active s x x')
    (hw : Walkable L A aliases w w' active a) (h : Activity.Replaces R s a a') :
    Alike L A w w' active s a a' := by
  induction h with
  | here h => exact hR h hw
  | sequence l before after _ ih =>
    exact alike_sequence K.toMerges (alikeAll_replace K (fun x hx => hw.child hx)
      (ih (hw.child (by simp [Activity.children]))))
  | parallel l before after _ ih =>
    exact alike_parallel K.toMerges (alikeAll_replace K (fun x hx => hw.child hx)
      (ih (hw.child (by simp [Activity.children]))))
  | guard l before after body _ ih =>
    have hx : ∀ x ∈ before ++ ⟨_, body⟩ :: after, Walkable L A aliases w w' active x.guard ∧
        Walkable L A aliases w w' active x.body := fun x hx =>
      ⟨hw.child (List.mem_flatMap.2 ⟨x, hx, by simp⟩),
        hw.child (List.mem_flatMap.2 ⟨x, hx, by simp⟩)⟩
    have hb := hx _ (List.mem_append_right _ List.mem_cons_self)
    exact alike_choice K.toMerges (forall₂_replace_branch K hx ⟨ih hb.1, alike_refl K hb.2 _⟩)
  | branch l before after guard _ ih =>
    have hx : ∀ x ∈ before ++ ⟨guard, _⟩ :: after, Walkable L A aliases w w' active x.guard ∧
        Walkable L A aliases w w' active x.body := fun x hx =>
      ⟨hw.child (List.mem_flatMap.2 ⟨x, hx, by simp⟩),
        hw.child (List.mem_flatMap.2 ⟨x, hx, by simp⟩)⟩
    have hb := hx _ (List.mem_append_right _ List.mem_cons_self)
    exact alike_choice K.toMerges (forall₂_replace_branch K hx ⟨alike_refl K hb.1 _, ih hb.2⟩)
  | arm l before after c otherwise _ ih =>
    have hx : ∀ x ∈ before ++ ⟨c, _⟩ :: after, Walkable L A aliases w w' active x.body :=
      fun x hx => hw.child (List.mem_append_left _ (List.mem_map_of_mem hx))
    refine alike_cond K.toMerges (forall₂_replace ?_ (fun x h => ?_) (fun x h => ?_)) ?_
    · exact ih (hx _ (List.mem_append_right _ List.mem_cons_self))
    · exact alike_refl K (hx x (List.mem_append_left _ h)) _
    · exact alike_refl K (hx x (List.mem_append_right _ (List.mem_cons_of_mem _ h))) _
    · exact alike_refl K (hw.child (List.mem_append_right _ List.mem_cons_self)) _
  | otherwise l arms _ ih =>
    refine alike_cond K.toMerges (List.forall₂_same.2 fun x hx => ?_) ?_
    · exact alike_refl K (hw.child (List.mem_append_left _ (List.mem_map_of_mem hx))) _
    · exact ih (hw.child (List.mem_append_right _ List.mem_cons_self))
  | whileLoop l c _ ih => exact alike_whileLoop (K.loops l) (ih (hw.child List.mem_cons_self))
  | forEach l key target _ ih => exact alike_forEach (K.loops l) (ih (hw.child List.mem_cons_self))
  | forFirst l c post body _ ih =>
    have ha := ih (hw.child (by simp [Activity.children]))
    exact alike_forLoop K.toMerges (K.loops l) ha
      (alike_refl K (hw.child (by simp [Activity.children])) _)
      (alike_refl K (hw.child (by simp [Activity.children])) _)
  | forBody l c post first _ ih =>
    have ha := ih (hw.child (by simp [Activity.children]))
    exact alike_forLoop K.toMerges (K.loops l)
      (alike_refl K (hw.child (by simp [Activity.children])) _) ha
      (alike_refl K (hw.child (by simp [Activity.children])) _)
  | forPost l c first body _ ih =>
    have ha := ih (hw.child (by simp [Activity.children]))
    exact alike_forLoop K.toMerges (K.loops l)
      (alike_refl K (hw.child (by simp [Activity.children])) _)
      (alike_refl K (hw.child (by simp [Activity.children])) _) ha
  | handler l op target output _ ih =>
    exact alike_requestResponse K.toMerges (K.receive l op target _)
      (ih (hw.child List.mem_cons_self))
  | scope l name _ ih => exact alike_scope (ih (hw.child List.mem_cons_self))
  | synchronized l id _ ih => exact alike_synchronized (ih (hw.child List.mem_cons_self))
  | install l before after fault _ ih =>
    have hx : ∀ x ∈ before ++ ⟨fault, _⟩ :: after, Walkable L A aliases w w' active x.body :=
      fun x hx => hw.child (List.mem_map_of_mem hx)
    refine alike_install K.empty (walkHandlers_related
      (forall₂_replace (P := fun h h' : Handler => Alike L A w w' active false h.body h'.body) ?_
        (fun x h => ?_) (fun x h => ?_)))
    · exact ih (hx _ (List.mem_append_right _ List.mem_cons_self))
    · exact alike_refl K (hx x (List.mem_append_left _ h)) _
    · exact alike_refl K (hx x (List.mem_append_right _ (List.mem_cons_of_mem _ h))) _
  | spawn l a a' => exact ⟨by rw [walk, walk]; exact .pure K.empty, rfl⟩

end Replace

end Check

end Sessions
