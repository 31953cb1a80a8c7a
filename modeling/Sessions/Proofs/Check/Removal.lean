import Sessions.Proofs.Check.Edit
import Sessions.Proofs.Facts.Stricter
import Sessions.Proofs.Program.PathKey

/-!
# Sessions.Proofs.Check.Removal

Programs that remove more. A check keeps the track of a path by its key. To remove a location says
nothing about the locations below it, so removing more of the tree may be judged more leniently
(`root_removed_accepted`). What holds is stated for keys: a program that loses the track of more
paths, as it is with `UndefinesBoth` and `UndefinesToo`, is never judged more leniently, and neither
is one that loses another path instead, as long as nothing depends on the first one
(`removing_more_rejected`).
-/

namespace Sessions.Check

variable {spare : List String} {f f' : Facts} {x x' : Activity} {p q : Path}

/-! ## Walks -/

theorem merges_stricter : Merges (.uniform (Facts.Stricter spare)) (Facts.Stricter spare) Eq where
  seen := rfl
  empty := .refl .empty
  sequence := .sequence
  parallel := .parallel
  clashes hf hg := by rw [hf.clashes hg]; rfl
  choice := .choice
  mismatches b hf hg hr := by rw [hf.mismatches hg, hr]; exact ⟨rfl, rfl⟩
  handler := .handler

theorem keeps_stricter {w w' : Setting} (hm : w.mode = w'.mode)
    (hc : w.correlation = w'.correlation) (hf : w.fresh = w'.fresh) :
    Keeps (.uniform (Facts.Stricter spare)) (Facts.Stricter spare) Eq True w w' where
  toMerges := merges_stricter
  mode := hm
  correlation := hc
  fresh := hf
  reports _ := rfl
  loops l hf := by rw [loopDiagnostics, loopDiagnostics, hf.providedCorr]; rfl
  input l op s := .refl (inputFacts_wellFormed w l op s)
  provide p fresh := .refl (wellFormed_invariant.provide p fresh)
  pointer _ left right := .refl (wellFormed_invariant.pointer trivial left right)
  undef _ target := .refl (wellFormed_invariant.undef trivial target)

/-- The activity has these facts wherever it stands, and nothing is reported of it. -/
structure GivesOnly (a : Activity) (f : Facts) : Prop where
  walk : ∀ w s, walk w a s = pure (f, s)
  flag : ∀ s, a.after s = s

theorem givesOnly_nothing (l : Location) : GivesOnly (.nothing l) Facts.empty :=
  ⟨fun w s => by rw [Check.walk], fun _ => rfl⟩

theorem givesOnly_undef (l : Location) (p : Path) :
    GivesOnly (.undef l p) (Facts.empty.invalidate p) :=
  ⟨fun w s => by rw [Check.walk], fun _ => rfl⟩

theorem givesOnly_undef_both (l l' l'' : Location) (p q : Path) :
    GivesOnly (.sequence l [.undef l' p, .undef l'' q])
      ((Facts.empty.invalidate p).invalidate q) where
  walk w s := by
    rw [walk_sequence_cons, (givesOnly_undef l' p).walk, pure_bind, walkSequence_cons,
      (givesOnly_undef l'' q).walk, pure_bind]
    rfl
  flag _ := by simp only [Activity.after, Activity.afterAll]

/-- The second activity has lost the track of more. -/
def Tightens (spare : List String) (x x' : Activity) : Prop :=
  ∃ f f', GivesOnly x f ∧ GivesOnly x' f' ∧ f.Stricter spare f'

theorem alike_tightens {w w' : Setting} {active : List String} {s : Bool}
    (h : Tightens spare x x') :
    Alike (.uniform (Facts.Stricter spare)) (Facts.Stricter spare) w w' active s x x' := by
  obtain ⟨f, f', hx, hx', hf⟩ := h
  refine ⟨?_, by rw [hx.flag, hx'.flag]⟩
  rw [hx.walk, hx'.walk]
  exact .pure hf

namespace Checker

variable {c : Checker} {l : Location} {items items' : List Item}

/-! ## The rules for the program as a whole -/

theorem isFresh_stricter (h : f.Stricter spare f') (hspare : f.Spares spare) (ps : List Path)
    (hf : isFresh f' ps = true) : isFresh f ps = true := by
  rw [isFresh_iff h.left]
  obtain ⟨p, hp, hav, hfresh⟩ := (isFresh_iff h.right).1 hf
  exact ⟨p, hp, h.available hspare hav, h.providedCorr ▸ hfresh⟩

theorem staleSets_stricter (h : f.Stricter spare f') (hspare : f.Spares spare)
    {sets : List Correlation.CorrelationSet} (hf : staleSets f' sets = []) :
    staleSets f sets = [] := by
  rw [staleSets, List.map_eq_nil_iff, List.filter_eq_nil_iff] at hf ⊢
  intro set hset hstale
  refine hf set hset ?_
  rw [Bool.not_eq_true', ← Bool.not_eq_true] at hstale ⊢
  exact fun hfresh => hstale (isFresh_stricter h hspare _ hfresh)

theorem shortcomings_stricter (h : f.Stricter spare f') (hspare : f.Spares spare)
    (hf : c.shortcomings f' = []) : c.shortcomings f = [] := by
  simp only [shortcomings, List.append_eq_nil_iff, pathDiagnostics_eq_nil,
    PathSet.paths_eq_nil] at hf ⊢
  refine ⟨fun k hk => hf.1 k (h.neededCorr hspare hk), fun k hk => ?_,
    staleSets_stricter h hspare hf.2.2⟩
  rw [h.left.neededVar] at hk
  exact List.not_mem_nil hk

theorem verdict_stricter {init init' main main' : Option Facts}
    (hinit : Option.Rel (Facts.Stricter spare) init init')
    (hmain : Option.Rel (Facts.Stricter spare) main main')
    (hi : ∀ f ∈ init, f.Spares spare) (hm : ∀ f ∈ main, f.Spares spare)
    (h : c.verdict init' main' = []) : c.verdict init main = [] := by
  cases hmain with
  | none => cases hinit <;> cases h
  | @some main main' hmain =>
    cases hinit with
    | none => exact shortcomings_stricter hmain (hm main rfl) h
    | @some init init' hinit =>
      have hspare := (hi init rfl).sequence hmain.left (hm main rfl)
      rw [verdict, List.append_eq_nil_iff, List.append_eq_nil_iff] at h ⊢
      rw [hinit.providedCorr, hinit.clashes hmain]
      exact ⟨h.1, h.2.1, shortcomings_stricter (hinit.sequence hmain) hspare h.2.2⟩

/-! ## Whole checks -/

/-- A rejected program stays rejected if parts of it are replaced so that it loses the track of
more. -/
theorem tightens_check (c : Checker) (l : Location) {R : Activity → Activity → Prop}
    (hR : ∀ {x x'}, R x x' → Tightens spare x x')
    (h : List.Forall₂ (Item.Edits (fun _ _ => R) c.entryName) items items')
    (hspare : ∀ n f, (c.on ⟨l, items⟩).progress.table.lookup n = some f → f.Spares spare)
    (hv : (c.on ⟨l, items⟩).check.valid = false) : (c.on ⟨l, items'⟩).check.valid = false := by
  have K (depth depth' : Nat) : Keeps (.uniform (Facts.Stricter spare)) (Facts.Stricter spare) Eq
      True ((c.on ⟨l, items⟩).scope.setting depth) ((c.on ⟨l, items'⟩).scope.setting depth') :=
    keeps_stricter rfl rfl rfl
  obtain ⟨htable, hd⟩ := edits_walked (fun _ => rfl) (fun _ => trivial) K
    (fun _ hx _ => alike_tightens (hR hx)) h trivial
  rw [progress_table] at hspare
  rw [← Bool.not_eq_true, valid_iff] at hv ⊢
  refine fun hv' => hv ⟨hd.trans hv'.1, ?_⟩
  exact verdict_stricter (htable _) (htable _) (hspare _) (hspare _) hv'.2

/-- Removing a path becomes removing it and then another one. -/
def UndefinesBoth (p q : Path) (x x' : Activity) : Prop :=
  ∃ l l' l₁ l₂, x = .undef l p ∧ x' = .sequence l' [.undef l₁ p, .undef l₂ q]

/-- Doing nothing becomes removing a path. -/
def UndefinesToo (q : Path) (x x' : Activity) : Prop :=
  ∃ l l', x = .nothing l ∧ x' = .undef l' q

/-- Removing a path becomes removing another one. -/
def UndefinesInstead (p q : Path) (x x' : Activity) : Prop :=
  ∃ l l', x = .undef l p ∧ x' = .undef l' q

theorem UndefinesBoth.tightens (h : UndefinesBoth p q x x') : Tightens [] x x' := by
  obtain ⟨l, l', l₁, l₂, rfl, rfl⟩ := h
  exact ⟨_, _, givesOnly_undef l p, givesOnly_undef_both l' l₁ l₂ p q,
    (Facts.Stricter.refl Facts.WellFormed.empty.invalidate).invalidate⟩

theorem UndefinesToo.tightens (h : UndefinesToo q x x') : Tightens [] x x' := by
  obtain ⟨l, l', rfl, rfl⟩ := h
  exact ⟨_, _, givesOnly_nothing l, givesOnly_undef l' q,
    (Facts.Stricter.refl Facts.WellFormed.empty).invalidate⟩

theorem UndefinesInstead.tightens (hp : p.key ∈ spare ∨ p.key = q.key)
    (h : UndefinesInstead p q x x') : Tightens spare x x' := by
  obtain ⟨l, l', rfl, rfl⟩ := h
  exact ⟨_, _, givesOnly_undef l p, givesOnly_undef l' q,
    (Facts.Stricter.refl Facts.WellFormed.empty).invalidate_instead hp⟩

/-- No definition of any program provides an ordinary path that was read as a correlation path. -/
theorem ordinary_not_provided (c : Checker) (hread : ∃ l text, Path.parse l text = .ok p)
    (hp : p.isCorrelation = false) (n : String) (f : Facts)
    (hf : c.progress.table.lookup n = some f) : f.providedCorr.contains p = false := by
  obtain ⟨l, text, hread⟩ := hread
  rw [progress_table] at hf
  rw [PathSet.contains_eq_false_iff, PathSet.keys_eq_map_paths]
  rintro hkey
  obtain ⟨q, hq, hqp⟩ := List.mem_map.1 hkey
  obtain ⟨e, he, rfl⟩ := List.mem_map.1 hq
  have hcorrelation := (walked_wellFormed hf).providedCorr.all e he
  exact (Path.legible_of_parse hread).key_ne hp hcorrelation hqp.symm

/-- Losing the track of more never makes a rejected program acceptable, wherever in the program it
is lost: removing another path as well, or removing a path where nothing was done. Removing `q`
instead of `p` does not either, if the two have one key, if `p` is an ordinary path that was read,
or if at least no definition provides `p` as a correlation path. -/
theorem removing_more_rejected (c : Checker) (l : Location) (p q : Path)
    (items items' : List Item) (hv : (c.on ⟨l, items⟩).check.valid = false) :
    (List.Forall₂ (Item.Edits (fun _ _ => UndefinesBoth p q) c.entryName) items items' →
      (c.on ⟨l, items'⟩).check.valid = false) ∧
    (List.Forall₂ (Item.Edits (fun _ _ => UndefinesToo q) c.entryName) items items' →
      (c.on ⟨l, items'⟩).check.valid = false) ∧
    (p.same q = true ∨
        ((∃ l text, Path.parse l text = .ok p) ∧ p.isCorrelation = false) ∨
        (∀ n f, (c.on ⟨l, items⟩).progress.table.lookup n = some f →
          f.providedCorr.contains p = false) →
      List.Forall₂ (Item.Edits (fun _ _ => UndefinesInstead p q) c.entryName) items items' →
      (c.on ⟨l, items'⟩).check.valid = false) := by
  refine ⟨fun h => ?_, fun h => ?_, fun hp h => ?_⟩
  · exact tightens_check c l UndefinesBoth.tightens h (fun _ f _ => f.spares_nil) hv
  · exact tightens_check c l UndefinesToo.tightens h (fun _ f _ => f.spares_nil) hv
  · have hinstead (hnot : ∀ n f, (c.on ⟨l, items⟩).progress.table.lookup n = some f →
        f.providedCorr.contains p = false) : (c.on ⟨l, items'⟩).check.valid = false := by
      have hspare : ∀ n f, (c.on ⟨l, items⟩).progress.table.lookup n = some f →
          f.Spares [p.key] := fun n f hf =>
        List.forall_mem_singleton.2 (PathSet.contains_eq_false_iff.1 (hnot n f hf))
      exact tightens_check c l (UndefinesInstead.tightens (.inl List.mem_cons_self)) h hspare hv
    rcases hp with hp | ⟨hread, hp⟩ | hp
    · exact tightens_check c l (UndefinesInstead.tightens (.inr (beq_iff_eq.1 hp))) h
        (fun _ f _ => f.spares_nil) hv
    · exact hinstead ((c.on ⟨l, items⟩).ordinary_not_provided hread hp)
    · exact hinstead hp

/-- The check of sessions that are found by an id. -/
def idChecker : Checker where
  program := none
  correlation := some { sets := [corrSet "S" ["sid"]], operations := [("next", "S")] }
  fresh _ _ := ⟨false, none⟩

/-- A session that goes on after two activities. -/
def goesOnAfter (a x : Activity) : List Item :=
  [.definition ⟨{}, "main", .sequence {} [receive "start", a, x, receive "next"]⟩]

theorem goesOnAfter_edits {R : Activity → Activity → Prop} (a : Activity) (h : R x x') :
    List.Forall₂ (Item.Edits (fun _ _ => R) idChecker.entryName) (goesOnAfter a x)
      (goesOnAfter a x') :=
  .cons (.body {} "main" (.sequence {} [receive "start", a] [receive "next"] (.here h))) .nil

/-- The location of all correlation variables. -/
def corrRoot : Path :=
  ⟨{}, [⟨Path.correlationRoot, none⟩]⟩

def replyText : Path :=
  ⟨{}, [⟨"reply", none⟩, ⟨"text", none⟩]⟩

theorem removing_more_rejected_id :
    (idChecker.on ⟨{}, goesOnAfter (token "sid") (.undef {} (corrPath "sid"))⟩).check.valid =
        false ∧
      (idChecker.on ⟨{}, goesOnAfter (token "sid") (.sequence {} [.undef {} (corrPath "sid"),
        .undef {} corrRoot])⟩).check.valid = false ∧
      (idChecker.on ⟨{}, goesOnAfter .missing (.nothing {})⟩).check.valid = false ∧
      (idChecker.on ⟨{}, goesOnAfter .missing (.undef {} corrRoot)⟩).check.valid = false ∧
      (idChecker.on ⟨{}, goesOnAfter .missing (.undef {} replyText)⟩).check.valid = false ∧
      (idChecker.on ⟨{}, goesOnAfter .missing (.undef {} ⟨{}, [⟨"reply", none⟩]⟩)⟩).check.valid =
        false := by
  have hsid : (idChecker.on ⟨{}, goesOnAfter (token "sid")
      (.undef {} (corrPath "sid"))⟩).check.valid = false := by decide +kernel
  have hnil : (idChecker.on ⟨{}, goesOnAfter .missing (.nothing {})⟩).check.valid = false := by
    decide +kernel
  have htext : (idChecker.on ⟨{}, goesOnAfter .missing (.undef {} replyText)⟩).check.valid =
      false := by decide +kernel
  have hread : Path.parse {} "reply.text" = .ok replyText := rfl
  refine ⟨hsid, ?_, hnil, ?_, htext, ?_⟩
  · exact (removing_more_rejected idChecker {} (corrPath "sid") corrRoot _ _ hsid).1
      (goesOnAfter_edits _ ⟨_, _, _, _, rfl, rfl⟩)
  · exact (removing_more_rejected idChecker {} corrRoot corrRoot _ _ hnil).2.1
      (goesOnAfter_edits _ ⟨_, _, rfl, rfl⟩)
  · exact (removing_more_rejected idChecker {} replyText _ _ _ htext).2.2
      (.inr (.inl ⟨⟨{}, _, hread⟩, rfl⟩)) (goesOnAfter_edits _ ⟨_, _, rfl, rfl⟩)

/-- Removing all correlation variables instead of the id makes the session acceptable. -/
theorem root_removed_accepted :
    (corrPath "sid").startsWith corrRoot = true ∧
      List.Forall₂ (Item.Edits (fun _ _ => UndefinesInstead (corrPath "sid") corrRoot)
        idChecker.entryName) (goesOnAfter (token "sid") (.undef {} (corrPath "sid")))
        (goesOnAfter (token "sid") (.undef {} corrRoot)) ∧
      (idChecker.on ⟨{}, goesOnAfter (token "sid") (.undef {} (corrPath "sid"))⟩).check.valid =
        false ∧
      (idChecker.on ⟨{}, goesOnAfter (token "sid") (.undef {} corrRoot)⟩).check.valid = true := by
  refine ⟨by decide +kernel, goesOnAfter_edits _ ⟨_, _, rfl, rfl⟩, ?_, ?_⟩ <;> decide +kernel

end Checker

end Sessions.Check
