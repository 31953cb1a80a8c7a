import Sessions.Proofs.Check.Accounted

/-!
# Sessions.Proofs.Check.Soundness

A program that passes the check behaves. The facts of its definitions account for their traces, so
by the rules for the program as a whole no execution uses a correlation variable before it is
initialised, initialises one twice, or leaves a correlation set without a fresh value
(`valid_execution`).
-/

namespace Sessions.Check

open Facts (Accounts)

namespace Checker

variable {c : Checker}

/-- What happens before the entry point runs: the initial definition, if there is one. -/
def opening (c : Checker) : Language Event :=
  if (c.scope.definition? c.initName).isSome then c.scope.definitionTraces c.initName else 1

/-- The executions of a program: the initial definition, if there is one, and the entry point. -/
def executions (c : Checker) : Language Event :=
  c.opening * c.scope.definitionTraces c.entryName

theorem staleSets_eq_nil {f : Facts} {sets : List Correlation.CorrelationSet} :
    staleSets f sets = [] ↔ ∀ s ∈ sets, isFresh f s.paths = true := by
  rw [staleSets, List.map_eq_nil_iff, List.filter_eq_nil_iff]
  simp only [Bool.not_eq_true', Bool.not_eq_false]

/-- Facts of a whole run that have no shortcomings need nothing and have a fresh value for each
correlation set. -/
theorem covers_of_shortcomings {again : String → Prop} {f : Facts} (h : c.shortcomings f = [])
    (hf : f.Clean) {t : List Event} (ht : f.Covers again t) :
    (∀ k, ¬ Event.Unguarded k t) ∧ ∀ set ∈ c.sets, ∃ p ∈ set.paths, .init p.key true ∈ t := by
  obtain ⟨hneeds, hrest⟩ := List.append_eq_nil_iff.1 h
  have hstale := staleSets_eq_nil.1 (List.append_eq_nil_iff.1 hrest).2
  refine ⟨fun k hk => ?_, fun set hset => ?_⟩
  · have hk := ht.needs k hk
    rw [PathSet.keys_eq_map_paths, pathDiagnostics_eq_nil.1 hneeds] at hk
    exact List.not_mem_nil hk
  · obtain ⟨p, hp, -, hfresh⟩ := (isFresh_iff hf.wellFormed).1 (hstale set hset)
    exact ⟨p, hp, ht.fresh p.key hfresh⟩

section Valid

variable (hmode : c.mode ≠ .single) (hacyclic : c.scope.Acyclic)
  (halias : ∀ d ∈ c.scope.definitions, d.body.aliasFree = true) {main : Definition} {l : Location}
  {first : Activity} {rest : List Activity}
  (hmain : c.scope.definition? c.entryName = some main)
  (hbody : main.body = .sequence l (first :: rest)) (hfirst : first.isInput = true)
  (hvalid : c.check.valid = true)
include hmode hacyclic halias hmain hbody hfirst hvalid

/-- The facts of every definition of a valid program account for its traces. -/
theorem definition_accounts {n : String} {f : Facts} (hf : c.walked.table.lookup n = some f) :
    Accounts (· ∈ c.scope.rebound) f (c.scope.definitionTraces n) := by
  have B := quiet_bodies hmode hacyclic halias hmain hbody hfirst
  have hfacts := walked_facts B (fun _ => trivial) (c.valid_iff.1 hvalid).1 hf
  exact Accounts.weaken hfacts.1 fun _ hk => hk.2

/-- What the input that starts the session initialises, the rest of the entry point does not. -/
theorem entry_parted :
    Parted (c.scope.traces true first) (c.scope.traces false (.sequence l rest)) := by
  have B := quiet_bodies hmode hacyclic halias hmain hbody hfirst
  obtain ⟨f, hf⟩ := c.walked_lookup hmain
  have hfacts := walked_facts B (fun _ => trivial) (c.valid_iff.1 hvalid).1 hf
  exact hfacts.2 rfl main l first rest hmain hbody

/-- The initial definition of a valid program initialises nothing, and some facts without
shortcomings account for the executions. -/
theorem executions_accounts :
    (∀ t ∈ c.opening, ∀ k, Event.inits k t = 0) ∧
      ∃ f, Accounts (· ∈ c.scope.rebound) f c.executions ∧ c.shortcomings f = [] := by
  obtain ⟨f, hf⟩ := c.walked_lookup hmain
  have hmainAccounts := definition_accounts hmode hacyclic halias hmain hbody hfirst hvalid hf
  have hverdict := (c.valid_iff.1 hvalid).2
  rw [hf] at hverdict
  unfold executions opening
  cases hinit : c.scope.definition? c.initName with
  | none =>
    have hnone : c.walked.table.lookup c.initName = none := by
      cases hg : c.walked.table.lookup c.initName with
      | none => rfl
      | some g =>
        have hdefined := walked_defined hg
        rw [hinit] at hdefined
        cases hdefined
    rw [hnone] at hverdict
    refine ⟨fun t ht k => ?_, f, ?_, hverdict⟩
    · rw [(Language.mem_one t).1 ht]
      rfl
    · rw [if_neg (by simp), one_mul]
      exact hmainAccounts
  | some d =>
    obtain ⟨g, hg⟩ := c.walked_lookup hinit
    have hopening := definition_accounts hmode hacyclic halias hmain hbody hfirst hvalid hg
    rw [hg] at hverdict
    obtain ⟨hempty, hrest⟩ := List.append_eq_nil_iff.1 hverdict
    obtain ⟨hclash, hshort⟩ := List.append_eq_nil_iff.1 hrest
    rw [if_pos (by rfl)]
    refine ⟨fun t ht k => (hopening.covers t ht).inits_eq_zero ?_, _,
      hopening.sequence hmainAccounts (pathDiagnostics_eq_nil.1 hclash), hshort⟩
    rw [PathSet.keys_eq_map_paths, pathDiagnostics_eq_nil.1 hempty]
    exact List.not_mem_nil

end Valid

/-- The execution starts its session with a request. What comes with the request is initialised once
by it and perhaps once more by its handler, and neither before nor after that. -/
def OpensWith (c : Checker) (op : String) (handler rest : Activity) (t : List Event) : Prop :=
  ∃ opening handled after, t = opening ++ (c.scope.received true op ++ handled ++ after) ∧
    opening ∈ c.opening ∧ handled ∈ c.scope.traces false handler ∧
    after ∈ c.scope.traces false rest ∧
    ∀ k ∈ c.scope.rebound, Event.inits k (c.scope.received true op) = 1 ∧
      Event.inits k handled ≤ 1 ∧ Event.inits k opening = 0 ∧ Event.inits k after = 0

theorem opensWith_of_request (hmode : c.mode ≠ .single) (hacyclic : c.scope.Acyclic)
    (halias : ∀ d ∈ c.scope.definitions, d.body.aliasFree = true) {main : Definition}
    {l l' : Location} {op : String} {target : Option Path} {output : Expr} {handler : Activity}
    {rest : List Activity} (hmain : c.scope.definition? c.entryName = some main)
    (hbody : main.body = .sequence l (.requestResponse l' op target output handler :: rest))
    (hvalid : c.check.valid = true) {t : List Event} (ht : t ∈ c.executions) :
    c.OpensWith op handler (.sequence l rest) t := by
  have hparted := entry_parted hmode hacyclic halias hmain hbody rfl hvalid
  obtain ⟨hopening, f, hf, -⟩ := executions_accounts hmode hacyclic halias hmain hbody rfl hvalid
  have hcovers := hf.covers t ht
  obtain ⟨u, hu, v, hv, rfl⟩ := Language.mem_mul.1 ht
  have hentry : (c.entryName == c.scope.entry) = true := beq_self_eq_true _
  rw [Scope.definitionTraces_eq hmain, hentry, hbody, Scope.traces_sequence_cons] at hv
  obtain ⟨x, hx, w, hw, rfl⟩ := Language.mem_mul.1 hv
  have hstart := hx
  rw [Scope.traces_requestResponse] at hstart
  obtain ⟨_, rfl, y, hy, rfl⟩ := Language.mem_mul.1 hstart
  refine ⟨u, y, w, rfl, hu, hy, hw, fun k hk => ?_⟩
  have hone := Scope.inits_received ((Scope.mem_rebound hmain hbody).1 hk)
  -- Two in all, one of them at the start; what comes after the request has none of them.
  have htwice := hcovers.twice k
  have hafter := hparted _ hx w hw k
  simp only [Event.inits_append] at htwice hafter
  exact ⟨hone, by omega, hopening u hu k, by omega⟩

/-- In every execution of a valid program each use of a correlation variable comes after its
initialisation. No variable is initialised twice, except that the handler of the request which
starts the session may initialise once more what came with the request. Each correlation set has a
variable with a fresh value, and nothing is initialised before the entry point runs. -/
theorem valid_execution (c : Checker) (hmode : c.mode ≠ .single) (hacyclic : c.scope.Acyclic)
    (halias : ∀ d ∈ c.scope.definitions, d.body.aliasFree = true) {main : Definition} {l : Location}
    {first : Activity} {rest : List Activity}
    (hmain : c.scope.definition? c.entryName = some main)
    (hbody : main.body = .sequence l (first :: rest)) (hfirst : first.isInput = true)
    (hvalid : c.check.valid = true) {t : List Event} (ht : t ∈ c.executions) :
    (∀ before k after, t = before ++ .use k :: after → ∃ fresh, .init k fresh ∈ before) ∧
      (∀ k, Event.inits k t ≤ 2 ∧ (k ∉ c.scope.rebound → Event.inits k t ≤ 1)) ∧
      (∀ l' op target output handler, first = .requestResponse l' op target output handler →
        c.OpensWith op handler (.sequence l rest) t) ∧
      (∀ set ∈ c.sets, ∃ p ∈ set.paths, .init p.key true ∈ t) ∧
      ∀ u ∈ c.opening, ∀ k, Event.inits k u = 0 := by
  obtain ⟨hopening, f, hf, hshort⟩ :=
    executions_accounts hmode hacyclic halias hmain hbody hfirst hvalid
  have hcovers := hf.covers t ht
  obtain ⟨hguarded, hfresh⟩ := covers_of_shortcomings hshort hf.clean hcovers
  refine ⟨?_, fun k => ⟨hcovers.twice k, hcovers.once k⟩, ?_, hfresh, hopening⟩
  · rintro before k after rfl
    by_contra hnone
    exact hguarded k (Event.unguarded_of_use fun fresh h => hnone ⟨fresh, h⟩)
  · rintro l' op target output handler rfl
    exact opensWith_of_request hmode hacyclic halias hmain hbody hvalid ht

/-- A session that starts with a request whose handler makes up the session id, and goes on with
any number of messages. -/
def loginSession : Checker where
  program := some ⟨{}, [
    .definition ⟨{}, "init", .nothing {}⟩,
    .definition ⟨{}, "main",
      .sequence {} [.requestResponse {} "login" none .missing (token "sid"), .call {} "serve"]⟩,
    .definition ⟨{}, "serve", .whileLoop {} .missing (receive "next")⟩]⟩
  correlation := some
    { sets := [corrSet "S" ["sid"]], operations := [("login", "S"), ("next", "S")] }
  fresh _ _ := ⟨false, none⟩

/-- The session id comes with the request, is made up by the handler, and is used twice. -/
def loginTrace : List Event :=
  [.init (corrPath "sid").key false, .init (corrPath "sid").key true, .use (corrPath "sid").key,
    .use (corrPath "sid").key]

theorem loginSession_acyclic : loginSession.scope.Acyclic := by
  have hall : ∀ d ∈ loginSession.scope.definitions, ∀ m ∈ d.body.calls,
      d.name = "main" ∧ m = "serve" := by decide +kernel
  have hcalls : ∀ n m, loginSession.scope.Calls n m → n = "main" ∧ m = "serve" := by
    rintro n m ⟨d, hd, hm⟩
    have hname : d.name = n := by
      simpa using List.find?_some (p := fun d : Definition => d.name == n) hd
    exact hname ▸ hall d (List.mem_of_find?_eq_some hd) m hm
  intro n h
  obtain ⟨_, hfirst, -⟩ := Relation.TransGen.head'_iff.1 h
  obtain ⟨_, -, hlast⟩ := Relation.TransGen.tail'_iff.1 h
  have hmain := (hcalls _ _ hfirst).1
  rw [(hcalls _ _ hlast).2] at hmain
  exact absurd hmain (by decide)

theorem loginTrace_mem : loginTrace ∈ loginSession.executions := by
  have hlogin : loginSession.scope.Runs true
      (.requestResponse {} "login" none .missing (token "sid"))
      ([.init (corrPath "sid").key false] ++ [.init (corrPath "sid").key true]) := by
    refine .requestResponse {} "login" none .missing (.emit ?_)
    decide +kernel
  have hserve : loginSession.scope.Runs false (.call {} "serve")
      [.use (corrPath "sid").key, .use (corrPath "sid").key] := by
    refine .call {} rfl (.whileLoop {} .missing
      [[.use (corrPath "sid").key], [.use (corrPath "sid").key]] fun t ht => ?_)
    obtain rfl : t = [.use (corrPath "sid").key] := by simpa using ht
    exact .emit (by decide +kernel)
  have hmain : loginTrace ∈ loginSession.scope.definitionTraces "main" :=
    ⟨_, rfl, .sequenceCons {} _ hlogin (.sequenceCons {} [] hserve (.sequenceNil {}))⟩
  exact Language.append_mem_mul (a := []) ⟨_, rfl, .emit rfl⟩ hmain

theorem valid_execution_login :
    loginSession.check.valid = true ∧ loginTrace ∈ loginSession.executions ∧
      (∀ before k after, loginTrace = before ++ .use k :: after →
        ∃ fresh, .init k fresh ∈ before) ∧
      Event.inits (corrPath "sid").key loginTrace = 2 ∧
      loginSession.scope.rebound = [(corrPath "sid").key] := by
  have hvalid : loginSession.check.valid = true := by decide +kernel
  have halias : ∀ d ∈ loginSession.scope.definitions, d.body.aliasFree = true := by
    decide +kernel
  exact ⟨hvalid, loginTrace_mem, (valid_execution loginSession (by decide) loginSession_acyclic
    halias rfl rfl rfl hvalid loginTrace_mem).1, by decide +kernel, by decide +kernel⟩

end Checker

end Sessions.Check
