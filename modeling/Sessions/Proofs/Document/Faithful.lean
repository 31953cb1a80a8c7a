import Sessions.Proofs.Document.Grammar

/-!
# Sessions.Proofs.Document.Faithful

What a value stands for, rule by rule: each kind of node has its own rule, whose paths are those
that the fields write. One rule stands something in: a `const` whose value is no constant is the
empty one (`ReadsExpr.hollow`). By these rules goes what a reading without a fault yields
(`readExpr_faithful`, `readActivity_faithful`).
-/

namespace Sessions.Document

/-- How the fields of a map are read, in the rules too: a text stands for itself and null for no
text, only `true` is true, and the line is a whole number. -/
structure FieldsRead (source : String) (es : Entries) : Prop where
  text : ∀ key s, es.get key = .text s → textOf es key = s
  empty : ∀ key, es.get key = .null → textOf es key = ""
  flag : ∀ key, flagOf es key = true ↔ es.get key = .bool true
  source_eq : (locOf source es).source = source
  line : ∀ n m, es.get "line" = .int n → WritesLiteral (.int n) (.int m) →
    (locOf source es).line = m

theorem fieldsRead {source : String} (es : Entries) : FieldsRead source es where
  text key s h := by rw [textOf, h]
  empty key h := by rw [textOf, h]
  flag key := by
    unfold flagOf
    split <;> simp_all
  source_eq := rfl
  line n m h hm := by
    rw [locOf, lineOf, h]
    exact Literal.int.inj (Option.some.inj (literal?_eq_some_iff.2 hm))

/-- The expression that a value stands for. -/
inductive ReadsExpr (source : String) : Datum → Expr → Prop where
  | null : ReadsExpr source .null .missing
  | scalar {d : Datum} {v : Literal} (h : WritesLiteral d v) : ReadsExpr source d (.constant {} v)
  | const {es : Entries} {l : Location} {v : Literal} (hkind : textOf es "kind" = "const")
      (hvalue : ReadsExpr source (es.get "value") (.constant l v)) :
      ReadsExpr source (.map es) (.constant (locOf source es) v)
  | hollow {es : Entries} {e : Expr} (hkind : textOf es "kind" = "const")
      (hvalue : ReadsExpr source (es.get "value") e) (hother : ∀ l v, e ≠ .constant l v) :
      ReadsExpr source (.map es) (.constant (locOf source es) .null)
  | var {es : Entries} {p : Path} (hkind : textOf es "kind" = "var")
      (hp : Writes source es "path" p) : ReadsExpr source (.map es) (.var (locOf source es) p)
  | new {es : Entries} (hkind : textOf es "kind" = "new") :
      ReadsExpr source (.map es) (.fresh (locOf source es))
  | binary {es : Entries} {a b : Expr} (hkind : textOf es "kind" = "binary")
      (ha : ReadsExpr source (es.get "left") a) (hb : ReadsExpr source (es.get "right") b) :
      ReadsExpr source (.map es) (.binary (locOf source es) (textOf es "op") a b)
  | incdec {es : Entries} {p : Path} (hkind : textOf es "kind" = "incdec")
      (hp : Writes source es "path" p) :
      ReadsExpr source (.map es)
        (.increment (locOf source es) p (flagOf es "pre") (flagOf es "dec"))
  | and {es : Entries} {cs : List Expr} (hkind : textOf es "kind" = "and")
      (hcs : List.Forall₂ (ReadsExpr source) (es.get "children").items cs) :
      ReadsExpr source (.map es) (.all (locOf source es) cs)
  | or {es : Entries} {cs : List Expr} (hkind : textOf es "kind" = "or")
      (hcs : List.Forall₂ (ReadsExpr source) (es.get "children").items cs) :
      ReadsExpr source (.map es) (.any (locOf source es) cs)
  | not {es : Entries} {e : Expr} (hkind : textOf es "kind" = "not")
      (he : ReadsExpr source (es.get "expr") e) :
      ReadsExpr source (.map es) (.not (locOf source es) e)
  | compare {es : Entries} {a b : Expr} (hkind : textOf es "kind" = "compare")
      (ha : ReadsExpr source (es.get "left") a) (hb : ReadsExpr source (es.get "right") b) :
      ReadsExpr source (.map es) (.compare (locOf source es) (textOf es "op") a b)
  | istype {es : Entries} {p : Path} (hkind : textOf es "kind" = "istype")
      (hp : Writes source es "path" p) :
      ReadsExpr source (.map es) (.isType (locOf source es) (textOf es "check") p)
  | cast {es : Entries} {e : Expr} (hkind : textOf es "kind" = "cast")
      (he : ReadsExpr source (es.get "expr") e) :
      ReadsExpr source (.map es) (.cast (locOf source es) (textOf es "type") e)
  | size {es : Entries} {p : Path} (hkind : textOf es "kind" = "size")
      (hp : Writes source es "path" p) : ReadsExpr source (.map es) (.size (locOf source es) p)

mutual

/-- The activity that a value stands for. -/
inductive ReadsActivity (source : String) : Datum → Activity → Prop where
  | null : ReadsActivity source .null .missing
  | list {ds : List Datum} {ps : List Activity}
      (hps : List.Forall₂ (ReadsActivity source) ds ps) :
      ReadsActivity source (.list ds) (.sequence {} ps)
  | seq {es : Entries} {ps : List Activity} (hkind : textOf es "kind" = "seq")
      (hps : List.Forall₂ (ReadsActivity source) (es.get "children").items ps) :
      ReadsActivity source (.map es) (.sequence (locOf source es) ps)
  | par {es : Entries} {ps : List Activity} (hkind : textOf es "kind" = "par")
      (hps : List.Forall₂ (ReadsActivity source) (es.get "children").items ps) :
      ReadsActivity source (.map es) (.parallel (locOf source es) ps)
  | choice {es : Entries} {bs : List Branch} (hkind : textOf es "kind" = "choice")
      (hbs : List.Forall₂ (ReadsBranch source) (es.get "branches").items bs) :
      ReadsActivity source (.map es) (.choice (locOf source es) bs)
  | cond {es : Entries} {arms : List Arm} {p : Activity} (hkind : textOf es "kind" = "if")
      (hp : ReadsActivity source (es.get "else") p)
      (harms : List.Forall₂ (ReadsArm source) (es.get "branches").items arms) :
      ReadsActivity source (.map es) (.cond (locOf source es) arms p)
  | whileLoop {es : Entries} {c : Expr} {p : Activity} (hkind : textOf es "kind" = "while")
      (hc : ReadsExpr source (es.get "cond") c) (hp : ReadsActivity source (es.get "body") p) :
      ReadsActivity source (.map es) (.whileLoop (locOf source es) c p)
  | forLoop {es : Entries} {first post body : Activity} {c : Expr}
      (hkind : textOf es "kind" = "for") (hfirst : ReadsActivity source (es.get "init") first)
      (hc : ReadsExpr source (es.get "cond") c)
      (hpost : ReadsActivity source (es.get "post") post)
      (hbody : ReadsActivity source (es.get "body") body) :
      ReadsActivity source (.map es) (.forLoop (locOf source es) first c post body)
  | forEach {es : Entries} {key target : Option Path} {p : Activity}
      (hkind : textOf es "kind" = "foreach") (hkey : MayWrite source es "key" key)
      (htarget : MayWrite source es "target" target) (hp : ReadsActivity source (es.get "body") p) :
      ReadsActivity source (.map es) (.forEach (locOf source es) key target p)
  | call {es : Entries} (hkind : textOf es "kind" = "call") :
      ReadsActivity source (.map es) (.call (locOf source es) (textOf es "name"))
  | oneway {es : Entries} {input : Option Path} (hkind : textOf es "kind" = "oneway")
      (hinput : MayWrite source es "input" input) :
      ReadsActivity source (.map es) (.oneWay (locOf source es) (textOf es "operation") input)
  | reqres {es : Entries} {input : Option Path} {output : Expr} {p : Activity}
      (hkind : textOf es "kind" = "reqres") (hinput : MayWrite source es "input" input)
      (houtput : ReadsExpr source (es.get "output") output)
      (hp : ReadsActivity source (es.get "handler") p) :
      ReadsActivity source (.map es)
        (.requestResponse (locOf source es) (textOf es "operation") input output p)
  | notify {es : Entries} {output : Expr} (hkind : textOf es "kind" = "notify")
      (houtput : ReadsExpr source (es.get "output") output) :
      ReadsActivity source (.map es)
        (.notification (locOf source es) (textOf es "operation") (textOf es "port") output)
  | solicit {es : Entries} {input : Option Path} {output : Expr}
      (hkind : textOf es "kind" = "solicit") (houtput : ReadsExpr source (es.get "output") output)
      (hinput : MayWrite source es "input" input) :
      ReadsActivity source (.map es)
        (.solicitResponse (locOf source es) (textOf es "operation") (textOf es "port") output input)
  | assign {es : Entries} {target : Path} {value : Expr} (hkind : textOf es "kind" = "assign")
      (htarget : Writes source es "target" target)
      (hvalue : ReadsExpr source (es.get "value") value) :
      ReadsActivity source (.map es) (.assign (locOf source es) target
        (if textOf es "op" = "" then "=" else textOf es "op") value)
  | incdec {es : Entries} {p : Path} (hkind : textOf es "kind" = "incdec")
      (hp : Writes source es "path" p) :
      ReadsActivity source (.map es)
        (.increment (locOf source es) p (flagOf es "pre") (flagOf es "dec"))
  | scope {es : Entries} {p : Activity} (hkind : textOf es "kind" = "scope")
      (hp : ReadsActivity source (es.get "body") p) :
      ReadsActivity source (.map es) (.scope (locOf source es) (textOf es "name") p)
  | sync {es : Entries} {p : Activity} (hkind : textOf es "kind" = "sync")
      (hp : ReadsActivity source (es.get "body") p) :
      ReadsActivity source (.map es) (.synchronized (locOf source es) (textOf es "id") p)
  | pointer {es : Entries} {left right : Path} (hkind : textOf es "kind" = "pointer")
      (hleft : Writes source es "left" left) (hright : Writes source es "right" right) :
      ReadsActivity source (.map es) (.pointer (locOf source es) left right)
  | deepcopy {es : Entries} {left right : Path} (hkind : textOf es "kind" = "deepcopy")
      (hleft : Writes source es "left" left) (hright : Writes source es "right" right) :
      ReadsActivity source (.map es) (.deepCopy (locOf source es) left right)
  | undef {es : Entries} {target : Path} (hkind : textOf es "kind" = "undef")
      (htarget : Writes source es "target" target) :
      ReadsActivity source (.map es) (.undef (locOf source es) target)
  | install {es : Entries} {hs : List Handler} (hkind : textOf es "kind" = "install")
      (hhs : List.Forall₂ (ReadsHandler source) (es.get "handlers").items hs) :
      ReadsActivity source (.map es) (.install (locOf source es) hs)
  | spawn {es : Entries} {p : Activity} (hkind : textOf es "kind" = "spawn")
      (hp : ReadsActivity source (es.get "body") p) :
      ReadsActivity source (.map es) (.spawn (locOf source es) p)
  | nothing {es : Entries} (hkind : textOf es "kind" = "nil") :
      ReadsActivity source (.map es) (.nothing (locOf source es))
  | exit {es : Entries} (hkind : textOf es "kind" = "exit") :
      ReadsActivity source (.map es) (.exit (locOf source es))
  | throw {es : Entries} (hkind : textOf es "kind" = "throw") :
      ReadsActivity source (.map es) (.throw (locOf source es) (textOf es "fault"))
  | compensate {es : Entries} (hkind : textOf es "kind" = "compensate") :
      ReadsActivity source (.map es) (.compensate (locOf source es) (textOf es "scope"))
  | linkIn {es : Entries} (hkind : textOf es "kind" = "linkin") :
      ReadsActivity source (.map es) (.linkIn (locOf source es) (textOf es "link"))
  | linkOut {es : Entries} (hkind : textOf es "kind" = "linkout") :
      ReadsActivity source (.map es) (.linkOut (locOf source es) (textOf es "link"))
  | run {es : Entries} {e : Expr} (hkind : textOf es "kind" = "run")
      (he : ReadsExpr source (es.get "code") e) :
      ReadsActivity source (.map es) (.run (locOf source es) e)
  | currentHandler {es : Entries} (hkind : textOf es "kind" = "currentHandler") :
      ReadsActivity source (.map es) (.currentHandler (locOf source es))

inductive ReadsBranch (source : String) : Datum → Branch → Prop where
  | mk {es : Entries} {guard body : Activity} (hguard : ReadsActivity source (es.get "guard") guard)
      (hbody : ReadsActivity source (es.get "body") body) :
      ReadsBranch source (.map es) ⟨guard, body⟩

inductive ReadsArm (source : String) : Datum → Arm → Prop where
  | mk {es : Entries} {c : Expr} {body : Activity} (hc : ReadsExpr source (es.get "cond") c)
      (hbody : ReadsActivity source (es.get "body") body) : ReadsArm source (.map es) ⟨c, body⟩

inductive ReadsHandler (source : String) : Datum → Handler → Prop where
  | mk {es : Entries} {body : Activity} (hbody : ReadsActivity source (es.get "body") body) :
      ReadsHandler source (.map es) ⟨textOf es "fault", body⟩

end

/-! ## Readings without a fault -/

theorem forall₂_imp_of_mem {α β : Type} {R S : α → β → Prop} {xs : List α} {ys : List β}
    (h : List.Forall₂ R xs ys) (himp : ∀ x ∈ xs, ∀ y, R x y → S x y) : List.Forall₂ S xs ys := by
  induction h with
  | nil => exact .nil
  | cons hfirst _ ih =>
    obtain ⟨hx, hxs⟩ := List.forall_mem_cons.1 himp
    exact .cons (hx _ hfirst) (ih hxs)

theorem mapsIn_map {ds : List Datum} (h : ∀ d ∈ ds, ∃ fs, d = .map fs) :
    (mapsIn ds).map .map = ds := by
  induction ds with
  | nil => rfl
  | cons d rest ih =>
    obtain ⟨⟨fs, rfl⟩, hrest⟩ := List.forall_mem_cons.1 h
    have hfirst : mapsIn (.map fs :: rest) = fs :: mapsIn rest := rfl
    rw [hfirst, List.map_cons, ih hrest]

/-- A list of maps is read element by element. -/
theorem forall₂_of_yields_mapsIn {β : Type} {f : Entries → Reading β} [∀ fs, Sticky (f fs)]
    {R : Datum → β → Prop} {ds : List Datum} {bs : List β} (hmaps : ∀ d ∈ ds, ∃ fs, d = .map fs)
    (h : Yields ((mapsIn ds).mapM f) bs)
    (himp : ∀ fs, .map fs ∈ ds → ∀ b, Yields (f fs) b → R (.map fs) b) : List.Forall₂ R ds bs := by
  have hmapped : List.Forall₂ (fun fs b => R (.map fs) b) (mapsIn ds) bs :=
    forall₂_imp_of_mem (yields_mapM_iff.1 h) fun fs hfs => himp fs (mem_mapsIn.1 hfs)
  rw [← mapsIn_map hmaps, List.forall₂_map_left_iff]
  exact hmapped

theorem readsExpr_const {source : String} {es : Entries} {e : Expr}
    (hkind : textOf es "kind" = "const") (hvalue : ReadsExpr source (es.get "value") e) :
    ReadsExpr source (.map es) (.constant (locOf source es) (literalOf e)) := by
  cases e with
  | constant l v => exact .const hkind hvalue
  | _ =>
    refine .hollow hkind hvalue fun l v h => ?_
    cases h

/-- An expression that is read without a fault is the one that the value stands for. -/
theorem readExpr_faithful (source : String) (d : Datum) (e : Expr)
    (h : Yields (readExpr source d) e) : ReadsExpr source d e := by
  match d with
  | .null =>
    unfold readExpr at h
    obtain rfl := yields_pure_iff.1 h
    exact .null
  | .bool _ | .int _ | .float _ | .text _ =>
    unfold readExpr at h
    obtain rfl := yields_pure_iff.1 h
    exact .scalar (literal?_eq_some_iff.1 rfl)
  | .list ds =>
    unfold readExpr at h
    simp [literal?] at h
  | .map es =>
    have hpart : ∀ key e, Yields (readExpr source (Entries.get es key)) e →
        ReadsExpr source (Entries.get es key) e := fun key e =>
      readExpr_faithful source (Entries.get es key) e
    have hlist : ∀ key cs, Yields (readExprs source (Entries.get es key).items) cs →
        List.Forall₂ (ReadsExpr source) (Entries.get es key).items cs := by
      intro key cs hcs
      rw [readExprs_eq, yields_mapM_iff] at hcs
      exact forall₂_imp_of_mem hcs fun d hd e => readExpr_faithful source d e
    unfold readExpr at h
    dsimp only at h
    split at h <;> rename_i hkind <;>
      simp only [yields_bind_iff, yields_pure_iff, yields_requiredPath_iff, not_yields_fail,
        false_and, exists_false] at h
    · obtain ⟨a, ha, rfl⟩ := h
      exact readsExpr_const hkind (hpart _ _ ha)
    · obtain ⟨p, hp, rfl⟩ := h
      exact .var hkind hp
    · obtain rfl := h
      exact .new hkind
    · obtain ⟨a, ha, b, hb, rfl⟩ := h
      exact .binary hkind (hpart _ _ ha) (hpart _ _ hb)
    · obtain ⟨p, hp, rfl⟩ := h
      exact .incdec hkind hp
    · obtain ⟨cs, hcs, rfl⟩ := h
      exact .and hkind (hlist _ _ hcs)
    · obtain ⟨cs, hcs, rfl⟩ := h
      exact .or hkind (hlist _ _ hcs)
    · obtain ⟨a, ha, rfl⟩ := h
      exact .not hkind (hpart _ _ ha)
    · obtain ⟨a, ha, b, hb, rfl⟩ := h
      exact .compare hkind (hpart _ _ ha) (hpart _ _ hb)
    · obtain ⟨p, hp, rfl⟩ := h
      exact .istype hkind hp
    · obtain ⟨a, ha, rfl⟩ := h
      exact .cast hkind (hpart _ _ ha)
    · obtain ⟨p, hp, rfl⟩ := h
      exact .size hkind hp
termination_by sizeOf d
decreasing_by
  · exact Entries.sizeOf_get_lt _ _
  · exact sizeOf_item_lt hd

/-- An activity that is read without a fault is the one that the value stands for. -/
theorem readActivity_faithful (source : String) (d : Datum) (p : Activity)
    (h : Yields (readActivity source d) p) : ReadsActivity source d p := by
  match d with
  | .null =>
    unfold readActivity at h
    obtain rfl := yields_pure_iff.1 h
    exact .null
  | .bool _ | .int _ | .float _ | .text _ =>
    unfold readActivity at h
    simp at h
  | .list ds =>
    unfold readActivity at h
    simp only [yields_bind_iff, yields_pure_iff, readActivities_eq, yields_mapM_iff] at h
    obtain ⟨ps, hps, rfl⟩ := h
    exact .list (forall₂_imp_of_mem hps fun d hd p => readActivity_faithful source d p)
  | .map es =>
    have hexpr : ∀ {key e}, Yields (readExpr source (Entries.get es key)) e →
        ReadsExpr source (Entries.get es key) e := fun he => readExpr_faithful source _ _ he
    have hpart : ∀ {key p}, Yields (readActivity source (Entries.get es key)) p →
        ReadsActivity source (Entries.get es key) p := fun {key p} =>
      readActivity_faithful source (Entries.get es key) p
    have hlist : ∀ {key ps}, Yields (readActivities source (Entries.get es key).items) ps →
        List.Forall₂ (ReadsActivity source) (Entries.get es key).items ps := by
      intro key ps hps
      rw [readActivities_eq, yields_mapM_iff] at hps
      exact forall₂_imp_of_mem hps fun d hd p => readActivity_faithful source d p
    have helement : ∀ {key fs}, .map fs ∈ (Entries.get es key).items → ∀ {key' p},
        Yields (readActivity source (Entries.get fs key')) p →
          ReadsActivity source (Entries.get fs key') p := fun {key fs} hfs {key' p} =>
      readActivity_faithful source (Entries.get fs key') p
    unfold readActivity at h
    dsimp only at h
    split at h <;> rename_i hkind <;>
      simp only [yields_bind_iff, yields_pure_iff, yields_requiredPath_iff, yields_pathOf_iff,
        yields_requireMaps_iff, not_yields_fail, false_and, exists_false, exists_const] at h
    · obtain ⟨ps, hps, rfl⟩ := h
      exact .seq hkind (hlist hps)
    · obtain ⟨ps, hps, rfl⟩ := h
      exact .par hkind (hlist hps)
    · obtain ⟨hmaps, bs, hbs, rfl⟩ := h
      rw [readBranches_eq] at hbs
      refine .choice hkind (forall₂_of_yields_mapsIn hmaps hbs fun fs hfs b hb => ?_)
      simp only [readBranch, yields_bind_iff, yields_pure_iff] at hb
      obtain ⟨guard, hguard, body, hbody, rfl⟩ := hb
      exact .mk (helement hfs hguard) (helement hfs hbody)
    · obtain ⟨q, hq, hmaps, arms, harms, rfl⟩ := h
      rw [readArms_eq] at harms
      refine .cond hkind (hpart hq) (forall₂_of_yields_mapsIn hmaps harms fun fs hfs b hb => ?_)
      simp only [readArm, yields_bind_iff, yields_pure_iff] at hb
      obtain ⟨c, hc, body, hbody, rfl⟩ := hb
      exact .mk (readExpr_faithful source _ _ hc) (helement hfs hbody)
    · obtain ⟨c, hc, q, hq, rfl⟩ := h
      exact .whileLoop hkind (hexpr hc) (hpart hq)
    · obtain ⟨first, hfirst, c, hc, post, hpost, body, hbody, rfl⟩ := h
      exact .forLoop hkind (hpart hfirst) (hexpr hc) (hpart hpost) (hpart hbody)
    · obtain ⟨key, hkey, target, htarget, q, hq, rfl⟩ := h
      exact .forEach hkind hkey htarget (hpart hq)
    · obtain rfl := h
      exact .call hkind
    · obtain ⟨input, hinput, rfl⟩ := h
      exact .oneway hkind hinput
    · obtain ⟨input, hinput, output, houtput, q, hq, rfl⟩ := h
      exact .reqres hkind hinput (hexpr houtput) (hpart hq)
    · obtain ⟨output, houtput, rfl⟩ := h
      exact .notify hkind (hexpr houtput)
    · obtain ⟨output, houtput, input, hinput, rfl⟩ := h
      exact .solicit hkind (hexpr houtput) hinput
    · obtain ⟨target, htarget, value, hvalue, rfl⟩ := h
      exact .assign hkind htarget (hexpr hvalue)
    · obtain ⟨q, hq, rfl⟩ := h
      exact .incdec hkind hq
    · obtain ⟨q, hq, rfl⟩ := h
      exact .scope hkind (hpart hq)
    · obtain ⟨q, hq, rfl⟩ := h
      exact .sync hkind (hpart hq)
    · obtain ⟨left, hleft, right, hright, rfl⟩ := h
      exact .pointer hkind hleft hright
    · obtain ⟨left, hleft, right, hright, rfl⟩ := h
      exact .deepcopy hkind hleft hright
    · obtain ⟨target, htarget, rfl⟩ := h
      exact .undef hkind htarget
    · obtain ⟨hmaps, hs, hhs, rfl⟩ := h
      rw [readHandlers_eq] at hhs
      refine .install hkind (forall₂_of_yields_mapsIn hmaps hhs fun fs hfs b hb => ?_)
      simp only [readHandler, yields_bind_iff, yields_pure_iff] at hb
      obtain ⟨body, hbody, rfl⟩ := hb
      exact .mk (helement hfs hbody)
    · obtain ⟨q, hq, rfl⟩ := h
      exact .spawn hkind (hpart hq)
    · obtain rfl := h
      exact .nothing hkind
    · obtain rfl := h
      exact .exit hkind
    · obtain rfl := h
      exact .throw hkind
    · obtain rfl := h
      exact .compensate hkind
    · obtain rfl := h
      exact .linkIn hkind
    · obtain rfl := h
      exact .linkOut hkind
    · obtain ⟨e, he, rfl⟩ := h
      exact .run hkind (hexpr he)
    · obtain rfl := h
      exact .currentHandler hkind
termination_by sizeOf d
decreasing_by
  · exact sizeOf_listed_lt hd
  · exact Entries.sizeOf_get_lt _ _
  · exact sizeOf_item_lt hd
  · exact sizeOf_element_lt hfs

end Sessions.Document
