import Sessions.Facts.Basic

/-!
# Sessions.Facts.Merge

The facts of a compound activity from those of its parts. Each merge also returns the correlation
paths over which the two parts are in conflict; what a conflict means is for the caller to say.
-/

namespace Sessions.Facts

/-- The needs of `b` that `a`, running before it, does not satisfy. A need of a path that `b`
invalidates as well is kept: the facts do not tell which of the two came first. -/
def unmetNeeds (a b : Facts) : List Path :=
  (b.neededVar.paths.filter fun p => !a.providedVar.contains p || b.invalidated.contains p) ++
  (b.neededCorr.paths.filter fun p => !a.available p)

/-- Provides a correlation path that is not provided yet. -/
def provideNew (f : Facts) (e : PathEntry) : Facts :=
  if f.providedCorr.contains e.path then f
  else { f with providedCorr := f.providedCorr.add e.path e.fresh }

/-- Provides an ordinary path. -/
def provideVar (f : Facts) (p : Path) : Facts :=
  { f with providedVar := f.providedVar.add p false }

/-- The paths among the entries that are provided already when their turn comes. -/
def clashes (f : Facts) (es : List PathEntry) : List Path :=
  (es.filter fun e => f.providedCorr.contains e.path).map (·.path)

/-- `a` and then `b`. The conflicts are the correlation paths that both provide. -/
def sequence (a b : Facts) : Facts × List Path :=
  let needy := (unmetNeeds a b).foldl need a
  let spoiled := needy.invalidateAll b
  let bound := b.providedCorr.entries.foldl
    (fun f e => (f.provideNew e).revalidate e.path) spoiled
  let result := b.providedVar.paths.foldl (fun f p => (f.provideVar p).revalidate p) bound
  (result, clashes a b.providedCorr.entries)

/-- `a` and `b` in no relative order, so that neither satisfies a need of the other. The conflicts
are the correlation paths that both provide. -/
def parallel (a b : Facts) : Facts × List Path :=
  let spoiled := (a.needAll b).invalidateAll b
  let bound := b.providedCorr.entries.foldl provideNew spoiled
  let result := (b.providedVar.paths.filter fun p => !a.invalidated.contains p).foldl
    provideVar bound
  (result, clashes a b.providedCorr.entries)

/-- The entries of `es` that `other` lacks. -/
def lacking (other : PathSet) (es : List PathEntry) : List PathEntry :=
  es.filter fun e => !other.contains e.path

/-- Either `a` or `b`. An ordinary path is provided only if both provide it, and a correlation path
that both provide is fresh only if it is fresh in both. The conflicts are the correlation paths
that only one provides. -/
def choice (a b : Facts) : Facts × List Path :=
  let needy := (empty.needAll a).needAll b
  let common (e : PathEntry) : Bool :=
    match b.providedCorr.get? e.path with
    | some f => e.fresh && f.fresh
    | none => e.fresh
  let corr := a.providedCorr.entries.foldl (fun s e => s.add e.path (common e)) PathSet.empty
  let corr := (lacking a.providedCorr b.providedCorr.entries).foldl
    (fun s e => s.add e.path e.fresh) corr
  let var := (a.providedVar.paths.filter b.providedVar.contains).foldl
    (fun s p => s.add p false) PathSet.empty
  let provided := { needy with providedCorr := corr, providedVar := var }
  let result := (provided.invalidateAll a).invalidateAll b
  (result, ((lacking b.providedCorr a.providedCorr.entries) ++
    (lacking a.providedCorr b.providedCorr.entries)).map (·.path))

/-- An operation and the handler that serves it. The handler may initialise a correlation variable
that the operation initialises too, which makes it fresh rather than a conflict. -/
def handler (op body : Facts) : Facts :=
  let needy := (unmetNeeds op body).foldl need op
  let spoiled := needy.invalidateAll body
  let tracked := (body.providedVar.paths ++ body.providedCorr.paths).foldl revalidate spoiled
  tracked.provideAll body

end Sessions.Facts
