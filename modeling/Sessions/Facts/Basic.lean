import Sessions.Facts.PathSet

/-!
# Sessions.Facts.Basic

What is known about a fragment of a program: the paths that are certainly initialised when it ends
(`providedVar`, `providedCorr`), the paths it uses without initialising them first (`neededVar`,
`neededCorr`), and the paths that can no longer be tracked, because they got an alias or were
removed (`invalidated`).
-/

namespace Sessions

structure Facts where
  providedVar : PathSet := {}
  providedCorr : PathSet := {}
  neededVar : PathSet := {}
  neededCorr : PathSet := {}
  invalidated : PathSet := {}
deriving Inhabited

namespace Facts

/-- Nothing is known. -/
def empty : Facts := {}

/-- The path is initialised. Freshness of ordinary paths is not kept. -/
def provide (f : Facts) (p : Path) (fresh : Bool) : Facts :=
  if p.isCorrelation then { f with providedCorr := f.providedCorr.add p fresh }
  else { f with providedVar := f.providedVar.add p false }

def provides (f : Facts) (p : Path) : Bool :=
  if p.isCorrelation then f.providedCorr.contains p else f.providedVar.contains p

/-- The path has to be initialised by what came before. -/
def need (f : Facts) (p : Path) : Facts :=
  if p.isCorrelation then { f with neededCorr := f.neededCorr.add p false }
  else { f with neededVar := f.neededVar.add p false }

def needs (f : Facts) (p : Path) : Bool :=
  if p.isCorrelation then f.neededCorr.contains p else f.neededVar.contains p

/-- The path can no longer be tracked. An ordinary path is then no longer provided; a correlation
path stays provided, so that initialising it again is still noticed. -/
def invalidate (f : Facts) (p : Path) : Facts :=
  { f with
    invalidated := f.invalidated.add p false
    providedVar := f.providedVar.remove p }

/-- The path is tracked again. -/
def revalidate (f : Facts) (p : Path) : Facts :=
  { f with invalidated := f.invalidated.remove p }

/-- Whether the correlation path is provided and still tracked, so that it can satisfy a need or
count as fresh. -/
def available (f : Facts) (p : Path) : Bool :=
  f.providedCorr.contains p && !f.invalidated.contains p

def needAll (f g : Facts) : Facts :=
  (g.neededCorr.paths ++ g.neededVar.paths).foldl need f

def provideAll (f g : Facts) : Facts :=
  g.providedVar.paths.foldl (fun f p => f.provide p false)
    (g.providedCorr.entries.foldl (fun f e => f.provide e.path e.fresh) f)

def invalidateAll (f g : Facts) : Facts :=
  g.invalidated.paths.foldl invalidate f

def isEmpty (f : Facts) : Bool :=
  f.providedVar.isEmpty && f.providedCorr.isEmpty && f.neededVar.isEmpty &&
  f.neededCorr.isEmpty && f.invalidated.isEmpty

end Facts

end Sessions
