import Sessions.Proofs.Facts.Fresher

/-!
# Sessions.Proofs.Facts.Handler

An operation and its handler amount to the operation and then the handler (`handler_sequence`). The
two merges differ where both parts provide a correlation path: in a sequence that is a conflict and
the path keeps its flag, while the handler of an operation passes its flag on.
-/

namespace Sessions.Facts

/-- An operation and its handler, compared with the operation and then the handler. -/
theorem handler_sequence (op : Facts) {body : Facts} (hbody : body.Apart) :
    (op.handler body).providedVar = (op.sequence body).1.providedVar ∧
    (op.handler body).neededVar = (op.sequence body).1.neededVar ∧
    (op.handler body).neededCorr = (op.sequence body).1.neededCorr ∧
    (op.handler body).invalidated = (op.sequence body).1.invalidated ∧
    (op.handler body).providedCorr.paths = (op.sequence body).1.providedCorr.paths ∧
    (∀ p : Path, p.key ∉ (op.sequence body).2.map Path.key →
      (op.handler body).providedCorr.get? p = (op.sequence body).1.providedCorr.get? p) ∧
    (∀ p : Path, p.key ∈ (op.sequence body).2.map Path.key →
      ∃ e x, op.providedCorr.get? p = some e ∧ body.providedCorr.get? p = some x ∧
        (op.sequence body).1.providedCorr.get? p = some e ∧
        (op.handler body).providedCorr.get? p = some ⟨e.path, e.fresh || x.fresh⟩) := by
  have hafter (p : Path) : (op.sequence body).1.providedCorr.get? p =
      (op.providedCorr.get? p).or (body.providedCorr.get? p) := by
    rw [sequence_fields]
    exact PathSet.get?_addNewAll
  have hserved (p : Path) : (op.handler body).providedCorr.get? p =
      Option.merge PathEntry.refreshedBy (op.providedCorr.get? p) (body.providedCorr.get? p) := by
    rw [handler_fields op hbody]
    exact PathSet.get?_addAll hbody.providedCorr.nodup
  refine ⟨?_, ?_, ?_, ?_, ?_, fun p hp => ?_, fun p hp => ?_⟩
  · rw [handler_fields op hbody, sequence_fields]
  · rw [handler_fields op hbody, sequence_fields]
  · rw [handler_fields op hbody, sequence_fields]
  · rw [handler_fields op hbody, sequence_fields]
    show (op.invalidated.addPaths _).removeAll (_ ++ _) = _
    rw [PathSet.removeAll_append, PathSet.removeAll_comm]
  · rw [handler_fields op hbody, sequence_fields]
    show (op.providedCorr.addAll _).paths = (op.providedCorr.addNewAll _).paths
    rw [PathSet.paths_addAll, PathSet.paths_addNewAll]
  · rw [hafter, hserved]
    rw [mem_conflicts, not_and_or, ← PathSet.get?_eq_none, ← PathSet.get?_eq_none] at hp
    rcases hp with hop | hnone
    · rw [hop]
      cases body.providedCorr.get? p <;> rfl
    · rw [hnone]
      cases op.providedCorr.get? p <;> rfl
  · rw [hafter, hserved]
    rw [mem_conflicts, ← PathSet.get?_isSome, ← PathSet.get?_isSome] at hp
    obtain ⟨e, he⟩ := Option.isSome_iff_exists.1 hp.1
    obtain ⟨x, hx⟩ := Option.isSome_iff_exists.1 hp.2
    rw [he, hx]
    exact ⟨e, x, rfl, rfl, rfl, rfl⟩

def sessionId : Path := ⟨{}, [⟨"csets", none⟩, ⟨"sid", none⟩]⟩

/-- An operation that binds the session id to what comes with the message. -/
def login : Facts :=
  (empty.provide sessionId false).provide ⟨{}, [⟨"user", none⟩]⟩ false

/-- A handler that gives the session id a fresh value and drops a variable of the operation. -/
def welcome : Facts :=
  ((empty.provide sessionId true).need ⟨{}, [⟨"locale", none⟩]⟩).invalidate ⟨{}, [⟨"user", none⟩]⟩

/-- The session id is a conflict of the sequence, and fresh only with the handler. -/
theorem handler_sequence_login :
    welcome.Apart ∧ sessionId.key ∈ (login.sequence welcome).2.map Path.key ∧
      (login.handler welcome).neededVar = (login.sequence welcome).1.neededVar ∧
      ((login.handler welcome).providedCorr.get? sessionId).map (·.fresh) = some true ∧
      ((login.sequence welcome).1.providedCorr.get? sessionId).map (·.fresh) = some false := by
  have hapart : welcome.Apart := by decide +kernel
  have hconflict : sessionId.key ∈ (login.sequence welcome).2.map Path.key := by decide +kernel
  obtain ⟨-, hneeds, -, -, -, -, hfresh⟩ := handler_sequence login hapart
  obtain ⟨e, x, he, hx, hseq, hhandler⟩ := hfresh sessionId hconflict
  have helogin : e.fresh = false := by
    have h : (login.providedCorr.get? sessionId).map (·.fresh) = some false := by decide +kernel
    rw [he] at h
    exact Option.some.inj h
  have hxwelcome : x.fresh = true := by
    have h : (welcome.providedCorr.get? sessionId).map (·.fresh) = some true := by decide +kernel
    rw [hx] at h
    exact Option.some.inj h
  refine ⟨hapart, hconflict, hneeds, ?_, ?_⟩
  · rw [hhandler, Option.map_some, hxwelcome, Bool.or_true]
  · rw [hseq, Option.map_some, helogin]

end Sessions.Facts
