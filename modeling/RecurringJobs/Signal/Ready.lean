import RecurringJobs.Effect

/-!
The readiness signal: callbacks that wait until the host says once that it is ready.
-/

namespace RecurringJobs

structure ReadySignal (η : Type) where
  ready : Bool := false
  /-- The callbacks that wait, in the order in which they came. -/
  pending : List (ReadyCallback η) := []
deriving Repr, DecidableEq

variable {η : Type}

namespace ReadySignal

/-- What becomes of a callback whose time has come: it is run in the background, or dropped where
nothing can run there. -/
def release (runtime : Bool) (c : ReadyCallback η) : Effect η :=
  if runtime then .spawn c else .log .readyDropped

/-- The host is ready.  The first time, all that waits is released; every other time nothing
happens.  Gives the number of callbacks released. -/
def notify (s : ReadySignal η) (runtime : Bool) : Nat × ReadySignal η × List (Effect η) :=
  if s.ready then (0, s, [])
  else
    (s.pending.length, { ready := true, pending := [] },
      .log (.serverReady s.pending.length) :: s.pending.map (release runtime))

/-- Queues a callback, or releases it at once when the host is ready. -/
def onReady (s : ReadySignal η) (runtime : Bool) (c : ReadyCallback η) :
    ReadySignal η × List (Effect η) :=
  if s.ready then (s, [release runtime c])
  else
    let pending := s.pending ++ [c]
    ({ s with pending }, [.log (.readyQueued pending.length)])

end ReadySignal
end RecurringJobs
