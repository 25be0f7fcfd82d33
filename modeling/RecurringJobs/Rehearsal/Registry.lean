import RecurringJobs.Rehearsal.World
import RecurringJobs.Rehearsal.Answer

/-!
The steps that a handler may take as well: on the registry, on the engine and on the readiness
signal.  None of them takes time.
-/

namespace RecurringJobs
namespace Rehearsal
namespace World

open Answer (Response)

/-- The triggers of a view. -/
def listing (w : World) (v : JobView) (count : Nat) (start : Moment) : Response :=
  match start with
  | .given t => Answer.listing (v.nextFrom t count)
  | .now =>
    if w.clock.isReadable then Answer.listing (v.nextFrom w.clock.wall count)
    else .crash Answer.instantOverflow
  | .unheld => .answer (Answer.badInput "from")

/-- Takes a call of the registry into the world. -/
def settled (w : World) (i : Nat) (s : Station) (o : Outcome Nat (Except SchedulerError Unit)) :
    Json × World :=
  (Answer.registry o.result, w.put i s o.scheduler o.effects)

/-- Takes a call of the engine into the world. -/
def withEngine (w : World) (i : Nat) (s : Station) (called : Engine Nat × List (Effect Nat)) :
    World :=
  w.put i s { s.scheduler with engine := called.1 } called.2

def addJob (w : World) (i : Nat) (s : Station) (manner : Manner) (name plan : String)
    (performer : Performer) : Json × World :=
  let (handler, w) := w.enroll performer
  let now := w.clock.wall
  let o :=
    if manner.onReady then s.scheduler.addOnReady now name plan handler
    else s.scheduler.add now name plan handler
  let answer := if manner.must then Answer.mustAdd name o.result else Answer.registry o.result
  (answer, w.put i s o.scheduler o.effects)

/-- Takes a step on station `i` that cannot crash, if it is one of these and the station has what
it needs. -/
def calmStep? (w : World) (i : Nat) (s : Station) : Step → Option (Json × World)
  | .add manner name plan label withContext runs =>
    some (w.addJob i s manner name plan { label, withContext, runs })
  | .remove name => some (w.settled i s (s.scheduler.remove name))
  | .pause name => some (w.settled i s (s.scheduler.pause name))
  | .resume name => some (w.settled i s (s.scheduler.resume w.clock.wall name))
  | .info name =>
    match s.scheduler.info name with
    | .ok v => some (Answer.view v, w)
    | .error e => some (Answer.schedulerError e, w)
  | .report name =>
    match s.scheduler.info name with
    | .ok v => some (.text v.report, w)
    | .error e => some (Answer.schedulerError e, w)
  | .list => some (.list (s.scheduler.list.map Answer.view), w)
  | .contains name => some (.bool (s.scheduler.contains name), w)
  | .size => some (.list [.ofNat s.scheduler.size, .bool s.scheduler.isEmpty], w)
  | .state => some (.text s.scheduler.state.label, w)
  | .setRejecting rejecting =>
    match s.scheduler.engine.drive with
    | .byHand _ =>
      let engine := s.scheduler.engine.setRejecting rejecting
      some (Answer.ok, w.withEngine i s (engine, []))
    | .clockwork _ => none
  | .register plan label =>
    let (result, engine, es) := s.scheduler.engine.register w.clock.wall plan (.host label)
    let answer :=
      match result with
      | .ok id => Json.object [("id", .ofNat id)]
      | .error e => Answer.engineError e
    some (answer, w.withEngine i s (engine, es))
  | .unregister id => some (Answer.ok, w.withEngine i s (s.scheduler.engine.unregister id))
  | .startEngine true => some (Answer.ok, w.withEngine i s (s.scheduler.engine.start w.clock.wall))
  | .startEngine false => some (Answer.ok, w.withEngine i s s.scheduler.engine.startWithoutRuntime)
  | .stopEngine => some (Answer.ok, w.withEngine i s s.scheduler.engine.stop)
  | .engineState greatest => some (Answer.engine s.scheduler.engine greatest, w)
  | .notify runtime =>
    s.scheduler.ready.map fun signal =>
      let (count, signal, es) := signal.notify runtime
      (.ofNat count, w.put i s { s.scheduler with ready := some signal } es)
  | .readiness => s.scheduler.ready.map fun signal => (Answer.readiness signal, w)
  | .onReady label =>
    s.scheduler.ready.map fun signal =>
      let (signal, es) := signal.onReady true (.host label)
      (Answer.ok, w.put i s { s.scheduler with ready := some signal } es)
  | _ => none

/-- Takes a step on station `i`, if it is one of these and the station has what it needs.  The
steps that compute triggers may crash, and change nothing in any case. -/
def registryStep? (w : World) (i : Nat) (s : Station) : Step → Option (Response × World)
  | .next name count start =>
    match s.scheduler.info name with
    | .ok v => some (w.listing v count start, w)
    | .error e => some (.answer (Answer.schedulerError e), w)
  | .entryState id =>
    match s.scheduler.engine.drive with
    | .clockwork _ => some (Answer.entry s.scheduler.engine id w.clock, w)
    | .byHand _ => none
  | step => (w.calmStep? i s step).map fun p => (.answer p.1, p.2)

end World
end Rehearsal
end RecurringJobs
