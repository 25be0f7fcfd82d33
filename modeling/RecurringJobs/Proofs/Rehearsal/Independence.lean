import RecurringJobs.Proofs.Rehearsal.Passing
import RecurringJobs.Proofs.Rehearsal.Steps

/-!
Rehearsals that differ in what their handlers do.

Handlers that take no steps may be as slow as they like, and fail or crash: every entry is triggered
when it would have been, and after every step the schedulers are the same.  So nothing that the
triggers depend on waits for a run, or is told how it ended.
-/

namespace RecurringJobs
namespace Rehearsal

/-- The turn without what is told about a handler. -/
def Turn.bare (t : Turn) : Turn := { t with step := t.step.bare }

theorem Step.verb_bare (step : Step) : step.bare.verb = step.verb := by
  cases step with
  | add manner => obtain ⟨onReady, must⟩ := manner; cases onReady <;> cases must <;> rfl
  | _ => rfl

/-- The answer to a step and the time after it. -/
def Result.told (r : Result) : Json × Option Nat := (r.answer, r.after.map Prod.fst)

namespace World

variable {w w' : World}

/-! ## Rehearsals -/

/-- What is left of the world when a step has been taken, and the answer. -/
def stepped (w : World) (s : Station) (t : Turn) : Json × World :=
  (w.take? t.station s t.step).getD (Answer.badInput s!"step '{t.step.verb}'", w)

/-- What is triggered while a step is taken.  On clockwork that takes time that passes. -/
def stepTriggers (w : World) : Step → List Triggered
  | .advance millis => w.passTriggers (millis * TimeUnit.nanosPerMilli)
  | _ => []

/-- What is triggered during a turn. -/
def turnTriggers (w : World) (t : Turn) : List Triggered :=
  match w.station? t.station with
  | none => []
  | some s => w.stepTriggers t.step ++ (w.stepped s t).2.settleTriggers

/-- The world after these turns. -/
def after (w : World) : List Turn → World
  | [] => w
  | t :: ts => (w.turn t).2.after ts

/-- What is triggered in the course of these turns, in order. -/
def triggers (w : World) : List Turn → List Triggered
  | [] => []
  | t :: ts => w.turnTriggers t ++ (w.turn t).2.triggers ts

/-! ## Turns -/

/-- Both worlds are as they should be, and alike. -/
structure Twins (w w' : World) : Prop where
  alike : w.Alike w'
  steady : w.IsSteady
  steady' : w'.IsSteady

theorem Twins.settle (h : w.Twins w') :
    w.settle.Twins w'.settle ∧ w'.settleTriggers = w.settleTriggers := by
  obtain ⟨hleft, htriggers⟩ := h.alike.settle h.steady h.steady'
  exact ⟨⟨hleft, h.steady.settle.steady, h.steady'.settle.steady⟩, htriggers.symm⟩

/-- Everything happens in both that can at this reading of the clock, and what waits for no time is
woken up. -/
theorem Twins.reached (h : w.Twins w') :
    (w.settle.reach w.clock.elapsed).Twins (w'.settle.reach w'.clock.elapsed) := by
  have hreached := (h.steady.reached (Nat.le_refl _) h.steady.whole).steady
  have hreached' := (h.steady'.reached (Nat.le_refl _) h.steady'.whole).steady
  have hlike := h.settle.1.alike.reach w.clock.elapsed
  rw [h.alike.clock] at hreached' ⊢
  exact ⟨hlike, hreached, hreached'⟩

/-- Time passes in both, and nothing depends on how long the handlers take. -/
theorem Twins.pass (h : w.Twins w') (millis : Nat) :
    let nanos := millis * TimeUnit.nanosPerMilli
    (w.pass nanos).settle.Twins (w'.pass nanos).settle ∧
      w'.passTriggers nanos ++ (w'.pass nanos).settleTriggers =
        w.passTriggers nanos ++ (w.pass nanos).settleTriggers := by
  intro nanos
  obtain ⟨hworld, htriggers⟩ := h.steady.pass millis
  obtain ⟨hworld', htriggers'⟩ := h.steady'.pass millis
  obtain ⟨hlike, hsteady, hsteady'⟩ := h.reached
  obtain ⟨hleft, hsame⟩ := hlike.crawl hsteady hsteady' millis
  rw [hworld, hworld', htriggers, htriggers', h.settle.2, hsame]
  exact ⟨⟨hleft, (hsteady.crawl millis).1, (hsteady'.crawl millis).1⟩, rfl⟩

/-- The turns come to the same. -/
structure SameTurn (w w' : World) (t t' : Turn) : Prop where
  twins : (w.turn t).2.Twins (w'.turn t').2
  told : (w'.turn t').1.told = (w.turn t).1.told
  triggers : w'.turnTriggers t' = w.turnTriggers t

theorem turn_of_no_station {t : Turn} (hs : w.station? t.station = none) :
    w.turn t = ({ answer := Answer.badInput "i" }, w) ∧ w.turnTriggers t = [] := by
  unfold turn turnTriggers
  rw [hs]
  exact ⟨rfl, rfl⟩

theorem turn_of_station {t : Turn} {s : Station} (hs : w.station? t.station = some s) :
    (w.turn t).1.told = ((w.stepped s t).1, some (w.stepped s t).2.settle.time) ∧
      (w.turn t).2 = { (w.stepped s t).2.settle with foreground := [], background := [] } ∧
      w.turnTriggers t = w.stepTriggers t.step ++ (w.stepped s t).2.settleTriggers := by
  unfold turn turnTriggers
  rw [hs]
  exact ⟨rfl, rfl, rfl⟩

theorem beside_collected (w : World) :
    w.Beside { w with foreground := [], background := [] } :=
  ⟨rfl, rfl, rfl, rfl, rfl, [], by simp⟩

/-- A turn comes to the same when its step does. -/
theorem Twins.sameTurn (h : w.Twins w') {t t' : Turn} (hstation : t'.station = t.station)
    {s : Station} (hs : w.station? t.station = some s)
    (hanswer : (w'.stepped s t').1 = (w.stepped s t).1)
    (hsettled : (w.stepped s t).2.settle.Twins (w'.stepped s t').2.settle)
    (htriggers : w'.stepTriggers t'.step ++ (w'.stepped s t').2.settleTriggers =
      w.stepTriggers t.step ++ (w.stepped s t).2.settleTriggers) : SameTurn w w' t t' := by
  have hs' : w'.station? t'.station = some s := by
    rw [hstation]
    exact (h.alike.station? _).trans hs
  obtain ⟨htold, hleft, hturn⟩ := turn_of_station hs
  obtain ⟨htold', hleft', hturn'⟩ := turn_of_station hs'
  have hbeside := beside_collected (w.stepped s t).2.settle
  have hbeside' := beside_collected (w'.stepped s t').2.settle
  refine ⟨?_, ?_, ?_⟩
  · rw [hleft, hleft']
    exact ⟨(hbeside.alike.symm.trans hsettled.alike).trans hbeside'.alike,
      hbeside.isSteady hsettled.steady, hbeside'.isSteady hsettled.steady'⟩
  · rw [htold, htold', hanswer]
    unfold time
    rw [hsettled.alike.clock]
  · rw [hturn, hturn', htriggers]

theorem Twins.turn_advance (h : w.Twins w') {i millis : Nat} {s : Station}
    (hs : w.station? i = some s) :
    SameTurn w w' { station := i, step := .advance millis }
      { station := i, step := .advance millis } := by
  obtain ⟨hsettled, htriggers⟩ := h.pass millis
  exact h.sameTurn rfl hs rfl hsettled htriggers

theorem stepTriggers_of_not_advance {step : Step} (h : ∀ millis, step ≠ .advance millis)
    (w : World) : w.stepTriggers step = [] := by
  cases step with
  | advance millis => exact absurd rfl (h millis)
  | _ => rfl

/-- A step that takes no time. -/
theorem Twins.turn_calm (h : w.Twins w') {t t' : Turn} (hstation : t'.station = t.station)
    (hbare : t'.step.bare = t.step.bare) (hquiet : t.step.isQuiet = true)
    (hquiet' : t'.step.isQuiet = true) {s : Station} (hs : w.station? t.station = some s)
    (hpass : ∀ millis, t.step ≠ .advance millis) (hpass' : ∀ millis, t'.step ≠ .advance millis) :
    SameTurn w w' t t' := by
  have hstepped : (w'.stepped s t').1 = (w.stepped s t).1 ∧
      (w.stepped s t).2.Twins (w'.stepped s t').2 := by
    unfold stepped
    rw [hstation]
    rcases h.alike.taken h.steady h.steady' hs hbare hquiet hquiet' hpass with
      ⟨hnone, hnone'⟩ | ⟨a, v, v', hsome, hsome', hlike, hv, hv'⟩
    · have hverb : t'.step.verb = t.step.verb := by
        rw [← Step.verb_bare, hbare, Step.verb_bare]
      rw [hnone, hnone', hverb]
      exact ⟨rfl, h⟩
    · rw [hsome, hsome']
      exact ⟨rfl, hlike, hv, hv'⟩
  obtain ⟨hsettled, htriggers⟩ := hstepped.2.settle
  refine h.sameTurn hstation hs hstepped.1 hsettled ?_
  rw [stepTriggers_of_not_advance hpass, stepTriggers_of_not_advance hpass', htriggers]

theorem Twins.turn (h : w.Twins w') {t t' : Turn} (hbare : t'.bare = t.bare)
    (hquiet : t.step.isQuiet = true) (hquiet' : t'.step.isQuiet = true) : SameTurn w w' t t' := by
  obtain ⟨hstation, hstep⟩ : t'.station = t.station ∧ t'.step.bare = t.step.bare := by
    simpa [Turn.bare] using hbare
  cases hs : w.station? t.station with
  | none =>
    have hs' : w'.station? t'.station = none := by
      rw [hstation]
      exact (h.alike.station? _).trans hs
    obtain ⟨hturn, htriggers⟩ := turn_of_no_station hs
    obtain ⟨hturn', htriggers'⟩ := turn_of_no_station hs'
    refine ⟨?_, ?_, ?_⟩
    · rw [hturn, hturn']
      exact h
    · rw [hturn, hturn']
    · rw [htriggers, htriggers']
  | some s =>
    by_cases hpass : ∃ millis, t.step = .advance millis
    · obtain ⟨millis, hmillis⟩ := hpass
      obtain ⟨i, step⟩ := t
      obtain ⟨i', step'⟩ := t'
      obtain rfl : i' = i := hstation
      obtain rfl : step = .advance millis := hmillis
      obtain rfl : step' = .advance millis := Step.eq_of_bare_eq hstep rfl
      exact h.turn_advance hs
    · have hnot : ∀ millis, t.step ≠ .advance millis := fun millis heq => hpass ⟨millis, heq⟩
      refine h.turn_calm hstation hstep hquiet hquiet' hs hnot fun millis heq => ?_
      rw [heq] at hstep
      exact hnot millis (Step.eq_of_bare_eq hstep.symm rfl)

/-! ## Whole rehearsals -/

/-- Turn by turn the same is told, and the same is triggered. -/
theorem Twins.turns (h : w.Twins w') {ts ts' : List Turn}
    (hbare : ts'.map Turn.bare = ts.map Turn.bare) (hquiet : ∀ t ∈ ts, t.step.isQuiet = true)
    (hquiet' : ∀ t ∈ ts', t.step.isQuiet = true) :
    (w.after ts).Twins (w'.after ts') ∧
      (w'.turns ts').map Result.told = (w.turns ts).map Result.told ∧
      w'.triggers ts' = w.triggers ts := by
  induction ts generalizing w w' ts' with
  | nil =>
    obtain rfl : ts' = [] := by simpa using hbare
    exact ⟨h, rfl, rfl⟩
  | cons t ts ih =>
    cases ts' with
    | nil => simp at hbare
    | cons t' ts' =>
      obtain ⟨hfirst, hrest⟩ : t'.bare = t.bare ∧ ts'.map Turn.bare = ts.map Turn.bare := by
        simpa using hbare
      have hturn := h.turn hfirst (hquiet t (by simp)) (hquiet' t' (by simp))
      obtain ⟨hleft, htold, htriggers⟩ := ih hturn.twins hrest
        (fun u hu => hquiet u (by simp [hu])) (fun u hu => hquiet' u (by simp [hu]))
      refine ⟨hleft, ?_, ?_⟩
      · show (w'.turn t').1.told :: ((w'.turn t').2.turns ts').map Result.told =
          (w.turn t).1.told :: ((w.turn t).2.turns ts).map Result.told
        rw [hturn.told, htold]
      · show w'.turnTriggers t' ++ _ = w.turnTriggers t ++ _
        rw [hturn.triggers, htriggers]

end World

theorem opening_isSteady {start : Instant} (hstart : start.nanos < 2 * TimeUnit.nanosPerSecond)
    (uptime : Nat) {settings : List Setting} (hclockwork : ∀ x ∈ settings, x.clockwork = true) :
    (opening start uptime settings).IsSteady := by
  refine ⟨hstart, Nat.dvd_mul_left _ uptime, ?_, ?_, ?_, ?_⟩
  · intro s hs
    obtain ⟨x, hx, rfl⟩ := List.mem_map.mp hs
    have hengine : x.station.scheduler.engine = .clockwork := by
      simp [Setting.station, hclockwork x hx]
    rw [hengine]
    exact Engine.isTicking_clockwork _
  · intro p hp
    cases hp
  · intro t ht
    cases ht
  · intro s hs
    cases hs

/-- Two rehearsals in which the same is asked of the same schedulers, all driven by clockwork, and
no handler takes steps.  Whatever the handlers do, and however long they take, each step is answered
in the same way; and when any number of steps has been taken, the schedulers are the same, with
their jobs, entries, timers and locks, and the same entries have been triggered, those that renew
locks among them, for the same instants and at the same readings of the clocks.  Every handler has
been called as often. -/
theorem handlers_change_no_trigger {start : Instant}
    (hstart : start.nanos < 2 * TimeUnit.nanosPerSecond) (uptime : Nat) {settings : List Setting}
    (hclockwork : ∀ x ∈ settings, x.clockwork = true) {ts ts' : List Turn}
    (hbare : ts'.map Turn.bare = ts.map Turn.bare) (hquiet : ∀ t ∈ ts, t.step.isQuiet = true)
    (hquiet' : ∀ t ∈ ts', t.step.isQuiet = true) :
    let first := opening start uptime settings
    (session start uptime settings ts').map Result.told =
        (session start uptime settings ts).map Result.told ∧
      ∀ count,
        let w := first.after (ts.take count)
        let w' := first.after (ts'.take count)
        w'.stations = w.stations ∧ w'.store = w.store ∧ w'.clock = w.clock ∧
          first.triggers (ts'.take count) = first.triggers (ts.take count) ∧
          w'.performers.map Performer.calls = w.performers.map Performer.calls := by
  intro first
  have hsteady : first.IsSteady := opening_isSteady hstart uptime hclockwork
  have htwins : first.Twins first := ⟨World.Alike.refl _, hsteady, hsteady⟩
  refine ⟨(htwins.turns hbare hquiet hquiet').2.1, ?_⟩
  intro count
  have hprefix : (ts'.take count).map Turn.bare = (ts.take count).map Turn.bare := by
    rw [List.map_take, List.map_take, hbare]
  obtain ⟨hleft, -, htriggers⟩ := htwins.turns hprefix
    (fun t ht => hquiet t (List.mem_of_mem_take ht))
    (fun t ht => hquiet' t (List.mem_of_mem_take ht))
  exact ⟨hleft.alike.stations, hleft.alike.store, hleft.alike.clock, htriggers, hleft.alike.calls⟩

/-- A job every second and one every two, of which the first is paused for a while. -/
def shift (first second : List Action) : List Turn :=
  [.add {} "one" "@every 1s" "first" false first, .add {} "two" "@every 2s" "second" true second,
    .start, .advance 2500, .pause "one", .advance 2000, .resume "one", .advance 1500, .stop].map
      fun step => { station := 0, step }

/-- The first run of the first job is still going on when the job is triggered again, and so is that
of the second when it has been triggered for the last time. -/
def sluggish : List Turn :=
  shift [.sleep 2600 (.fail "late"), .sleep 900 (.panic .nonText), .other "no"]
    [.sleep 5000 (.resolve .flag .finish)]

def brisk : List Turn := shift [.finish] [.finish]

/-- A lock that is held, and renewed every two seconds. -/
def guarded : List Setting :=
  [{ clockwork := true, refreshSeconds := 2, lock := some (.scripted { held := true }) }]

theorem sluggish_as_brisk :
    let first := opening { seconds := 1710072000 } 4000 guarded
    (session { seconds := 1710072000 } 4000 guarded sluggish).map Result.told =
        (session { seconds := 1710072000 } 4000 guarded brisk).map Result.told ∧
      (first.triggers sluggish).map (fun x => (x.entry, x.due.seconds - 1710072000)) =
        [(1, 1), (2, 2), (3, 2), (1, 2), (2, 4), (3, 4), (4, 5), (2, 6), (3, 6), (4, 6)] ∧
      (first.after sluggish).performers.map Performer.calls = [4, 3] := by
  intro first
  have hstart : ({ seconds := 1710072000 } : Instant).nanos < 2 * TimeUnit.nanosPerSecond := by
    decide
  have hclockwork : ∀ x ∈ guarded, x.clockwork = true := by decide
  have hbare : sluggish.map Turn.bare = brisk.map Turn.bare := rfl
  have hquiet : ∀ t ∈ brisk, t.step.isQuiet = true := by decide
  have hquiet' : ∀ t ∈ sluggish, t.step.isQuiet = true := by decide
  obtain ⟨htold, hcourse⟩ :=
    handlers_change_no_trigger hstart 4000 hclockwork hbare hquiet hquiet'
  obtain ⟨-, -, -, htriggers, hcalls⟩ := hcourse 9
  have htriggers' : first.triggers sluggish = first.triggers brisk := htriggers
  have hcalls' : (first.after sluggish).performers.map Performer.calls =
      (first.after brisk).performers.map Performer.calls := hcalls
  refine ⟨htold, ?_, ?_⟩
  · rw [htriggers']
    decide +kernel
  · rw [hcalls']
    decide +kernel

end Rehearsal
end RecurringJobs
