import RecurringJobs.Proofs.Engine.Moves
import RecurringJobs.Proofs.Plan.Sequence
import RecurringJobs.Scheduler.Basic

/-!
The instants for which a timer triggers its entry.

A timer that goes off looks for its next trigger from the one that was due or from what the clock
reads, whichever is later, while the list of a plan's triggers goes from each one to the next.  As
long as the clock is read less than a second after the trigger, both come to the same.
-/

namespace RecurringJobs

variable {η : Type}

/-! ## One timer of an engine -/

namespace Engine

namespace IsSound

variable {e : Engine η} {t : Timer η}

theorem find?_timer (h : e.IsSound) (ht : t ∈ e.timers) :
    (e.timers.find? fun u => u.serial = t.serial) = some t :=
  find?_of_nodup_map h.serials_nodup ht

theorem due?_of_mem (h : e.IsSound) (ht : t ∈ e.timers) : e.due? t.serial = t.due := by
  unfold due?
  rw [h.find?_timer ht]
  rfl

theorem work_of_mem (h : e.IsSound) (ht : t ∈ e.timers) {x : Entry η} (hx : x ∈ e.entries)
    (hid : t.id = x.id) : t.plan = x.plan ∧ t.callback = x.callback := by
  have hwork : t.work ∈ e.timers.map Timer.work := List.mem_map_of_mem ht
  rw [h.timed] at hwork
  split at hwork
  · obtain ⟨y, hy, hsame⟩ := List.mem_map.mp hwork
    unfold Timer.work Entry.work at hsame
    simp only [Prod.mk.injEq] at hsame
    obtain ⟨hyid, hplan, hcallback⟩ := hsame
    rw [h.eq_of_id_eq hx hy (hid.symm.trans hyid.symm)]
    exact ⟨hplan.symm, hcallback.symm⟩
  · cases hwork

theorem isRunning_of_mem (h : e.IsSound) (ht : t ∈ e.timers) : e.isRunning = true := by
  cases hrun : e.isRunning with
  | true => rfl
  | false =>
    rw [h.timers_eq_nil hrun] at ht
    cases ht

end IsSound

/-- A timer is cancelled when the engine is stopped or its entry is removed. -/
def Turn.Cancels (u : Turn η) (id : Nat) : Prop :=
  match u.move with
  | .stop => True
  | .unregister n => n = id
  | _ => False

def Turn.isFire (u : Turn η) (serial : Nat) : Bool :=
  match u.move with
  | .fire n => n = serial
  | _ => false

/-- A timer that is neither cancelled nor goes off stays as it is. -/
theorem IsSound.mem_take {e : Engine η} (h : e.IsSound) {t : Timer η} (ht : t ∈ e.timers)
    {u : Turn η} (hkept : ¬u.Cancels t.id) (hquiet : u.isFire t.serial = false) :
    t ∈ (e.take u).timers := by
  obtain ⟨now, move⟩ := u
  unfold Engine.take
  cases move with
  | register text callback =>
    rcases e.register_cases now text callback with ⟨plan, e', es, hr, hreg⟩ | ⟨error, hr⟩
    · simp only [hr]
      rw [hreg.timers]
      exact List.mem_append_left _ ht
    · simp only [hr]
      exact ht
  | unregister id =>
    have hne : t.id ≠ id := fun heq => hkept heq.symm
    show t ∈ (e.unregister id).1.timers
    rw [unregister_timers]
    split
    · exact List.mem_filter.mpr ⟨ht, by simpa using hne⟩
    · exact ht
  | start =>
    show t ∈ (e.start now).1.timers
    rw [start_of_isRunning (h.isRunning_of_mem ht)]
    exact ht
  | stop => exact absurd trivial hkept
  | fire serial =>
    show t ∈ (e.fired serial now).timers
    cases hdue : e.due? serial with
    | none =>
      rw [fired_of_not_due hdue]
      exact ht
    | some due =>
      have hne : t.serial ≠ serial := by
        intro heq
        simp [Turn.isFire, heq] at hquiet
      rw [(fired_of_due hdue now).2.2.2.2]
      refine List.mem_map.mpr ⟨t, ht, ?_⟩
      simp [Timer.next, hne]

/-! ## Firings -/

end Engine

/-- A trigger: the instant for which a timer went off, what the clock read when the timer looked
for its next one, and what was triggered. -/
structure Firing (η : Type) where
  due : Instant
  reading : Instant
  callback : Callback η
deriving Repr, DecidableEq

/-- The clock is read less than a second after the instant of the trigger, or before it. -/
def Firing.IsPrompt (f : Firing η) : Prop :=
  (f.due.after TimeUnit.nanosPerSecond).le f.reading = false

namespace Engine

def firing? (e : Engine η) (serial : Nat) (u : Turn η) : Option (Firing η) :=
  match u.move with
  | .fire n =>
    if n = serial then
      match e.fire n u.now, e.due? n with
      | some (callback, _, _), some due => some { due, reading := u.now, callback }
      | _, _ => none
    else none
  | _ => none

def firings (e : Engine η) (serial : Nat) : List (Turn η) → List (Firing η)
  | [] => []
  | u :: us => (e.firing? serial u).toList ++ (e.take u).firings serial us

theorem firings_of_none {e : Engine η} {serial : Nat} {u : Turn η}
    (h : e.firing? serial u = none) (us : List (Turn η)) :
    e.firings serial (u :: us) = (e.take u).firings serial us := by
  rw [firings, h]
  rfl

theorem firings_of_some {e : Engine η} {serial : Nat} {u : Turn η} {f : Firing η}
    (h : e.firing? serial u = some f) (us : List (Turn η)) :
    e.firings serial (u :: us) = f :: (e.take u).firings serial us := by
  rw [firings, h]
  rfl

theorem firing?_of_not_isFire (e : Engine η) {serial : Nat} {u : Turn η}
    (h : u.isFire serial = false) : e.firing? serial u = none := by
  unfold firing?
  unfold Turn.isFire at h
  cases hm : u.move with
  | fire n =>
    rw [hm] at h
    have hne : n ≠ serial := by simpa using h
    simp [hne]
  | _ => rfl

theorem move_of_isFire {serial : Nat} {u : Turn η} (h : u.isFire serial = true) :
    u.move = .fire serial := by
  unfold Turn.isFire at h
  cases hm : u.move with
  | fire n =>
    rw [hm] at h
    rw [of_decide_eq_true h]
  | _ => simp [hm] at h

/-- A timer with nothing to wait for does not go off, and nothing changes. -/
theorem IsSound.fire_exhausted {e : Engine η} (h : e.IsSound) {t : Timer η} (ht : t ∈ e.timers)
    (hdue : t.due = none) {u : Turn η} (hu : u.isFire t.serial = true) :
    e.firing? t.serial u = none ∧ e.take u = e := by
  have hnot : e.due? t.serial = none := (h.due?_of_mem ht).trans hdue
  have hmove := move_of_isFire hu
  constructor
  · simp [firing?, hmove, fire_eq_none_iff.mpr hnot]
  · simp [Engine.take, hmove, fired_of_not_due hnot]

/-- A timer with something to wait for triggers its entry for that, and goes on from there. -/
theorem IsSound.fire_due {e : Engine η} (h : e.IsSound) {t : Timer η} (ht : t ∈ e.timers)
    {due : Instant} (hdue : t.due = some due) {u : Turn η} (hu : u.isFire t.serial = true) :
    e.firing? t.serial u = some { due, reading := u.now, callback := t.callback } ∧
      { t with due := t.plan.due? (due.later u.now) } ∈ (e.take u).timers := by
  have hwaits : e.due? t.serial = some due := (h.due?_of_mem ht).trans hdue
  have hmove := move_of_isFire hu
  constructor
  · have hfind := h.find?_timer ht
    unfold firing? fire
    unfold timers at hfind
    rw [hmove]
    cases hdrive : e.drive with
    | byHand rejecting => simp [hdrive] at hfind
    | clockwork c =>
      rw [hdrive] at hfind
      dsimp only at hfind ⊢
      rw [hfind]
      simp [hdue, hwaits]
  · show _ ∈ (Engine.take e u).timers
    have htake : e.take u = e.fired t.serial u.now := by simp [Engine.take, hmove]
    rw [htake, (fired_of_due hwaits u.now).2.2.2.2]
    refine List.mem_map.mpr ⟨t, ht, ?_⟩
    simp [Timer.next]

end Engine

theorem Firing.IsPrompt.base {f : Firing η} (h : f.IsPrompt) (hwhole : f.due.nanos = 0) :
    (f.due.later f.reading).seconds = f.due.seconds := by
  unfold IsPrompt Instant.after Instant.isLeap Instant.le at h
  simp [hwhole, TimeUnit.nanosPerSecond] at h
  unfold Instant.later Instant.le
  split
  · next hle =>
    simp [hwhole] at hle
    omega
  · rfl

namespace Engine

/-- What a timer has done in some turns: it went off `times` times, and `timers` is what is armed
afterwards.  Its triggers are the first of those that were to come after `a`, and it goes on with
the rest of them, those after `b`. -/
structure Follows (t : Timer η) (a : Instant) (fired : List (Firing η)) (times : Nat)
    (timers : List (Timer η)) : Prop where
  callback : ∀ f ∈ fired, f.callback = t.callback
  rest : ∃ b, t.plan.StaysInRange b ∧ { t with due := t.plan.due? b } ∈ timers ∧
    ∀ n, t.plan.gather a (times + n) =
      (t.plan.gather b n).map (fired.map Firing.due ++ ·)

namespace Follows

variable {t : Timer η} {a : Instant} {fired : List (Firing η)} {times : Nat}
  {timers : List (Timer η)}

theorem nil (ht : t ∈ timers) (harmed : t.due = t.plan.due? a) (hrange : t.plan.StaysInRange a) :
    Follows t a [] 0 timers := by
  refine ⟨by simp, a, hrange, ?_, fun n => ?_⟩
  · rw [← harmed]
    exact ht
  · rw [Nat.zero_add]
    show t.plan.gather a n = (t.plan.gather a n).map fun ds => ds
    cases t.plan.gather a n <;> rfl

/-- What a timer waits for now says nothing of what it did. -/
theorem of_due {due : Option Instant} (h : Follows { t with due } a fired times timers) :
    Follows t a fired times timers :=
  ⟨h.callback, h.rest⟩

/-- A timer that goes off in vain: one more trigger is asked for, and there is none. -/
theorem exhausted (h : Follows t a fired times timers) (hnext : t.plan.next? a = .ok none) :
    Follows t a fired (times + 1) timers := by
  obtain ⟨hcallback, b, hb, hmem, hlist⟩ := h
  refine ⟨hcallback, b, hb, hmem, fun n => ?_⟩
  rw [← hlist n, Plan.gather_of_none hnext, Plan.gather_of_none hnext]

/-- A timer that triggers its entry, and goes on from the instant for which it did. -/
theorem cons {due : Instant} (h : Follows t due fired times timers)
    (hnext : t.plan.next? a = .ok (some due)) (reading : Instant) :
    Follows t a ({ due, reading, callback := t.callback } :: fired) (times + 1) timers := by
  obtain ⟨hcallback, b, hb, hmem, hlist⟩ := h
  refine ⟨List.forall_mem_cons.mpr ⟨rfl, hcallback⟩, b, hb, hmem, fun n => ?_⟩
  rw [Nat.add_right_comm, Plan.gather_of_some hnext, hlist n]
  cases t.plan.gather b n <;> rfl

theorem gather (h : Follows t a fired times timers) :
    t.plan.gather a times = .ok (fired.map Firing.due) := by
  obtain ⟨-, b, -, -, hlist⟩ := h
  have hnone := hlist 0
  rw [Nat.add_zero, Plan.gather] at hnone
  rw [hnone]
  show Except.ok (fired.map Firing.due ++ []) = _
  rw [List.append_nil]

/-- A list of any length that there is room for has the instants of the triggers at its beginning, as
far as it goes. -/
theorem exists_upcoming (h : Follows t a fired times timers) (hplan : t.plan.Advances) {n : Nat}
    (hn : n ≤ Plan.longestList) :
    ∃ list, t.plan.upcoming a n = .ok list ∧
      list.take times = (fired.map Firing.due).take n := by
  have hfirsts := h.gather
  obtain ⟨-, b, hb, -, hlist⟩ := h
  obtain ⟨later, hlater⟩ := hb.exists_gather hplan n
  have hall : t.plan.gather a (times + n) = .ok (fired.map Firing.due ++ later) := by
    rw [hlist n, hlater]
    rfl
  have htaken := Plan.gather_take hall (Nat.le_add_right times n)
  have hfired : (fired.map Firing.due ++ later).take times = fired.map Firing.due :=
    Except.ok.inj (htaken.symm.trans hfirsts)
  refine ⟨_, Plan.upcoming_eq_ok_iff.mpr ⟨hn, Plan.gather_take hall (Nat.le_add_left n times)⟩, ?_⟩
  rw [List.take_take, Nat.min_comm, ← List.take_take, hfired]

/-- The timer waits for nothing more exactly when every list ends with what it was triggered for. -/
theorem ends_iff (h : Follows t a fired times timers) (hplan : t.plan.Advances)
    (ha : Instant.inRange a.seconds = true) {e : Engine η} (he : e.IsSound)
    (htimers : e.timers = timers) :
    e.due? t.serial = none ↔
      ∀ n ≤ Plan.longestList, t.plan.upcoming a n = .ok ((fired.map Firing.due).take n) := by
  have hcount := Plan.length_gather_le h.gather
  obtain ⟨-, b, hb, hmem, hlist⟩ := h
  have hnext := hb.next?_ok
  rw [← htimers] at hmem
  rw [he.due?_of_mem hmem]
  dsimp only
  constructor
  · intro hnone n hn
    rw [hnone] at hnext
    have hall : t.plan.gather a (times + n) = .ok (fired.map Firing.due) := by
      rw [hlist n, Plan.gather_of_none hnext]
      show Except.ok (fired.map Firing.due ++ []) = _
      rw [List.append_nil]
    exact Plan.upcoming_eq_ok_iff.mpr ⟨hn, Plan.gather_take hall (Nat.le_add_left n times)⟩
  · intro hends
    cases hdue : t.plan.due? b with
    | none => rfl
    | some due =>
      -- one more trigger would be in the list that is longer by one
      rw [hdue] at hnext
      have hlonger : t.plan.gather a (times + 1) = .ok (fired.map Firing.due ++ [due]) := by
        rw [hlist 1, Plan.gather_of_some hnext]
        rfl
      have hroom := Plan.length_lt_longestList hplan ha hlonger
      rw [List.length_append, List.length_singleton] at hroom
      have hlast := Plan.gather_take hlonger (Nat.succ_le_succ hcount)
      have hshort := hends ((fired.map Firing.due).length + 1) (Nat.le_of_lt hroom)
      have hsame := Except.ok.inj (hlast.symm.trans (Plan.upcoming_eq_ok_iff.mp hshort).2)
      have hlength := congrArg List.length hsame
      simp at hlength

end Follows

theorem IsSound.follows {e : Engine η} (h : e.IsSound) {t : Timer η} (ht : t ∈ e.timers)
    (hwithin : t.plan.IsWithin) {a : Instant} (harmed : t.due = t.plan.due? a)
    (hrange : t.plan.StaysInRange a) {us : List (Turn η)} (hkept : ∀ u ∈ us, ¬u.Cancels t.id)
    (hprompt : ∀ f ∈ e.firings t.serial us, f.IsPrompt) :
    Follows t a (e.firings t.serial us) (us.countP (·.isFire t.serial)) (e.run us).timers := by
  induction us generalizing e t a with
  | nil => exact Follows.nil ht harmed hrange
  | cons u us ih =>
    have hrest : ∀ v ∈ us, ¬v.Cancels t.id := fun v hv => hkept v (List.mem_cons_of_mem u hv)
    cases hu : u.isFire t.serial with
    | false =>
      have hstill := h.mem_take ht (hkept u List.mem_cons_self) hu
      have hcount : (u :: us).countP (·.isFire t.serial) = us.countP (·.isFire t.serial) :=
        List.countP_cons_of_neg (by simp [hu])
      rw [firings_of_none (firing?_of_not_isFire e hu)] at hprompt ⊢
      rw [hcount]
      exact ih (h.take u) hstill hwithin harmed hrange hrest hprompt
    | true =>
      have hcount : (u :: us).countP (·.isFire t.serial) = us.countP (·.isFire t.serial) + 1 :=
        List.countP_cons_of_pos hu
      have hnext : t.plan.next? a = .ok t.due := by rw [hrange.next?_ok, harmed]
      rw [hcount]
      cases hdue : t.due with
      | none =>
        obtain ⟨hno, hsame⟩ := h.fire_exhausted ht hdue hu
        rw [firings_of_none hno, hsame] at hprompt ⊢
        rw [Engine.run, hsame]
        rw [hdue] at hnext
        exact (ih h ht hwithin harmed hrange hrest hprompt).exhausted hnext
      | some due =>
        obtain ⟨hfires, hmem⟩ := h.fire_due ht hdue hu
        rw [firings_of_some hfires] at hprompt ⊢
        rw [hdue] at hnext
        -- the timer looks for the next trigger in the second of the one that was due
        have hbase := (hprompt _ List.mem_cons_self).base (Plan.nanos_of_next? hnext)
        have hdue' : t.plan.due? (due.later u.now) = t.plan.due? due := by
          unfold Plan.due?
          rw [t.plan.next?_congr hbase]
        have hfollows := ih (t := { t with due := t.plan.due? (due.later u.now) }) (h.take u) hmem
          hwithin hdue' (Plan.StaysInRange.next hwithin hnext) hrest
          fun f hf => hprompt f (List.mem_cons_of_mem _ hf)
        exact hfollows.of_due.cons hnext u.now

/-- However often a timer that looked for its first trigger after `a` has gone off, and whatever
else was done to the engine as long as it was not cancelled: it has triggered its entry for the
upcoming triggers of the plan after `a`, in order, as far as it has gone off and the list goes; and
it waits for no more exactly when there are no more. -/
theorem firings_eq_upcoming (before : List (Turn η)) {x : Entry η} {t : Timer η} {a : Instant}
    (hx : x ∈ ((clockwork : Engine η).run before).entries)
    (ht : t ∈ ((clockwork : Engine η).run before).timers) (hid : t.id = x.id)
    (harmed : t.due = x.plan.due? a) (ha : Instant.inRange a.seconds = true)
    (hrange : x.plan.StaysInRange a) (us : List (Turn η))
    (hkept : ∀ u ∈ us, ¬u.Cancels x.id)
    (hprompt : ∀ f ∈ ((clockwork : Engine η).run before).firings t.serial us, f.IsPrompt) :
    let e := (clockwork : Engine η).run before
    let fired := e.firings t.serial us
    let times := us.countP (·.isFire t.serial)
    Plan.parse x.text = .ok x.plan ∧
      (times ≤ Plan.longestList → x.plan.upcoming a times = .ok (fired.map Firing.due)) ∧
      (∀ n ≤ Plan.longestList, ∃ list, x.plan.upcoming a n = .ok list ∧
        list.take times = (fired.map Firing.due).take n ∧
        ∀ v : JobView, v.plan = x.text → v.nextFrom a n = .ok list) ∧
      ((e.run us).due? t.serial = none ↔
        ∀ n ≤ Plan.longestList, x.plan.upcoming a n = .ok ((fired.map Firing.due).take n)) ∧
      ∀ f ∈ fired, f.callback = x.callback := by
  intro e fired times
  have h : e.IsSound := isSound_clockwork.run before
  have hparsed : Plan.parse x.text = .ok x.plan := h.parsed x hx
  obtain ⟨hplan, hcallback⟩ := h.work_of_mem ht hx hid
  have hadvances : x.plan.Advances := Plan.parse_advances hparsed
  rw [← hplan] at harmed hrange hparsed hadvances ⊢
  rw [← hid] at hkept
  have hfollows : Follows t a fired times (e.run us).timers :=
    h.follows ht hadvances.isWithin harmed hrange hkept hprompt
  refine ⟨hparsed, ?_, ?_, hfollows.ends_iff hadvances ha (h.run us) rfl, ?_⟩
  · intro hlong
    exact Plan.upcoming_eq_ok_iff.mpr ⟨hlong, hfollows.gather⟩
  · intro n hn
    obtain ⟨list, hlist, htaken⟩ := hfollows.exists_upcoming hadvances hn
    refine ⟨list, hlist, htaken, fun v hv => ?_⟩
    rw [← hv] at hparsed
    exact (Plan.parseNext_eq_ok_iff hparsed).mpr hlist
  · rw [← hcallback]
    exact hfollows.callback

/-- Noon of New Year's Day, three years long. -/
def newYearNoon : Entry String where
  id := 1
  text := "0 0 12 1 1 * 2024-2026"
  plan := .cron {
    source := "0 0 12 1 1 * 2024-2026"
    sets := {
      seconds := [0], minutes := [0], hours := [12], daysOfMonth := [1], months := [1]
      daysOfWeek := [1, 2, 3, 4, 5, 6, 7], years := [2024, 2025, 2026] } }
  callback := .refresh

/-- An engine that has its timer armed on the second of January 2024. -/
def newYearArmed : List (Turn String) :=
  [{ now := { seconds := 1704153600 }, move := .start },
    { now := { seconds := 1704153600 }, move := .register newYearNoon.text .refresh }]

/-- The timer goes off a little early, then a little late, then in vain. -/
def newYearTurns : List (Turn String) :=
  [{ now := { seconds := 1735732799, nanos := 999000000 }, move := .fire 0 },
    { now := { seconds := 1740000000 }, move := .register "@every 90s" .refresh },
    { now := { seconds := 1767268800, nanos := 250000000 }, move := .fire 0 },
    { now := { seconds := 1767268801 }, move := .fire 0 }]

theorem firings_newYear :
    newYearNoon.plan.upcoming { seconds := 1704153600 } 3 =
        .ok [{ seconds := 1735732800 }, { seconds := 1767268800 }] ∧
      ∀ n ≤ Plan.longestList, newYearNoon.plan.upcoming { seconds := 1704153600 } n =
        .ok ([{ seconds := 1735732800 }, { seconds := 1767268800 }].take n) := by
  have hfired : ((clockwork : Engine String).run newYearArmed).firings 0 newYearTurns =
      [{ due := { seconds := 1735732800 }, callback := .refresh,
         reading := { seconds := 1735732799, nanos := 999000000 } },
       { due := { seconds := 1767268800 }, callback := .refresh,
         reading := { seconds := 1767268800, nanos := 250000000 } }] := by decide +kernel
  have hprompt : ∀ f ∈ ((clockwork : Engine String).run newYearArmed).firings 0 newYearTurns,
      f.IsPrompt := by
    rw [hfired]
    simp [Firing.IsPrompt, Instant.after, Instant.isLeap, Instant.le, TimeUnit.nanosPerSecond]
  obtain ⟨-, hupcoming, -, hends, -⟩ :=
    firings_eq_upcoming newYearArmed (x := newYearNoon)
      (t := { serial := 0, id := 1, plan := newYearNoon.plan, callback := .refresh,
              due := some { seconds := 1735732800 } })
      (a := { seconds := 1704153600 }) (by decide +kernel) (by decide +kernel) rfl
      (by decide +kernel) (by decide) (show (1704153600 : Int) < Instant.latest by decide)
      newYearTurns (by simp [newYearTurns, Turn.Cancels]) hprompt
  rw [hfired] at hupcoming hends
  refine ⟨hupcoming (by decide), hends.mp ?_⟩
  decide +kernel

/-- The timer goes off for two instants and then in vain, where a list for which there is no room has
none of them. -/
theorem longFiringList_refused :
    let e := (clockwork : Engine String).run newYearArmed
    let start : Instant := { seconds := 1704153600 }
    newYearNoon ∈ e.entries ∧
      (e.firings 0 newYearTurns).map Firing.due =
        [{ seconds := 1735732800 }, { seconds := 1767268800 }] ∧
      (e.run newYearTurns).due? 0 = none ∧
      ¬∃ times, newYearNoon.plan.upcoming start (Plan.longestList + 1) = .ok times := by
  intro e start
  refine ⟨by decide +kernel, by decide +kernel, by decide +kernel, ?_⟩
  rintro ⟨times, htimes⟩
  have hrefused := Plan.upcoming_of_lt newYearNoon.plan start (Nat.lt_succ_self Plan.longestList)
  cases hrefused.symm.trans htimes

end Engine
end RecurringJobs
