import Mathlib.Data.List.Infix
import RecurringJobs.Proofs.Config.Findings
import RecurringJobs.Proofs.Plan.LongDelays
import RecurringJobs.Proofs.Scheduler.LeaseSpan
import RecurringJobs.Proofs.Scheduler.Renewal

/-!
A lease that is renewed in time.

A lease that lasts longer than the time between two renewals does not end between them.  The due
instants of the renewals are whole seconds, counted from the second of the start and not from its
instant, and a try may come up to a second late; both are covered by a lease that is a whole second
longer.
-/

namespace RecurringJobs

theorem Clock.seconds_le_latest {c : Clock} (h : c.isReadable = true) :
    c.wall.seconds ≤ Instant.latest := by
  simp only [isReadable, Instant.inRange, Bool.and_eq_true, decide_eq_true_eq] at h
  exact h.2

namespace Fleet

variable {ι η : Type} [DecidableEq ι]

/-! ## The instants of the renewals -/

/-- The renewal of a scheduler is armed for a second. -/
def Awaits (w : Fleet ι η) (i : ι) (r : Nat) (t : Timer η) (due : Int) : Prop :=
  t ∈ (w.schedulers i).engine.timers ∧ t.callback = .refresh ∧ t.plan = .every r ∧
    t.due = some { seconds := due }

/-- Whenever the renewal of a scheduler is armed for an instant, its timer goes off and what it
triggers is run, not before that instant and less than a second after it, unless the run ends
first. -/
def IsPunctual (w : Fleet ι η) (i : ι) (es : List (Event ι η)) : Prop :=
  ∀ fs gs, fs ++ gs <+: es →
    ∀ t ∈ ((w.run fs).schedulers i).engine.timers, t.callback = .refresh → ∀ due, t.due = some due →
      (due.after TimeUnit.nanosPerSecond).le (w.run (fs ++ gs)).clock.wall = true →
        ∃ as bs cs, gs = as ++ .move i (.fire t.serial) :: bs ++ .move i (.callback .refresh) :: cs ∧
          let reading := (w.run (fs ++ as ++ .move i (.fire t.serial) :: bs)).clock.wall
          due.le reading = true ∧ (due.after TimeUnit.nanosPerSecond).le reading = false

/-- A timer that goes off less than a second late is armed for a second so much later. -/
theorem Awaits.fires {w : Fleet ι η} {i : ι} {r : Nat} {t : Timer η} {due : Int}
    (hawaits : w.Awaits i r t due) (h : (w.schedulers i).IsSound) (hdelay : r ≤ Plan.longestDelay)
    (hrange : due + r ≤ Instant.latest) (hprompt : w.clock.wall.seconds ≤ due) :
    ∃ u, (w.step (.move i (.fire t.serial))).Awaits i r u (due + r) := by
  obtain ⟨ht, hcallback, hplan, hdue⟩ := hawaits
  have harmed := h.renewal_fires ht hdue w.store w.clock
  have hlater : (Instant.later { seconds := due } w.clock.wall).seconds = due := by
    unfold Instant.later
    split
    · next hle =>
      have hreading := Instant.whole_le_iff.mp hle
      omega
    · rfl
  have hnext : t.plan.due? (Instant.later { seconds := due } w.clock.wall) =
      some { seconds := due + r } := by
    rw [hplan]
    unfold Plan.due? Plan.next?
    simp only [hlater, hdelay, hrange, and_self, if_true]
  refine ⟨{ t with due := t.plan.due? (Instant.later { seconds := due } w.clock.wall) }, ?_,
    hcallback, hplan, hnext⟩
  rcases w.schedulers_step (.move i (.fire t.serial)) i with ⟨m, hm, hleft⟩ | ⟨hother, -⟩
  · cases hm
    rw [hleft]
    exact harmed
  · exact absurd rfl (hother _)

theorem Awaits.stays {w : Fleet ι η} {i : ι} {r : Nat} {t : Timer η} {due : Int}
    (hawaits : w.Awaits i r t due) (h : (w.schedulers i).IsSound) {e : Event ι η}
    (hstop : e ≠ .move i .stop) (hquiet : e ≠ .move i (.fire t.serial)) :
    (w.step e).Awaits i r t due := by
  obtain ⟨ht, hcallback, hplan, hdue⟩ := hawaits
  refine ⟨?_, hcallback, hplan, hdue⟩
  rcases w.schedulers_step e i with ⟨m, rfl, hleft⟩ | ⟨-, hsame⟩
  · rw [hleft]
    refine h.renewal_stays ht hcallback w.store w.clock ?_ ?_
    · rintro rfl
      exact hstop rfl
    · rintro rfl
      exact hquiet rfl
  · rw [hsame]
    exact ht

/-- After the first time that a timer goes off, its renewal is armed for the next second. -/
theorem Awaits.next {w : Fleet ι η} {i : ι} {r : Nat} {t : Timer η} {due : Int}
    (hawaits : w.Awaits i r t due) (h : (w.schedulers i).IsSound) (hdelay : r ≤ Plan.longestDelay)
    (hrange : due + r ≤ Instant.latest) {as : List (Event ι η)} (hstop : .move i .stop ∉ as)
    (hprompt : (w.run as).clock.wall.seconds ≤ due) :
    ∃ hs ks u, as ++ [.move i (.fire t.serial)] = hs ++ ks ∧ (w.run hs).Awaits i r u (due + r) := by
  induction as generalizing w with
  | nil =>
    obtain ⟨u, hu⟩ := hawaits.fires h hdelay hrange hprompt
    exact ⟨[.move i (.fire t.serial)], [], u, rfl, hu⟩
  | cons e as ih =>
    have hbefore : w.clock.wall.seconds ≤ due := Int.le_trans (w.seconds_le_run (e :: as)) hprompt
    by_cases hfire : e = .move i (.fire t.serial)
    · subst hfire
      obtain ⟨u, hu⟩ := hawaits.fires h hdelay hrange hbefore
      exact ⟨[.move i (.fire t.serial)], as ++ [.move i (.fire t.serial)], u, rfl, hu⟩
    · have hfirst : e ≠ .move i .stop := fun he => hstop (he ▸ List.mem_cons_self)
      have hrest : .move i .stop ∉ as := fun hmem => hstop (List.mem_cons_of_mem e hmem)
      have hsound : ((w.step e).schedulers i).IsSound := isSound_schedulers_run h [e]
      obtain ⟨hs, ks, u, hsplit, hu⟩ := ih (hawaits.stays h hfirst hfire) hsound hrest hprompt
      refine ⟨e :: hs, ks, u, ?_, hu⟩
      rw [List.cons_append, hsplit, List.cons_append]

/-- The second for which a renewal that began in the second `start` is armed the `n`-th time. -/
def dueSecond (start : Int) (r n : Nat) : Int := start + r + n * r

/-- In a punctual run every second of the renewals is waited for before it is over. -/
theorem IsPunctual.awaits {v : Fleet ι η} {i : ι} {es : List (Event ι η)}
    (hpunctual : v.IsPunctual i es) (h : (v.schedulers i).IsSound) {r : Nat}
    (hdelay : r ≤ Plan.longestDelay) {start : Int}
    (hstart : start + r ≤ Instant.latest → ∃ t, v.Awaits i r t (start + r)) {fs : List (Event ι η)}
    (hfs : fs <+: es) (hstop : .move i .stop ∉ fs)
    (hrange : (v.run fs).clock.wall.seconds ≤ Instant.latest) (n : Nat)
    (hpassed : dueSecond start r n + 1 ≤ (v.run fs).clock.wall.seconds) :
    ∃ as gs t, fs = as ++ gs ∧ (v.run as).Awaits i r t (dueSecond start r n) := by
  induction n with
  | zero =>
    have hfirst : dueSecond start r 0 = start + r := by simp [dueSecond]
    rw [hfirst] at hpassed ⊢
    obtain ⟨t, ht⟩ := hstart (by omega)
    exact ⟨[], fs, t, rfl, ht⟩
  | succ n ih =>
    have hnext : dueSecond start r (n + 1) = dueSecond start r n + r := by
      have hcast : ((n + 1 : Nat) : Int) * r = n * r + r := by
        rw [Int.natCast_succ, Int.add_mul, Int.one_mul]
      unfold dueSecond
      omega
    rw [hnext] at hpassed ⊢
    obtain ⟨as, gs, t, rfl, hawaits⟩ := ih (by omega)
    obtain ⟨bs, cs, ds, rfl, -, hprompt⟩ :=
      hpunctual as gs hfs t hawaits.1 hawaits.2.1 _ hawaits.2.2.2
        (Instant.whole_after_le_iff.mpr (by omega))
    have hreading : ((v.run as).run bs).clock.wall.seconds ≤ dueSecond start r n := by
      have hlater := ((v.run as).run bs).seconds_le_run (.move i (.fire t.serial) :: cs)
      rw [← run_append, ← run_append] at hlater
      have hlate : ¬dueSecond start r n + 1 ≤ (v.run (as ++ bs ++ .move i (.fire t.serial) ::
          cs)).clock.wall.seconds := by
        rw [← Instant.whole_after_le_iff, hprompt]
        exact Bool.false_ne_true
      rw [← run_append]
      omega
    have hnever : .move i .stop ∉ bs := by
      intro hmem
      refine hstop (List.mem_append_right _ ?_)
      exact List.mem_append_left _ (List.mem_append_left _ hmem)
    obtain ⟨hs, ks, u, hsplit, hu⟩ := hawaits.next (isSound_schedulers_run h as) hdelay
      (by omega) hnever hreading
    refine ⟨as ++ hs, ks ++ cs ++ .move i (.callback .refresh) :: ds, u, ?_, ?_⟩
    · calc
        as ++ (bs ++ .move i (.fire t.serial) :: cs ++ .move i (.callback .refresh) :: ds) =
            as ++ ((bs ++ [.move i (.fire t.serial)]) ++ cs ++
              .move i (.callback .refresh) :: ds) := by simp
        _ = as ++ hs ++ (ks ++ cs ++ .move i (.callback .refresh) :: ds) := by
          rw [hsplit]
          simp
    · rw [run_append]
      exact hu

/-- In a punctual run every second of the renewals that is over has seen its renewal. -/
theorem IsPunctual.renewal {v : Fleet ι η} {i : ι} {es : List (Event ι η)}
    (hpunctual : v.IsPunctual i es) (h : (v.schedulers i).IsSound) {r : Nat}
    (hdelay : r ≤ Plan.longestDelay) {start : Int}
    (hstart : start + r ≤ Instant.latest → ∃ t, v.Awaits i r t (start + r)) {fs : List (Event ι η)}
    (hfs : fs <+: es) (hstop : .move i .stop ∉ fs)
    (hrange : (v.run fs).clock.wall.seconds ≤ Instant.latest) {n : Nat}
    (hpassed : dueSecond start r n + 1 ≤ (v.run fs).clock.wall.seconds) :
    ∃ as bs, fs = as ++ .move i (.callback .refresh) :: bs ∧
      dueSecond start r n ≤ (v.run as).clock.wall.seconds := by
  obtain ⟨as, gs, t, rfl, hawaits⟩ :=
    hpunctual.awaits h hdelay hstart hfs hstop hrange n hpassed
  obtain ⟨bs, cs, ds, rfl, hdue, -⟩ :=
    hpunctual as gs hfs t hawaits.1 hawaits.2.1 _ hawaits.2.2.2
      (Instant.whole_after_le_iff.mpr hpassed)
  refine ⟨as ++ bs ++ .move i (.fire t.serial) :: cs, ds, by simp, ?_⟩
  exact Instant.whole_le_iff.mp hdue

/-- The last second of the renewals that is over at some instant. -/
theorem exists_dueSecond {start now : Int} {r : Nat} (hr : 1 ≤ r) (hnow : start + r < now) :
    ∃ n, dueSecond start r n + 1 ≤ now ∧ now ≤ dueSecond start r n + r := by
  have hpos : (0 : Int) < r := by omega
  obtain ⟨n, hn⟩ := Int.eq_ofNat_of_zero_le
    (Int.ediv_nonneg (show 0 ≤ now - 1 - start - r by omega) (Int.le_of_lt hpos))
  have hlow := Int.mul_ediv_self_le (x := now - 1 - start - r) (k := r) (Int.ne_of_gt hpos)
  have hhigh := Int.lt_mul_ediv_self_add (x := now - 1 - start - r) hpos
  rw [hn, Int.mul_comm] at hlow hhigh
  refine ⟨n, ?_, ?_⟩
  · unfold dueSecond
    omega
  · unfold dueSecond
    omega

/-- A lease that covers its renewals has not ended, in whatever part of a second they came. -/
theorem Covers.lt {v : Fleet ι η} {i : ι} {fs : List (Event ι η)} {expiry : Nat}
    (hcovers : Covers v i fs expiry) (hwall : v.clock.wall.nanos < 2 * TimeUnit.nanosPerSecond)
    {r k : Nat} (hr : 1 ≤ r) (hrk : r < k) (httl : (v.lock i).ttl = k * TimeUnit.nanosPerSecond)
    (hrenewed : ∀ n, dueSecond v.clock.wall.seconds r n + 1 ≤ (v.run fs).clock.wall.seconds →
      ∃ as bs, fs = as ++ .move i (.callback .refresh) :: bs ∧
        dueSecond v.clock.wall.seconds r n ≤ (v.run as).clock.wall.seconds) :
    (v.run fs).clock.elapsed < expiry := by
  have hnow := Instant.unixNanos_lt (nanos_run_lt hwall fs)
  have hclocks := v.unixNanos_run fs
  by_cases hfirst : (v.run fs).clock.wall.seconds ≤ v.clock.wall.seconds + r
  · have hbegin := hcovers.start
    have hstart := v.clock.wall.seconds_le_unixNanos
    unfold TimeUnit.nanosPerSecond at *
    omega
  · obtain ⟨n, hover, hcurrent⟩ := exists_dueSecond hr (Int.not_le.mp hfirst)
    obtain ⟨as, bs, hsplit, hdue⟩ := hrenewed n hover
    have hrenewal := hcovers.renewal as bs hsplit
    have hthen := (v.run as).clock.wall.seconds_le_unixNanos
    have hclocks' := v.unixNanos_run as
    unfold TimeUnit.nanosPerSecond at *
    omega

/-- From a start that took the lease on, the lease covers every run that renews it punctually. -/
theorem IsPunctual.covers {v : Fleet ι η} {i : ι} {es : List (Event ι η)}
    (hpunctual : v.IsPunctual i es) (h : v.IsSound) (hsound : (v.schedulers i).IsSound)
    (hwall : v.clock.wall.nanos < 2 * TimeUnit.nanosPerSecond) {r k : Nat} (hr : 1 ≤ r)
    (hdelay : r ≤ Plan.longestDelay) (hrk : r < k)
    (httl : (v.lock i).ttl = k * TimeUnit.nanosPerSecond)
    (hstart : v.clock.wall.seconds + r ≤ Instant.latest →
      ∃ t, v.Awaits i r t (v.clock.wall.seconds + r))
    {first : Nat} (htaken : Covers v i [] first) (hes : ∀ e ∈ es, e.KeepsOff v.lock)
    (hstop : .move i .stop ∉ es)
    (hclock : (v.run es).clock.elapsed + (v.lock i).ttl <
      LeaseStore.clockSeconds * TimeUnit.nanosPerSecond)
    {fs : List (Event ι η)} (hfs : fs <+: es)
    (hrange : (v.run fs).clock.wall.seconds ≤ Instant.latest) :
    ∃ expiry, Covers v i fs expiry ∧ (v.run fs).clock.elapsed < expiry := by
  -- one event after the other: what is held before one is renewed or left alone by it
  induction fs using List.reverseRecOn with
  | nil =>
    refine ⟨first, htaken, htaken.lt hwall hr hrk httl fun n hpassed => ?_⟩
    exact hpunctual.renewal hsound hdelay hstart hfs (fun hmem => hstop (hfs.subset hmem)) hrange
      hpassed
  | append_singleton fs e ih =>
    have hbefore : fs <+: es := (List.prefix_append fs [e]).trans hfs
    have hlater : (v.run fs).clock.wall.seconds ≤ (v.run (fs ++ [e])).clock.wall.seconds := by
      rw [run_append]
      exact (v.run fs).seconds_le_run [e]
    obtain ⟨expiry, hcovers, hlive⟩ := ih hbefore (by omega)
    have hoff : ∀ f ∈ fs ++ [e], f.KeepsOff v.lock := fun f hf => hes f (hfs.subset hf)
    have hlast : e ≠ .move i .stop := by
      rintro rfl
      exact hstop (hfs.subset (List.mem_append_right _ List.mem_cons_self))
    have hsoon : (v.run fs).clock.elapsed + (v.lock i).ttl <
        LeaseStore.clockSeconds * TimeUnit.nanosPerSecond := by
      obtain ⟨gs, rfl⟩ := hbefore
      have hmore := (v.run fs).elapsed_le_run gs
      rw [← run_append] at hmore
      omega
    obtain ⟨expiry', hnext⟩ := hcovers.snoc h hoff hlast hlive hsoon
    refine ⟨expiry', hnext, hnext.lt hwall hr hrk httl fun n hpassed => ?_⟩
    exact hpunctual.renewal hsound hdelay hstart hfs (fun hmem => hstop (hfs.subset hmem)) hrange
      hpassed

/-! ## From a start to a stop -/

/-- A scheduler of a fleet that is built for a configuration. -/
structure IsFor (w : Fleet ι η) (i : ι) (c : Config) : Prop where
  isNew : (w.schedulers i).IsNew
  clockwork : (w.schedulers i).engine = .clockwork
  refreshSeconds : (w.schedulers i).refreshSeconds = c.scheduler.refreshSeconds
  ttl : (w.lock i).ttl = c.lease.ttlSeconds * TimeUnit.nanosPerSecond

/-- The longest time between two renewals that is kept to the nanosecond. -/
def longestRefresh : Nat := 9007199

omit [DecidableEq ι] in
theorem refreshPlan_parse {s : Scheduler η} (hlow : 1 ≤ s.refreshSeconds)
    (hhigh : s.refreshSeconds ≤ longestRefresh) :
    Plan.parse s.refreshPlan = .ok (.every s.refreshSeconds) := by
  have hkept : longestRefresh ≤ Duration.longestKept := by decide
  unfold Scheduler.refreshPlan
  rw [Nat.max_eq_right hlow]
  exact Plan.parse_every_of_le hlow (Nat.le_trans hhigh hkept)

/-- A start that takes the lease arms the renewal, counted from the second of the start. -/
theorem IsSound.awaits_of_start {w : Fleet ι η} (h : w.IsSound) {i : ι}
    (hclockwork : (w.schedulers i).engine.refusing = none)
    (hlow : 1 ≤ (w.schedulers i).refreshSeconds)
    (hhigh : (w.schedulers i).refreshSeconds ≤ longestRefresh)
    (htakes : Moment.Takes { before := w, event := .move i .start } i)
    (hrange : w.clock.wall.seconds + (w.schedulers i).refreshSeconds ≤ Instant.latest) :
    ∃ t, (w.step (.move i .start)).Awaits i (w.schedulers i).refreshSeconds t
      (w.clock.wall.seconds + (w.schedulers i).refreshSeconds) := by
  obtain ⟨huse, htried⟩ := (h.takes_iff i (fun l hl => by cases hl)).mp htakes
  have hcreated : (w.schedulers i).state = .created := by
    refine Decidable.not_not.mp fun hother => ?_
    rw [Scheduler.lockUse, if_neg hother] at huse
    cases huse
  have hlocked : (w.schedulers i).lock ≠ none := by
    rw [h.guarded i]
    exact Option.some_ne_none _
  have hback : ((w.schedulers i).start w.store w.clock).result ≠ .error .crashed := by
    have hanswer : ((Lock.lease (w.lock i)).tryLock w.store w.clock.elapsed).1 = .ok := htried
    rw [Scheduler.start_result_of_lock hcreated (h.guarded i) (by rw [hanswer]; exact nofun)]
    exact nofun
  obtain ⟨t, ht, hcallback, hplan, hdue⟩ := Scheduler.exists_timer_of_start hclockwork hcreated
    hlocked hback (refreshPlan_parse hlow hhigh)
  refine ⟨t, ?_, hcallback, hplan, ?_⟩
  · rcases w.schedulers_step (.move i .start) i with ⟨m, hm, hleft⟩ | ⟨hother, -⟩
    · cases hm
      rw [hleft]
      exact ht
    · exact absurd rfl (hother _)
  · have hdelay : (w.schedulers i).refreshSeconds ≤ Plan.longestDelay :=
      Nat.le_trans hhigh (by decide)
    rw [hdue]
    unfold Plan.due? Plan.next?
    simp only [hdelay, hrange, and_self, if_true]

/-- A lease that lasts longer than the time between two renewals is one whose time nothing is found
at, and a scheduler that takes it on when it is started keeps it until it is stopped, whatever others
do, if the renewals are punctual and as long as the wall clock can be read. -/
theorem start_keeps_lease {w : Fleet ι η} {name : String} (hnew : w.IsNew name)
    (hwall : Instant.make? w.clock.wall.seconds w.clock.wall.nanos = some w.clock.wall)
    {i : ι} {c : Config} (hfor : w.IsFor i c) (henabled : c.lease.enabled = true)
    (hlow : 1 ≤ c.scheduler.refreshSeconds) (hhigh : c.scheduler.refreshSeconds ≤ longestRefresh)
    {past rest : List (Event ι η)}
    (hoff : ∀ e ∈ past ++ .move i .start :: rest, e.KeepsOff w.lock)
    (htakes : Moment.Takes { before := w.run past, event := .move i .start } i)
    (hstop : .move i .stop ∉ rest)
    (hclock : (w.run (past ++ .move i .start :: rest)).clock.elapsed + (w.lock i).ttl <
      LeaseStore.clockSeconds * TimeUnit.nanosPerSecond)
    (hpunctual : (w.run (past ++ [.move i .start])).IsPunctual i rest)
    {fs : List (Event ι η)} (hfs : fs <+: rest)
    (hreadable : (w.run (past ++ .move i .start :: fs)).clock.isReadable = true) :
    ((∀ f ∈ c.findings, f.place ≠ .leaseTtl) ↔ c.scheduler.refreshSeconds < c.lease.ttlSeconds) ∧
      (c.scheduler.refreshSeconds < c.lease.ttlSeconds →
        (w.run (past ++ .move i .start :: fs)).Keeps i) := by
  refine ⟨Config.quiet_ttl_iff henabled, fun hlonger => ?_⟩
  have h := hnew.isSound
  obtain ⟨v, hv⟩ : ∃ v, v = (w.run past).step (.move i .start) := ⟨_, rfl⟩
  have hcut : ∀ gs : List (Event ι η), w.run (past ++ .move i .start :: gs) = v.run gs := by
    intro gs
    rw [run_append, hv]
    rfl
  -- up to the start
  obtain ⟨hbegun, hpast, hlater⟩ := h.run_parts hoff
  have hsame := h.isSame_run hpast i
  have hproper : (w.run past).clock.wall.nanos < 2 * TimeUnit.nanosPerSecond :=
    nanos_run_lt (Instant.nanos_lt_of_make? hwall) past
  have hrefresh : ((w.run past).schedulers i).refreshSeconds = c.scheduler.refreshSeconds :=
    schedulers_run (P := fun s => s.refreshSeconds = c.scheduler.refreshSeconds)
      (fun s store clock m hs => (s.take_refreshSeconds store clock m).trans hs)
      hfor.refreshSeconds past
  have hclockwork : ((w.run past).schedulers i).engine.refusing = none :=
    schedulers_run (P := fun s => s.engine.refusing = none)
      (fun s store clock m hs => Scheduler.take_clockwork hs store clock m)
      (by rw [hfor.clockwork]; rfl) past
  -- the start
  have hstart : Event.KeepsOff (w.run past).lock (.move i .start : Event ι η) :=
    hlater _ List.mem_cons_self
  have hrest := hbegun.keepsOff_tail hlater
  have hleft : v.clock = (w.run past).clock := by
    rw [hv]
    rfl
  have hawaits := hbegun.awaits_of_start hclockwork (by rw [hrefresh]; exact hlow)
    (by rw [hrefresh]; exact hhigh) htakes
  have htaken := Covers.nil hbegun hstart htakes rfl
  have hsound := hbegun.step hstart
  have hkept := hbegun.isSame_step hstart i
  rw [hrefresh, ← hleft] at hawaits
  rw [← hv] at hawaits htaken hsound hkept hrest
  rw [← hleft] at hproper
  have httl : (v.lock i).ttl = (w.lock i).ttl := hkept.ttl.trans hsame.ttl
  have hscheduler : (v.schedulers i).IsSound := by
    rw [hv]
    exact isSound_schedulers_run (isSound_schedulers_run hfor.isNew.isSound past) [.move i .start]
  -- and what comes after it
  rw [hcut] at hclock hreadable ⊢
  rw [hcut []] at hpunctual
  rw [← httl] at hclock
  have hpunctual : v.IsPunctual i rest := hpunctual
  have hdelay : c.scheduler.refreshSeconds ≤ Plan.longestDelay := Nat.le_trans hhigh (by decide)
  obtain ⟨expiry, hcovers, hlive⟩ := hpunctual.covers hsound hscheduler hproper hlow hdelay
    hlonger (httl.trans hfor.ttl) hawaits htaken hrest hstop hclock
    hfs (Clock.seconds_le_latest hreadable)
  have hrun : (v.run fs).IsSound := hsound.run fun e he => hrest e (hfs.subset he)
  exact hrun.keeps ((LeaseLock.hasLock_iff _ _).mpr ⟨expiry, hcovers.heldUntil, hlive⟩)

/-- The lease lasts one second longer than the time between two renewals. -/
def shortLease : Config :=
  { scheduler := { refreshSeconds := 2 }, lease := { enabled := true, ttlSeconds := 3 } }

/-- Two schedulers for that lease.  The clock starts late in a second. -/
def rivals : Fleet Bool String :=
  { schedulers := fun second =>
      { engine := .clockwork
        lock := some (.lease
          { name := "nightly", holder := if second then "b" else "a", ttl := 3000000000 })
        refreshSeconds := 2 }
    clock := { wall := { seconds := 100, nanos := 700000000 } } }

/-- The renewal is due in second 102, goes off at its beginning and is run at its end.  The first
lease would be over when the run ends. -/
def lateRenewal : List (Event Bool String) :=
  [.advance 1400000000, .move false (.fire 0), .advance 800000000,
    .move false (.callback .refresh), .advance 900000000]

theorem lateRenewal_isPunctual :
    (rivals.run ([] ++ [.move false .start])).IsPunctual false lateRenewal := by
  have htimers : ∀ m ≤ 5, ∀ t ∈ ((((rivals.run [.move false .start]).run
      (lateRenewal.take m)).schedulers false).engine.timers), t.serial = 0 ∧
        (t.due = some { seconds := 104 } ∨ t.due = some { seconds := 102 } ∧ m ≤ 1) := by
    decide +kernel
  have hwalls : ∀ n ≤ 5, ((rivals.run [.move false .start]).run
      (lateRenewal.take n)).clock.wall.seconds ≤ 103 ∧ (103 ≤ ((rivals.run [.move false .start]).run
        (lateRenewal.take n)).clock.wall.seconds → n = 5) := by
    decide +kernel
  intro fs gs hpre t ht _ due hdue hlate
  have hfs : fs = lateRenewal.take fs.length :=
    List.prefix_iff_eq_take.mp ((List.prefix_append fs gs).trans hpre)
  have hboth : fs ++ gs = lateRenewal.take (fs ++ gs).length := List.prefix_iff_eq_take.mp hpre
  have hlength : (fs ++ gs).length ≤ 5 := hpre.length_le
  have hshort : fs.length ≤ 5 := by
    rw [List.length_append] at hlength
    omega
  rw [List.nil_append, hfs] at ht
  obtain ⟨hserial, hwhen⟩ := htimers fs.length hshort t ht
  obtain ⟨hend, honly⟩ := hwalls (fs ++ gs).length hlength
  rw [List.nil_append, hboth] at hlate
  rw [hdue] at hwhen
  rcases hwhen with hlater | ⟨hfirst, hearly⟩
  · cases hlater
    have hpassed := Instant.whole_after_le_iff.mp hlate
    omega
  · cases hfirst
    have hwhole := honly (Instant.whole_after_le_iff.mp hlate)
    have hall : fs ++ gs = lateRenewal := by
      rw [hboth, hwhole]
      rfl
    rw [hserial]
    rcases Nat.le_one_iff_eq_zero_or_eq_one.mp hearly with hnone | hone
    · obtain rfl := List.length_eq_zero_iff.mp hnone
      obtain rfl : gs = lateRenewal := hall
      exact ⟨[.advance 1400000000], [.advance 800000000], [.advance 900000000], rfl,
        by decide +kernel, by decide +kernel⟩
    · rw [hone] at hfs
      obtain rfl : fs = [.advance 1400000000] := hfs
      obtain rfl : gs = lateRenewal.tail := List.append_cancel_left hall
      exact ⟨[], [.advance 800000000], [.advance 900000000], rfl, by decide +kernel,
        by decide +kernel⟩

/-- The first lease is over, and the second one is kept. -/
theorem rivals_keep :
    (rivals.run ([] ++ .move false .start :: lateRenewal)).Keeps false ∧
      (rivals.lock false).ttl <
        (rivals.run ([] ++ .move false .start :: lateRenewal)).clock.elapsed := by
  have hnew : rivals.IsNew "nightly" :=
    { guarded := fun _ => rfl
      name_eq := fun _ => rfl
      untried := fun _ => rfl
      distinct := by decide
      free := fun l hl => by cases hl }
  have hfor : rivals.IsFor false shortLease :=
    { isNew := { engine := Or.inl rfl, jobs := rfl, state := rfl, refreshEntry := rfl }
      clockwork := rfl
      refreshSeconds := rfl
      ttl := rfl }
  have hoff : ∀ e ∈ [] ++ .move false .start :: lateRenewal, e.KeepsOff rivals.lock := by
    simp [lateRenewal, Event.KeepsOff]
  have htakes : Moment.Takes
      { before := rivals.run [], event := .move false .start } false :=
    ⟨.start, rfl, by decide +kernel⟩
  have hstop : .move false .stop ∉ lateRenewal := by
    simp [lateRenewal]
  refine ⟨?_, by decide +kernel⟩
  have hkept := start_keeps_lease hnew (by decide +kernel) hfor rfl (by decide) (by decide) hoff
    htakes hstop (by decide +kernel) lateRenewal_isPunctual (List.prefix_refl _) (by decide +kernel)
  exact hkept.2 (by decide)

end Fleet
end RecurringJobs
