import RecurringJobs.Proofs.Lock.Agreement

/-!
A store of leases and the history of the calls to it.

The store keeps one lease for a name, also when it is over.  Which one, the calls alone tell: the one
that was given last, unless its holder gave it back since (`Leasing.Stands`).  That the store has
just these leases is kept by every call (`Leasing.leases_step`) and so holds after every run, and
who holds a lease, and who is refused, follows from it (`Leasing.run_tells_holder`).
-/

namespace RecurringJobs

/-! ## The answers of the store -/

namespace LeaseStore

theorem acquired_of_isOpen {s : LeaseStore} {now ttl : Nat} {name holder : String}
    (hopen : s.IsOpen now name holder)
    (hclock : now + ttl < clockSeconds * TimeUnit.nanosPerSecond) :
    s.acquired now name holder ttl = s.grant name holder (now + ttl) := by
  unfold acquired
  rw [acquire_of_isOpen hopen, if_pos hclock]

theorem acquired_of_error {s : LeaseStore} {now ttl : Nat} {name holder : String}
    {fault : AcquireFault} (h : s.acquire now name holder ttl = .error fault) :
    s.acquired now name holder ttl = s := by
  unfold acquired
  rw [h]

theorem released_of_error {s : LeaseStore} {now : Nat} {name holder : String} {error : LockError}
    (h : s.release now name holder = .error error) : s.released now name holder = s := by
  unfold released
  rw [h]

theorem acquire_eq_held_iff_holder? {s : LeaseStore} {now ttl : Nat} {name holder other : String} :
    s.acquire now name other ttl = .error (.held holder) ↔
      s.holder? now name = some holder ∧ holder ≠ other := by
  rw [acquire_eq_held_iff, holder?_eq_some_iff]
  constructor
  · rintro ⟨l, hl, hlive, rfl, hne⟩
    exact ⟨⟨l.expires, hl, hlive⟩, hne⟩
  · rintro ⟨⟨e, hl, hlive⟩, hne⟩
    exact ⟨_, hl, hlive, rfl, hne⟩

theorem release_eq_held_iff_holder? {s : LeaseStore} {now : Nat} {name holder other : String} :
    s.release now name other = .error (.held holder) ↔
      s.holder? now name = some holder ∧ holder ≠ other := by
  rw [holder?_eq_some_iff]
  unfold release
  cases hl : s.leases[name]? with
  | none => simp
  | some l =>
    dsimp only
    by_cases hown : l.holder = other
    · rw [if_pos hown]
      simp only [reduceCtorEq, Option.some.injEq, false_iff]
      rintro ⟨⟨e, rfl, -⟩, hne⟩
      exact hne hown
    · rw [if_neg hown]
      by_cases hlive : now < l.expires
      · rw [if_pos ((isLive_iff l now).mpr hlive)]
        constructor
        · intro h
          cases h
          exact ⟨⟨l.expires, rfl, hlive⟩, hown⟩
        · rintro ⟨⟨e, he, -⟩, -⟩
          cases he
          rfl
      · rw [if_neg (fun h => hlive ((isLive_iff l now).mp h))]
        simp only [reduceCtorEq, Option.some.injEq, false_iff]
        rintro ⟨⟨e, rfl, he⟩, -⟩
        exact hlive he

end LeaseStore

/-- A store of leases and the reading of the steady clock. -/
structure Leasing where
  store : LeaseStore := {}
  now : Nat := 0

namespace Leasing

inductive Event where
  | acquire (name holder : String) (ttl : Nat)
  | release (name holder : String)
  /-- Time passes, or none does. -/
  | advance (nanos : Nat)
deriving Repr, DecidableEq

/-- The lease that a call is about, and who makes it. -/
def Event.caller? : Event → Option (String × String)
  | acquire name holder _ | release name holder => some (name, holder)
  | advance _ => none

def step (w : Leasing) : Event → Leasing
  | .acquire name holder ttl => { w with store := w.store.acquired w.now name holder ttl }
  | .release name holder => { w with store := w.store.released w.now name holder }
  | .advance nanos => { w with now := w.now + nanos }

def run (w : Leasing) : List Event → Leasing
  | [] => w
  | e :: es => (w.step e).run es

/-- A store without leases, at any reading of the clock. -/
def opened (start : Nat) : Leasing := { now := start }

def holder? (w : Leasing) (name : String) : Option String := w.store.holder? w.now name

/-- A call that does not succeed. -/
def Fails (w : Leasing) : Event → Prop
  | .acquire name holder ttl => ∃ fault, w.store.acquire w.now name holder ttl = .error fault
  | .release name holder => ∃ error, w.store.release w.now name holder = .error error
  | .advance _ => False

/-! ## Histories -/

/-- An event and what was there before it. -/
structure Moment where
  before : Leasing
  event : Event

def history (w : Leasing) : List Event → List Moment
  | [] => []
  | e :: es => { before := w, event := e } :: (w.step e).history es

/-- A lease is given: a call to acquire it succeeds and says when it expires. -/
def Moment.Gives (m : Moment) (name : String) (l : Lease) : Prop :=
  ∃ ttl store, m.event = .acquire name l.holder ttl ∧
    m.before.store.acquire m.before.now name l.holder ttl = .ok (l.expires, store)

/-- The lease that was given last under a name, and that its holder did not give back since. -/
def Stands (past : List Moment) (name : String) (l : Lease) : Prop :=
  ∃ before m later, past = before ++ m :: later ∧ m.Gives name l ∧
    ∀ x ∈ later, (∀ l', ¬x.Gives name l') ∧ x.event ≠ .release name l.holder

/-- Someone's lease stands, and its expiry is still to come. -/
def Holds (past : List Moment) (name holder : String) (t : Nat) : Prop :=
  ∃ expires, Stands past name { holder, expires } ∧ t < expires

theorem stands_append_iff {past : List Moment} {x : Moment} {name : String} {l : Lease} :
    Stands (past ++ [x]) name l ↔
      x.Gives name l ∨
        Stands past name l ∧ (∀ l', ¬x.Gives name l') ∧ x.event ≠ .release name l.holder := by
  constructor
  · rintro ⟨before, m, later, hpast, hgives, hlater⟩
    rcases List.eq_nil_or_concat later with rfl | ⟨middle, y, rfl⟩
    · obtain ⟨-, hx⟩ := List.append_inj' hpast rfl
      cases hx
      exact Or.inl hgives
    · rw [List.concat_eq_append, ← List.cons_append, ← List.append_assoc] at hpast
      obtain ⟨hfront, hx⟩ := List.append_inj' hpast rfl
      cases hx
      refine Or.inr ⟨⟨before, m, middle, hfront, hgives, fun y hy => ?_⟩, ?_⟩
      · exact hlater y (by simp [hy])
      · exact hlater x (by simp)
  · rintro (hgives | ⟨⟨before, m, later, rfl, hgives, hlater⟩, hlast⟩)
    · exact ⟨past, x, [], rfl, hgives, fun _ hy => by cases hy⟩
    · refine ⟨before, m, later ++ [x], by simp, hgives, fun y hy => ?_⟩
      rcases List.mem_append.mp hy with hy | hy
      · exact hlater y hy
      · rw [List.mem_singleton.mp hy]
        exact hlast

/-! ## One event -/

theorem gives_acquire_iff {w : Leasing} {n holder name : String} {ttl : Nat} {l : Lease} :
    Moment.Gives { before := w, event := .acquire n holder ttl } name l ↔
      (w.store.IsOpen w.now n holder ∧
        w.now + ttl < LeaseStore.clockSeconds * TimeUnit.nanosPerSecond) ∧
        n = name ∧ l = { holder, expires := w.now + ttl } := by
  constructor
  · rintro ⟨ttl', store, he, hok⟩
    cases he
    obtain ⟨hopen, hclock, hexpires, -⟩ := LeaseStore.acquire_eq_ok_iff.mp hok
    refine ⟨⟨hopen, hclock⟩, rfl, ?_⟩
    rw [← hexpires]
  · rintro ⟨⟨hopen, hclock⟩, rfl, rfl⟩
    exact ⟨ttl, _, rfl, LeaseStore.acquire_eq_ok_iff.mpr ⟨hopen, hclock, rfl, rfl⟩⟩

theorem not_gives_release (w : Leasing) (n holder name : String) (l : Lease) :
    ¬Moment.Gives { before := w, event := .release n holder } name l := by
  rintro ⟨ttl, store, he, -⟩
  cases he

theorem not_gives_advance (w : Leasing) (nanos : Nat) (name : String) (l : Lease) :
    ¬Moment.Gives { before := w, event := .advance nanos } name l := by
  rintro ⟨ttl, store, he, -⟩
  cases he

theorem step_of_fails {w : Leasing} {e : Event} (h : w.Fails e) : w.step e = w := by
  cases e with
  | acquire name holder ttl =>
    obtain ⟨fault, hfault⟩ := h
    show Leasing.mk (w.store.acquired w.now name holder ttl) w.now = w
    rw [LeaseStore.acquired_of_error hfault]
  | release name holder =>
    obtain ⟨error, herror⟩ := h
    show Leasing.mk (w.store.released w.now name holder) w.now = w
    rw [LeaseStore.released_of_error herror]
  | advance nanos => exact h.elim

/-- An event leaves under a name the lease that it gives, and else the one that was there, unless its
holder gives it back. -/
theorem leases_step (w : Leasing) (e : Event) (name : String) (l : Lease) :
    (w.step e).store.leases[name]? = some l ↔
      Moment.Gives { before := w, event := e } name l ∨
        w.store.leases[name]? = some l ∧
          (∀ l', ¬Moment.Gives { before := w, event := e } name l') ∧
          e ≠ .release name l.holder := by
  cases e with
  | acquire n holder ttl =>
    show (w.store.acquired w.now n holder ttl).leases[name]? = some l ↔ _
    simp only [gives_acquire_iff, ne_eq, reduceCtorEq, not_false_eq_true, and_true]
    by_cases hgiven : w.store.IsOpen w.now n holder ∧
        w.now + ttl < LeaseStore.clockSeconds * TimeUnit.nanosPerSecond
    · rw [LeaseStore.acquired_of_isOpen hgiven.1 hgiven.2, LeaseStore.leases_grant]
      by_cases hname : name = n
      · subst hname
        simp [hgiven, eq_comm]
      · simp [hname, Ne.symm hname]
    · have hkept : w.store.acquired w.now n holder ttl = w.store := by
        cases hcall : w.store.acquire w.now n holder ttl with
        | error fault => exact LeaseStore.acquired_of_error hcall
        | ok given =>
          obtain ⟨hopen, hclock, -⟩ := LeaseStore.acquire_eq_ok_iff.mp hcall
          exact absurd ⟨hopen, hclock⟩ hgiven
      rw [hkept]
      simp [hgiven]
  | release n holder =>
    show (w.store.released w.now n holder).leases[name]? = some l ↔ _
    rw [LeaseStore.leases_released]
    simp only [not_gives_release, false_or, not_false_eq_true, implies_true, true_and]
    by_cases hname : name = n
    · subst hname
      by_cases hl : w.store.leases[name]? = some l
      · simp [hl, eq_comm]
      · simp [hl]
    · simp [hname, Ne.symm hname]
  | advance nanos =>
    show w.store.leases[name]? = some l ↔ _
    simp [not_gives_advance]

/-! ## Runs -/

theorem leases_run (w : Leasing) (es : List Event) {past : List Moment} {name : String}
    (hpast : ∀ l, w.store.leases[name]? = some l ↔ Stands past name l) (l : Lease) :
    (w.run es).store.leases[name]? = some l ↔ Stands (past ++ w.history es) name l := by
  induction es generalizing w past with
  | nil =>
    rw [history, List.append_nil]
    exact hpast l
  | cons e es ih =>
    rw [history, List.append_cons]
    refine ih (w.step e) fun l => ?_
    rw [leases_step, stands_append_iff, hpast l]

theorem leases_opened (start : Nat) (name : String) (l : Lease) :
    (opened start).store.leases[name]? = some l ↔ Stands [] name l := by
  have hnone : (opened start).store.leases[name]? = none := Std.TreeMap.getElem?_emptyc
  rw [hnone]
  constructor
  · intro h
    cases h
  · rintro ⟨before, m, later, hpast, -⟩
    cases before <;> cases hpast

/-! ## How a lease ends -/

/-- A call about another lease leaves this one as it is. -/
theorem leases_step_other {w : Leasing} {e : Event} {name : String}
    (h : ∀ holder, e.caller? ≠ some (name, holder)) :
    (w.step e).store.leases[name]? = w.store.leases[name]? := by
  refine Option.ext fun l => ?_
  have hgives : ∀ l', ¬Moment.Gives { before := w, event := e } name l' := by
    rintro l' ⟨ttl, store, he, -⟩
    cases he
    exact h _ rfl
  have hkeeps : e ≠ .release name l.holder := by
    rintro rfl
    exact h _ rfl
  rw [leases_step]
  simp [hgives, hkeeps]

/-- Who holds a lease goes on to hold it while others call and no time passes. -/
theorem holder?_step {w : Leasing} {e : Event} {name holder : String}
    (hheld : w.holder? name = some holder) (hcaller : e.caller? ≠ some (name, holder))
    (htime : ∀ nanos, e ≠ .advance nanos) : (w.step e).holder? name = some holder := by
  have hnow : (w.step e).now = w.now := by
    cases e with
    | advance nanos => exact absurd rfl (htime nanos)
    | _ => rfl
  obtain ⟨expires, hlease, hlive⟩ := LeaseStore.holder?_eq_some_iff.mp hheld
  refine LeaseStore.holder?_eq_some_iff.mpr ⟨expires, ?_, by rwa [hnow]⟩
  rw [leases_step]
  refine Or.inr ⟨hlease, ?_, ?_⟩
  · -- the lease is open to its own holder alone
    rintro l' ⟨ttl, store, rfl, hok⟩
    obtain ⟨hopen, -⟩ := LeaseStore.acquire_eq_ok_iff.mp hok
    have hsame : holder = l'.holder := hopen _ hlease hlive
    exact hcaller (by rw [hsame]; rfl)
  · rintro rfl
    exact hcaller rfl

/-- A lease that is no longer held was ended by a call of its own holder, or by time. -/
theorem exists_end_of_run {w : Leasing} {es : List Event} {name holder : String}
    (hheld : w.holder? name = some holder) (hlost : (w.run es).holder? name ≠ some holder) :
    ∃ before e later, es = before ++ e :: later ∧
      (w.run before).holder? name = some holder ∧
      ((w.run before).step e).holder? name ≠ some holder ∧
      (e.caller? = some (name, holder) ∨ ∃ nanos, e = .advance nanos) := by
  induction es generalizing w with
  | nil => exact absurd hheld hlost
  | cons e es ih =>
    by_cases hnext : (w.step e).holder? name = some holder
    · obtain ⟨before, f, later, rfl, hbefore, hafter, hwho⟩ := ih hnext hlost
      exact ⟨e :: before, f, later, rfl, hbefore, hafter, hwho⟩
    · refine ⟨[], e, es, rfl, hheld, hnext, Decidable.or_iff_not_imp_left.mpr fun hcaller => ?_⟩
      cases e with
      | advance nanos => exact ⟨nanos, rfl⟩
      | acquire _ _ _ => exact absurd (holder?_step hheld hcaller nofun) hnext
      | release _ _ => exact absurd (holder?_step hheld hcaller nofun) hnext

/-- At any time a lease is held by the one to whom it was given last, until it expires or he gives it
back.  While it is, others are refused, and nothing that fails and no call about another lease
changes anything. -/
theorem run_tells_holder (start : Nat) (es : List Event) (name : String) :
    let w := (opened start).run es
    let past := (opened start).history es
    (∀ t holder, w.store.holder? t name = some holder ↔ Holds past name holder t) ∧
      (∀ holder other ttl, w.store.acquire w.now name other ttl = .error (.held holder) ↔
        Holds past name holder w.now ∧ holder ≠ other) ∧
      (∀ holder other, w.store.release w.now name other = .error (.held holder) ↔
        Holds past name holder w.now ∧ holder ≠ other) ∧
      (∀ e, w.Fails e → w.step e = w) ∧
      (∀ e, (∀ holder, e.caller? ≠ some (name, holder)) →
        (w.step e).store.leases[name]? = w.store.leases[name]?) ∧
      ∀ holder fs, w.holder? name = some holder → (w.run fs).holder? name ≠ some holder →
        ∃ before e later, fs = before ++ e :: later ∧
          (w.run before).holder? name = some holder ∧
          ((w.run before).step e).holder? name ≠ some holder ∧
          (e.caller? = some (name, holder) ∨ ∃ nanos, e = .advance nanos) := by
  intro w past
  have hholds : ∀ t holder, w.store.holder? t name = some holder ↔ Holds past name holder t := by
    intro t holder
    rw [LeaseStore.holder?_eq_some_iff]
    refine exists_congr fun expires => and_congr_left' ?_
    exact leases_run (opened start) es (leases_opened start name) _
  refine ⟨hholds, ?_, ?_, fun e => step_of_fails, fun e => leases_step_other, ?_⟩
  · intro holder other ttl
    rw [LeaseStore.acquire_eq_held_iff_holder?, hholds]
  · intro holder other
    rw [LeaseStore.release_eq_held_iff_holder?, hholds]
  · exact fun holder fs => exists_end_of_run

/-- The first lease is renewed and then taken over at the very instant at which it is over; its holder
gives back what he no longer has, and is refused. -/
def succession : List Event :=
  [.acquire "nightly" "a" 5, .advance 3, .acquire "nightly" "a" 5, .advance 5,
    .acquire "nightly" "b" 7, .release "nightly" "a"]

theorem succession_holder :
    ((opened 0).run succession).store.holder? 8 "nightly" = some "b" ∧
      Holds ((opened 0).history succession) "nightly" "b" 8 ∧
      ((opened 0).run succession).store.acquire 8 "nightly" "a" 5 = .error (.held "b") := by
  have htells := run_tells_holder 0 succession "nightly"
  have hholds := (htells.1 8 "b").mp (by decide)
  exact ⟨by decide, hholds, (htells.2.1 "b" "a" 5).mpr ⟨hholds, by decide⟩⟩

end Leasing
end RecurringJobs
