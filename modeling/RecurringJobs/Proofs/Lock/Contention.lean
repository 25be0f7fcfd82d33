import Mathlib.Logic.Function.Basic
import RecurringJobs.Proofs.Lock.Agreement

/-!
Locks that contend for leases on one store.

Any number of locks share a store and the steady clock, and others may call the store under names
of their own.  In whatever order their calls come, and however much time passes in between, each
lock says of itself what the store says of it (`run_hasLock_iff_holder`).  The reason is the
invariant `IsSound`: each lock agrees with the store on its lease.
-/

namespace RecurringJobs

/-- Locks on one store, and the reading of the steady clock. -/
structure Contention (ι : Type) where
  locks : ι → LeaseLock
  store : LeaseStore := {}
  now : Nat := 0

namespace Contention

inductive Event (ι : Type) where
  | tryLock (i : ι)
  | tryUnlock (i : ι)
  /-- A call of the store itself. -/
  | acquire (name holder : String) (ttl : Nat)
  | release (name holder : String)
  /-- Time passes, or none does. -/
  | advance (nanos : Nat)
deriving Repr, DecidableEq

variable {ι : Type}

/-- A call of the store is foreign to the locks when none of them makes its calls under that name
and holder. -/
def Event.IsForeign (locks : ι → LeaseLock) : Event ι → Prop
  | acquire name holder _ | release name holder =>
    ∀ i, ¬((locks i).name = name ∧ (locks i).holder = holder)
  | _ => True

theorem Event.IsForeign.congr {locks locks' : ι → LeaseLock} {e : Event ι}
    (h : e.IsForeign locks) (hsame : ∀ i, (locks' i).IsSame (locks i)) : e.IsForeign locks' := by
  cases e with
  | acquire name holder ttl =>
    intro i
    rw [(hsame i).name, (hsame i).holder]
    exact h i
  | release name holder =>
    intro i
    rw [(hsame i).name, (hsame i).holder]
    exact h i
  | _ => exact trivial

/-- All leases are free, no lock was tried yet, and no two locks are the same contender. -/
structure IsNew (c : Contention ι) : Prop where
  free : c.store.leases = ∅
  untried : ∀ i, (c.locks i).heldUntil = none
  distinct : ∀ i j, (c.locks i).name = (c.locks j).name →
    (c.locks i).holder = (c.locks j).holder → i = j

/-! ## The invariant -/

structure IsSound (c : Contention ι) : Prop where
  agrees : ∀ i, (c.locks i).Agrees c.store c.now
  distinct : ∀ i j, (c.locks i).name = (c.locks j).name →
    (c.locks i).holder = (c.locks j).holder → i = j

theorem IsNew.isSound {c : Contention ι} (h : c.IsNew) : c.IsSound where
  agrees i e _ := by
    rw [h.free, h.untried i]
    simp
  distinct := h.distinct

theorem IsSound.other {c : Contention ι} (h : c.IsSound) {i j : ι} (hij : i ≠ j) :
    ¬((c.locks i).name = (c.locks j).name ∧ (c.locks i).holder = (c.locks j).holder) :=
  fun hsame => hij (h.distinct i j hsame.1 hsame.2)

/-- Two locks for one lease that both say that they hold it are the same lock. -/
theorem IsSound.eq_of_hasLock {c : Contention ι} (h : c.IsSound) {i j : ι}
    (hname : (c.locks i).name = (c.locks j).name) (hi : (c.locks i).hasLock c.now = true)
    (hj : (c.locks j).hasLock c.now = true) : i = j := by
  have hi' := (h.agrees i).hasLock_iff_holder.mp hi
  have hj' := (h.agrees j).hasLock_iff_holder.mp hj
  rw [hname, hj'] at hi'
  exact h.distinct i j hname (Option.some.inj hi').symm

/-! ## Runs -/

variable [DecidableEq ι]

def step (c : Contention ι) : Event ι → Contention ι
  | .tryLock i =>
    let (_, lock, store) := (c.locks i).tryLock c.store c.now
    { c with locks := Function.update c.locks i lock, store }
  | .tryUnlock i =>
    let (_, lock, store) := (c.locks i).tryUnlock c.store c.now
    { c with locks := Function.update c.locks i lock, store }
  | .acquire name holder ttl => { c with store := c.store.acquired c.now name holder ttl }
  | .release name holder => { c with store := c.store.released c.now name holder }
  | .advance nanos => { c with now := c.now + nanos }

def run (c : Contention ι) : List (Event ι) → Contention ι
  | [] => c
  | e :: es => (c.step e).run es

/-- Nothing changes who a lock is, or how long its leases last. -/
theorem step_isSame (c : Contention ι) (e : Event ι) (i : ι) :
    ((c.step e).locks i).IsSame (c.locks i) := by
  cases e with
  | tryLock j =>
    by_cases hij : i = j
    · subst hij
      simpa [step] using (c.locks i).tryLock_isSame c.store c.now
    · simpa [step, hij] using LeaseLock.IsSame.refl (c.locks i)
  | tryUnlock j =>
    by_cases hij : i = j
    · subst hij
      simpa [step] using (c.locks i).tryUnlock_isSame c.store c.now
    · simpa [step, hij] using LeaseLock.IsSame.refl (c.locks i)
  | acquire name holder ttl => exact LeaseLock.IsSame.refl _
  | release name holder => exact LeaseLock.IsSame.refl _
  | advance nanos => exact LeaseLock.IsSame.refl _

theorem IsSound.agrees_step {c : Contention ι} (h : c.IsSound) {e : Event ι}
    (hforeign : e.IsForeign c.locks) (i : ι) :
    ((c.step e).locks i).Agrees (c.step e).store (c.step e).now := by
  cases e with
  | tryLock j =>
    by_cases hij : i = j
    · subst hij
      simpa [step] using (h.agrees i).tryLock
    · simpa [step, hij, LeaseLock.tryLock_store] using
        (h.agrees i).acquired_other (h.other hij) (c.locks j).ttl
  | tryUnlock j =>
    by_cases hij : i = j
    · subst hij
      simpa [step] using LeaseLock.Agrees.tryUnlock (c.locks i) c.store c.now
    · simpa [step, hij, LeaseLock.tryUnlock_snd] using
        (h.agrees i).released_other (h.other hij)
  | acquire name holder ttl => exact (h.agrees i).acquired_other (hforeign i) ttl
  | release name holder => exact (h.agrees i).released_other (hforeign i)
  | advance nanos => exact (h.agrees i).later (Nat.le_add_right c.now nanos)

theorem IsSound.step {c : Contention ι} (h : c.IsSound) {e : Event ι}
    (hforeign : e.IsForeign c.locks) : (c.step e).IsSound where
  agrees := h.agrees_step hforeign
  distinct i j hname hholder := by
    have hi := c.step_isSame e i
    have hj := c.step_isSame e j
    rw [hi.name, hj.name] at hname
    rw [hi.holder, hj.holder] at hholder
    exact h.distinct i j hname hholder

theorem IsSound.run {c : Contention ι} (h : c.IsSound) {es : List (Event ι)}
    (hforeign : ∀ e ∈ es, e.IsForeign c.locks) : (c.run es).IsSound := by
  induction es generalizing c with
  | nil => exact h
  | cons e es ih =>
    have hstep := h.step (hforeign e List.mem_cons_self)
    refine ih hstep fun f hf => ?_
    exact (hforeign f (List.mem_cons_of_mem e hf)).congr (c.step_isSame e)

/-- In every order of calls, each lock says that it holds its lease exactly when the store says so
of it, and at most one lock for a lease does. -/
theorem run_hasLock_iff_holder {c : Contention ι} (hnew : c.IsNew) (es : List (Event ι))
    (hforeign : ∀ e ∈ es, e.IsForeign c.locks) :
    let d := c.run es
    (∀ i, (d.locks i).hasLock d.now = true ↔
        d.store.holder? d.now (d.locks i).name = some (d.locks i).holder) ∧
      ∀ i j, (d.locks i).name = (d.locks j).name → (d.locks i).hasLock d.now = true →
        (d.locks j).hasLock d.now = true → i = j := by
  intro d
  have h : d.IsSound := hnew.isSound.run hforeign
  exact ⟨fun i => (h.agrees i).hasLock_iff_holder, fun i j => h.eq_of_hasLock⟩

def duo : Contention Bool :=
  { locks := fun second => { name := "nightly", holder := if second then "b" else "a", ttl := 5 } }

/-- The second lock takes the lease over at the instant at which the first one's is over, a
stranger is refused, and the first one gives back what it no longer has. -/
def takeover : List (Event Bool) :=
  [.tryLock false, .tryLock true, .advance 5, .tryLock true, .acquire "nightly" "c" 7,
    .tryUnlock false]

theorem hasLock_after_takeover :
    duo.IsNew ∧ (∀ e ∈ takeover, e.IsForeign duo.locks) ∧
      ((duo.run takeover).store.holder? 5 "nightly" = some "b") ∧
      ∀ i, ((duo.run takeover).locks i).hasLock 5 = true ↔
        (duo.run takeover).store.holder? 5 ((duo.run takeover).locks i).name =
          some ((duo.run takeover).locks i).holder := by
  have hnew : duo.IsNew :=
    { free := rfl, untried := fun _ => rfl, distinct := by decide }
  have hforeign : ∀ e ∈ takeover, e.IsForeign duo.locks := by
    simp [takeover, Event.IsForeign, duo]
  exact ⟨hnew, hforeign, by decide, (run_hasLock_iff_holder hnew takeover hforeign).1⟩

end Contention
end RecurringJobs
