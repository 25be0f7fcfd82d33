import Mathlib.Algebra.GroupWithZero.Nat
import RecurringJobs.Signal.Shutdown

/-!
What the receivers of a shutdown signal are told in the course of its history.

`pending` counts from the history alone how many requests a receiver has not been told of yet.  The
signal keeps a position for each receiver, and every act leaves the distance from there to the last
request equal to this count (`perform_behind`).  So the next answer to a receiver is fixed by what was
requested since it subscribed and by what it was told itself, whatever other receivers do
(`told_of_pending`).
-/

namespace RecurringJobs

/-- What is told of so many requests. -/
def Reception.ofCount : Nat → Reception
  | 0 => .empty
  | 1 => .received
  | n + 2 => .lagged (n + 1)

theorem Reception.ofCount_eq_empty_iff {k : Nat} : Reception.ofCount k = .empty ↔ k = 0 := by
  match k with
  | 0 | 1 | n + 2 => simp [Reception.ofCount]

theorem Reception.ofCount_eq_received_iff {k : Nat} : Reception.ofCount k = .received ↔ k = 1 := by
  match k with
  | 0 | 1 | n + 2 => simp [Reception.ofCount]

theorem Reception.ofCount_eq_lagged_iff {k n : Nat} :
    Reception.ofCount k = .lagged n ↔ 2 ≤ k ∧ n = k - 1 := by
  match k with
  | 0 | 1 => simp [Reception.ofCount]
  | m + 2 =>
    simp [Reception.ofCount]
    omega

namespace ShutdownSignal

/-- What is done with a signal.  Its clones are all the same signal. -/
inductive Act where
  | subscribe
  | trigger
  | receive (rx : Nat)
deriving Repr, DecidableEq

inductive Event where
  | subscribed (rx : Nat)
  | triggered
  | told (rx : Nat) (what : Reception)
  /-- There is no such receiver. -/
  | unknown (rx : Nat)
deriving Repr, DecidableEq

def perform (s : ShutdownSignal) : Act → Event × ShutdownSignal
  | .subscribe => (.subscribed s.subscribe.1, s.subscribe.2)
  | .trigger => (.triggered, s.trigger)
  | .receive rx =>
    match s.receive rx with
    | some (what, s) => (.told rx what, s)
    | none => (.unknown rx, s)

def run (s : ShutdownSignal) : List Act → ShutdownSignal
  | [] => s
  | a :: as => (s.perform a).2.run as

def history (s : ShutdownSignal) : List Act → List Event
  | [] => []
  | a :: as => (s.perform a).1 :: (s.perform a).2.history as

theorem run_append (s : ShutdownSignal) (as bs : List Act) :
    s.run (as ++ bs) = (s.run as).run bs := by
  induction as generalizing s with
  | nil => rfl
  | cons a as ih => exact ih (s.perform a).2

/-- An event in a history is that of an act, and what is behind it comes from the acts after it. -/
theorem history_split {s : ShutdownSignal} {acts : List Act} {before after : List Event} {e : Event}
    (h : s.history acts = before ++ e :: after) :
    ∃ as a bs, acts = as ++ a :: bs ∧ s.history as = before ∧ ((s.run as).perform a).1 = e ∧
      ((s.run as).perform a).2.history bs = after := by
  induction before generalizing s acts with
  | nil =>
    cases acts with
    | nil => cases h
    | cons a bs =>
      obtain ⟨he, hafter⟩ := List.cons.inj h
      exact ⟨[], a, bs, rfl, rfl, he, hafter⟩
  | cons first before ih =>
    cases acts with
    | nil => cases h
    | cons a acts =>
      obtain ⟨hfirst, hrest⟩ := List.cons.inj h
      obtain ⟨as, b, bs, rfl, hbefore, he, hafter⟩ := ih hrest
      refine ⟨a :: as, b, bs, rfl, ?_, he, hafter⟩
      rw [history, hfirst, hbefore]

/-! ## Requests that a receiver was not told of -/

/-- How many requests a receiver is told that it missed. -/
def Event.missed (rx : Nat) : Event → Nat
  | .told r (.lagged n) => if r = rx then n else 0
  | _ => 0

/-- The requests among the events, less those that the receiver got and those that it was told it
missed. -/
def pending (rx : Nat) (es : List Event) : Int :=
  es.count .triggered - es.count (.told rx .received) - (es.map (Event.missed rx)).sum

theorem pending_append (rx : Nat) (es fs : List Event) :
    pending rx (es ++ fs) = pending rx es + pending rx fs := by
  unfold pending
  rw [List.count_append, List.count_append, List.map_append, List.sum_append]
  omega

theorem pending_cons (rx : Nat) (e : Event) (es : List Event) :
    pending rx (e :: es) = pending rx [e] + pending rx es := pending_append rx [e] es

@[simp] theorem pending_nil (rx : Nat) : pending rx [] = 0 := rfl

@[simp] theorem pending_subscribed (rx r : Nat) : pending rx [.subscribed r] = 0 := by
  simp [pending, Event.missed]

@[simp] theorem pending_triggered (rx : Nat) : pending rx [.triggered] = 1 := by
  simp [pending, Event.missed]

@[simp] theorem pending_unknown (rx r : Nat) : pending rx [.unknown r] = 0 := by
  simp [pending, Event.missed]

theorem pending_told_self (rx k : Nat) :
    pending rx [.told rx (.ofCount k)] = ((min 1 (k - 1) : Nat) : Int) - k := by
  match k with
  | 0 => simp [pending, Reception.ofCount, Event.missed]
  | 1 => simp [pending, Reception.ofCount, Event.missed]
  | n + 2 =>
    simp [pending, Reception.ofCount, Event.missed]
    omega

theorem pending_told_other {rx r : Nat} (h : r ≠ rx) (what : Reception) :
    pending rx [.told r what] = 0 := by
  cases what <;> simp [pending, Event.missed, h]

/-! ## Positions -/

/-- No receiver is ahead of the requests. -/
def IsSound (s : ShutdownSignal) : Prop := ∀ p ∈ s.positions, p ≤ s.sent

/-- The requests that are left for a receiver. -/
def behind? (s : ShutdownSignal) (rx : Nat) : Option Nat := s.positions[rx]?.map (s.sent - ·)

theorem receive_eq_none_iff {s : ShutdownSignal} {rx : Nat} :
    s.receive rx = none ↔ s.behind? rx = none := by
  unfold receive behind?
  cases s.positions[rx]? with
  | none => simp
  | some p =>
    dsimp only
    split
    · simp
    · split <;> simp

/-- A reception tells of all requests that are left but the one that is kept, and of that one too
unless others were dropped before it. -/
theorem receive_of_behind {s : ShutdownSignal} (hs : s.IsSound) {rx k : Nat}
    (h : s.behind? rx = some k) :
    s.receive rx = some (.ofCount k,
      { s with positions := s.positions.set rx (s.sent - min 1 (k - 1)) }) := by
  obtain ⟨p, hp, rfl⟩ := Option.map_eq_some_iff.mp h
  have hle : p ≤ s.sent := hs p (List.mem_of_getElem? hp)
  obtain ⟨hrx, hget⟩ := List.getElem?_eq_some_iff.mp hp
  unfold receive
  rw [hp]
  dsimp only
  match hk : s.sent - p with
  | 0 =>
    have hsent : s.sent = s.positions[rx] := by omega
    have hsame : s.positions.set rx s.sent = s.positions := by
      rw [hsent]
      exact List.set_getElem_self hrx
    simp [Reception.ofCount, hsame]
  | 1 => simp [Reception.ofCount]
  | n + 2 => simp [Reception.ofCount]

theorem perform_unknown {s : ShutdownSignal} {rx : Nat} (h : s.behind? rx = none) :
    s.perform (.receive rx) = (.unknown rx, s) := by
  simp only [perform, receive_eq_none_iff.mpr h]

theorem perform_told {s : ShutdownSignal} (hs : s.IsSound) {rx k : Nat}
    (h : s.behind? rx = some k) :
    s.perform (.receive rx) = (.told rx (.ofCount k),
      { s with positions := s.positions.set rx (s.sent - min 1 (k - 1)) }) := by
  simp only [perform, receive_of_behind hs h]

theorem perform_isSound {s : ShutdownSignal} (hs : s.IsSound) (a : Act) :
    (s.perform a).2.IsSound := by
  cases a with
  | subscribe =>
    intro p hp
    rcases List.mem_append.mp hp with hp | hp
    · exact hs p hp
    · exact Nat.le_of_eq (List.mem_singleton.mp hp)
  | trigger =>
    intro p hp
    exact Nat.le_succ_of_le (hs p hp)
  | receive rx =>
    cases hb : s.behind? rx with
    | none =>
      rw [perform_unknown hb]
      exact hs
    | some k =>
      rw [perform_told hs hb]
      intro p hp
      rcases List.mem_or_eq_of_mem_set hp with hp | rfl
      · exact hs p hp
      · exact Nat.sub_le _ _

theorem run_isSound {s : ShutdownSignal} (hs : s.IsSound) (acts : List Act) :
    (s.run acts).IsSound := by
  induction acts generalizing s with
  | nil => exact hs
  | cons a acts ih => exact ih (perform_isSound hs a)

/-- What an act adds to the requests that are left for a receiver is what its event adds to the
count. -/
theorem perform_behind {s : ShutdownSignal} (hs : s.IsSound) {rx k : Nat}
    (h : s.behind? rx = some k) (a : Act) :
    ∃ k' : Nat, (s.perform a).2.behind? rx = some k' ∧
      (k' : Int) = k + pending rx [(s.perform a).1] := by
  obtain ⟨p, hp, hk⟩ := Option.map_eq_some_iff.mp h
  have hle : p ≤ s.sent := hs p (List.mem_of_getElem? hp)
  obtain ⟨hrx, -⟩ := List.getElem?_eq_some_iff.mp hp
  cases a with
  | subscribe =>
    refine ⟨k, ?_, by simp [perform]⟩
    show (s.positions ++ [s.sent])[rx]?.map (s.sent - ·) = some k
    rw [List.getElem?_append_left hrx]
    exact h
  | trigger =>
    refine ⟨k + 1, ?_, by simp [perform]⟩
    show s.positions[rx]?.map (s.sent + 1 - ·) = some (k + 1)
    rw [hp, Option.map_some]
    congr 1
    omega
  | receive r =>
    cases hb : s.behind? r with
    | none =>
      rw [perform_unknown hb]
      exact ⟨k, h, by simp⟩
    | some j =>
      rw [perform_told hs hb]
      -- what another receiver is told moves its own position alone
      by_cases hr : r = rx
      · subst hr
        obtain rfl : j = k := by simpa [hb] using h
        refine ⟨min 1 (j - 1), ?_, ?_⟩
        · rw [behind?, List.getElem?_set_self hrx, Option.map_some]
          have hone : min 1 (j - 1) ≤ s.sent := by omega
          exact congrArg some (Nat.sub_sub_self hone)
        · rw [pending_told_self]
          omega
      · refine ⟨k, ?_, ?_⟩
        · rw [behind?, List.getElem?_set_ne hr]
          exact h
        · rw [pending_told_other hr]
          omega

theorem run_behind {s : ShutdownSignal} (hs : s.IsSound) {rx k : Nat} (h : s.behind? rx = some k)
    (acts : List Act) :
    ∃ k' : Nat, (s.run acts).behind? rx = some k' ∧ (k' : Int) = k + pending rx (s.history acts) := by
  induction acts generalizing s k with
  | nil => exact ⟨k, h, by simp [history]⟩
  | cons a acts ih =>
    obtain ⟨k₁, h₁, hk₁⟩ := perform_behind hs h a
    obtain ⟨k₂, h₂, hk₂⟩ := ih (perform_isSound hs a) h₁
    refine ⟨k₂, h₂, ?_⟩
    rw [history, pending_cons]
    omega

/-- From when it subscribes on, what is left for a receiver is what the history leaves pending. -/
theorem behind_of_subscribed {acts : List Act} {before after : List Event} {rx : Nat}
    (h : history {} acts = before ++ .subscribed rx :: after) :
    ∃ k : Nat, (run {} acts).behind? rx = some k ∧ (k : Int) = pending rx after := by
  obtain ⟨as, a, bs, rfl, -, he, rfl⟩ := history_split h
  have hs : (run {} as).IsSound := run_isSound (by simp [IsSound]) as
  have hnew : ((run {} as).perform a).2.behind? rx = some 0 := by
    cases a with
    | subscribe =>
      obtain rfl : (run {} as).positions.length = rx := by simpa [perform, subscribe] using he
      simp [perform, subscribe, behind?]
    | trigger => cases he
    | receive r =>
      rw [perform] at he
      split at he <;> cases he
  obtain ⟨k, hk, hpending⟩ := run_behind (perform_isSound hs a) hnew bs
  refine ⟨k, ?_, by omega⟩
  rw [run_append]
  exact hk

/-- Two receptions leave nothing: the first tells what was dropped, the second gets what is kept. -/
theorem pending_drained {s : ShutdownSignal} (hs : s.IsSound) {rx k : Nat}
    (h : s.behind? rx = some k) :
    pending rx (s.history [.receive rx, .receive rx]) = -k := by
  obtain ⟨k₁, h₁, hk₁⟩ := perform_behind hs h (.receive rx)
  rw [perform_told hs h, pending_told_self] at hk₁
  have h₂ := perform_told (perform_isSound hs (.receive rx)) h₁
  rw [history, history, history, pending_cons, h₂, perform_told hs h, pending_told_self,
    pending_told_self]
  omega

/-- Events that tell a receiver of no request take none from it. -/
theorem pending_nonneg_of_empty {rx : Nat} {es : List Event}
    (h : ∀ what, .told rx what ∈ es → what = .empty) : 0 ≤ pending rx es := by
  induction es with
  | nil => exact Int.le_refl 0
  | cons e es ih =>
    rw [pending_cons]
    have hes : 0 ≤ pending rx es := ih fun what hwhat => h what (List.mem_cons_of_mem e hwhat)
    have he : 0 ≤ pending rx [e] := by
      cases e with
      | subscribed r => simp
      | triggered => simp
      | unknown r => simp
      | told r what =>
        by_cases hr : r = rx
        · subst hr
          rw [h what List.mem_cons_self]
          exact Int.le_of_eq (pending_told_self r 0).symm
        · exact Int.le_of_eq (pending_told_other hr what).symm
    omega

/-- Once a shutdown was requested, a receiver that was told of no request since is told of one
next. -/
theorem one_le_pending {acts : List Act} {before mid rest : List Event} {rx : Nat}
    (h : history {} acts = before ++ .subscribed rx :: (mid ++ .triggered :: rest))
    (hrest : ∀ what, .told rx what ∈ rest → what = .empty) :
    1 ≤ pending rx (mid ++ .triggered :: rest) := by
  -- before the request nothing is pending below zero, and after it nothing is told of
  have hcut : history {} acts = (before ++ .subscribed rx :: mid) ++ .triggered :: rest := by
    rw [h, List.append_assoc, List.cons_append]
  obtain ⟨as, a, bs, -, hmid, -, -⟩ := history_split hcut
  obtain ⟨k, -, hk⟩ := behind_of_subscribed hmid
  have hnone := pending_nonneg_of_empty hrest
  rw [pending_append, pending_cons, pending_triggered]
  omega

/-! ## Receivers apart -/

/-- An act that is not a reception by another receiver. -/
def Act.concerns (rx : Nat) : Act → Bool
  | .receive r => r == rx
  | _ => true

def Event.concerns (rx : Nat) : Event → Bool
  | .told r _ => r == rx
  | .unknown r => r == rx
  | _ => true

/-- The two signals are the same to a receiver, and to those that are still to come. -/
structure SameFor (rx : Nat) (s t : ShutdownSignal) : Prop where
  sent : s.sent = t.sent
  receivers : s.positions.length = t.positions.length
  position : s.positions[rx]? = t.positions[rx]?

theorem SameFor.behind {rx : Nat} {s t : ShutdownSignal} (h : SameFor rx s t) :
    s.behind? rx = t.behind? rx := by
  rw [behind?, behind?, h.position, h.sent]

theorem SameFor.perform {rx : Nat} {s t : ShutdownSignal} (h : SameFor rx s t) (hs : s.IsSound)
    (ht : t.IsSound) {a : Act} (ha : a.concerns rx) :
    (s.perform a).1 = (t.perform a).1 ∧ ((s.perform a).1).concerns rx ∧
      SameFor rx (s.perform a).2 (t.perform a).2 := by
  cases a with
  | subscribe =>
    refine ⟨congrArg Event.subscribed h.receivers, rfl, h.sent, ?_, ?_⟩
    · simp [ShutdownSignal.perform, subscribe, h.receivers]
    · simp [ShutdownSignal.perform, subscribe, List.getElem?_append, h.receivers, h.position, h.sent]
  | trigger => exact ⟨rfl, rfl, congrArg (· + 1) h.sent, h.receivers, h.position⟩
  | receive r =>
    obtain rfl : r = rx := by simpa [Act.concerns] using ha
    cases hb : s.behind? r with
    | none =>
      rw [perform_unknown hb, perform_unknown (h.behind.symm.trans hb)]
      exact ⟨rfl, by simp [Event.concerns], h⟩
    | some k =>
      rw [perform_told hs hb, perform_told ht (h.behind.symm.trans hb)]
      refine ⟨rfl, by simp [Event.concerns], h.sent, ?_, ?_⟩
      · simp [h.receivers]
      · simp [List.getElem?_set, h.receivers, h.sent]

theorem SameFor.perform_left {rx : Nat} {s t : ShutdownSignal} (h : SameFor rx s t)
    (hs : s.IsSound) {a : Act} (ha : a.concerns rx = false) :
    ((s.perform a).1).concerns rx = false ∧ SameFor rx (s.perform a).2 t := by
  cases a with
  | subscribe => cases ha
  | trigger => cases ha
  | receive r =>
    have hr : r ≠ rx := by simpa [Act.concerns] using ha
    cases hb : s.behind? r with
    | none =>
      rw [perform_unknown hb]
      exact ⟨by simpa [Event.concerns] using hr, h⟩
    | some k =>
      rw [perform_told hs hb]
      refine ⟨by simpa [Event.concerns] using hr, h.sent, ?_, ?_⟩
      · rw [List.length_set]
        exact h.receivers
      · rw [List.getElem?_set_ne hr]
        exact h.position

theorem SameFor.filter_history {rx : Nat} {s t : ShutdownSignal} (h : SameFor rx s t)
    (hs : s.IsSound) (ht : t.IsSound) (acts : List Act) :
    (s.history acts).filter (Event.concerns rx) = t.history (acts.filter (Act.concerns rx)) := by
  induction acts generalizing s t with
  | nil => rfl
  | cons a acts ih =>
    cases ha : a.concerns rx with
    | true =>
      obtain ⟨hsame, he, hnext⟩ := h.perform hs ht ha
      rw [history, List.filter_cons_of_pos he, List.filter_cons_of_pos ha, history,
        ih hnext (perform_isSound hs a) (perform_isSound ht a), hsame]
    | false =>
      obtain ⟨he, hnext⟩ := h.perform_left hs ha
      rw [history, List.filter_cons_of_neg (by simp [he]), List.filter_cons_of_neg (by simp [ha]),
        ih hnext (perform_isSound hs a) ht]

/-! ## Main result -/

/-- What a receiver is told next is fixed by what was requested since it subscribed and what it was
told itself.  Two more receptions tell it of the rest, no request goes by without its being told of
some, and receptions of others make no difference to what it is told. -/
theorem told_of_pending {acts : List Act} {before after : List Event} {rx : Nat}
    (h : history {} acts = before ++ .subscribed rx :: after) :
    0 ≤ pending rx after ∧
    (∃ what s, (run {} acts).receive rx = some (what, s) ∧
      (what = .empty ↔ pending rx after = 0) ∧
      (what = .received ↔ pending rx after = 1) ∧
      (∀ n, what = .lagged n ↔ 2 ≤ pending rx after ∧ (n : Int) = pending rx after - 1) ∧
      ∀ mid rest, after = mid ++ .triggered :: rest →
        (∃ told, told ≠ .empty ∧ .told rx told ∈ rest) ∨ what ≠ .empty) ∧
    pending rx (after ++ (run {} acts).history [.receive rx, .receive rx]) = 0 ∧
    (history {} acts).filter (Event.concerns rx) = history {} (acts.filter (Act.concerns rx)) := by
  have hempty : IsSound {} := by simp [IsSound]
  have hs : (run {} acts).IsSound := run_isSound hempty acts
  obtain ⟨k, hk, hpending⟩ := behind_of_subscribed h
  refine ⟨by omega, ⟨.ofCount k, _, receive_of_behind hs hk, ?_, ?_, ?_, ?_⟩, ?_, ?_⟩
  · rw [Reception.ofCount_eq_empty_iff]
    omega
  · rw [Reception.ofCount_eq_received_iff]
    omega
  · intro n
    rw [Reception.ofCount_eq_lagged_iff]
    omega
  · rintro mid rest rfl
    by_cases htold : ∃ told, told ≠ .empty ∧ .told rx told ∈ rest
    · exact .inl htold
    · have hrest : ∀ what, .told rx what ∈ rest → what = .empty := fun what hwhat =>
        Decidable.byContradiction fun hne => htold ⟨what, hne, hwhat⟩
      have hone := one_le_pending h hrest
      right
      rw [ne_eq, Reception.ofCount_eq_empty_iff]
      omega
  · rw [pending_append, pending_drained hs hk]
    omega
  · exact SameFor.filter_history ⟨rfl, rfl, rfl⟩ hempty hempty acts

/-- The first receiver is told of one request, then leaves three while a second one subscribes. -/
def overtaken : List Act :=
  [.subscribe, .trigger, .receive 0, .trigger, .trigger, .subscribe, .receive 1, .trigger, .receive 1]

theorem told_of_overtaken :
    history {} overtaken = [] ++ .subscribed 0 :: [.triggered, .told 0 .received, .triggered,
      .triggered, .subscribed 1, .told 1 .empty, .triggered, .told 1 .received] ∧
    (∃ s, (run {} overtaken).receive 0 = some (.lagged 2, s)) ∧
    (history {} overtaken).filter (Event.concerns 0) =
      history {} [.subscribe, .trigger, .receive 0, .trigger, .trigger, .subscribe, .trigger] := by
  have h : history {} overtaken = [] ++ .subscribed 0 :: [.triggered, .told 0 .received, .triggered,
      .triggered, .subscribed 1, .told 1 .empty, .triggered, .told 1 .received] := by decide
  obtain ⟨-, ⟨what, s, hreceive, -, -, hlagged, -⟩, -, hapart⟩ := told_of_pending h
  obtain rfl : what = .lagged 2 := (hlagged 2).mpr (by decide)
  exact ⟨h, ⟨s, hreceive⟩, hapart⟩

end ShutdownSignal
end RecurringJobs
