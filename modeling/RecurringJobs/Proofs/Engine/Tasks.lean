import RecurringJobs.Proofs.Engine.Moves

/-!
Timers as tasks that are told to end by tokens.

An engine does not take a timer away.  It spawns a task for it and cancels a token, either the one
that was made for the task, or the shutdown token from which that one was made and which a stop
replaces.  A `TaskEngine` keeps all tasks that were ever spawned; those are live of which neither
token is cancelled.
-/

namespace RecurringJobs

variable {η : Type}

structure Token where
  /-- The shutdown token from which it was made. -/
  shutdown : Nat
  number : Nat
deriving Repr, DecidableEq

structure TimerTask (η : Type) where
  id : Nat
  plan : Plan
  callback : Callback η
  token : Token
deriving Repr, DecidableEq

def TimerTask.work (t : TimerTask η) : Nat × Plan × Callback η := (t.id, t.plan, t.callback)

/-- An entry, and the token of its task. -/
structure Slot (η : Type) where
  entry : Entry η
  cancel : Option Token := none
deriving Repr, DecidableEq

structure TaskEngine (η : Type) where
  slots : List (Slot η) := []
  lastId : Nat := 0
  running : Bool := false
  /-- Whether there is a runtime to spawn tasks in, as there is from the first start on. -/
  hasRuntime : Bool := false
  /-- The shutdown token that new tokens are made from. -/
  shutdown : Nat := 0
  /-- How many tokens have been made for tasks. -/
  issued : Nat := 0
  tasks : List (TimerTask η) := []
  cancelledShutdowns : List Nat := []
  cancelledTokens : List Nat := []
deriving Repr, DecidableEq

namespace TaskEngine

def entries (d : TaskEngine η) : List (Entry η) := d.slots.map Slot.entry

def ids (d : TaskEngine η) : List Nat := d.entries.map Entry.id

/-- Neither the token of the task is cancelled nor the one it was made from. -/
def Live (d : TaskEngine η) (t : TimerTask η) : Prop :=
  t.token.shutdown ∉ d.cancelledShutdowns ∧ t.token.number ∉ d.cancelledTokens

instance (d : TaskEngine η) : DecidablePred d.Live := fun t =>
  inferInstanceAs (Decidable (t.token.shutdown ∉ d.cancelledShutdowns ∧
    t.token.number ∉ d.cancelledTokens))

def live (d : TaskEngine η) : List (TimerTask η) := d.tasks.filter fun t => d.Live t

def slot? (d : TaskEngine η) (id : Nat) : Option (Slot η) := d.slots.find? fun s => s.entry.id = id

/-! ## The operations -/

def nextToken (d : TaskEngine η) : Token := { shutdown := d.shutdown, number := d.issued }

def spawn (d : TaskEngine η) (x : Entry η) : TaskEngine η :=
  { d with
    slots := d.slots.map fun s =>
      if s.entry.id = x.id then { s with cancel := some d.nextToken } else s
    issued := d.issued + 1
    tasks := d.tasks ++
      [{ id := x.id, plan := x.plan, callback := x.callback, token := d.nextToken }] }

def arm (d : TaskEngine η) (id : Nat) : TaskEngine η :=
  if d.hasRuntime then
    match d.slot? id with
    | some s => d.spawn s.entry
    | none => d
  else d

/-- A new slot, with nothing armed for it yet. -/
def insert (d : TaskEngine η) (text : String) (plan : Plan) (callback : Callback η) :
    TaskEngine η :=
  { d with
    lastId := d.lastId + 1
    slots := d.slots ++ [{ entry := { id := d.lastId + 1, text, plan, callback } }] }

def register (d : TaskEngine η) (text : String) (callback : Callback η) : TaskEngine η :=
  match Plan.parse text with
  | .error _ => d
  | .ok plan =>
    if d.running then (d.insert text plan callback).arm (d.lastId + 1)
    else d.insert text plan callback

def unregister (d : TaskEngine η) (id : Nat) : TaskEngine η :=
  match d.slot? id with
  | some s =>
    { d with
      slots := d.slots.filter fun s => s.entry.id ≠ id
      cancelledTokens := (s.cancel.map Token.number).toList ++ d.cancelledTokens }
  | none => d

/-- A start goes through the numbers of the entries in whatever order it finds them. -/
def start (order : TaskEngine η → List Nat) (d : TaskEngine η) : TaskEngine η :=
  if d.running then d
  else (order d).foldl arm { d with running := true, hasRuntime := true }

def stop (d : TaskEngine η) : TaskEngine η :=
  if d.running then
    { d with
      running := false
      cancelledShutdowns := d.shutdown :: d.cancelledShutdowns
      shutdown := d.shutdown + 1
      slots := d.slots.map fun s => { s with cancel := none } }
  else d

/-- A task that goes off goes on with the same token, or ends when there is nothing to wait for. -/
def take (order : TaskEngine η → List Nat) (d : TaskEngine η) (t : Engine.Turn η) :
    TaskEngine η :=
  match t.move with
  | .register text callback => d.register text callback
  | .unregister id => d.unregister id
  | .start => d.start order
  | .stop => d.stop
  | .fire _ => d

def run (order : TaskEngine η → List Nat) (d : TaskEngine η) : List (Engine.Turn η) → TaskEngine η
  | [] => d
  | t :: ts => (d.take order t).run order ts

/-! ## What the operations leave -/

theorem mem_ids {d : TaskEngine η} {id : Nat} : id ∈ d.ids ↔ ∃ s ∈ d.slots, s.entry.id = id := by
  unfold ids entries
  simp

theorem mem_live {d : TaskEngine η} {t : TimerTask η} : t ∈ d.live ↔ t ∈ d.tasks ∧ d.Live t := by
  unfold live
  rw [List.mem_filter, decide_eq_true_iff]

/-! ### Arming -/

/-- What arming leaves as it is. -/
structure Keeps (d d' : TaskEngine η) : Prop where
  entries : d'.entries = d.entries
  lastId : d'.lastId = d.lastId
  running : d'.running = d.running
  hasRuntime : d'.hasRuntime = d.hasRuntime
  live : d'.Live = d.Live

theorem Keeps.refl (d : TaskEngine η) : d.Keeps d := ⟨rfl, rfl, rfl, rfl, rfl⟩

theorem Keeps.trans {a b c : TaskEngine η} (hab : a.Keeps b) (hbc : b.Keeps c) : a.Keeps c :=
  ⟨hbc.entries.trans hab.entries, hbc.lastId.trans hab.lastId, hbc.running.trans hab.running,
    hbc.hasRuntime.trans hab.hasRuntime, hbc.live.trans hab.live⟩

theorem Keeps.ids {d d' : TaskEngine η} (h : d.Keeps d') : d'.ids = d.ids :=
  congrArg (List.map Entry.id) h.entries

theorem keeps_spawn (d : TaskEngine η) (x : Entry η) : d.Keeps (d.spawn x) := by
  refine ⟨?_, rfl, rfl, rfl, rfl⟩
  unfold entries spawn
  rw [List.map_map]
  apply List.map_congr_left
  intro s hs
  show (if s.entry.id = x.id then { s with cancel := some d.nextToken } else s).entry = s.entry
  split <;> rfl

theorem keeps_arm (d : TaskEngine η) (id : Nat) : d.Keeps (d.arm id) := by
  unfold arm
  split
  · split
    · exact d.keeps_spawn _
    · exact Keeps.refl d
  · exact Keeps.refl d

theorem keeps_armAll (d : TaskEngine η) (numbers : List Nat) : d.Keeps (numbers.foldl arm d) := by
  induction numbers generalizing d with
  | nil => exact Keeps.refl d
  | cons id numbers ih => exact (d.keeps_arm id).trans (ih (d.arm id))

theorem start_of_stands {d : TaskEngine η} (hstands : d.running = false)
    (order : TaskEngine η → List Nat) :
    d.start order = (order d).foldl arm { d with running := true, hasRuntime := true } := by
  unfold start
  rw [hstands]
  rfl

theorem keeps_start {d : TaskEngine η} (hstands : d.running = false)
    (order : TaskEngine η → List Nat) :
    Keeps { d with running := true, hasRuntime := true } (d.start order) := by
  rw [start_of_stands hstands]
  exact keeps_armAll _ _

/-! ### The others -/

theorem entries_insert (d : TaskEngine η) (text : String) (plan : Plan) (callback : Callback η) :
    (d.insert text plan callback).entries =
      d.entries ++ [{ id := d.lastId + 1, text, plan, callback }] := by
  unfold entries insert
  rw [List.map_append]
  rfl

theorem mem_insert_slots {d : TaskEngine η} {text : String} {plan : Plan} {callback : Callback η}
    {s : Slot η} : s ∈ (d.insert text plan callback).slots ↔
      s ∈ d.slots ∨ s = { entry := { id := d.lastId + 1, text, plan, callback } } := by
  unfold insert
  rw [List.mem_append, List.mem_singleton]

/-- A removal cancels the token in the slot, if the number is that of an entry. -/
theorem unregister_cases (d : TaskEngine η) (id : Nat) :
    (∃ s ∈ d.slots, s.entry.id = id ∧ d.unregister id =
        { d with
          slots := d.slots.filter fun s => s.entry.id ≠ id
          cancelledTokens := (s.cancel.map Token.number).toList ++ d.cancelledTokens }) ∨
      d.unregister id = d ∧ ∀ s ∈ d.slots, s.entry.id ≠ id := by
  unfold unregister
  cases hs : d.slot? id with
  | some s =>
    have hid : s.entry.id = id := by simpa using List.find?_some hs
    exact Or.inl ⟨s, List.mem_of_find?_eq_some hs, hid, rfl⟩
  | none =>
    refine Or.inr ⟨rfl, fun s hmem => ?_⟩
    simpa using List.find?_eq_none.mp hs s hmem

theorem unregister_rest (d : TaskEngine η) (id : Nat) :
    (d.unregister id).tasks = d.tasks ∧ (d.unregister id).lastId = d.lastId ∧
      (d.unregister id).running = d.running := by
  rcases d.unregister_cases id with ⟨s, -, -, hd⟩ | ⟨hd, -⟩
  · rw [hd]
    exact ⟨rfl, rfl, rfl⟩
  · rw [hd]
    exact ⟨rfl, rfl, rfl⟩

theorem slots_unregister (d : TaskEngine η) (id : Nat) :
    (d.unregister id).slots = d.slots.filter fun s => s.entry.id ≠ id := by
  rcases d.unregister_cases id with ⟨s, -, -, hd⟩ | ⟨hd, hnone⟩
  · rw [hd]
  · rw [hd]
    refine (List.filter_eq_self.mpr fun s hs => ?_).symm
    simpa using hnone s hs

theorem mem_unregister_slots {d : TaskEngine η} {id : Nat} {s : Slot η} :
    s ∈ (d.unregister id).slots ↔ s ∈ d.slots ∧ s.entry.id ≠ id := by
  rw [slots_unregister, List.mem_filter]
  simp

theorem entries_unregister (d : TaskEngine η) (id : Nat) :
    (d.unregister id).entries = d.entries.filter fun x => x.id ≠ id := by
  unfold entries
  rw [slots_unregister, List.filter_map]
  rfl

theorem entries_stop (d : TaskEngine η) : d.stop.entries = d.entries := by
  unfold stop
  split
  · unfold entries
    rw [List.map_map]
    rfl
  · rfl

end TaskEngine
end RecurringJobs
