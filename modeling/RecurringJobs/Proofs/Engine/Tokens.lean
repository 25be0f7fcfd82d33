import RecurringJobs.Proofs.Engine.Tasks

/-!
Which tokens hold which tasks.

`IsSettled` holds of a new engine and every operation keeps it: while the engine runs, every slot has
the token of a live task that does the work of its entry, and there are no other live tasks.  Within
a start some slots have no token yet, and `IsWired` is what holds there too.
-/

namespace RecurringJobs

variable {η : Type}

namespace TaskEngine

/-- What holds at all times, also while a start goes through the entries. -/
structure IsWired (d : TaskEngine η) : Prop where
  ids_nodup : d.ids.Nodup
  given : ∀ s ∈ d.slots, s.entry.id ≤ d.lastId
  numbers_nodup : (d.tasks.map fun t => t.token.number).Nodup
  issued : ∀ t ∈ d.tasks, t.token.number < d.issued
  cancelled : ∀ n ∈ d.cancelledTokens, n < d.issued
  shutdowns : ∀ n ∈ d.cancelledShutdowns, n < d.shutdown
  /-- The shutdown token of a task is the one in use, or is cancelled. -/
  reachable : ∀ t ∈ d.tasks, t.token.shutdown = d.shutdown ∨
    t.token.shutdown ∈ d.cancelledShutdowns
  held : ∀ s ∈ d.slots, ∀ token, s.cancel = some token →
    ∃ t ∈ d.tasks, d.Live t ∧ t.token = token ∧ t.work = s.entry.work
  owned : ∀ t ∈ d.tasks, d.Live t →
    ∃ s ∈ d.slots, s.cancel = some t.token ∧ s.entry.work = t.work

/-- What holds between two operations. -/
structure IsSettled (d : TaskEngine η) : Prop where
  wired : d.IsWired
  armed : ∀ s ∈ d.slots, s.cancel.isSome = d.running
  runtime : d.running = true → d.hasRuntime = true

theorem isSettled_new : ({} : TaskEngine η).IsSettled where
  wired := by
    constructor <;> simp [ids, entries]
  armed := by simp
  runtime := nofun

theorem nodup_concat_of_lt {numbers : List Nat} (h : numbers.Nodup) {n : Nat}
    (hlt : ∀ m ∈ numbers, m < n) : (numbers ++ [n]).Nodup := by
  refine List.nodup_append.mpr ⟨h, List.nodup_singleton n, ?_⟩
  intro m hm k hk
  rw [List.mem_singleton] at hk
  subst hk
  exact Nat.ne_of_lt (hlt m hm)

namespace IsWired

variable {d : TaskEngine η}

theorem slots_nodup (h : d.IsWired) : (d.slots.map fun s => s.entry.id).Nodup := by
  have hids := h.ids_nodup
  unfold ids entries at hids
  rwa [List.map_map] at hids

theorem eq_of_id_eq (h : d.IsWired) {s r : Slot η} (hs : s ∈ d.slots) (hr : r ∈ d.slots)
    (hid : s.entry.id = r.entry.id) : s = r :=
  List.inj_on_of_nodup_map h.slots_nodup hs hr hid

theorem eq_of_number_eq (h : d.IsWired) {t u : TimerTask η} (ht : t ∈ d.tasks) (hu : u ∈ d.tasks)
    (hnumber : t.token.number = u.token.number) : t = u :=
  List.inj_on_of_nodup_map h.numbers_nodup ht hu hnumber

theorem slot?_of_mem (h : d.IsWired) {s : Slot η} (hs : s ∈ d.slots) :
    d.slot? s.entry.id = some s :=
  find?_of_nodup_map (f := fun r : Slot η => r.entry.id) h.slots_nodup hs

/-- The slot of a live task. -/
theorem exists_slot (h : d.IsWired) {t : TimerTask η} (ht : t ∈ d.tasks) (hlive : d.Live t) :
    ∃ s ∈ d.slots, s.entry.id = t.id ∧ s.cancel = some t.token := by
  obtain ⟨s, hs, hcancel, hwork⟩ := h.owned t ht hlive
  exact ⟨s, hs, congrArg Prod.fst hwork, hcancel⟩

/-- Live tasks are told apart by the numbers of their entries. -/
theorem eq_of_live (h : d.IsWired) {t u : TimerTask η} (ht : t ∈ d.live) (hu : u ∈ d.live)
    (hid : t.id = u.id) : t = u := by
  obtain ⟨htask, htlive⟩ := mem_live.mp ht
  obtain ⟨hutask, hulive⟩ := mem_live.mp hu
  obtain ⟨s, hs, hsid, hscancel⟩ := h.exists_slot htask htlive
  obtain ⟨r, hr, hrid, hrcancel⟩ := h.exists_slot hutask hulive
  rw [h.eq_of_id_eq hs hr (hsid.trans (hid.trans hrid.symm)), hrcancel] at hscancel
  apply h.eq_of_number_eq htask hutask
  rw [Option.some.inj hscancel]

/-! ### Spawning -/

theorem mem_spawn_slots (h : d.IsWired) {s r : Slot η} (hs : s ∈ d.slots) :
    r ∈ (d.spawn s.entry).slots ↔
      r = { s with cancel := some d.nextToken } ∨ r ∈ d.slots ∧ r.entry.id ≠ s.entry.id := by
  unfold spawn
  rw [List.mem_map]
  constructor
  · rintro ⟨q, hq, rfl⟩
    by_cases hid : q.entry.id = s.entry.id
    · rw [if_pos hid, h.eq_of_id_eq hq hs hid]
      exact Or.inl rfl
    · rw [if_neg hid]
      exact Or.inr ⟨hq, hid⟩
  · rintro (rfl | ⟨hr, hid⟩)
    · exact ⟨s, hs, if_pos rfl⟩
    · exact ⟨r, hr, if_neg hid⟩

/-- A task may be spawned for an entry that has none. -/
theorem spawn (h : d.IsWired) {s : Slot η} (hs : s ∈ d.slots) (hnone : s.cancel = none) :
    (d.spawn s.entry).IsWired where
  ids_nodup := by
    rw [(d.keeps_spawn s.entry).ids]
    exact h.ids_nodup
  given := by
    intro r hr
    rcases (h.mem_spawn_slots hs).mp hr with rfl | ⟨hold, -⟩
    · exact h.given s hs
    · exact h.given r hold
  numbers_nodup := by
    show ((d.tasks ++ [_]).map _).Nodup
    rw [List.map_append]
    apply nodup_concat_of_lt h.numbers_nodup
    intro n hn
    obtain ⟨t, ht, rfl⟩ := List.mem_map.mp hn
    exact h.issued t ht
  issued := by
    intro t ht
    rcases List.mem_append.mp ht with hold | hnew
    · exact Nat.lt_succ_of_lt (h.issued t hold)
    · rw [List.mem_singleton] at hnew
      subst hnew
      exact Nat.lt_succ_self d.issued
  cancelled := fun n hn => Nat.lt_succ_of_lt (h.cancelled n hn)
  shutdowns := h.shutdowns
  reachable := by
    intro t ht
    rcases List.mem_append.mp ht with hold | hnew
    · exact h.reachable t hold
    · rw [List.mem_singleton] at hnew
      subst hnew
      exact Or.inl rfl
  held := by
    intro r hr token htoken
    rcases (h.mem_spawn_slots hs).mp hr with rfl | ⟨hold, -⟩
    · cases htoken
      refine ⟨_, List.mem_append_right _ List.mem_cons_self, ⟨?_, ?_⟩, rfl, rfl⟩
      · exact fun hmem => Nat.lt_irrefl _ (h.shutdowns _ hmem)
      · exact fun hmem => Nat.lt_irrefl _ (h.cancelled _ hmem)
    · obtain ⟨t, ht, hlive, hsame, hwork⟩ := h.held r hold token htoken
      exact ⟨t, List.mem_append_left _ ht, hlive, hsame, hwork⟩
  owned := by
    intro t ht hlive
    rcases List.mem_append.mp ht with hold | hnew
    · obtain ⟨r, hr, hcancel, hwork⟩ := h.owned t hold hlive
      refine ⟨r, (h.mem_spawn_slots hs).mpr (Or.inr ⟨hr, fun hid => ?_⟩), hcancel, hwork⟩
      rw [h.eq_of_id_eq hr hs hid, hnone] at hcancel
      cases hcancel
    · rw [List.mem_singleton] at hnew
      subst hnew
      exact ⟨_, (h.mem_spawn_slots hs).mpr (Or.inl rfl), rfl, rfl⟩

theorem arm_of_mem (h : d.IsWired) (hruntime : d.hasRuntime = true) {s : Slot η}
    (hs : s ∈ d.slots) : d.arm s.entry.id = d.spawn s.entry := by
  unfold arm
  rw [if_pos hruntime, h.slot?_of_mem hs]

end IsWired

/-- What it comes to when entries are armed one after the other, none of them having a task. -/
structure Arms (d : TaskEngine η) (numbers : List Nat) (d' : TaskEngine η) : Prop where
  wired : d'.IsWired
  cancels : ∀ s ∈ d'.slots, s.cancel.isSome = true ∨ s ∈ d.slots ∧ s.entry.id ∉ numbers
  tasks : ∃ fresh, d'.tasks = d.tasks ++ fresh ∧ fresh.map TimerTask.id = numbers

theorem IsWired.armAll {d : TaskEngine η} (h : d.IsWired) (hruntime : d.hasRuntime = true)
    {numbers : List Nat} (hnodup : numbers.Nodup) (hknown : numbers ⊆ d.ids)
    (hnone : ∀ s ∈ d.slots, s.entry.id ∈ numbers → s.cancel = none) :
    d.Arms numbers (numbers.foldl arm d) := by
  induction numbers generalizing d with
  | nil => exact ⟨h, fun s hs => Or.inr ⟨hs, List.not_mem_nil⟩, ⟨[], by simp⟩⟩
  | cons id numbers ih =>
    obtain ⟨hnot, hrest⟩ := List.nodup_cons.mp hnodup
    obtain ⟨s, hs, rfl⟩ := mem_ids.mp (hknown List.mem_cons_self)
    have hids : (d.spawn s.entry).ids = d.ids := (d.keeps_spawn s.entry).ids
    have hlater : ∀ r ∈ (d.spawn s.entry).slots, r.entry.id ∈ numbers → r.cancel = none := by
      intro r hr hmem
      rcases (h.mem_spawn_slots hs).mp hr with rfl | ⟨hold, -⟩
      · exact absurd hmem hnot
      · exact hnone r hold (List.mem_cons_of_mem _ hmem)
    have hspawned := h.spawn hs (hnone s hs List.mem_cons_self)
    rw [List.foldl_cons, h.arm_of_mem hruntime hs]
    obtain ⟨hwired, hcancels, fresh, htasks, hfresh⟩ :=
      ih hspawned hruntime hrest (hids ▸ fun n hn => hknown (List.mem_cons_of_mem _ hn)) hlater
    refine ⟨hwired, ?_, ?_⟩
    · intro r hr
      rcases hcancels r hr with hsome | ⟨hold, hother⟩
      · exact Or.inl hsome
      · rcases (h.mem_spawn_slots hs).mp hold with rfl | ⟨hmem, hid⟩
        · exact Or.inl rfl
        · exact Or.inr ⟨hmem, List.not_mem_cons_of_ne_of_not_mem hid hother⟩
    · refine ⟨_ :: fresh, htasks.trans (List.append_assoc _ [_] fresh), ?_⟩
      rw [List.map_cons, hfresh]

/-! ### Registering, removing and stopping -/

theorem IsWired.insert {d : TaskEngine η} (h : d.IsWired) (text : String) (plan : Plan)
    (callback : Callback η) : (d.insert text plan callback).IsWired where
  ids_nodup := by
    unfold ids
    rw [entries_insert, List.map_append]
    apply nodup_concat_of_lt h.ids_nodup
    intro n hn
    obtain ⟨s, hs, rfl⟩ := mem_ids.mp hn
    exact Nat.lt_succ_of_le (h.given s hs)
  given := by
    intro s hs
    rcases mem_insert_slots.mp hs with hold | rfl
    · exact Nat.le_succ_of_le (h.given s hold)
    · exact Nat.le_refl _
  numbers_nodup := h.numbers_nodup
  issued := h.issued
  cancelled := h.cancelled
  shutdowns := h.shutdowns
  reachable := h.reachable
  held := by
    intro s hs token htoken
    rcases mem_insert_slots.mp hs with hold | rfl
    · exact h.held s hold token htoken
    · cases htoken
  owned := by
    intro t ht hlive
    obtain ⟨s, hs, hcancel⟩ := h.owned t ht hlive
    exact ⟨s, mem_insert_slots.mpr (Or.inl hs), hcancel⟩

/-- A removal cancels the task of its entry and no other. -/
theorem IsWired.live_unregister {d : TaskEngine η} (h : d.IsWired) (id : Nat) {t : TimerTask η}
    (ht : t ∈ d.tasks) : (d.unregister id).Live t ↔ d.Live t ∧ t.id ≠ id := by
  rcases d.unregister_cases id with ⟨s, hs, rfl, hd⟩ | ⟨hd, hnone⟩
  · rw [hd]
    have hcancelled : t.token.number ∈ (s.cancel.map Token.number).toList ++ d.cancelledTokens ↔
        (∃ token, s.cancel = some token ∧ token.number = t.token.number) ∨
          t.token.number ∈ d.cancelledTokens := by
      rw [List.mem_append, Option.mem_toList, Option.map_eq_some_iff]
    constructor
    · rintro ⟨hroot, hown⟩
      rw [hcancelled, not_or] at hown
      have hlive : d.Live t := ⟨hroot, hown.2⟩
      refine ⟨hlive, fun hid => hown.1 ?_⟩
      obtain ⟨r, hr, hrid, hrcancel⟩ := h.exists_slot ht hlive
      rw [h.eq_of_id_eq hr hs (hrid.trans hid)] at hrcancel
      exact ⟨t.token, hrcancel, rfl⟩
    · rintro ⟨⟨hroot, hown⟩, hid⟩
      refine ⟨hroot, fun hmem => ?_⟩
      rcases hcancelled.mp hmem with ⟨token, htoken, hnumber⟩ | hold
      · obtain ⟨u, hu, -, rfl, hwork⟩ := h.held s hs token htoken
        rw [h.eq_of_number_eq hu ht hnumber] at hwork
        exact hid (congrArg Prod.fst hwork)
      · exact hown hold
  · rw [hd]
    refine ⟨fun hlive => ⟨hlive, fun hid => ?_⟩, And.left⟩
    obtain ⟨s, hs, hsid, -⟩ := h.exists_slot ht hlive
    exact hnone s hs (hsid.trans hid)

theorem IsWired.unregister {d : TaskEngine η} (h : d.IsWired) (id : Nat) :
    (d.unregister id).IsWired := by
  have hlive : ∀ t ∈ d.tasks, ((d.unregister id).Live t ↔ d.Live t ∧ t.id ≠ id) :=
    fun t ht => h.live_unregister id ht
  have hids : (d.unregister id).ids.Nodup := by
    unfold ids
    rw [entries_unregister]
    exact (h.ids_nodup).sublist (List.filter_sublist.map _)
  have hslots : ∀ s, s ∈ (d.unregister id).slots ↔ s ∈ d.slots ∧ s.entry.id ≠ id :=
    fun s => mem_unregister_slots
  rcases d.unregister_cases id with ⟨s, hs, -, hd⟩ | ⟨hd, -⟩
  · rw [hd] at hlive hids hslots ⊢
    refine ⟨hids, ?_, h.numbers_nodup, h.issued, ?_, h.shutdowns, h.reachable, ?_, ?_⟩
    · exact fun r hr => h.given r ((hslots r).mp hr).1
    · intro n hn
      rcases List.mem_append.mp hn with hnew | hold
      · rw [Option.mem_toList, Option.map_eq_some_iff] at hnew
        obtain ⟨token, htoken, rfl⟩ := hnew
        obtain ⟨t, ht, -, rfl, -⟩ := h.held s hs token htoken
        exact h.issued t ht
      · exact h.cancelled n hold
    · intro r hr token htoken
      obtain ⟨hmem, hother⟩ := (hslots r).mp hr
      obtain ⟨t, ht, htlive, hsame, hwork⟩ := h.held r hmem token htoken
      have hid : t.id = r.entry.id := congrArg Prod.fst hwork
      exact ⟨t, ht, (hlive t ht).mpr ⟨htlive, hid ▸ hother⟩, hsame, hwork⟩
    · intro t ht htlive
      obtain ⟨hbefore, hother⟩ := (hlive t ht).mp htlive
      obtain ⟨r, hr, hcancel, hwork⟩ := h.owned t ht hbefore
      have hid : r.entry.id = t.id := congrArg Prod.fst hwork
      exact ⟨r, (hslots r).mpr ⟨hr, hid ▸ hother⟩, hcancel, hwork⟩
  · rw [hd]
    exact h

/-- A stop cancels the shutdown token of every task that was left, and no slot has a token. -/
theorem IsWired.stop {d : TaskEngine η} (h : d.IsWired) : d.stop.IsWired := by
  have hids : d.stop.ids.Nodup := by
    unfold ids
    rw [entries_stop]
    exact h.ids_nodup
  unfold TaskEngine.stop at hids ⊢
  split at hids
  · next hrun =>
    rw [if_pos hrun]
    have hroots : ∀ t ∈ d.tasks, t.token.shutdown ∈ d.shutdown :: d.cancelledShutdowns := by
      intro t ht
      rcases h.reachable t ht with hnow | hold
      · rw [hnow]
        exact List.mem_cons_self
      · exact List.mem_cons_of_mem _ hold
    refine ⟨hids, ?_, h.numbers_nodup, h.issued, h.cancelled, ?_,
      fun t ht => Or.inr (hroots t ht), ?_, fun t ht hlive => absurd (hroots t ht) hlive.1⟩
    · intro s hs
      obtain ⟨r, hr, rfl⟩ := List.mem_map.mp hs
      exact h.given r hr
    · intro n hn
      rcases List.mem_cons.mp hn with rfl | hold
      · exact Nat.lt_succ_self d.shutdown
      · exact Nat.lt_succ_of_lt (h.shutdowns n hold)
    · intro s hs token htoken
      obtain ⟨r, hr, rfl⟩ := List.mem_map.mp hs
      cases htoken
  · next hstands =>
    rw [if_neg hstands]
    exact h

/-! ## Between two operations -/

namespace IsSettled

variable {d : TaskEngine η}

/-- An engine that stands has no live tasks. -/
theorem not_live (h : d.IsSettled) (hstands : d.running = false) {t : TimerTask η}
    (ht : t ∈ d.tasks) : ¬d.Live t := by
  intro hlive
  obtain ⟨s, hs, hcancel, -⟩ := h.wired.owned t ht hlive
  have harmed := h.armed s hs
  rw [hcancel, hstands] at harmed
  cases harmed

theorem register (h : d.IsSettled) (text : String) (callback : Callback η) :
    (d.register text callback).IsSettled := by
  unfold TaskEngine.register
  cases Plan.parse text with
  | error error => exact h
  | ok plan =>
    have hinserted := h.wired.insert text plan callback
    let new : Slot η := { entry := { id := d.lastId + 1, text, plan, callback } }
    have hnew : new ∈ (d.insert text plan callback).slots := mem_insert_slots.mpr (Or.inr rfl)
    by_cases hrun : d.running = true
    · have harm : (d.insert text plan callback).arm (d.lastId + 1) =
          (d.insert text plan callback).spawn new.entry :=
        hinserted.arm_of_mem (h.runtime hrun) hnew
      dsimp only
      rw [if_pos hrun, harm]
      refine ⟨hinserted.spawn hnew rfl, ?_, h.runtime⟩
      intro s hs
      show s.cancel.isSome = d.running
      rcases (hinserted.mem_spawn_slots hnew).mp hs with rfl | ⟨hmem, hother⟩
      · exact hrun.symm
      · rcases mem_insert_slots.mp hmem with hold | rfl
        · exact h.armed s hold
        · exact absurd rfl hother
    · dsimp only
      rw [if_neg hrun]
      refine ⟨hinserted, ?_, h.runtime⟩
      intro s hs
      rcases mem_insert_slots.mp hs with hold | rfl
      · exact h.armed s hold
      · exact (Bool.not_eq_true _ ▸ hrun : d.running = false).symm

theorem unregister (h : d.IsSettled) (id : Nat) : (d.unregister id).IsSettled := by
  have hwired := h.wired.unregister id
  rcases d.unregister_cases id with ⟨s, hs, -, hd⟩ | ⟨hd, -⟩
  · rw [hd] at hwired ⊢
    exact ⟨hwired, fun r hr => h.armed r (List.mem_filter.mp hr).1, h.runtime⟩
  · rw [hd]
    exact h

theorem arms_start (h : d.IsSettled) (hstands : d.running = false)
    {order : TaskEngine η → List Nat} (horder : (order d).Perm d.ids) :
    Arms { d with running := true, hasRuntime := true } (order d) (d.start order) := by
  have hnone : ∀ s ∈ d.slots, s.cancel = none := by
    intro s hs
    have harmed := h.armed s hs
    rwa [hstands, Option.isSome_eq_false_iff, Option.isNone_iff_eq_none] at harmed
  rw [start_of_stands hstands]
  apply IsWired.armAll
  · exact ⟨h.wired.ids_nodup, h.wired.given, h.wired.numbers_nodup, h.wired.issued,
      h.wired.cancelled, h.wired.shutdowns, h.wired.reachable, h.wired.held, h.wired.owned⟩
  · rfl
  · exact horder.nodup_iff.mpr h.wired.ids_nodup
  · exact horder.subset
  · exact fun s hs _ => hnone s hs

theorem start (h : d.IsSettled) {order : TaskEngine η → List Nat}
    (horder : (order d).Perm d.ids) : (d.start order).IsSettled := by
  cases hrun : d.running with
  | true =>
    unfold TaskEngine.start
    rw [if_pos hrun]
    exact h
  | false =>
    have harms := h.arms_start hrun horder
    have hkeeps := keeps_start hrun order
    refine ⟨harms.wired, fun s hs => ?_, fun _ => hkeeps.hasRuntime⟩
    rw [hkeeps.running]
    rcases harms.cancels s hs with hsome | ⟨hmem, hother⟩
    · exact hsome
    · exact absurd (horder.mem_iff.mpr (mem_ids.mpr ⟨s, hmem, rfl⟩)) hother

theorem stop (h : d.IsSettled) : d.stop.IsSettled := by
  have hwired := h.wired.stop
  unfold TaskEngine.stop at hwired ⊢
  split at hwired
  · next hrun =>
    rw [if_pos hrun]
    refine ⟨hwired, fun s hs => ?_, fun hon => absurd hon Bool.false_ne_true⟩
    obtain ⟨r, hr, rfl⟩ := List.mem_map.mp hs
    rfl
  · next hstands =>
    rw [if_neg hstands]
    exact h

theorem take (h : d.IsSettled) {order : TaskEngine η → List Nat}
    (horder : ∀ d : TaskEngine η, (order d).Perm d.ids) (t : Engine.Turn η) :
    (d.take order t).IsSettled := by
  unfold TaskEngine.take
  cases t.move with
  | register text callback => exact h.register text callback
  | unregister id => exact h.unregister id
  | start => exact h.start (horder d)
  | stop => exact h.stop
  | fire serial => exact h

theorem run (h : d.IsSettled) {order : TaskEngine η → List Nat}
    (horder : ∀ d : TaskEngine η, (order d).Perm d.ids) (ts : List (Engine.Turn η)) :
    (d.run order ts).IsSettled := by
  induction ts generalizing d with
  | nil => exact h
  | cons t ts ih => exact ih (h.take horder t)

/-! ## Live tasks -/

theorem live_eq_nil (h : d.IsSettled) (hstands : d.running = false) : d.live = [] := by
  refine List.filter_eq_nil_iff.mpr fun t ht => ?_
  rw [decide_eq_true_iff]
  exact h.not_live hstands ht

theorem mem_live_work (h : d.IsSettled) (hrun : d.running = true) {w : Nat × Plan × Callback η} :
    w ∈ d.live.map TimerTask.work ↔ w ∈ d.entries.map Entry.work := by
  constructor
  · intro hw
    obtain ⟨t, ht, rfl⟩ := List.mem_map.mp hw
    obtain ⟨htask, hlive⟩ := mem_live.mp ht
    obtain ⟨s, hs, -, hwork⟩ := h.wired.owned t htask hlive
    rw [← hwork]
    exact List.mem_map_of_mem (List.mem_map_of_mem hs)
  · intro hw
    obtain ⟨x, hx, rfl⟩ := List.mem_map.mp hw
    obtain ⟨s, hs, rfl⟩ := List.mem_map.mp hx
    have harmed := h.armed s hs
    rw [hrun] at harmed
    obtain ⟨token, htoken⟩ := Option.isSome_iff_exists.mp harmed
    obtain ⟨t, ht, hlive, -, hwork⟩ := h.wired.held s hs token htoken
    rw [← hwork]
    exact List.mem_map_of_mem (mem_live.mpr ⟨ht, hlive⟩)

/-- The live tasks do the work of the entries, each entry's once, while the engine runs. -/
theorem live_work (h : d.IsSettled) :
    (d.live.map TimerTask.work).Perm (if d.running then d.entries.map Entry.work else []) := by
  cases hrun : d.running with
  | false =>
    rw [h.live_eq_nil hrun]
    exact List.Perm.refl _
  | true =>
    have htasks : d.live.Nodup := (List.Nodup.of_map _ h.wired.numbers_nodup).filter _
    have hlive : (d.live.map TimerTask.work).Nodup :=
      htasks.map_on fun t ht u hu hwork => h.wired.eq_of_live ht hu (congrArg Prod.fst hwork)
    have hentries : (d.entries.map Entry.work).Nodup := by
      apply List.Nodup.of_map Prod.fst
      rw [List.map_map]
      exact h.wired.ids_nodup
    exact (List.perm_ext_iff_of_nodup hlive hentries).mpr fun w => h.mem_live_work hrun

/-! ## Starts, stops and removals -/

/-- A start of an engine that stands spawns one task for each entry, and these are the live ones. -/
theorem live_start (h : d.IsSettled) (hstands : d.running = false)
    {order : TaskEngine η → List Nat} (horder : (order d).Perm d.ids) :
    ∃ fresh, (d.start order).tasks = d.tasks ++ fresh ∧ (d.start order).live = fresh ∧
      (fresh.map TimerTask.work).Perm (d.entries.map Entry.work) := by
  obtain ⟨-, -, fresh, (htasks : (d.start order).tasks = d.tasks ++ fresh), hfresh⟩ :=
    h.arms_start hstands horder
  have hkeeps := keeps_start hstands order
  have hwork : ((d.start order).live.map TimerTask.work).Perm (d.entries.map Entry.work) := by
    have hstarted := (h.start horder).live_work
    rw [hkeeps.running, if_pos rfl, hkeeps.entries] at hstarted
    exact hstarted
  have hold : (d.tasks.filter fun t => (d.start order).Live t) = [] := by
    refine List.filter_eq_nil_iff.mpr fun t ht => ?_
    rw [decide_eq_true_iff, hkeeps.live]
    exact h.not_live hstands ht
  have hlive : (d.start order).live = fresh.filter fun t => (d.start order).Live t := by
    unfold live
    rw [htasks, List.filter_append, hold, List.nil_append]
  have hlength : (d.start order).live.length = fresh.length := by
    calc (d.start order).live.length
        = (d.entries.map Entry.work).length := by rw [← hwork.length_eq, List.length_map]
      _ = d.ids.length := by unfold ids; rw [List.length_map, List.length_map]
      _ = (order d).length := horder.length_eq.symm
      _ = fresh.length := by rw [← hfresh, List.length_map]
  have hall : (d.start order).live = fresh := by
    rw [hlive] at hlength ⊢
    exact List.filter_sublist.eq_of_length hlength
  refine ⟨fresh, htasks, hall, ?_⟩
  rwa [hall] at hwork

theorem live_unregister (h : d.IsSettled) (id : Nat) :
    (d.unregister id).live = d.live.filter fun t => t.id ≠ id := by
  unfold live
  rw [(d.unregister_rest id).1, List.filter_filter]
  refine List.filter_congr fun t ht => ?_
  simp only [h.wired.live_unregister id ht, Bool.decide_and, Bool.and_comm]

theorem live_stop (h : d.IsSettled) : d.stop.live = [] := by
  apply h.stop.live_eq_nil
  unfold TaskEngine.stop
  split
  · rfl
  · next hstands => exact Bool.not_eq_true _ ▸ hstands

end IsSettled
end TaskEngine
end RecurringJobs
