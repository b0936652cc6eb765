import Akil.Properties.LockContention

/-!
# The lock waits of a thread

`lock_starts` is one map for all threads of the node, with room for 65536 of them.  This file says
when a thread may forget about the others.  `waits` are the waits of one thread as the trace points
tell of them, from its last begin to the next end, and `threadsWaiting` the threads that are inside
such a wait; the keys of `lock_starts` are among them, whatever updates were refused.  So if at each
begin of the thread no more than 65536 threads wait, itself included, and its own allocation
succeeds, then exactly its waits are measured (`lock_waits_measured`): an event for each for which
the ring buffer has a record, with the length of the wait, and none else.  What the other threads
do, and whether their own updates are refused, makes no difference to it.
-/

namespace Akil

/-! ## Waits -/

/-- A wait of a thread, and what the helpers return at its end. -/
structure LockWait where
  start : UInt64
  stop : UInt64
  ctx : HandlerContext

/-- The waits of thread `id`; `start` is its last begin if it is waiting. -/
def waits (id : UInt64) : Option UInt64 → List (UInt64 × ProbeCall) → List LockWait
  | _, [] => []
  | start, (now, c) :: calls =>
      if c.IsBegin id then waits id (some now) calls
      else if c.IsEnd id then
        match start with
        | some start => ⟨start, now, c.ctx⟩ :: waits id none calls
        | none => waits id none calls
      else waits id start calls

lemma waits_cons (id : UInt64) (start : Option UInt64) (now : UInt64) (c : ProbeCall)
    (calls : List (UInt64 × ProbeCall)) :
    waits id start ((now, c) :: calls)
      = if c.IsBegin id then waits id (some now) calls
        else if c.IsEnd id then
          (start.map (fun start => ⟨start, now, c.ctx⟩)).toList ++ waits id none calls
        else waits id start calls := by
  cases start <;> rfl

/-- The event of a wait, if there is a record for it. -/
def LockWait.event (w : LockWait) : Option EventT :=
  w.ctx.reserved.map fun e =>
    (((e.setEventType eventTypeLockContention).setCgroupId w.ctx.cgroupId).setTimestampNs
      w.stop).setDurationNs (w.stop - w.start)

/-- The threads that wait: they have begun and not ended. -/
def threadsWaiting (_now : UInt64) (c : ProbeCall) (threads : Finset UInt64) : Finset UInt64 :=
  match c.probe with
  | .contentionBegin => insert c.ctx.pidTgid threads
  | .contentionEnd => threads.erase c.ctx.pidTgid
  | .pageFault | .schedSwitch | .cacheMiss => threads

/-- At a begin of thread `id` at most 65536 threads wait, itself included, and its allocation
succeeds. -/
def HasRoom (id : UInt64) (_now : UInt64) (c : ProbeCall) (threads : Finset UInt64) : Prop :=
  c.IsBegin id → c.ctx.updateFails = false ∧ (insert id threads).card ≤ 65536

instance (id now : UInt64) (c : ProbeCall) (threads : Finset UInt64) :
    Decidable (HasRoom id now c threads) :=
  inferInstanceAs (Decidable (_ → _))

/-! ## The map and the waiting threads -/

/-- The keys of `lock_starts` are threads that wait. -/
lemma keys_exec_subset {m : LockStarts} {threads : Finset UInt64} (h : m.entries.keys ⊆ threads)
    (now : UInt64) (c : ProbeCall) : (c.exec now m).entries.keys ⊆ threadsWaiting now c threads := by
  obtain ⟨probe, ctx⟩ := c
  cases probe with
  | pageFault | schedSwitch | cacheMiss => exact h
  | contentionBegin =>
      exact (m.keys_update_subset ctx.pidTgid now ctx.updateFails).trans
        (Finset.insert_subset_insert _ h)
  | contentionEnd =>
      change (handleContentionEnd ctx now m).1.entries.keys ⊆ threads.erase ctx.pidTgid
      rw [handleContentionEnd]
      cases hstart : m.lookup ctx.pidTgid with
      | none =>
          have hnot : ctx.pidTgid ∉ m.entries.keys := fun hmem =>
            Finmap.lookup_eq_none.mp hstart (Finmap.mem_keys.mp hmem)
          exact Finset.subset_erase.mpr ⟨h, hnot⟩
      | some start =>
          change (m.delete ctx.pidTgid).entries.keys ⊆ threads.erase ctx.pidTgid
          rw [BoundedMap.keys_delete]
          exact Finset.erase_subset_erase _ h

/-! ## What an execution does for a thread -/

/-- A begin of the thread with room stores its time. -/
lemma lookup_exec_begin {id now : UInt64} {c : ProbeCall} {m : LockStarts} {threads : Finset UInt64}
    (hkeys : m.entries.keys ⊆ threads) (hbegin : c.IsBegin id) (hroom : HasRoom id now c threads) :
    (c.exec now m).lookup id = some now := by
  obtain ⟨probe, ctx⟩ := c
  obtain ⟨hsucceeds, hcard⟩ := hroom hbegin
  obtain ⟨rfl, rfl⟩ := hbegin
  change (m.update ctx.pidTgid now ctx.updateFails).lookup ctx.pidTgid = some now
  rw [hsucceeds]
  exact BoundedMap.lookup_update_self (BoundedMap.not_refuses hkeys hcard) now

/-- An end of the thread emits its wait and forgets it. -/
lemma lockEvent_end {period id now : UInt64} {c : ProbeCall} {m : LockStarts} (hend : c.IsEnd id) :
    (c.exec now m).lookup id = none ∧ c.lockEvent period id now m
      = (m.lookup id).bind (fun start => (⟨start, now, c.ctx⟩ : LockWait).event) := by
  obtain ⟨probe, ctx⟩ := c
  rw [ProbeCall.lockEvent, if_pos hend]
  obtain ⟨rfl, rfl⟩ := hend
  simp only [ProbeCall.exec, ProbeCall.emit, handleContentionEnd]
  cases hstart : m.lookup ctx.pidTgid with
  | none => exact ⟨hstart, rfl⟩
  | some start => exact ⟨m.lookup_delete_self ctx.pidTgid, rfl⟩

/-- Everything else leaves the thread alone. -/
lemma lookup_exec_other {id now : UInt64} {c : ProbeCall} {m : LockStarts}
    (hbegin : ¬ c.IsBegin id) (hend : ¬ c.IsEnd id) : (c.exec now m).lookup id = m.lookup id := by
  obtain ⟨probe, ctx⟩ := c
  cases probe with
  | pageFault | schedSwitch | cacheMiss => rfl
  | contentionBegin =>
      have hne : id ≠ ctx.pidTgid := fun h => hbegin ⟨rfl, h.symm⟩
      exact m.lookup_update_of_ne hne now ctx.updateFails
  | contentionEnd =>
      have hne : id ≠ ctx.pidTgid := fun h => hend ⟨rfl, h.symm⟩
      change (handleContentionEnd ctx now m).1.lookup id = m.lookup id
      rcases handleContentionEnd_fst ctx now m with hsame | hdelete
      · rw [hsame]
      · rw [hdelete, m.lookup_delete_of_ne hne]

lemma not_isEnd_of_isBegin {id : UInt64} {c : ProbeCall} (h : c.IsBegin id) : ¬ c.IsEnd id := by
  rintro ⟨hend, -⟩
  rw [h.1] at hend
  cases hend

/-- **The events of a thread are its waits**, from any state of the map. -/
lemma lockEvents_eq {period id : UInt64} {m : LockStarts} {threads : Finset UInt64}
    {calls : List (UInt64 × ProbeCall)} (hkeys : m.entries.keys ⊆ threads)
    (hroom : AllSteps threadsWaiting (HasRoom id) threads calls) :
    lockEvents period id m calls = (waits id (m.lookup id) calls).filterMap LockWait.event := by
  induction calls generalizing m threads with
  | nil => rfl
  | cons c calls ih =>
      obtain ⟨now, c⟩ := c
      have hrest := ih (keys_exec_subset hkeys now c) hroom.2
      rw [lockEvents_cons, hrest, waits_cons]
      by_cases hbegin : c.IsBegin id
      · have hquiet : c.lockEvent period id now m = none := if_neg (not_isEnd_of_isBegin hbegin)
        rw [if_pos hbegin, lookup_exec_begin hkeys hbegin hroom.1, hquiet]
        rfl
      · rw [if_neg hbegin]
        by_cases hend : c.IsEnd id
        · obtain ⟨hgone, hevent⟩ := lockEvent_end hend
          rw [if_pos hend, hgone, hevent]
          cases m.lookup id with
          | none => rfl
          | some start =>
              rw [Option.bind_some, Option.map_some, Option.toList_some, List.singleton_append,
                List.filterMap_cons]
              cases LockWait.event ⟨start, now, c.ctx⟩ <;> rfl
        · have hquiet : c.lockEvent period id now m = none := if_neg hend
          rw [if_neg hend, lookup_exec_other hbegin hend, hquiet]
          rfl

/-! ## Lengths -/

/-- A wait ends no earlier than it starts. -/
lemma start_le_stop {id now : UInt64} {start : Option UInt64} {calls : List (UInt64 × ProbeCall)}
    (hstart : ∀ t ∈ start, t ≤ now) (hclock : NondecreasingFrom now calls) :
    ∀ w ∈ waits id start calls, w.start ≤ w.stop := by
  induction calls generalizing now start with
  | nil => exact fun w hw => absurd hw List.not_mem_nil
  | cons c calls ih =>
      obtain ⟨t, c⟩ := c
      obtain ⟨hle, hrest⟩ := hclock
      have hlater : ∀ s ∈ start, s ≤ t := fun s hs => (hstart s hs).trans hle
      have hnone : ∀ s ∈ (none : Option UInt64), s ≤ t := fun s hs => by cases hs
      rw [waits_cons]
      split_ifs
      · exact ih (fun s hs => (Option.mem_some_iff.mp hs).symm.le) hrest
      · cases start with
        | none => exact ih hnone hrest
        | some start =>
            exact List.forall_mem_cons.mpr ⟨hlater start rfl, ih hnone hrest⟩
      · exact ih hlater hrest

/-- The executions of other threads are no waits. -/
lemma waits_filter (id : UInt64) (start : Option UInt64) (calls : List (UInt64 × ProbeCall)) :
    waits id start (calls.filter (fun c => c.2.ctx.pidTgid = id)) = waits id start calls := by
  induction calls generalizing start with
  | nil => rfl
  | cons c calls ih =>
      obtain ⟨now, c⟩ := c
      by_cases hown : c.ctx.pidTgid = id
      · rw [List.filter_cons_of_pos (by simpa using hown), waits_cons, waits_cons]
        simp only [ih]
      · have hbegin : ¬ c.IsBegin id := fun h => hown h.2
        have hend : ¬ c.IsEnd id := fun h => hown h.2
        rw [List.filter_cons_of_neg (by simpa using hown), waits_cons, if_neg hbegin, if_neg hend, ih]

/-- A thread on its own has room if it has room among others. -/
lemma hasRoom_filter {id : UInt64} {threads own : Finset UInt64} (hown : own ⊆ {id})
    {calls : List (UInt64 × ProbeCall)} (h : AllSteps threadsWaiting (HasRoom id) threads calls) :
    AllSteps threadsWaiting (HasRoom id) own
      (calls.filter (fun c => c.2.ctx.pidTgid = id)) := by
  induction calls generalizing threads own with
  | nil => trivial
  | cons c calls ih =>
      obtain ⟨now, c⟩ := c
      by_cases hid : c.ctx.pidTgid = id
      · rw [List.filter_cons_of_pos (by simpa using hid)]
        refine ⟨fun hbegin => ⟨(h.1 hbegin).1, ?_⟩, ih ?_ h.2⟩
        · have hcard := Finset.card_le_card
            (Finset.insert_subset (Finset.mem_singleton_self id) hown)
          rw [Finset.card_singleton] at hcard
          omega
        · obtain ⟨probe, ctx⟩ := c
          obtain rfl : ctx.pidTgid = id := hid
          cases probe with
          | pageFault | schedSwitch | cacheMiss => exact hown
          | contentionBegin => exact Finset.insert_subset (Finset.mem_singleton_self _) hown
          | contentionEnd => exact (Finset.erase_subset _ _).trans hown
      · rw [List.filter_cons_of_neg (by simpa using hid)]
        exact ih hown h.2

/-- The length of a wait, as its event has it. -/
lemma LockWait.durationNs_of_event {w : LockWait} {e : EventT} (h : w.event = some e) :
    e.durationNs = w.stop - w.start := by
  obtain ⟨mem, -, rfl⟩ := Option.map_eq_some_iff.mp h
  exact EventT.durationNs_setDurationNs _ _

/-- The events of some waits sum to the lengths of those with a record. -/
lemma sum_durationNs {ws : List LockWait} (hws : ∀ w ∈ ws, w.start ≤ w.stop) :
    ((ws.filterMap LockWait.event).map (fun e => e.durationNs.toNat)).sum
      = ((ws.filter (fun w => w.ctx.reserved.isSome)).map
          (fun w => w.stop.toNat - w.start.toNat)).sum := by
  induction ws with
  | nil => rfl
  | cons w ws ih =>
      obtain ⟨hw, hws⟩ := List.forall_mem_cons.mp hws
      rw [List.filterMap_cons]
      cases hreserved : w.ctx.reserved with
      | none =>
          have hevent : w.event = none := by rw [LockWait.event, hreserved, Option.map_none]
          rw [hevent, List.filter_cons_of_neg (by simp [hreserved])]
          exact ih hws
      | some mem =>
          obtain ⟨e, hevent⟩ : ∃ e, w.event = some e := by
            rw [LockWait.event, hreserved, Option.map_some]
            exact ⟨_, rfl⟩
          rw [hevent, List.filter_cons_of_pos (by simp [hreserved])]
          simp only [List.map_cons, List.sum_cons, ih hws, LockWait.durationNs_of_event hevent,
            UInt64.toNat_sub_of_le _ _ hw]

/-- **The lock waits of a thread are measured**, in any run of the probes from an empty
`lock_starts` in which at most 65536 threads wait at each of its begins, itself included, and the
update finds memory.  Its events are those of its waits for which there was a record, the durations
sum to the lengths of these, and they are the events of the run of the thread's own executions
alone. -/
theorem lock_waits_measured (period id now : UInt64) (calls : List (UInt64 × ProbeCall))
    (hclock : NondecreasingFrom now calls) (hroom : AllSteps threadsWaiting (HasRoom id) ∅ calls) :
    let events := lockEvents period id BoundedMap.empty calls
    events = (waits id none calls).filterMap LockWait.event ∧
      (events.map (fun e => e.durationNs.toNat)).sum
        = (((waits id none calls).filter (fun w => w.ctx.reserved.isSome)).map
            (fun w => w.stop.toNat - w.start.toNat)).sum ∧
      events = lockEvents period id BoundedMap.empty
        (calls.filter (fun c => c.2.ctx.pidTgid = id)) := by
  intro events
  have hempty : (BoundedMap.empty : LockStarts).entries.keys ⊆ ∅ := by simp [BoundedMap.empty]
  have hevents : events = (waits id none calls).filterMap LockWait.event := by
    have hrun : events = _ := lockEvents_eq hempty hroom
    rwa [BoundedMap.lookup_empty] at hrun
  have hown : lockEvents period id BoundedMap.empty (calls.filter (fun c => c.2.ctx.pidTgid = id))
      = (waits id none calls).filterMap LockWait.event := by
    rw [lockEvents_eq hempty (hasRoom_filter (Finset.empty_subset _) hroom),
      BoundedMap.lookup_empty, waits_filter]
  refine ⟨hevents, ?_, hevents.trans hown.symm⟩
  rw [hevents]
  exact sum_durationNs (start_le_stop (fun t ht => by cases ht) hclock)

/-- Two threads wait at the same time.  The second one's update is refused; the first one's wait is
measured all the same. -/
theorem lock_waits_measured_two_threads :
    let memory : EventT := ⟨List.replicate 40 0, rfl⟩
    let ctx (id : UInt64) (refused : Bool) : HandlerContext := ⟨id, 1, some memory, refused⟩
    let calls : List (UInt64 × ProbeCall) :=
      [(10, ⟨.contentionBegin, ctx 7 false⟩), (12, ⟨.contentionBegin, ctx 8 true⟩),
        (15, ⟨.contentionEnd, ctx 8 false⟩), (20, ⟨.contentionEnd, ctx 7 false⟩)]
    (lockEvents 10000 8 BoundedMap.empty calls).map EventT.durationNs = [] ∧
      ((lockEvents 10000 7 BoundedMap.empty calls).map (fun e => e.durationNs.toNat)).sum = 10 := by
  intro memory ctx calls
  refine ⟨by decide, ?_⟩
  exact (lock_waits_measured 10000 7 0 calls (by decide) (by decide)).2.1.trans (by decide)

end Akil
