import Akil.Construction.Probe.Handlers
import Akil.Framework.MachineInt

/-!
# Lock waiting time is never over-counted

The begin and end of a lock wait may reach the probes unbalanced in every way: a begin may be
repeated, its update of `lock_starts` may fail, an end may come without a begin, the event of an
end may find no room in the ring buffer.  Two facts carry the argument through all of it.

* The start time a handler execution finds under a thread's id is the time of a begin of that
  thread (`lockEvents_start`).  So every emitted interval starts at one.
* An end that emits has deleted the thread's entry, so the interval emitted next starts at a
  begin *after* it (`lockEvents_separated`).

Hence the intervals of one thread are separated, none starts before the thread's first begin,
and by `Separated.sum_length_le` their lengths sum to at most the time since then.  That the
stored time never lies ahead of the clock (`StartedBefore`) is the invariant under which the
subtraction in `handle_contention_end` does not wrap.
-/

namespace Akil

/-! ## Intervals laid end to end -/

section Intervals

variable {α : Type*}

/-- Each interval ends before every later one of the list starts. -/
def Separated (start stop : α → ℕ) (l : List α) : Prop :=
  l.Pairwise (fun a b => stop a ≤ start b)

/-- **Separated intervals fit.**  Inside `[lo, hi]` their lengths sum to at most `hi - lo`. -/
theorem Separated.sum_length_le {start stop : α → ℕ} {l : List α}
    (hsep : Separated start stop l) (hwf : ∀ a ∈ l, start a ≤ stop a) {lo hi : ℕ} (hle : lo ≤ hi)
    (hlo : ∀ a ∈ l, lo ≤ start a) (hhi : ∀ a ∈ l, stop a ≤ hi) :
    (l.map (fun a => stop a - start a)).sum ≤ hi - lo := by
  induction l generalizing lo with
  | nil => exact Nat.zero_le _
  | cons a l ih =>
      obtain ⟨hhead, htail⟩ := List.pairwise_cons.mp hsep
      have ha : start a ≤ stop a := hwf a List.mem_cons_self
      have hstart : lo ≤ start a := hlo a List.mem_cons_self
      have hstop : stop a ≤ hi := hhi a List.mem_cons_self
      have hrest := ih htail (fun b hb => hwf b (List.mem_cons_of_mem _ hb)) hstop hhead
        (fun b hb => hhi b (List.mem_cons_of_mem _ hb))
      rw [List.map_cons, List.sum_cons]
      omega

end Intervals

/-! ## What one execution does to a thread's entry -/

/-- The execution is a `contention_begin` of thread `id`. -/
def ProbeCall.IsBegin (id : UInt64) (c : ProbeCall) : Prop :=
  c.probe = .contentionBegin ∧ c.ctx.pidTgid = id

/-- The execution is a `contention_end` of thread `id`. -/
def ProbeCall.IsEnd (id : UInt64) (c : ProbeCall) : Prop :=
  c.probe = .contentionEnd ∧ c.ctx.pidTgid = id

instance (id : UInt64) (c : ProbeCall) : Decidable (c.IsBegin id) :=
  inferInstanceAs (Decidable (_ ∧ _))

instance (id : UInt64) (c : ProbeCall) : Decidable (c.IsEnd id) :=
  inferInstanceAs (Decidable (_ ∧ _))

lemma handleContentionEnd_fst (ctx : HandlerContext) (now : UInt64) (m : LockStarts) :
    (handleContentionEnd ctx now m).1 = m ∨
      (handleContentionEnd ctx now m).1 = m.delete ctx.pidTgid := by
  rw [handleContentionEnd]
  split
  · exact Or.inl rfl
  · exact Or.inr rfl

/-- A thread's entry is kept or removed, or it is the time of a begin of that thread. -/
lemma lookup_exec_cases (id now : UInt64) (c : ProbeCall) (m : LockStarts) :
    (c.exec now m).lookup id = m.lookup id ∨ (c.exec now m).lookup id = none ∨
      c.IsBegin id ∧ (c.exec now m).lookup id = some now := by
  obtain ⟨probe, ctx⟩ := c
  by_cases hid : ctx.pidTgid = id
  · subst hid
    cases probe with
    | pageFault => exact Or.inl rfl
    | schedSwitch => exact Or.inl rfl
    | cacheMiss => exact Or.inl rfl
    | contentionBegin =>
        rcases m.lookup_update_cases ctx.pidTgid now ctx.updateFails with hnew | hold
        · exact Or.inr (Or.inr ⟨⟨rfl, rfl⟩, hnew⟩)
        · exact Or.inl hold
    | contentionEnd =>
        rcases handleContentionEnd_fst ctx now m with hkept | hdeleted
        · exact Or.inl (congrArg _ hkept)
        · right; left
          exact (congrArg _ hdeleted).trans (m.lookup_delete_self ctx.pidTgid)
  · left
    cases probe with
    | pageFault => rfl
    | schedSwitch => rfl
    | cacheMiss => rfl
    | contentionBegin => exact m.lookup_update_of_ne (Ne.symm hid) now ctx.updateFails
    | contentionEnd =>
        rcases handleContentionEnd_fst ctx now m with hkept | hdeleted
        · exact congrArg _ hkept
        · exact (congrArg _ hdeleted).trans (m.lookup_delete_of_ne (Ne.symm hid))

/-! ## The events of one thread -/

/-- What an execution emits for the end of a lock wait of thread `id`. -/
def ProbeCall.lockEvent (period id now : UInt64) (c : ProbeCall) (m : LockStarts) :
    Option EventT :=
  if c.IsEnd id then c.emit period now m else none

/-- The lock events emitted for thread `id` in a run. -/
def lockEvents (period id : UInt64) (m : LockStarts) (calls : List (UInt64 × ProbeCall)) :
    List EventT :=
  timedOutputs ProbeCall.exec (ProbeCall.lockEvent period id) m calls

/-- The times of the executions of `contention_begin` by thread `id`. -/
def beginTimes (id : UInt64) (calls : List (UInt64 × ProbeCall)) : List UInt64 :=
  (calls.filter (fun c => c.2.IsBegin id)).map Prod.fst

/-- The time of the first `contention_begin` of thread `id`. -/
def firstBegin (id : UInt64) (calls : List (UInt64 × ProbeCall)) : Option UInt64 :=
  (beginTimes id calls).head?

/-- Where the interval `[timestamp_ns - duration_ns, timestamp_ns]` of a lock event starts. -/
def EventT.startNs (e : EventT) : UInt64 := e.timestampNs - e.durationNs

/-- An emitting end found the start of its wait in `lock_starts` and has removed it. -/
lemma lockEvent_eq_some {period id now : UInt64} {c : ProbeCall} {m : LockStarts} {e : EventT}
    (h : c.lockEvent period id now m = some e) :
    m.lookup id = some e.startNs ∧ (c.exec now m).lookup id = none ∧ e.timestampNs = now ∧
      c.IsEnd id ∧ e.durationNs = now - e.startNs := by
  obtain ⟨probe, ctx⟩ := c
  unfold ProbeCall.lockEvent at h
  split at h
  case isFalse => cases h
  case isTrue hend =>
    obtain ⟨hprobe, hid⟩ := hend
    dsimp only at hprobe hid
    subst hprobe hid
    simp only [ProbeCall.emit, handleContentionEnd] at h
    simp only [ProbeCall.exec, handleContentionEnd]
    cases hstart : m.lookup ctx.pidTgid with
    | none => simp [hstart] at h
    | some start =>
        simp only [hstart, Option.map_eq_some_iff] at h
        obtain ⟨mem, -, rfl⟩ := h
        simp [EventT.startNs, ProbeCall.IsEnd]

lemma lockEvents_cons (period id : UInt64) (m : LockStarts) (c : UInt64 × ProbeCall)
    (calls : List (UInt64 × ProbeCall)) :
    lockEvents period id m (c :: calls)
      = (c.2.lockEvent period id c.1 m).toList
          ++ lockEvents period id (c.2.exec c.1 m) calls := rfl

lemma beginTimes_cons_of_isBegin {id : UInt64} {c : UInt64 × ProbeCall} (h : c.2.IsBegin id)
    (calls : List (UInt64 × ProbeCall)) :
    beginTimes id (c :: calls) = c.1 :: beginTimes id calls := by
  simp [beginTimes, h]

lemma beginTimes_subset_cons (id : UInt64) (c : UInt64 × ProbeCall)
    (calls : List (UInt64 × ProbeCall)) : beginTimes id calls ⊆ beginTimes id (c :: calls) :=
  (((List.sublist_cons_self c calls).filter _).map _).subset

/-- Every interval emitted for a thread starts at its stored time or at one of its begins. -/
lemma lockEvents_start {period id : UInt64} {m : LockStarts}
    {calls : List (UInt64 × ProbeCall)} {e : EventT} (he : e ∈ lockEvents period id m calls) :
    m.lookup id = some e.startNs ∨ e.startNs ∈ beginTimes id calls := by
  induction calls generalizing m with
  | nil => cases he
  | cons c calls ih =>
      rw [lockEvents_cons, List.mem_append, Option.mem_toList] at he
      rcases he with hhead | htail
      · exact Or.inl (lockEvent_eq_some hhead).1
      · rcases ih htail with hstored | hbegin
        · rcases lookup_exec_cases id c.1 c.2 m with hkept | hgone | ⟨hbegin, hset⟩
          · exact Or.inl (hkept ▸ hstored)
          · rw [hgone] at hstored; cases hstored
          · rw [hset, Option.some_inj] at hstored
            right
            rw [beginTimes_cons_of_isBegin hbegin, ← hstored]
            exact List.mem_cons_self
        · exact Or.inr (beginTimes_subset_cons id c calls hbegin)

lemma mem_of_mem_beginTimes {id t : UInt64} {calls : List (UInt64 × ProbeCall)}
    (h : t ∈ beginTimes id calls) : ∃ c ∈ calls, c.1 = t := by
  obtain ⟨c, hc, rfl⟩ := List.mem_map.mp h
  exact ⟨c, List.mem_of_mem_filter hc, rfl⟩

/-- Every lock event carries the time of an execution of the run. -/
lemma lockEvents_timestamp {period id : UInt64} {m : LockStarts}
    {calls : List (UInt64 × ProbeCall)} {e : EventT} (he : e ∈ lockEvents period id m calls) :
    ∃ c ∈ calls, c.1 = e.timestampNs := by
  induction calls generalizing m with
  | nil => cases he
  | cons c calls ih =>
      rw [lockEvents_cons, List.mem_append, Option.mem_toList] at he
      rcases he with hhead | htail
      · exact ⟨c, List.mem_cons_self, (lockEvent_eq_some hhead).2.2.1.symm⟩
      · obtain ⟨c', hc', ht⟩ := ih htail
        exact ⟨c', List.mem_cons_of_mem _ hc', ht⟩

/-- **Separation.**  After an interval has been emitted the thread has no stored start, so every
later one starts at a later begin. -/
lemma lockEvents_separated {period id now : UInt64} {m : LockStarts}
    {calls : List (UInt64 × ProbeCall)} (hclock : NondecreasingFrom now calls) :
    (lockEvents period id m calls).Pairwise (fun e e' => e.timestampNs ≤ e'.startNs) := by
  induction calls generalizing now m with
  | nil => exact List.Pairwise.nil
  | cons c calls ih =>
      rw [lockEvents_cons]
      refine List.pairwise_append.mpr ⟨?_, ih hclock.2, fun e he e' he' => ?_⟩
      · cases c.2.lockEvent period id c.1 m with
        | none => exact List.Pairwise.nil
        | some e => exact List.pairwise_singleton _ _
      · obtain ⟨-, hgone, htime, -, -⟩ := lockEvent_eq_some (Option.mem_toList.mp he)
        rcases lockEvents_start he' with hstored | hbegin
        · rw [hgone] at hstored
          cases hstored
        · obtain ⟨c', hc', hstart⟩ := mem_of_mem_beginTimes hbegin
          rw [htime, ← hstart]
          exact hclock.2.le_of_mem hc'

/-! ## The subtraction does not wrap -/

/-- No stored start lies ahead of the clock. -/
def StartedBefore (now : UInt64) (m : LockStarts) : Prop :=
  ∀ id start, m.lookup id = some start → start ≤ now

/-- The start a `contention_end` takes from `lock_starts` is not after its own reading of the
clock, so that `now - *start` does not wrap. -/
def NoWrap (now : UInt64) (c : ProbeCall) (m : LockStarts) : Prop :=
  c.probe = .contentionEnd → ∀ start, m.lookup c.ctx.pidTgid = some start → start ≤ now

lemma StartedBefore.exec {now t : UInt64} {m : LockStarts} (h : StartedBefore now m)
    (hle : now ≤ t) (c : ProbeCall) : StartedBefore t (c.exec t m) := by
  intro id start hstart
  rcases lookup_exec_cases id t c m with hkept | hgone | ⟨-, hset⟩
  · exact (h id start (hkept ▸ hstart)).trans hle
  · rw [hgone] at hstart
    cases hstart
  · rw [hset, Option.some_inj] at hstart
    exact hstart.symm.le

lemma allSteps_noWrap {now : UInt64} {m : LockStarts} {calls : List (UInt64 × ProbeCall)}
    (hm : StartedBefore now m) (hclock : NondecreasingFrom now calls) :
    AllSteps ProbeCall.exec NoWrap m calls :=
  allSteps_of_invariant
    (fun _ _ c _ h hle => ⟨fun _ start hstart => (h _ start hstart).trans hle, h.exec hle c⟩)
    hm hclock

/-- Where the subtraction does not wrap, an interval ends after it starts. -/
lemma startNs_le_timestampNs {period id : UInt64} {m : LockStarts}
    {calls : List (UInt64 × ProbeCall)} (h : AllSteps ProbeCall.exec NoWrap m calls)
    {e : EventT} (he : e ∈ lockEvents period id m calls) :
    e.startNs ≤ e.timestampNs ∧ e.durationNs = e.timestampNs - e.startNs := by
  induction calls generalizing m with
  | nil => cases he
  | cons c calls ih =>
      rw [lockEvents_cons, List.mem_append, Option.mem_toList] at he
      rcases he with hhead | htail
      · obtain ⟨hstart, -, htime, ⟨hprobe, hid⟩, hdur⟩ := lockEvent_eq_some hhead
        rw [htime]
        exact ⟨h.1 hprobe _ (hid ▸ hstart), hdur⟩
      · exact ih h.2 htail

/-! ## Sums of waiting time -/

/-- No interval starts before the thread's first begin. -/
lemma firstBegin_le {id now b t : UInt64} {calls : List (UInt64 × ProbeCall)}
    (hclock : NondecreasingFrom now calls) (hb : firstBegin id calls = some b)
    (ht : t ∈ beginTimes id calls) : b ≤ t := by
  induction calls generalizing now with
  | nil => cases ht
  | cons c calls ih =>
      by_cases hbegin : c.2.IsBegin id
      · rw [firstBegin, beginTimes_cons_of_isBegin hbegin, List.head?_cons, Option.some_inj] at hb
        rw [beginTimes_cons_of_isBegin hbegin] at ht
        subst hb
        rcases List.mem_cons.mp ht with rfl | ht
        · exact le_refl _
        · obtain ⟨c', hc', rfl⟩ := mem_of_mem_beginTimes ht
          exact hclock.2.le_of_mem hc'
      · have htail : beginTimes id (c :: calls) = beginTimes id calls := by
          simp [beginTimes, hbegin]
        rw [firstBegin, htail] at hb
        exact ih hclock.2 hb (htail ▸ ht)

/-- **Lock waiting time is never over-counted.**  In any run of the probes from an empty
`lock_starts` under a clock that does not go back, for any thread: the subtraction of
`handle_contention_end` never wraps; each emitted interval ends no later than the next ones
start; and at any moment from the last execution on, the durations emitted so far sum to at most
the time since the thread's first `contention_begin` (a thread without one has no events). -/
theorem lock_time_never_overcounted (period now id : UInt64)
    (calls : List (UInt64 × ProbeCall)) (hclock : NondecreasingFrom now calls) :
    AllSteps ProbeCall.exec NoWrap BoundedMap.empty calls ∧
      (∀ e ∈ lockEvents period id BoundedMap.empty calls, e.durationNs ≤ e.timestampNs) ∧
      (lockEvents period id BoundedMap.empty calls).Pairwise
        (fun e e' => e.timestampNs ≤ e'.timestampNs - e'.durationNs) ∧
      (firstBegin id calls = none → lockEvents period id BoundedMap.empty calls = []) ∧
      ∀ b moment : UInt64, firstBegin id calls = some b → lastTime now calls ≤ moment →
        b ≤ moment ∧ ((lockEvents period id BoundedMap.empty calls).map
          (fun e => e.durationNs.toNat)).sum ≤ moment.toNat - b.toNat := by
  have hnowrap : AllSteps ProbeCall.exec NoWrap BoundedMap.empty calls :=
    allSteps_noWrap (fun _ _ h => by simp at h) hclock
  have hstart : ∀ e ∈ lockEvents period id BoundedMap.empty calls,
      e.startNs ∈ beginTimes id calls := fun e he => by
    simpa using lockEvents_start he
  have hdur : ∀ e ∈ lockEvents period id BoundedMap.empty calls,
      e.durationNs.toNat = e.timestampNs.toNat - e.startNs.toNat := fun e he => by
    obtain ⟨hle, hdur⟩ := startNs_le_timestampNs hnowrap he
    rw [hdur, UInt64.toNat_sub_of_le _ _ hle]
  refine ⟨hnowrap, fun e he => ?_, lockEvents_separated hclock, fun hnone => ?_,
    fun b moment hb hmoment => ?_⟩
  · rw [UInt64.le_iff_toNat_le, hdur e he]
    exact Nat.sub_le _ _
  · rw [firstBegin, List.head?_eq_none_iff] at hnone
    refine List.eq_nil_iff_forall_not_mem.mpr (fun e he => ?_)
    simpa [hnone] using hstart e he
  · have hmem : b ∈ beginTimes id calls := List.mem_of_head? hb
    obtain ⟨c, hc, rfl⟩ := mem_of_mem_beginTimes hmem
    have hle : c.1 ≤ moment := (hclock.le_lastTime_of_mem hc).trans hmoment
    have hsep : Separated (fun e : EventT => e.startNs.toNat) (fun e => e.timestampNs.toNat)
        (lockEvents period id BoundedMap.empty calls) :=
      (lockEvents_separated hclock).imp (fun h => UInt64.le_iff_toNat_le.mp h)
    refine ⟨hle, ?_⟩
    rw [List.map_congr_left hdur]
    refine hsep.sum_length_le (fun e he => ?_) (UInt64.le_iff_toNat_le.mp hle)
      (fun e he => ?_) (fun e he => ?_)
    · exact UInt64.le_iff_toNat_le.mp (startNs_le_timestampNs hnowrap he).1
    · exact UInt64.le_iff_toNat_le.mp (firstBegin_le hclock hb (hstart e he))
    · obtain ⟨c', hc', htime⟩ := lockEvents_timestamp he
      rw [← UInt64.le_iff_toNat_le, ← htime]
      exact (hclock.le_lastTime_of_mem hc').trans hmoment

/-- A thread that begins twice, ends, ends again and begins anew: the one event carries the wait
since the second begin, and eight nanoseconds are no more than the fifteen elapsed. -/
theorem lock_time_never_overcounted_nested :
    let memory : EventT := ⟨List.replicate 40 0xff, rfl⟩
    let ctx : HandlerContext := ⟨7, 1, some memory, false⟩
    let calls : List (UInt64 × ProbeCall) :=
      [(10, ⟨.contentionBegin, ctx⟩), (12, ⟨.contentionBegin, ctx⟩), (20, ⟨.contentionEnd, ctx⟩),
        (22, ⟨.contentionEnd, ctx⟩), (25, ⟨.contentionBegin, ctx⟩)]
    (lockEvents 10000 7 BoundedMap.empty calls).map EventT.durationNs = [8] ∧
      ((lockEvents 10000 7 BoundedMap.empty calls).map (fun e => e.durationNs.toNat)).sum
        ≤ (25 : UInt64).toNat - (10 : UInt64).toNat := by
  intro memory ctx calls
  have hrun := lock_time_never_overcounted 10000 0 7 calls (by decide)
  exact ⟨by decide, (hrun.2.2.2.2 10 25 (by decide) (by decide)).2⟩

end Akil
