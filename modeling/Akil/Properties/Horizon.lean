import Akil.Properties.Staleness

/-!
# How long the window really remembers

The documented bound of `n * d` holds only along runs that keep bucket boundaries
(`Properties/Staleness.lean`).  Here the clock of the calls is arbitrary.  A call rotates by the
whole durations since the last rotation, so `q` rotations take at least `q * d`; but the clock
restarts at the call, so up to one further duration is lost with every call that rotates.  Since a
call that rotates at all rotates at least once, `a` rotations take less than `2 * a * d`.  A
record is therefore safe for `(n - 1) * d`, whatever is called in between, and gone after
`(2 * n - 1) * d`.

`Horizon` states both bounds for one record as an invariant of the event log.  That a record is
counted is stated on the code itself: `memory_horizon` compares the run with the same run in
which the record is replaced by a `ComputeProfile`, which rotates alike and adds nothing.
-/

namespace Akil

/-! ## Two logs that differ in one record -/

namespace EventLog

variable {n : ℕ} {d : ℤ}

/-- A call never leaves the last rotation in the future. -/
lemma lastRotation_exec_le (hn : 1 ≤ n) (hd : 0 < d) (E : EventLog) {t : ℤ}
    (hle : E.lastRotation ≤ t) (c : ProfileCall) : (E.exec n d t c).lastRotation ≤ t := by
  have hrot := (E.rotate_recent hn hd hle).1
  cases c with
  | record r nodeName => exact hrot
  | resetData => exact le_rfl
  | computeProfile => exact hrot

lemma lastRotation_run_le (hn : 1 ≤ n) (hd : 0 < d) {E : EventLog} {now : ℤ}
    (hle : E.lastRotation ≤ now) {calls : List (ℤ × ProfileCall)}
    (hclock : NondecreasingFrom now calls) :
    (E.run n d calls).lastRotation ≤ lastTime now calls :=
  timedRun_invariant (f := exec n d) (P := fun _ _ _ => True)
    (I := fun now E => E.lastRotation ≤ now)
    (fun _ _ c E hlast hle _ => E.lastRotation_exec_le hn hd (hlast.trans hle) c)
    hle hclock (allSteps_of_forall (fun _ _ => trivial) _)

end EventLog

/-- `E` is `F` with one more record, `e`. -/
structure OneMore (e : ℕ × LogEntry) (E F : EventLog) : Prop where
  lastRotation_eq : E.lastRotation = F.lastRotation
  rotations_eq : E.log.rotations = F.log.rotations
  entries_eq : ∃ older newer, E.log.entries = older ++ e :: newer ∧
    F.log.entries = older ++ newer

namespace OneMore

variable {n : ℕ} {d : ℤ} {e : ℕ × LogEntry} {E F : EventLog}

lemma rotate (h : OneMore e E F) (t : ℤ) : OneMore e (E.rotate n d t) (F.rotate n d t) := by
  have hcount : E.rotationsAt n d t = F.rotationsAt n d t := by
    rw [EventLog.rotationsAt, EventLog.rotationsAt, h.lastRotation_eq]
  unfold EventLog.rotate
  rw [hcount]
  split_ifs
  · exact h
  · exact ⟨rfl, congrArg (· + _) h.rotations_eq, h.entries_eq⟩

lemma exec (h : OneMore e E F) (t : ℤ) {c : ProfileCall} (hc : c ≠ .resetData) :
    OneMore e (E.exec n d t c) (F.exec n d t c) := by
  have hrot := h.rotate (n := n) (d := d) t
  cases c with
  | record r nodeName =>
      obtain ⟨older, newer, hE, hF⟩ := hrot.entries_eq
      refine ⟨hrot.lastRotation_eq, hrot.rotations_eq, older,
        newer ++ [((F.rotate n d t).log.rotations, ⟨t, nodeName, r.counts⟩)], ?_, ?_⟩
      · simp [EventLog.exec, hE, hrot.rotations_eq]
      · simp [EventLog.exec, hF]
  | resetData => exact absurd rfl hc
  | computeProfile => exact hrot

/-- The log with the record counts what the other counts, and the record while it is live. -/
lemma sumCounts_eq (h : OneMore e E F) (n : ℕ) :
    sumCounts (E.counted n)
      = sumCounts (F.counted n) + if E.log.age e < n then e.2.counts else 0 := by
  obtain ⟨older, newer, hE, hF⟩ := h.entries_eq
  have hage : F.log.age = E.log.age := by
    funext x
    rw [RotationLog.age, RotationLog.age, h.rotations_eq]
  unfold EventLog.counted RotationLog.live
  rw [hE, hF, hage]
  by_cases hlive : E.log.age e < n
  · simp [sumCounts, hlive, add_comm, add_left_comm]
  · simp [sumCounts, hlive]

end OneMore

/-! ## The horizon of one record -/

/-- **The invariant of a record.**  Its rotations took at least their durations, from less than
one duration before the record was made; and while it is live they took at most twice that. -/
structure Horizon (n : ℕ) (d : ℤ) (e : ℕ × LogEntry) (now : ℤ) (E : EventLog) : Prop where
  mem : e ∈ E.log.entries
  last_le : E.lastRotation ≤ now
  age_lt : E.log.age e * d < E.lastRotation - e.2.time + d
  le_age : E.log.age e < n → E.lastRotation - e.2.time ≤ 2 * (E.log.age e * d)

namespace Horizon

variable {n : ℕ} {d now t : ℤ} {e : ℕ × LogEntry} {E : EventLog}

lemma rotate (hn : 1 ≤ n) (hd : 0 < d) (h : Horizon n d e now E) (hle : now ≤ t) :
    Horizon n d e t (E.rotate n d t) := by
  have hlast := h.last_le.trans hle
  rcases E.rotate_cases hn hd hlast with ⟨-, heq⟩ | ⟨q, hq, hlow, hupp, heq⟩
  · rw [heq]
    exact ⟨h.mem, hlast, h.age_lt, h.le_age⟩
  · have hage : (E.log.advance (min n q)).age e = E.log.age e + min n q :=
      E.log.age_advance _ h.mem
    have hold := h.age_lt
    rw [heq]
    refine ⟨h.mem, le_rfl, ?_, fun hlive => ?_⟩
    · have hcap : ((min n q : ℕ) : ℤ) * d ≤ q * d := by
        apply mul_le_mul_of_nonneg_right _ hd.le
        exact_mod_cast min_le_right n q
      rw [hage]
      push_cast
      rw [add_mul]
      push_cast at hcap
      omega
    · rw [hage] at hlive ⊢
      have hmin : min n q = q := by omega
      have hold' := h.le_age (by omega)
      -- less than one duration is lost, and at least one has been rotated away
      have hlost : ((q : ℤ) + 1) * d ≤ 2 * (q * d) := by
        have hqd : (1 : ℤ) * d ≤ q * d := by
          apply mul_le_mul_of_nonneg_right _ hd.le
          exact_mod_cast hq
        rw [add_mul]
        omega
      rw [hmin]
      push_cast
      rw [add_mul]
      omega

lemma exec (hn : 1 ≤ n) (hd : 0 < d) (h : Horizon n d e now E) (hle : now ≤ t)
    {c : ProfileCall} (hc : c ≠ .resetData) : Horizon n d e t (E.exec n d t c) := by
  have hrot := h.rotate hn hd hle
  cases c with
  | record r nodeName =>
      exact ⟨List.mem_append_left _ hrot.mem, hrot.last_le, hrot.age_lt, hrot.le_age⟩
  | resetData => exact absurd rfl hc
  | computeProfile => exact hrot

/-- A record just made. -/
lemma record (hn : 1 ≤ n) (hd : 0 < d) (E : EventLog) (hle : E.lastRotation ≤ t)
    (r : RecordCall) (nodeName : String) :
    Horizon n d ((E.rotate n d t).log.rotations, ⟨t, nodeName, r.counts⟩) t
      (E.exec n d t (.record r nodeName)) := by
  obtain ⟨hlast, hrecent⟩ := E.rotate_recent hn hd hle
  have hage : ((E.rotate n d t).log.append ⟨t, nodeName, r.counts⟩).age
      ((E.rotate n d t).log.rotations, ⟨t, nodeName, r.counts⟩) = 0 := by
    simp [RotationLog.age]
  refine ⟨List.mem_append_right _ (List.mem_singleton.mpr rfl), hlast, ?_, fun _ => ?_⟩
  · simp only [EventLog.exec, hage]
    push_cast
    omega
  · simp only [EventLog.exec, hage]
    push_cast
    omega

/-- Up to `(n - 1) * d` the record is live. -/
lemma live (hd : 0 < d) (h : Horizon n d e t E) (hyoung : t - e.2.time ≤ (n - 1) * d) :
    E.log.age e < n := by
  have hold := h.age_lt
  have hlast := h.last_le
  rw [sub_mul, one_mul] at hyoung
  have hlt : (E.log.age e : ℤ) * d < n * d := by omega
  exact_mod_cast lt_of_mul_lt_mul_right hlt hd.le

/-- From `(2 * n - 1) * d` on it is not. -/
lemma not_live (hd : 0 < d) (h : Horizon n d e t E) (hrecent : t - E.lastRotation < d)
    (hold : (2 * n - 1) * d ≤ t - e.2.time) : ¬ E.log.age e < n := by
  intro hlive
  have hle := h.le_age hlive
  have hmul : ((E.log.age e : ℤ) + 1) * d ≤ n * d := by
    apply mul_le_mul_of_nonneg_right _ hd.le
    exact_mod_cast hlive
  rw [add_mul, one_mul] at hmul
  rw [sub_mul, one_mul, mul_assoc] at hold
  omega

end Horizon

/-- Runs keep the two logs one record apart and the record within its horizon. -/
lemma horizon_run {n : ℕ} (hn : 1 ≤ n) {d : ℤ} (hd : 0 < d) {e : ℕ × LogEntry} {now : ℤ}
    {E F : EventLog} (hmore : OneMore e E F) (hhorizon : Horizon n d e now E)
    {calls : List (ℤ × ProfileCall)} (hclock : NondecreasingFrom now calls)
    (hreset : ∀ u, (u, .resetData) ∉ calls) :
    OneMore e (E.run n d calls) (F.run n d calls) ∧
      Horizon n d e (lastTime now calls) (E.run n d calls) := by
  have hsteps : ∀ c ∈ calls, c.2 ≠ .resetData := by
    rintro ⟨u, c⟩ hc rfl
    exact hreset u hc
  have hrun := timedRun_invariant
    (f := fun t c p => (EventLog.exec n d t c p.1, EventLog.exec n d t c p.2))
    (P := fun _ c _ => c ≠ .resetData)
    (I := fun now p => OneMore e p.1 p.2 ∧ Horizon n d e now p.1)
    (fun _ t _ _ h hle hc => ⟨h.1.exec t hc, h.2.exec hn hd hle hc⟩)
    (s := (E, F)) ⟨hmore, hhorizon⟩ hclock (allSteps_of_forall hsteps _)
  rwa [timedRun_prod] at hrun

/-- The log a query counts from, after a call at `s` and further calls. -/
lemma totals_after_call (key : String) {n : ℕ} (hn : 1 ≤ n) {d : ℤ} (hd : 0 < d) (created : ℤ)
    (before after : List (ℤ × ProfileCall)) (s : ℤ) (c : ProfileCall) (t : ℤ) :
    (((newWorkloadProfile key n d created).run (before ++ (s, c) :: after)).computeProfile
        t).2.totals
      = Counts.wrap (sumCounts (((((EventLog.new created).run n d before).exec n d s c).run n d
          (after ++ [(t, .computeProfile)])).counted n)) := by
  have hcoupled := (Coupled.new_run key hn hd created (before ++ (s, c) :: after)).exec t
    .computeProfile
  refine hcoupled.totals_eq.trans ?_
  rw [EventLog.run_concat]
  simp only [EventLog.run, timedRun_append, timedRun_cons]
  rfl

/-- **The real memory horizon of the window.**  A record is made at `s`, no `ResetData` follows,
and the clock does not go back.  Up to `(n - 1) * d` later, whatever is called in between, the
totals behind a `ComputeProfile` contain the record: they exceed those of the same run without it
by exactly its counts.  From `(2 * n - 1) * d` later on they do not: they are those of the run
without it. -/
theorem memory_horizon (key : String) (n : ℕ) (hn : 1 ≤ n) (d : ℤ) (hd : 0 < d) (created : ℤ)
    (before after : List (ℤ × ProfileCall)) (s : ℤ) (r : RecordCall) (nodeName : String) (t : ℤ)
    (hclock : NondecreasingFrom created
      (before ++ (s, .record r nodeName) :: after ++ [(t, .computeProfile)]))
    (hreset : ∀ u, (u, .resetData) ∉ after) :
    let wp := newWorkloadProfile key n d created
    let made := (wp.run (before ++ (s, .record r nodeName) :: after)).computeProfile t
    let omitted := (wp.run (before ++ (s, .computeProfile) :: after)).computeProfile t
    (t - s ≤ (n - 1) * d → made.2.totals = omitted.2.totals + Counts.wrap r.counts) ∧
      ((2 * n - 1) * d ≤ t - s → made.2.totals = omitted.2.totals) := by
  intro wp made omitted
  rw [List.append_assoc, List.cons_append] at hclock
  obtain ⟨hbefore, hs, hafter⟩ := nondecreasingFrom_append.mp hclock
  have hmade : made.2.totals = _ :=
    totals_after_call key hn hd created before after s (.record r nodeName) t
  have homitted : omitted.2.totals = _ :=
    totals_after_call key hn hd created before after s .computeProfile t
  have hlast : ((EventLog.new created).run n d before).lastRotation ≤ s :=
    (EventLog.lastRotation_run_le hn hd le_rfl hbefore).trans hs
  generalize (EventLog.new created).run n d before = E at hlast hmade homitted
  -- right after the call the two logs are one record apart
  obtain ⟨hmore, hhorizon⟩ := horizon_run hn hd
    (E := E.exec n d s (.record r nodeName)) (F := E.exec n d s .computeProfile)
    ⟨rfl, rfl, (E.rotate n d s).log.entries, [], rfl, (List.append_nil _).symm⟩
    (Horizon.record hn hd E hlast r nodeName) hafter (by simpa using hreset)
  rw [lastTime_concat] at hhorizon
  have hrecent : t - ((E.exec n d s (.record r nodeName)).run n d
      (after ++ [(t, .computeProfile)])).lastRotation < d := by
    rw [EventLog.run_concat]
    obtain ⟨hafter', ht⟩ := nondecreasingFrom_concat.mp hafter
    have hle := EventLog.lastRotation_run_le hn hd
      (E.lastRotation_exec_le hn hd hlast (.record r nodeName)) hafter'
    exact (EventLog.rotate_recent hn hd _ (hle.trans ht)).2
  rw [hmade, homitted, hmore.sumCounts_eq n]
  refine ⟨fun hyoung => ?_, fun hold => ?_⟩
  · rw [if_pos (hhorizon.live hd hyoung), map_add]
  · rw [if_neg (hhorizon.not_live hd hrecent hold), add_zero]

/-- Three buckets of ten nanoseconds, polled just before every boundary: the fault of `0` is
counted at `20`, as it must be, and still at `47`; at `57`, past the horizon of `50`, it is gone. -/
theorem memory_horizon_polled :
    let wp := newWorkloadProfile "default/Deployment/web" (3 : ℕ) 10 0
    let polls : List (ℤ × ProfileCall) := [(19, .computeProfile), (38, .computeProfile)]
    ((wp.run ([] ++ (0, .record .pageFault "node-1") :: [])).computeProfile 20).2.totals
        = ((wp.run ([] ++ (0, .computeProfile) :: [])).computeProfile 20).2.totals
          + Counts.wrap RecordCall.pageFault.counts ∧
      ((wp.run ([] ++ (0, .record .pageFault "node-1") :: polls)).computeProfile 57).2.totals
        = ((wp.run ([] ++ (0, .computeProfile) :: polls)).computeProfile 57).2.totals ∧
      ((wp.run ((0, .record .pageFault "node-1") :: polls)).computeProfile 47).1.sampleCount = 1 :=
  ⟨(memory_horizon "default/Deployment/web" 3 (by decide) 10 (by decide) 0 [] [] 0 .pageFault
      "node-1" 20 (by decide) (by simp)).1 (by decide),
    (memory_horizon "default/Deployment/web" 3 (by decide) 10 (by decide) 0 []
      [(19, .computeProfile), (38, .computeProfile)] 0 .pageFault "node-1" 57 (by decide)
      (by simp)).2 (by decide),
    by decide⟩

end Akil
