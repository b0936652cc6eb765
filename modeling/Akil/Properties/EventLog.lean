import Akil.Framework.RotationLog
import Akil.Construction.Profile.Window

/-!
# The sliding window refines an event log

`EventLog` says what the window is for.  It remembers every record since the last `ResetData`,
each with its time, its node and the integers it added, and a rotation count; a record counts
while fewer than `n` rotations have been performed since it was made.  Nothing in it is
circular, capped in memory, or wrapped to 64 bits.

`Refines` couples a `WorkloadProfile` to an `EventLog`: equal `lastRotation`, and the buckets'
counters form a `CyclicBuffer` for the log.  One lemma per method shows that the method keeps
the coupling when the log performs the call of the same name (`refines_maybeRotate`,
`refines_resetData`, `refines_execRecord`), and `refines_run` carries it along every run.  The
coupling does not need the clock to be monotone: a reading before `lastRotation` rotates
nothing on either side.

`window_refines_eventLog` reads the coupling off a `ComputeProfile` call.
-/

namespace Akil

/-! ## Adding to a bucket -/

/-- Add to the counters of a bucket. -/
def Bucket.add (c : Counts Int64) (b : Bucket) : Bucket := { b with toCounts := b.toCounts + c }

@[simp] lemma Bucket.toCounts_add (c : Counts Int64) (b : Bucket) :
    (b.add c).toCounts = b.toCounts + c := rfl

@[simp] lemma Bucket.startTime_add (c : Counts Int64) (b : Bucket) :
    (b.add c).startTime = b.startTime := rfl

lemma Bucket.ext_counts {b b' : Bucket} (hcounts : b.toCounts = b'.toCounts)
    (hstart : b.startTime = b'.startTime) : b = b' := by
  obtain ⟨c, t⟩ := b
  obtain ⟨c', t'⟩ := b'
  simp only at hcounts hstart
  rw [hcounts, hstart]

/-! ## The abstract log -/

/-- The integers a record adds to the five counters. -/
def RecordCall.counts : RecordCall → Counts ℤ
  | .pageFault => ⟨1, 1, 0, 0, 0⟩
  | .cacheMiss delta => ⟨1, 0, delta.toInt, 0, 0⟩
  | .lockContention durationNs => ⟨1, 0, 0, durationNs.toInt, 0⟩
  | .ctxSwitch => ⟨1, 0, 0, 0, 1⟩
  | .bulk pageFaults cacheMisses ctxSwitches lockNs =>
      ⟨pageFaults.toInt + cacheMisses.toInt + ctxSwitches.toInt + (if lockNs > 0 then 1 else 0),
        pageFaults.toInt, cacheMisses.toInt, lockNs.toInt, ctxSwitches.toInt⟩

/-- A remembered record. -/
structure LogEntry where
  time : ℤ
  nodeName : String
  counts : Counts ℤ
  deriving DecidableEq

/-- The records since the last `ResetData` and the time of the last rotation. -/
structure EventLog where
  lastRotation : ℤ
  log : RotationLog LogEntry

namespace EventLog

/-- The log of a profile created at `now`. -/
def new (now : ℤ) : EventLog := ⟨now, RotationLog.empty⟩

/-- Rotations a call at `now` performs: whole durations since the last rotation, at most `n`. -/
def rotationsAt (n : ℕ) (d : ℤ) (now : ℤ) (E : EventLog) : ℕ :=
  min n ((now - E.lastRotation) / d).toNat

/-- The rotations a call at `now` performs first; if there are any, the clock restarts. -/
def rotate (n : ℕ) (d : ℤ) (now : ℤ) (E : EventLog) : EventLog :=
  if E.rotationsAt n d now = 0 then E
  else ⟨now, E.log.advance (E.rotationsAt n d now)⟩

/-- One call on the log. -/
def exec (n : ℕ) (d : ℤ) (now : ℤ) (c : ProfileCall) (E : EventLog) : EventLog :=
  match c with
  | .record r nodeName =>
      let E := E.rotate n d now
      { E with log := E.log.append ⟨now, nodeName, r.counts⟩ }
  | .resetData => ⟨now, E.log.clear⟩
  | .computeProfile => E.rotate n d now

/-- A run of timed calls on the log. -/
def run (n : ℕ) (d : ℤ) (E : EventLog) (calls : List (ℤ × ProfileCall)) : EventLog :=
  timedRun (exec n d) E calls

/-- The records since which fewer than `n` rotations have been performed. -/
def counted (n : ℕ) (E : EventLog) : List LogEntry := (E.log.live n).map Prod.snd

/-- The records since which exactly `j` rotations have been performed. -/
def ofAge (j : ℕ) (E : EventLog) : List LogEntry :=
  (E.log.entries.filter (fun e => E.log.age e = j)).map Prod.snd

lemma run_concat (n : ℕ) (d : ℤ) (E : EventLog) (calls : List (ℤ × ProfileCall)) (t : ℤ)
    (c : ProfileCall) : E.run n d (calls ++ [(t, c)]) = (E.run n d calls).exec n d t c :=
  timedRun_append _ _ _ _

end EventLog

/-- What a list of records adds up to. -/
def sumCounts (es : List LogEntry) : Counts ℤ := (es.map LogEntry.counts).sum

/-- All five sums fit in `int64`. -/
structure Counts.Fits (c : Counts ℤ) : Prop where
  eventCount : FitsInt64 c.eventCount
  pageFaults : FitsInt64 c.pageFaults
  cacheMisses : FitsInt64 c.cacheMisses
  lockDurationNs : FitsInt64 c.lockDurationNs
  ctxSwitches : FitsInt64 c.ctxSwitches

instance (c : Counts ℤ) : Decidable c.Fits :=
  decidable_of_iff (FitsInt64 c.eventCount ∧ FitsInt64 c.pageFaults ∧ FitsInt64 c.cacheMisses ∧
      FitsInt64 c.lockDurationNs ∧ FitsInt64 c.ctxSwitches)
    ⟨fun ⟨h₁, h₂, h₃, h₄, h₅⟩ => ⟨h₁, h₂, h₃, h₄, h₅⟩,
      fun ⟨h₁, h₂, h₃, h₄, h₅⟩ => ⟨h₁, h₂, h₃, h₄, h₅⟩⟩

/-- The wrapped counters that integers leave in the code. -/
abbrev Counts.wrap : Counts ℤ →+ Counts Int64 := Counts.map int64OfInt

lemma totalWeight_wrap (l : List (ℕ × LogEntry)) :
    totalWeight (fun e => Counts.wrap e.counts) l = Counts.wrap (sumCounts (l.map Prod.snd)) := by
  rw [totalWeight, sumCounts, map_list_sum, List.map_map, List.map_map]
  rfl

/-! ## The coupling -/

/-- The profile's buckets implement the log. -/
structure Refines (wp : WorkloadProfile) (E : EventLog) : Prop where
  count_pos : 0 < wp.bucketCount
  duration_pos : 0 < wp.bucketDuration
  lastRotation_eq : wp.lastRotation = E.lastRotation
  buffer : CyclicBuffer wp.bucketCount (fun e : LogEntry => Counts.wrap e.counts)
    (wp.buckets.map Bucket.toCounts) wp.currentIdx E.log

/-! ### Window parameters never change -/

namespace WorkloadProfile

/-- The fields fixed at creation. -/
def params (wp : WorkloadProfile) : String × ℕ × ℤ :=
  (wp.workloadKey, wp.bucketCount, wp.bucketDuration)

lemma params_iterate_rotateOnce (now : ℤ) (k : ℕ) (wp : WorkloadProfile) :
    ((rotateOnce now)^[k] wp).params = wp.params := by
  induction k generalizing wp with
  | zero => rfl
  | succ k ih =>
      rw [Function.iterate_succ_apply, ih]
      rfl

@[simp] lemma params_maybeRotate (now : ℤ) (wp : WorkloadProfile) :
    (wp.maybeRotate now).params = wp.params := by
  unfold maybeRotate
  dsimp only
  split_ifs
  · rfl
  · exact params_iterate_rotateOnce now _ wp
  · exact params_iterate_rotateOnce now _ wp

@[simp] lemma params_execRecord (r : RecordCall) (nodeName : String) (now : ℤ)
    (wp : WorkloadProfile) : (wp.execRecord r nodeName now).params = wp.params := by
  cases r <;> exact params_maybeRotate now wp

@[simp] lemma params_exec (now : ℤ) (c : ProfileCall) (wp : WorkloadProfile) :
    (wp.exec now c).params = wp.params := by
  cases c with
  | record r nodeName => exact params_execRecord r nodeName now wp
  | resetData => rfl
  | computeProfile => exact params_maybeRotate now wp

@[simp] lemma params_run (wp : WorkloadProfile) (calls : List (ℤ × ProfileCall)) :
    (wp.run calls).params = wp.params := by
  induction calls generalizing wp with
  | nil => rfl
  | cons c calls ih => exact (ih _).trans (params_exec _ _ _)

lemma bucketCount_eq_of_params {wp wp' : WorkloadProfile} (h : wp'.params = wp.params) :
    wp'.bucketCount = wp.bucketCount := congrArg (fun p => p.2.1) h

lemma bucketDuration_eq_of_params {wp wp' : WorkloadProfile} (h : wp'.params = wp.params) :
    wp'.bucketDuration = wp.bucketDuration := congrArg (fun p => p.2.2) h

end WorkloadProfile

/-! ### One lemma per method -/

/-- Truncated and floored division agree on what a call rotates. -/
lemma rotationsAt_eq {wp : WorkloadProfile} {E : EventLog} (h : Refines wp E) (now : ℤ) :
    (E.rotationsAt wp.bucketCount wp.bucketDuration now : ℤ)
      = max 0 (min (wp.bucketCount : ℤ) ((now - wp.lastRotation).tdiv wp.bucketDuration)) := by
  have hd := h.duration_pos
  rw [EventLog.rotationsAt, ← h.lastRotation_eq]
  rcases le_or_gt 0 (now - wp.lastRotation) with hle | hlt
  · rw [Int.tdiv_eq_ediv_of_nonneg hle]
    have hq : 0 ≤ (now - wp.lastRotation) / wp.bucketDuration := Int.ediv_nonneg hle hd.le
    omega
  · have hq : (now - wp.lastRotation) / wp.bucketDuration < 0 := Int.ediv_neg_of_neg_of_pos hlt hd
    have ht : (now - wp.lastRotation).tdiv wp.bucketDuration ≤ 0 := by
      rw [← Int.neg_nonneg, ← Int.neg_tdiv]
      exact Int.tdiv_nonneg (by omega) hd.le
    omega

lemma map_toCounts_modify_reset (bs : List Bucket) (i : ℕ) (now : ℤ) :
    (bs.modify i (fun b => b.reset now)).map Bucket.toCounts
      = (bs.map Bucket.toCounts).set i 0 := by
  apply List.ext_getElem?
  intro j
  rw [List.getElem?_map, List.getElem?_modify, List.getElem?_set, List.getElem?_map]
  by_cases hij : i = j
  · subst hij
    rcases lt_or_ge i bs.length with hi | hi
    · simp [hi]
    · simp [hi]
  · simp [hij]

lemma map_toCounts_modify_add (bs : List Bucket) (i : ℕ) (c : Counts Int64) :
    (bs.modify i (Bucket.add c)).map Bucket.toCounts
      = (bs.map Bucket.toCounts).modify i (· + c) := by
  apply List.ext_getElem?
  intro j
  simp only [List.getElem?_map, List.getElem?_modify]
  by_cases hij : i = j <;> cases bs[j]? <;> simp [hij]

lemma refines_iterate_rotateOnce {wp : WorkloadProfile} {E : EventLog} (now : ℤ)
    (h : Refines wp E) (k : ℕ) :
    Refines ((WorkloadProfile.rotateOnce now)^[k] wp) ⟨E.lastRotation, E.log.advance k⟩ := by
  induction k with
  | zero => rwa [Function.iterate_zero, RotationLog.advance_zero]
  | succ k ih =>
      rw [Function.iterate_succ_apply', ← RotationLog.advance_advance]
      have hbuf := ih.buffer.advance ih.count_pos
      rw [← map_toCounts_modify_reset _ _ now] at hbuf
      exact ⟨ih.count_pos, ih.duration_pos, ih.lastRotation_eq, hbuf⟩

lemma refines_maybeRotate {wp : WorkloadProfile} {E : EventLog} (now : ℤ)
    (h : Refines wp E) :
    Refines (wp.maybeRotate now) (E.rotate wp.bucketCount wp.bucketDuration now) := by
  have hk := rotationsAt_eq h now
  have hn : (0 : ℤ) < wp.bucketCount := by exact_mod_cast h.count_pos
  rw [WorkloadProfile.maybeRotate, EventLog.rotate]
  dsimp only
  by_cases hr : (now - wp.lastRotation).tdiv wp.bucketDuration ≤ 0
  · have hzero : E.rotationsAt wp.bucketCount wp.bucketDuration now = 0 := by omega
    rw [if_pos hr, if_pos hzero]
    exact h
  · have hpos : E.rotationsAt wp.bucketCount wp.bucketDuration now ≠ 0 := by omega
    rw [if_neg hr, if_neg hpos]
    have hcap : (if (now - wp.lastRotation).tdiv wp.bucketDuration > wp.bucketCount
          then (wp.bucketCount : ℤ)
          else (now - wp.lastRotation).tdiv wp.bucketDuration).toNat
        = E.rotationsAt wp.bucketCount wp.bucketDuration now := by
      split_ifs <;> omega
    rw [hcap]
    have hrot := refines_iterate_rotateOnce now h
      (E.rotationsAt wp.bucketCount wp.bucketDuration now)
    exact ⟨hrot.count_pos, hrot.duration_pos, rfl, hrot.buffer⟩

lemma refines_resetData {wp : WorkloadProfile} {E : EventLog} (now : ℤ)
    (h : Refines wp E) : Refines (wp.resetData now) ⟨now, E.log.clear⟩ := by
  have hlen : wp.buckets.length = wp.bucketCount := by simpa using h.buffer.length_eq
  have hzero : (wp.resetData now).buckets.map Bucket.toCounts
      = List.replicate wp.bucketCount 0 := by
    simp [WorkloadProfile.resetData, Function.comp_def, hlen, List.map_const']
  refine ⟨h.count_pos, h.duration_pos, rfl, ?_⟩
  rw [hzero]
  exact h.buffer.clear

/-- Every `Record*` method is the common body with an update that adds the record's counts. -/
lemma execRecord_eq (r : RecordCall) (nodeName : String) (now : ℤ) (wp : WorkloadProfile) :
    wp.execRecord r nodeName now
      = wp.record (Bucket.add (Counts.wrap r.counts)) nodeName now := by
  -- The methods differ in their update only.
  suffices hupdate : ∃ f : Bucket → Bucket,
      WorkloadProfile.execRecord r nodeName = (fun now wp => wp.record f nodeName now) ∧
        ∀ b, f b = b.add (Counts.wrap r.counts) by
    obtain ⟨f, hexec, hf⟩ := hupdate
    rw [hexec, funext hf]
  have hone : int64OfInt 1 = 1 := rfl
  have hadd : ∀ c : Counts ℤ, Counts.wrap c
      = ⟨int64OfInt c.eventCount, int64OfInt c.pageFaults, int64OfInt c.cacheMisses,
          int64OfInt c.lockDurationNs, int64OfInt c.ctxSwitches⟩ := fun _ => rfl
  cases r with
  | bulk pageFaults cacheMisses ctxSwitches lockNs =>
      refine ⟨_, rfl, fun b => Bucket.ext_counts ?_ rfl⟩
      by_cases hl : lockNs > 0
      · ext <;> simp [hadd, RecordCall.counts, hl, hone, add_assoc]
      · ext <;> simp [hadd, RecordCall.counts, hl, add_assoc]
  | _ =>
      refine ⟨_, rfl, fun b => Bucket.ext_counts ?_ rfl⟩
      ext <;> simp [hadd, RecordCall.counts, hone]

lemma refines_execRecord {wp : WorkloadProfile} {E : EventLog} (r : RecordCall)
    (nodeName : String) (now : ℤ) (h : Refines wp E) :
    Refines (wp.execRecord r nodeName now)
      (E.exec wp.bucketCount wp.bucketDuration now (.record r nodeName)) := by
  have hrot := refines_maybeRotate now h
  have hcount := WorkloadProfile.bucketCount_eq_of_params (wp.params_maybeRotate now)
  have hbuf := hrot.buffer.append hrot.count_pos
    (⟨now, nodeName, r.counts⟩ : LogEntry)
  rw [← map_toCounts_modify_add] at hbuf
  rw [execRecord_eq]
  exact ⟨hrot.count_pos, hrot.duration_pos, hrot.lastRotation_eq, hbuf⟩

/-- **One step.**  Every call of the profile is the call of the same name on the log. -/
lemma refines_exec {wp : WorkloadProfile} {E : EventLog} (now : ℤ) (c : ProfileCall)
    (h : Refines wp E) :
    Refines (wp.exec now c) (E.exec wp.bucketCount wp.bucketDuration now c) := by
  cases c with
  | record r nodeName => exact refines_execRecord r nodeName now h
  | resetData => exact refines_resetData now h
  | computeProfile => exact refines_maybeRotate now h

/-- **Whole runs.** -/
lemma refines_run {wp : WorkloadProfile} {E : EventLog} (calls : List (ℤ × ProfileCall))
    (h : Refines wp E) :
    Refines (wp.run calls) (E.run wp.bucketCount wp.bucketDuration calls) := by
  induction calls generalizing wp E with
  | nil => exact h
  | cons c calls ih =>
      have hparams := wp.params_exec c.1 c.2
      have hstep := ih (refines_exec c.1 c.2 h)
      rw [WorkloadProfile.bucketCount_eq_of_params hparams,
        WorkloadProfile.bucketDuration_eq_of_params hparams] at hstep
      exact hstep

lemma refines_new (key : String) {n : ℕ} (hn : 1 ≤ n) {d : ℤ} (hd : 0 < d) (now : ℤ) :
    Refines (newWorkloadProfile key n d now) (EventLog.new now) := by
  have hcount : (newWorkloadProfile key n d now).bucketCount = n := by
    simp [newWorkloadProfile, show n ≠ 0 by omega]
  have hdur : (newWorkloadProfile key n d now).bucketDuration = d := by
    simp [newWorkloadProfile, show ¬ d ≤ 0 by omega]
  refine ⟨by omega, by omega, rfl, ?_⟩
  have hzero : (newWorkloadProfile key n d now).buckets.map Bucket.toCounts
      = List.replicate n 0 := by
    simp [newWorkloadProfile, show n ≠ 0 by omega]
  rw [hcount, hzero]
  exact CyclicBuffer.empty n _

/-- The run of a new profile, coupled at its own parameters. -/
lemma refines_new_run (key : String) {n : ℕ} (hn : 1 ≤ n) {d : ℤ} (hd : 0 < d) (created : ℤ)
    (calls : List (ℤ × ProfileCall)) :
    Refines ((newWorkloadProfile key n d created).run calls)
        ((EventLog.new created).run n d calls) ∧
      ((newWorkloadProfile key n d created).run calls).params = (key, n, d) := by
  have hparams : (newWorkloadProfile key n d created).params = (key, n, d) := by
    simp [newWorkloadProfile, WorkloadProfile.params, show n ≠ 0 by omega,
      show ¬ d ≤ 0 by omega]
  have hrun := refines_run calls (refines_new key hn hd created)
  have hcount : (newWorkloadProfile key n d created).bucketCount = n :=
    congrArg (fun p => p.2.1) hparams
  have hdur : (newWorkloadProfile key n d created).bucketDuration = d :=
    congrArg (fun p => p.2.2) hparams
  rw [hcount, hdur] at hrun
  exact ⟨hrun, (WorkloadProfile.params_run _ _).trans hparams⟩

/-! ## Reading the coupling -/

lemma WorkloadProfile.totals_eq_sum (wp : WorkloadProfile) :
    wp.totals = (wp.buckets.map Bucket.toCounts).sum := by
  rw [totals, List.sum_eq_foldl, List.foldl_map]

lemma Refines.totals_eq {wp : WorkloadProfile} {E : EventLog} (h : Refines wp E) :
    wp.totals = Counts.wrap (sumCounts (E.counted wp.bucketCount)) := by
  rw [wp.totals_eq_sum, h.buffer.sum_eq h.count_pos, totalWeight_wrap]
  rfl

lemma Refines.bucket_of_age {wp : WorkloadProfile} {E : EventLog} (h : Refines wp E) {j : ℕ}
    (hj : j < wp.bucketCount) :
    (wp.buckets.map Bucket.toCounts)[(wp.currentIdx + (wp.bucketCount - j)) % wp.bucketCount]?
      = some (Counts.wrap (sumCounts (E.ofAge j))) := by
  rw [h.buffer.cell_of_age hj, totalWeight_wrap]
  rfl

/-- The integers five `int64` counters hold. -/
def Counts.toInts (c : Counts Int64) : Counts ℤ :=
  ⟨c.eventCount.toInt, c.pageFaults.toInt, c.cacheMisses.toInt, c.lockDurationNs.toInt,
    c.ctxSwitches.toInt⟩

lemma Counts.toInts_wrap {c : Counts ℤ} (h : c.Fits) : (Counts.wrap c).toInts = c :=
  Counts.ext (toInt_int64OfInt h.eventCount) (toInt_int64OfInt h.pageFaults)
    (toInt_int64OfInt h.cacheMisses) (toInt_int64OfInt h.lockDurationNs)
    (toInt_int64OfInt h.ctxSwitches)

/-- A profile reports the totals `c` over a window of `seconds`. -/
structure RuntimeProfile.Reports (p : RuntimeProfile) (seconds : ℚ) (c : Counts ℤ) : Prop where
  sampleCount : p.sampleCount.toInt = c.eventCount
  pageFaultRate : p.pageFaultRate = c.pageFaults / seconds
  cacheMissRate : p.cacheMissRate = c.cacheMisses / seconds
  lockContentionRatio : p.lockContentionRatio = c.lockDurationNs / (seconds * 10 ^ 9)
  contextSwitchRate : p.contextSwitchRate = c.ctxSwitches / seconds

/-- The window length of `n` buckets of `d` nanoseconds, in seconds. -/
def windowSeconds (n : ℕ) (d : ℤ) : ℚ := n * (d / 10 ^ 9)

lemma windowSeconds_pos {n : ℕ} (hn : 1 ≤ n) {d : ℤ} (hd : 0 < d) : 0 < windowSeconds n d := by
  have hn' : (0 : ℚ) < n := by exact_mod_cast hn
  have hd' : (0 : ℚ) < d := by exact_mod_cast hd
  unfold windowSeconds
  positivity

lemma Refines.windowDuration_eq {wp : WorkloadProfile} {E : EventLog} (h : Refines wp E) :
    wp.windowDuration = windowSeconds wp.bucketCount wp.bucketDuration := by
  have hpos := windowSeconds_pos h.count_pos h.duration_pos
  unfold WorkloadProfile.windowDuration
  exact if_neg (not_le.mpr hpos)

lemma Refines.report_reports {wp : WorkloadProfile} {E : EventLog} (h : Refines wp E)
    (hfits : (sumCounts (E.counted wp.bucketCount)).Fits) :
    wp.report.Reports (windowSeconds wp.bucketCount wp.bucketDuration)
      (sumCounts (E.counted wp.bucketCount)) := by
  have htotals : wp.totals.toInts = sumCounts (E.counted wp.bucketCount) := by
    rw [h.totals_eq, Counts.toInts_wrap hfits]
  rw [← htotals, ← h.windowDuration_eq]
  exact ⟨rfl, rfl, rfl, rfl, rfl⟩

/-- **The sliding window refines the event log.**  For every run of a new profile and every
`ComputeProfile` after it, the totals behind the result are the sums over exactly the records
since the last `ResetData` that have seen fewer than `n` rotations, and the bucket `j` places
behind the current one holds exactly the records that have seen `j`.  Without the overflow
hypothesis the same equation holds modulo `2 ^ 64` (`Refines.totals_eq`). -/
theorem window_refines_eventLog (key : String) (n : ℕ) (hn : 1 ≤ n) (d : ℤ) (hd : 0 < d)
    (created : ℤ) (calls : List (ℤ × ProfileCall)) (t : ℤ)
    (hfits : (sumCounts ((((EventLog.new created).run n d calls).rotate n d t).counted n)).Fits) :
    let wp := (newWorkloadProfile key n d created).run calls
    let E := ((EventLog.new created).run n d calls).rotate n d t
    (wp.computeProfile t).1.Reports (windowSeconds n d) (sumCounts (E.counted n)) ∧
      (wp.computeProfile t).2.totals.toInts = sumCounts (E.counted n) ∧
      ∀ j < n, ((wp.computeProfile t).2.buckets.map Bucket.toCounts)[
          ((wp.computeProfile t).2.currentIdx + (n - j)) % n]?
        = some (Counts.wrap (sumCounts (E.ofAge j))) := by
  intro wp E
  obtain ⟨hrun, hparams⟩ := refines_new_run key hn hd created calls
  have hcount : wp.bucketCount = n := congrArg (fun p => p.2.1) hparams
  have hdur : wp.bucketDuration = d := congrArg (fun p => p.2.2) hparams
  have hrot : Refines (wp.maybeRotate t) E := by
    have := refines_maybeRotate t hrun
    rwa [hcount, hdur] at this
  have hcount' : (wp.maybeRotate t).bucketCount = n :=
    (WorkloadProfile.bucketCount_eq_of_params (wp.params_maybeRotate t)).trans hcount
  have hdur' : (wp.maybeRotate t).bucketDuration = d :=
    (WorkloadProfile.bucketDuration_eq_of_params (wp.params_maybeRotate t)).trans hdur
  have hreport := hrot.report_reports
  have htotals := hrot.totals_eq
  have hage := fun j => hrot.bucket_of_age (j := j)
  rw [hcount'] at htotals
  simp only [hcount', hdur'] at hreport hage
  refine ⟨hreport hfits, ?_, hage⟩
  change (wp.maybeRotate t).totals.toInts = _
  rw [htotals, Counts.toInts_wrap hfits]

/-- Two buckets of ten nanoseconds: the fault at `3` has seen two rotations by `25` and is gone,
the misses at `12` have seen one and are counted. -/
theorem window_refines_eventLog_two_buckets :
    let wp := (newWorkloadProfile "default/Deployment/web" (2 : ℕ) 10 0).run
      [(3, .record .pageFault "node-1"), (12, .record (.cacheMiss 100) "node-1")]
    (wp.computeProfile 25).2.totals.toInts = ⟨1, 0, 100, 0, 0⟩ :=
  (window_refines_eventLog "default/Deployment/web" 2 (by decide) 10 (by decide) 0
    [(3, .record .pageFault "node-1"), (12, .record (.cacheMiss 100) "node-1")] 25
    (by decide)).2.1.trans (by decide)

end Akil
