import Akil.Framework.CircularArray
import Akil.Properties.EventLog

/-!
# The window without its index

`Timeline` is a window whose buckets stand in the order of their age, oldest first: a rotation
drops the oldest bucket and appends an empty one, a record adds to the last, `ResetData` empties
all.  It has no `currentIdx`.  The circular array of `WorkloadProfile` implements it
(`WorkloadProfile.timeline_exec`), and what `ComputeProfile` reports, the end of the window apart,
is a function of the timeline (`WorkloadProfile.report_of_timeline`).

`ResetData` leaves the index where it was, so a reset profile and a new one hold their buckets
differently turned ever after.  Their timelines are equal, and stay so (`resetData_as_new`).
-/

namespace Akil

/-! ## Timelines -/

/-- A window with its buckets oldest first. -/
structure Timeline where
  workloadKey : String
  buckets : List Bucket
  bucketDuration : ℤ
  lastRotation : ℤ
  deriving DecidableEq

namespace Timeline

/-- The oldest bucket makes room for an empty one. -/
def shift (now : ℤ) (T : Timeline) : Timeline :=
  { T with buckets := T.buckets.tail ++ [⟨0, now⟩] }

/-- As many shifts as whole bucket durations have passed, and no more than there are buckets. -/
def rotate (now : ℤ) (T : Timeline) : Timeline :=
  let rotations := (now - T.lastRotation).tdiv T.bucketDuration
  if rotations ≤ 0 then T
  else
    let rotations := if rotations > T.buckets.length then (T.buckets.length : ℤ) else rotations
    { (shift now)^[rotations.toNat] T with lastRotation := now }

/-- Rotate, and add to the newest bucket. -/
def record (r : RecordCall) (now : ℤ) (T : Timeline) : Timeline :=
  let T := T.rotate now
  { T with
    buckets := T.buckets.modify (T.buckets.length - 1) (Bucket.add (Counts.wrap r.counts)) }

/-- All buckets emptied. -/
def resetData (now : ℤ) (T : Timeline) : Timeline :=
  { T with
    buckets := T.buckets.map (fun b => b.reset now)
    lastRotation := now }

/-- One call. -/
def exec (now : ℤ) (c : ProfileCall) (T : Timeline) : Timeline :=
  match c with
  | .record r _ => T.record r now
  | .resetData => T.resetData now
  | .computeProfile => T.rotate now

end Timeline

/-! ## The circular array implements the timeline -/

namespace WorkloadProfile

/-- The buckets of a profile, oldest first. -/
def timeline (wp : WorkloadProfile) : Timeline where
  workloadKey := wp.workloadKey
  buckets := byAge wp.buckets wp.currentIdx
  bucketDuration := wp.bucketDuration
  lastRotation := wp.lastRotation

/-- There are `bucketCount` buckets, and the index is that of one of them. -/
structure InRange (wp : WorkloadProfile) : Prop where
  length_eq : wp.buckets.length = wp.bucketCount
  idx_lt : wp.currentIdx < wp.bucketCount

variable {wp wp' : WorkloadProfile}

lemma InRange.new (key : String) (bucketCount bucketDuration now : ℤ) :
    (newWorkloadProfile key bucketCount bucketDuration now).InRange := by
  refine ⟨List.length_replicate, ?_⟩
  simp only [newWorkloadProfile]
  split_ifs with h
  · decide
  · omega

lemma InRange.rotateOnce (h : wp.InRange) (now : ℤ) : (wp.rotateOnce now).InRange :=
  ⟨(List.length_modify _ _ _).trans h.length_eq, Nat.mod_lt _ (Nat.zero_lt_of_lt h.idx_lt)⟩

lemma timeline_rotateOnce (h : wp.InRange) (now : ℤ) :
    (wp.rotateOnce now).timeline = wp.timeline.shift now := by
  have hclear : ∀ b : Bucket, b.reset now = ⟨0, now⟩ := fun _ => rfl
  have hbuckets := byAge_advance hclear (h.length_eq ▸ h.idx_lt)
  rw [h.length_eq] at hbuckets
  simp only [timeline, WorkloadProfile.rotateOnce, Timeline.shift, hbuckets]

lemma timeline_iterate_rotateOnce (h : wp.InRange) (now : ℤ) (k : ℕ) :
    ((WorkloadProfile.rotateOnce now)^[k] wp).InRange ∧
      ((WorkloadProfile.rotateOnce now)^[k] wp).timeline
        = (Timeline.shift now)^[k] wp.timeline := by
  induction k with
  | zero => exact ⟨h, rfl⟩
  | succ k ih =>
      obtain ⟨hrange, heq⟩ := ih
      rw [Function.iterate_succ_apply', Function.iterate_succ_apply', timeline_rotateOnce hrange,
        heq]
      exact ⟨hrange.rotateOnce now, rfl⟩

lemma timeline_maybeRotate (h : wp.InRange) (now : ℤ) :
    (wp.maybeRotate now).InRange ∧ (wp.maybeRotate now).timeline = wp.timeline.rotate now := by
  have hlen : wp.timeline.buckets.length = wp.bucketCount :=
    (length_byAge _ _).trans h.length_eq
  unfold maybeRotate Timeline.rotate
  rw [hlen]
  dsimp only [timeline]
  split_ifs with hnone hmany
  · exact ⟨h, rfl⟩
  · obtain ⟨⟨hlength, hidx⟩, heq⟩ := timeline_iterate_rotateOnce h now (wp.bucketCount : ℤ).toNat
    exact ⟨⟨hlength, hidx⟩, congrArg (fun T : Timeline => { T with lastRotation := now }) heq⟩
  · obtain ⟨⟨hlength, hidx⟩, heq⟩ := timeline_iterate_rotateOnce h now
      ((now - wp.lastRotation).tdiv wp.bucketDuration).toNat
    exact ⟨⟨hlength, hidx⟩, congrArg (fun T : Timeline => { T with lastRotation := now }) heq⟩

/-- **One step.**  Every call of the profile is the call of the same name on the timeline. -/
lemma timeline_exec (h : wp.InRange) (now : ℤ) (c : ProfileCall) :
    (wp.exec now c).InRange ∧ (wp.exec now c).timeline = wp.timeline.exec now c := by
  obtain ⟨hrange, hrot⟩ := timeline_maybeRotate h now
  cases c with
  | record r nodeName =>
      rw [exec, execRecord_eq, Timeline.exec, Timeline.record, ← hrot]
      refine ⟨⟨(List.length_modify _ _ _).trans hrange.length_eq, hrange.idx_lt⟩, ?_⟩
      have hbuckets := byAge_modify (Bucket.add (Counts.wrap r.counts))
        (hrange.length_eq ▸ hrange.idx_lt)
      simp only [timeline, WorkloadProfile.record, hbuckets, length_byAge]
  | resetData =>
      refine ⟨⟨(List.length_map _).trans h.length_eq, h.idx_lt⟩, ?_⟩
      simp only [timeline, exec, resetData, Timeline.exec, Timeline.resetData, byAge,
        List.map_rotate]
  | computeProfile => exact ⟨hrange, hrot⟩

/-- Every state a new profile can reach is in range. -/
lemma InRange.run (h : wp.InRange) (calls : List (ℤ × ProfileCall)) : (wp.run calls).InRange :=
  timedRun_preserves (I := InRange) (fun t c _ hs => (timeline_exec hs t c).1) h calls

/-- The timeline of a new profile: empty buckets. -/
lemma timeline_new (key : String) (bucketCount bucketDuration now : ℤ) :
    let wp := newWorkloadProfile key bucketCount bucketDuration now
    wp.timeline
      = ⟨wp.workloadKey, List.replicate wp.bucketCount ⟨0, now⟩, wp.bucketDuration, now⟩ := by
  simp only [timeline, newWorkloadProfile, byAge, List.rotate_replicate]

/-- `ResetData` leaves the timeline of a new profile. -/
lemma timeline_resetData (h : wp.InRange) (now : ℤ) :
    (wp.resetData now).timeline
      = ⟨wp.workloadKey, List.replicate wp.bucketCount ⟨0, now⟩, wp.bucketDuration, now⟩ := by
  refine ((timeline_exec h now .resetData).2).trans ?_
  have hbuckets : wp.timeline.buckets.map (fun b => b.reset now)
      = List.replicate wp.bucketCount ⟨0, now⟩ := by
    rw [← h.length_eq, ← length_byAge wp.buckets wp.currentIdx]
    exact List.map_eq_replicate_iff.mpr (fun _ _ => rfl)
  rw [Timeline.exec, Timeline.resetData, hbuckets]
  rfl

/-! ## What is reported -/

/-- The start of the window is the least of the start times. -/
lemma windowStart_eq_min? (wp : WorkloadProfile) :
    wp.windowStart = (wp.buckets.map Bucket.startTime).min? := by
  have hfold : ∀ step : Option ℤ → Bucket → Option ℤ,
      (∀ s b, step (some s) b = some (min s b.startTime)) → ∀ (bs : List Bucket) (s : ℤ),
        bs.foldl step (some s) = some ((bs.map Bucket.startTime).foldl min s) := by
    intro step hstep bs
    induction bs with
    | nil => exact fun _ => rfl
    | cons b bs ih =>
        intro s
        rw [List.foldl_cons, List.map_cons, List.foldl_cons, hstep, ih]
  rw [windowStart]
  cases wp.buckets with
  | nil => rfl
  | cons b bs =>
      rw [List.foldl_cons]
      refine hfold _ (fun s b => ?_) bs b.startTime
      dsimp only
      split_ifs with hlt
      · rw [min_eq_right hlt.le]
      · rw [min_eq_left (not_lt.mp hlt)]

/-- Profiles of the same timeline report the same, the end of the window apart. -/
lemma report_of_timeline (h : wp.InRange) (h' : wp'.InRange) (heq : wp.timeline = wp'.timeline) :
    { wp.report with windowEnd := none } = { wp'.report with windowEnd := none } := by
  have hread : byAge wp.buckets wp.currentIdx = byAge wp'.buckets wp'.currentIdx :=
    congrArg Timeline.buckets heq
  have hperm : wp.buckets.Perm wp'.buckets :=
    ((byAge_perm _ _).symm.trans (List.Perm.of_eq hread)).trans (byAge_perm _ _)
  have hkey : wp.workloadKey = wp'.workloadKey := congrArg Timeline.workloadKey heq
  have hcount : wp.bucketCount = wp'.bucketCount := by
    rw [← h.length_eq, ← h'.length_eq, hperm.length_eq]
  have hwindow : wp.windowDuration = wp'.windowDuration := by
    rw [windowDuration, windowDuration, hcount,
      show wp.bucketDuration = wp'.bucketDuration from congrArg Timeline.bucketDuration heq]
  have htotals : wp.totals = wp'.totals := by
    rw [totals_eq_sum, totals_eq_sum]
    exact (hperm.map _).sum_eq
  have hstart : wp.windowStart = wp'.windowStart := by
    rw [windowStart_eq_min?, windowStart_eq_min?]
    have hmem : ∀ t, t ∈ wp.buckets.map Bucket.startTime ↔ t ∈ wp'.buckets.map Bucket.startTime :=
      fun t => (hperm.map _).mem_iff
    ext t
    rw [List.min?_eq_some_iff, List.min?_eq_some_iff]
    simp only [hmem]
  rw [report, report, hkey, hwindow, htotals, hstart]

end WorkloadProfile

/-- **A reset profile is as good as a new one.**  Whatever a profile has been through: once
`ResetData` is called at `t`, every later run of calls returns the same profiles, up to the end of
the window, as it does on a profile of the same parameters created at `t`.  The clock may do as it
likes. -/
theorem resetData_as_new (key : String) (bucketCount bucketDuration created : ℤ)
    (past : List (ℤ × ProfileCall)) (t : ℤ) (calls : List (ℤ × ProfileCall)) :
    let reset := ((newWorkloadProfile key bucketCount bucketDuration created).run past).resetData t
    let fresh := newWorkloadProfile key bucketCount bucketDuration t
    let view := fun p : RuntimeProfile => { p with windowEnd := none }
    (timedOutputs WorkloadProfile.exec WorkloadProfile.result reset calls).map view
      = (timedOutputs WorkloadProfile.exec WorkloadProfile.result fresh calls).map view := by
  intro reset fresh view
  have hpast : ((newWorkloadProfile key bucketCount bucketDuration created).run past).InRange :=
    (WorkloadProfile.InRange.new _ _ _ _).run past
  have hreset : reset.InRange := (WorkloadProfile.timeline_exec hpast t .resetData).1
  have hfresh : fresh.InRange := WorkloadProfile.InRange.new _ _ _ _
  refine timedOutputs_map_eq_of_simulation
    (R := fun wp wp' => wp.InRange ∧ wp'.InRange ∧ wp.timeline = wp'.timeline) ?_ ?_ ?_ calls
  · rintro now c wp wp' ⟨h, h', heq⟩
    obtain ⟨hrange, hexec⟩ := WorkloadProfile.timeline_exec h now c
    obtain ⟨hrange', hexec'⟩ := WorkloadProfile.timeline_exec h' now c
    exact ⟨hrange, hrange', by rw [hexec, hexec', heq]⟩
  · rintro now c wp wp' ⟨h, h', heq⟩
    cases c with
    | record r nodeName => rfl
    | resetData => rfl
    | computeProfile =>
        obtain ⟨hrange, hrot⟩ := WorkloadProfile.timeline_maybeRotate h now
        obtain ⟨hrange', hrot'⟩ := WorkloadProfile.timeline_maybeRotate h' now
        exact congrArg some (WorkloadProfile.report_of_timeline hrange hrange'
          (by rw [hrot, hrot', heq]))
  · have hparams : fresh.params
        = ((newWorkloadProfile key bucketCount bucketDuration created).run past).params := by
      rw [WorkloadProfile.params_run]
      rfl
    refine ⟨hreset, hfresh, ?_⟩
    rw [WorkloadProfile.timeline_resetData hpast, WorkloadProfile.timeline_new,
      WorkloadProfile.bucketCount_eq_of_params hparams,
      WorkloadProfile.bucketDuration_eq_of_params hparams]
    exact congrArg (fun key => Timeline.mk key _ _ _) (congrArg Prod.fst hparams).symm

end Akil
