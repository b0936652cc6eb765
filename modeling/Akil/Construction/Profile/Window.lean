import Akil.Framework.MachineInt
import Akil.Framework.TimedRun

/-!
# The sliding window of one workload (`pkg/profile/window.go`)

`WorkloadProfile` is the state of one workload's window: a slice of `bucketCount` buckets read
as a circle, the index of the current bucket, the time of the last rotation and the set of
nodes the workload has reported from.  Every function below is the Go method of the same name
with its single `time.Now()` reading made an argument; the methods hold the profile's mutex
throughout, so one call is one atomic transition.

Three representations differ from the Go types.  Clock readings and durations are integers, in
nanoseconds: readings of one process are non-negative `int64`s, so `Sub` never saturates on
them.  The counters keep their type, `Int64`, and wrap as Go's do.  A `float64` rate is the
exact rational it approximates.  The zero `time.Time`, which `ComputeProfile` starts its window
bounds from, is `none`; every reading is `After` it.

`ProfileCall` collects the exported methods that touch the window, `exec` performs one, `run` a
sequence of timed ones, and `result` is what a call returns.
-/

namespace Akil

def defaultBucketCount : ℕ := 12

def defaultBucketDuration : ℤ := 5 * 10 ^ 9

/-! ## Counters and buckets -/

/-- The five counters of a bucket.  The code keeps them as `int64`; the event log of
`Properties/EventLog.lean` keeps the same five as integers. -/
@[ext] structure Counts (α : Type*) where
  eventCount : α
  pageFaults : α
  cacheMisses : α
  lockDurationNs : α
  ctxSwitches : α
  deriving DecidableEq, Repr

namespace Counts

variable {α β : Type*}

instance [Zero α] : Zero (Counts α) := ⟨⟨0, 0, 0, 0, 0⟩⟩

instance [Add α] : Add (Counts α) :=
  ⟨fun a b => ⟨a.eventCount + b.eventCount, a.pageFaults + b.pageFaults,
    a.cacheMisses + b.cacheMisses, a.lockDurationNs + b.lockDurationNs,
    a.ctxSwitches + b.ctxSwitches⟩⟩

section Zero

variable [Zero α]

@[simp] lemma eventCount_zero : (0 : Counts α).eventCount = 0 := rfl
@[simp] lemma pageFaults_zero : (0 : Counts α).pageFaults = 0 := rfl
@[simp] lemma cacheMisses_zero : (0 : Counts α).cacheMisses = 0 := rfl
@[simp] lemma lockDurationNs_zero : (0 : Counts α).lockDurationNs = 0 := rfl
@[simp] lemma ctxSwitches_zero : (0 : Counts α).ctxSwitches = 0 := rfl

end Zero

section Add

variable [Add α] (a b : Counts α)

@[simp] lemma eventCount_add : (a + b).eventCount = a.eventCount + b.eventCount := rfl
@[simp] lemma pageFaults_add : (a + b).pageFaults = a.pageFaults + b.pageFaults := rfl
@[simp] lemma cacheMisses_add : (a + b).cacheMisses = a.cacheMisses + b.cacheMisses := rfl
@[simp] lemma lockDurationNs_add :
    (a + b).lockDurationNs = a.lockDurationNs + b.lockDurationNs := rfl
@[simp] lemma ctxSwitches_add : (a + b).ctxSwitches = a.ctxSwitches + b.ctxSwitches := rfl

end Add

instance [AddCommMonoid α] : AddCommMonoid (Counts α) where
  add_assoc a b c := by ext <;> simp [add_assoc]
  zero_add a := by ext <;> simp
  add_zero a := by ext <;> simp
  add_comm a b := by ext <;> simp [add_comm]
  nsmul := nsmulRec

/-- Apply an additive map to the five counters. -/
def map [AddCommMonoid α] [AddCommMonoid β] (f : α →+ β) : Counts α →+ Counts β where
  toFun c := ⟨f c.eventCount, f c.pageFaults, f c.cacheMisses, f c.lockDurationNs,
    f c.ctxSwitches⟩
  map_zero' := by ext <;> simp
  map_add' a b := by ext <;> simp

end Counts

/-- `Bucket`: aggregated telemetry counts for a single time window. -/
structure Bucket extends Counts Int64 where
  startTime : ℤ
  deriving DecidableEq, Repr

def Bucket.reset (_b : Bucket) (startTime : ℤ) : Bucket := ⟨0, startTime⟩

@[simp] lemma Bucket.toCounts_reset (b : Bucket) (t : ℤ) : (b.reset t).toCounts = 0 := rfl

/-! ## Reported profiles -/

inductive Confidence
  | unknown
  | low
  | medium
  | high
  deriving DecidableEq, Repr

structure RuntimeProfile where
  workloadKey : String
  pageFaultRate : ℚ
  cacheMissRate : ℚ
  lockContentionRatio : ℚ
  contextSwitchRate : ℚ
  sampleCount : Int64
  windowStart : Option ℤ
  windowEnd : Option ℤ
  confidence : Confidence
  deriving DecidableEq, Repr

/-- The profile without its window bounds: rates, ratio, sample count and confidence. -/
def RuntimeProfile.measures (p : RuntimeProfile) : RuntimeProfile :=
  { p with windowStart := none, windowEnd := none }

/-- The confidence switch at the end of `ComputeProfile`. -/
def confidenceOf (totalEvents : Int64) : Confidence :=
  if totalEvents > 1000 then .high
  else if totalEvents ≥ 100 then .medium
  else if totalEvents > 0 then .low
  else .unknown

/-! ## The window state and its methods -/

/-- `WorkloadProfile`: the sliding window state for a single workload. -/
structure WorkloadProfile where
  workloadKey : String
  buckets : List Bucket
  bucketCount : ℕ
  bucketDuration : ℤ
  currentIdx : ℕ
  lastRotation : ℤ
  /-- The nodes this workload has pods on, as far as records told. -/
  nodeLocations : Finset String
  deriving DecidableEq

def newWorkloadProfile (workloadKey : String) (bucketCount : ℤ) (bucketDuration : ℤ)
    (now : ℤ) : WorkloadProfile :=
  let bucketCount := if bucketCount ≤ 0 then (defaultBucketCount : ℤ) else bucketCount
  let bucketDuration := if bucketDuration ≤ 0 then defaultBucketDuration else bucketDuration
  { workloadKey := workloadKey
    buckets := List.replicate bucketCount.toNat ⟨0, now⟩
    bucketCount := bucketCount.toNat
    bucketDuration := bucketDuration
    currentIdx := 0
    lastRotation := now
    nodeLocations := ∅ }

namespace WorkloadProfile

/-- One pass of the loop of `maybeRotate`: advance the index and reset the bucket there. -/
def rotateOnce (now : ℤ) (wp : WorkloadProfile) : WorkloadProfile :=
  let idx := (wp.currentIdx + 1) % wp.bucketCount
  { wp with
    currentIdx := idx
    buckets := wp.buckets.modify idx (fun b => b.reset now) }

/-- `maybeRotate`.  Go's `/` truncates, so a reading before `lastRotation` rotates nothing. -/
def maybeRotate (now : ℤ) (wp : WorkloadProfile) : WorkloadProfile :=
  let elapsed := now - wp.lastRotation
  let rotations := elapsed.tdiv wp.bucketDuration
  if rotations ≤ 0 then wp
  else
    let rotations := if rotations > wp.bucketCount then (wp.bucketCount : ℤ) else rotations
    { (rotateOnce now)^[rotations.toNat] wp with lastRotation := now }

def resetData (now : ℤ) (wp : WorkloadProfile) : WorkloadProfile :=
  { wp with
    buckets := wp.buckets.map (fun b => b.reset now)
    lastRotation := now }

/-- The common body of the `Record*` methods: rotate, update the current bucket, remember the
node. -/
def record (update : Bucket → Bucket) (nodeName : String) (now : ℤ) (wp : WorkloadProfile) :
    WorkloadProfile :=
  let wp := wp.maybeRotate now
  { wp with
    buckets := wp.buckets.modify wp.currentIdx update
    nodeLocations := insert nodeName wp.nodeLocations }

def recordPageFault (nodeName : String) : ℤ → WorkloadProfile → WorkloadProfile :=
  record (fun b => { b with
    pageFaults := b.pageFaults + 1
    eventCount := b.eventCount + 1 }) nodeName

def recordCacheMiss (delta : Int64) (nodeName : String) :
    ℤ → WorkloadProfile → WorkloadProfile :=
  record (fun b => { b with
    cacheMisses := b.cacheMisses + delta
    eventCount := b.eventCount + 1 }) nodeName

def recordLockContention (durationNs : Int64) (nodeName : String) :
    ℤ → WorkloadProfile → WorkloadProfile :=
  record (fun b => { b with
    lockDurationNs := b.lockDurationNs + durationNs
    eventCount := b.eventCount + 1 }) nodeName

/-- `RecordBulk`.  Go's `int` is 64 bits wide. -/
def recordBulk (pageFaults cacheMisses ctxSwitches : Int64) (lockNs : Int64)
    (nodeName : String) : ℤ → WorkloadProfile → WorkloadProfile :=
  record (fun b =>
    let eventCount := b.eventCount + (pageFaults + cacheMisses + ctxSwitches)
    { b with
      pageFaults := b.pageFaults + pageFaults
      cacheMisses := b.cacheMisses + cacheMisses
      lockDurationNs := b.lockDurationNs + lockNs
      ctxSwitches := b.ctxSwitches + ctxSwitches
      eventCount := if lockNs > 0 then eventCount + 1 else eventCount }) nodeName

def recordCtxSwitch (nodeName : String) : ℤ → WorkloadProfile → WorkloadProfile :=
  record (fun b => { b with
    ctxSwitches := b.ctxSwitches + 1
    eventCount := b.eventCount + 1 }) nodeName

/-- The five accumulators of the loop of `ComputeProfile`. -/
def totals (wp : WorkloadProfile) : Counts Int64 :=
  wp.buckets.foldl (fun acc b => acc + b.toCounts) 0

/-- `windowStart` after the loop: reassigned at index `0` and at every earlier start time. -/
def windowStart (wp : WorkloadProfile) : Option ℤ :=
  wp.buckets.foldl (fun start b =>
    match start with
    | none => some b.startTime
    | some s => if b.startTime < s then some b.startTime else some s) none

/-- `windowEnd` after the loop: a later start time moves it to the end of that bucket. -/
def windowEnd (wp : WorkloadProfile) : Option ℤ :=
  wp.buckets.foldl (fun stop b =>
    match stop with
    | none => some (b.startTime + wp.bucketDuration)
    | some s => if b.startTime > s then some (b.startTime + wp.bucketDuration) else some s) none

/-- `windowDuration`, in seconds. -/
def windowDuration (wp : WorkloadProfile) : ℚ :=
  let seconds := (wp.bucketCount : ℚ) * ((wp.bucketDuration : ℚ) / 10 ^ 9)
  if seconds ≤ 0 then 1 else seconds

/-- The profile `ComputeProfile` assembles once the window has been rotated. -/
def report (wp : WorkloadProfile) : RuntimeProfile where
  workloadKey := wp.workloadKey
  pageFaultRate := wp.totals.pageFaults.toInt / wp.windowDuration
  cacheMissRate := wp.totals.cacheMisses.toInt / wp.windowDuration
  lockContentionRatio := wp.totals.lockDurationNs.toInt / (wp.windowDuration * 10 ^ 9)
  contextSwitchRate := wp.totals.ctxSwitches.toInt / wp.windowDuration
  sampleCount := wp.totals.eventCount
  windowStart := wp.windowStart
  windowEnd := wp.windowEnd
  confidence := confidenceOf wp.totals.eventCount

/-- `ComputeProfile`: rotate on read too, then report.  The rotated state is kept. -/
def computeProfile (now : ℤ) (wp : WorkloadProfile) : RuntimeProfile × WorkloadProfile :=
  let wp := wp.maybeRotate now
  (wp.report, wp)

/-- After a rotation at `now` no bucket has expired at `now`. -/
lemma tdiv_maybeRotate_le (now : ℤ) (wp : WorkloadProfile) :
    (now - (wp.maybeRotate now).lastRotation).tdiv (wp.maybeRotate now).bucketDuration ≤ 0 := by
  by_cases h : (now - wp.lastRotation).tdiv wp.bucketDuration ≤ 0
  · have hsame : wp.maybeRotate now = wp := if_pos h
    rwa [hsame]
  · have hlast : (wp.maybeRotate now).lastRotation = now := by
      rw [maybeRotate, if_neg h]
    rw [hlast, sub_self, Int.zero_tdiv]

/-- A second rotation at the same reading finds nothing to do. -/
@[simp] lemma maybeRotate_maybeRotate (now : ℤ) (wp : WorkloadProfile) :
    (wp.maybeRotate now).maybeRotate now = wp.maybeRotate now :=
  if_pos (wp.tdiv_maybeRotate_le now)

end WorkloadProfile

/-! ## Calls and runs -/

/-- One telemetry record: a `Record*` method with its arguments. -/
inductive RecordCall
  | pageFault
  | cacheMiss (delta : Int64)
  | lockContention (durationNs : Int64)
  | ctxSwitch
  | bulk (pageFaults cacheMisses ctxSwitches lockNs : Int64)
  deriving DecidableEq, Repr

/-- The methods of a profile that touch its window. -/
inductive ProfileCall
  | record (r : RecordCall) (nodeName : String)
  | resetData
  | computeProfile
  deriving DecidableEq, Repr

namespace WorkloadProfile

def execRecord (r : RecordCall) (nodeName : String) : ℤ → WorkloadProfile → WorkloadProfile :=
  match r with
  | .pageFault => recordPageFault nodeName
  | .cacheMiss delta => recordCacheMiss delta nodeName
  | .lockContention durationNs => recordLockContention durationNs nodeName
  | .ctxSwitch => recordCtxSwitch nodeName
  | .bulk pageFaults cacheMisses ctxSwitches lockNs =>
      recordBulk pageFaults cacheMisses ctxSwitches lockNs nodeName

def exec (now : ℤ) (c : ProfileCall) (wp : WorkloadProfile) : WorkloadProfile :=
  match c with
  | .record r nodeName => wp.execRecord r nodeName now
  | .resetData => wp.resetData now
  | .computeProfile => (wp.computeProfile now).2

def run (wp : WorkloadProfile) (calls : List (ℤ × ProfileCall)) : WorkloadProfile :=
  timedRun exec wp calls

def result (now : ℤ) (c : ProfileCall) (wp : WorkloadProfile) : Option RuntimeProfile :=
  match c with
  | .computeProfile => some (wp.computeProfile now).1
  | _ => none

end WorkloadProfile

end Akil
