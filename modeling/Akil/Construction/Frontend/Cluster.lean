import Akil.Construction.Aggregator.Autoscaler
import Akil.Construction.Frontend.Scorer

/-!
# The in-browser backend (`frontend/src/lib/cluster.ts`)

Without an aggregator the demo page keeps the sliding windows itself.  `LocalBackend` holds one
list of buckets per workload, oldest first, in a JavaScript `Map`, which remembers the order of
insertion, and one `lastRotate` for all of them.  `Date.now()` counts whole milliseconds; each
method reads it once or twice in the same turn of the event loop, and the reading is an argument
here.

The counts of a workload are whole numbers: the page sends the same ones to
`/api/simulate-events`, which decodes them into Go integers.  A bucket has the five counters of
the Go bucket, `cm`, `lockNs`, `pf`, `cs` and `ev`.  They are integers here; the JavaScript numbers
they are in the page are exact as long as no sum exceeds `2 ^ 53` in magnitude.
-/

namespace Akil.Frontend

/-- `toProfile`: the page's profile for one the aggregator reports. -/
def toProfile (p : RuntimeProfile) : Profile where
  key := p.workloadKey
  cacheMissRate := p.cacheMissRate
  lockRatio := p.lockContentionRatio
  pageFaultRate := p.pageFaultRate
  ctxSwitchRate := p.contextSwitchRate
  samples := p.sampleCount.toInt
  confidence := p.confidence

def buckets : ℕ := 12

def bucketSeconds : ℕ := 1

def windowSeconds : ℕ := buckets * bucketSeconds

/-- `WorkloadSpec`: what is fed into the telemetry pipeline once a second. -/
structure WorkloadSpec where
  key : String
  node : String
  cacheMisses : ℤ
  lockRatio : ℚ
  pageFaults : ℤ
  ctxSwitches : ℤ
  deriving DecidableEq

/-- The `lockNs` of an injection: `Math.round(w.lockRatio * 1e9)`. -/
def WorkloadSpec.lockNs (w : WorkloadSpec) : ℤ := roundHalfUp (w.lockRatio * 10 ^ 9)

def WorkloadSpec.counts (w : WorkloadSpec) : Counts ℤ where
  eventCount := w.cacheMisses + w.pageFaults + w.ctxSwitches + (if w.lockNs > 0 then 1 else 0)
  pageFaults := w.pageFaults
  cacheMisses := w.cacheMisses
  lockDurationNs := w.lockNs
  ctxSwitches := w.ctxSwitches

structure ScalingEvent where
  timestamp : ℤ
  action : ScalingAction
  reason : String
  replicas : ℤ
  deriving DecidableEq

structure LocalBackend where
  windows : List (String × List (Counts ℤ))
  replicas : ℤ
  autoscale : Bool
  logs : List ScalingEvent
  lastRotate : ℤ
  deriving DecidableEq

namespace LocalBackend

def new (now : ℤ) : LocalBackend := ⟨[], 2, true, [], now⟩

/-- `w.shift(); w.push(emptyBucket())` -/
def shiftPush (w : List (Counts ℤ)) : List (Counts ℤ) := w.tail ++ [0]

def rotate (now : ℤ) (b : LocalBackend) : LocalBackend :=
  let steps := ⌊((now - b.lastRotate : ℤ) : ℚ) / (bucketSeconds * 1000 : ℕ)⌋
  if steps ≤ 0 then b
  else
    { b with
      lastRotate := b.lastRotate + steps * bucketSeconds * 1000
      windows := b.windows.map
        (fun w => (w.1, shiftPush^[(min steps buckets).toNat] w.2)) }

/-- The window of a workload, if it has one: `windows.get`. -/
def window (b : LocalBackend) (key : String) : Option (List (Counts ℤ)) := b.windows.lookup key

def record (w : WorkloadSpec) (now : ℤ) (b : LocalBackend) : LocalBackend :=
  let b := b.rotate now
  let b := if (b.window w.key).isSome then b
    else { b with windows := b.windows ++ [(w.key, List.replicate buckets 0)] }
  { b with
    windows := b.windows.map (fun v =>
      if v.1 = w.key then (v.1, v.2.modify (buckets - 1) (· + w.counts)) else v) }

def reset (key : String) (b : LocalBackend) : LocalBackend :=
  { b with windows := b.windows.filter (fun v => v.1 ≠ key) }

def profileOf (key : String) (bs : List (Counts ℤ)) : Profile :=
  let s := bs.foldl (· + ·) 0
  { key := key
    cacheMissRate := s.cacheMisses / windowSeconds
    lockRatio := s.lockDurationNs / (windowSeconds * 10 ^ 9)
    pageFaultRate := s.pageFaults / windowSeconds
    ctxSwitchRate := s.ctxSwitches / windowSeconds
    samples := s.eventCount
    confidence := confidenceFor s.eventCount }

/-- `profiles`: all windows, in the order of their first injection. -/
def profiles (now : ℤ) (b : LocalBackend) : List Profile × LocalBackend :=
  let b := b.rotate now
  (b.windows.map (fun w => profileOf w.1 w.2), b)

/-- The loop of `autoscaleTick` over the profiles: the reason to scale up, if there is one, and
whether all were nominal. -/
def tickLoop : List Profile → Bool → Option String × Bool
  | [], allNominal => (none, allNominal)
  | p :: ps, allNominal =>
      if p.ctxSwitchRate > 100 then
        (some ("High Context Switch Rate detected (>100/s) for " ++ p.key
          ++ ". Scaling UP to relieve CPU contention."), false)
      else if p.pageFaultRate > 5000 then
        (some ("High Page Fault Rate detected (>5000/s) for " ++ p.key
          ++ ". Scaling UP to distribute memory pressure."), false)
      else if p.cacheMissRate > 1000 then
        (some ("High Cache Miss Rate detected (>1000/s) for " ++ p.key
          ++ ". Scaling UP to improve cache locality."), false)
      else tickLoop ps (if p.ctxSwitchRate < 50 ∧ p.pageFaultRate < 2000 ∧ p.cacheMissRate < 500
        then allNominal else false)

/-- `autoscaleTick`.  An empty `reason` is none; the log keeps its latest fifty entries. -/
def autoscaleTick (now : ℤ) (b : LocalBackend) : LocalBackend :=
  if b.autoscale = false then b
  else
    let (ps, b) := b.profiles now
    let (hot, allNominal) := tickLoop ps (decide (ps.length > 0))
    let next := b.replicas + (if hot.isSome then 1 else 0)
    let (next, reason) := if allNominal = true ∧ b.replicas > 1
      then (next - 1, "All workload metrics nominal. Scaling DOWN to conserve resources.")
      else (next, hot.getD "")
    let next := max 1 (min 6 next)
    if next ≠ b.replicas then
      let event : ScalingEvent :=
        ⟨now, if next > b.replicas then .scaleUp else .scaleDown, reason, next⟩
      { b with
        logs := (b.logs ++ [event]).rtake 50
        replicas := next }
    else b

end LocalBackend

end Akil.Frontend
