import Akil.Construction.Frontend.Cluster

/-!
# The decisions of the live demo (`frontend/src/chapters/LiveDemo.tsx`)

The demo page asks on demand where a web pod should go, once as the stock scheduler would, by free
CPU, and once by AKIL's score with free CPU as the tie-breaker.  It answers from what it knows of
the cluster: which workloads are switched on, and the profiles it polled last, from the aggregator
or from its own backend.  A stopped workload stays resident until its profile has drained.

`byKey` is a `Map` made from the list of profiles, so that of two profiles with one key it has the
last.
-/

namespace Akil.Frontend

/-- A `WorkloadSpec` with the fields the decisions read. -/
structure DemoWorkload extends WorkloadSpec where
  name : String
  cpuRequest : ℤ
  deriving DecidableEq

structure DemoNode where
  name : String
  cpu : ℤ
  deriving DecidableEq

def nodes : List DemoNode := [⟨"node-1", 4000⟩, ⟨"node-2", 4000⟩, ⟨"node-3", 4000⟩]

/-- The first of `CALM`. -/
def batchEtl : DemoWorkload where
  key := "default/Deployment/batch-etl"
  name := "batch-etl"
  node := "node-2"
  cpuRequest := 1500
  cacheMisses := 400
  lockRatio := 1 / 100
  pageFaults := 300
  ctxSwitches := 30

/-- The second of `CALM`. -/
def logShipper : DemoWorkload where
  key := "default/Deployment/log-shipper"
  name := "log-shipper"
  node := "node-3"
  cpuRequest := 1200
  cacheMisses := 200
  lockRatio := 5 / 1000
  pageFaults := 150
  ctxSwitches := 20

def calm : List DemoWorkload := [batchEtl, logShipper]

def noisy : DemoWorkload where
  key := "default/Deployment/cache-stress"
  name := "cache-stress"
  node := "node-1"
  cpuRequest := 100
  cacheMisses := 900000
  lockRatio := 8 / 100
  pageFaults := 1200
  ctxSwitches := 4000

/-- The profile of `CANDIDATE`. -/
def candidate : Profile where
  key := "default/Deployment/web-frontend"
  cacheMissRate := 120000
  lockRatio := 4 / 100
  pageFaultRate := 350
  ctxSwitchRate := 2500
  samples := 5000
  confidence := .high

def candidateCpuRequest : ℤ := 100

def noisyWarmRate : ℚ := 300000

/-- An entry of the `rows` of a decision. -/
structure Row where
  node : String
  freeCpu : ℤ
  defaultScore : ℤ
  akil : ScoreResult
  residents : List String
  deriving DecidableEq

structure Decision where
  id : ℤ
  noisyPresent : Bool
  defaultPick : String
  akilPick : String
  rows : List Row
  deriving DecidableEq

/-- What the page knows of the cluster. -/
structure Demo where
  calmOn : Bool
  noisyOn : Bool
  profiles : List Profile

namespace Demo

variable (c : Demo)

def byKey (key : String) : Option Profile := (c.profiles.reverse.find? (fun p => p.key = key))

def isOn (w : DemoWorkload) : Bool := if w = noisy then c.noisyOn else c.calmOn

def residents (node : String) : List DemoWorkload :=
  (calm ++ [noisy]).filter (fun w => w.node = node &&
    (c.isOn w || decide (((c.byKey w.key).map Profile.samples).getD 0 > 0)))

def noisyWarm : Bool :=
  decide (((c.byKey noisy.key).map Profile.cacheMissRate).getD 0 > noisyWarmRate)

/-- The profiles of a node's residents that the candidate is scored against. -/
def colocated (node : String) : List Profile :=
  ((c.residents node).filterMap (fun w => c.byKey w.key)).filter (fun p => p.samples > 0)

def row (n : DemoNode) : Row :=
  let res := c.residents n.name
  let used := (res.map DemoWorkload.cpuRequest).sum
  { node := n.name
    freeCpu := n.cpu - used
    defaultScore := roundHalfUp (((n.cpu - used - candidateCpuRequest : ℤ) : ℚ) / n.cpu * 100)
    akil := score candidate (c.colocated n.name)
    residents := res.map DemoWorkload.name }

/-- `best`: the node of the first row with the greatest value. -/
def best (f : Row → ℤ) : List Row → String
  | [] => ""
  | r :: rows => (rows.foldl (fun a b => if f b > f a then b else a) r).node

def schedule (id : ℤ) : Decision :=
  let rows := nodes.map c.row
  { id
    noisyPresent := rows.any (fun r => noisy.name ∈ r.residents)
    defaultPick := best Row.defaultScore rows
    akilPick := best (fun r => r.akil.score * 1000 + r.defaultScore) rows
    rows }

end Demo

end Akil.Frontend
