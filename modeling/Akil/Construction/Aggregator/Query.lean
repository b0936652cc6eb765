import Akil.Construction.Profile.Store
import Akil.Construction.Proto

/-!
# The query service (`cmd/aggregator/main.go`, `QueryProfile` and `QueryNodeProfiles`)

The two calls the scheduler plugin makes.  Both check their one argument, ask the store and
convert what it returns to the wire message.
-/

namespace Akil

/-- `time.Time.UnixNano`; for the zero time it is the wrapped distance to the epoch. -/
def unixNano : Option ℤ → Int64
  | none => -6795364578871345152
  | some t => Int64.ofInt t

def profileToProto (p : RuntimeProfile) : Pb.RuntimeProfile where
  workloadKey := p.workloadKey
  pageFaultRate := p.pageFaultRate
  cacheMissRate := p.cacheMissRate
  lockContentionRatio := p.lockContentionRatio
  contextSwitchRate := p.contextSwitchRate
  sampleCount := p.sampleCount
  windowStartNs := unixNano p.windowStart
  windowEndNs := unixNano p.windowEnd
  confidence := .ofConfidence p.confidence

namespace AggregatorService

def queryProfile (workloadKey : String) (now : ℤ) (s : Store) :
    Except String Pb.RuntimeProfile × Store :=
  if workloadKey = "" then (.error "workload_key required", s)
  else
    let (p, s) := s.queryProfile workloadKey now
    (.ok (profileToProto p), s)

/-- `QueryNodeProfiles`, along the visits of the store's `Range`. -/
def queryNodeProfiles (nodeName : String) (visits : List (String × ℤ)) (s : Store) :
    Except String (List Pb.RuntimeProfile) × Store :=
  if nodeName = "" then (.error "node_name required", s)
  else
    let (ps, s) := s.queryNodeProfiles nodeName visits
    (.ok (ps.map profileToProto), s)

end AggregatorService

end Akil
