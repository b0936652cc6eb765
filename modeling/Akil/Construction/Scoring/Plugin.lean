import Akil.Construction.Aggregator.Query
import Akil.Construction.Identity.WorkloadKey
import Akil.Construction.Scoring.Scorer

/-!
# The scheduler plugin (`pkg/scoring/akil_score.go`)

`AkilScorePlugin.Score` asks the aggregator for the candidate's profile and for the profiles on
the node, leaves out the candidate's own replicas and the DaemonSets, and lets the scorer decide.
Either call may fail or time out; then the plugin stays neutral.
-/

namespace Akil

/-- `fromProto`: everything but the window bounds. -/
def fromProto (r : Pb.RuntimeProfile) : RuntimeProfile where
  workloadKey := r.workloadKey
  pageFaultRate := r.pageFaultRate
  cacheMissRate := r.cacheMissRate
  lockContentionRatio := r.lockContentionRatio
  contextSwitchRate := r.contextSwitchRate
  sampleCount := r.sampleCount
  windowStart := none
  windowEnd := none
  confidence := r.confidence.toConfidence

/-- `AkilScorePlugin`, as far as a score depends on it. -/
structure AkilScorePlugin where
  scorer : Scorer

/-- How the two calls of one `Score` go: the clock reading of the first, the visits of the
second, and whether each fails on the way (an error of the transport or the deadline). -/
structure ScoreQueries where
  candidateTime : ℤ
  candidateFails : Bool
  visits : List (String × ℤ)
  nodeFails : Bool

namespace AkilScorePlugin

def new : AkilScorePlugin := ⟨newScorer defaultScorerConfig⟩

/-- Whether the loop over the node's profiles keeps a workload: not the candidate's own replicas
and not a DaemonSet. -/
def Neighbour (workloadKey npKey : String) : Prop :=
  npKey ≠ workloadKey ∧ ¬ stringsContains npKey "/DaemonSet/"

instance (workloadKey npKey : String) : Decidable (Neighbour workloadKey npKey) :=
  inferInstanceAs (Decidable (_ ∧ _))

def colocated (workloadKey : String) (profiles : List Pb.RuntimeProfile) : List RuntimeProfile :=
  (profiles.filter (fun np => Neighbour workloadKey np.workloadKey)).map fromProto

def score (plugin : AkilScorePlugin) (pod : Pod) (nodeName : String) (q : ScoreQueries)
    (s : Store) : ℤ :=
  let workloadKey := Scoring.getWorkloadKey pod
  match AggregatorService.queryProfile workloadKey q.candidateTime s with
  | (.error _, _) => neutralScore
  | (.ok cand, s) =>
      if q.candidateFails then neutralScore
      else
        match (AggregatorService.queryNodeProfiles nodeName q.visits s).1 with
        | .error _ => neutralScore
        | .ok profiles =>
            if q.nodeFails then neutralScore
            else (plugin.scorer.score (fromProto cand) (colocated workloadKey profiles)).score

end AkilScorePlugin

end Akil
