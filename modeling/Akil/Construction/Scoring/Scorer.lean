import Akil.Construction.Profile.Window

/-!
# The co-location scorer (`pkg/scoring/scorer.go`)

`Scorer.score` gives a number between 0 and 100 to placing a candidate workload beside the
workloads of a node: a hundred, less a penalty for every co-located workload of known profile,
dampened by how much the candidate's own profile is to be trusted.  Go computes in `float64`;
the model computes in rationals.
-/

namespace Akil

/-- `Weights`: the relative importance of each signal type in scoring. -/
structure Weights where
  cache : ℚ
  lock : ℚ
  pageFault : ℚ
  ctxSwitch : ℚ
  deriving DecidableEq

def defaultWeights : Weights := ⟨35, 30, 20, 15⟩

structure ScorerConfig where
  weights : Weights
  maxCacheMissRate : ℚ
  maxPageFaultRate : ℚ
  maxCtxSwitchRate : ℚ
  deriving DecidableEq

def defaultScorerConfig : ScorerConfig := ⟨defaultWeights, 10 ^ 6, 10 ^ 4, 10 ^ 4⟩

/-- `Scorer`: the weights and the normalization denominators. -/
structure Scorer where
  weights : Weights
  maxCacheMissRate : ℚ
  maxPageFaultRate : ℚ
  maxCtxSwitchRate : ℚ
  deriving DecidableEq

/-- `NewScorer`: a maximum that is not positive is replaced by its default. -/
def newScorer (cfg : ScorerConfig) : Scorer where
  weights := cfg.weights
  maxCacheMissRate := if cfg.maxCacheMissRate ≤ 0 then 10 ^ 6 else cfg.maxCacheMissRate
  maxPageFaultRate := if cfg.maxPageFaultRate ≤ 0 then 10 ^ 4 else cfg.maxPageFaultRate
  maxCtxSwitchRate := if cfg.maxCtxSwitchRate ≤ 0 then 10 ^ 4 else cfg.maxCtxSwitchRate

def neutralScore : ℤ := 50

/-- The four penalties of the loop of `Score`. -/
@[ext] structure Penalties where
  cache : ℚ
  lock : ℚ
  pageFault : ℚ
  ctxSwitch : ℚ
  deriving DecidableEq

namespace Penalties

instance : Zero Penalties := ⟨⟨0, 0, 0, 0⟩⟩

instance : Add Penalties :=
  ⟨fun a b => ⟨a.cache + b.cache, a.lock + b.lock, a.pageFault + b.pageFault,
    a.ctxSwitch + b.ctxSwitch⟩⟩

instance : AddCommMonoid Penalties where
  add_assoc a b c := Penalties.ext (add_assoc _ _ _) (add_assoc _ _ _) (add_assoc _ _ _)
    (add_assoc _ _ _)
  zero_add a := Penalties.ext (zero_add _) (zero_add _) (zero_add _) (zero_add _)
  add_zero a := Penalties.ext (add_zero _) (add_zero _) (add_zero _) (add_zero _)
  add_comm a b := Penalties.ext (add_comm _ _) (add_comm _ _) (add_comm _ _) (add_comm _ _)
  nsmul := nsmulRec

def total (p : Penalties) : ℚ := p.cache + p.lock + p.pageFault + p.ctxSwitch

end Penalties

structure ScoreResult where
  score : ℤ
  penalties : Penalties
  totalPenalty : ℚ
  reason : String
  deriving DecidableEq

/-- `math.Round`: to the nearest integer, halves away from zero. -/
def mathRound (x : ℚ) : ℤ := if 0 ≤ x then ⌊x + 1 / 2⌋ else ⌈x - 1 / 2⌉

def confidenceDampeningFactor : Confidence → ℚ
  | .low => 1 / 4
  | .medium => 3 / 4
  | .high => 1
  | .unknown => 0

def clampScore (score : ℚ) : ℚ :=
  let score := if score < 0 then 0 else score
  if score > 100 then 100 else score

namespace Scorer

/-- A candidate without a profile is scored as a quiet workload. -/
def effectiveCandidate (candidate : RuntimeProfile) : RuntimeProfile :=
  if candidate.confidence = .unknown then
    { workloadKey := candidate.workloadKey
      pageFaultRate := 0
      cacheMissRate := 0
      lockContentionRatio := 0
      contextSwitchRate := 0
      sampleCount := 0
      windowStart := none
      windowEnd := none
      confidence := .high }
  else candidate

/-- The penalties one co-located workload adds. -/
def penalty (s : Scorer) (candidate p : RuntimeProfile) : Penalties where
  cache := p.cacheMissRate / s.maxCacheMissRate * s.weights.cache
  lock := (candidate.lockContentionRatio + p.lockContentionRatio) * s.weights.lock
  pageFault := (candidate.pageFaultRate + p.pageFaultRate) / s.maxPageFaultRate
    * s.weights.pageFault
  ctxSwitch := (candidate.contextSwitchRate + p.contextSwitchRate) / s.maxCtxSwitchRate
    * s.weights.ctxSwitch

/-- The loop of `Score`: workloads without profile data are skipped. -/
def totalPenalties (s : Scorer) (candidate : RuntimeProfile) (colocated : List RuntimeProfile) :
    Penalties :=
  colocated.foldl
    (fun acc p => if p.confidence = .unknown then acc else acc + s.penalty candidate p) 0

def score (s : Scorer) (candidate : RuntimeProfile) (colocated : List RuntimeProfile) :
    ScoreResult :=
  let candidate := effectiveCandidate candidate
  if colocated = [] then ⟨100, 0, 0, "no co-located workloads on node"⟩
  else
    let penalties := s.totalPenalties candidate colocated
    let totalPenalty := penalties.total * confidenceDampeningFactor candidate.confidence
    { score := mathRound (clampScore (100 - totalPenalty))
      penalties := penalties
      totalPenalty := totalPenalty
      reason := "co-location penalty scoring applied" }

end Scorer

end Akil
