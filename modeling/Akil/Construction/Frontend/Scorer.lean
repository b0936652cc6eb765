import Akil.Construction.Scoring.Scorer
import Akil.Framework.Rounding

/-!
# The scorer of the demo page (`frontend/src/lib/scorer.ts`)

The file calls itself a faithful port of `pkg/scoring/scorer.go`, and the page scores nodes with
it.  Its `number`s are rationals here, as the `float64`s of the Go scorer are.  A TypeScript
confidence is one of the numbers `0` to `3`, which its comment names like the Go constants; the
type is shared.
-/

namespace Akil.Frontend

structure Profile where
  key : String
  cacheMissRate : ℚ
  lockRatio : ℚ
  pageFaultRate : ℚ
  ctxSwitchRate : ℚ
  samples : ℚ
  confidence : Confidence
  deriving DecidableEq

def weights : Weights := ⟨35, 30, 20, 15⟩

def maxCache : ℚ := 10 ^ 6

def maxPageFault : ℚ := 10 ^ 4

def maxCtxSwitch : ℚ := 10 ^ 4

structure ScoreResult where
  score : ℤ
  cache : ℚ
  lock : ℚ
  pageFault : ℚ
  ctxSwitch : ℚ
  reason : String
  deriving DecidableEq

def dampening : Confidence → ℚ
  | .unknown => 0
  | .low => 1 / 4
  | .medium => 3 / 4
  | .high => 1

/-- A candidate without a profile is scored as a quiet one. -/
def quietIfUnknown (candidate : Profile) : Profile :=
  if candidate.confidence = .unknown then
    { candidate with
      cacheMissRate := 0
      lockRatio := 0
      pageFaultRate := 0
      ctxSwitchRate := 0
      confidence := .high }
  else candidate

/-- One pass of the loop of `score`: what a known neighbour adds to `t`. -/
def addNeighbour (candidate : Profile) (t : Penalties) (p : Profile) : Penalties where
  cache := t.cache + p.cacheMissRate / maxCache * weights.cache
  lock := t.lock + (candidate.lockRatio + p.lockRatio) * weights.lock
  pageFault := t.pageFault
    + (candidate.pageFaultRate + p.pageFaultRate) / maxPageFault * weights.pageFault
  ctxSwitch := t.ctxSwitch
    + (candidate.ctxSwitchRate + p.ctxSwitchRate) / maxCtxSwitch * weights.ctxSwitch

/-- `score`.  `Math.round` sends a half-way value up. -/
def score (candidate : Profile) (colocated : List Profile) : ScoreResult :=
  let candidate := quietIfUnknown candidate
  let known := colocated.filter (fun p => p.confidence ≠ .unknown)
  if colocated.length = 0 then ⟨100, 0, 0, 0, 0, "Empty node, nothing to interfere with"⟩
  else
    let t := known.foldl (addNeighbour candidate) ⟨0, 0, 0, 0⟩
    let d := dampening candidate.confidence
    let total := (t.cache + t.lock + t.pageFault + t.ctxSwitch) * d
    let s := max 0 (min 100 (100 - total))
    { score := roundHalfUp s
      cache := t.cache * d
      lock := t.lock * d
      pageFault := t.pageFault * d
      ctxSwitch := t.ctxSwitch * d
      reason := "Co-location penalty applied" }

def confidenceFor (samples : ℚ) : Confidence :=
  if samples > 1000 then .high
  else if samples ≥ 100 then .medium
  else if samples > 0 then .low
  else .unknown

end Akil.Frontend
