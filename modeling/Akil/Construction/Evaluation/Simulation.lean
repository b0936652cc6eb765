import Akil.Construction.Scoring.Scorer
import Akil.Framework.Rounding

/-!
# The scorer of the evaluation (`scripts/run_evidence_simulations.py`)

The paper's placement experiment does not run the Go scorer; it runs `akil_score`, which calls
itself a line-for-line port of it.  The script scores pods of four workload types whose kernel
profiles are the constants of `WORKLOADS`.  Python's floats are rationals here.  Its `round`
sends a half-way value to the even neighbour.
-/

namespace Akil.Evaluation

/-- The keys of `WORKLOADS`. -/
inductive WorkloadType
  | baselineWeb
  | cacheStress
  | lockStress
  | batchWorker
  deriving DecidableEq, Repr

/-- An entry of `WORKLOADS`: resource requests and kernel rates. -/
structure Workload where
  cpu : ℕ
  mem : ℕ
  cache : ℚ
  lock : ℚ
  pf : ℚ
  cs : ℚ
  deriving DecidableEq

def workloads : WorkloadType → Workload
  | .baselineWeb => ⟨100, 128, 120000, 4 / 100, 350, 2500⟩
  | .cacheStress => ⟨100, 128, 900000, 8 / 100, 1200, 4000⟩
  | .lockStress => ⟨100, 128, 200000, 65 / 100, 500, 9500⟩
  | .batchWorker => ⟨200, 256, 150000, 5 / 100, 7500, 1800⟩

/-- `WEIGHTS`: cache, lock, page faults, context switches. -/
def weights : ℚ × ℚ × ℚ × ℚ := (35, 30, 20, 15)

/-- The normalization constants `mx` of `akil_score`. -/
structure Maxima where
  cache : ℚ
  pf : ℚ
  cs : ℚ
  deriving DecidableEq

def goMax : Maxima := ⟨10 ^ 6, 10 ^ 4, 10 ^ 4⟩

def akilScore (candidate : WorkloadType) (residents : List WorkloadType) (mx : Maxima)
    (weights : ℚ × ℚ × ℚ × ℚ) : ℚ :=
  if residents = [] then 100
  else
    let c := workloads candidate
    let (wc, wl, wp, ws) := weights
    let penalty := residents.foldl (fun penalty r =>
      let p := workloads r
      let cache := p.cache / mx.cache * wc
      let lock := (c.lock + p.lock) * wl
      let pf := (c.pf + p.pf) / mx.pf * wp
      let cs := (c.cs + p.cs) / mx.cs * ws
      penalty + (cache + lock + pf + cs)) 0
    max 0 (min 100 (roundHalfEven (100 - penalty) : ℚ))

end Akil.Evaluation
