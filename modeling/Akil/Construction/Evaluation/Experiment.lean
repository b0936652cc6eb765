import Akil.Construction.Evaluation.Placement
import Akil.Framework.Quantile
import Mathlib.Data.List.Sort

/-!
# The main experiment (`scripts/run_evidence_simulations.py`)

For every seed `run_main_experiment` places the same epochs of arrivals with each of the four
schedulers, each on a random source of its own.  Every web pod it finds on a node yields a miss
rate, a context-switch load and some latency samples; the counters of a scheduler go through all
seeds, the samples are summarised seed by seed.  Beside the schedulers stands an oracle that has
every web pod alone on a node.

Of the source's latency model `sample_latency` stays a parameter: it draws from the random source,
so that it decides later ties, and what it draws are floating-point numbers.
-/

namespace Akil.Evaluation

variable {ρ : Type*}

structure Interference where
  llc : ℚ
  bus : ℚ
  deriving DecidableEq

def interference : WorkloadType → Interference
  | .cacheStress => ⟨30 / 100, 80 / 100⟩
  | .lockStress => ⟨3 / 100, 35 / 100⟩
  | .batchWorker => ⟨8 / 100, 25 / 100⟩
  | .baselineWeb => ⟨2 / 100, 5 / 100⟩

def isolatedLlc : ℚ := 38 / 100

def webSloMs : ℚ := 15

/-- `web_pod_condition`: the miss rate of a web pod on the node, and the factor its neighbours put
on the bus. -/
def webPodCondition (n : Node) : ℚ × ℚ :=
  let remaining := n.pods.erase .baselineWeb
  let (hit, bus) := remaining.foldl
    (fun (hit, bus) nb => (hit * (1 - (interference nb).llc), bus + (interference nb).bus))
    (1 - isolatedLlc, 1)
  (1 - hit, bus)

def pct (sortedVals : List ℚ) (q : ℚ) : Option ℚ := quantile sortedVals q

structure Summary where
  p50 : ℚ
  p90 : ℚ
  p99 : ℚ
  p999 : ℚ
  sloPct : ℚ
  llcMissRate : ℚ
  nodeCtxSwitchLoad : ℚ
  deriving DecidableEq

/-- `summarise`; without samples it fails, on an index or a division by zero. -/
def summarise (lat llcs csLoad : List ℚ) : Option Summary := do
  let lat := lat.insertionSort (· ≤ ·)
  let p50 ← pct lat (50 / 100)
  let p90 ← pct lat (90 / 100)
  let p99 ← pct lat (99 / 100)
  let p999 ← pct lat (999 / 1000)
  guard (llcs ≠ [] ∧ csLoad ≠ [])
  return {
    p50, p90, p99, p999
    sloPct := 100 * (lat.countP (webSloMs < ·) : ℚ) / lat.length
    llcMissRate := 100 * llcs.sum / llcs.length
    nodeCtxSwitchLoad := csLoad.sum / csLoad.length }

structure ColocTotals where
  web : ℕ
  coloc : ℕ
  unplaced : ℕ
  pods : ℕ
  deriving DecidableEq

/-- The variables of one scheduler's run on one seed: its random source, the three lists, and the
counters. -/
structure SeedRun (ρ : Type*) where
  rng : ρ
  lat : List ℚ
  llcs : List ℚ
  csLoad : List ℚ
  totals : ColocTotals

/-- The parameters of the experiment: the draws of `rng.random()` and of `sample_latency`, the
number of samples for a web pod, and the nodes of the cluster. -/
structure Experiment (ρ : Type*) where
  random : ρ → ℚ × ρ
  sampleLatency : ρ → ℚ → ℚ → ℚ × ρ
  samplesPerWebPod : ℕ
  numNodes : ℕ

namespace Experiment

variable (e : Experiment ρ)

/-- The innermost loop: so many latency samples under one condition. -/
def sample (llc bus : ℚ) : ℕ → SeedRun ρ → SeedRun ρ
  | 0, r => r
  | k + 1, r =>
      let (x, rng) := e.sampleLatency r.rng llc bus
      sample llc bus k { r with rng, lat := r.lat ++ [x] }

/-- The loop over the web pods of a node. -/
def measureWebs (n : Node) : ℕ → SeedRun ρ → SeedRun ρ
  | 0, r => r
  | webs + 1, r =>
      let (llc, bus) := webPodCondition n
      let r := { r with
        llcs := r.llcs ++ [llc]
        csLoad := r.csLoad ++ [(n.pods.map (fun p => (workloads p).cs)).sum] }
      measureWebs n webs (e.sample llc bus e.samplesPerWebPod r)

/-- The body of the loop over the nodes. -/
def measureNode (r : SeedRun ρ) (n : Node) : SeedRun ρ :=
  let webs := n.pods.count .baselineWeb
  let t := { r.totals with web := r.totals.web + webs }
  let t := if .cacheStress ∈ n.pods then { t with coloc := t.coloc + webs } else t
  e.measureWebs n webs { r with totals := t }

/-- The body of the loop over the epochs. -/
def runEpoch (scheduler : Scheduler) (r : SeedRun ρ) (arrivals : List WorkloadType) : SeedRun ρ :=
  let (p, rng) := place arrivals scheduler e.random r.rng e.numNodes
  let t := { r.totals with
    unplaced := r.totals.unplaced + p.unplaced
    pods := r.totals.pods + arrivals.length }
  p.nodes.foldl e.measureNode { r with rng, totals := t }

/-- One scheduler on one seed: the source of that seed, its epochs, and the counters so far. -/
def runSeed (scheduler : Scheduler) (totals : ColocTotals) (seed : ρ × List (List WorkloadType)) :
    SeedRun ρ :=
  seed.2.foldl (e.runEpoch scheduler) ⟨seed.1, [], [], [], totals⟩

/-- One scheduler's part of `run_main_experiment`: its counters and its `per_seed` lists. -/
def runSeeds (scheduler : Scheduler) (seeds : List (ρ × List (List WorkloadType))) :
    ColocTotals × List (SeedRun ρ) :=
  seeds.foldl (fun (totals, perSeed) seed =>
    let r := e.runSeed scheduler totals seed
    (r.totals, perSeed ++ [r])) (⟨0, 0, 0, 0⟩, [])

/-- The oracle's latencies: every web pod alone on its own node. -/
def sampleIsolated (rng : ρ) (nWeb : ℕ) : List ℚ :=
  (e.sample isolatedLlc 1 (nWeb * e.samplesPerWebPod) ⟨rng, [], [], [], ⟨0, 0, 0, 0⟩⟩).lat

def isolated (rng : ρ) (nWeb : ℕ) : Option Summary :=
  summarise (e.sampleIsolated rng nWeb) (List.replicate nWeb isolatedLlc)
    (List.replicate nWeb (workloads .baselineWeb).cs)

end Experiment

/-- The web pods that arrive in the epochs of a seed. -/
def nWeb (epochs : List (List WorkloadType)) : ℕ :=
  (epochs.map (fun a => a.count .baselineWeb)).sum

end Akil.Evaluation
