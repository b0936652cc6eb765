import Akil.Construction.Evaluation.Simulation
import Mathlib.Data.List.MinMax
import Mathlib.Data.Prod.Lex

/-!
# The placement experiment (`scripts/run_evidence_simulations.py`)

`place` puts pods on nodes in the order they arrive, with one of four schedulers.  Each of them
lists the nodes the pod fits on and returns the `max` of that list for the key
`(score, rng.random())`; they differ in the score.  `max` computes the keys from left to right and
returns the first node with a greatest one.  The random source is any state with a function that
draws a number from it.  A node is an object whose list of pods is changed in place; here it is
known by its position.
-/

namespace Akil.Evaluation

variable {ρ : Type*}

def nodeCpu : ℕ := 2000

def nodeMem : ℕ := 4096

def akilPluginWeight : ℚ := 25

structure Node where
  name : String
  pods : List WorkloadType
  deriving DecidableEq

namespace Node

def cpuUsed (n : Node) : ℕ := (n.pods.map (fun p => (workloads p).cpu)).sum

/-- The sum `mem` of `fits`. -/
def memUsed (n : Node) : ℕ := (n.pods.map (fun p => (workloads p).mem)).sum

def fits (n : Node) (pod : WorkloadType) : Bool :=
  decide (n.cpuUsed + (workloads pod).cpu ≤ nodeCpu) &&
    decide (n.memUsed + (workloads pod).mem ≤ nodeMem)

def leastAllocated (n : Node) (pod : WorkloadType) : ℚ :=
  ((nodeCpu : ℚ) - n.cpuUsed - (workloads pod).cpu) / nodeCpu * 100

def utilisation (n : Node) : ℚ := (n.cpuUsed : ℚ) / nodeCpu

def append (pod : WorkloadType) (n : Node) : Node := { n with pods := n.pods ++ [pod] }

end Node

/-! ## The schedulers -/

/-- The list `feasible`, with the position of each node. -/
def feasible (pod : WorkloadType) (nodes : List Node) : List (Node × ℕ) :=
  nodes.zipIdx.filter (fun n => n.1.fits pod)

/-- The keys of `max`, each with the position of its node, and the random source after them. -/
def drawKeys (random : ρ → ℚ × ρ) (score : Node → ℚ) :
    List (Node × ℕ) → ρ → List (ℕ × (ℚ ×ₗ ℚ)) × ρ
  | [], rng => ([], rng)
  | n :: ns, rng =>
      let (x, rng) := random rng
      let (keys, rng) := drawKeys random score ns rng
      ((n.2, toLex (score n.1, x)) :: keys, rng)

/-- The body the pickers share: the feasible node with the greatest key, or `None`. -/
def pickBy (score : Node → ℚ) (pod : WorkloadType) (nodes : List Node) (random : ρ → ℚ × ρ)
    (rng : ρ) : Option ℕ × ρ :=
  let (keys, rng) := drawKeys random score (feasible pod nodes) rng
  ((keys.argmax Prod.snd).map Prod.fst, rng)

def pickDefault (pod : WorkloadType) (nodes : List Node) (random : ρ → ℚ × ρ) (rng : ρ) :
    Option ℕ × ρ :=
  pickBy (fun n => n.leastAllocated pod) pod nodes random rng

def pickBinpacking (pod : WorkloadType) (nodes : List Node) (random : ρ → ℚ × ρ) (rng : ρ) :
    Option ℕ × ρ :=
  pickBy (fun n => n.utilisation) pod nodes random rng

def tlpScore (pod : WorkloadType) (targetUtil : ℚ) (n : Node) : ℚ :=
  let u : ℚ := ((n.cpuUsed : ℚ) + (workloads pod).cpu) / nodeCpu
  if u ≤ targetUtil then u / targetUtil * 100
  else max 0 (100 - (u - targetUtil) / (1 - targetUtil) * 100)

def pickTrimaranTlp (pod : WorkloadType) (nodes : List Node) (random : ρ → ℚ × ρ) (rng : ρ)
    (targetUtil : ℚ) : Option ℕ × ρ :=
  pickBy (tlpScore pod targetUtil) pod nodes random rng

def pickAkil (pod : WorkloadType) (nodes : List Node) (random : ρ → ℚ × ρ) (rng : ρ) :
    Option ℕ × ρ :=
  pickBy (fun n => akilPluginWeight * akilScore pod n.pods goMax weights + n.leastAllocated pod)
    pod nodes random rng

inductive Scheduler
  | defaultK8s
  | binPacking
  | trimaranTlp
  | akil
  deriving DecidableEq, Repr

/-- `PICKER`, with the default target of `pick_trimaran_tlp`. -/
def picker (scheduler : Scheduler) (pod : WorkloadType) (nodes : List Node) (random : ρ → ℚ × ρ)
    (rng : ρ) : Option ℕ × ρ :=
  match scheduler with
  | .defaultK8s => pickDefault pod nodes random rng
  | .binPacking => pickBinpacking pod nodes random rng
  | .trimaranTlp => pickTrimaranTlp pod nodes random rng (1 / 2)
  | .akil => pickAkil pod nodes random rng

/-! ## Placement -/

/-- What `place` returns: the nodes and the number of pods that were not placed. -/
structure Placement where
  nodes : List Node
  unplaced : ℕ
  deriving DecidableEq

/-- The body of the loop of `place`. -/
def placePod (scheduler : Scheduler) (random : ρ → ℚ × ρ) (state : Placement × ρ)
    (pod : WorkloadType) : Placement × ρ :=
  match picker scheduler pod state.1.nodes random state.2 with
  | (none, rng) => (⟨state.1.nodes, state.1.unplaced + 1⟩, rng)
  | (some i, rng) => (⟨state.1.nodes.modify i (Node.append pod), state.1.unplaced⟩, rng)

/-- `place`, with the random source it leaves behind. -/
def place (arrivals : List WorkloadType) (scheduler : Scheduler) (random : ρ → ℚ × ρ) (rng : ρ)
    (numNodes : ℕ) : Placement × ρ :=
  let nodes := (List.range numNodes).map (fun i => ⟨s!"node-{i + 1}", []⟩)
  arrivals.foldl (placePod scheduler random) (⟨nodes, 0⟩, rng)

end Akil.Evaluation
