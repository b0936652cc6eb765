import Akil.Properties.Placement
import Akil.Framework.GreedyFill

/-!
# What the four schedulers do with a cluster

The experiment compares schedulers by where the pods end up, and that is decided by runs, not by
scores.  Every scheduler is a greedy filling (`place_fills`): a pod goes to a node it fits on whose
score is greatest among those, however ties are broken.  Memory never decides, since every
workload asks for the same 128 parts of memory per 100 parts of CPU and a node has more memory than
that (`Node.fits_iff_cpu`).  What follows holds for every sequence of arrivals and every random
source.

All four use the capacity alike: a pod is turned away only when less than its own request is free
on every node, to the end (`placements_saturate`).  The stock scheduler and AKIL share a node only
when no node is empty (`spreaders_spread`); bin packing and, for all its target of one half, TLP
open a node only when the nodes in use are nearly full (`packers_pack`).
-/

namespace Akil.Evaluation

variable {ρ : Type*}

/-! ## The four schedulers as one -/

/-- The score in the key of a scheduler's `max`. -/
def Scheduler.score : Scheduler → WorkloadType → Node → ℚ
  | .defaultK8s, pod, n => n.leastAllocated pod
  | .binPacking, _, n => n.utilisation
  | .trimaranTlp, pod, n => tlpScore pod (1 / 2) n
  | .akil, pod, n => akilPluginWeight * akilScore pod n.pods goMax weights + n.leastAllocated pod

lemma picker_eq_pickBy (scheduler : Scheduler) (pod : WorkloadType) (nodes : List Node)
    (random : ρ → ℚ × ρ) (rng : ρ) :
    picker scheduler pod nodes random rng
      = pickBy (scheduler.score pod) pod nodes random rng := by
  cases scheduler <;> rfl

/-- A node the pod fits on, and no such node has a greater score. -/
structure Best (scheduler : Scheduler) (pod : WorkloadType) (nodes : List Node) (n : Node) :
    Prop where
  fits : n.fits pod = true
  max : ∀ c ∈ nodes, c.fits pod = true → scheduler.score pod c ≤ scheduler.score pod n

/-- The first component of every key is the score of its node. -/
lemma map_score_drawKeys (random : ρ → ℚ × ρ) (score : Node → ℚ) (ns : List (Node × ℕ)) (rng : ρ) :
    (drawKeys random score ns rng).1.map (fun k => (k.1, (ofLex k.2).1))
      = ns.map (fun n => (n.2, score n.1)) := by
  induction ns generalizing rng with
  | nil => rfl
  | cons n ns ih => exact congrArg ((n.2, score n.1) :: ·) (ih _)

/-- The draws only break ties. -/
lemma picker_best {scheduler : Scheduler} {pod : WorkloadType} {nodes : List Node}
    {random : ρ → ℚ × ρ} {rng : ρ} {i : ℕ}
    (h : (picker scheduler pod nodes random rng).1 = some i) :
    ∃ n, nodes[i]? = some n ∧ Best scheduler pod nodes n := by
  have hkeys := map_score_drawKeys random (scheduler.score pod) (feasible pod nodes) rng
  rw [picker_eq_pickBy, pickBy] at h
  obtain ⟨k, hmax, rfl⟩ := Option.map_eq_some_iff.mp h
  have hkey : ∀ k' ∈ (drawKeys random (scheduler.score pod) (feasible pod nodes) rng).1,
      ∃ n, (n, k'.1) ∈ feasible pod nodes ∧ scheduler.score pod n = (ofLex k'.2).1 := by
    intro k' hk'
    have hmem := List.mem_map_of_mem (f := fun k => (k.1, (ofLex k.2).1)) hk'
    rw [hkeys] at hmem
    obtain ⟨⟨n, j⟩, hn, heq⟩ := List.mem_map.mp hmem
    obtain ⟨rfl, hscore⟩ := Prod.mk.inj heq
    exact ⟨n, hn, hscore⟩
  obtain ⟨n, hn, hscore⟩ := hkey k (List.argmax_mem hmax)
  obtain ⟨hi, hfits⟩ := mem_feasible.mp hn
  refine ⟨n, hi, hfits, fun c hc hcfits => ?_⟩
  obtain ⟨j, hj⟩ := List.getElem?_of_mem hc
  have hmem := List.mem_map_of_mem (f := fun n => (n.2, scheduler.score pod n.1))
    (mem_feasible.mpr ⟨hj, hcfits⟩)
  rw [← hkeys] at hmem
  obtain ⟨k', hk', heq⟩ := List.mem_map.mp hmem
  have hle := Prod.Lex.monotone_fst _ _ (List.le_of_mem_argmax hk' hmax)
  rw [hscore]
  exact (congrArg Prod.snd heq).symm.trans_le hle

/-- **The schedulers are greedy fillings.** -/
lemma foldl_fills (scheduler : Scheduler) (random : ρ → ℚ × ρ) (arrivals : List WorkloadType)
    (state : Placement × ρ) :
    Fills (Best scheduler) Node.append state.1.nodes
      (arrivals.foldl (placePod scheduler random) state).1.nodes := by
  induction arrivals generalizing state with
  | nil => exact Fills.refl
  | cons pod arrivals ih =>
      refine Fills.trans ?_ (ih _)
      rw [placePod]
      cases hpick : picker scheduler pod state.1.nodes random state.2 with
      | mk choice rng =>
          cases choice with
          | none => exact Fills.refl
          | some i =>
              obtain ⟨n, hi, hbest⟩ := picker_best (congrArg Prod.fst hpick)
              dsimp only
              rw [modify_eq_set_append hi]
              exact Fills.refl.put pod hi hbest

/-- `place` fills empty nodes. -/
lemma place_fills (arrivals : List WorkloadType) (scheduler : Scheduler) (random : ρ → ℚ × ρ)
    (rng : ρ) (numNodes : ℕ) :
    ∃ empty : List Node, empty.length = numNodes ∧ (∀ n ∈ empty, n.pods = []) ∧
      Fills (Best scheduler) Node.append empty
        (place arrivals scheduler random rng numNodes).1.nodes := by
  refine ⟨(List.range numNodes).map (fun i => ⟨s!"node-{i + 1}", []⟩), by simp, by simp, ?_⟩
  exact foldl_fills scheduler random arrivals (⟨_, 0⟩, rng)

/-- A relation of any two nodes, if it holds of empty ones and each placement keeps it. -/
lemma place_pairwise {scheduler : Scheduler} {R : Node → Node → Prop}
    (hsymm : ∀ b c, R b c → R c b) (hempty : ∀ b c, b.pods = [] → c.pods = [] → R b c)
    (hput : ∀ pod nodes n, Best scheduler pod nodes n → ∀ c ∈ nodes, R n c → R (n.append pod) c)
    (arrivals : List WorkloadType) (random : ρ → ℚ × ρ) (rng : ρ) (numNodes : ℕ) :
    (place arrivals scheduler random rng numNodes).1.nodes.Pairwise R := by
  obtain ⟨empty, -, hnew, hfills⟩ := place_fills arrivals scheduler random rng numNodes
  exact hfills.pairwise hsymm hput (List.pairwise_of_forall_mem_list
    (fun b hb c hc => hempty b c (hnew b hb) (hnew c hc)))

/-! ## CPU decides -/

/-- The CPU requests of some pods. -/
def cpuRequested (pods : List WorkloadType) : ℕ := (pods.map (fun p => (workloads p).cpu)).sum

lemma cpu_le (pod : WorkloadType) : 100 ≤ (workloads pod).cpu ∧ (workloads pod).cpu ≤ 200 := by
  cases pod <;> decide

lemma cpuRequested_pos {pods : List WorkloadType} (h : pods ≠ []) : 100 ≤ cpuRequested pods := by
  obtain ⟨pod, pods, rfl⟩ := List.exists_cons_of_ne_nil h
  have hpod := (cpu_le pod).1
  rw [cpuRequested, List.map_cons, List.sum_cons]
  omega

lemma cpuRequested_le (pods : List WorkloadType) : cpuRequested pods ≤ pods.length * 200 := by
  have hsum := List.sum_le_card_nsmul (pods.map (fun p => (workloads p).cpu)) 200 (by
    intro cpu hcpu
    obtain ⟨pod, -, rfl⟩ := List.mem_map.mp hcpu
    exact (cpu_le pod).2)
  rwa [List.length_map, nsmul_eq_mul, Nat.cast_id] at hsum

namespace Node

lemma cpuUsed_pos {n : Node} (h : n.pods ≠ []) : 100 ≤ n.cpuUsed := cpuRequested_pos h

lemma cpuUsed_of_empty {n : Node} (h : n.pods = []) : n.cpuUsed = 0 := by
  rw [cpuUsed, h, List.map_nil, List.sum_nil]

lemma dvd_cpuUsed (n : Node) : 100 ∣ n.cpuUsed := by
  refine List.dvd_sum (fun cpu hcpu => ?_)
  obtain ⟨pod, -, rfl⟩ := List.mem_map.mp hcpu
  cases pod <;> decide

/-- Every workload asks for memory in the same proportion to CPU. -/
lemma memUsed_eq (n : Node) : 100 * n.memUsed = 128 * n.cpuUsed := by
  have hpod : ∀ pod, 100 * (workloads pod).mem = 128 * (workloads pod).cpu := by
    intro pod
    cases pod <;> decide
  rw [memUsed, cpuUsed]
  induction n.pods with
  | nil => rfl
  | cons pod pods ih =>
      have := hpod pod
      simp only [List.map_cons, List.sum_cons]
      omega

lemma fits_iff_cpu {n : Node} {pod : WorkloadType} :
    n.fits pod = true ↔ n.cpuUsed + (workloads pod).cpu ≤ nodeCpu := by
  have hmem := (n.append pod).memUsed_eq
  rw [fits_iff, cpuUsed_append] at *
  rw [nodeCpu, nodeMem]
  omega

/-- Where a pod does not fit, less than one request's worth is free. -/
lemma le_cpuUsed_of_not_fits {n : Node} {pod : WorkloadType} (hfits : ¬ n.fits pod = true) :
    1900 ≤ n.cpuUsed := by
  have hpod := (cpu_le pod).2
  have hdvd := n.dvd_cpuUsed
  rw [fits_iff_cpu, nodeCpu] at hfits
  omega

lemma leastAllocated_le_iff {b c : Node} {pod : WorkloadType} :
    b.leastAllocated pod ≤ c.leastAllocated pod ↔ c.cpuUsed ≤ b.cpuUsed := by
  rw [leastAllocated, leastAllocated, nodeCpu, ← Nat.cast_le (α := ℚ)]
  constructor <;> intro h <;> linarith

end Node

/-! ## Turning pods away -/

/-- A pod that does not fit on a node does not fit on it later. -/
lemma place_full {scheduler : Scheduler} {random : ρ → ℚ × ρ} {rng : ρ} {numNodes : ℕ}
    {arrivals : List WorkloadType} {pod : WorkloadType}
    (h : pod ∈ turnedAway arrivals scheduler random rng numNodes) :
    ∀ n ∈ (place arrivals scheduler random rng numNodes).1.nodes,
      nodeCpu < n.cpuUsed + (workloads pod).cpu := by
  rw [turnedAway_eq, List.mem_map] at h
  obtain ⟨⟨pod, i⟩, ha, rfl⟩ := h
  obtain ⟨-, hall⟩ := List.mem_filter.mp ha
  have hfull : ∀ n ∈ (place (arrivals.take i) scheduler random rng numNodes).1.nodes,
      nodeCpu < n.cpuUsed + (workloads pod).cpu := by
    intro n hn
    have hfits := List.all_eq_true.mp hall n hn
    rwa [Bool.not_eq_true', Bool.eq_false_iff, ne_eq, Node.fits_iff_cpu, not_le] at hfits
  have hrest := foldl_fills scheduler random (arrivals.drop i)
    (place (arrivals.take i) scheduler random rng numNodes)
  have hplace : (arrivals.drop i).foldl (placePod scheduler random)
      (place (arrivals.take i) scheduler random rng numNodes)
        = place arrivals scheduler random rng numNodes := by
    rw [place, ← List.foldl_append, List.take_append_drop]
    rfl
  rw [hplace] at hrest
  refine hrest.forall_mem (fun item n hn => ?_) hfull
  rw [Node.cpuUsed_append]
  omega

/-- The CPU requests of the pods placed. -/
def Placement.cpuPlaced (p : Placement) : ℕ := (p.nodes.map Node.cpuUsed).sum

lemma Placement.cpuPlaced_eq (p : Placement) :
    p.cpuPlaced = cpuRequested (p.nodes.flatMap Node.pods) := by
  rw [cpuPlaced, cpuRequested, List.flatMap_def, List.map_flatten, List.sum_flatten, List.map_map,
    List.map_map]
  rfl

/-- What is placed, with what is turned away, is what arrived. -/
lemma cpuPlaced_add (arrivals : List WorkloadType) (scheduler : Scheduler) (random : ρ → ℚ × ρ)
    (rng : ρ) (numNodes : ℕ) :
    (place arrivals scheduler random rng numNodes).1.cpuPlaced
      + cpuRequested (turnedAway arrivals scheduler random rng numNodes)
        = cpuRequested arrivals := by
  have hperm := (place_accounted arrivals scheduler random rng numNodes).perm
  rw [Placement.cpuPlaced_eq, cpuRequested, cpuRequested, ← List.sum_append, ← List.map_append]
  exact (hperm.map _).sum_eq

lemma cpuPlaced_le (arrivals : List WorkloadType) (scheduler : Scheduler) (random : ρ → ℚ × ρ)
    (rng : ρ) (numNodes : ℕ) :
    (place arrivals scheduler random rng numNodes).1.cpuPlaced ≤ numNodes * nodeCpu := by
  have hcpu := (place_accounted arrivals scheduler random rng numNodes).cpu
  have hsum := List.sum_le_card_nsmul
    ((place arrivals scheduler random rng numNodes).1.nodes.map Node.cpuUsed) nodeCpu
    (by simpa using hcpu)
  rwa [List.length_map, length_place_nodes, nsmul_eq_mul, Nat.cast_id] at hsum

/-- Once a pod is turned away, less than one request's worth of each node is free. -/
lemma le_cpuPlaced {arrivals : List WorkloadType} {scheduler : Scheduler} {random : ρ → ℚ × ρ}
    {rng : ρ} {numNodes : ℕ} {pod : WorkloadType}
    (h : pod ∈ turnedAway arrivals scheduler random rng numNodes) :
    numNodes * 1900 ≤ (place arrivals scheduler random rng numNodes).1.cpuPlaced := by
  have hcpu : ∀ n ∈ (place arrivals scheduler random rng numNodes).1.nodes, 1900 ≤ n.cpuUsed := by
    intro n hn
    have hfull := place_full h n hn
    have hpod := (cpu_le pod).2
    have hdvd := n.dvd_cpuUsed
    rw [nodeCpu] at hfull
    omega
  have hsum := List.card_nsmul_le_sum
    ((place arrivals scheduler random rng numNodes).1.nodes.map Node.cpuUsed) 1900
    (by simpa using hcpu)
  rwa [List.length_map, length_place_nodes, nsmul_eq_mul, Nat.cast_id] at hsum

/-- So few pods that the nodes cannot get that full are all placed. -/
lemma turnedAway_eq_nil {arrivals : List WorkloadType} {numNodes : ℕ}
    (hfew : arrivals.length * 200 ≤ numNodes * 1900) (scheduler : Scheduler)
    (random : ρ → ℚ × ρ) (rng : ρ) : turnedAway arrivals scheduler random rng numNodes = [] := by
  by_contra haway
  obtain ⟨pod, hpod⟩ := List.exists_mem_of_ne_nil _ haway
  have hfull := le_cpuPlaced hpod
  have hplaced := cpuPlaced_add arrivals scheduler random rng numNodes
  have hsome := cpuRequested_pos haway
  have hlight := cpuRequested_le arrivals
  omega

/-- **When a pod is turned away.** -/
lemma unplaced_take_succ_iff {arrivals : List WorkloadType} {i : ℕ} {pod : WorkloadType}
    (hi : arrivals[i]? = some pod) (scheduler : Scheduler) (random : ρ → ℚ × ρ) (rng : ρ)
    (numNodes : ℕ) :
    (place (arrivals.take (i + 1)) scheduler random rng numNodes).1.unplaced
        = (place (arrivals.take i) scheduler random rng numNodes).1.unplaced + 1
      ↔ ∀ n ∈ (place (arrivals.take i) scheduler random rng numNodes).1.nodes,
          nodeCpu < n.cpuUsed + (workloads pod).cpu := by
  have htake : arrivals.take (i + 1) = arrivals.take i ++ [pod] := by
    rw [List.take_add_one, hi]
    rfl
  have hfull : (place (arrivals.take i) scheduler random rng numNodes).1.nodes.all
      (fun n => !n.fits pod) = true
        ↔ ∀ n ∈ (place (arrivals.take i) scheduler random rng numNodes).1.nodes,
            nodeCpu < n.cpuUsed + (workloads pod).cpu := by
    simp only [List.all_eq_true, Bool.not_eq_true', Bool.eq_false_iff, ne_eq, Node.fits_iff_cpu,
      not_le]
  rw [htake, (place_accounted _ scheduler random rng numNodes).unplaced_eq,
    (place_accounted (arrivals.take i) scheduler random rng numNodes).unplaced_eq,
    turnedAway_concat, List.length_append, ← hfull]
  split_ifs with hall <;> simp [hall]

/-- **The schedulers do not differ in what fits.**  A pod is left unplaced exactly when less CPU
than its own request is free on every node at its arrival, and that is still so at the end.  Hence
of any two schedulers, each with a random source of its own, neither places more than a hundred
millicores a node beyond the other. -/
theorem placements_saturate {σ : Type*} (arrivals : List WorkloadType)
    (scheduler other : Scheduler) (random : ρ → ℚ × ρ) (rng : ρ) (random' : σ → ℚ × σ) (rng' : σ)
    (numNodes : ℕ) :
    let result := (place arrivals scheduler random rng numNodes).1
    let away := turnedAway arrivals scheduler random rng numNodes
    result.nodes.length = numNodes ∧ result.unplaced = away.length ∧
      (∀ i pod, arrivals[i]? = some pod →
        let before := (place (arrivals.take i) scheduler random rng numNodes).1
        let after := (place (arrivals.take (i + 1)) scheduler random rng numNodes).1
        (after.unplaced = before.unplaced + 1
          ↔ ∀ n ∈ before.nodes, nodeCpu < n.cpuUsed + (workloads pod).cpu)) ∧
      (∀ pod ∈ away, ∀ n ∈ result.nodes, nodeCpu < n.cpuUsed + (workloads pod).cpu) ∧
      (place arrivals other random' rng' numNodes).1.cpuPlaced
        ≤ result.cpuPlaced + numNodes * 100 := by
  intro result away
  refine ⟨length_place_nodes arrivals scheduler random rng numNodes,
    (place_accounted arrivals scheduler random rng numNodes).unplaced_eq,
    fun i pod hi => unplaced_take_succ_iff hi scheduler random rng numNodes,
    fun pod hpod => place_full hpod, ?_⟩
  have hother := cpuPlaced_add arrivals other random' rng' numNodes
  have hresult : result.cpuPlaced + cpuRequested away = cpuRequested arrivals :=
    cpuPlaced_add arrivals scheduler random rng numNodes
  rcases List.eq_nil_or_concat away with hnil | hsome
  · -- Everything was placed.
    rw [hnil, cpuRequested, List.map_nil, List.sum_nil] at hresult
    omega
  · obtain ⟨before, pod, haway⟩ := hsome
    have hpod : pod ∈ away := by simp [haway]
    have hlow : numNodes * 1900 ≤ result.cpuPlaced := le_cpuPlaced hpod
    have hhigh := cpuPlaced_le arrivals other random' rng' numNodes
    rw [nodeCpu] at hhigh
    omega

/-- Eleven batch workers on one node: under AKIL the last is turned away, with no CPU free, and
bin packing places no more than a hundred millicores beyond. -/
theorem placements_saturate_full :
    let arrivals : List WorkloadType := List.replicate 11 .batchWorker
    let result := (place arrivals .akil (fun k : ℕ => (k, k + 1)) 0 1).1
    result.unplaced = 1 ∧ (∀ n ∈ result.nodes, nodeCpu < n.cpuUsed + 200) ∧
      (place arrivals .binPacking (fun k : ℕ => (k, k + 1)) 5 1).1.cpuPlaced
        ≤ result.cpuPlaced + 100 := by
  intro arrivals result
  have haway : turnedAway arrivals .akil (fun k : ℕ => (k, k + 1)) 0 1 = [.batchWorker] := by
    decide +kernel
  obtain ⟨-, hunplaced, -, hfull, hother⟩ := placements_saturate arrivals .akil .binPacking
    (fun k : ℕ => (k, k + 1)) 0 (fun k : ℕ => (k, k + 1)) 5 1
  rw [haway] at hunplaced hfull
  exact ⟨hunplaced, hfull .batchWorker (List.mem_singleton_self _), hother⟩

/-! ## Spreading -/

namespace Best

variable {scheduler : Scheduler} {pod : WorkloadType} {nodes : List Node} {n c : Node}

/-- Of two nodes the pod fits on the less loaded, whatever else is on it, if the score says so. -/
lemma cpuUsed_le (h : Best scheduler pod nodes n) (hc : c ∈ nodes)
    (hscore : scheduler.score pod c ≤ scheduler.score pod n → n.cpuUsed ≤ c.cpuUsed) :
    n.cpuUsed ≤ c.cpuUsed := by
  by_cases hfits : c.fits pod = true
  · exact hscore (h.max c hc hfits)
  · have hn := Node.fits_iff_cpu.mp h.fits
    rw [Node.fits_iff_cpu] at hfits
    omega

/-- The stock scheduler takes a node of least load. -/
lemma least_cpuUsed (h : Best .defaultK8s pod nodes n) (hc : c ∈ nodes) :
    n.cpuUsed ≤ c.cpuUsed :=
  h.cpuUsed_le hc Node.leastAllocated_le_iff.mp

/-- AKIL gives an empty node a hundred and no node more, so the load decides. -/
lemma cpuUsed_le_of_empty (h : Best .akil pod nodes n) (hc : c ∈ nodes) (hempty : c.pods = []) :
    n.cpuUsed ≤ c.cpuUsed := by
  refine h.cpuUsed_le hc (fun hscore => ?_)
  have hn : akilScore pod n.pods goMax weights ≤ 100 := by
    unfold akilScore
    split_ifs with hpods
    · exact le_rfl
    · exact max_le (by norm_num) (min_le_left _ _)
  have hc : akilScore pod c.pods goMax weights = 100 := by rw [hempty, akilScore, if_pos rfl]
  rw [Scheduler.score, Scheduler.score, hc, akilPluginWeight] at hscore
  have hleast : c.leastAllocated pod ≤ n.leastAllocated pod := by linarith
  exact Node.leastAllocated_le_iff.mp hleast

/-- Neither shares a node while another is empty. -/
lemma empty (hspreads : scheduler = .defaultK8s ∨ scheduler = .akil)
    (h : Best scheduler pod nodes n) (hc : c ∈ nodes) (hempty : c.pods = []) : n.pods = [] := by
  have hle : n.cpuUsed ≤ c.cpuUsed := by
    rcases hspreads with rfl | rfl
    · exact h.least_cpuUsed hc
    · exact h.cpuUsed_le_of_empty hc hempty
  by_contra hpods
  have hpos := Node.cpuUsed_pos hpods
  rw [Node.cpuUsed_of_empty hempty] at hle
  omega

end Best

/-- No node has a second pod while another is empty. -/
lemma place_alone {scheduler : Scheduler}
    (hspreads : scheduler = .defaultK8s ∨ scheduler = .akil) (arrivals : List WorkloadType)
    (random : ρ → ℚ × ρ) (rng : ρ) (numNodes : ℕ) :
    let result := (place arrivals scheduler random rng numNodes).1
    ∀ n ∈ result.nodes, n.pods = [] → ∀ c ∈ result.nodes, c.pods.length ≤ 1 := by
  intro result n hn hempty c hc
  have hpairs : result.nodes.Pairwise (fun n c =>
      (n.pods = [] → c.pods.length ≤ 1) ∧ (c.pods = [] → n.pods.length ≤ 1)) := by
    refine place_pairwise (fun _ _ h => h.symm) (fun b c hb hc => ?_) ?_ arrivals random rng
      numNodes
    · simp [hb, hc]
    · intro pod nodes n hbest c hc _
      refine ⟨fun h => absurd h (by simp [Node.append]), fun hempty => ?_⟩
      simp [Node.append, hbest.empty hspreads hc hempty]
  rcases eq_or_ne n c with rfl | hne
  · simp [hempty]
  · have hsymm : Std.Symm (fun n c : Node =>
        (n.pods = [] → c.pods.length ≤ 1) ∧ (c.pods = [] → n.pods.length ≤ 1)) :=
      ⟨fun _ _ h => h.symm⟩
    exact (hpairs.forall hn hc hne).1 hempty

/-- No more pods than nodes are one each. -/
lemma place_alone_of_few {scheduler : Scheduler}
    (hspreads : scheduler = .defaultK8s ∨ scheduler = .akil) {arrivals : List WorkloadType}
    {numNodes : ℕ} (hfew : arrivals.length ≤ numNodes) (random : ρ → ℚ × ρ) (rng : ρ) :
    ∀ n ∈ (place arrivals scheduler random rng numNodes).1.nodes, n.pods.length ≤ 1 := by
  have hcount := (place_accounted arrivals scheduler random rng numNodes).perm.length_eq
  rw [List.length_append, List.length_flatMap] at hcount
  refine le_one_of_sum_le (fun n hn hempty => ?_) ?_
  · exact place_alone hspreads arrivals random rng numNodes n hn (List.length_eq_zero_iff.mp hempty)
  · rw [length_place_nodes]
    omega

/-- **The two schedulers that spread.**  In every run the stock scheduler keeps the CPU in use on
any two nodes within one large pod of each other.  It and AKIL put a second pod on a node only when
no node is empty; so when no more pods arrive than there are nodes, all are placed, each on a node
of its own. -/
theorem spreaders_spread (arrivals : List WorkloadType) (scheduler : Scheduler)
    (hspreads : scheduler = .defaultK8s ∨ scheduler = .akil) (random : ρ → ℚ × ρ) (rng : ρ)
    (numNodes : ℕ) :
    let result := (place arrivals scheduler random rng numNodes).1
    result.nodes.length = numNodes ∧
      (scheduler = .defaultK8s → result.nodes.Pairwise (fun n c =>
        n.cpuUsed ≤ c.cpuUsed + 200 ∧ c.cpuUsed ≤ n.cpuUsed + 200)) ∧
      (∀ n ∈ result.nodes, n.pods = [] → ∀ c ∈ result.nodes, c.pods.length ≤ 1) ∧
      (arrivals.length ≤ numNodes →
        (∀ n ∈ result.nodes, n.pods.length ≤ 1) ∧
          (result.nodes.flatMap Node.pods).Perm arrivals ∧ result.unplaced = 0) := by
  intro result
  refine ⟨length_place_nodes arrivals scheduler random rng numNodes, ?_,
    place_alone hspreads arrivals random rng numNodes, fun hfew => ?_⟩
  · rintro rfl
    refine place_pairwise (fun _ _ h => h.symm) (fun b c hb hc => ?_) ?_ arrivals random rng
      numNodes
    · rw [Node.cpuUsed_of_empty hb, Node.cpuUsed_of_empty hc]
      omega
    · intro pod nodes n hbest c hc hnc
      have hle := hbest.least_cpuUsed hc
      have hpod := (cpu_le pod).2
      rw [Node.cpuUsed_append]
      omega
  · have hbooks := place_accounted arrivals scheduler random rng numNodes
    rw [turnedAway_eq_nil (by omega)] at hbooks
    have hperm := hbooks.perm
    rw [List.append_nil] at hperm
    exact ⟨place_alone_of_few hspreads hfew random rng, hperm, hbooks.unplaced_eq⟩

/-- Three pods of AKIL on three nodes. -/
theorem spreaders_spread_three :
    let arrivals : List WorkloadType := [.cacheStress, .baselineWeb, .batchWorker]
    let result := (place arrivals .akil (fun k : ℕ => (k, k + 1)) 0 3).1
    result.nodes.length = 3 ∧ (∀ n ∈ result.nodes, n.pods.length ≤ 1) ∧
      (result.nodes.flatMap Node.pods).Perm arrivals ∧ result.unplaced = 0 := by
  intro arrivals result
  obtain ⟨hlength, -, -, hfew⟩ :=
    spreaders_spread arrivals .akil (.inr rfl) (fun k : ℕ => (k, k + 1)) 0 3
  exact ⟨hlength, hfew (by decide)⟩

/-! ## Packing -/

/-- The load below which no two nodes in use are left, for the schedulers that pack. -/
def Scheduler.packed : Scheduler → ℕ
  | .binPacking => 1900
  | .trimaranTlp => 1600
  | _ => 0

lemma utilisation_le_iff {b c : Node} : b.utilisation ≤ c.utilisation ↔ b.cpuUsed ≤ c.cpuUsed := by
  rw [Node.utilisation, Node.utilisation, nodeCpu, div_le_div_iff_of_pos_right (by norm_num),
    Nat.cast_le]

/-- Up to the default target `tlp_score` is a tenth of the load in millicores, and above it the
load has to come down from two hundred tenths. -/
lemma tlpScore_half (pod : WorkloadType) (n : Node) :
    tlpScore pod (1 / 2) n
      = if n.cpuUsed + (workloads pod).cpu ≤ 1000
        then ((n.cpuUsed + (workloads pod).cpu : ℕ) : ℚ) / 10
        else max 0 (200 - ((n.cpuUsed + (workloads pod).cpu : ℕ) : ℚ) / 10) := by
  have hiff : ((n.cpuUsed : ℚ) + (workloads pod).cpu) / nodeCpu ≤ 1 / 2
      ↔ n.cpuUsed + (workloads pod).cpu ≤ 1000 := by
    rw [nodeCpu, ← Nat.cast_add, div_le_iff₀ (by norm_num), ← Nat.cast_le (α := ℚ)]
    norm_num
  unfold tlpScore
  simp only [hiff]
  split_ifs with h
  · rw [nodeCpu, Nat.cast_add]
    ring
  · rw [nodeCpu, Nat.cast_add]
    congr 1
    ring

namespace Best

variable {pod : WorkloadType} {nodes : List Node} {n c : Node}

/-- Bin packing opens a node when the pod fits on no node in use. -/
lemma packed_of_binPacking (h : Best .binPacking pod nodes n) (hn : n.pods = []) (hc : c ∈ nodes)
    (hused : c.pods ≠ []) : 1900 ≤ c.cpuUsed := by
  have hpos := Node.cpuUsed_pos hused
  refine Node.le_cpuUsed_of_not_fits (fun (hfits : c.fits pod = true) => ?_)
  have hle := utilisation_le_iff.mp (h.max c hc hfits)
  rw [Node.cpuUsed_of_empty hn] at hle
  omega

/-- TLP opens a node when the pod would leave every node in use as far above the target as the
empty one is left below it. -/
lemma packed_of_tlp (h : Best .trimaranTlp pod nodes n) (hn : n.pods = []) (hc : c ∈ nodes)
    (hused : c.pods ≠ []) : 1600 ≤ c.cpuUsed := by
  have hpos := Node.cpuUsed_pos hused
  obtain ⟨-, hpod⟩ := cpu_le pod
  by_cases hfits : c.fits pod = true
  · have hle := h.max c hc hfits
    rw [Scheduler.score, Scheduler.score, tlpScore_half, tlpScore_half, Node.cpuUsed_of_empty hn,
      zero_add, if_pos (by omega : (workloads pod).cpu ≤ 1000)] at hle
    split_ifs at hle with hbelow
    · have hle : c.cpuUsed + (workloads pod).cpu ≤ (workloads pod).cpu := by
        rw [← Nat.cast_le (α := ℚ)]
        linarith
      omega
    · have hle : 2000 ≤ c.cpuUsed + (workloads pod).cpu + (workloads pod).cpu := by
        have hright := (le_max_right _ _).trans hle
        rw [Nat.cast_add] at hright
        rw [← Nat.cast_le (α := ℚ), Nat.cast_add, Nat.cast_add]
        push_cast
        linarith
      omega
  · have hfull := Node.le_cpuUsed_of_not_fits hfits
    omega

end Best

/-- **The two schedulers that pack.**  In every run of bin packing, of any two nodes in use at
least one has less CPU free than a pod can ask for; in every run of TLP, although its target is one
half, one is filled to four fifths.  So a cluster asked for `d` millicores has at most
`1 + d / 1900` and `1 + d / 1600` nodes in use. -/
theorem packers_pack (arrivals : List WorkloadType) (scheduler : Scheduler) (random : ρ → ℚ × ρ)
    (rng : ρ) (numNodes : ℕ) :
    let result := (place arrivals scheduler random rng numNodes).1
    let used := result.nodes.filter (fun n => n.pods ≠ [])
    used.Pairwise (fun n c => scheduler.packed ≤ n.cpuUsed ∨ scheduler.packed ≤ c.cpuUsed) ∧
      (used.length - 1) * scheduler.packed ≤ cpuRequested arrivals := by
  intro result used
  have hopens : ∀ pod nodes n, Best scheduler pod nodes n → n.pods = [] →
      ∀ c ∈ nodes, c.pods ≠ [] → scheduler.packed ≤ c.cpuUsed := by
    intro pod nodes n hbest hn c hc hused
    cases scheduler with
    | defaultK8s => exact Nat.zero_le _
    | binPacking => exact hbest.packed_of_binPacking hn hc hused
    | trimaranTlp => exact hbest.packed_of_tlp hn hc hused
    | akil => exact Nat.zero_le _
  have hpairs : result.nodes.Pairwise (fun n c => n.pods ≠ [] → c.pods ≠ [] →
      scheduler.packed ≤ n.cpuUsed ∨ scheduler.packed ≤ c.cpuUsed) := by
    refine place_pairwise (fun _ _ h hc hb => (h hb hc).symm) (fun b _ hb _ h => absurd hb h) ?_
      arrivals random rng numNodes
    intro pod nodes n hbest c hc hnc _ hused
    by_cases hn : n.pods = []
    · exact .inr (hopens pod nodes n hbest hn c hc hused)
    · refine (hnc hn hused).imp_left (fun hle => ?_)
      rw [Node.cpuUsed_append]
      omega
  have hused : used.Pairwise (fun n c =>
      scheduler.packed ≤ n.cpuUsed ∨ scheduler.packed ≤ c.cpuUsed) := by
    rw [List.pairwise_filter]
    simpa using hpairs
  refine ⟨hused, (sum_of_pairwise_or hused).trans ?_⟩
  have hplaced : result.cpuPlaced ≤ cpuRequested arrivals :=
    (cpuPlaced_add arrivals scheduler random rng numNodes).le.trans' (Nat.le_add_right _ _)
  have hsum : (used.map Node.cpuUsed).sum ≤ result.cpuPlaced :=
    (List.filter_sublist.map _).sum_le_sum (fun _ _ => Nat.zero_le _)
  exact hsum.trans hplaced

/-- Fourteen web pods under TLP stay on one node, past its target. -/
example :
    let result := (place (List.replicate 14 .baselineWeb) .trimaranTlp
      (fun k : ℕ => (k, k + 1)) 0 2).1
    result.nodes.map Node.cpuUsed = [0, 1400] := by
  decide +kernel

end Akil.Evaluation
