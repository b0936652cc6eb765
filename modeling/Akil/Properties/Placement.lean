import Akil.Construction.Evaluation.Placement
import Akil.Framework.Interleaving

/-!
# The placement experiment keeps its books

Whatever the score, a picker answers with a node the pod fits on, or with nothing if there is none
(`Picks`); the score and the random draws only decide which of these nodes it is.  So the four
schedulers agree on what matters here, and one step of `place` either appends the pod to a node
that has room for it or counts it as unplaced because none has.  `Accounted` is what these steps
keep: the limits of every node, and the arrivals as the pods placed with those turned away
(`place_accounts`).
-/

namespace Akil.Evaluation

variable {ρ : Type*}

/-! ## What a picker can answer -/

/-- A position of a node the pod fits on, or nothing if it fits on none. -/
inductive Picks (pod : WorkloadType) (nodes : List Node) : Option ℕ → Prop
  | nothing (hfull : ∀ n ∈ nodes, n.fits pod = false) : Picks pod nodes none
  | node {i : ℕ} {n : Node} (hi : nodes[i]? = some n) (hfits : n.fits pod = true) :
      Picks pod nodes (some i)

/-- Every feasible node gets one key. -/
lemma map_fst_drawKeys (random : ρ → ℚ × ρ) (score : Node → ℚ) (ns : List (Node × ℕ)) (rng : ρ) :
    (drawKeys random score ns rng).1.map Prod.fst = ns.map Prod.snd := by
  induction ns generalizing rng with
  | nil => rfl
  | cons n ns ih => exact congrArg (n.2 :: ·) (ih _)

lemma mem_feasible {pod : WorkloadType} {nodes : List Node} {n : Node} {i : ℕ} :
    (n, i) ∈ feasible pod nodes ↔ nodes[i]? = some n ∧ n.fits pod = true := by
  rw [feasible, List.mem_filter, List.mem_zipIdx_iff_getElem?]

/-- **Any score.**  A picker answers with a node the pod fits on whenever there is one. -/
lemma pickBy_picks (score : Node → ℚ) (pod : WorkloadType) (nodes : List Node)
    (random : ρ → ℚ × ρ) (rng : ρ) : Picks pod nodes (pickBy score pod nodes random rng).1 := by
  have hkeys := map_fst_drawKeys random score (feasible pod nodes) rng
  rw [pickBy]
  dsimp only
  cases hmax : (drawKeys random score (feasible pod nodes) rng).1.argmax Prod.snd with
  | none =>
      rw [List.argmax_eq_none.mp hmax, List.map_nil, eq_comm, List.map_eq_nil_iff] at hkeys
      refine Picks.nothing (fun n hn => ?_)
      obtain ⟨i, hi⟩ := List.getElem?_of_mem hn
      by_contra hfits
      have hmem : (n, i) ∈ feasible pod nodes := mem_feasible.mpr ⟨hi, by simpa using hfits⟩
      rw [hkeys] at hmem
      cases hmem
  | some k =>
      have hmem : k.1 ∈ (feasible pod nodes).map Prod.snd := by
        rw [← hkeys]
        exact List.mem_map_of_mem (List.argmax_mem hmax)
      obtain ⟨⟨n, i⟩, hn, hi⟩ := List.mem_map.mp hmem
      obtain ⟨hget, hfits⟩ := mem_feasible.mp hn
      obtain rfl : i = k.1 := hi
      exact Picks.node hget hfits

/-- **The four schedulers.** -/
lemma picker_picks (scheduler : Scheduler) (pod : WorkloadType) (nodes : List Node)
    (random : ρ → ℚ × ρ) (rng : ρ) : Picks pod nodes (picker scheduler pod nodes random rng).1 := by
  cases scheduler <;> exact pickBy_picks _ pod nodes random rng

/-! ## The books -/

/-- There is room for one more pod: with it, the requests stay within the limits. -/
def Node.HasRoom (pod : WorkloadType) (n : Node) : Prop :=
  ((n.pods ++ [pod]).map (fun p => (workloads p).cpu)).sum ≤ nodeCpu ∧
    ((n.pods ++ [pod]).map (fun p => (workloads p).mem)).sum ≤ nodeMem

instance (pod : WorkloadType) (n : Node) : Decidable (n.HasRoom pod) :=
  inferInstanceAs (Decidable (_ ∧ _))

/-- The arrivals that no node had room for when they arrived. -/
def turnedAway (arrivals : List WorkloadType) (scheduler : Scheduler) (random : ρ → ℚ × ρ) (rng : ρ)
    (numNodes : ℕ) : List WorkloadType :=
  (arrivals.zipIdx.filter (fun a : WorkloadType × ℕ =>
    ∀ n ∈ (place (arrivals.take a.2) scheduler random rng numNodes).1.nodes,
      ¬ n.HasRoom a.1)).map Prod.fst

/-- **The books of a placement.**  Every node is within its limits, and the pods placed and those
turned away are together the arrivals. -/
structure Accounted (arrived away : List WorkloadType) (p : Placement) : Prop where
  cpu : ∀ n ∈ p.nodes, n.cpuUsed ≤ nodeCpu
  mem : ∀ n ∈ p.nodes, n.memUsed ≤ nodeMem
  unplaced_eq : p.unplaced = away.length
  perm : (p.nodes.flatMap Node.pods ++ away).Perm arrived

namespace Node

lemma cpuUsed_append (n : Node) (pod : WorkloadType) :
    (n.append pod).cpuUsed = n.cpuUsed + (workloads pod).cpu := by
  simp [cpuUsed, append]

lemma memUsed_append (n : Node) (pod : WorkloadType) :
    (n.append pod).memUsed = n.memUsed + (workloads pod).mem := by
  simp [memUsed, append]

lemma fits_iff {n : Node} {pod : WorkloadType} :
    n.fits pod = true ↔ (n.append pod).cpuUsed ≤ nodeCpu ∧ (n.append pod).memUsed ≤ nodeMem := by
  rw [fits, Bool.and_eq_true, decide_eq_true_iff, decide_eq_true_iff, cpuUsed_append,
    memUsed_append]

/-- The test of the pickers. -/
lemma fits_iff_hasRoom {n : Node} {pod : WorkloadType} : n.fits pod = true ↔ n.HasRoom pod :=
  fits_iff

end Node

/-- What is turned away, by the test of the pickers. -/
lemma turnedAway_eq (arrivals : List WorkloadType) (scheduler : Scheduler) (random : ρ → ℚ × ρ)
    (rng : ρ) (numNodes : ℕ) :
    turnedAway arrivals scheduler random rng numNodes
      = (arrivals.zipIdx.filter (fun a =>
          (place (arrivals.take a.2) scheduler random rng numNodes).1.nodes.all
            (fun n => !n.fits a.1))).map Prod.fst := by
  have htest : ∀ a : WorkloadType × ℕ,
      decide (∀ n ∈ (place (arrivals.take a.2) scheduler random rng numNodes).1.nodes,
          ¬ n.HasRoom a.1)
        = (place (arrivals.take a.2) scheduler random rng numNodes).1.nodes.all
            (fun n => !n.fits a.1) := by
    intro a
    rw [Bool.eq_iff_iff, decide_eq_true_iff, List.all_eq_true]
    simp only [Bool.not_eq_true', Bool.eq_false_iff, ne_eq, Node.fits_iff_hasRoom]
  rw [turnedAway, List.filter_congr (fun a _ => htest a)]

/-- What the loop does to a node that was picked, as an assignment. -/
lemma modify_eq_set_append {nodes : List Node} {i : ℕ} {n : Node} (hi : nodes[i]? = some n)
    (pod : WorkloadType) : nodes.modify i (Node.append pod) = nodes.set i (n.append pod) := by
  have : Inhabited Node := ⟨n⟩
  rw [List.modify_eq_set, hi]
  rfl

namespace Accounted

variable {arrived away : List WorkloadType} {p : Placement}

/-- The empty nodes before the first arrival. -/
lemma new (nodes : List Node) (hempty : ∀ n ∈ nodes, n.pods = []) :
    Accounted [] [] ⟨nodes, 0⟩ where
  cpu n hn := by simp [Node.cpuUsed, hempty n hn]
  mem n hn := by simp [Node.memUsed, hempty n hn]
  unplaced_eq := rfl
  perm := by
    rw [List.append_nil, List.flatMap_eq_nil_iff.mpr hempty]

/-- A pod is turned away. -/
lemma turnAway (h : Accounted arrived away p) (pod : WorkloadType) :
    Accounted (arrived ++ [pod]) (away ++ [pod]) ⟨p.nodes, p.unplaced + 1⟩ where
  cpu := h.cpu
  mem := h.mem
  unplaced_eq := by rw [List.length_append, List.length_singleton, h.unplaced_eq]
  perm := by
    rw [← List.append_assoc]
    exact h.perm.append_right [pod]

/-- A pod is appended to a node it fits on. -/
lemma put (h : Accounted arrived away p) {pod : WorkloadType} {i : ℕ} {n : Node}
    (hi : p.nodes[i]? = some n) (hfits : n.fits pod = true) :
    Accounted (arrived ++ [pod]) away ⟨p.nodes.modify i (Node.append pod), p.unplaced⟩ := by
  obtain ⟨hcpu, hmem⟩ := Node.fits_iff.mp hfits
  rw [modify_eq_set_append hi]
  refine ⟨fun q hq => ?_, fun q hq => ?_, h.unplaced_eq, ?_⟩
  · rcases List.mem_or_eq_of_mem_set hq with hq | rfl
    · exact h.cpu q hq
    · exact hcpu
  · rcases List.mem_or_eq_of_mem_set hq with hq | rfl
    · exact h.mem q hq
    · exact hmem
  · have hset : ((p.nodes.set i (n.append pod)).flatMap Node.pods).Perm
        ([pod] ++ p.nodes.flatMap Node.pods) := by
      have hexchange := System.flatMap_set_perm Node.pods hi (n.append pod)
      rw [Node.append, List.append_assoc] at hexchange
      exact (List.perm_append_left_iff n.pods).mp hexchange
    have harrived := (hset.append_right away).trans (h.perm.append_left [pod])
    exact harrived.trans List.perm_append_comm

/-- **One arrival.** -/
lemma placePod (h : Accounted arrived away p) (scheduler : Scheduler) (random : ρ → ℚ × ρ)
    (rng : ρ) (pod : WorkloadType) :
    Accounted (arrived ++ [pod])
      (away ++ if p.nodes.all (fun n => !n.fits pod) then [pod] else [])
      (Evaluation.placePod scheduler random (p, rng) pod).1 := by
  have hpicks := picker_picks scheduler pod p.nodes random rng
  rw [Evaluation.placePod]
  dsimp only
  cases hpick : picker scheduler pod p.nodes random rng with
  | mk choice rng' =>
      rw [hpick] at hpicks
      cases hpicks with
      | nothing hfull =>
          have hall : p.nodes.all (fun n => !n.fits pod) = true := by simpa using hfull
          rw [hall]
          exact h.turnAway pod
      | node hi hfits =>
          have hall : p.nodes.all (fun n => !n.fits pod) = false := by
            simpa using ⟨_, List.mem_of_getElem? hi, hfits⟩
          rw [hall, if_neg Bool.false_ne_true, List.append_nil]
          exact h.put hi hfits

end Accounted

/-! ## Whole experiments -/

lemma place_concat (arrivals : List WorkloadType) (pod : WorkloadType) (scheduler : Scheduler)
    (random : ρ → ℚ × ρ) (rng : ρ) (numNodes : ℕ) :
    place (arrivals ++ [pod]) scheduler random rng numNodes
      = placePod scheduler random (place arrivals scheduler random rng numNodes) pod :=
  List.foldl_concat ..

/-- Whether a pod is turned away does not depend on later arrivals. -/
lemma turnedAway_concat (arrivals : List WorkloadType) (pod : WorkloadType) (scheduler : Scheduler)
    (random : ρ → ℚ × ρ) (rng : ρ) (numNodes : ℕ) :
    turnedAway (arrivals ++ [pod]) scheduler random rng numNodes
      = turnedAway arrivals scheduler random rng numNodes
        ++ if (place arrivals scheduler random rng numNodes).1.nodes.all (fun n => !n.fits pod)
          then [pod] else [] := by
  have hearlier : ∀ a ∈ arrivals.zipIdx, (arrivals ++ [pod]).take a.2 = arrivals.take a.2 := by
    intro a ha
    have hlt := (List.getElem?_eq_some_iff.mp (List.mem_zipIdx_iff_getElem?.mp ha)).1
    exact List.take_append_of_le_length hlt.le
  have hlast : (arrivals ++ [pod]).take arrivals.length = arrivals := by simp
  rw [turnedAway_eq, turnedAway_eq, List.zipIdx_append, List.filter_append, List.map_append]
  congr 1
  · rw [List.filter_congr (fun a ha => by rw [hearlier a ha])]
  · rw [zero_add, List.zipIdx_singleton, List.filter_singleton, hlast]
    split_ifs with hall
    · rw [hall]
      rfl
    · rw [Bool.not_eq_true] at hall
      rw [hall]
      rfl

/-- The books at the end of a run. -/
lemma place_accounted (arrivals : List WorkloadType) (scheduler : Scheduler) (random : ρ → ℚ × ρ)
    (rng : ρ) (numNodes : ℕ) :
    Accounted arrivals (turnedAway arrivals scheduler random rng numNodes)
      (place arrivals scheduler random rng numNodes).1 := by
  induction arrivals using List.reverseRecOn with
  | nil => exact Accounted.new _ (by simp)
  | append_singleton arrivals pod ih =>
      rw [turnedAway_concat, place_concat]
      exact ih.placePod scheduler random _ pod

lemma length_placePod_nodes (scheduler : Scheduler) (random : ρ → ℚ × ρ) (state : Placement × ρ)
    (pod : WorkloadType) :
    (placePod scheduler random state pod).1.nodes.length = state.1.nodes.length := by
  unfold placePod
  split
  · rfl
  · exact List.length_modify ..

lemma length_place_nodes (arrivals : List WorkloadType) (scheduler : Scheduler)
    (random : ρ → ℚ × ρ) (rng : ρ) (numNodes : ℕ) :
    (place arrivals scheduler random rng numNodes).1.nodes.length = numNodes := by
  induction arrivals using List.reverseRecOn with
  | nil => simp [place]
  | append_singleton arrivals pod ih => rw [place_concat, length_placePod_nodes, ih]

/-- **The placement simulation never overcommits or loses a pod.**  Whatever the arrivals, the
number of nodes, the random source and the scheduler: there are that many nodes, and the requests
on every node sum to at most its CPU and memory; the pods placed, with the pods that no node had
room for when they arrived, are the arrivals, each as often as it came; and `unplaced` counts the
latter. -/
theorem place_accounts (arrivals : List WorkloadType) (scheduler : Scheduler) (random : ρ → ℚ × ρ)
    (rng : ρ) (numNodes : ℕ) :
    let result := (place arrivals scheduler random rng numNodes).1
    let away := turnedAway arrivals scheduler random rng numNodes
    result.nodes.length = numNodes ∧
      (∀ n ∈ result.nodes, (n.pods.map (fun p => (workloads p).cpu)).sum ≤ nodeCpu ∧
        (n.pods.map (fun p => (workloads p).mem)).sum ≤ nodeMem) ∧
      (result.nodes.flatMap Node.pods ++ away).Perm arrivals ∧
      result.unplaced = away.length := by
  intro result away
  have hbooks := place_accounted arrivals scheduler random rng numNodes
  exact ⟨length_place_nodes arrivals scheduler random rng numNodes,
    fun n hn => ⟨hbooks.cpu n hn, hbooks.mem n hn⟩, hbooks.perm, hbooks.unplaced_eq⟩

/-- A node has room for ten batch workers; of eleven, on one node, the last is turned away. -/
theorem place_accounts_full :
    let result := (place (List.replicate 11 .batchWorker) .akil (fun k : ℕ => (k, k + 1)) 0 1).1
    result.nodes.length = 1 ∧
      (∀ n ∈ result.nodes, (n.pods.map (fun p => (workloads p).cpu)).sum ≤ nodeCpu ∧
        (n.pods.map (fun p => (workloads p).mem)).sum ≤ nodeMem) ∧
      (result.nodes.flatMap Node.pods).length = 10 ∧ result.unplaced = 1 := by
  intro result
  obtain ⟨hlength, hlimits, hperm, hunplaced⟩ :=
    place_accounts (List.replicate 11 .batchWorker) .akil (fun k : ℕ => (k, k + 1)) 0 1
  have haway : turnedAway (List.replicate 11 .batchWorker) .akil (fun k : ℕ => (k, k + 1)) 0 1
      = [.batchWorker] := by decide +kernel
  rw [haway] at hperm hunplaced
  have hplaced := hperm.length_eq
  rw [List.length_append, List.length_singleton, List.length_replicate] at hplaced
  exact ⟨hlength, hlimits, Nat.succ_injective hplaced, hunplaced⟩

end Akil.Evaluation
