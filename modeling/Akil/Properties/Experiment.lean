import Akil.Construction.Evaluation.Experiment
import Akil.Properties.PlacementPolicy

/-!
# What the main experiment compares

The experiment's figures are averages over the web pods that it finds on the nodes.  They compare
schedulers only if each of them is averaged over the same pods, and the oracle bounds them only if
no neighbour can improve a pod's figures.  Both are properties of whole runs, through which the
random source is threaded: the ties a scheduler breaks depend on the latencies drawn before.

`Measured` says what a run has appended to the lists and added to the counters in terms of the
nodes it has been through; it composes, so that one lemma for each loop is enough.
-/

namespace Akil.Evaluation

variable {ρ : Type*}

/-! ## The condition of a web pod -/

/-- One neighbour: what is left of the hits, and the load on the bus. -/
def shareWith (condition : ℚ × ℚ) (nb : WorkloadType) : ℚ × ℚ :=
  (condition.1 * (1 - (interference nb).llc), condition.2 + (interference nb).bus)

lemma foldl_shareWith (pods : List WorkloadType) {condition : ℚ × ℚ} (hhit : 0 < condition.1)
    (hbus : 1 ≤ condition.2) :
    0 < (pods.foldl shareWith condition).1 ∧
      (pods.foldl shareWith condition).1 ≤ condition.1 ∧
      1 ≤ (pods.foldl shareWith condition).2 := by
  induction pods generalizing condition with
  | nil => exact ⟨hhit, le_rfl, hbus⟩
  | cons pod pods ih =>
      have hpod : 0 < 1 - (interference pod).llc ∧ 1 - (interference pod).llc ≤ 1
          ∧ 0 ≤ (interference pod).bus := by
        cases pod <;> norm_num [interference]
      have hhit' : 0 < (shareWith condition pod).1 := mul_pos hhit hpod.1
      have hbus' : 1 ≤ (shareWith condition pod).2 :=
        hbus.trans (le_add_of_nonneg_right hpod.2.2)
      obtain ⟨hpos, hle, hbus''⟩ := ih hhit' hbus'
      exact ⟨hpos, hle.trans (mul_le_of_le_one_right hhit.le hpod.2.1), hbus''⟩

lemma webPodCondition_eq (n : Node) :
    webPodCondition n
      = (1 - ((n.pods.erase .baselineWeb).foldl shareWith (1 - isolatedLlc, 1)).1,
        ((n.pods.erase .baselineWeb).foldl shareWith (1 - isolatedLlc, 1)).2) :=
  rfl

/-- No neighbour improves a web pod's miss rate, and no number of them spoils it altogether. -/
lemma webPodCondition_bounds (n : Node) :
    isolatedLlc ≤ (webPodCondition n).1 ∧ (webPodCondition n).1 < 1 := by
  have hisolated : 0 < ((1 - isolatedLlc, 1) : ℚ × ℚ).1 := by norm_num [isolatedLlc]
  obtain ⟨hpos, hle, -⟩ := foldl_shareWith (n.pods.erase .baselineWeb) hisolated le_rfl
  rw [webPodCondition_eq]
  constructor <;> dsimp only at * <;> linarith

/-- The context switches of a node. -/
def Node.ctxSwitches (n : Node) : ℚ := (n.pods.map (fun p => (workloads p).cs)).sum

lemma Node.le_ctxSwitches {n : Node} (h : .baselineWeb ∈ n.pods) :
    (workloads .baselineWeb).cs ≤ n.ctxSwitches :=
  List.single_le_sum (by
    intro cs hcs
    obtain ⟨pod, -, rfl⟩ := List.mem_map.mp hcs
    cases pod <;> norm_num [workloads]) _ (List.mem_map_of_mem h)

/-! ## What a run measures -/

/-- The web pods on a node. -/
def Node.webs (n : Node) : ℕ := n.pods.count .baselineWeb

/-- The web pods on a node that share it with a cache-stress pod. -/
def Node.colocated (n : Node) : ℕ := if .cacheStress ∈ n.pods then n.webs else 0

/-- From `r` to `r'` the run has been through these nodes, and counted so many pods as unplaced and
as arrived. -/
structure Measured (e : Experiment ρ) (nodes : List Node) (unplaced pods : ℕ) (r r' : SeedRun ρ) :
    Prop where
  llcs : r'.llcs = r.llcs ++ nodes.flatMap (fun n => List.replicate n.webs (webPodCondition n).1)
  csLoad : r'.csLoad = r.csLoad ++ nodes.flatMap (fun n => List.replicate n.webs n.ctxSwitches)
  lat : r'.lat.length = r.lat.length + (nodes.map Node.webs).sum * e.samplesPerWebPod
  web : r'.totals.web = r.totals.web + (nodes.map Node.webs).sum
  coloc : r'.totals.coloc = r.totals.coloc + (nodes.map Node.colocated).sum
  unplaced : r'.totals.unplaced = r.totals.unplaced + unplaced
  pods : r'.totals.pods = r.totals.pods + pods

namespace Measured

variable {e : Experiment ρ} {nodes nodes' : List Node} {u u' p p' : ℕ} {r r' r'' : SeedRun ρ}

lemma refl (e : Experiment ρ) (r : SeedRun ρ) : Measured e [] 0 0 r r := by
  constructor <;> simp

lemma trans (h : Measured e nodes u p r r') (h' : Measured e nodes' u' p' r' r'') :
    Measured e (nodes ++ nodes') (u + u') (p + p') r r'' where
  llcs := by rw [h'.llcs, h.llcs, List.flatMap_append, List.append_assoc]
  csLoad := by rw [h'.csLoad, h.csLoad, List.flatMap_append, List.append_assoc]
  lat := by rw [h'.lat, h.lat, List.map_append, List.sum_append, Nat.add_mul, Nat.add_assoc]
  web := by rw [h'.web, h.web, List.map_append, List.sum_append, Nat.add_assoc]
  coloc := by rw [h'.coloc, h.coloc, List.map_append, List.sum_append, Nat.add_assoc]
  unplaced := by rw [h'.unplaced, h.unplaced, Nat.add_assoc]
  pods := by rw [h'.pods, h.pods, Nat.add_assoc]

end Measured

namespace Experiment

variable (e : Experiment ρ)

/-- The innermost loop draws its samples and leaves the rest alone. -/
lemma sample_spec (llc bus : ℚ) (k : ℕ) (r : SeedRun ρ) :
    (e.sample llc bus k r).lat.length = r.lat.length + k ∧
      (e.sample llc bus k r).llcs = r.llcs ∧ (e.sample llc bus k r).csLoad = r.csLoad ∧
      (e.sample llc bus k r).totals = r.totals := by
  induction k generalizing r with
  | zero => exact ⟨rfl, rfl, rfl, rfl⟩
  | succ k ih =>
      obtain ⟨hlat, hllcs, hcs, htotals⟩ := ih
        { r with rng := (e.sampleLatency r.rng llc bus).2
                 lat := r.lat ++ [(e.sampleLatency r.rng llc bus).1] }
      refine ⟨hlat.trans ?_, hllcs, hcs, htotals⟩
      rw [List.length_append, List.length_singleton]
      omega

lemma measureWebs_spec (n : Node) (webs : ℕ) (r : SeedRun ρ) :
    let r' := e.measureWebs n webs r
    r'.lat.length = r.lat.length + webs * e.samplesPerWebPod ∧
      r'.llcs = r.llcs ++ List.replicate webs (webPodCondition n).1 ∧
      r'.csLoad = r.csLoad ++ List.replicate webs n.ctxSwitches ∧ r'.totals = r.totals := by
  induction webs generalizing r with
  | zero => simp [measureWebs]
  | succ webs ih =>
      intro r'
      obtain ⟨hlat, hllcs, hcs, htotals⟩ := ih (e.sample (webPodCondition n).1 (webPodCondition n).2
        e.samplesPerWebPod { r with
          llcs := r.llcs ++ [(webPodCondition n).1]
          csLoad := r.csLoad ++ [n.ctxSwitches] })
      obtain ⟨hlat', hllcs', hcs', htotals'⟩ := e.sample_spec (webPodCondition n).1
        (webPodCondition n).2 e.samplesPerWebPod { r with
          llcs := r.llcs ++ [(webPodCondition n).1]
          csLoad := r.csLoad ++ [n.ctxSwitches] }
      refine ⟨hlat.trans ?_, hllcs.trans ?_, hcs.trans ?_, htotals.trans htotals'⟩
      · rw [hlat', Nat.add_mul, Nat.one_mul, Nat.add_assoc, Nat.add_comm e.samplesPerWebPod]
      · rw [hllcs', List.replicate_succ, List.append_assoc, List.singleton_append]
      · rw [hcs', List.replicate_succ, List.append_assoc, List.singleton_append]

lemma measureNode_eq (n : Node) (r : SeedRun ρ) :
    e.measureNode r n = e.measureWebs n n.webs { r with
      totals := { r.totals with
        web := r.totals.web + n.webs
        coloc := r.totals.coloc + n.colocated } } := by
  rw [measureNode, Node.colocated]
  split_ifs <;> rfl

lemma measureNode_measured (n : Node) (r : SeedRun ρ) :
    Measured e [n] 0 0 r (e.measureNode r n) := by
  rw [measureNode_eq]
  obtain ⟨hlat, hllcs, hcs, htotals⟩ := e.measureWebs_spec n n.webs { r with
    totals := { r.totals with
      web := r.totals.web + n.webs
      coloc := r.totals.coloc + n.colocated } }
  constructor
  · simpa using hllcs
  · simpa using hcs
  · simpa using hlat
  all_goals simp [htotals]

lemma foldl_measureNode (nodes : List Node) (r : SeedRun ρ) :
    Measured e nodes 0 0 r (nodes.foldl e.measureNode r) := by
  induction nodes generalizing r with
  | nil => exact Measured.refl e r
  | cons n nodes ih => exact (e.measureNode_measured n r).trans (ih _)

/-- **One epoch.**  The run goes through the nodes of a placement, whose web pods are those that
arrived less those turned away. -/
lemma runEpoch_measured (scheduler : Scheduler) (arrivals : List WorkloadType) (r : SeedRun ρ) :
    ∃ (nodes : List Node) (away : List WorkloadType),
      nodes = (place arrivals scheduler e.random r.rng e.numNodes).1.nodes ∧
        Measured e nodes away.length arrivals.length r (e.runEpoch scheduler r arrivals) ∧
        (nodes.map Node.webs).sum + away.count .baselineWeb = arrivals.count .baselineWeb ∧
        (arrivals.length * 200 ≤ e.numNodes * 1900 → away = []) := by
  have hbooks := place_accounted arrivals scheduler e.random r.rng e.numNodes
  refine ⟨_, turnedAway arrivals scheduler e.random r.rng e.numNodes, rfl, ?_, ?_, ?_⟩
  · have hnodes := e.foldl_measureNode (place arrivals scheduler e.random r.rng e.numNodes).1.nodes
      { r with
        rng := (place arrivals scheduler e.random r.rng e.numNodes).2
        totals := { r.totals with
          unplaced := r.totals.unplaced
            + (place arrivals scheduler e.random r.rng e.numNodes).1.unplaced
          pods := r.totals.pods + arrivals.length } }
    exact ⟨hnodes.llcs, hnodes.csLoad, hnodes.lat, hnodes.web, hnodes.coloc,
      by rw [← hbooks.unplaced_eq]; exact hnodes.unplaced, hnodes.pods⟩
  · have hcount := hbooks.perm.count_eq .baselineWeb
    rwa [List.count_append, List.count_flatMap] at hcount
  · exact fun hfew => turnedAway_eq_nil hfew scheduler e.random r.rng

/-- **One seed.**  What holds of every node of a placement of one of its epochs holds of the nodes
the run has been through. -/
lemma foldl_runEpoch (scheduler : Scheduler) {P : Node → Prop} (epochs : List (List WorkloadType))
    (hP : ∀ arrivals ∈ epochs, ∀ rng,
      ∀ n ∈ (place arrivals scheduler e.random rng e.numNodes).1.nodes, P n) (r : SeedRun ρ) :
    ∃ (nodes : List Node) (away : List WorkloadType),
      Measured e nodes away.length (epochs.map List.length).sum r
          (epochs.foldl (e.runEpoch scheduler) r) ∧
        (nodes.map Node.webs).sum + away.count .baselineWeb = nWeb epochs ∧
        ((∀ arrivals ∈ epochs, arrivals.length * 200 ≤ e.numNodes * 1900) → away = []) ∧
        ∀ n ∈ nodes, P n := by
  induction epochs generalizing r with
  | nil => exact ⟨[], [], Measured.refl e r, rfl, fun _ => rfl, by simp⟩
  | cons arrivals epochs ih =>
      rw [List.forall_mem_cons] at hP
      obtain ⟨placed, away, hplaced, hepoch, hwebs, hroom⟩ :=
        e.runEpoch_measured scheduler arrivals r
      obtain ⟨nodes, away', hrest, hwebs', hroom', hnodes⟩ := ih hP.2
        (e.runEpoch scheduler r arrivals)
      refine ⟨placed ++ nodes, away ++ away', ?_, ?_, fun h => ?_, ?_⟩
      · rw [List.length_append]
        exact hepoch.trans hrest
      · rw [nWeb] at hwebs' ⊢
        rw [List.map_append, List.sum_append, List.count_append, List.map_cons, List.sum_cons]
        omega
      · rw [List.forall_mem_cons] at h
        rw [hroom h.1, hroom' h.2, List.append_nil]
      · exact List.forall_mem_append.mpr ⟨hplaced ▸ hP.1 r.rng, hnodes⟩

lemma runSeed_counts (scheduler : Scheduler) {seed : ρ × List (List WorkloadType)}
    (hroom : ∀ arrivals ∈ seed.2, arrivals.length * 200 ≤ e.numNodes * 1900)
    (totals : ColocTotals) :
    let r := e.runSeed scheduler totals seed
    r.totals.pods = totals.pods + (seed.2.map List.length).sum ∧
      r.totals.unplaced = totals.unplaced ∧
      r.totals.web = totals.web + nWeb seed.2 ∧
      r.totals.coloc ≤ totals.coloc + nWeb seed.2 ∧
      (r.llcs.length, r.csLoad.length, r.lat.length)
        = (nWeb seed.2, nWeb seed.2, nWeb seed.2 * e.samplesPerWebPod) := by
  intro r
  obtain ⟨nodes, away, hrun, hwebs, haway, -⟩ := e.foldl_runEpoch scheduler (P := fun _ => True)
    seed.2 (by simp) ⟨seed.1, [], [], [], totals⟩
  rw [haway hroom, List.count_nil, Nat.add_zero] at hwebs
  rw [haway hroom, List.length_nil] at hrun
  have hcoloc : (nodes.map Node.colocated).sum ≤ (nodes.map Node.webs).sum := by
    refine List.sum_le_sum (fun n _ => ?_)
    rw [Node.colocated]
    split_ifs
    · exact le_rfl
    · exact Nat.zero_le _
  have hreplicate : ∀ f : Node → ℚ,
      (nodes.flatMap (fun n => List.replicate n.webs (f n))).length = nWeb seed.2 := by
    intro f
    rw [List.length_flatMap, ← hwebs]
    simp
  refine ⟨hrun.pods, hrun.unplaced, ?_, ?_, ?_⟩
  · exact hrun.web.trans (by rw [hwebs])
  · exact hrun.coloc.le.trans (by rw [← hwebs]; exact Nat.add_le_add_left hcoloc _)
  · have hllcs : r.llcs.length = nWeb seed.2 :=
      (congrArg List.length hrun.llcs).trans (hreplicate _)
    have hcs : r.csLoad.length = nWeb seed.2 :=
      (congrArg List.length hrun.csLoad).trans (hreplicate _)
    have hlat : r.lat.length = nWeb seed.2 * e.samplesPerWebPod := by
      rw [← hwebs]
      exact hrun.lat.trans (Nat.zero_add _)
    rw [hllcs, hcs, hlat]

end Experiment

/-- **All schedulers are compared on the same pods.**  When an epoch is small enough for the
cluster, as the fifteen arrivals on five nodes are, a run turns nothing away: it counts every web
pod that arrived, and for each seed it averages over as many miss rates, loads and latencies as the
oracle has. -/
theorem experiment_counts (e : Experiment ρ) (scheduler : Scheduler)
    (seeds : List (ρ × List (List WorkloadType)))
    (hroom : ∀ seed ∈ seeds, ∀ arrivals ∈ seed.2, arrivals.length * 200 ≤ e.numNodes * 1900) :
    let result := e.runSeeds scheduler seeds
    result.1.pods = (seeds.map (fun seed => (seed.2.map List.length).sum)).sum ∧
      result.1.unplaced = 0 ∧
      result.1.web = (seeds.map (fun seed => nWeb seed.2)).sum ∧
      result.1.coloc ≤ result.1.web ∧
      result.2.map (fun r => (r.llcs.length, r.csLoad.length, r.lat.length))
        = seeds.map (fun seed =>
            (nWeb seed.2, nWeb seed.2, nWeb seed.2 * e.samplesPerWebPod)) := by
  induction seeds using List.reverseRecOn with
  | nil => exact ⟨rfl, rfl, rfl, le_rfl, rfl⟩
  | append_singleton seeds seed ih =>
      rw [List.forall_mem_append, List.forall_mem_singleton] at hroom
      obtain ⟨hpods, hunplaced, hweb, hcoloc, hsizes⟩ := ih hroom.1
      obtain ⟨hpods', hunplaced', hweb', hcoloc', hsizes'⟩ :=
        e.runSeed_counts scheduler hroom.2 (e.runSeeds scheduler seeds).1
      have hresult : e.runSeeds scheduler (seeds ++ [seed])
          = ((e.runSeed scheduler (e.runSeeds scheduler seeds).1 seed).totals,
            (e.runSeeds scheduler seeds).2
              ++ [e.runSeed scheduler (e.runSeeds scheduler seeds).1 seed]) :=
        List.foldl_concat ..
      simp only [hresult, List.map_append, List.sum_append, List.map_cons, List.map_nil,
        List.sum_cons, List.sum_nil]
      refine ⟨by omega, by omega, by omega, by omega, ?_⟩
      rw [hsizes, hsizes']

/-- One seed of two epochs, on two nodes. -/
theorem experiment_counts_two_epochs :
    let e : Experiment ℕ := ⟨fun k => (k, k + 1), fun k _ _ => (k, k + 1), 3, 2⟩
    let result := e.runSeeds .binPacking
      [(0, [[.baselineWeb, .cacheStress], [.baselineWeb, .batchWorker, .baselineWeb]])]
    result.1.web = 3 ∧ result.2.map (fun r => (r.llcs.length, r.csLoad.length, r.lat.length))
      = [(3, 3, 9)] := by
  obtain ⟨-, -, hweb, -, hsizes⟩ := experiment_counts
    (⟨fun k => (k, k + 1), fun k _ _ => (k, k + 1), 3, 2⟩ : Experiment ℕ) .binPacking
    [(0, [[.baselineWeb, .cacheStress], [.baselineWeb, .batchWorker, .baselineWeb]])] (by decide)
  exact ⟨hweb, hsizes⟩

/-! ## The oracle -/

section Mean

variable {xs : List ℚ} {c : ℚ}

lemma le_mean (hne : xs ≠ []) (h : ∀ x ∈ xs, c ≤ x) : c ≤ xs.sum / xs.length := by
  have hlength : (0 : ℚ) < xs.length := by exact_mod_cast List.length_pos_iff.mpr hne
  rw [le_div_iff₀ hlength, mul_comm, ← nsmul_eq_mul]
  exact List.card_nsmul_le_sum xs c h

lemma mean_lt (hne : xs ≠ []) (h : ∀ x ∈ xs, x < c) : xs.sum / xs.length < c := by
  have hlength : (0 : ℚ) < xs.length := by exact_mod_cast List.length_pos_iff.mpr hne
  have hsum := List.sum_lt_sum_of_ne_nil hne id (fun _ => c) h
  rw [List.map_id, List.map_const', List.sum_replicate, nsmul_eq_mul] at hsum
  rwa [div_lt_iff₀ hlength, mul_comm]

lemma mean_eq (hne : xs ≠ []) (h : ∀ x ∈ xs, x = c) : xs.sum / xs.length = c := by
  have hlength : (xs.length : ℚ) ≠ 0 := by exact_mod_cast (List.length_pos_iff.mpr hne).ne'
  rw [List.eq_replicate_of_mem h, List.sum_replicate, List.length_replicate, nsmul_eq_mul]
  exact mul_div_cancel_left₀ c hlength

end Mean

/-- A summary has averages. -/
lemma summarise_eq_some {lat llcs csLoad : List ℚ} {s : Summary}
    (h : summarise lat llcs csLoad = some s) :
    llcs ≠ [] ∧ csLoad ≠ [] ∧ s.llcMissRate = 100 * (llcs.sum / llcs.length) ∧
      s.nodeCtxSwitchLoad = csLoad.sum / csLoad.length := by
  simp only [summarise, Option.bind_eq_bind, Option.bind_eq_some_iff, guard] at h
  obtain ⟨_, -, _, -, _, -, _, -, _, hguard, hs⟩ := h
  split_ifs at hguard with hne
  obtain rfl := Option.some.inj hs
  exact ⟨hne.1, hne.2, mul_div_assoc .., rfl⟩

/-- What the oracle reports, if it has anything to report. -/
lemma isolated_eq_some {e : Experiment ρ} {rng : ρ} {n : ℕ} {o : Summary}
    (h : e.isolated rng n = some o) :
    o.llcMissRate = 100 * isolatedLlc ∧ o.nodeCtxSwitchLoad = (workloads .baselineWeb).cs := by
  obtain ⟨hllcs, hcs, hmiss, hload⟩ := summarise_eq_some h
  rw [mean_eq hllcs (fun x hx => List.eq_of_mem_replicate hx)] at hmiss
  rw [mean_eq hcs (fun x hx => List.eq_of_mem_replicate hx)] at hload
  exact ⟨hmiss, hload⟩

/-- Every value a run lists is the value of some node for one of its web pods. -/
lemma mem_flatMap_webs {nodes : List Node} {f : Node → ℚ} {x : ℚ}
    (hx : x ∈ nodes.flatMap (fun n => List.replicate n.webs (f n))) :
    ∃ n ∈ nodes, .baselineWeb ∈ n.pods ∧ x = f n := by
  obtain ⟨n, hn, hx⟩ := List.mem_flatMap.mp hx
  obtain ⟨hwebs, rfl⟩ := List.mem_replicate.mp hx
  exact ⟨n, hn, List.count_pos_iff.mp (Nat.pos_of_ne_zero hwebs), rfl⟩

/-- A web pod alone on its node. -/
lemma eq_singleton_of_alone {n : Node} (hweb : .baselineWeb ∈ n.pods) (halone : n.pods.length ≤ 1) :
    n.pods = [.baselineWeb] := by
  obtain ⟨pod, hpods⟩ := List.length_eq_one_iff.mp
    (le_antisymm halone (List.length_pos_of_mem hweb))
  rw [hpods, List.mem_singleton] at hweb
  rw [hpods, hweb]

/-- **The oracle is a lower bound.**  Whatever a scheduler does with the epochs of a seed and
whatever the random source draws, its miss rate and its context-switch load are at least the
oracle's, and the miss rate stays below a hundred per cent.  The stock scheduler and AKIL reach the
oracle's figures when no epoch has more arrivals than the cluster has nodes.  All figures are exact
rationals here, the floats of the script round them. -/
theorem oracle_lower_bound (e : Experiment ρ) (scheduler : Scheduler) (totals : ColocTotals)
    (seed : ρ × List (List WorkloadType)) (rng : ρ) {s o : Summary}
    (hs : summarise (e.runSeed scheduler totals seed).lat (e.runSeed scheduler totals seed).llcs
      (e.runSeed scheduler totals seed).csLoad = some s)
    (ho : e.isolated rng (nWeb seed.2) = some o) :
    (o.llcMissRate ≤ s.llcMissRate ∧ s.llcMissRate < 100) ∧
      o.nodeCtxSwitchLoad ≤ s.nodeCtxSwitchLoad ∧
      ((scheduler = .defaultK8s ∨ scheduler = .akil) →
        (∀ arrivals ∈ seed.2, arrivals.length ≤ e.numNodes) →
        s.llcMissRate = o.llcMissRate ∧ s.nodeCtxSwitchLoad = o.nodeCtxSwitchLoad) := by
  obtain ⟨hllcs, hcs, hmiss, hload⟩ := summarise_eq_some hs
  obtain ⟨homiss, hoload⟩ := isolated_eq_some ho
  rw [hmiss, hload, homiss, hoload]
  -- The nodes of the run, with a property that all of them have.
  have hnodes : ∀ P : Node → Prop, (∀ arrivals ∈ seed.2, ∀ rng,
      ∀ n ∈ (place arrivals scheduler e.random rng e.numNodes).1.nodes, P n) →
      (∀ x ∈ (e.runSeed scheduler totals seed).llcs,
        ∃ n, P n ∧ .baselineWeb ∈ n.pods ∧ x = (webPodCondition n).1) ∧
      ∀ x ∈ (e.runSeed scheduler totals seed).csLoad,
        ∃ n, P n ∧ .baselineWeb ∈ n.pods ∧ x = n.ctxSwitches := by
    intro P hP
    obtain ⟨nodes, away, hrun, -, -, hall⟩ := e.foldl_runEpoch scheduler seed.2 hP
      ⟨seed.1, [], [], [], totals⟩
    constructor <;> intro x hx
    · obtain ⟨n, hn, hweb, rfl⟩ := mem_flatMap_webs (hrun.llcs ▸ hx)
      exact ⟨n, hall n hn, hweb, rfl⟩
    · obtain ⟨n, hn, hweb, rfl⟩ := mem_flatMap_webs (hrun.csLoad ▸ hx)
      exact ⟨n, hall n hn, hweb, rfl⟩
  obtain ⟨hllc, hctx⟩ := hnodes (fun _ => True) (by simp)
  refine ⟨⟨?_, ?_⟩, ?_, fun hspreads hfew => ?_⟩
  · refine mul_le_mul_of_nonneg_left (le_mean hllcs (fun x hx => ?_)) (by norm_num)
    obtain ⟨n, -, -, rfl⟩ := hllc x hx
    exact (webPodCondition_bounds n).1
  · have hlt := mean_lt hllcs (fun x hx => by
      obtain ⟨n, -, -, rfl⟩ := hllc x hx
      exact (webPodCondition_bounds n).2)
    linarith
  · refine le_mean hcs (fun x hx => ?_)
    obtain ⟨n, -, hweb, rfl⟩ := hctx x hx
    exact n.le_ctxSwitches hweb
  · obtain ⟨hllc, hctx⟩ := hnodes (fun n => n.pods.length ≤ 1) (fun arrivals ha rng =>
      place_alone_of_few hspreads (hfew arrivals ha) e.random rng)
    rw [mean_eq (c := isolatedLlc) hllcs, mean_eq (c := (workloads .baselineWeb).cs) hcs]
    · exact ⟨rfl, rfl⟩
    · intro x hx
      obtain ⟨n, halone, hweb, rfl⟩ := hctx x hx
      rw [Node.ctxSwitches, eq_singleton_of_alone hweb halone, List.map_singleton,
        List.sum_singleton]
    · intro x hx
      obtain ⟨n, halone, hweb, rfl⟩ := hllc x hx
      rw [webPodCondition_eq, eq_singleton_of_alone hweb halone, List.erase_cons_head]
      exact sub_sub_cancel 1 isolatedLlc

/-- A web pod and a noisy neighbour, two samples. -/
theorem oracle_lower_bound_packed :
    let e : Experiment ℕ := ⟨fun k => (k, k + 1), fun k _ _ => (k, k + 1), 2, 2⟩
    let r := e.runSeed .binPacking ⟨0, 0, 0, 0⟩ (0, [[.baselineWeb, .cacheStress]])
    ∃ s o, summarise r.lat r.llcs r.csLoad = some s ∧ e.isolated 7 1 = some o ∧
      o.llcMissRate ≤ s.llcMissRate := by
  intro e r
  obtain ⟨s, hs⟩ := Option.isSome_iff_exists.mp
    (by decide +kernel : (summarise r.lat r.llcs r.csLoad).isSome = true)
  obtain ⟨o, ho⟩ := Option.isSome_iff_exists.mp (by decide +kernel : (e.isolated 7 1).isSome = true)
  exact ⟨s, o, hs, ho, (oracle_lower_bound e .binPacking ⟨0, 0, 0, 0⟩
    (0, [[.baselineWeb, .cacheStress]]) 7 hs ho).1.1⟩

/-! ## Percentiles and the objective -/

/-- A percentile is within the objective exactly if the share above the objective is small
enough. -/
lemma pct_le_iff {sorted : List ℚ} (hsorted : sorted.Pairwise (· ≤ ·)) {q v : ℚ} (h0 : 0 ≤ q)
    (h1 : q < 1) (hv : pct sorted q = some v) (t : ℚ) :
    v ≤ t ↔ 100 * (sorted.countP (t < ·) : ℚ) / sorted.length < 100 * (1 - q) := by
  obtain ⟨hk, -⟩ := quantile_eq_some h1 hv
  have hlength : (0 : ℚ) < sorted.length := by exact_mod_cast (Nat.zero_le _).trans_lt hk
  rw [quantile_le_iff hsorted h0 h1 hv, div_lt_iff₀ hlength, mul_assoc]
  exact (mul_lt_mul_iff_right₀ (by norm_num)).symm

/-- **The percentiles of a summary agree with its violations of the objective.**  They come in
order, and each is within the objective exactly if the rate of violations leaves room for it: the
ninety-ninth percentile if that is less than one per cent. -/
theorem percentiles_agree_with_slo {lat llcs csLoad : List ℚ} {s : Summary}
    (h : summarise lat llcs csLoad = some s) :
    (s.p50 ≤ s.p90 ∧ s.p90 ≤ s.p99 ∧ s.p99 ≤ s.p999) ∧
      (s.p50 ≤ webSloMs ↔ s.sloPct < 50) ∧ (s.p90 ≤ webSloMs ↔ s.sloPct < 10) ∧
      (s.p99 ≤ webSloMs ↔ s.sloPct < 1) ∧ (s.p999 ≤ webSloMs ↔ s.sloPct < 1 / 10) := by
  have hsorted := List.pairwise_insertionSort (· ≤ ·) lat
  simp only [summarise, Option.bind_eq_bind, Option.bind_eq_some_iff] at h
  obtain ⟨p50, h50, p90, h90, p99, h99, p999, h999, _, -, hs⟩ := h
  obtain rfl := Option.some.inj hs
  refine ⟨⟨?_, ?_, ?_⟩, ?_, ?_, ?_, ?_⟩
  · exact quantile_mono hsorted (by norm_num) (by norm_num) h50 h90
  · exact quantile_mono hsorted (by norm_num) (by norm_num) h90 h99
  · exact quantile_mono hsorted (by norm_num) (by norm_num) h99 h999
  · exact (pct_le_iff hsorted (by norm_num) (by norm_num) h50 webSloMs).trans (by norm_num)
  · exact (pct_le_iff hsorted (by norm_num) (by norm_num) h90 webSloMs).trans (by norm_num)
  · exact (pct_le_iff hsorted (by norm_num) (by norm_num) h99 webSloMs).trans (by norm_num)
  · exact (pct_le_iff hsorted (by norm_num) (by norm_num) h999 webSloMs).trans (by norm_num)

/-- Of two latencies one exceeds the objective, and so does the greater half of the percentiles. -/
theorem percentiles_agree_with_slo_two :
    ∃ s, summarise [20, 3] [isolatedLlc] [2500] = some s ∧ s.sloPct = 50 ∧ ¬ s.p50 ≤ webSloMs := by
  obtain ⟨s, hs⟩ := Option.isSome_iff_exists.mp
    (by decide +kernel : (summarise [20, 3] [isolatedLlc] [2500]).isSome = true)
  have hslo : (summarise [20, 3] [isolatedLlc] [2500]).map Summary.sloPct = some 50 := by
    decide +kernel
  rw [hs, Option.map_some, Option.some_inj] at hslo
  refine ⟨s, hs, hslo, ?_⟩
  rw [(percentiles_agree_with_slo hs).2.1, hslo]
  exact lt_irrefl _

end Akil.Evaluation
