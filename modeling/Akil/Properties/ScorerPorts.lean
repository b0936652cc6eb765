import Akil.Construction.Evaluation.Simulation
import Akil.Construction.Frontend.Cluster
import Akil.Properties.Score

/-!
# The two ports of the scorer

The scorer exists three times: in Go, where pods are scheduled with it, in TypeScript on the demo
page, and in Python in the evaluation.  Both ports are compared with the Go scorer here, which by
`Scorer.score_score` rounds the clamped rest of a hundred, half-way values up.

The TypeScript port filters the unknown neighbours before its loop, clamps with nested `min` and
`max` and dampens field by field; on what the loop can see nothing differs, and `Math.round`
agrees with `math.Round` where nothing is negative (`frontend_score_agrees`).

The Python port rounds before it clamps, which changes nothing since the bounds are integers, and
rounds half-way values to the even neighbour, which does: it gives one point less whenever the
rest of a hundred lies half-way above an even integer.  The four kernel profiles of the
evaluation are so few that the residents for which this happens can be listed
(`akil_score_agrees_iff`); two web pods on one node are among them (`akil_score_differs`).
-/

namespace Akil

/-! ## TypeScript -/

namespace Frontend

lemma dampening_eq : dampening = confidenceDampeningFactor := by
  funext c
  cases c <;> rfl

/-- The page's loop adds up what the Go scorer adds up. -/
lemma foldl_addNeighbour (candidate : RuntimeProfile) (colocated : List RuntimeProfile)
    (t : Penalties) :
    (colocated.map toProfile).foldl (addNeighbour (toProfile candidate)) t
      = t + (colocated.map ((newScorer defaultScorerConfig).penalty candidate)).sum := by
  induction colocated generalizing t with
  | nil => simp
  | cons p colocated ih =>
      have hstep : addNeighbour (toProfile candidate) t (toProfile p)
          = t + (newScorer defaultScorerConfig).penalty candidate p := by
        have hcache : (newScorer defaultScorerConfig).maxCacheMissRate = maxCache := by
          norm_num [newScorer, defaultScorerConfig, maxCache]
        have hfault : (newScorer defaultScorerConfig).maxPageFaultRate = maxPageFault := by
          norm_num [newScorer, defaultScorerConfig, maxPageFault]
        have hswitch : (newScorer defaultScorerConfig).maxCtxSwitchRate = maxCtxSwitch := by
          norm_num [newScorer, defaultScorerConfig, maxCtxSwitch]
        unfold Scorer.penalty
        rw [hcache, hfault, hswitch]
        rfl
      rw [List.map_cons, List.foldl_cons, hstep, ih, List.map_cons, List.sum_cons, add_assoc]

lemma quietIfUnknown_toProfile (p : RuntimeProfile) :
    (quietIfUnknown (toProfile p)).confidence = (Scorer.effectiveCandidate p).confidence ∧
      addNeighbour (quietIfUnknown (toProfile p))
        = addNeighbour (toProfile (Scorer.effectiveCandidate p)) := by
  unfold quietIfUnknown Scorer.effectiveCandidate
  by_cases h : p.confidence = .unknown
  · have h' : (toProfile p).confidence = .unknown := h
    rw [if_pos h, if_pos h']
    exact ⟨rfl, rfl⟩
  · have h' : (toProfile p).confidence ≠ .unknown := h
    rw [if_neg h, if_neg h']
    exact ⟨rfl, rfl⟩

/-- The page's result beside at least one workload, in the terms of the Go scorer. -/
lemma score_of_ne_nil (candidate : RuntimeProfile) {colocated : List RuntimeProfile}
    (h : colocated ≠ []) :
    let t := (newScorer defaultScorerConfig).totalPenalties (Scorer.effectiveCandidate candidate)
      colocated
    let d := confidenceDampeningFactor (Scorer.effectiveCandidate candidate).confidence
    score (toProfile candidate) (colocated.map toProfile)
      = ⟨roundHalfUp (max 0 (min 100 (100 - t.total * d))), t.cache * d, t.lock * d,
          t.pageFault * d, t.ctxSwitch * d, "Co-location penalty applied"⟩ := by
  intro t d
  obtain ⟨hconf, hadd⟩ := quietIfUnknown_toProfile candidate
  have hknown : (colocated.map toProfile).filter (fun p => p.confidence ≠ .unknown)
      = (colocated.filter (fun p => p.confidence ≠ .unknown)).map toProfile := by
    rw [List.filter_map]
    rfl
  have hloop : ((colocated.map toProfile).filter (fun p => p.confidence ≠ .unknown)).foldl
      (addNeighbour (quietIfUnknown (toProfile candidate))) 0 = t := by
    rw [hknown, hadd, foldl_addNeighbour, zero_add, ← Scorer.totalPenalties_eq_sum]
  have hd : dampening (quietIfUnknown (toProfile candidate)).confidence = d := by
    rw [hconf, dampening_eq]
  have hlen : (colocated.map toProfile).length ≠ 0 := by simpa using h
  unfold score
  dsimp only
  rw [if_neg hlen, hd, ← hloop]
  rfl

end Frontend

/-- **The Go scorer and its TypeScript port agree.**  For every candidate and every list of
co-located profiles the page gives the score of the Go scorer with its default configuration, and
its four penalties add up to the Go total. -/
theorem frontend_score_agrees (candidate : RuntimeProfile) (colocated : List RuntimeProfile) :
    let go := (newScorer defaultScorerConfig).score candidate colocated
    let ts := Frontend.score (Frontend.toProfile candidate) (colocated.map Frontend.toProfile)
    ts.score = go.score ∧ ts.cache + ts.lock + ts.pageFault + ts.ctxSwitch = go.totalPenalty := by
  intro go ts
  by_cases hnil : colocated = []
  · subst hnil
    exact ⟨rfl, by norm_num [ts, go, Frontend.score, Scorer.score]⟩
  · obtain ⟨hscore, htotal⟩ := (newScorer defaultScorerConfig).score_score candidate colocated
    have hts : ts = _ := Frontend.score_of_ne_nil candidate hnil
    rw [hscore, htotal, hts, mathRound_of_nonneg (clampScore_mem _).1, clampScore_eq]
    refine ⟨rfl, ?_⟩
    dsimp only
    rw [← add_mul, ← add_mul, ← add_mul]
    rfl

/-! ## Python -/

namespace Evaluation

/-- The profile of a workload type: its rates, at high confidence. -/
def profileOf (w : WorkloadType) : RuntimeProfile where
  workloadKey := ""
  pageFaultRate := (workloads w).pf
  cacheMissRate := (workloads w).cache
  lockContentionRatio := (workloads w).lock
  contextSwitchRate := (workloads w).cs
  sampleCount := 0
  windowStart := none
  windowEnd := none
  confidence := .high

/-- What the candidate's own rates cost beside each resident, in twentieths of a point. -/
def candidateCost : WorkloadType → ℕ
  | .baselineWeb => 113
  | .cacheStress => 216
  | .lockStress => 695
  | .batchWorker => 384

/-- What a resident's rates cost, in twentieths of a point. -/
def residentCost : WorkloadType → ℕ
  | .baselineWeb => 197
  | .cacheStress => 846
  | .lockStress => 835
  | .batchWorker => 489

/-- What all residents cost the candidate, in twentieths of a point. -/
def cost (candidate : WorkloadType) (residents : List WorkloadType) : ℕ :=
  (residents.map (fun r => candidateCost candidate + residentCost r)).sum

lemma cost_cons (candidate r : WorkloadType) (residents : List WorkloadType) :
    cost candidate (r :: residents)
      = candidateCost candidate + residentCost r + cost candidate residents := by
  rw [cost, List.map_cons, List.sum_cons, ← cost]

/-- The penalty of one resident in the Go scorer. -/
lemma penalty_total (candidate r : WorkloadType) :
    ((newScorer defaultScorerConfig).penalty (profileOf candidate) (profileOf r)).total
      = ((candidateCost candidate + residentCost r : ℕ) : ℚ) / 20 := by
  cases candidate <;> cases r <;>
    norm_num [Scorer.penalty, Penalties.total, newScorer, defaultScorerConfig, defaultWeights,
      profileOf, workloads, candidateCost, residentCost]

lemma sum_penalty_total (candidate : WorkloadType) (residents : List WorkloadType) :
    ((residents.map profileOf).map (fun p =>
        ((newScorer defaultScorerConfig).penalty (profileOf candidate) p).total)).sum
      = (cost candidate residents : ℚ) / 20 := by
  induction residents with
  | nil => simp [cost]
  | cons r residents ih =>
      rw [List.map_cons, List.map_cons, List.sum_cons, ih, penalty_total, cost_cons]
      push_cast
      ring

/-- The penalty of the Go scorer. -/
lemma dampenedPenalty_profileOf (candidate : WorkloadType) (residents : List WorkloadType) :
    (newScorer defaultScorerConfig).dampenedPenalty (profileOf candidate)
      (residents.map profileOf) = (cost candidate residents : ℚ) / 20 := by
  have hknown : (residents.map profileOf).filter (fun p => p.confidence ≠ .unknown)
      = residents.map profileOf := by
    rw [List.filter_eq_self]
    intro p hp
    obtain ⟨r, -, rfl⟩ := List.mem_map.mp hp
    rfl
  have hfactor : confidenceDampeningFactor
      (Scorer.effectiveCandidate (profileOf candidate)).confidence = 1 := rfl
  rw [Scorer.dampenedPenalty_eq, hknown, hfactor, mul_one]
  exact sum_penalty_total candidate residents

/-- The penalty of the Python port. -/
lemma akilScore_eq (candidate : WorkloadType) (residents : List WorkloadType) :
    akilScore candidate residents goMax weights
      = max 0 (min 100 (roundHalfEven (100 - (cost candidate residents : ℚ) / 20) : ℚ)) := by
  have hloop : ∀ (l : List WorkloadType) (acc : ℚ),
      l.foldl (fun penalty r =>
          let p := workloads r
          let cache := p.cache / goMax.cache * 35
          let lock := ((workloads candidate).lock + p.lock) * 30
          let pf := ((workloads candidate).pf + p.pf) / goMax.pf * 20
          let cs := ((workloads candidate).cs + p.cs) / goMax.cs * 15
          penalty + (cache + lock + pf + cs)) acc
        = acc + (cost candidate l : ℚ) / 20 := by
    intro l
    induction l with
    | nil => intro acc; simp [cost]
    | cons r l ih =>
        intro acc
        rw [List.foldl_cons, ih, cost_cons]
        cases candidate <;> cases r <;>
          norm_num [workloads, goMax, candidateCost, residentCost] <;> ring
  unfold akilScore
  split_ifs with hnil
  · subst hnil
    have hround : roundHalfEven (100 - ((cost candidate [] : ℕ) : ℚ) / 20) = 100 := by
      simp [cost, roundHalfEven]
    rw [hround]
    norm_num
  · have hsum := hloop residents 0
    rw [zero_add] at hsum
    rw [← hsum]
    rfl

/-- Between zero and a hundred, half-way values above an even integer are what Python and Go
round differently. -/
lemma clamped_round_eq_iff (x : ℚ) :
    max 0 (min 100 (roundHalfEven x : ℚ)) = (mathRound (clampScore x) : ℚ)
      ↔ ¬ ∃ m : ℤ, 0 ≤ m ∧ m < 50 ∧ x = 2 * m + 1 / 2 := by
  rw [mathRound_of_nonneg (clampScore_mem x).1, clampScore_eq]
  by_cases hneg : x < 0
  · have hle : roundHalfEven x ≤ 0 := roundHalfEven_le (by exact_mod_cast hneg.le)
    have hle' : (roundHalfEven x : ℚ) ≤ 0 := by exact_mod_cast hle
    rw [min_eq_right (by linarith), max_eq_left hle', min_eq_right (by linarith),
      max_eq_left hneg.le]
    refine iff_of_true (by norm_num [roundHalfUp]) ?_
    rintro ⟨m, hm, -, rfl⟩
    have hm' : (0 : ℚ) ≤ m := by exact_mod_cast hm
    linarith
  by_cases hbig : 100 < x
  · have hle : 100 ≤ roundHalfEven x := le_roundHalfEven (by exact_mod_cast hbig.le)
    have hle' : (100 : ℚ) ≤ roundHalfEven x := by exact_mod_cast hle
    rw [min_eq_left hle', max_eq_right (by norm_num), min_eq_left hbig.le,
      max_eq_right (by norm_num)]
    refine iff_of_true (by norm_num [roundHalfUp]) ?_
    rintro ⟨m, -, hm, rfl⟩
    have hm' : (m : ℚ) + 1 ≤ 50 := by exact_mod_cast hm
    linarith
  · rw [not_lt] at hneg hbig
    have hge : (0 : ℚ) ≤ roundHalfEven x := by
      exact_mod_cast le_roundHalfEven (k := 0) (by exact_mod_cast hneg)
    have hle : (roundHalfEven x : ℚ) ≤ 100 := by
      exact_mod_cast roundHalfEven_le (k := 100) (by exact_mod_cast hbig)
    rw [min_eq_right hle, max_eq_right hge, min_eq_right hbig, max_eq_right hneg, Int.cast_inj,
      roundHalfEven_eq_roundHalfUp_iff]
    refine not_congr ⟨?_, fun ⟨m, _, _, hm⟩ => ⟨m, hm⟩⟩
    rintro ⟨m, hm⟩
    have hlow : (-1 : ℚ) < m := by linarith
    have hhigh : (m : ℚ) < 50 := by linarith
    refine ⟨m, ?_, by exact_mod_cast hhigh, hm⟩
    have : -1 < m := by exact_mod_cast hlow
    omega

/-- The rest of a hundred is half-way above an even integer. -/
lemma halfway_iff_cost (n : ℕ) :
    (∃ m : ℤ, 0 ≤ m ∧ m < 50 ∧ 100 - (n : ℚ) / 20 = 2 * m + 1 / 2) ↔ n ≤ 1990 ∧ n % 40 = 30 := by
  constructor
  · rintro ⟨m, hm, -, h⟩
    have hn : (n : ℤ) + 40 * m = 1990 := by
      have : (n : ℚ) + 40 * m = 1990 := by linarith
      exact_mod_cast this
    omega
  · rintro ⟨hle, hmod⟩
    refine ⟨(1990 - n) / 40, by omega, by omega, ?_⟩
    have hn : (n : ℤ) + 40 * ((1990 - n) / 40) = 1990 := by omega
    have hn' : (n : ℚ) + 40 * (((1990 - n) / 40 : ℤ) : ℚ) = 1990 := by exact_mod_cast hn
    linarith

/-- The residents, up to their order, that leave the candidate a rest half-way above an even
integer. -/
def halfwayResidents : WorkloadType → List (List WorkloadType)
  | .baselineWeb =>
      [[.baselineWeb], List.replicate 5 .baselineWeb, [.lockStress, .batchWorker]]
  | .batchWorker => [[.cacheStress]]
  | _ => []

/-- The placements that Python and Go round differently. -/
def Halfway (candidate : WorkloadType) (residents : List WorkloadType) : Prop :=
  ∃ l ∈ halfwayResidents candidate, residents.Perm l

/-- How many residents there are of each type. -/
def counts (l : List WorkloadType) : ℕ × ℕ × ℕ × ℕ :=
  (l.count .baselineWeb, l.count .cacheStress, l.count .lockStress, l.count .batchWorker)

/-- The cost, by how many residents there are of each type. -/
def costOfCounts (candidate : WorkloadType) : ℕ × ℕ × ℕ × ℕ → ℕ
  | (web, cache, lock, batch) =>
      web * (candidateCost candidate + 197) + cache * (candidateCost candidate + 846)
        + lock * (candidateCost candidate + 835) + batch * (candidateCost candidate + 489)

lemma cost_eq_costOfCounts (candidate : WorkloadType) (residents : List WorkloadType) :
    cost candidate residents = costOfCounts candidate (counts residents) := by
  unfold counts costOfCounts
  induction residents with
  | nil => simp [cost]
  | cons r residents ih =>
      rw [cost_cons, ih]
      cases r <;> simp [residentCost] <;> ring

lemma perm_iff_counts (l l' : List WorkloadType) : l.Perm l' ↔ counts l = counts l' := by
  rw [List.perm_iff_count]
  simp only [counts, Prod.mk.injEq]
  constructor
  · intro h
    exact ⟨h _, h _, h _, h _⟩
  · rintro ⟨hweb, hcache, hlock, hbatch⟩ w
    cases w
    · exact hweb
    · exact hcache
    · exact hlock
    · exact hbatch

/-- Every resident costs at least 310 twentieths, so few counts come into question. -/
lemma halfwayResidents_complete (candidate : WorkloadType) :
    ∀ (web : Fin 7) (cache : Fin 3) (lock : Fin 3) (batch : Fin 4),
      (web.val, cache.val, lock.val, batch.val) ∈ (halfwayResidents candidate).map counts
        ↔ costOfCounts candidate (web, cache, lock, batch) ≤ 1990 ∧
          costOfCounts candidate (web, cache, lock, batch) % 40 = 30 := by
  cases candidate <;> decide +kernel

lemma counts_bounds {candidate : WorkloadType} {web cache lock batch : ℕ}
    (h : costOfCounts candidate (web, cache, lock, batch) ≤ 1990) :
    web < 7 ∧ cache < 3 ∧ lock < 3 ∧ batch < 4 := by
  have hcandidate : 113 ≤ candidateCost candidate := by cases candidate <;> decide
  simp only [costOfCounts] at h
  have hweb := Nat.mul_le_mul_left web (Nat.add_le_add_right hcandidate 197)
  have hcache := Nat.mul_le_mul_left cache (Nat.add_le_add_right hcandidate 846)
  have hlock := Nat.mul_le_mul_left lock (Nat.add_le_add_right hcandidate 835)
  have hbatch := Nat.mul_le_mul_left batch (Nat.add_le_add_right hcandidate 489)
  omega

lemma halfway_iff (candidate : WorkloadType) (residents : List WorkloadType) :
    Halfway candidate residents
      ↔ cost candidate residents ≤ 1990 ∧ cost candidate residents % 40 = 30 := by
  have hmem : Halfway candidate residents
      ↔ counts residents ∈ (halfwayResidents candidate).map counts := by
    simp only [Halfway, perm_iff_counts, List.mem_map, eq_comm]
  rw [hmem, cost_eq_costOfCounts]
  constructor
  · intro h
    have hbounds : ∀ l ∈ halfwayResidents candidate,
        costOfCounts candidate (counts l) ≤ 1990 := by
      cases candidate <;> decide +kernel
    obtain ⟨l, hl, heq⟩ := List.mem_map.mp h
    have hle := heq ▸ hbounds l hl
    obtain ⟨hweb, hcache, hlock, hbatch⟩ := counts_bounds hle
    exact (halfwayResidents_complete candidate ⟨_, hweb⟩ ⟨_, hcache⟩ ⟨_, hlock⟩
      ⟨_, hbatch⟩).mp h
  · rintro ⟨hle, hmod⟩
    obtain ⟨hweb, hcache, hlock, hbatch⟩ := counts_bounds hle
    exact (halfwayResidents_complete candidate ⟨_, hweb⟩ ⟨_, hcache⟩ ⟨_, hlock⟩
      ⟨_, hbatch⟩).mpr ⟨hle, hmod⟩

end Evaluation

/-- **When the evaluation's scorer is the deployed scorer.**  For every candidate and every list
of residents the Python port gives the score of the Go scorer with its default configuration on
the same rates at high confidence, exactly if the placement is not one of the half-way ones. -/
theorem akil_score_agrees_iff (candidate : Evaluation.WorkloadType)
    (residents : List Evaluation.WorkloadType) :
    Evaluation.akilScore candidate residents Evaluation.goMax Evaluation.weights
        = ((newScorer defaultScorerConfig).score (Evaluation.profileOf candidate)
            (residents.map Evaluation.profileOf)).score
      ↔ ¬ Evaluation.Halfway candidate residents := by
  rw [Evaluation.akilScore_eq, (Scorer.score_score _ _ _).1,
    Evaluation.dampenedPenalty_profileOf, Evaluation.clamped_round_eq_iff,
    Evaluation.halfway_iff_cost, Evaluation.halfway_iff]

/-- Two web pods on one node: a rest of 84.5 is 84 in Python and 85 in Go. -/
theorem akil_score_differs :
    Evaluation.akilScore .baselineWeb [.baselineWeb] Evaluation.goMax Evaluation.weights = 84 ∧
      ((newScorer defaultScorerConfig).score (Evaluation.profileOf .baselineWeb)
        ([Evaluation.WorkloadType.baselineWeb].map Evaluation.profileOf)).score = 85 := by
  decide +kernel

end Akil
