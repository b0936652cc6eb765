import Akil.Construction.Scoring.Scorer
import Akil.Framework.Rounding

/-!
# What a score says about its neighbours

The score is what is left of a hundred after the dampened penalty, clamped and rounded
(`Scorer.score_score`).  The early return for an empty node is no exception: an empty node has no
penalty.  The penalty is a sum over the neighbours of known confidence
(`totalPenalties_eq_sum`), so neither the order of the neighbours nor those without data matter;
clamping and rounding are monotone, so a larger penalty never means a larger score
(`Scorer.score_anti`).  With weights that are not negative, every way of adding pressure makes
the penalty larger, and `score_respects_interference` collects them.
-/

namespace Akil

/-! ## Clamping and rounding -/

lemma clampScore_eq (x : ℚ) : clampScore x = max 0 (min 100 x) := by
  unfold clampScore
  dsimp only
  split_ifs with hneg hbig hbig
  · norm_num at hbig
  · rw [min_eq_right (by linarith), max_eq_left hneg.le]
  · rw [min_eq_left (le_of_lt hbig), max_eq_right (by norm_num)]
  · rw [min_eq_right (not_lt.mp hbig), max_eq_right (not_lt.mp hneg)]

lemma clampScore_mem (x : ℚ) : 0 ≤ clampScore x ∧ clampScore x ≤ 100 := by
  rw [clampScore_eq]
  exact ⟨le_max_left _ _, max_le (by norm_num) (min_le_left _ _)⟩

lemma clampScore_mono {x y : ℚ} (h : x ≤ y) : clampScore x ≤ clampScore y := by
  rw [clampScore_eq, clampScore_eq]
  exact max_le_max le_rfl (min_le_min le_rfl h)

/-- Away from zero is upwards where nothing is negative. -/
lemma mathRound_of_nonneg {x : ℚ} (h : 0 ≤ x) : mathRound x = roundHalfUp x := if_pos h

/-- Rounding stays between integers. -/
lemma mathRound_mem {x : ℚ} {k : ℤ} (h₀ : 0 ≤ x) (h : x ≤ k) :
    0 ≤ mathRound x ∧ mathRound x ≤ k := by
  rw [mathRound, if_pos h₀]
  constructor
  · exact Int.floor_nonneg.mpr (by linarith)
  · have hlt : x + 1 / 2 < (k + 1 : ℤ) := by
      push_cast
      linarith
    exact Int.lt_add_one_iff.mp (Int.floor_lt.mpr hlt)

/-! ## The penalty -/

namespace Penalties

lemma total_add (a b : Penalties) : (a + b).total = a.total + b.total := by
  change (a.cache + b.cache) + (a.lock + b.lock) + (a.pageFault + b.pageFault)
    + (a.ctxSwitch + b.ctxSwitch) = _
  unfold total
  ring

lemma total_sum (l : List Penalties) : l.sum.total = (l.map total).sum := by
  induction l with
  | nil =>
      change (0 : ℚ) + 0 + 0 + 0 = 0
      norm_num
  | cons p l ih => rw [List.sum_cons, total_add, ih, List.map_cons, List.sum_cons]

end Penalties

namespace Scorer

/-- The loop of `Score` is a sum over the profiles of known confidence. -/
lemma totalPenalties_eq_sum (s : Scorer) (candidate : RuntimeProfile)
    (colocated : List RuntimeProfile) :
    s.totalPenalties candidate colocated
      = ((colocated.filter (fun p => p.confidence ≠ .unknown)).map (s.penalty candidate)).sum := by
  have hfold : ∀ (l : List RuntimeProfile) (acc : Penalties),
      l.foldl (fun acc p => if p.confidence = .unknown then acc else acc + s.penalty candidate p)
          acc
        = acc + ((l.filter (fun p => p.confidence ≠ .unknown)).map (s.penalty candidate)).sum := by
    intro l
    induction l with
    | nil => intro acc; simp
    | cons p l ih =>
        intro acc
        rw [List.foldl_cons, ih]
        by_cases hp : p.confidence = .unknown
        · simp [hp]
        · simp [hp, add_assoc]
  rw [totalPenalties, hfold, zero_add]

/-- The score does not depend on the order of the co-located workloads. -/
lemma score_perm (s : Scorer) (candidate : RuntimeProfile) {l l' : List RuntimeProfile}
    (h : l.Perm l') : s.score candidate l = s.score candidate l' := by
  have hnil : l = [] ↔ l' = [] := by
    rw [← List.length_eq_zero_iff, ← List.length_eq_zero_iff, h.length_eq]
  have hsum : s.totalPenalties (effectiveCandidate candidate) l
      = s.totalPenalties (effectiveCandidate candidate) l' := by
    rw [totalPenalties_eq_sum, totalPenalties_eq_sum]
    exact ((h.filter _).map _).sum_eq
  simp only [score, hnil, hsum]

/-- What the node costs the candidate, after dampening. -/
def dampenedPenalty (s : Scorer) (candidate : RuntimeProfile) (colocated : List RuntimeProfile) :
    ℚ :=
  (s.totalPenalties (effectiveCandidate candidate) colocated).total
    * confidenceDampeningFactor (effectiveCandidate candidate).confidence

/-- The dampened penalty as a sum over the neighbours of known confidence. -/
lemma dampenedPenalty_eq (s : Scorer) (candidate : RuntimeProfile)
    (colocated : List RuntimeProfile) :
    s.dampenedPenalty candidate colocated
      = ((colocated.filter (fun p => p.confidence ≠ .unknown)).map
          (fun p => (s.penalty (effectiveCandidate candidate) p).total)).sum
        * confidenceDampeningFactor (effectiveCandidate candidate).confidence := by
  rw [dampenedPenalty, totalPenalties_eq_sum, Penalties.total_sum, List.map_map]
  rfl

/-- The score and the total penalty of every list of neighbours, the empty one included. -/
lemma score_score (s : Scorer) (candidate : RuntimeProfile) (colocated : List RuntimeProfile) :
    (s.score candidate colocated).score
        = mathRound (clampScore (100 - s.dampenedPenalty candidate colocated)) ∧
      (s.score candidate colocated).totalPenalty = s.dampenedPenalty candidate colocated := by
  unfold score
  by_cases hnil : colocated = []
  · subst hnil
    have hzero : s.dampenedPenalty candidate [] = 0 := by
      rw [dampenedPenalty_eq]
      simp
    rw [hzero, clampScore_eq]
    simp [mathRound]
    norm_num
  · simp only [hnil, if_false]
    exact ⟨rfl, rfl⟩

lemma score_mem (s : Scorer) (candidate : RuntimeProfile) (colocated : List RuntimeProfile) :
    0 ≤ (s.score candidate colocated).score ∧ (s.score candidate colocated).score ≤ 100 := by
  rw [(s.score_score candidate colocated).1]
  obtain ⟨hlow, hhigh⟩ := clampScore_mem (100 - s.dampenedPenalty candidate colocated)
  exact mathRound_mem hlow (by exact_mod_cast hhigh)

/-- A larger penalty never means a larger score. -/
lemma score_anti {s s' : Scorer} {c c' : RuntimeProfile} {L L' : List RuntimeProfile}
    (h : s.dampenedPenalty c L ≤ s'.dampenedPenalty c' L') :
    (s'.score c' L').score ≤ (s.score c L).score := by
  rw [(s.score_score c L).1, (s'.score_score c' L').1, mathRound_of_nonneg (clampScore_mem _).1,
    mathRound_of_nonneg (clampScore_mem _).1]
  exact roundHalfUp_mono (clampScore_mono (by linarith))

end Scorer

/-! ## Pressure -/

/-- No weight is negative. -/
structure Weights.Nonneg (w : Weights) : Prop where
  cache : 0 ≤ w.cache
  lock : 0 ≤ w.lock
  pageFault : 0 ≤ w.pageFault
  ctxSwitch : 0 ≤ w.ctxSwitch

namespace RuntimeProfile

/-- The rates of `p` are at most those of `q`. -/
structure RatesLe (p q : RuntimeProfile) : Prop where
  cacheMissRate : p.cacheMissRate ≤ q.cacheMissRate
  lockContentionRatio : p.lockContentionRatio ≤ q.lockContentionRatio
  pageFaultRate : p.pageFaultRate ≤ q.pageFaultRate
  contextSwitchRate : p.contextSwitchRate ≤ q.contextSwitchRate

/-- No rate is negative. -/
structure NonnegRates (p : RuntimeProfile) : Prop where
  cacheMissRate : 0 ≤ p.cacheMissRate
  lockContentionRatio : 0 ≤ p.lockContentionRatio
  pageFaultRate : 0 ≤ p.pageFaultRate
  contextSwitchRate : 0 ≤ p.contextSwitchRate

/-- The rates a candidate's own score depends on are at most those of `q`. -/
structure CandidateLe (p q : RuntimeProfile) : Prop where
  lockContentionRatio : p.lockContentionRatio ≤ q.lockContentionRatio
  pageFaultRate : p.pageFaultRate ≤ q.pageFaultRate
  contextSwitchRate : p.contextSwitchRate ≤ q.contextSwitchRate

end RuntimeProfile

lemma confidenceDampeningFactor_nonneg (c : Confidence) : 0 ≤ confidenceDampeningFactor c := by
  cases c <;> norm_num [confidenceDampeningFactor]

namespace Scorer

/-- A scorer as `NewScorer` makes it from weights that are not negative. -/
structure WellFormed (s : Scorer) : Prop where
  weights : s.weights.Nonneg
  maxCacheMissRate : 0 < s.maxCacheMissRate
  maxPageFaultRate : 0 < s.maxPageFaultRate
  maxCtxSwitchRate : 0 < s.maxCtxSwitchRate

lemma wellFormed_newScorer {cfg : ScorerConfig} (h : cfg.weights.Nonneg) :
    (newScorer cfg).WellFormed := by
  have hmax : ∀ {x y : ℚ}, 0 < y → 0 < if x ≤ 0 then y else x := by
    intro x y hy
    split_ifs with hx
    · exact hy
    · exact not_le.mp hx
  exact ⟨h, hmax (by norm_num), hmax (by norm_num), hmax (by norm_num)⟩

variable {s : Scorer} {c c' p p' : RuntimeProfile}

/-- **One neighbour.**  Its penalty grows with its rates and with the candidate's. -/
lemma penalty_total_mono (hs : s.WellFormed) (hc : c.CandidateLe c') (hp : p.RatesLe p') :
    (s.penalty c p).total ≤ (s.penalty c' p').total := by
  obtain ⟨⟨hw₁, hw₂, hw₃, hw₄⟩, hm₁, hm₂, hm₃⟩ := hs
  obtain ⟨hp₁, hp₂, hp₃, hp₄⟩ := hp
  obtain ⟨hc₂, hc₃, hc₄⟩ := hc
  unfold penalty Penalties.total
  dsimp only
  gcongr

/-- A neighbour of rates that are not negative never earns a candidate of such rates anything. -/
lemma penalty_total_nonneg (hs : s.WellFormed) (hc : c.NonnegRates) (hp : p.NonnegRates) :
    0 ≤ (s.penalty c p).total := by
  obtain ⟨⟨hw₁, hw₂, hw₃, hw₄⟩, hm₁, hm₂, hm₃⟩ := hs
  obtain ⟨hp₁, hp₂, hp₃, hp₄⟩ := hp
  obtain ⟨hc₁, hc₂, hc₃, hc₄⟩ := hc
  unfold penalty Penalties.total
  dsimp only
  positivity

lemma effectiveCandidate_nonneg (hc : c.NonnegRates) : (effectiveCandidate c).NonnegRates := by
  unfold effectiveCandidate
  split_ifs
  · exact ⟨le_rfl, le_rfl, le_rfl, le_rfl⟩
  · exact hc

/-- Candidates of equal confidence are replaced alike. -/
lemma effectiveCandidate_le (hconf : c'.confidence = c.confidence) (hc : c.CandidateLe c') :
    (effectiveCandidate c).CandidateLe (effectiveCandidate c') ∧
      (effectiveCandidate c').confidence = (effectiveCandidate c).confidence := by
  unfold effectiveCandidate
  rw [hconf]
  split_ifs
  · exact ⟨⟨le_rfl, le_rfl, le_rfl⟩, rfl⟩
  · exact ⟨hc, hconf⟩

/-- A neighbour's part in the dampened penalty. -/
lemma dampenedPenalty_insert (s : Scorer) (c p : RuntimeProfile) (L₁ L₂ : List RuntimeProfile) :
    s.dampenedPenalty c (L₁ ++ p :: L₂) = s.dampenedPenalty c (L₁ ++ L₂)
      + (if p.confidence = .unknown then 0
        else (s.penalty (effectiveCandidate c) p).total
          * confidenceDampeningFactor (effectiveCandidate c).confidence) := by
  rw [dampenedPenalty_eq, dampenedPenalty_eq]
  split_ifs with hp
  · simp [hp]
  · simp only [List.filter_append, List.filter_cons, hp, ne_eq, not_false_eq_true, decide_true,
      if_true, List.map_append, List.map_cons, List.sum_append, List.sum_cons]
    ring

/-- The dampened penalty grows with the candidate's rates. -/
lemma dampenedPenalty_candidate (hs : s.WellFormed) (hconf : c'.confidence = c.confidence)
    (hc : c.CandidateLe c') (L : List RuntimeProfile) :
    s.dampenedPenalty c L ≤ s.dampenedPenalty c' L := by
  obtain ⟨hle, heq⟩ := effectiveCandidate_le hconf hc
  rw [dampenedPenalty_eq, dampenedPenalty_eq, heq]
  refine mul_le_mul_of_nonneg_right ?_ (confidenceDampeningFactor_nonneg _)
  exact List.sum_le_sum (fun p _ => penalty_total_mono hs hle ⟨le_rfl, le_rfl, le_rfl, le_rfl⟩)

end Scorer

/-- **The score respects the order of interference.**  With weights and candidate rates that are
not negative: permuting the neighbours and inserting or removing a profile of unknown confidence
leave the score as it is; inserting a known profile of rates that are not negative, raising rates
of a known neighbour, and raising the candidate's lock, page-fault or context-switch rate at the
same confidence never increase it. -/
theorem score_respects_interference (cfg : ScorerConfig) (hw : cfg.weights.Nonneg)
    (candidate : RuntimeProfile) (hc : candidate.NonnegRates) :
    let score := fun (c : RuntimeProfile) (L : List RuntimeProfile) =>
      ((newScorer cfg).score c L).score
    (∀ L L' : List RuntimeProfile, L.Perm L' → score candidate L' = score candidate L) ∧
      (∀ (L₁ L₂ : List RuntimeProfile) (p : RuntimeProfile), p.confidence = .unknown →
        score candidate (L₁ ++ p :: L₂) = score candidate (L₁ ++ L₂)) ∧
      (∀ (L₁ L₂ : List RuntimeProfile) (p : RuntimeProfile), p.confidence ≠ .unknown →
        p.NonnegRates → score candidate (L₁ ++ p :: L₂) ≤ score candidate (L₁ ++ L₂)) ∧
      (∀ (L₁ L₂ : List RuntimeProfile) (p p' : RuntimeProfile), p.confidence ≠ .unknown →
        p'.confidence = p.confidence → p.RatesLe p' →
        score candidate (L₁ ++ p' :: L₂) ≤ score candidate (L₁ ++ p :: L₂)) ∧
      ∀ (L : List RuntimeProfile) (c' : RuntimeProfile), c'.confidence = candidate.confidence →
        candidate.CandidateLe c' → score c' L ≤ score candidate L := by
  intro score
  have hs := Scorer.wellFormed_newScorer hw
  refine ⟨fun L L' hperm => ?_, fun L₁ L₂ p hp => ?_, fun L₁ L₂ p hp hrates => ?_,
    fun L₁ L₂ p p' hp hconf hle => ?_, fun L c' hconf hle => ?_⟩
  · exact congrArg ScoreResult.score ((newScorer cfg).score_perm candidate hperm.symm)
  · have heq := (newScorer cfg).dampenedPenalty_insert candidate p L₁ L₂
    rw [if_pos hp, add_zero] at heq
    exact le_antisymm (Scorer.score_anti heq.ge) (Scorer.score_anti heq.le)
  · apply Scorer.score_anti
    rw [Scorer.dampenedPenalty_insert, if_neg hp]
    have hpenalty := Scorer.penalty_total_nonneg hs (Scorer.effectiveCandidate_nonneg hc) hrates
    exact le_add_of_nonneg_right (mul_nonneg hpenalty (confidenceDampeningFactor_nonneg _))
  · apply Scorer.score_anti
    rw [Scorer.dampenedPenalty_insert, Scorer.dampenedPenalty_insert, if_neg hp,
      if_neg (hconf ▸ hp)]
    have hpenalty := Scorer.penalty_total_mono (c := Scorer.effectiveCandidate candidate) hs
      ⟨le_rfl, le_rfl, le_rfl⟩ hle
    exact add_le_add le_rfl
      (mul_le_mul_of_nonneg_right hpenalty (confidenceDampeningFactor_nonneg _))
  · exact Scorer.score_anti (Scorer.dampenedPenalty_candidate hs hconf hle L)

/-- A new workload beside a cache-thrashing neighbour: it scores less than on the empty node. -/
theorem score_respects_interference_thrasher :
    let newApp : RuntimeProfile :=
      ⟨"default/Deployment/new-app", 0, 0, 0, 0, 0, none, none, .unknown⟩
    let thrasher : RuntimeProfile :=
      ⟨"default/Deployment/thrasher", 0, 900000, 0, 0, 5000, none, none, .high⟩
    ((newScorer defaultScorerConfig).score newApp ([] ++ thrasher :: [])).score
        ≤ ((newScorer defaultScorerConfig).score newApp ([] ++ [])).score ∧
      ((newScorer defaultScorerConfig).score newApp [thrasher]).score = 69 := by
  intro newApp thrasher
  refine ⟨(score_respects_interference defaultScorerConfig ?_ newApp ?_).2.2.1 [] [] thrasher
    (by decide) ?_, by decide +kernel⟩
  · constructor <;> norm_num [defaultScorerConfig, defaultWeights]
  · constructor <;> norm_num [newApp]
  · constructor <;> norm_num [thrasher]

end Akil
