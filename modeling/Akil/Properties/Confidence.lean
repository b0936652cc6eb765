import Akil.Properties.Score

/-!
# What trust in the candidate's own profile costs it

Dampening scales the whole penalty, so among the known confidences more trust never means a higher
score.  A candidate of unknown confidence is not dampened at all: `Score` replaces it by a quiet
workload of high confidence, so that its neighbours' pressure counts in full and its own not at
all.  The penalty of a known candidate splits into its own share and its neighbours' share
(`Scorer.dampenedPenalty_known`), the penalty of an unknown one is the neighbours' share alone
(`Scorer.dampenedPenalty_unknown`), and `score_confidence` compares the two.
-/

namespace Akil

/-- The value of the `Confidence` constant, by which the levels are ordered. -/
def Confidence.toNat : Confidence → ℕ
  | .unknown => 0
  | .low => 1
  | .medium => 2
  | .high => 3

/-- More trust, less dampening. -/
lemma confidenceDampeningFactor_mono {c₁ c₂ : Confidence} (h : c₁.toNat ≤ c₂.toNat) :
    confidenceDampeningFactor c₁ ≤ confidenceDampeningFactor c₂ := by
  revert h
  cases c₁ <;> cases c₂ <;> norm_num [confidenceDampeningFactor, Confidence.toNat]

namespace Scorer

/-- What one known neighbour costs a candidate on account of the candidate's own rates. -/
def ownPenalty (s : Scorer) (candidate : RuntimeProfile) : ℚ :=
  candidate.lockContentionRatio * s.weights.lock
    + candidate.pageFaultRate / s.maxPageFaultRate * s.weights.pageFault
    + candidate.contextSwitchRate / s.maxCtxSwitchRate * s.weights.ctxSwitch

/-- What one neighbour costs any candidate on account of its own rates. -/
def neighbourPenalty (s : Scorer) (p : RuntimeProfile) : ℚ :=
  p.cacheMissRate / s.maxCacheMissRate * s.weights.cache
    + p.lockContentionRatio * s.weights.lock
    + p.pageFaultRate / s.maxPageFaultRate * s.weights.pageFault
    + p.contextSwitchRate / s.maxCtxSwitchRate * s.weights.ctxSwitch

/-- The candidate's share of the undampened penalty. -/
def ownShare (s : Scorer) (candidate : RuntimeProfile) (colocated : List RuntimeProfile) : ℚ :=
  ((colocated.filter (fun p => p.confidence ≠ .unknown)).map
    (fun _ => s.ownPenalty candidate)).sum

/-- The neighbours' share of the undampened penalty. -/
def neighbourShare (s : Scorer) (colocated : List RuntimeProfile) : ℚ :=
  ((colocated.filter (fun p => p.confidence ≠ .unknown)).map s.neighbourPenalty).sum

lemma penalty_total (s : Scorer) (candidate p : RuntimeProfile) :
    (s.penalty candidate p).total = s.ownPenalty candidate + s.neighbourPenalty p := by
  unfold penalty Penalties.total ownPenalty neighbourPenalty
  ring

/-- A candidate of known confidence: both shares, dampened alike. -/
lemma dampenedPenalty_known (s : Scorer) {candidate : RuntimeProfile}
    (h : candidate.confidence ≠ .unknown) (colocated : List RuntimeProfile) :
    s.dampenedPenalty candidate colocated
      = (s.ownShare candidate colocated + s.neighbourShare colocated)
        * confidenceDampeningFactor candidate.confidence := by
  have heff : effectiveCandidate candidate = candidate := if_neg h
  rw [dampenedPenalty_eq, heff, ownShare, neighbourShare, ← List.sum_map_add]
  simp only [penalty_total]

/-- A candidate of unknown confidence: the neighbours' share, undampened. -/
lemma dampenedPenalty_unknown (s : Scorer) {candidate : RuntimeProfile}
    (h : candidate.confidence = .unknown) (colocated : List RuntimeProfile) :
    s.dampenedPenalty candidate colocated = s.neighbourShare colocated := by
  have hown : s.ownPenalty (effectiveCandidate candidate) = 0 := by
    rw [effectiveCandidate, if_pos h, ownPenalty]
    ring
  have hhigh : (effectiveCandidate candidate).confidence = .high := by
    rw [effectiveCandidate, if_pos h]
  rw [dampenedPenalty_eq, hhigh, neighbourShare, confidenceDampeningFactor, mul_one]
  simp only [penalty_total, hown, zero_add]

/-! ## The shares are not negative -/

variable {s : Scorer} {candidate : RuntimeProfile} {colocated : List RuntimeProfile}

lemma ownShare_nonneg (hs : s.WellFormed) (hc : candidate.NonnegRates) :
    0 ≤ s.ownShare candidate colocated := by
  obtain ⟨⟨hw₁, hw₂, hw₃, hw₄⟩, hm₁, hm₂, hm₃⟩ := hs
  obtain ⟨hc₁, hc₂, hc₃, hc₄⟩ := hc
  have hown : 0 ≤ s.ownPenalty candidate := by
    unfold ownPenalty
    positivity
  refine List.sum_nonneg ?_
  intro x hx
  obtain ⟨p, -, rfl⟩ := List.mem_map.mp hx
  exact hown

lemma neighbourShare_nonneg (hs : s.WellFormed) (hp : ∀ p ∈ colocated, p.NonnegRates) :
    0 ≤ s.neighbourShare colocated := by
  obtain ⟨⟨hw₁, hw₂, hw₃, hw₄⟩, hm₁, hm₂, hm₃⟩ := hs
  refine List.sum_nonneg ?_
  intro x hx
  obtain ⟨p, hmem, rfl⟩ := List.mem_map.mp hx
  obtain ⟨hp₁, hp₂, hp₃, hp₄⟩ := hp p (List.mem_of_mem_filter hmem)
  unfold neighbourPenalty
  positivity

end Scorer

/-- **Trust and the score.**  With weights and rates that are not negative, and the same rates at
every confidence: from `Low` upwards more trust never means a higher score.  `Unknown` leaves the
candidate's own rates out and counts its neighbours' in full; it costs no more than `High`, and no
more than the known level `c` exactly when what dampening at `c` forgives of the neighbours' share
is at most what is left of the candidate's own. -/
theorem score_confidence (cfg : ScorerConfig) (hw : cfg.weights.Nonneg)
    (candidate : RuntimeProfile) (hc : candidate.NonnegRates) (colocated : List RuntimeProfile)
    (hp : ∀ p ∈ colocated, p.NonnegRates) :
    let s := newScorer cfg
    let score := fun c : Confidence => s.score { candidate with confidence := c } colocated
    (∀ c₁ c₂ : Confidence, c₁ ≠ .unknown → c₁.toNat ≤ c₂.toNat →
        (score c₂).score ≤ (score c₁).score) ∧
      (score .high).score ≤ (score .unknown).score ∧
      ∀ c : Confidence, c ≠ .unknown →
        ((score .unknown).totalPenalty ≤ (score c).totalPenalty ↔
          (1 - confidenceDampeningFactor c) * s.neighbourShare colocated
            ≤ confidenceDampeningFactor c * s.ownShare candidate colocated) ∧
        ((1 - confidenceDampeningFactor c) * s.neighbourShare colocated
            ≤ confidenceDampeningFactor c * s.ownShare candidate colocated →
          (score c).score ≤ (score .unknown).score) := by
  intro s score
  have hs : s.WellFormed := Scorer.wellFormed_newScorer hw
  have hown : 0 ≤ s.ownShare candidate colocated := Scorer.ownShare_nonneg hs hc
  have hnear : 0 ≤ s.neighbourShare colocated := Scorer.neighbourShare_nonneg hs hp
  have hknown : ∀ c : Confidence, c ≠ .unknown →
      s.dampenedPenalty { candidate with confidence := c } colocated
        = (s.ownShare candidate colocated + s.neighbourShare colocated)
          * confidenceDampeningFactor c := by
    intro c hne
    exact Scorer.dampenedPenalty_known s hne colocated
  have hunknown : s.dampenedPenalty { candidate with confidence := .unknown } colocated
      = s.neighbourShare colocated := s.dampenedPenalty_unknown rfl _
  have hcross : ∀ c : Confidence, c ≠ .unknown →
      (s.dampenedPenalty { candidate with confidence := .unknown } colocated
          ≤ s.dampenedPenalty { candidate with confidence := c } colocated ↔
        (1 - confidenceDampeningFactor c) * s.neighbourShare colocated
          ≤ confidenceDampeningFactor c * s.ownShare candidate colocated) := by
    intro c hne
    rw [hknown c hne, hunknown]
    constructor <;> intro h <;> linarith
  refine ⟨fun c₁ c₂ hne hle => ?_, ?_, fun c hne => ⟨?_, fun hshare => ?_⟩⟩
  · have hne₂ : c₂ ≠ .unknown := by
      rintro rfl
      cases c₁ <;> simp [Confidence.toNat] at hne hle
    refine Scorer.score_anti ?_
    rw [hknown c₁ hne, hknown c₂ hne₂]
    exact mul_le_mul_of_nonneg_left (confidenceDampeningFactor_mono hle) (add_nonneg hown hnear)
  · refine Scorer.score_anti ((hcross .high (by simp)).mpr ?_)
    norm_num [confidenceDampeningFactor]
    exact hown
  · simp only [score, (s.score_score _ colocated).2]
    exact hcross c hne
  · exact Scorer.score_anti ((hcross c hne).mpr hshare)

/-- A busy workload beside a quiet one: `High` costs it more than `Low`, and `Low` more than
`Unknown`, for nothing but its own rates counts. -/
theorem score_confidence_busy :
    let busy : RuntimeProfile := ⟨"default/Deployment/busy", 3000, 0, 1 / 5, 3000, 50, none, none,
      .unknown⟩
    let quiet : RuntimeProfile := ⟨"default/Deployment/quiet", 0, 0, 0, 0, 5000, none, none, .high⟩
    let score := fun c : Confidence =>
      ((newScorer defaultScorerConfig).score { busy with confidence := c } [quiet]).score
    score .high ≤ score .low ∧ score .low ≤ score .unknown ∧
      score .high = 84 ∧ score .low = 96 ∧ score .unknown = 100 := by
  intro busy quiet score
  have hspec := score_confidence defaultScorerConfig
    (by constructor <;> norm_num [defaultScorerConfig, defaultWeights]) busy
    (by constructor <;> norm_num [busy]) [quiet]
    (by
      intro p hp
      obtain rfl := List.mem_singleton.mp hp
      constructor <;> norm_num [quiet])
  refine ⟨hspec.1 .low .high (by simp) (by simp [Confidence.toNat]),
    (hspec.2.2 .low (by simp)).2 ?_, by decide +kernel, by decide +kernel, by decide +kernel⟩
  decide +kernel

/-- Less trust can cost points: beside a cache-thrashing neighbour a workload without a profile
scores 69, and the same workload with a few samples and the same rates 92. -/
theorem score_unknown_lt_low :
    ¬ ∀ (candidate : RuntimeProfile) (colocated : List RuntimeProfile) (c₁ c₂ : Confidence),
      candidate.NonnegRates → (∀ p ∈ colocated, p.NonnegRates) → c₁.toNat ≤ c₂.toNat →
      ((newScorer defaultScorerConfig).score { candidate with confidence := c₂ } colocated).score
        ≤ ((newScorer defaultScorerConfig).score
            { candidate with confidence := c₁ } colocated).score := by
  intro h
  have hlow := h ⟨"default/Deployment/new-app", 0, 0, 0, 0, 0, none, none, .unknown⟩
    [⟨"default/Deployment/thrasher", 0, 900000, 0, 0, 5000, none, none, .high⟩] .unknown .low
    (by constructor <;> norm_num)
    (by
      intro p hp
      obtain rfl := List.mem_singleton.mp hp
      constructor <;> norm_num)
    (by simp [Confidence.toNat])
  revert hlow
  decide +kernel

end Akil
