import Akil.Construction.Frontend.Demo
import Akil.Properties.PageWindow

/-!
# The decisions of the live demo

The demo is there to show that two schedulers part ways for a reason.  Its script promises that
they agree on a quiet cluster, and that once a noisy neighbour is warm the stock scheduler still
picks the neighbour's node while AKIL does not.  `demo_decisions` is about any state of the page,
whatever profiles it has polled; `demo_avoids_noisy` takes the profiles from a run of the page's own
backend, whose windows are exact (`Shows.profiles_eq`).
-/

namespace Akil.Frontend

namespace Demo

/-! ## The greatest row -/

variable {f : Row → ℤ} {r : Row} {rows : List Row}

/-- The first row wins if no later one is greater. -/
lemma best_eq_head (h : ∀ r' ∈ rows, f r' ≤ f r) : best f (r :: rows) = r.node := by
  rw [best]
  induction rows with
  | nil => rfl
  | cons r' rows ih =>
      rw [List.forall_mem_cons] at h
      rw [List.foldl_cons, if_neg (not_lt.mpr h.1)]
      exact ih h.2

/-- No row is greater than the one that wins. -/
lemma best_spec (f : Row → ℤ) (r : Row) (rows : List Row) :
    ∃ r' ∈ r :: rows, best f (r :: rows) = r'.node ∧ ∀ r'' ∈ r :: rows, f r'' ≤ f r' := by
  induction rows generalizing r with
  | nil => exact ⟨r, List.mem_cons_self, rfl, by simp⟩
  | cons r' rows ih =>
      have hstep : best f (r :: r' :: rows) = best f ((if f r' > f r then r' else r) :: rows) := rfl
      rw [hstep]
      obtain ⟨w, hw, hbest, hmax⟩ := ih (if f r' > f r then r' else r)
      rw [List.forall_mem_cons] at hmax
      have hle : f r ≤ f (if f r' > f r then r' else r) ∧
          f r' ≤ f (if f r' > f r then r' else r) := by
        split_ifs with hlt
        · exact ⟨hlt.le, le_rfl⟩
        · exact ⟨le_rfl, not_lt.mp hlt⟩
      refine ⟨w, ?_, hbest, ?_⟩
      · rcases List.mem_cons.mp hw with rfl | hw
        · split_ifs <;> simp
        · simp [hw]
      · rw [List.forall_mem_cons, List.forall_mem_cons]
        exact ⟨hle.1.trans hmax.1, hle.2.trans hmax.1, hmax.2⟩

/-! ## The rows -/

variable (c : Demo)

/-- Whether a workload runs or still shows. -/
def resident (w : DemoWorkload) : Bool :=
  c.isOn w || decide (((c.byKey w.key).map Profile.samples).getD 0 > 0)

lemma residents_eq (node : String) :
    c.residents node
      = (if batchEtl.node = node ∧ c.resident batchEtl then [batchEtl] else [])
        ++ (if logShipper.node = node ∧ c.resident logShipper then [logShipper] else [])
        ++ (if noisy.node = node ∧ c.resident noisy then [noisy] else []) := by
  have hfilter : c.residents node
      = (calm ++ [noisy]).filter (fun w => w.node = node && c.resident w) := rfl
  simp only [hfilter, calm, List.cons_append, List.nil_append, List.filter_cons, List.filter_nil,
    Bool.and_eq_true, decide_eq_true_eq]
  split_ifs <;> rfl

/-- Every workload has a node of its own. -/
lemma residents_of_mem {w : DemoWorkload} (hw : w ∈ calm ++ [noisy]) :
    c.residents w.node = if c.resident w then [w] else [] := by
  have h : batchEtl.node = "node-2" ∧ logShipper.node = "node-3" ∧ noisy.node = "node-1" :=
    ⟨rfl, rfl, rfl⟩
  have hw : w = batchEtl ∨ w = logShipper ∨ w = noisy := by simpa [calm] using hw
  rcases hw with rfl | rfl | rfl <;> simp [residents_eq, h.1, h.2.1, h.2.2]

/-- The free share of a node with its workload and the candidate, in per cent. -/
def freeShare (used : ℤ) : ℤ :=
  roundHalfUp (((4000 - used - candidateCpuRequest : ℤ) : ℚ) / 4000 * 100)

lemma freeShare_values :
    freeShare 0 = 98 ∧ freeShare 100 = 95 ∧ freeShare 1500 = 60 ∧ freeShare 1200 = 68 := by
  norm_num [freeShare, roundHalfUp, candidateCpuRequest, Int.floor_eq_iff]

/-- The row of a workload's node. -/
lemma row_of_mem {w : DemoWorkload} (hw : w ∈ calm ++ [noisy]) :
    (c.row ⟨w.node, 4000⟩).defaultScore = freeShare (if c.resident w then w.cpuRequest else 0) ∧
      (c.row ⟨w.node, 4000⟩).residents = (if c.resident w then [w.name] else []) ∧
      (c.row ⟨w.node, 4000⟩).akil
        = score candidate ((if c.resident w then (c.byKey w.key).toList else []).filter
            (fun p => p.samples > 0)) := by
  have hres := c.residents_of_mem hw
  unfold row colocated
  dsimp only
  rw [hres]
  split_ifs with h
  · refine ⟨by simp [freeShare], rfl, ?_⟩
    cases hkey : c.byKey w.key <;> simp [hkey]
  · exact ⟨by simp [freeShare], rfl, rfl⟩

/-- A workload with samples is scored against. -/
lemma akil_row_of_samples {w : DemoWorkload} (hw : w ∈ calm ++ [noisy]) {p : Profile}
    (hp : c.byKey w.key = some p) (hsamples : 0 < p.samples) :
    (c.row ⟨w.node, 4000⟩).akil = score candidate [p] := by
  have hresident : c.resident w = true := by simp [resident, hp, hsamples]
  rw [(c.row_of_mem hw).2.2, if_pos hresident, hp, Option.toList_some, List.filter_singleton]
  simp [hsamples]

/-- A node has the score of an empty one, or its workload has samples. -/
lemma akil_row_cases {w : DemoWorkload} (hw : w ∈ calm ++ [noisy]) :
    (c.row ⟨w.node, 4000⟩).akil = score candidate [] ∨
      ∃ p, c.byKey w.key = some p ∧ 0 < p.samples := by
  rw [(c.row_of_mem hw).2.2]
  cases hp : c.byKey w.key with
  | none => exact .inl (by simp)
  | some p =>
      by_cases hsamples : 0 < p.samples
      · exact .inr ⟨p, rfl, hsamples⟩
      · refine .inl ?_
        split_ifs <;> simp [hsamples]

/-- The three rows, node by node. -/
lemma rows_eq (id : ℤ) :
    (c.schedule id).rows
      = [c.row ⟨noisy.node, 4000⟩, c.row ⟨batchEtl.node, 4000⟩, c.row ⟨logShipper.node, 4000⟩] :=
  rfl

lemma score_mem (candidate : Profile) (colocated : List Profile) :
    0 ≤ (score candidate colocated).score ∧ (score candidate colocated).score ≤ 100 := by
  unfold score
  dsimp only
  split_ifs with hempty
  · norm_num
  · have hround : roundHalfUp (0 : ℚ) = 0 ∧ roundHalfUp (100 : ℚ) = 100 := by
      norm_num [roundHalfUp, Int.floor_eq_iff]
    exact ⟨hround.1 ▸ roundHalfUp_mono (le_max_left _ _),
      hround.2 ▸ roundHalfUp_mono (max_le (by norm_num) (min_le_left _ _))⟩

/-- The stock score of a row is one of four. -/
lemma defaultScore_mem {r : Row} (id : ℤ) (hr : r ∈ (c.schedule id).rows) :
    60 ≤ r.defaultScore ∧ r.defaultScore ≤ 98 ∧ 0 ≤ r.akil.score ∧ r.akil.score ≤ 100 := by
  obtain ⟨h0, h100, h1500, h1200⟩ := freeShare_values
  have hrow : ∀ w ∈ calm ++ [noisy], r = c.row ⟨w.node, 4000⟩ →
      (freeShare w.cpuRequest = 95 ∨ freeShare w.cpuRequest = 60 ∨ freeShare w.cpuRequest = 68) →
      60 ≤ r.defaultScore ∧ r.defaultScore ≤ 98 ∧ 0 ≤ r.akil.score ∧ r.akil.score ≤ 100 := by
    rintro w hw rfl hshare
    obtain ⟨hdefault, -, hakil⟩ := c.row_of_mem hw
    rw [hdefault, hakil]
    refine ⟨?_, ?_, score_mem _ _⟩ <;> split_ifs <;> omega
  rw [rows_eq] at hr
  simp only [List.mem_cons, List.not_mem_nil, or_false] at hr
  rcases hr with hr | hr | hr
  · exact hrow noisy (by simp) hr (.inl h100)
  · exact hrow batchEtl (by simp [calm]) hr (.inr (.inl h1500))
  · exact hrow logShipper (by simp [calm]) hr (.inr (.inr h1200))

/-- Nothing of the noisy neighbour shows. -/
lemma row_quiet {id : ℤ} (h : (c.schedule id).noisyPresent = false) :
    (c.row ⟨noisy.node, 4000⟩).defaultScore = 98 ∧
      (c.row ⟨noisy.node, 4000⟩).akil.score = 100 := by
  obtain ⟨hdefault, hresidents, hakil⟩ := c.row_of_mem (w := noisy) (by simp)
  have hquiet : c.resident noisy = false := by
    by_contra hshows
    rw [if_pos (by simpa using hshows)] at hresidents
    have hpresent : (c.schedule id).noisyPresent
        = (c.schedule id).rows.any (fun r => noisy.name ∈ r.residents) := rfl
    rw [hpresent, rows_eq, List.any_cons, hresidents] at h
    simp at h
  rw [hdefault, hakil, hquiet]
  exact ⟨freeShare_values.1, rfl⟩

/-- The noisy neighbour asks for less than the ordinary workloads. -/
lemma defaultScore_le {r : Row} {id : ℤ} (hcalm : ∀ w ∈ calm, w ∈ c.residents w.node)
    (hr : r ∈ (c.schedule id).rows) :
    r.defaultScore ≤ (c.row ⟨noisy.node, 4000⟩).defaultScore := by
  obtain ⟨h0, h100, h1500, h1200⟩ := freeShare_values
  have hnoisy : 95 ≤ (c.row ⟨noisy.node, 4000⟩).defaultScore := by
    rw [(c.row_of_mem (w := noisy) (by simp)).1]
    split_ifs
    · exact h100.ge
    · omega
  have hrow : ∀ w ∈ calm, (c.row ⟨w.node, 4000⟩).defaultScore = freeShare w.cpuRequest := by
    intro w hw
    have hmem := List.mem_append_left [noisy] hw
    have hresident : c.resident w = true := by
      by_contra hnot
      have hshows := hcalm w hw
      rw [c.residents_of_mem hmem, if_neg hnot] at hshows
      cases hshows
    rw [(c.row_of_mem hmem).1, if_pos hresident]
  have hetl := (hrow batchEtl (by simp [calm])).trans h1500
  have hlog := (hrow logShipper (by simp [calm])).trans h1200
  rw [rows_eq] at hr
  simp only [List.mem_cons, List.not_mem_nil, or_false] at hr
  rcases hr with rfl | rfl | rfl
  · exact le_rfl
  · omega
  · omega

/-- No row has a greater value than that of `node-1`. -/
lemma best_eq_node1 {f : Row → ℤ} (id : ℤ)
    (h : ∀ r ∈ (c.schedule id).rows, f r ≤ f (c.row ⟨noisy.node, 4000⟩)) :
    best f (c.schedule id).rows = "node-1" :=
  best_eq_head (fun r hr => h r (List.mem_cons_of_mem _ hr))

/-- AKIL's pick is greatest in the lexicographic order. -/
lemma akilPick_spec (id : ℤ) :
    ∃ r ∈ (c.schedule id).rows, (c.schedule id).akilPick = r.node ∧
      ∀ r' ∈ (c.schedule id).rows, r'.akil.score < r.akil.score ∨
        (r'.akil.score = r.akil.score ∧ r'.defaultScore ≤ r.defaultScore) := by
  obtain ⟨r, hr, hpick, hmax⟩ := best_spec (fun r => r.akil.score * 1000 + r.defaultScore)
    (c.row ⟨noisy.node, 4000⟩) [c.row ⟨batchEtl.node, 4000⟩, c.row ⟨logShipper.node, 4000⟩]
  refine ⟨r, hr, hpick, fun r' hr' => ?_⟩
  have hle := hmax r' hr'
  have hr := c.defaultScore_mem id hr
  have hr' := c.defaultScore_mem id hr'
  omega

/-- When nothing of the noisy neighbour shows. -/
lemma picks_of_quiet {id : ℤ} (h : (c.schedule id).noisyPresent = false) :
    (c.schedule id).defaultPick = "node-1" ∧ (c.schedule id).akilPick = "node-1" := by
  obtain ⟨hdefault, hakil⟩ := c.row_quiet h
  constructor
  · refine c.best_eq_node1 id (fun r hr => ?_)
    have := c.defaultScore_mem id hr
    omega
  · refine c.best_eq_node1 id (fun r hr => ?_)
    have := c.defaultScore_mem id hr
    omega

/-- When the ordinary workloads show. -/
lemma picks_of_calm (hcalm : ∀ w ∈ calm, w ∈ c.residents w.node) (id : ℤ) :
    (c.schedule id).defaultPick = "node-1" ∧
      ((c.schedule id).akilPick = "node-1" ↔
        ∀ r ∈ (c.schedule id).rows, r.akil.score ≤ (c.row ⟨noisy.node, 4000⟩).akil.score) := by
  refine ⟨c.best_eq_node1 id (fun r hr => c.defaultScore_le hcalm hr), fun hpick r hr => ?_,
    fun hscore => ?_⟩
  · obtain ⟨w, hw, hwpick, hmax⟩ := c.akilPick_spec id
    have hnode : w.node = "node-1" := hwpick.symm.trans hpick
    -- The rows have different nodes.
    have hfirst : w = c.row ⟨noisy.node, 4000⟩ := by
      rcases List.mem_cons.mp hw with rfl | hw
      · rfl
      · rcases List.mem_cons.mp hw with rfl | hw
        · exact absurd hnode (by decide : ("node-2" : String) ≠ "node-1")
        · rw [List.mem_singleton.mp hw] at hnode
          exact absurd hnode (by decide : ("node-3" : String) ≠ "node-1")
    have hle := hmax r hr
    rw [hfirst] at hle
    exact hle.elim le_of_lt (fun h => h.1.le)
  · refine c.best_eq_node1 id (fun r hr => ?_)
    have hle := hscore r hr
    have hdefault := c.defaultScore_le hcalm hr
    omega

end Demo

/-- **The decisions of the page.**  Whatever profiles the page has polled, the stock pick is a node
with the greatest free share, and AKIL's a node with the greatest AKIL score and among those the
greatest free share.  When nothing of the noisy neighbour shows, both pick `node-1`.  When the
two ordinary workloads show, the stock scheduler picks `node-1` all the same, and AKIL leaves it
exactly if it scores it below another node. -/
theorem demo_decisions (c : Demo) (id : ℤ) :
    let d := c.schedule id
    (∃ r ∈ d.rows, d.defaultPick = r.node ∧ ∀ r' ∈ d.rows, r'.defaultScore ≤ r.defaultScore) ∧
      (∃ r ∈ d.rows, d.akilPick = r.node ∧ ∀ r' ∈ d.rows, r'.akil.score < r.akil.score ∨
        (r'.akil.score = r.akil.score ∧ r'.defaultScore ≤ r.defaultScore)) ∧
      (d.noisyPresent = false → d.defaultPick = "node-1" ∧ d.akilPick = "node-1") ∧
      ((∀ w ∈ calm, w ∈ c.residents w.node) → d.defaultPick = "node-1" ∧
        (d.akilPick = "node-1" ↔
          ∀ r ∈ d.rows, r.akil.score ≤ (c.row ⟨"node-1", 4000⟩).akil.score)) :=
  ⟨Demo.best_spec _ _ _, c.akilPick_spec id, c.picks_of_quiet,
    fun hcalm => c.picks_of_calm hcalm id⟩

/-! ## Profiles from the page's own backend -/

/-- What a neighbour of known profile costs the candidate. -/
def penaltyOf (p : Profile) : ℚ :=
  p.cacheMissRate / 10 ^ 6 * 35 + (4 / 100 + p.lockRatio) * 30
    + (350 + p.pageFaultRate) / 10 ^ 4 * 20 + (2500 + p.ctxSwitchRate) / 10 ^ 4 * 15

lemma score_singleton {p : Profile} (h : p.confidence ≠ .unknown) :
    (score candidate [p]).score = roundHalfUp (max 0 (min 100 (100 - penaltyOf p))) := by
  have hfilter : [p].filter (fun p => p.confidence ≠ .unknown) = [p] := by simp [h]
  have hquiet : quietIfUnknown candidate = candidate := if_neg (by decide)
  rw [score, hquiet, hfilter]
  dsimp only [List.length_singleton]
  rw [if_neg (by decide)]
  simp only [List.foldl_cons, List.foldl_nil, addNeighbour, candidate, dampening, weights, maxCache,
    maxPageFault, maxCtxSwitch, penaltyOf]
  ring_nf

lemma key_inj : ∀ d ∈ calm ++ [noisy], ∀ d' ∈ calm ++ [noisy], d'.key = d.key → d' = d := by
  decide +kernel

/-- The injections of a workload all have its counts. -/
lemma counts_of_mem_kept {calls : List (ℤ × LocalCall)}
    (hspecs : ∀ call ∈ calls, ∀ w, call.2 = .record w →
      ∃ d ∈ calm ++ [noisy], w = d.toWorkloadSpec)
    {d : DemoWorkload} (hd : d ∈ calm ++ [noisy]) :
    ∀ e ∈ keptInjections d.key calls, e.counts = d.counts := by
  induction calls using List.reverseRecOn with
  | nil => simp [keptInjections]
  | append_singleton calls call ih =>
      rw [List.forall_mem_append, List.forall_mem_singleton] at hspecs
      have hkept : keptInjections d.key (calls ++ [call])
          = keepInjections d.key (keptInjections d.key calls) call := List.foldl_concat ..
      obtain ⟨now, call⟩ := call
      rw [hkept, keepInjections]
      cases call with
      | record w =>
          dsimp only
          split_ifs with hkey
          · obtain ⟨d', hd', rfl⟩ := hspecs.2 w rfl
            rw [List.forall_mem_append, List.forall_mem_singleton, key_inj d hd d' hd' hkey]
            exact ⟨ih hspecs.1, rfl⟩
          · exact ih hspecs.1
      | reset key =>
          dsimp only
          split_ifs with hkey
          · simp
          · exact ih hspecs.1
      | profiles => exact ih hspecs.1
      | setAutoscale on => exact ih hspecs.1
      | autoscaleTick => exact ih hspecs.1

/-- Equal injections add up. -/
lemma sumCounts_of_forall {es : List LogEntry} {k : Counts ℤ} (h : ∀ e ∈ es, e.counts = k) :
    sumCounts es = ⟨es.length * k.eventCount, es.length * k.pageFaults, es.length * k.cacheMisses,
      es.length * k.lockDurationNs, es.length * k.ctxSwitches⟩ := by
  induction es with
  | nil => ext <;> simp [sumCounts]
  | cons e es ih =>
      rw [List.forall_mem_cons] at h
      have hsum : sumCounts (e :: es) = e.counts + sumCounts es := by simp [sumCounts]
      rw [hsum, ih h.2, h.1]
      ext <;> simp <;> ring

/-- The map of a list with one profile under the key, or none. -/
lemma Demo.byKey_eq {c : Demo} {key : String} {p : Option Profile}
    (h : c.profiles.filter (fun p => p.key = key) = p.toList) : c.byKey key = p := by
  rw [Demo.byKey, ← List.head?_filter, List.filter_reverse, h]
  cases p <;> rfl

section Run

variable {start now : ℤ} {calls : List (ℤ × LocalCall)}

/-- The rates the page shows for a workload: those of its shown injections. -/
lemma byKey_run (hclock : NondecreasingFrom start calls) (hnow : lastTime start calls ≤ now)
    (hspecs : ∀ call ∈ calls, ∀ w, call.2 = .record w →
      ∃ d ∈ calm ++ [noisy], w = d.toWorkloadSpec)
    {d : DemoWorkload} (hd : d ∈ calm ++ [noisy]) (c : Demo)
    (hprofiles : c.profiles = (((LocalBackend.new start).run calls).profiles now).1) {p : Profile}
    (hp : c.byKey d.key = some p) :
    let n : ℚ := (shownInjections d.key start calls now).length
    p.cacheMissRate = n * d.cacheMisses / 12 ∧ p.lockRatio = n * d.lockNs / (12 * 10 ^ 9) ∧
      p.pageFaultRate = n * d.pageFaults / 12 ∧ p.ctxSwitchRate = n * d.ctxSwitches / 12 ∧
      p.samples = n * d.counts.eventCount ∧ p.confidence = confidenceFor p.samples := by
  intro n
  have hstart : (0 : ℤ) ≤ secondAt start start := by simp [secondAt]
  obtain ⟨k, hle, hshows⟩ := (LocalBackend.Shows.new d.key start).run hstart hclock
  have hread := hshows.profiles_eq (hle.trans (secondAt_mono start hnow))
  rw [← hprofiles] at hread
  by_cases hkept : calls.foldl (keepInjections d.key) [] = []
  · rw [if_pos hkept] at hread
    rw [Demo.byKey_eq (p := none) hread] at hp
    cases hp
  · rw [if_neg hkept] at hread
    rw [Demo.byKey_eq (p := some _) hread, Option.some_inj] at hp
    have hcounts : ∀ e ∈ shownInjections d.key start calls now, e.counts = d.counts :=
      fun e he => counts_of_mem_kept hspecs hd e (List.mem_of_mem_filter he)
    have hsum := sumCounts_of_forall hcounts
    have hseconds : (windowSeconds : ℚ) = 12 := by norm_num [windowSeconds, buckets, bucketSeconds]
    have hprofile : p = LocalBackend.profileOf d.key
        [sumCounts (shownInjections d.key start calls now)] := hp.symm
    rw [hprofile, hsum]
    simp only [LocalBackend.profileOf, List.foldl_cons, List.foldl_nil, zero_add, hseconds]
    refine ⟨?_, ?_, ?_, ?_, ?_, trivial⟩ <;> push_cast <;> rfl

/-- A positive number of samples is known. -/
lemma confidenceFor_ne_unknown {samples : ℚ} (h : 0 < samples) :
    confidenceFor samples ≠ .unknown := by
  unfold confidenceFor
  split_ifs <;> simp

lemma calm_counts {w : DemoWorkload} (hw : w ∈ calm) :
    w.cacheMisses ≤ 400 ∧ w.lockNs ≤ 10 ^ 7 ∧ w.pageFaults ≤ 300 ∧ w.ctxSwitches ≤ 30 := by
  have hw : w = batchEtl ∨ w = logShipper := by simpa [calm] using hw
  rcases hw with rfl | rfl <;>
    norm_num [batchEtl, logShipper, WorkloadSpec.lockNs, roundHalfUp, Int.floor_le_iff]

/-- An ordinary workload injected about once a second costs its node less than eight points. -/
lemma le_score_calm (hclock : NondecreasingFrom start calls) (hnow : lastTime start calls ≤ now)
    (hspecs : ∀ call ∈ calls, ∀ w, call.2 = .record w →
      ∃ d ∈ calm ++ [noisy], w = d.toWorkloadSpec)
    {w : DemoWorkload} (hw : w ∈ calm)
    (hpace : (shownInjections w.key start calls now).length ≤ 24) (c : Demo)
    (hprofiles : c.profiles = (((LocalBackend.new start).run calls).profiles now).1) :
    92 ≤ (c.row ⟨w.node, 4000⟩).akil.score := by
  have hmem := List.mem_append_left [noisy] hw
  rcases c.akil_row_cases hmem with hempty | ⟨p, hp, hsamples⟩
  · rw [hempty]
    decide
  · obtain ⟨hcache, hlock, hpf, hcs, -, hconfidence⟩ :=
      byKey_run hclock hnow hspecs hmem c hprofiles hp
    have hknown : p.confidence ≠ .unknown := hconfidence ▸ confidenceFor_ne_unknown hsamples
    obtain ⟨hcacheMisses, hlockNs, hpageFaults, hctxSwitches⟩ := calm_counts hw
    rw [c.akil_row_of_samples hmem hp hsamples, score_singleton hknown]
    have hnonneg : (0 : ℚ) ≤ (shownInjections w.key start calls now).length := Nat.cast_nonneg _
    have hpace : ((shownInjections w.key start calls now).length : ℚ) ≤ 24 := by
      exact_mod_cast hpace
    have hbound : ∀ (x k : ℤ), x ≤ k → 0 ≤ k →
        ((shownInjections w.key start calls now).length : ℚ) * x ≤ 24 * k := by
      intro x k hx hk
      have hx : (x : ℚ) ≤ k := by exact_mod_cast hx
      have hk : (0 : ℚ) ≤ k := by exact_mod_cast hk
      exact (mul_le_mul_of_nonneg_left hx hnonneg).trans (mul_le_mul_of_nonneg_right hpace hk)
    have hcache' := hbound _ _ hcacheMisses (by norm_num)
    have hlock' := hbound _ _ hlockNs (by norm_num)
    have hpf' := hbound _ _ hpageFaults (by norm_num)
    have hcs' := hbound _ _ hctxSwitches (by norm_num)
    have hpenalty : penaltyOf p ≤ 8 := by
      push_cast at hcache' hlock' hpf' hcs'
      rw [penaltyOf, hcache, hlock, hpf, hcs]
      linarith
    have hround : roundHalfUp (92 : ℚ) = 92 := by norm_num [roundHalfUp, Int.floor_eq_iff]
    rw [← hround]
    refine roundHalfUp_mono (le_max_of_le_right (le_min (by norm_num) ?_))
    linarith

/-- A warm noisy neighbour costs its node sixteen. -/
lemma score_noisy_le (hclock : NondecreasingFrom start calls) (hnow : lastTime start calls ≤ now)
    (hspecs : ∀ call ∈ calls, ∀ w, call.2 = .record w →
      ∃ d ∈ calm ++ [noisy], w = d.toWorkloadSpec) (c : Demo)
    (hprofiles : c.profiles = (((LocalBackend.new start).run calls).profiles now).1)
    (hwarm : c.noisyWarm = true) : (c.row ⟨noisy.node, 4000⟩).akil.score ≤ 84 := by
  have hmem : noisy ∈ calm ++ [noisy] := by simp
  rw [Demo.noisyWarm, decide_eq_true_iff] at hwarm
  cases hp : c.byKey noisy.key with
  | none =>
      rw [hp] at hwarm
      norm_num [noisyWarmRate] at hwarm
  | some p =>
      obtain ⟨hcache, hlock, hpf, hcs, hsamples, hconfidence⟩ :=
        byKey_run hclock hnow hspecs hmem c hprofiles hp
      rw [hp, Option.map_some, Option.getD_some, noisyWarmRate, hcache] at hwarm
      have hspec : noisy.cacheMisses = 900000 ∧ 0 ≤ noisy.lockNs ∧ 0 ≤ noisy.pageFaults ∧
          0 ≤ noisy.ctxSwitches ∧ 0 < noisy.counts.eventCount := by
        refine ⟨rfl, ?_, by decide, by decide, ?_⟩ <;> decide +kernel
      obtain ⟨hmisses, hlockNs, hpageFaults, hctxSwitches, hevents⟩ := hspec
      rw [hmisses] at hwarm
      push_cast at hwarm
      have hcount : (4 : ℚ) < (shownInjections noisy.key start calls now).length := by linarith
      have hpositive : 0 < p.samples := by
        rw [hsamples]
        exact mul_pos (by linarith) (by exact_mod_cast hevents)
      have hknown : p.confidence ≠ .unknown := hconfidence ▸ confidenceFor_ne_unknown hpositive
      rw [c.akil_row_of_samples hmem hp hpositive, score_singleton hknown]
      have hpenalty : 16 ≤ penaltyOf p := by
        have hnonneg : ∀ x : ℤ, 0 ≤ x →
            (0 : ℚ) ≤ (shownInjections noisy.key start calls now).length * x :=
          fun x hx => mul_nonneg (Nat.cast_nonneg _) (by exact_mod_cast hx)
        have hlock' := hnonneg _ hlockNs
        have hpf' := hnonneg _ hpageFaults
        have hcs' := hnonneg _ hctxSwitches
        rw [penaltyOf, hcache, hlock, hpf, hcs, hmisses]
        push_cast
        linarith
      have hround : roundHalfUp (84 : ℚ) = 84 := by norm_num [roundHalfUp, Int.floor_eq_iff]
      rw [← hround]
      refine roundHalfUp_mono (max_le (by norm_num) ((min_le_right _ _).trans ?_))
      linarith

/-- **The noisy neighbour is left alone.**  The page runs on its own backend, which has been fed,
read, reset and ticked in any order, and in whose windows no ordinary workload was injected
more than twice a second.  If both ordinary workloads show and the noisy neighbour is warm, the
stock scheduler picks the neighbour's node and AKIL does not. -/
theorem demo_avoids_noisy (hclock : NondecreasingFrom start calls)
    (hnow : lastTime start calls ≤ now)
    (hspecs : ∀ call ∈ calls, ∀ w, call.2 = .record w →
      ∃ d ∈ calm ++ [noisy], w = d.toWorkloadSpec)
    (hpace : ∀ w ∈ calm, (shownInjections w.key start calls now).length ≤ 24) (c : Demo)
    (hprofiles : c.profiles = (((LocalBackend.new start).run calls).profiles now).1)
    (hcalm : ∀ w ∈ calm, w ∈ c.residents w.node) (hwarm : c.noisyWarm = true) (id : ℤ) :
    (c.schedule id).noisyPresent = true ∧ (c.schedule id).defaultPick = "node-1" ∧
      (c.schedule id).akilPick ≠ "node-1" := by
  have hnoisy := score_noisy_le hclock hnow hspecs c hprofiles hwarm
  obtain ⟨hdefault, hakil⟩ := c.picks_of_calm hcalm id
  refine ⟨?_, hdefault, fun hpick => ?_⟩
  · by_contra hquiet
    have hscore := (c.row_quiet (by simpa using hquiet : (c.schedule id).noisyPresent = false)).2
    omega
  · have hetl := le_score_calm hclock hnow hspecs (w := batchEtl) (by simp [calm])
      (hpace batchEtl (by simp [calm])) c hprofiles
    have hle := hakil.mp hpick (c.row ⟨batchEtl.node, 4000⟩) (by simp [Demo.rows_eq])
    omega

end Run

/-- All three workloads, injected once a second for six seconds. -/
theorem demo_avoids_noisy_six_seconds :
    let calls : List (ℤ × LocalCall) := (List.range 6).flatMap (fun i =>
      (calm ++ [noisy]).map (fun d => ((1000 * (i + 1) : ℤ), .record d.toWorkloadSpec)))
    let c : Demo := ⟨true, true, (((LocalBackend.new 0).run calls).profiles 6500).1⟩
    (c.schedule 1).defaultPick = "node-1" ∧ (c.schedule 1).akilPick ≠ "node-1" := by
  intro calls c
  have hspecs : ∀ call ∈ calls, ∀ w, call.2 = .record w →
      ∃ d ∈ calm ++ [noisy], w = d.toWorkloadSpec := by
    intro call hcall w hw
    obtain ⟨i, -, hcall⟩ := List.mem_flatMap.mp hcall
    obtain ⟨d, hd, rfl⟩ := List.mem_map.mp hcall
    exact ⟨d, hd, (LocalCall.record.inj hw).symm⟩
  exact (demo_avoids_noisy (by decide +kernel) (by decide +kernel) hspecs (by decide +kernel) c rfl
    (by decide +kernel) (by decide +kernel) 1).2

end Akil.Frontend
