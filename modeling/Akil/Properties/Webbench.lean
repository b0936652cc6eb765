import Akil.Construction.Benchmarks.Webbench
import Mathlib.Data.List.GetD

/-!
# What the web benchmark measures

A request is meant to miss the cache on every read: its reads depend on each other and run through
the whole working set.  For that the table has to be one cycle, whatever permutation it was made
from; `requests_read_everything` is that.  The report is meant to say how long requests take, not
in which order they finished; `report_order_free` is that.
-/

namespace Akil.Webbench

/-! ## The table is one cycle -/

lemma length_foldl_set (key val : ℕ → ℕ) (is table : List ℕ) :
    (is.foldl (fun next i => next.set (key i) (val i)) table).length = table.length := by
  induction is generalizing table with
  | nil => rfl
  | cons i is ih => exact (ih _).trans List.length_set

/-- Assignments to different places are all there in the end. -/
lemma getElem?_foldl_set {n : ℕ} {key : ℕ → ℕ} (val : ℕ → ℕ) {table : List ℕ}
    (hkey : ∀ i < n, ∀ j < n, key i = key j → i = j) (hlt : ∀ i < n, key i < table.length) {i : ℕ}
    (hi : i < n) :
    ((List.range n).foldl (fun next i => next.set (key i) (val i)) table)[key i]?
      = some (val i) := by
  induction n with
  | zero => omega
  | succ n ih =>
      rw [List.range_succ, List.foldl_concat, List.getElem?_set, length_foldl_set]
      rcases (Nat.lt_succ_iff.mp hi).eq_or_lt with rfl | hin
      · rw [if_pos rfl, if_pos (hlt i hi)]
      · have hne : key n ≠ key i := fun h => hin.ne' (hkey n (by omega) i hi h)
        rw [if_neg hne]
        exact ih (fun i hi j hj => hkey i (by omega) j (by omega)) (fun i hi => hlt i (by omega))
          hin

variable {perm : List ℕ} {n : ℕ}

/-- The entry of an index is its successor in the permutation. -/
lemma getD_buildNext (hperm : perm.Perm (List.range n)) {i : ℕ} (hi : i < n) :
    (buildNext perm).getD (perm.getD i 0) 0 = perm.getD ((i + 1) % n) 0 := by
  have hlength : perm.length = n := by rw [hperm.length_eq, List.length_range]
  have hnodup : perm.Nodup := hperm.nodup_iff.mpr List.nodup_range
  have hkey : ∀ i < perm.length, ∀ j < perm.length, perm.getD i 0 = perm.getD j 0 → i = j := by
    intro i hi j hj h
    rw [List.getD_eq_getElem _ _ hi, List.getD_eq_getElem _ _ hj] at h
    exact (hnodup.getElem_inj_iff).mp h
  have hlt : ∀ i < perm.length, perm.getD i 0 < (List.replicate perm.length 0).length := by
    intro i hi
    rw [List.getD_eq_getElem _ _ hi, List.length_replicate, hlength]
    exact List.mem_range.mp (hperm.mem_iff.mp (List.getElem_mem hi))
  have hget := getElem?_foldl_set (fun i => perm.getD ((i + 1) % perm.length) 0) hkey hlt
    (hlength ▸ hi)
  rw [← hlength, List.getD_eq_getElem?_getD, buildNext, hget, Option.getD_some]

/-- From the index at `i`, each read goes one place further, and around. -/
lemma chase_buildNext (hperm : perm.Perm (List.range n)) {i : ℕ} (hi : i < n) (reads : ℕ) :
    chase (buildNext perm) reads (perm.getD i 0) = perm.getD ((i + reads) % n) 0 := by
  induction reads generalizing i with
  | zero => rw [chase, Nat.add_zero, Nat.mod_eq_of_lt hi]
  | succ reads ih =>
      rw [chase, getD_buildNext hperm hi, ih (Nat.mod_lt _ (by omega)), Nat.mod_add_mod]
      congr 2
      omega

/-- **The reads of a request.**  Whatever permutation the table was made from and wherever a request
starts, as many reads as the table has entries read every entry once, and come back to the start.
A request of fewer reads never reads an entry twice, such as one of two hundred thousand, the
default, in the table of the default working set of 4 MiB. -/
theorem requests_read_everything (hperm : perm.Perm (List.range n)) {idx : ℕ} (hidx : idx < n) :
    ((List.range n).map (fun reads => chase (buildNext perm) reads idx)).Perm (List.range n) ∧
      chase (buildNext perm) n idx = idx ∧
      (∀ k ≤ n, ((List.range k).map (fun reads => chase (buildNext perm) reads idx)).Nodup) ∧
      (n = entries 4 →
        ((List.range 200000).map (fun reads => chase (buildNext perm) reads idx)).Nodup) := by
  have hlength : perm.length = n := by rw [hperm.length_eq, List.length_range]
  obtain ⟨i, hi, rfl⟩ := List.getElem_of_mem (hperm.mem_iff.mpr (List.mem_range.mpr hidx))
  have hgetD : perm[i] = perm.getD i 0 := (List.getD_eq_getElem _ _ hi).symm
  have hin : i < n := hlength ▸ hi
  have hrotate : (List.range n).map (fun reads => chase (buildNext perm) reads perm[i])
      = perm.rotate i := by
    refine List.ext_getElem (by simp [hlength]) (fun k hk _ => ?_)
    have hmod : (k + i) % perm.length < perm.length := Nat.mod_lt _ (by omega)
    rw [List.getElem_map, List.getElem_range, List.getElem_rotate, hgetD,
      chase_buildNext hperm hin, ← List.getD_eq_getElem _ 0 hmod, hlength, Nat.add_comm]
  have hall : ((List.range n).map (fun reads => chase (buildNext perm) reads perm[i])).Perm
      (List.range n) := by
    rw [hrotate]
    exact (List.rotate_perm perm i).trans hperm
  have hfewer : ∀ k ≤ n,
      ((List.range k).map (fun reads => chase (buildNext perm) reads perm[i])).Nodup := by
    intro k hk
    have hnodup := hall.nodup_iff.mpr List.nodup_range
    exact hnodup.sublist ((List.range_sublist.mpr hk).map _)
  refine ⟨hall, ?_, hfewer, fun hentries => hfewer 200000 ?_⟩
  · rw [hgetD, chase_buildNext hperm hin, Nat.add_mod_right, Nat.mod_eq_of_lt hin]
  · rw [hentries]
    decide

/-- A table of five entries, from the third of them. -/
theorem requests_read_everything_five :
    ((List.range 5).map (fun reads => chase (buildNext [3, 0, 4, 2, 1]) reads 4)).Perm
      (List.range 5) :=
  (requests_read_everything (by decide : [3, 0, 4, 2, 1].Perm (List.range 5))
    (by decide : 4 < 5)).1

/-! ## The report -/

/-- The latencies of the measured requests that succeeded. -/
def latenciesOf (finished : List (Bool × Option ℚ)) : List ℚ :=
  finished.filterMap (fun f => if f.1 then f.2 else none)

lemma foldl_record (finished : List (Bool × Option ℚ)) (r : Results) :
    finished.foldl Results.record r
      = ⟨r.latencies ++ latenciesOf finished,
          r.errors + finished.countP (fun f => f.1 && f.2.isNone)⟩ := by
  induction finished generalizing r with
  | nil => simp [latenciesOf]
  | cons f finished ih =>
      rw [List.foldl_cons, ih, latenciesOf, latenciesOf]
      obtain ⟨measured, result⟩ := f
      cases measured with
      | false => simp [Results.record]
      | true =>
          cases result with
          | none =>
              simp only [Results.record, List.filterMap_cons, if_true, List.countP_cons,
                Option.isNone_none, Bool.and_self]
              congr 1
              omega
          | some ms => simp [Results.record]

/-- Every measured request has a latency or an error. -/
lemma length_latenciesOf (finished : List (Bool × Option ℚ)) :
    (latenciesOf finished).length + finished.countP (fun f => f.1 && f.2.isNone)
      = finished.countP Prod.fst := by
  induction finished with
  | nil => rfl
  | cons f finished ih =>
      obtain ⟨measured, result⟩ := f
      rw [latenciesOf] at ih ⊢
      cases measured <;> cases result <;>
        simp only [List.filterMap_cons, List.countP_cons, if_true, Bool.false_eq_true, if_false,
          Bool.false_and, Bool.true_and, Option.isNone_none, Option.isNone_some,
          List.length_cons] <;>
        omega

lemma loadgen_eq (finished : List (Bool × Option ℚ)) :
    loadgen finished = Results.report ⟨latenciesOf finished,
      finished.countP (fun f => f.1 && f.2.isNone)⟩ := by
  rw [loadgen, foldl_record, List.nil_append, Nat.zero_add]

/-- The order in which the requests finish does not show. -/
lemma loadgen_perm {finished finished' : List (Bool × Option ℚ)} (h : finished.Perm finished') :
    loadgen finished = loadgen finished' := by
  have hlatencies : (latenciesOf finished).Perm (latenciesOf finished') := h.filterMap _
  have hsorted : (latenciesOf finished).insertionSort (· ≤ ·)
      = (latenciesOf finished').insertionSort (· ≤ ·) :=
    ((List.perm_insertionSort _ _).trans
      (hlatencies.trans (List.perm_insertionSort _ _).symm)).eq_of_pairwise'
      (List.pairwise_insertionSort _ _) (List.pairwise_insertionSort _ _)
  have hempty : latenciesOf finished ≠ [] ↔ latenciesOf finished' ≠ [] := by
    rw [← List.length_pos_iff, ← List.length_pos_iff, hlatencies.length_eq]
  rw [loadgen_eq, loadgen_eq, Results.report, Results.report]
  simp only [hsorted, hempty, h.countP_eq]

/-- What a report says about the measured requests that succeeded. -/
lemma report_spec {sent : List (Bool × Option ℚ)} {r : Report} (hr : loadgen sent = some r) :
    let slower (t : ℚ) : ℚ := (latenciesOf sent).countP (t < ·)
    r.requests + r.errors = sent.countP Prod.fst ∧
      (r.p50 ≤ r.p90 ∧ r.p90 ≤ r.p99 ∧ r.p99 ≤ r.p999) ∧
      ∀ t, (r.p50 ≤ t ↔ slower t < (1 / 2) * r.requests) ∧
        (r.p90 ≤ t ↔ slower t < (1 / 10) * r.requests) ∧
        (r.p99 ≤ t ↔ slower t < (1 / 100) * r.requests) ∧
        (r.p999 ≤ t ↔ slower t < (1 / 1000) * r.requests) := by
  intro slower
  have hsorted := List.pairwise_insertionSort (· ≤ ·) (latenciesOf sent)
  have hslower : ∀ t : ℚ, slower t
      = ((latenciesOf sent).insertionSort (· ≤ ·)).countP (t < ·) := by
    intro t
    rw [(List.perm_insertionSort _ _).countP_eq]
  rw [loadgen_eq] at hr
  simp only [Results.report, Option.bind_eq_bind, Option.bind_eq_some_iff] at hr
  obtain ⟨_, -, p50, h50, p90, h90, p99, h99, p999, h999, hr⟩ := hr
  obtain rfl := Option.some.inj hr
  simp only [hslower]
  refine ⟨?_, ⟨?_, ?_, ?_⟩, fun t => ⟨?_, ?_, ?_, ?_⟩⟩
  · rw [List.length_insertionSort, length_latenciesOf]
  · exact quantile_mono hsorted (by norm_num) (by norm_num) h50 h90
  · exact quantile_mono hsorted (by norm_num) (by norm_num) h90 h99
  · exact quantile_mono hsorted (by norm_num) (by norm_num) h99 h999
  · exact (quantile_le_iff hsorted (by norm_num) (by norm_num) h50 t).trans (by norm_num)
  · exact (quantile_le_iff hsorted (by norm_num) (by norm_num) h90 t).trans (by norm_num)
  · exact (quantile_le_iff hsorted (by norm_num) (by norm_num) h99 t).trans (by norm_num)
  · exact (quantile_le_iff hsorted (by norm_num) (by norm_num) h999 t).trans (by norm_num)

/-- **The report on a run.**  Whatever the order in which the requests finish, the report is the one
for the order in which they were sent.  It counts each request sent on a tick after the warm-up
once, as a success or as an error, and its percentiles come in order and are percentiles: that of
`q` is at most `t` exactly if less than a share `1 - q` of the successes took longer. -/
theorem report_order_free {start warmup duration : ℤ} {ticks : List ℤ} {results : List (Option ℚ)}
    (hresults : results.length = (send start warmup duration ticks).length)
    {finished : List (Bool × Option ℚ)}
    (hfinished : finished.Perm ((send start warmup duration ticks).zip results)) {r : Report}
    (hr : loadgen finished = some r) :
    let sent := (send start warmup duration ticks).zip results
    let slower (t : ℚ) : ℚ := (latenciesOf sent).countP (t < ·)
    loadgen sent = some r ∧
      r.requests + r.errors = (send start warmup duration ticks).count true ∧
      (r.p50 ≤ r.p90 ∧ r.p90 ≤ r.p99 ∧ r.p99 ≤ r.p999) ∧
      ∀ t, (r.p50 ≤ t ↔ slower t < (1 / 2) * r.requests) ∧
        (r.p90 ≤ t ↔ slower t < (1 / 10) * r.requests) ∧
        (r.p99 ≤ t ↔ slower t < (1 / 100) * r.requests) ∧
        (r.p999 ≤ t ↔ slower t < (1 / 1000) * r.requests) := by
  intro sent slower
  rw [loadgen_perm hfinished] at hr
  have hmeasured : sent.countP Prod.fst = (send start warmup duration ticks).count true := by
    rw [← List.map_fst_zip hresults.ge, List.count_eq_countP, List.countP_map]
    simp [Function.comp_def, sent]
  obtain ⟨hcount, hrest⟩ := report_spec hr
  exact ⟨hr, hcount.trans hmeasured, hrest⟩

/-- Three requests, the first in the warm-up and the last failed, that finish from last to first. -/
theorem report_order_free_three :
    ∃ r, loadgen [(true, none), (true, some 3), (false, some 9)] = some r ∧
      r.requests + r.errors = 2 := by
  obtain ⟨r, hr⟩ := Option.isSome_iff_exists.mp
    (by decide +kernel : (loadgen [(true, none), (true, some 3), (false, some 9)]).isSome = true)
  have hresults : ([some 9, some 3, none] : List (Option ℚ)).length
      = (send 0 10 20 [5, 15, 25, 40]).length := by decide
  exact ⟨r, hr, (report_order_free hresults (by decide +kernel) hr).2.1⟩

end Akil.Webbench
