import Akil.Properties.EventLog

/-!
# Recording in bulk

`/api/simulate-events` records a second's worth of telemetry with one `RecordBulk`.  A record
rotates, adds to the current bucket and remembers its node; a second record at the same reading
finds the window already rotated, so records at one reading add up (`record_record`), and what
they leave behind depends on their sum only (`recordAll_eq`).
-/

namespace Akil

namespace WorkloadProfile

/-- Two records of one node at the same reading are one record with both updates. -/
lemma record_record (f g : Bucket → Bucket) (nodeName : String) (now : ℤ) (wp : WorkloadProfile) :
    (wp.record f nodeName now).record g nodeName now = wp.record (g ∘ f) nodeName now := by
  -- The first record leaves the times alone, so the second does not rotate.
  have hsame : (wp.record f nodeName now).maybeRotate now = wp.record f nodeName now :=
    if_pos (wp.tdiv_maybeRotate_le now)
  rw [record, hsame]
  simp only [record, List.modify_modify_eq, Finset.insert_idem]

/-- What a list of records adds to the current bucket. -/
def countsOf (rs : List RecordCall) : Counts ℤ := (rs.map RecordCall.counts).sum

/-- The records of a list, one after the other at the same reading. -/
def recordAll (rs : List RecordCall) (nodeName : String) (now : ℤ) (wp : WorkloadProfile) :
    WorkloadProfile :=
  rs.foldl (fun wp r => wp.execRecord r nodeName now) wp

/-- Records at one reading add up. -/
lemma recordAll_eq {rs : List RecordCall} (h : rs ≠ []) (nodeName : String) (now : ℤ)
    (wp : WorkloadProfile) :
    wp.recordAll rs nodeName now
      = wp.record (Bucket.add (Counts.wrap (countsOf rs))) nodeName now := by
  have hfold : ∀ (rs : List RecordCall) (c : Counts ℤ),
      (wp.record (Bucket.add (Counts.wrap c)) nodeName now).recordAll rs nodeName now
        = wp.record (Bucket.add (Counts.wrap (c + countsOf rs))) nodeName now := by
    intro rs
    induction rs with
    | nil => simp [recordAll, countsOf]
    | cons r rs ih =>
        intro c
        have hadd : Bucket.add (Counts.wrap r.counts) ∘ Bucket.add (Counts.wrap c)
            = Bucket.add (Counts.wrap (c + r.counts)) := by
          funext b
          simp [Bucket.add, add_assoc]
        rw [recordAll, List.foldl_cons, execRecord_eq, record_record, hadd]
        have hcons : countsOf (r :: rs) = r.counts + countsOf rs := by
          simp [countsOf]
        rw [hcons, ← add_assoc]
        exact ih _
  obtain ⟨r, rs, rfl⟩ := List.exists_cons_of_ne_nil h
  rw [recordAll, List.foldl_cons, execRecord_eq]
  exact hfold rs r.counts

end WorkloadProfile

/-- The single records a bulk record stands for. -/
def RecordCall.singles (pageFaults cacheMisses ctxSwitches lockNs : Int64) : List RecordCall :=
  List.replicate pageFaults.toInt.toNat pageFault
    ++ List.replicate cacheMisses.toInt.toNat (cacheMiss 1)
    ++ List.replicate ctxSwitches.toInt.toNat ctxSwitch
    ++ (if lockNs > 0 then [lockContention lockNs] else [])

/-- Together they add what the bulk record adds. -/
lemma RecordCall.countsOf_singles {pageFaults cacheMisses ctxSwitches lockNs : Int64}
    (hpf : 0 ≤ pageFaults) (hcm : 0 ≤ cacheMisses) (hcs : 0 ≤ ctxSwitches) (hlock : 0 ≤ lockNs) :
    WorkloadProfile.countsOf (singles pageFaults cacheMisses ctxSwitches lockNs)
      = (RecordCall.bulk pageFaults cacheMisses ctxSwitches lockNs).counts := by
  have hnonneg : ∀ {x : Int64}, 0 ≤ x → 0 ≤ x.toInt := fun h => Int64.le_iff_toInt_le.mp h
  have hmul : ∀ (k : ℕ) (c : Counts ℤ), (List.replicate k c).sum
      = ⟨k * c.eventCount, k * c.pageFaults, k * c.cacheMisses, k * c.lockDurationNs,
          k * c.ctxSwitches⟩ := by
    intro k c
    induction k with
    | zero => ext <;> simp
    | succ k ih =>
        rw [List.replicate_succ, List.sum_cons, ih]
        ext <;> simp <;> ring
  have hsum : (((if lockNs > 0 then [.lockContention lockNs] else []) :
      List RecordCall).map RecordCall.counts).sum
        = ⟨if lockNs > 0 then 1 else 0, 0, 0, lockNs.toInt, 0⟩ := by
    split_ifs with hpos
    · simp [RecordCall.counts]
    · have hzero : lockNs.toInt = 0 :=
        le_antisymm (not_lt.mp (fun h => hpos (Int64.lt_iff_toInt_lt.mpr h))) (hnonneg hlock)
      ext <;> simp [hzero]
  rw [WorkloadProfile.countsOf, singles]
  simp only [List.map_append, List.map_replicate, List.sum_append, hmul, hsum,
    Int.toNat_of_nonneg (hnonneg hpf), Int.toNat_of_nonneg (hnonneg hcm),
    Int.toNat_of_nonneg (hnonneg hcs)]
  ext <;> simp [RecordCall.counts]

/-- **Bulk recording is single recording.**  In every state of a profile, at every clock reading
and for every node: a bulk record of counts that are not negative and not all zero leaves the same
profile as the single records it stands for, made at that reading in any order. -/
theorem recordBulk_eq_singles (wp : WorkloadProfile) (now : ℤ) (nodeName : String)
    (pageFaults cacheMisses ctxSwitches lockNs : Int64) (hpf : 0 ≤ pageFaults)
    (hcm : 0 ≤ cacheMisses) (hcs : 0 ≤ ctxSwitches) (hlock : 0 ≤ lockNs)
    (hsome : ¬ (pageFaults = 0 ∧ cacheMisses = 0 ∧ ctxSwitches = 0 ∧ lockNs = 0))
    (calls : List RecordCall)
    (hcalls : calls.Perm (RecordCall.singles pageFaults cacheMisses ctxSwitches lockNs)) :
    wp.recordBulk pageFaults cacheMisses ctxSwitches lockNs nodeName now
      = calls.foldl (fun wp r => wp.execRecord r nodeName now) wp := by
  have hne : calls ≠ [] := by
    rintro rfl
    have hnil := hcalls.nil_eq
    simp only [RecordCall.singles, List.nil_eq, List.append_eq_nil_iff, List.replicate_eq_nil_iff,
      ite_eq_right_iff, reduceCtorEq, imp_false] at hnil
    obtain ⟨⟨⟨h₁, h₂⟩, h₃⟩, h₄⟩ := hnil
    have hzero : ∀ {x : Int64}, 0 ≤ x → x.toInt.toNat = 0 → x = 0 := by
      intro x hx h
      have hx' : 0 ≤ x.toInt := Int64.le_iff_toInt_le.mp hx
      exact Int64.toInt_inj.mp (by rw [Int64.toInt_zero]; omega)
    refine hsome ⟨hzero hpf h₁, hzero hcm h₂, hzero hcs h₃, ?_⟩
    refine Int64.toInt_inj.mp (le_antisymm ?_ (Int64.le_iff_toInt_le.mp hlock))
    exact not_lt.mp (fun h => h₄ (Int64.lt_iff_toInt_lt.mpr h))
  have hcounts : WorkloadProfile.countsOf calls
      = (RecordCall.bulk pageFaults cacheMisses ctxSwitches lockNs).counts := by
    rw [← RecordCall.countsOf_singles hpf hcm hcs hlock]
    exact (hcalls.map _).sum_eq
  have hbulk := execRecord_eq (.bulk pageFaults cacheMisses ctxSwitches lockNs) nodeName now wp
  rw [← hcounts, ← WorkloadProfile.recordAll_eq hne] at hbulk
  exact hbulk

/-- Two page faults, a cache miss and a lock wait, an hour after the window was made and with the
fault events around the others. -/
theorem recordBulk_eq_singles_hour :
    let wp := newWorkloadProfile "default/Deployment/web" 4 (10 ^ 9) 0
    wp.recordBulk 2 1 0 700 "node-1" (3600 * 10 ^ 9)
        = [RecordCall.pageFault, .lockContention 700, .cacheMiss 1, .pageFault].foldl
            (fun wp r => wp.execRecord r "node-1" (3600 * 10 ^ 9)) wp ∧
      (wp.recordBulk 2 1 0 700 "node-1" (3600 * 10 ^ 9)).totals = ⟨4, 2, 1, 700, 0⟩ := by
  intro wp
  refine ⟨?_, by decide +kernel⟩
  exact recordBulk_eq_singles wp (3600 * 10 ^ 9) "node-1" 2 1 0 700 (by decide) (by decide)
    (by decide) (by decide) (by decide) _ (by decide)

end Akil
