import Akil.Properties.StoreProduct
import Akil.Properties.Staleness

/-!
# Which workloads a node is charged with

`QueryNodeProfiles` returns the profile of every workload whose `nodeLocations` contains the
node.  The set only grows: a record inserts its node, and neither rotation nor `ResetData`
removes one.  The buckets on the other hand forget.  A workload that reported from a node once
is therefore charged to it for as long as the workload reports from anywhere.

`LeftNode` says when that happens, in terms of the calls made on the workload: after its latest
record from the node came a `ResetData` or `n` rotations, and samples are still counted.
`node_attribution` proves that the returned profiles are attributed correctly exactly when no
visited workload has left the node; `node_attribution_fails` is a workload that moved.  A
workload that only ever reports from one node never leaves it
(`not_leftNode_of_single_node`).
-/

namespace Akil

/-! ## What a log keeps of earlier calls -/

namespace EventLog

variable {n : ℕ} {d : ℤ}

lemma rotations_le_rotate (E : EventLog) (t : ℤ) :
    E.log.rotations ≤ (E.rotate n d t).log.rotations := by
  unfold rotate
  split_ifs
  · exact le_rfl
  · exact Nat.le_add_right _ _

/-- One call: rotations are never undone, an entry is old or made by the call, and only
`ResetData` forgets. -/
lemma exec_entries (E : EventLog) (t : ℤ) (c : ProfileCall) :
    E.log.rotations ≤ (E.exec n d t c).log.rotations ∧
      (∀ e ∈ (E.exec n d t c).log.entries,
        (e ∈ E.log.entries ∧ c ≠ .resetData) ∨ c.node? = some e.2.nodeName) ∧
      (c ≠ .resetData → ∀ e ∈ E.log.entries, e ∈ (E.exec n d t c).log.entries) := by
  cases c with
  | record r nodeName =>
      refine ⟨E.rotations_le_rotate t, fun e he => ?_, fun _ e he => ?_⟩
      · rcases List.mem_append.mp he with he | he
        · rw [entries_rotate] at he
          exact Or.inl ⟨he, by simp⟩
        · rw [List.mem_singleton.mp he]
          exact Or.inr rfl
      · apply List.mem_append_left
        rwa [entries_rotate]
  | resetData => exact ⟨le_rfl, by simp [exec], fun h => absurd rfl h⟩
  | computeProfile =>
      refine ⟨E.rotations_le_rotate t, fun e he => ?_, fun _ e he => ?_⟩
      · rw [exec, entries_rotate] at he
        exact Or.inl ⟨he, by simp⟩
      · rwa [exec, entries_rotate]

/-- The same along a run. -/
lemma run_entries (E : EventLog) (calls : List (ℤ × ProfileCall)) :
    E.log.rotations ≤ (E.run n d calls).log.rotations ∧
      (∀ e ∈ (E.run n d calls).log.entries,
        (e ∈ E.log.entries ∧ ∀ u, (u, .resetData) ∉ calls) ∨
          e.2.nodeName ∈ recordedNodes calls) ∧
      ((∀ u, (u, .resetData) ∉ calls) →
        ∀ e ∈ E.log.entries, e ∈ (E.run n d calls).log.entries) := by
  induction calls generalizing E with
  | nil => exact ⟨le_rfl, fun e he => Or.inl ⟨he, by simp⟩, fun _ e he => he⟩
  | cons c calls ih =>
      obtain ⟨t, c⟩ := c
      obtain ⟨hrot, hfrom, hkeep⟩ := E.exec_entries (n := n) (d := d) t c
      obtain ⟨hrot', hfrom', hkeep'⟩ := ih (E.exec n d t c)
      have hnodes : ∀ node, node ∈ recordedNodes ((t, c) :: calls)
          ↔ c.node? = some node ∨ node ∈ recordedNodes calls := by
        intro node
        cases h : c.node? <;> simp [recordedNodes, h, eq_comm]
      refine ⟨hrot.trans hrot', fun e he => ?_, fun hno e he => ?_⟩
      · rcases hfrom' e he with ⟨hmem, hno⟩ | hnode
        · rcases hfrom e hmem with ⟨hold, hc⟩ | hnode
          · refine Or.inl ⟨hold, fun u hu => ?_⟩
            rcases List.mem_cons.mp hu with heq | hu
            · exact hc (Prod.mk.inj heq).2.symm
            · exact hno u hu
          · exact Or.inr ((hnodes _).mpr (Or.inl hnode))
        · exact Or.inr ((hnodes _).mpr (Or.inr hnode))
      · have hc : c ≠ .resetData := by
          rintro rfl
          exact hno t List.mem_cons_self
        exact hkeep' (fun u hu => hno u (List.mem_cons_of_mem _ hu)) e (hkeep hc e he)

end EventLog

/-! ## Leaving a node -/

/-- Rotations performed by the calls on a window created at `created`. -/
def rotationsBy (n : ℕ) (d created : ℤ) (calls : List (ℤ × ProfileCall)) : ℕ :=
  ((EventLog.new created).run n d calls).log.rotations

/-- By `t` the workload has left the node: its latest record from there has been reset away or
has seen `n` rotations, and yet samples of the workload are counted at `t`. -/
def LeftNode (n : ℕ) (d created : ℤ) (calls : List (ℤ × ProfileCall)) (t : ℤ)
    (nodeName : String) : Prop :=
  ∃ before s r after, calls = before ++ (s, .record r nodeName) :: after ∧
    nodeName ∉ recordedNodes after ∧
    ((∃ u, (u, .resetData) ∈ after) ∨
      rotationsBy n d created (before ++ [(s, .record r nodeName)]) + n
        ≤ rotationsBy n d created (calls ++ [(t, .computeProfile)])) ∧
    0 < int64OfInt (sumCounts (countedAt n d created calls t)).eventCount

lemma exists_last_record {calls : List (ℤ × ProfileCall)} {nodeName : String}
    (h : nodeName ∈ recordedNodes calls) :
    ∃ before s r after, calls = before ++ (s, .record r nodeName) :: after ∧
      nodeName ∉ recordedNodes after := by
  induction calls with
  | nil => simp [recordedNodes] at h
  | cons c calls ih =>
      by_cases hlater : nodeName ∈ recordedNodes calls
      · obtain ⟨before, s, r, after, rfl, hafter⟩ := ih hlater
        exact ⟨c :: before, s, r, after, rfl, hafter⟩
      · obtain ⟨s, r, hmem⟩ := mem_recordedNodes.mp h
        rcases List.mem_cons.mp hmem with rfl | hmem
        · exact ⟨[], s, r, calls, rfl, hlater⟩
        · exact absurd (mem_recordedNodes.mpr ⟨s, r, hmem⟩) hlater

/-- A record from the node is counted exactly when its latest one is. -/
lemma exists_counted_iff (n : ℕ) (d created : ℤ) {calls before after : List (ℤ × ProfileCall)}
    {s t : ℤ} {r : RecordCall} {nodeName : String}
    (hsplit : calls = before ++ (s, .record r nodeName) :: after)
    (hlast : nodeName ∉ recordedNodes after) :
    (∃ e ∈ countedAt n d created calls t, e.nodeName = nodeName) ↔
      ¬ ((∃ u, (u, .resetData) ∈ after) ∨
        rotationsBy n d created (before ++ [(s, .record r nodeName)]) + n
          ≤ rotationsBy n d created (calls ++ [(t, .computeProfile)])) := by
  -- `E` is the log right after the latest record, `F` the log the query counts from
  set E := (EventLog.new created).run n d (before ++ [(s, ProfileCall.record r nodeName)]) with hE
  set F := E.run n d (after ++ [(t, ProfileCall.computeProfile)]) with hF
  have hrun : (EventLog.new created).run n d (calls ++ [(t, ProfileCall.computeProfile)]) = F := by
    rw [hF, hE, EventLog.run, EventLog.run, EventLog.run, ← timedRun_append, hsplit]
    simp
  have hcounted : countedAt n d created calls t = F.counted n := by
    rw [countedAt, ← hrun, EventLog.run_concat]
    rfl
  have hmem : (E.log.rotations, (⟨s, nodeName, r.counts⟩ : LogEntry)) ∈ E.log.entries := by
    rw [hE, EventLog.run_concat]
    exact List.mem_append_right _ (List.mem_singleton.mpr rfl)
  obtain ⟨hrot, hfrom, hkeep⟩ :=
    E.run_entries (n := n) (d := d) (after ++ [(t, ProfileCall.computeProfile)])
  rw [← hF] at hrot hfrom hkeep
  have hnodes : nodeName ∉ recordedNodes (after ++ [(t, ProfileCall.computeProfile)]) := by
    rw [recordedNodes_concat]
    simpa [ProfileCall.node?] using hlast
  have hresets : (∀ u, (u, ProfileCall.resetData) ∉ after ++ [(t, ProfileCall.computeProfile)])
      ↔ ¬ ∃ u, (u, .resetData) ∈ after := by
    simp
  rw [hcounted, rotationsBy, rotationsBy, hrun, ← hE]
  constructor
  · rintro ⟨x, hx, hnode⟩
    obtain ⟨e, he, rfl⟩ := List.mem_map.mp hx
    obtain ⟨hentry, hage⟩ := RotationLog.mem_live.mp he
    rcases hfrom e hentry with ⟨hold, hno⟩ | hin
    · have hstamp := E.log.stamp_le e hold
      have hsum := F.log.stamp_add_age hentry
      rintro (hreset | hle)
      · exact hresets.mp hno hreset
      · omega
    · exact absurd (hnode ▸ hin) hnodes
  · intro hcond
    rw [not_or] at hcond
    refine ⟨_, List.mem_map.mpr ⟨_, RotationLog.mem_live.mpr
      ⟨hkeep (hresets.mpr hcond.1) _ hmem, ?_⟩, rfl⟩, rfl⟩
    have hlt := hcond.2
    simp only [RotationLog.age]
    omega

/-- A workload with samples that was recorded from the node has left it exactly when none of
its counted records is from there. -/
lemma leftNode_iff (n : ℕ) (d created : ℤ) (calls : List (ℤ × ProfileCall)) (t : ℤ)
    (nodeName : String) :
    LeftNode n d created calls t nodeName ↔
      nodeName ∈ recordedNodes calls ∧
      0 < int64OfInt (sumCounts (countedAt n d created calls t)).eventCount ∧
      ¬ ∃ e ∈ countedAt n d created calls t, e.nodeName = nodeName := by
  constructor
  · rintro ⟨before, s, r, after, hsplit, hlast, hgone, hsamples⟩
    refine ⟨?_, hsamples, fun hcounted => ?_⟩
    · rw [mem_recordedNodes, hsplit]
      exact ⟨s, r, by simp⟩
    · exact (exists_counted_iff n d created hsplit hlast).mp hcounted hgone
  · rintro ⟨hrec, hsamples, hnone⟩
    obtain ⟨before, s, r, after, hsplit, hlast⟩ := exists_last_record hrec
    rw [exists_counted_iff n d created hsplit hlast, not_not] at hnone
    exact ⟨before, s, r, after, hsplit, hlast, hnone, hsamples⟩

lemma node_mem_of_counted {n : ℕ} {d created t : ℤ} {calls : List (ℤ × ProfileCall)}
    {e : LogEntry} (he : e ∈ countedAt n d created calls t) :
    e.nodeName ∈ recordedNodes calls := by
  have hmem := (countedAt_sublist n d created calls t).subset he
  obtain ⟨⟨u, c⟩, hc, hentry⟩ := List.mem_filterMap.mp hmem
  cases c with
  | record r nodeName =>
      obtain rfl : _ = e := by simpa [ProfileCall.logEntry] using hentry
      exact mem_recordedNodes.mpr ⟨u, r, hc⟩
  | resetData => simp [ProfileCall.logEntry] at hentry
  | computeProfile => simp [ProfileCall.logEntry] at hentry

/-- A workload that reports from one node only never leaves it. -/
lemma not_leftNode_of_single_node {n : ℕ} {d created t : ℤ} {calls : List (ℤ × ProfileCall)}
    {nodeName : String} (hsingle : ∀ node ∈ recordedNodes calls, node = nodeName) :
    ¬ LeftNode n d created calls t nodeName := by
  rw [leftNode_iff]
  rintro ⟨-, hsamples, hnone⟩
  cases hcounted : countedAt n d created calls t with
  | nil =>
      rw [hcounted] at hsamples
      exact absurd hsamples (by decide)
  | cons e es =>
      have he : e ∈ countedAt n d created calls t := by simp [hcounted]
      exact hnone ⟨e, he, hsingle _ (node_mem_of_counted he)⟩

/-! ## Node queries on the store -/

lemma confidenceOf_ne_unknown (x : Int64) : confidenceOf x ≠ .unknown ↔ 0 < x := by
  have hpos : ∀ {y : Int64}, 0 ≤ y → y < x → 0 < x := fun hy hx => Int64.lt_of_le_of_lt hy hx
  unfold confidenceOf
  split_ifs with h₁ h₂ h₃
  · exact ⟨fun _ => hpos (by decide) h₁, fun _ => by decide⟩
  · exact ⟨fun _ => Int64.lt_of_lt_of_le (by decide) h₂, fun _ => by decide⟩
  · exact ⟨fun _ => h₃, fun _ => by decide⟩
  · exact ⟨fun h => absurd rfl h, fun h => absurd h h₃⟩

/-- The records of `key` that a query at `t` after the run counts. -/
def historyCounted (n : ℕ) (d : ℤ) (calls : List (ℤ × StoreCall)) (key : String) (t : ℤ) :
    List LogEntry :=
  match keyHistory key calls with
  | none => []
  | some (created, own) => countedAt n d created own t

/-- What a query of the store reports: what the counters have become, modulo `2 ^ 64`, by the
records counted. -/
lemma queryProfile_counted (key : String) {n : ℕ} (hn : 1 ≤ n) {d : ℤ} (hd : 0 < d)
    (calls : List (ℤ × StoreCall)) (t : ℤ) :
    let p := (((newStore n d).run calls).queryProfile key t).1
    let totals := Counts.wrap (sumCounts (historyCounted n d calls key t))
    p.cacheMissRate = totals.cacheMisses.toInt / windowSeconds n d ∧
      p.lockContentionRatio = totals.lockDurationNs.toInt / (windowSeconds n d * 10 ^ 9) := by
  intro p totals
  cases hhist : keyHistory key calls with
  | none =>
      have hp : p = Store.unknownProfile key := by
        simp only [p, Store.queryProfile, store_get_eq key hn hd, hhist, Option.map_none]
      have htotals : totals = 0 := by
        simp [totals, historyCounted, hhist, sumCounts]
      rw [hp, htotals]
      simp [Store.unknownProfile]
  | some h =>
      obtain ⟨created, own⟩ := h
      have hcoupled := (Coupled.new_run key hn hd created own).exec t .computeProfile
      have hp : p = ((replay key n d (created, own)).maybeRotate t).report := by
        simp only [p, Store.queryProfile, store_get_eq key hn hd, hhist, Option.map_some]
        rfl
      have htotals : ((replay key n d (created, own)).maybeRotate t).totals = totals := by
        simp only [totals, historyCounted, hhist]
        exact hcoupled.totals_eq
      have hduration : ((replay key n d (created, own)).maybeRotate t).windowDuration
          = windowSeconds n d := by
        have hwindow := hcoupled.refines.windowDuration_eq
        rwa [hcoupled.bucketCount, hcoupled.bucketDuration] at hwindow
      rw [hp, ← htotals, ← hduration]
      exact ⟨rfl, rfl⟩

/-- Every profile of known confidence that the node query returns counts a record reported from
that node. -/
def NodeAttributed (n : ℕ) (d : ℤ) (calls : List (ℤ × StoreCall)) (nodeName : String)
    (visits : List (String × ℤ)) : Prop :=
  ∀ p ∈ (((newStore n d).run calls).queryNodeProfiles nodeName visits).1,
    p.confidence ≠ .unknown → ∃ v ∈ visits, v.1 = p.workloadKey ∧
      ∃ e ∈ historyCounted n d calls v.1 v.2, e.nodeName = nodeName

instance (n : ℕ) (d : ℤ) (calls : List (ℤ × StoreCall)) (nodeName : String)
    (visits : List (String × ℤ)) : Decidable (NodeAttributed n d calls nodeName visits) :=
  inferInstanceAs (Decidable (∀ _ ∈ _, _))

/-- By `t` the workload `key` of the run has left the node. -/
def KeyLeftNode (n : ℕ) (d : ℤ) (calls : List (ℤ × StoreCall)) (nodeName key : String) (t : ℤ) :
    Prop :=
  ∃ created own, keyHistory key calls = some (created, own) ∧ LeftNode n d created own t nodeName

/-- The sample count of a returned profile is the sum over the counted records. -/
lemma computeProfile_replay (key : String) (n : ℕ) (hn : 1 ≤ n) (d : ℤ) (hd : 0 < d)
    (created : ℤ) (own : List (ℤ × ProfileCall)) (t : ℤ) :
    ((replay key n d (created, own)).computeProfile t).1.workloadKey = key ∧
      ((replay key n d (created, own)).computeProfile t).1.sampleCount
        = int64OfInt (sumCounts (countedAt n d created own t)).eventCount ∧
      ((replay key n d (created, own)).computeProfile t).1.confidence
        = confidenceOf (int64OfInt (sumCounts (countedAt n d created own t)).eventCount) := by
  have hcoupled := (Coupled.new_run key hn hd created own).exec t .computeProfile
  have hkey : ((replay key n d (created, own)).maybeRotate t).workloadKey = key :=
    congrArg (fun q => q.1) hcoupled.params
  have htotals : ((replay key n d (created, own)).maybeRotate t).totals
      = Counts.wrap (sumCounts (countedAt n d created own t)) := hcoupled.totals_eq
  refine ⟨hkey, ?_, ?_⟩
  · change ((replay key n d (created, own)).maybeRotate t).totals.eventCount = _
    rw [htotals]
    rfl
  · change confidenceOf ((replay key n d (created, own)).maybeRotate t).totals.eventCount = _
    rw [htotals]
    rfl

/-- **When node attribution is right.**  After any run of the store, for any node query: every
returned profile counts the records of its key's own history; and every returned profile of
known confidence counts a record from the queried node if and only if no visited workload has
left that node. -/
theorem node_attribution (n : ℕ) (hn : 1 ≤ n) (d : ℤ) (hd : 0 < d)
    (calls : List (ℤ × StoreCall)) (nodeName : String) (visits : List (String × ℤ))
    (hnodup : (visits.map Prod.fst).Nodup) :
    (∀ p ∈ (((newStore n d).run calls).queryNodeProfiles nodeName visits).1,
        ∃ v ∈ visits, v.1 = p.workloadKey ∧ p.sampleCount
          = int64OfInt (sumCounts (historyCounted n d calls v.1 v.2)).eventCount) ∧
      (NodeAttributed n d calls nodeName visits ↔
        ∀ v ∈ visits, ¬ KeyLeftNode n d calls nodeName v.1 v.2) := by
  have hreturned : ∀ p, p ∈ (((newStore n d).run calls).queryNodeProfiles nodeName visits).1 ↔
      ∃ v ∈ visits, ∃ created own,
        keyHistory v.1 calls = some (created, own) ∧ nodeName ∈ recordedNodes own ∧
          p = ((replay v.1 n d (created, own)).computeProfile v.2).1 := by
    intro p
    simp only [Store.queryNodeProfiles_fst nodeName visits hnodup, List.mem_filterMap,
      visitNode_run n hn d hd]
  refine ⟨fun p hp => ?_, fun hattr v hv hleft => ?_, fun hstay p hp hknown => ?_⟩
  · obtain ⟨v, hv, created, own, hhist, -, rfl⟩ := (hreturned p).mp hp
    obtain ⟨hkey, hsamples, -⟩ := computeProfile_replay v.1 n hn d hd created own v.2
    refine ⟨v, hv, hkey.symm, ?_⟩
    rw [hsamples, historyCounted, hhist]
  · obtain ⟨created, own, hhist, hleft⟩ := hleft
    obtain ⟨hrec, hsamples, hnone⟩ := (leftNode_iff n d created own v.2 nodeName).mp hleft
    obtain ⟨hkey, -, hconf⟩ := computeProfile_replay v.1 n hn d hd created own v.2
    obtain ⟨v', hv', hkey', e, he, hnode⟩ := hattr _
      ((hreturned _).mpr ⟨v, hv, created, own, hhist, hrec, rfl⟩)
      (by rw [hconf]; exact (confidenceOf_ne_unknown _).mpr hsamples)
    -- with distinct keys, the visit found is the visit of the workload that left
    obtain rfl : v' = v := List.inj_on_of_nodup_map hnodup hv' hv (hkey'.trans hkey)
    rw [historyCounted, hhist] at he
    exact hnone ⟨e, he, hnode⟩
  · obtain ⟨v, hv, created, own, hhist, hrec, rfl⟩ := (hreturned p).mp hp
    obtain ⟨hkey, -, hconf⟩ := computeProfile_replay v.1 n hn d hd created own v.2
    rw [hconf, confidenceOf_ne_unknown] at hknown
    have hnot : ¬ LeftNode n d created own v.2 nodeName :=
      fun hleft => hstay v hv ⟨created, own, hhist, hleft⟩
    rw [leftNode_iff] at hnot
    have hcounted : ∃ e ∈ countedAt n d created own v.2, e.nodeName = nodeName := by
      by_contra hnone
      exact hnot ⟨hrec, hknown, hnone⟩
    refine ⟨v, hv, hkey.symm, ?_⟩
    rw [historyCounted, hhist]
    exact hcounted

/-- One workload reports from `node-1` and then from `node-2`, another from `node-1` only.  One
rotation later the record of the first from `node-1` is still counted, and both are charged to that
node rightly. -/
theorem node_attribution_stays :
    let calls : List (ℤ × StoreCall) :=
      [(0, .getOrCreate "default/Deployment/web"),
        (0, .onProfile "default/Deployment/web" (.record .pageFault "node-1")),
        (4, .getOrCreate "default/Deployment/api"),
        (4, .onProfile "default/Deployment/api" (.record (.cacheMiss 50) "node-1")),
        (10, .onProfile "default/Deployment/web" (.record .pageFault "node-2"))]
    let visits := [("default/Deployment/web", (15 : ℤ)), ("default/Deployment/api", 15)]
    NodeAttributed 2 10 calls "node-1" visits ∧
      (((newStore (2 : ℕ) 10).run calls).queryNodeProfiles "node-1" visits).1.map
        (fun p => (p.workloadKey, p.sampleCount))
          = [("default/Deployment/web", 2), ("default/Deployment/api", 1)] := by
  intro calls visits
  refine ⟨(node_attribution 2 (by decide) 10 (by decide) calls "node-1" visits
    (by decide)).2.mpr ?_, by decide +kernel⟩
  rintro v hv ⟨created, own, hhist, hleft⟩
  rcases List.mem_pair.mp hv with rfl | rfl
  · obtain ⟨rfl, rfl⟩ : created = 0 ∧ own = [(0, .record .pageFault "node-1"),
        (10, .record .pageFault "node-2")] := by
      simpa [calls, keyHistory, historyStep, eq_comm] using hhist
    exact ((leftNode_iff _ _ _ _ _ _).mp hleft).2.2 (by decide)
  · obtain ⟨rfl, rfl⟩ : created = 4 ∧ own = [(4, .record (.cacheMiss 50) "node-1")] := by
      simpa [calls, keyHistory, historyStep, eq_comm] using hhist
    exact not_leftNode_of_single_node (by decide) hleft

/-- **A workload that moved is still charged to the node it left.**  With two buckets of ten
nanoseconds it reports once from `node-1` and from then on from `node-2`; at `25` the record
from `node-1` has seen two rotations, and the query for `node-1` still returns the workload,
with the two samples of `node-2`. -/
theorem node_attribution_fails :
    let calls : List (ℤ × StoreCall) :=
      [(0, .getOrCreate "default/Deployment/web"),
        (0, .onProfile "default/Deployment/web" (.record .pageFault "node-1")),
        (10, .onProfile "default/Deployment/web" (.record .pageFault "node-2")),
        (20, .onProfile "default/Deployment/web" (.record .pageFault "node-2"))]
    ¬ NodeAttributed 2 10 calls "node-1" [("default/Deployment/web", 25)] ∧
      (((newStore (2 : ℕ) 10).run calls).queryNodeProfiles "node-1"
        [("default/Deployment/web", 25)]).1.map
          (fun p => (p.workloadKey, p.sampleCount, p.confidence))
        = [("default/Deployment/web", 2, .low)] ∧
      (historyCounted 2 10 calls "default/Deployment/web" 25).map LogEntry.nodeName
        = ["node-2", "node-2"] := by
  decide

end Akil
