import Akil.Properties.LockRatio

/-!
# The cache misses of a workload

A collector sends its cache misses as unsigned deltas.  `StreamTelemetry` converts each delta to an
`int64`, `RecordCacheMiss` adds it to the current bucket and `ComputeProfile` adds up the buckets,
all of it modulo `2 ^ 64`.  Whatever wraps on the way, the total is the mathematical sum of the
deltas modulo `2 ^ 64`, read as a signed number.  Deltas are never negative, so the total is the
sum, and the reported rate that of the sum, exactly as long as the sum is below `2 ^ 63`
(`cacheMissRate_exact_iff`).

The rate is a rational number here.  `ComputeProfile` converts the total to a `float64` before it
divides, and above `2 ^ 53` that conversion rounds.
-/

namespace Akil

/-- The `MissCountDelta` of the event behind an entry of the log.  The entry holds it as the
conversion to `int64` has left it. -/
def LogEntry.missCountDelta (e : LogEntry) : ℤ := e.counts.cacheMisses % 2 ^ 64

/-- The mathematical sum of the deltas. -/
def missCount (es : List LogEntry) : ℤ := (es.map LogEntry.missCountDelta).sum

/-- The delta an event carries, if it is a cache-miss event. -/
def TelemetryEvent.missCountDelta (evt : TelemetryEvent) : ℕ :=
  match evt.eventType, evt.getCacheMiss with
  | .cacheMiss, some delta => delta.toNat
  | _, _ => 0

/-- An entry made by an event holds the event's delta. -/
lemma missCountDelta_of_event {evt : TelemetryEvent} {r : RecordCall}
    (h : evt.recordCall = some r) (t : ℤ) (nodeName : String) :
    (⟨t, nodeName, r.counts⟩ : LogEntry).missCountDelta = evt.missCountDelta := by
  unfold TelemetryEvent.recordCall at h
  unfold LogEntry.missCountDelta TelemetryEvent.missCountDelta
  cases hevent : evt.eventType with
  | cacheMiss =>
      rw [hevent] at h
      obtain ⟨delta, hdelta, rfl⟩ := Option.map_eq_some_iff.mp h
      rw [hdelta]
      exact toInt_toInt64_emod delta
  | lockContention =>
      rw [hevent] at h
      obtain ⟨durationNs, -, rfl⟩ := Option.map_eq_some_iff.mp h
      rfl
  | pageFault | contextSwitch =>
      rw [hevent] at h
      obtain rfl := Option.some.inj h
      rfl
  | unspecified | unrecognized value =>
      rw [hevent] at h
      contradiction

lemma missCount_nonneg (es : List LogEntry) : 0 ≤ missCount es := by
  refine List.sum_nonneg ?_
  intro x hx
  obtain ⟨e, -, rfl⟩ := List.mem_map.mp hx
  exact Int.emod_nonneg _ (by norm_num)

/-- The counter the entries leave is their sum of deltas, modulo `2 ^ 64`. -/
lemma cacheMisses_wrap (es : List LogEntry) :
    (Counts.wrap (sumCounts es)).cacheMisses = int64OfInt (missCount es) := by
  have hsum : (sumCounts es).cacheMisses = (es.map (fun e => e.counts.cacheMisses)).sum := by
    induction es with
    | nil => rfl
    | cons e es ih =>
        rw [List.map_cons, List.sum_cons, ← ih]
        rfl
  change int64OfInt (sumCounts es).cacheMisses = _
  rw [hsum, missCount, map_list_sum, map_list_sum, List.map_map, List.map_map]
  refine congrArg List.sum (List.map_congr_left fun e _ => ?_)
  exact (int64OfInt_emod _).symm

/-! ## Entries and events -/

/-- If the call makes a record, it is the record of a telemetry event. -/
def StoreCall.FromTelemetry (c : StoreCall) : Prop :=
  ∀ key r nodeName, c = .onProfile key (.record r nodeName) →
    ∃ evt : TelemetryEvent, evt.workloadKey = key ∧ evt.recordCall = some r

/-- What `StreamTelemetry` does to the store for a batch comes from its events. -/
lemma TelemetryBatch.fromTelemetry_calls (batch : TelemetryBatch) :
    ∀ c ∈ batch.calls, c.FromTelemetry := by
  rintro c hc key r nodeName rfl
  obtain ⟨evt, -, hc⟩ := List.mem_flatMap.mp hc
  unfold TelemetryEvent.calls at hc
  split_ifs at hc
  · cases hc
  · obtain ⟨hr, hkey, -⟩ : evt.recordCall = some r ∧ evt.workloadKey = key ∧
        batch.nodeName = nodeName := by simpa using hc
    exact ⟨evt, hkey, hr⟩

/-- The calls of a key's history that record are calls of the run. -/
lemma mem_of_mem_keyHistory {key : String} {calls : List (ℤ × StoreCall)} {created : ℤ}
    {own : List (ℤ × ProfileCall)} (h : keyHistory key calls = some (created, own)) {t : ℤ}
    {r : RecordCall} {nodeName : String} (hmem : (t, .record r nodeName) ∈ own) :
    (t, .onProfile key (.record r nodeName)) ∈ calls := by
  induction calls using List.reverseRecOn generalizing own with
  | nil => simp [keyHistory] at h
  | append_singleton calls c ih =>
      obtain ⟨u, c⟩ := c
      cases hhist : keyHistory key calls with
      | none =>
          obtain ⟨-, rfl⟩ := keyHistory_concat_of_none hhist h
          cases hmem
      | some before =>
          obtain ⟨created', own'⟩ := before
          rcases keyHistory_concat_cases hhist u c with ⟨heq, -⟩ | ⟨c', heq, hrecord⟩
          · obtain ⟨rfl, rfl⟩ : created' = created ∧ own' = own := by simpa using heq.symm.trans h
            exact List.mem_append_left _ (ih hhist hmem)
          · obtain ⟨rfl, rfl⟩ : created' = created ∧ own' ++ [(u, c')] = own := by
              simpa using heq.symm.trans h
            rcases List.mem_append.mp hmem with hold | hnew
            · exact List.mem_append_left _ (ih hhist hold)
            · obtain ⟨rfl, rfl⟩ : t = u ∧ .record r nodeName = c' := by simpa using hnew
              rw [(hrecord r nodeName).mpr rfl]
              exact List.mem_append_right _ (List.mem_singleton_self _)

/-- A counted entry was made by a record of the run. -/
lemma record_of_historyCounted {n : ℕ} {d : ℤ} {calls : List (ℤ × StoreCall)} {key : String}
    {t : ℤ} {e : LogEntry} (h : e ∈ historyCounted n d calls key t) :
    ∃ r, (e.time, .onProfile key (.record r e.nodeName)) ∈ calls ∧
      e = ⟨e.time, e.nodeName, r.counts⟩ := by
  unfold historyCounted at h
  cases hhist : keyHistory key calls with
  | none =>
      rw [hhist] at h
      cases h
  | some own =>
      obtain ⟨created, own⟩ := own
      rw [hhist] at h
      obtain ⟨⟨u, c⟩, hc, hentry⟩ :=
        List.mem_filterMap.mp ((countedAt_sublist n d created own t).subset h)
      cases c with
      | record r nodeName =>
          obtain rfl := Option.some.inj hentry
          exact ⟨r, mem_of_mem_keyHistory hhist hc, rfl⟩
      | resetData => cases hentry
      | computeProfile => cases hentry

/-- The counters that `ComputeProfile` has added up for the query are those of the records
counted. -/
lemma totals_queried {key : String} {n : ℕ} (hn : 1 ≤ n) {d : ℤ} (hd : 0 < d)
    {calls : List (ℤ × StoreCall)} {t : ℤ} {wp : WorkloadProfile}
    (h : (((newStore n d).run calls).queryProfile key t).2.get key = some wp) :
    wp.totals = Counts.wrap (sumCounts (historyCounted n d calls key t)) := by
  have hget := store_get_eq key hn hd calls
  cases hhist : keyHistory key calls with
  | none =>
      rw [hhist, Option.map_none] at hget
      rw [Store.queryProfile, hget] at h
      cases hget.symm.trans h
  | some own =>
      obtain ⟨created, own⟩ := own
      rw [hhist, Option.map_some] at hget
      rw [Store.queryProfile, hget] at h
      obtain rfl := Option.some.inj ((Store.get_put_self _ _ _).symm.trans h)
      rw [historyCounted, hhist]
      exact ((Coupled.new_run key hn hd created own).exec t .computeProfile).totals_eq

/-- **Cache-miss accounting.**  For every run of the store whose records come from telemetry
events, whatever queries and resets come in between, and every query after it: each entry counted
is that of an event and holds the event's delta; the `int64` total of the query is the sum of these
deltas if and only if the sum is below `2 ^ 63`; and so is the reported rate times the length of
the window, if rates are taken as the quotients they round. -/
theorem cacheMissRate_exact_iff (key : String) (n : ℕ) (hn : 1 ≤ n) (d : ℤ) (hd : 0 < d)
    (calls : List (ℤ × StoreCall)) (hcalls : ∀ c ∈ calls, c.2.FromTelemetry) (t : ℤ) :
    let counted := historyCounted n d calls key t
    let queried := ((newStore n d).run calls).queryProfile key t
    (∀ e ∈ counted, ∃ (evt : TelemetryEvent) (r : RecordCall), evt.workloadKey = key ∧
        evt.recordCall = some r ∧ (e.time, .onProfile key (.record r e.nodeName)) ∈ calls ∧
        e.missCountDelta = evt.missCountDelta) ∧
      (∀ wp ∈ queried.2.get key,
        wp.totals.cacheMisses.toInt = missCount counted ↔ missCount counted < 2 ^ 63) ∧
      (queried.1.cacheMissRate * windowSeconds n d = missCount counted
        ↔ missCount counted < 2 ^ 63) := by
  intro counted queried
  have hfits : FitsInt64 (missCount counted) ↔ missCount counted < 2 ^ 63 := by
    have hnonneg := missCount_nonneg counted
    exact ⟨fun h => h.2, fun h => ⟨by linarith, h⟩⟩
  refine ⟨?_, fun wp hwp => ?_, ?_⟩
  · intro e he
    obtain ⟨r, hmem, hentry⟩ := record_of_historyCounted he
    obtain ⟨evt, hkey, hr⟩ := hcalls _ hmem key r e.nodeName rfl
    refine ⟨evt, r, hkey, hr, hmem, ?_⟩
    rw [hentry]
    exact missCountDelta_of_event hr e.time e.nodeName
  · rw [totals_queried hn hd hwp, cacheMisses_wrap, toInt_int64OfInt_iff, hfits]
  · have hwindow : windowSeconds n d ≠ 0 := (windowSeconds_pos hn hd).ne'
    have hrate : queried.1.cacheMissRate = _ := (queryProfile_counted key hn hd calls t).1
    rw [hrate, cacheMisses_wrap, div_mul_cancel₀ _ hwindow, Int.cast_inj, toInt_int64OfInt_iff,
      hfits]

/-- A batch with two deltas, one of them large, whose sum is below `2 ^ 53`, in a window of one
second: both the total and the rate are the sum. -/
theorem cacheMissRate_exact_large :
    let batch : TelemetryBatch := ⟨"node-1", 0,
      [⟨.cacheMiss, "default/Deployment/web", 0, some (.cacheMiss 4503599627370496)⟩,
        ⟨.cacheMiss, "default/Deployment/web", 0, some (.cacheMiss 7)⟩]⟩
    let calls := batch.calls.map (fun c => ((0 : ℤ), c))
    let queried := ((newStore (2 : ℕ) 500000000).run calls).queryProfile
      "default/Deployment/web" 0
    (∃ wp ∈ queried.2.get "default/Deployment/web", wp.totals.cacheMisses.toInt = 2 ^ 52 + 7) ∧
      queried.1.cacheMissRate * windowSeconds 2 500000000 = 2 ^ 52 + 7 := by
  intro batch calls queried
  have hcalls : ∀ c ∈ calls, c.2.FromTelemetry := by
    intro c hc
    obtain ⟨c', hc', rfl⟩ := List.mem_map.mp hc
    exact batch.fromTelemetry_calls c' hc'
  have hsum : missCount (historyCounted 2 500000000 calls "default/Deployment/web" 0)
      = 2 ^ 52 + 7 := by decide +kernel
  obtain ⟨-, htotal, hrate⟩ := cacheMissRate_exact_iff "default/Deployment/web" 2 (by decide)
    500000000 (by decide) calls hcalls 0
  rw [hsum] at htotal hrate
  obtain ⟨wp, hwp⟩ := Option.isSome_iff_exists.mp
    (show (queried.2.get "default/Deployment/web").isSome by decide +kernel)
  refine ⟨⟨wp, hwp, (htotal wp hwp).mpr (by norm_num)⟩, ?_⟩
  rw [hrate.mpr (by norm_num)]
  norm_num

/-- One event with a delta of `2 ^ 63`: the `int64` total is negative, and the window of one second
reports `-2 ^ 63` misses per second. -/
theorem cacheMissRate_negative :
    let batch : TelemetryBatch := ⟨"node-1", 0,
      [⟨.cacheMiss, "default/Deployment/web", 0, some (.cacheMiss 9223372036854775808)⟩]⟩
    let calls := batch.calls.map (fun c => ((0 : ℤ), c))
    let queried := ((newStore (2 : ℕ) 500000000).run calls).queryProfile
      "default/Deployment/web" 0
    let sum := missCount (historyCounted 2 500000000 calls "default/Deployment/web" 0)
    sum = 2 ^ 63 ∧
      (queried.2.get "default/Deployment/web").map (fun wp => wp.totals.cacheMisses.toInt)
        = some (-2 ^ 63) ∧
      queried.1.cacheMissRate = -2 ^ 63 ∧
      queried.1.cacheMissRate * windowSeconds 2 500000000 ≠ sum := by
  decide +kernel

end Akil
