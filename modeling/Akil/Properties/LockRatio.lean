import Akil.Construction.Aggregator.Ingest
import Akil.Properties.Horizon
import Akil.Properties.NodeAttribution

/-!
# When the lock contention ratio is a fraction

`LockContentionRatio` is documented as the fraction of time in contention, in `[0.0, 1.0]`.  It is
the sum of the waits the window holds, divided by the length of the window.  The sum runs over all
threads and all pods of the workload, and a wait counts in full when it ends, however long ago it
began; nothing keeps the sum below the length (`lock_ratio_exceeds_one`).

A wait is held until the window rotates it out, and rotating only lets waits go.  So the ratio of
a later query can only be too large because some record already found too little room: the waits
held when it arrived, together with its own, were longer than the window.  Along a run of the
store the ratio is a fraction at every later query if and only if that never happens
(`lock_ratio_is_fraction_iff`).
-/

namespace Akil

/-! ## Waits held by a log -/

/-- The sum of the waits of some records. -/
def lockNs (es : List LogEntry) : ℤ := (sumCounts es).lockDurationNs

lemma lockNs_eq_sum (es : List LogEntry) :
    lockNs es = (es.map (fun e => e.counts.lockDurationNs)).sum := by
  unfold lockNs sumCounts
  induction es with
  | nil => rfl
  | cons e es ih =>
      rw [List.map_cons, List.map_cons, List.sum_cons, List.sum_cons, ← ih]
      rfl

lemma lockNs_concat (es : List LogEntry) (e : LogEntry) :
    lockNs (es ++ [e]) = lockNs es + e.counts.lockDurationNs := by
  rw [lockNs_eq_sum, lockNs_eq_sum, List.map_append, List.sum_append]
  simp

/-- Fewer waits, none negative, sum to no more. -/
lemma lockNs_le_of_sublist {es es' : List LogEntry} (h : es.Sublist es')
    (hnonneg : ∀ e ∈ es', 0 ≤ e.counts.lockDurationNs) : lockNs es ≤ lockNs es' := by
  rw [lockNs_eq_sum, lockNs_eq_sum]
  apply (h.map _).sum_le_sum
  intro x hx
  obtain ⟨e, he, rfl⟩ := List.mem_map.mp hx
  exact hnonneg e he

namespace EventLog

variable {n : ℕ} {d : ℤ} {E : EventLog}

/-- Rotating only lets records go. -/
lemma counted_rotate_sublist (n : ℕ) (d t : ℤ) (E : EventLog) :
    ((E.rotate n d t).counted n).Sublist (E.counted n) := by
  unfold rotate
  split_ifs
  · exact List.Sublist.refl _
  · exact (E.log.live_advance_sublist n _).map Prod.snd

/-- A log rotated at `t` has nothing more to rotate at `t`. -/
lemma rotationsAt_rotate (hn : 1 ≤ n) (hd : 0 < d) {t : ℤ} (hle : E.lastRotation ≤ t) :
    (E.rotate n d t).rotationsAt n d t = 0 := by
  obtain ⟨hlast, hrecent⟩ := E.rotate_recent hn hd hle
  rw [rotationsAt, Int.ediv_eq_zero_of_lt (by omega) hrecent]
  simp

/-- What is counted right after a record. -/
lemma counted_record (hn : 1 ≤ n) (d t : ℤ) (E : EventLog) (r : RecordCall) (nodeName : String) :
    (E.exec n d t (.record r nodeName)).counted n
      = (E.rotate n d t).counted n ++ [⟨t, nodeName, r.counts⟩] := by
  change (((E.rotate n d t).log.append ⟨t, nodeName, r.counts⟩).live n).map Prod.snd = _
  rw [RotationLog.live_append hn, List.map_append]
  rfl

end EventLog

/-! ## One more call -/

/-- The wait a call records, if it records. -/
def ProfileCall.lockNs : ProfileCall → ℤ
  | .record r _ => r.counts.lockDurationNs
  | _ => 0

/-- No record of the history has a negative wait. -/
def WaitsNonneg (own : List (ℤ × ProfileCall)) : Prop :=
  ∀ c ∈ own, 0 ≤ c.2.lockNs

lemma WaitsNonneg.recordsOf {own : List (ℤ × ProfileCall)} (h : WaitsNonneg own) :
    ∀ e ∈ recordsOf own, 0 ≤ e.counts.lockDurationNs := by
  intro e he
  obtain ⟨⟨t, c⟩, hc, hentry⟩ := List.mem_filterMap.mp he
  have hnonneg := h _ hc
  cases c with
  | record r nodeName =>
      obtain rfl : _ = e := Option.some.inj hentry
      exact hnonneg
  | resetData => cases hentry
  | computeProfile => cases hentry

/-- The waits held at a query are not negative. -/
lemma lockNs_countedAt_nonneg (n : ℕ) (d created : ℤ) {own : List (ℤ × ProfileCall)}
    (h : WaitsNonneg own) (t : ℤ) : 0 ≤ lockNs (countedAt n d created own t) :=
  lockNs_le_of_sublist (List.nil_sublist _) (fun e he =>
    h.recordsOf e ((countedAt_sublist n d created own t).subset he))

lemma countedAt_nil (n : ℕ) (d created t : ℤ) : countedAt n d created [] t = [] :=
  List.sublist_nil.mp (countedAt_sublist n d created [] t)

/-- After one more call, a later query holds at most the waits held at the call and the call's
own. -/
lemma lockNs_countedAt_concat_le {n : ℕ} (hn : 1 ≤ n) (d created : ℤ)
    {own : List (ℤ × ProfileCall)} {t : ℤ} {c : ProfileCall} (h : WaitsNonneg (own ++ [(t, c)]))
    (t' : ℤ) :
    lockNs (countedAt n d created (own ++ [(t, c)]) t')
      ≤ lockNs (countedAt n d created own t) + c.lockNs := by
  have hsub := entries_run_sublist n d (EventLog.new created) (own ++ [(t, c)])
  have hbefore := lockNs_countedAt_nonneg n d created
    (fun c hc => h c (List.mem_append_left _ hc)) t
  rw [countedAt]
  rw [EventLog.run_concat] at hsub ⊢
  set E := (EventLog.new created).run n d own
  have hrotate : lockNs (((E.exec n d t c).rotate n d t').counted n)
      ≤ lockNs ((E.exec n d t c).counted n) := by
    apply lockNs_le_of_sublist (EventLog.counted_rotate_sublist n d t' _)
    intro e he
    exact h.recordsOf e (hsub.subset ((List.filter_sublist.map Prod.snd).subset he))
  refine hrotate.trans ?_
  cases c with
  | record r nodeName =>
      rw [EventLog.counted_record hn, lockNs_concat]
      rfl
  | resetData =>
      have hempty : lockNs ((E.exec n d t .resetData).counted n) = 0 := rfl
      rw [hempty]
      exact hbefore.trans (add_zero _).ge
  | computeProfile => exact (add_zero _).ge

/-- Right after a record, a query holds the waits held before and the record's own. -/
lemma lockNs_countedAt_record {n : ℕ} (hn : 1 ≤ n) {d : ℤ} (hd : 0 < d) {created : ℤ}
    {own : List (ℤ × ProfileCall)} {t : ℤ} (hclock : NondecreasingFrom created own)
    (hle : lastTime created own ≤ t) (r : RecordCall) (nodeName : String) :
    lockNs (countedAt n d created (own ++ [(t, .record r nodeName)]) t)
      = lockNs (countedAt n d created own t) + r.counts.lockDurationNs := by
  rw [countedAt, EventLog.run_concat]
  have hlast : ((EventLog.new created).run n d own).lastRotation ≤ t :=
    (EventLog.lastRotation_run_le hn hd le_rfl hclock).trans hle
  have hrotated : (((EventLog.new created).run n d own).exec n d t
      (.record r nodeName)).rotationsAt n d t = 0 := EventLog.rotationsAt_rotate hn hd hlast
  rw [EventLog.rotate, if_pos hrotated, EventLog.counted_record hn, lockNs_concat]
  rfl

/-! ## The history of a key -/

/-- The wait a call on the store records, if it records. -/
def StoreCall.lockNs : StoreCall → ℤ
  | .onProfile _ c => c.lockNs
  | _ => 0

/-- The call a key's history gets from a call on the store waits no longer than that call. -/
lemma StoreCall.lockNs_history {key : String} {c : StoreCall} {c' : ProfileCall}
    (hrecord : ∀ r nodeName, c = .onProfile key (.record r nodeName) ↔ c' = .record r nodeName)
    (hnonneg : 0 ≤ c.lockNs) : 0 ≤ c'.lockNs ∧ c'.lockNs ≤ c.lockNs := by
  cases c' with
  | record r nodeName =>
      obtain rfl := (hrecord r nodeName).mpr rfl
      exact ⟨hnonneg, le_rfl⟩
  | resetData => exact ⟨le_rfl, hnonneg⟩
  | computeProfile => exact ⟨le_rfl, hnonneg⟩

/-- The history of a key is clocked as the run is and records no negative wait if the run records
none. -/
lemma keyHistory_clocked {key : String} {start : ℤ} {calls : List (ℤ × StoreCall)}
    (hclock : NondecreasingFrom start calls) (hnonneg : ∀ c ∈ calls, 0 ≤ c.2.lockNs)
    {created : ℤ} {own : List (ℤ × ProfileCall)} (h : keyHistory key calls = some (created, own)) :
    NondecreasingFrom created own ∧ lastTime created own ≤ lastTime start calls ∧
      WaitsNonneg own := by
  induction calls using List.reverseRecOn generalizing own with
  | nil => cases h
  | append_singleton calls c ih =>
      obtain ⟨t, c⟩ := c
      obtain ⟨hclock, hle⟩ := nondecreasingFrom_concat.mp hclock
      rw [lastTime_concat]
      cases hhist : keyHistory key calls with
      | none =>
          obtain ⟨rfl, rfl⟩ := keyHistory_concat_of_none hhist h
          exact ⟨trivial, le_rfl, by simp [WaitsNonneg]⟩
      | some before =>
          obtain ⟨created', own'⟩ := before
          have hnonneg' : ∀ c ∈ calls, 0 ≤ c.2.lockNs :=
            fun c hc => hnonneg c (List.mem_append_left _ hc)
          rcases keyHistory_concat_cases hhist t c with ⟨heq, -⟩ | ⟨c', heq, hrecord⟩
          · obtain ⟨rfl, rfl⟩ : created' = created ∧ own' = own := by
              simpa using heq.symm.trans h
            obtain ⟨hown, hlast, hwaits⟩ := ih hclock hnonneg' hhist
            exact ⟨hown, hlast.trans hle, hwaits⟩
          · obtain ⟨rfl, rfl⟩ : created' = created ∧ own' ++ [(t, c')] = own := by
              simpa using heq.symm.trans h
            obtain ⟨hown, hlast, hwaits⟩ := ih hclock hnonneg' hhist
            refine ⟨nondecreasingFrom_concat.mpr ⟨hown, hlast.trans hle⟩,
              (lastTime_concat _ _ _).le, fun x hx => ?_⟩
            rcases List.mem_append.mp hx with hx | hx
            · exact hwaits x hx
            · rw [List.mem_singleton.mp hx]
              have hlast := hnonneg (t, c) (List.mem_append_right _ (List.mem_singleton_self _))
              exact (StoreCall.lockNs_history hrecord hlast).1

/-- The first call of a key that is not yet created records nothing. -/
lemma historyCounted_concat_of_none {key : String} {calls : List (ℤ × StoreCall)}
    (h : keyHistory key calls = none) (n : ℕ) (d : ℤ) (c : ℤ × StoreCall) (t : ℤ) :
    historyCounted n d (calls ++ [c]) key t = [] := by
  obtain ⟨u, c⟩ := c
  rw [historyCounted, keyHistory_concat, h]
  cases c with
  | getOrCreate key' => by_cases hk : key' = key <;> simp [historyStep, hk, countedAt_nil]
  | onProfile key' c => rfl
  | visitNode nodeName key' => rfl

lemma lockNs_historyCounted_nonneg (key : String) (n : ℕ) (d : ℤ) {start : ℤ}
    {calls : List (ℤ × StoreCall)} (hclock : NondecreasingFrom start calls)
    (hnonneg : ∀ c ∈ calls, 0 ≤ c.2.lockNs) (t : ℤ) :
    0 ≤ lockNs (historyCounted n d calls key t) := by
  unfold historyCounted
  cases hhist : keyHistory key calls with
  | none => exact le_rfl
  | some h =>
      exact lockNs_countedAt_nonneg n d h.1 (keyHistory_clocked hclock hnonneg hhist).2.2 t

/-- A query holds no longer waits than the whole run has recorded. -/
lemma lockNs_historyCounted_le (key : String) {n : ℕ} (hn : 1 ≤ n) (d : ℤ) {start : ℤ}
    {calls : List (ℤ × StoreCall)} (hclock : NondecreasingFrom start calls)
    (hnonneg : ∀ c ∈ calls, 0 ≤ c.2.lockNs) (t : ℤ) :
    lockNs (historyCounted n d calls key t) ≤ (calls.map (fun c => c.2.lockNs)).sum := by
  induction calls using List.reverseRecOn generalizing t with
  | nil => exact le_rfl
  | append_singleton calls c ih =>
      have hnonneg' : ∀ c ∈ calls, 0 ≤ c.2.lockNs :=
        fun c hc => hnonneg c (List.mem_append_left _ hc)
      have hlast : 0 ≤ c.2.lockNs :=
        hnonneg c (List.mem_append_right _ (List.mem_singleton_self c))
      have hprev := ih (nondecreasingFrom_concat.mp hclock).1 hnonneg'
      rw [List.map_append, List.sum_append, List.map_singleton, List.sum_singleton]
      cases hhist : keyHistory key calls with
      | none =>
          have hsum : 0 ≤ (calls.map (fun c => c.2.lockNs)).sum := by
            apply List.sum_nonneg
            intro x hx
            obtain ⟨c', hc', rfl⟩ := List.mem_map.mp hx
            exact hnonneg' c' hc'
          rw [historyCounted_concat_of_none hhist]
          exact add_nonneg hsum hlast
      | some h =>
          obtain ⟨created, own⟩ := h
          simp only [historyCounted, hhist] at hprev
          rcases keyHistory_concat_cases hhist c.1 c.2 with ⟨heq, -⟩ | ⟨c', heq, hrecord⟩
          · simp only [historyCounted, heq]
            linarith [hprev t]
          · have hwaits := (keyHistory_clocked hclock hnonneg heq).2.2
            have hle := (StoreCall.lockNs_history hrecord hlast).2
            simp only [historyCounted, heq]
            linarith [lockNs_countedAt_concat_le hn d created hwaits t, hprev c.1]

/-! ## The ratio of a query -/

/-- A record on the key finds room: the waits the window holds when it arrives, with its own, are
no longer than the window.  This is a condition on the record and on the state it finds. -/
def LockRoom (key : String) (t : ℤ) (c : StoreCall) (s : Store) : Prop :=
  match c with
  | .onProfile key' (.record r _) => key' = key → ∀ wp ∈ s.get key,
      (wp.maybeRotate t).totals.lockDurationNs.toInt + r.counts.lockDurationNs
        ≤ wp.bucketCount * wp.bucketDuration
  | _ => True

instance (key : String) (t : ℤ) (c : StoreCall) (s : Store) : Decidable (LockRoom key t c s) :=
  match c with
  | .onProfile _ (.record _ _) => inferInstanceAs (Decidable (_ → _))
  | .onProfile _ .resetData => isTrue trivial
  | .onProfile _ .computeProfile => isTrue trivial
  | .getOrCreate _ => isTrue trivial
  | .visitNode _ _ => isTrue trivial

section Ratio

variable {key : String} {n : ℕ} {d : ℤ}

/-- What a window that is replayed holds at `t`, as long as nothing overflows. -/
lemma lockDurationNs_replay (hn : 1 ≤ n) (hd : 0 < d) {created : ℤ} {own : List (ℤ × ProfileCall)}
    {t : ℤ} (hfits : FitsInt64 (lockNs (countedAt n d created own t))) :
    ((replay key n d (created, own)).maybeRotate t).totals.lockDurationNs.toInt
      = lockNs (countedAt n d created own t) := by
  have hcoupled := (Coupled.new_run key hn hd created own).exec t .computeProfile
  have htotals : ((replay key n d (created, own)).maybeRotate t).totals
      = Counts.wrap (sumCounts (countedAt n d created own t)) := hcoupled.totals_eq
  rw [htotals]
  exact toInt_int64OfInt hfits

/-- The ratio of a query: the waits held, divided by the length of the window. -/
lemma lockContentionRatio_eq (hn : 1 ≤ n) (hd : 0 < d) {calls : List (ℤ × StoreCall)} {t : ℤ}
    (hfits : FitsInt64 (lockNs (historyCounted n d calls key t))) :
    (((newStore n d).run calls).queryProfile key t).1.lockContentionRatio
      = lockNs (historyCounted n d calls key t) / (n * d) := by
  have hwrap : (Counts.wrap (sumCounts (historyCounted n d calls key t))).lockDurationNs.toInt
      = lockNs (historyCounted n d calls key t) := toInt_int64OfInt hfits
  rw [(queryProfile_counted key hn hd calls t).2, hwrap, windowSeconds]
  congr 1
  field_simp

/-- Up to overflow, a query's ratio is a fraction if the waits held are no longer than the
window. -/
lemma ratio_mem_iff (hn : 1 ≤ n) (hd : 0 < d) {calls : List (ℤ × StoreCall)} {t : ℤ}
    (hfits : FitsInt64 (lockNs (historyCounted n d calls key t)))
    (hnonneg : 0 ≤ lockNs (historyCounted n d calls key t)) :
    (0 ≤ (((newStore n d).run calls).queryProfile key t).1.lockContentionRatio ∧
        (((newStore n d).run calls).queryProfile key t).1.lockContentionRatio ≤ 1)
      ↔ lockNs (historyCounted n d calls key t) ≤ n * d := by
  have hn' : (0 : ℚ) < n := by exact_mod_cast hn
  have hd' : (0 : ℚ) < d := by exact_mod_cast hd
  have hlock : (0 : ℚ) ≤ lockNs (historyCounted n d calls key t) := by exact_mod_cast hnonneg
  rw [lockContentionRatio_eq hn hd hfits, div_le_one (mul_pos hn' hd')]
  constructor
  · rintro ⟨-, hle⟩
    exact_mod_cast hle
  · intro hle
    exact ⟨by positivity, by exact_mod_cast hle⟩

/-- `LockRoom` in the terms of the key's history. -/
lemma lockRoom_of_get (hn : 1 ≤ n) (hd : 0 < d) {created : ℤ} {own : List (ℤ × ProfileCall)}
    {t : ℤ} {c : StoreCall} {s : Store} (hget : s.get key = some (replay key n d (created, own)))
    (hfits : FitsInt64 (lockNs (countedAt n d created own t))) :
    LockRoom key t c s ↔ ∀ r nodeName, c = .onProfile key (.record r nodeName) →
      lockNs (countedAt n d created own t) + r.counts.lockDurationNs ≤ n * d := by
  have hcoupled := Coupled.new_run key hn hd created own
  have hcount : (replay key n d (created, own)).bucketCount = n := hcoupled.bucketCount
  have hduration : (replay key n d (created, own)).bucketDuration = d := hcoupled.bucketDuration
  have hheld : ((replay key n d (created, own)).maybeRotate t).totals.lockDurationNs.toInt
      = lockNs (countedAt n d created own t) := lockDurationNs_replay hn hd hfits
  constructor
  · rintro h r nodeName rfl
    have hroom := h rfl _ hget
    rwa [hheld, hcount, hduration] at hroom
  · intro h
    unfold LockRoom
    split
    · rintro rfl wp hwp
      obtain rfl : replay _ n d (created, own) = wp := Option.some.inj (hget.symm.trans hwp)
      rw [hheld, hcount, hduration]
      exact h _ _ rfl
    · trivial

/-- **One call.**  If no query up to the call can hold more than the window is long, none after it
can exactly if the call finds room. -/
lemma lockRoom_iff (hn : 1 ≤ n) (hd : 0 < d) {start : ℤ} {calls : List (ℤ × StoreCall)} {t : ℤ}
    {c : StoreCall} (hclock : NondecreasingFrom start (calls ++ [(t, c)]))
    (hnonneg : ∀ c' ∈ calls ++ [(t, c)], 0 ≤ c'.2.lockNs)
    (hfits : FitsInt64 (lockNs (historyCounted n d calls key t)))
    (hbefore : ∀ t', lastTime start calls ≤ t' →
      lockNs (historyCounted n d calls key t') ≤ n * d) :
    (∀ t', t ≤ t' → lockNs (historyCounted n d (calls ++ [(t, c)]) key t') ≤ n * d)
      ↔ LockRoom key t c ((newStore n d).run calls) := by
  obtain ⟨hclock', hle⟩ := nondecreasingFrom_concat.mp hclock
  have hwindow : 0 ≤ (n : ℤ) * d := by positivity
  have hget := store_get_eq key hn hd calls
  cases hhist : keyHistory key calls with
  | none =>
      -- without a profile there is nothing to hold, and no record to find room for
      rw [hhist, Option.map_none] at hget
      refine iff_of_true (fun t' _ => ?_) ?_
      · rw [historyCounted_concat_of_none hhist]
        exact hwindow
      · unfold LockRoom
        split
        · rintro - wp hwp
          rw [hget] at hwp
          cases hwp
        · trivial
  | some h =>
      obtain ⟨created, own⟩ := h
      rw [hhist, Option.map_some] at hget
      obtain ⟨hown, hlast, -⟩ := keyHistory_clocked hclock'
        (fun c hc => hnonneg c (List.mem_append_left _ hc)) hhist
      simp only [historyCounted, hhist] at hbefore hfits
      rw [lockRoom_of_get hn hd hget hfits]
      rcases keyHistory_concat_cases hhist t c with ⟨heq, hnot⟩ | ⟨c', heq, hrecord⟩
      · simp only [historyCounted, heq]
        refine iff_of_true (fun t' ht' => hbefore t' (hle.trans ht')) ?_
        intro r nodeName hc
        exact absurd hc (hnot r nodeName)
      · obtain ⟨-, -, hwaits⟩ := keyHistory_clocked hclock hnonneg heq
        simp only [historyCounted, heq]
        constructor
        · intro h r nodeName hc
          rw [(hrecord r nodeName).mp hc] at h
          have hnow := h t le_rfl
          rwa [lockNs_countedAt_record hn hd hown (hlast.trans hle)] at hnow
        · intro h t' ht'
          refine (lockNs_countedAt_concat_le hn d created hwaits t').trans ?_
          cases c' with
          | record r nodeName => exact h r nodeName ((hrecord r nodeName).mpr rfl)
          | resetData => simpa [ProfileCall.lockNs] using hbefore t hle
          | computeProfile => simpa [ProfileCall.lockNs] using hbefore t hle

end Ratio

/-- `LockRoom` after a run of the store, in terms of the records counted. -/
lemma lockRoom_run_iff (key : String) {n : ℕ} (hn : 1 ≤ n) {d : ℤ} (hd : 0 < d)
    {calls : List (ℤ × StoreCall)} {t : ℤ}
    (hfits : FitsInt64 (lockNs (historyCounted n d calls key t))) (c : StoreCall) :
    LockRoom key t c ((newStore n d).run calls) ↔
      ∀ r nodeName, c = .onProfile key (.record r nodeName) → keyHistory key calls ≠ none →
        lockNs (historyCounted n d calls key t) + r.counts.lockDurationNs ≤ n * d := by
  have hget := store_get_eq key hn hd calls
  cases hhist : keyHistory key calls with
  | none =>
      rw [hhist, Option.map_none] at hget
      refine iff_of_true ?_ (fun _ _ _ hne => absurd rfl hne)
      unfold LockRoom
      split
      · rintro - wp hwp
        rw [hget] at hwp
        cases hwp
      · trivial
  | some h =>
      obtain ⟨created, own⟩ := h
      rw [hhist, Option.map_some] at hget
      simp only [historyCounted, hhist] at hfits ⊢
      rw [lockRoom_of_get hn hd hget hfits]
      simp

/-- Every record on the workload, when it arrives, finds room in the window beside the waits of the
records that a query would count just then. -/
def WaitsFit (key : String) (n : ℕ) (d : ℤ) (calls : List (ℤ × StoreCall)) : Prop :=
  ∀ k t r nodeName, calls[k]? = some (t, .onProfile key (.record r nodeName)) →
    keyHistory key (calls.take k) ≠ none →
    lockNs (historyCounted n d (calls.take k) key t) + r.counts.lockDurationNs ≤ n * d

lemma allSteps_lockRoom_iff (key : String) {n : ℕ} (hn : 1 ≤ n) {d : ℤ} (hd : 0 < d)
    {calls : List (ℤ × StoreCall)}
    (hfits : ∀ k t, FitsInt64 (lockNs (historyCounted n d (calls.take k) key t))) :
    AllSteps Store.exec (LockRoom key) (newStore n d) calls ↔ WaitsFit key n d calls := by
  rw [allSteps_iff_getElem?]
  constructor
  · intro h k t r nodeName hk
    have hfinds : LockRoom key t (.onProfile key (.record r nodeName))
        ((newStore n d).run (calls.take k)) := h k (t, .onProfile key (.record r nodeName)) hk
    exact (lockRoom_run_iff key hn hd (hfits k t) (.onProfile key (.record r nodeName))).mp hfinds
      r nodeName rfl
  · rintro h k ⟨t, c⟩ hk
    refine (lockRoom_run_iff key hn hd (hfits k t) c).mpr ?_
    rintro r nodeName rfl
    exact h k t r nodeName hk

/-- **When the lock contention ratio is a fraction.**  A run of the store in which no recorded wait
is negative and no sum of waits overflows: whatever threads, pods and nodes the waits come from, at
every point of the run every later query of the workload gets a ratio between zero and one, if and
only if every record of the run finds room in the workload's window, which can be read off the
window's counters or off the records. -/
theorem lock_ratio_is_fraction_iff (key : String) (n : ℕ) (hn : 1 ≤ n) (d : ℤ) (hd : 0 < d)
    (start : ℤ) (calls : List (ℤ × StoreCall)) (hclock : NondecreasingFrom start calls)
    (hnonneg : ∀ c ∈ calls, 0 ≤ c.2.lockNs)
    (hfits : ∀ k t, FitsInt64 (lockNs (historyCounted n d (calls.take k) key t))) :
    ((∀ k t, lastTime start (calls.take k) ≤ t →
        let ratio := (((newStore n d).run (calls.take k)).queryProfile key t).1.lockContentionRatio
        0 ≤ ratio ∧ ratio ≤ 1)
      ↔ AllSteps Store.exec (LockRoom key) (newStore n d) calls) ∧
    (AllSteps Store.exec (LockRoom key) (newStore n d) calls ↔ WaitsFit key n d calls) := by
  refine ⟨?_, allSteps_lockRoom_iff key hn hd hfits⟩
  have hclock' : ∀ before, before <+: calls → NondecreasingFrom start before := by
    rintro before ⟨after, rfl⟩
    exact (nondecreasingFrom_append.mp hclock).1
  have hfits' : ∀ before, before <+: calls → ∀ t,
      FitsInt64 (lockNs (historyCounted n d before key t)) := by
    intro before hbefore t
    rw [List.prefix_iff_eq_take.mp hbefore]
    exact hfits _ _
  rw [← forall_take_iff_allSteps
    (P := fun before => ∀ t, lastTime start before ≤ t →
      lockNs (historyCounted n d before key t) ≤ n * d)]
  · refine forall_congr' fun k => forall_congr' fun t => imp_congr_right fun _ => ?_
    have hstart := List.take_prefix k calls
    exact ratio_mem_iff hn hd (hfits k t) (lockNs_historyCounted_nonneg key n d
      (hclock' _ hstart) (fun c hc => hnonneg c (hstart.subset hc)) t)
  · intro t _
    have hwindow : (0 : ℤ) ≤ n * d := by positivity
    exact hwindow
  · rintro before ⟨t, c⟩ hstart hbefore
    rw [lastTime_concat]
    exact lockRoom_iff hn hd (hclock' _ hstart) (fun c hc => hnonneg c (hstart.subset hc))
      (hfits' before ((List.prefix_append _ _).trans hstart) t) hbefore

/-- What the events of a batch record is not negative if no lock event carries a negative
duration. -/
lemma TelemetryBatch.lockNs_calls_nonneg {batch : TelemetryBatch}
    (h : ∀ evt ∈ batch.events, ∀ durationNs ∈ evt.getLockContention, 0 ≤ durationNs.toInt) :
    ∀ c ∈ batch.calls, 0 ≤ c.lockNs := by
  intro c hc
  obtain ⟨evt, hevt, hc⟩ := List.mem_flatMap.mp hc
  unfold TelemetryEvent.calls at hc
  split_ifs at hc
  · cases hc
  rcases List.mem_cons.mp hc with rfl | hc
  · exact le_rfl
  obtain ⟨r, hr, rfl⟩ : ∃ r ∈ evt.recordCall, c = .onProfile evt.workloadKey
      (.record r batch.nodeName) := by
    simpa [eq_comm] using hc
  change 0 ≤ r.counts.lockDurationNs
  unfold TelemetryEvent.recordCall at hr
  cases hevent : evt.eventType with
  | lockContention =>
      rw [hevent] at hr
      obtain ⟨durationNs, hduration, rfl⟩ := Option.mem_map.mp hr
      exact h evt hevt durationNs hduration
  | cacheMiss =>
      rw [hevent] at hr
      obtain ⟨delta, -, rfl⟩ := Option.mem_map.mp hr
      exact le_rfl
  | pageFault | contextSwitch =>
      rw [hevent] at hr
      obtain rfl := Option.mem_some.mp hr
      exact le_rfl
  | unspecified | unrecognized value =>
      rw [hevent] at hr
      cases hr

/-- Two buckets of ten nanoseconds: one batch with waits of twelve and of eight fills the window
exactly.  Every later query gets a ratio between zero and one, a query at once gets one. -/
theorem lock_ratio_is_fraction_full_window :
    let batch : TelemetryBatch := ⟨"node-1", 0,
      [⟨.lockContention, "default/Deployment/web", 0, some (.lockContention 0 12)⟩,
        ⟨.lockContention, "default/Deployment/web", 0, some (.lockContention 0 8)⟩]⟩
    let calls := batch.calls.map (fun c => ((0 : ℤ), c))
    let ratio := fun t => (((newStore (2 : ℕ) 10).run (calls.take 4)).queryProfile
      "default/Deployment/web" t).1.lockContentionRatio
    (∀ t, 0 ≤ t → 0 ≤ ratio t ∧ ratio t ≤ 1) ∧ ratio 0 = 1 := by
  intro batch calls ratio
  have hclock : NondecreasingFrom 0 calls := by decide
  have hnonneg : ∀ c ∈ calls, 0 ≤ c.2.lockNs := by
    intro c hc
    obtain ⟨c', hc', rfl⟩ := List.mem_map.mp hc
    refine batch.lockNs_calls_nonneg ?_ c' hc'
    simp [batch, TelemetryEvent.getLockContention]
  have htotal : (calls.map (fun c => c.2.lockNs)).sum = 20 := by decide
  have hfits : ∀ k t, FitsInt64
      (lockNs (historyCounted 2 10 (calls.take k) "default/Deployment/web" t)) := by
    intro k t
    have hclock' : NondecreasingFrom 0 (calls.take k) := by
      rw [← List.take_append_drop k calls] at hclock
      exact (nondecreasingFrom_append.mp hclock).1
    have hnonneg' : ∀ c ∈ calls.take k, 0 ≤ c.2.lockNs :=
      fun c hc => hnonneg c (List.mem_of_mem_take hc)
    have hlow := lockNs_historyCounted_nonneg "default/Deployment/web" 2 10 hclock' hnonneg' t
    have hhigh := lockNs_historyCounted_le "default/Deployment/web" (n := 2) (by decide) 10 hclock'
      hnonneg' t
    have htake : ((calls.take k).map (fun c => c.2.lockNs)).sum
        ≤ (calls.map (fun c => c.2.lockNs)).sum := by
      apply ((List.take_sublist k calls).map _).sum_le_sum
      intro x hx
      obtain ⟨c, hc, rfl⟩ := List.mem_map.mp hx
      exact hnonneg c hc
    constructor <;> linarith
  exact ⟨(lock_ratio_is_fraction_iff "default/Deployment/web" 2 (by decide) 10 (by decide) 0 calls
    hclock hnonneg hfits).1.mpr (by decide +kernel) 4, by decide +kernel⟩

/-- **The ratio of two threads that wait at the same time.**  With the default window of a minute,
one batch reports two waits of forty seconds that ended just now; the ratio is four thirds. -/
theorem lock_ratio_exceeds_one :
    let lockWait : TelemetryEvent :=
      ⟨.lockContention, "default/Deployment/web", 0, some (.lockContention 0 40000000000)⟩
    let batch : TelemetryBatch := ⟨"node-1", 0, [lockWait, lockWait]⟩
    let calls := batch.calls.map (fun c => ((0 : ℤ), c))
    (∀ c ∈ calls, 0 ≤ c.2.lockNs) ∧
      (((newStore defaultBucketCount defaultBucketDuration).run calls).queryProfile
        "default/Deployment/web" 0).1.lockContentionRatio = 4 / 3 := by
  decide +kernel

end Akil
