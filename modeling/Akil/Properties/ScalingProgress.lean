import Akil.Properties.QueryAccuracy
import Akil.Properties.ScalingRule

/-!
# Where the autoscaler goes

`no_scale_request_lost` and `decide_direction_iff` are about one write.  This file is about whole
runs.  Whatever requests, toggles and ticks come in whatever order, the count stays between one and
the ten replicas a request may ask for, and so does every count in the log
(`simulated_replicas_in_range`): a tick may write over a request, but never with a count that is out
of range.

And the autoscaler gets somewhere.  `Progressed` counts the steps of its loop: while all ticks
decide alike, a tick that changes the count takes five steps, and once one does not change it none
does.  What the ticks decide follows from what the windows remember.  `(2 * n - 1) * d` after the
last record of every workload each tick takes a replica away, down to one (`idle_scales_down`);
while the last `(n - 1) * d` hold enough of one workload's events each tick adds one, up to six
(`burst_scales_up`).
-/

namespace Akil

/-! ## The range of the count -/

/-- A count that `POST /api/scale` admits. -/
def Admitted (n : Int32) : Prop := 1 ≤ n.toInt ∧ n.toInt ≤ 10

lemma admitted_ofInt {r : ℤ} (hlow : 1 ≤ r) (hhigh : r ≤ 10) : Admitted (Int32.ofInt r) := by
  interval_cases r <;> exact ⟨by decide, by decide⟩

namespace Autoscaler

/-- From an admitted count `decide` goes to an admitted one, up to six at most. -/
lemma decide_admitted (s : Store) (keys : List (String × ℤ)) {current : Int32}
    (h : Admitted current) :
    Admitted (decide s keys current).1.1 ∧
      (current.toInt < (decide s keys current).1.1.toInt →
        (decide s keys current).1.1.toInt ≤ 6) := by
  obtain ⟨hlow, hhigh⟩ := h
  unfold Admitted
  by_cases hhot : ∃ r ∈ readings keys s, Hot r.2
  · rw [decide_of_hot current hhot, toInt_capped (by omega)]
    omega
  · rcases decide_of_cool current hhot with hstay | ⟨hdown, hone⟩
    · rw [hstay]
      omega
    · have hone' : 1 < current.toInt := Int32.lt_iff_toInt_lt.mp hone
      rw [hdown, int32_toInt_sub_one (by omega)]
      omega

end Autoscaler

/-- A log entry that is not about a toggle has a count in range; a step up ends at six at most. -/
def ScalingLog.InRange (e : ScalingLog) : Prop :=
  e.action ≠ .info → Admitted e.replicas ∧ (e.action = .scaleUp → e.replicas.toInt ≤ 6)

/-- The counts a tick holds are in range; a decision to go up ends at six at most. -/
def TickStage.InRange : TickStage → Prop
  | .waiting | .enabled => True
  | .read cur => Admitted cur
  | .decided _ cur n _ | .written cur n _ => Admitted n ∧ (cur.toInt < n.toInt → n.toInt ≤ 6)

namespace ScaleState

/-- Every count there is is in range. -/
structure InRange (s : ScaleState) : Prop where
  count : Admitted s.vars.simulatedReplicas
  stage : s.stage.InRange
  logs : ∀ e ∈ s.vars.scalingLogs, e.InRange

/-- An entry is added, and perhaps the oldest dropped. -/
lemma mem_scalingLogs_logScaling {old n : Int32} {reason : String} {now : ℤ} {v : AutoscalerVars}
    {e : ScalingLog} (he : e ∈ (v.logScaling old n reason now).scalingLogs) :
    e ∈ v.scalingLogs ∨ e = ⟨now, if n > old then .scaleUp else .scaleDown, reason, n⟩ := by
  unfold AutoscalerVars.logScaling at he
  generalize (⟨now, if n > old then .scaleUp else .scaleDown, reason, n⟩ : ScalingLog) = entry
    at he ⊢
  have hmem : e ∈ v.scalingLogs ++ [entry] := by
    dsimp only at he
    split_ifs at he with hlong
    · exact List.mem_of_mem_tail he
    · exact he
  rcases List.mem_append.mp hmem with hold | hnew
  · exact .inl hold
  · exact .inr (List.mem_singleton.mp hnew)

/-- A step of the loop. -/
lemma InRange.autoscalerStep {s : ScaleState} (h : s.InRange) (now : ℤ) (walk : Walk) :
    (s.autoscalerStep now walk).InRange := by
  obtain ⟨vars, stage⟩ := s
  obtain ⟨hcount, hstage, hlogs⟩ := h
  cases stage with
  | waiting =>
      refine ⟨hcount, ?_, hlogs⟩
      cases hon : vars.autoscalingEnabled <;> simp [ScaleState.autoscalerStep, hon, TickStage.InRange]
  | enabled => exact ⟨hcount, hcount, hlogs⟩
  | read cur => exact ⟨hcount, Autoscaler.decide_admitted walk.store walk.keys hstage, hlogs⟩
  | decided walk' cur n reason =>
      by_cases hne : n ≠ cur
      · simp only [ScaleState.autoscalerStep, if_pos hne]
        exact ⟨hstage.1, hstage, hlogs⟩
      · simp only [ScaleState.autoscalerStep, if_neg hne]
        exact ⟨hcount, trivial, hlogs⟩
  | written cur n reason =>
      refine ⟨hcount, trivial, fun e he => ?_⟩
      rcases mem_scalingLogs_logScaling he with hold | rfl
      · exact hlogs e hold
      · refine fun _ => ⟨hstage.1, fun haction => hstage.2 ?_⟩
        by_contra hnot
        have hle : ¬ n > cur := fun hgt => hnot (Int32.lt_iff_toInt_lt.mp hgt)
        simp [hle] at haction

/-- **One step.** -/
lemma InRange.exec {s : ScaleState} (h : s.InRange) (now : ℤ) (a : ScaleAction) :
    (s.exec now a).InRange := by
  cases a with
  | autoscaler walk => exact h.autoscalerStep now walk
  | toggle enabled =>
      refine ⟨h.count, h.stage, fun e he => ?_⟩
      rcases List.mem_append.mp he with hold | hnew
      · exact h.logs e hold
      · rw [List.mem_singleton.mp hnew]
        exact fun hnot => absurd rfl hnot
  | post replicas =>
      have hvars : Admitted (s.vars.postScale replicas).2.simulatedReplicas ∧
          (s.vars.postScale replicas).2.scalingLogs = s.vars.scalingLogs := by
        cases replicas with
        | none => exact ⟨h.count, rfl⟩
        | some r =>
            by_cases hr : r < 1 ∨ r > 10
            · simp only [AutoscalerVars.postScale, if_pos hr, and_true]
              exact h.count
            · simp only [AutoscalerVars.postScale, if_neg hr, AutoscalerVars.setReplicas, and_true]
              exact admitted_ofInt (not_lt.mp (not_or.mp hr).1) (not_lt.mp (not_or.mp hr).2)
      refine ⟨hvars.1, h.stage, fun e he => h.logs e ?_⟩
      rwa [← hvars.2]

end ScaleState

/-- **The count stays in range.**  However requests, toggles and the steps of ticks follow each
other from the start of the program, the replica count is between one and ten, so is every count
the autoscaler has logged, and no step up it has logged goes beyond six. -/
theorem simulated_replicas_in_range (autoscale : Bool) (actions : List (ℤ × ScaleAction)) :
    let s := timedRun ScaleState.exec (ScaleState.start autoscale) actions
    Admitted s.vars.simulatedReplicas ∧ ∀ e ∈ s.vars.getScalingLogs, e.InRange := by
  intro s
  have hrange : s.InRange := by
    refine timedRun_preserves (fun now a _ h => h.exec now a) ?_ actions
    have hstart : Admitted 2 := ⟨by decide, by decide⟩
    exact ⟨hstart, trivial, fun e he => by cases he⟩
  exact ⟨hrange.count, hrange.logs⟩

/-! ## What a walk reads -/

/-- The walk is over the store that `calls` have led to, and no clock has gone back: the calls of
every key are in the order of their readings, and those of the walk come after them. -/
structure Walk.After (n : ℕ) (d : ℤ) (calls : List (ℤ × StoreCall)) (w : Walk) : Prop where
  store_eq : w.store = (newStore n d).run calls
  clocked : ∃ start, Orderly start calls ∧ NondecreasingFrom start (w.keys.map Prod.swap)

/-- A query makes no record and creates no key. -/
lemma RuntimeProfile.Recent.of_query {p : RuntimeProfile} {n : ℕ} {d now t : ℤ} {key key' : String}
    {calls : List (ℤ × StoreCall)}
    (h : p.Recent n d (calls ++ [(t, .onProfile key' .computeProfile)]) key now) :
    p.Recent n d calls key now := by
  rcases h with ⟨hnone, rfl⟩ | ⟨created, own, older, counted, hhist, hsplit, hrest⟩
  · refine .inl ⟨?_, rfl⟩
    rw [keyHistory_concat] at hnone
    cases hhist : keyHistory key calls with
    | none => rfl
    | some h =>
        rw [hhist] at hnone
        cases hnone
  · rw [keyHistory_concat] at hhist
    cases hold : keyHistory key calls with
    | none =>
        rw [hold] at hhist
        cases hhist
    | some h =>
        obtain ⟨created', own'⟩ := h
        rw [hold] at hhist
        obtain ⟨rfl, rfl⟩ := Prod.mk.inj (Option.some_inj.mp hhist)
        refine .inr ⟨created', own', older, counted, hold, ?_, hrest⟩
        rw [← hsplit]
        split_ifs
        · rw [sinceReset, sinceReset, timedRun_append]
          rfl
        · rfl

/-- A walk reads for each of its keys what the records made before it amount to. -/
lemma readings_recent {n : ℕ} (hn : 1 ≤ n) {d : ℤ} (hd : 0 < d) {start : ℤ}
    {calls : List (ℤ × StoreCall)} {keys : List (String × ℤ)} (hcalls : Orderly start calls)
    (hkeys : NondecreasingFrom start (keys.map Prod.swap)) :
    List.Forall₂ (fun key r => r.2.Recent n d calls key.1 key.2) keys
      (Autoscaler.readings keys ((newStore n d).run calls)) := by
  induction keys generalizing start calls with
  | nil => exact .nil
  | cons key keys ih =>
      obtain ⟨k, now⟩ := key
      obtain ⟨hle, hrest⟩ := hkeys
      have hnow := hcalls.mono hle
      refine .cons ?_ ?_
      · rw [queryProfile_run]
        exact hnow.recent hn hd k
      · have hquery : (((newStore n d).run calls).queryProfile k now).2
            = (newStore n d).run (calls ++ [(now, .onProfile k .computeProfile)]) := by
          rw [Store.queryProfile_eq, Store.run, Store.run, timedRun_append]
          rfl
        rw [hquery]
        exact (ih (hnow.concat (.inl rfl)) hrest).imp (fun _ _ h => h.of_query)

/-- The reading of one key. -/
lemma Walk.After.exists_reading {n : ℕ} (hn : 1 ≤ n) {d : ℤ} (hd : 0 < d)
    {calls : List (ℤ × StoreCall)} {w : Walk} (h : w.After n d calls) {key : String × ℤ}
    (hkey : key ∈ w.keys) :
    ∃ r ∈ Autoscaler.readings w.keys w.store, r.2.Recent n d calls key.1 key.2 := by
  obtain ⟨start, hcalls, hkeys⟩ := h.clocked
  have hreadings := readings_recent hn hd hcalls hkeys
  rw [← h.store_eq] at hreadings
  obtain ⟨i, hi, rfl⟩ := List.getElem_of_mem hkey
  have hi' := hreadings.length_eq ▸ hi
  exact ⟨_, List.getElem_mem hi', hreadings.get hi hi'⟩

/-- Every reading is of one of the keys. -/
lemma Walk.After.exists_key {n : ℕ} (hn : 1 ≤ n) {d : ℤ} (hd : 0 < d)
    {calls : List (ℤ × StoreCall)} {w : Walk} (h : w.After n d calls) {r : String × RuntimeProfile}
    (hr : r ∈ Autoscaler.readings w.keys w.store) :
    ∃ key ∈ w.keys, r.2.Recent n d calls key.1 key.2 := by
  obtain ⟨start, hcalls, hkeys⟩ := h.clocked
  have hreadings := readings_recent hn hd hcalls hkeys
  rw [← h.store_eq] at hreadings
  obtain ⟨i, hi, rfl⟩ := List.getElem_of_mem hr
  have hi' := hreadings.length_eq.symm ▸ hi
  exact ⟨_, List.getElem_mem hi', hreadings.get hi' hi⟩

/-! ## Workloads at rest -/

/-- There are workloads, and everything that was ever recorded for them is `(2 * n - 1) * d` old. -/
def Walk.Idle (n : ℕ) (d : ℤ) (w : Walk) : Prop :=
  w.keys ≠ [] ∧ ∃ calls, w.After n d calls ∧ ∀ key ∈ w.keys, ∀ created own,
    keyHistory key.1 calls = some (created, own) →
      ∀ e ∈ sinceReset own, (2 * n - 1) * d ≤ key.2 - e.time

/-- One replica fewer, down to one. -/
def stepDown (c : Int32) : Int32 := if c > 1 then c - 1 else c

/-- A window that counts nothing is nominal. -/
lemma RuntimeProfile.Recent.nominal {p : RuntimeProfile} {n : ℕ} {d now : ℤ} {key : String}
    {calls : List (ℤ × StoreCall)} (h : p.Recent n d calls key now)
    (hidle : ∀ created own, keyHistory key calls = some (created, own) →
      ∀ e ∈ sinceReset own, (2 * n - 1) * d ≤ now - e.time) : Autoscaler.Nominal p := by
  rcases h with ⟨-, rfl⟩ | ⟨created, own, older, counted, hhist, hsplit, -, hyoung, hreports⟩
  · exact ⟨by norm_num [Store.unknownProfile], by norm_num [Store.unknownProfile],
      by norm_num [Store.unknownProfile]⟩
  · have hnone : counted = [] := by
      refine List.eq_nil_iff_forall_not_mem.mpr (fun e he => ?_)
      have hold := hidle created own hhist e (hsplit ▸ List.mem_append_right _ he)
      exact absurd (hyoung e he) (not_lt.mpr hold)
    have hzero : (Counts.wrap (sumCounts counted)).toInts = 0 := by
      rw [hnone]
      decide
    rw [hzero] at hreports
    refine ⟨?_, ?_, ?_⟩
    · rw [hreports.contextSwitchRate]
      norm_num
    · rw [hreports.pageFaultRate]
      norm_num
    · rw [hreports.cacheMissRate]
      norm_num

lemma Autoscaler.Nominal.not_hot {p : RuntimeProfile} (h : Autoscaler.Nominal p) :
    ¬ Autoscaler.Hot p := by
  obtain ⟨hcs, hpf, hcm⟩ := h
  rintro (hhot | hhot | hhot) <;> linarith

/-- Workloads at rest take a replica away. -/
lemma Walk.Idle.decide {n : ℕ} (hn : 1 ≤ n) {d : ℤ} (hd : 0 < d) {w : Walk} (h : w.Idle n d)
    (current : Int32) : (w.decide current).1 = stepDown current := by
  obtain ⟨hne, calls, hafter, hidle⟩ := h
  have hnominal : ∀ r ∈ Autoscaler.readings w.keys w.store, Autoscaler.Nominal r.2 := by
    intro r hr
    obtain ⟨key, hkey, hrecent⟩ := hafter.exists_key hn hd hr
    exact hrecent.nominal (hidle key hkey)
  have hread : Autoscaler.readings w.keys w.store ≠ [] := by
    obtain ⟨key, keys, hkeys⟩ := List.exists_cons_of_ne_nil hne
    rw [hkeys]
    simp [Autoscaler.readings]
  have hcool : ¬ ∃ r ∈ Autoscaler.readings w.keys w.store, Autoscaler.Hot r.2 := by
    rintro ⟨r, hr, hhot⟩
    exact (hnominal r hr).not_hot hhot
  rw [Walk.decide, Autoscaler.decide_eq, Autoscaler.respond_pressure_count, if_neg hcool, stepDown]
  exact if_congr ⟨fun h => h.2.2, fun h => ⟨hread, hnominal, h⟩⟩ rfl rfl

/-! ## A burst of events -/

/-- Counted by `f`, the events of the last `(n - 1) * d` alone are more than `limit` for every
second of the window, and all events together fit an `int64`. -/
structure Burst (f : Counts ℤ → ℤ) (limit : ℚ) (n : ℕ) (d now : ℤ) (es : List LogEntry) :
    Prop where
  nonneg : ∀ e ∈ es, 0 ≤ f e.counts
  fits : (es.map (fun e => f e.counts)).sum < 2 ^ 63
  exceeds : limit * windowSeconds n d
    < ((es.filter (fun e => now - e.time ≤ (n - 1) * d)).map (fun e => f e.counts)).sum

/-- One of the workloads has a burst of context switches, page faults or cache misses. -/
def Walk.Busy (n : ℕ) (d : ℤ) (w : Walk) : Prop :=
  ∃ calls, w.After n d calls ∧ ∃ key ∈ w.keys, ∃ created own,
    keyHistory key.1 calls = some (created, own) ∧
      (Burst Counts.ctxSwitches 100 n d key.2 (sinceReset own) ∨
        Burst Counts.pageFaults 5000 n d key.2 (sinceReset own) ∨
        Burst Counts.cacheMisses 1000 n d key.2 (sinceReset own))

/-- One replica more, up to six. -/
def stepUp (c : Int32) : Int32 := min (c + 1) Autoscaler.maxReplicas

/-- An additive counter of a sum. -/
lemma apply_sumCounts {f : Counts ℤ → ℤ} (hzero : f 0 = 0) (hadd : ∀ a b, f (a + b) = f a + f b)
    (es : List LogEntry) : f (sumCounts es) = (es.map (fun e => f e.counts)).sum := by
  induction es with
  | nil => exact hzero
  | cons e es ih =>
      rw [List.map_cons, List.sum_cons, ← ih, ← hadd]
      rfl

/-- The window counts all of the burst, and its counter holds what it counts. -/
lemma Burst.lt_counter {f : Counts ℤ → ℤ} {limit : ℚ} {n : ℕ} {d now : ℤ}
    {es older counted : List LogEntry} (h : Burst f limit n d now es)
    (hzero : f 0 = 0) (hadd : ∀ a b, f (a + b) = f a + f b)
    (hwrap : ∀ c, f (Counts.wrap c).toInts = (int64OfInt (f c)).toInt)
    (hsplit : es = older ++ counted) (hold : ∀ e ∈ older, (n - 1) * d < now - e.time) :
    limit * windowSeconds n d < f (Counts.wrap (sumCounts counted)).toInts := by
  -- The events before the counted ones are too old for the burst.
  have hyoung : es.filter (fun e => now - e.time ≤ (n - 1) * d)
      = counted.filter (fun e => now - e.time ≤ (n - 1) * d) := by
    have hnone : older.filter (fun e => decide (now - e.time ≤ (n - 1) * d)) = [] :=
      List.filter_eq_nil_iff.mpr (fun e he hle => absurd (of_decide_eq_true hle)
        (not_le.mpr (hold e he)))
    rw [hsplit, List.filter_append, hnone, List.nil_append]
  have hsub : List.Sublist counted es := hsplit ▸ List.sublist_append_right older counted
  have hpos : ∀ x ∈ es.map (fun e => f e.counts), 0 ≤ x := by
    intro x hx
    obtain ⟨e, he, rfl⟩ := List.mem_map.mp hx
    exact h.nonneg e he
  have hpos' : ∀ x ∈ counted.map (fun e => f e.counts), 0 ≤ x :=
    fun x hx => hpos x ((hsub.map _).subset hx)
  have hyoungsub : List.Sublist (counted.filter (fun e => now - e.time ≤ (n - 1) * d)) counted :=
    List.filter_sublist
  have hle := (hyoungsub.map (fun e => f e.counts)).sum_le_sum hpos'
  have hfits : FitsInt64 (counted.map (fun e => f e.counts)).sum :=
    ⟨(by norm_num : (-2 ^ 63 : ℤ) ≤ 0).trans (List.sum_nonneg hpos'),
      ((hsub.map _).sum_le_sum hpos).trans_lt h.fits⟩
  rw [hwrap, apply_sumCounts hzero hadd, toInt_int64OfInt hfits]
  refine h.exceeds.trans_le ?_
  rw [hyoung]
  exact_mod_cast hle

/-- A burst is hot. -/
lemma RuntimeProfile.Recent.hot {p : RuntimeProfile} {n : ℕ} (hn : 1 ≤ n) {d : ℤ} (hd : 0 < d)
    {now : ℤ} {key : String} {calls : List (ℤ × StoreCall)} (h : p.Recent n d calls key now)
    {created : ℤ} {own : List (ℤ × ProfileCall)} (hhist : keyHistory key calls = some (created, own))
    (hburst : Burst Counts.ctxSwitches 100 n d now (sinceReset own) ∨
      Burst Counts.pageFaults 5000 n d now (sinceReset own) ∨
      Burst Counts.cacheMisses 1000 n d now (sinceReset own)) : Autoscaler.Hot p := by
  have hpos := windowSeconds_pos hn hd
  rcases h with ⟨hnone, -⟩ | ⟨created', own', older, counted, hhist', hsplit, hold, -, hreports⟩
  · rw [hnone] at hhist
    cases hhist
  · obtain ⟨rfl, rfl⟩ := Prod.mk.inj (Option.some_inj.mp (hhist.symm.trans hhist'))
    rcases hburst with hcs | hpf | hcm
    · refine .inl ?_
      rw [hreports.contextSwitchRate]
      exact (lt_div_iff₀ hpos).mpr (hcs.lt_counter rfl (fun _ _ => rfl) (fun _ => rfl) hsplit hold)
    · refine .inr (.inl ?_)
      rw [hreports.pageFaultRate]
      exact (lt_div_iff₀ hpos).mpr (hpf.lt_counter rfl (fun _ _ => rfl) (fun _ => rfl) hsplit hold)
    · refine .inr (.inr ?_)
      rw [hreports.cacheMissRate]
      exact (lt_div_iff₀ hpos).mpr (hcm.lt_counter rfl (fun _ _ => rfl) (fun _ => rfl) hsplit hold)

/-- A burst adds a replica. -/
lemma Walk.Busy.decide {n : ℕ} (hn : 1 ≤ n) {d : ℤ} (hd : 0 < d) {w : Walk} (h : w.Busy n d)
    (current : Int32) : (w.decide current).1 = stepUp current := by
  obtain ⟨calls, hafter, key, hkey, created, own, hhist, hburst⟩ := h
  obtain ⟨r, hr, hrecent⟩ := hafter.exists_reading hn hd hkey
  exact Autoscaler.decide_of_hot current ⟨r, hr, hrecent.hot hn hd hhist hburst⟩

/-! ## Step after step -/

/-- Where the loop stands after steps that are `r` modulo five, all ticks following `f`: at that
step of a tick, or anywhere once `f` has nothing to change. -/
def TickStage.Follows (f : Int32 → Int32) (count : Int32) (r : ℕ) : TickStage → Prop
  | .waiting => r = 0 ∨ f count = count
  | .enabled => r = 1 ∨ f count = count
  | .read cur => cur = count ∧ (r = 2 ∨ f count = count)
  | .decided _ cur n _ => cur = count ∧ n = f count ∧ (r = 3 ∨ f count = count)
  | .written _ _ _ => r = 4

namespace ScaleState

/-- `k` steps of the loop from `c₀`, all ticks following `f`: the count is written in the fourth
step of every five. -/
structure Progressed (f : Int32 → Int32) (c₀ : Int32) (k : ℕ) (s : ScaleState) : Prop where
  enabled : s.vars.autoscalingEnabled = true
  count : s.vars.simulatedReplicas = f^[(k + 1) / 5] c₀
  stage : s.stage.Follows f (f^[(k + 1) / 5] c₀) (k % 5)

namespace Progressed

variable {f : Int32 → Int32} {c₀ : Int32} {k : ℕ}

/-- A step that writes nothing. -/
lemma iterate_of_not_write (h : k % 5 ≠ 3 ∨ f (f^[(k + 1) / 5] c₀) = f^[(k + 1) / 5] c₀) :
    f^[(k + 1 + 1) / 5] c₀ = f^[(k + 1) / 5] c₀ := by
  by_cases hwrite : k % 5 = 3
  · have hfix := h.resolve_left (not_not.mpr hwrite)
    rw [show (k + 1 + 1) / 5 = (k + 1) / 5 + 1 by omega, Function.iterate_succ_apply', hfix]
  · rw [show (k + 1 + 1) / 5 = (k + 1) / 5 by omega]

/-- The step that writes. -/
lemma iterate_of_write (h : k % 5 = 3) : f^[(k + 1 + 1) / 5] c₀ = f (f^[(k + 1) / 5] c₀) := by
  rw [show (k + 1 + 1) / 5 = (k + 1) / 5 + 1 by omega, Function.iterate_succ_apply']

/-- A step that leaves the variables as they are. -/
lemma of_not_write {s : ScaleState} (h : s.Progressed f c₀ k) {stage : TickStage}
    (hnot : k % 5 ≠ 3 ∨ f (f^[(k + 1) / 5] c₀) = f^[(k + 1) / 5] c₀)
    (hstage : stage.Follows f (f^[(k + 1) / 5] c₀) ((k + 1) % 5)) :
    Progressed f c₀ (k + 1) { s with stage := stage } where
  enabled := h.enabled
  count := h.count.trans (iterate_of_not_write hnot).symm
  stage := by rwa [iterate_of_not_write hnot]

/-- **One step.** -/
lemma step {s : ScaleState} (h : s.Progressed f c₀ k) (now : ℤ) {walk : Walk}
    (hwalk : ∀ c, (walk.decide c).1 = f c) : (s.autoscalerStep now walk).Progressed f c₀ (k + 1) := by
  have hall := h
  obtain ⟨vars, stage⟩ := s
  obtain ⟨hon, hcount, hstage⟩ := h
  cases stage with
  | waiting =>
      have hgoes : ScaleState.autoscalerStep now walk ⟨vars, .waiting⟩ = ⟨vars, .enabled⟩ := by
        simp only [ScaleState.autoscalerStep, show vars.autoscalingEnabled = true from hon, if_true]
      rw [hgoes]
      exact hall.of_not_write (hstage.imp_left (by omega)) (hstage.imp_left (by omega))
  | enabled =>
      refine hall.of_not_write (hstage.imp_left (by omega)) ?_
      exact ⟨hcount, hstage.imp_left (by omega)⟩
  | read cur =>
      obtain ⟨rfl, hstage⟩ := hstage
      refine hall.of_not_write (hstage.imp_left (by omega)) ?_
      exact ⟨rfl, hwalk _, hstage.imp_left (by omega)⟩
  | decided walk' cur n reason =>
      obtain ⟨rfl, rfl, hstage⟩ := hstage
      by_cases hfix : f (f^[(k + 1) / 5] c₀) = f^[(k + 1) / 5] c₀
      · simp only [ScaleState.autoscalerStep, hfix, ne_eq, not_true_eq_false, if_false]
        exact hall.of_not_write (.inr hfix) (.inr hfix)
      · have hwrite := hstage.resolve_right hfix
        simp only [ScaleState.autoscalerStep, if_pos hfix]
        exact ⟨hon, (iterate_of_write hwrite).symm, show (k + 1) % 5 = 4 by omega⟩
  | written cur n reason =>
      have hstage : k % 5 = 4 := hstage
      have hsame : f^[(k + 1 + 1) / 5] c₀ = f^[(k + 1) / 5] c₀ :=
        iterate_of_not_write (.inl (by omega))
      exact ⟨hon, hcount.trans hsame.symm, .inl (show (k + 1) % 5 = 0 by omega)⟩

/-- **A run** of the loop. -/
lemma run {s : ScaleState} (h : s.Progressed f c₀ k) {walks : List (ℤ × Walk)}
    (hwalks : ∀ w ∈ walks, ∀ c, (w.2.decide c).1 = f c) :
    (timedRun exec s (walks.map (fun w => (w.1, .autoscaler w.2)))).Progressed f c₀
      (k + walks.length) := by
  induction walks generalizing s k with
  | nil => exact h
  | cons w walks ih =>
      obtain ⟨hw, hwalks⟩ := List.forall_mem_cons.mp hwalks
      rw [List.map_cons, timedRun_cons, List.length_cons, ← Nat.add_assoc, Nat.add_right_comm]
      exact ih (h.step w.1 hw) hwalks

end Progressed

end ScaleState

/-- The steps of the loop over some walks, autoscaling on, from in front of a tick. -/
def ScaleState.loop (vars : AutoscalerVars) (walks : List (ℤ × Walk)) : ScaleState :=
  timedRun ScaleState.exec ⟨{ vars with autoscalingEnabled := true }, .waiting⟩
    (walks.map (fun w => (w.1, .autoscaler w.2)))

lemma ScaleState.count_loop {f : Int32 → Int32} (vars : AutoscalerVars) {walks : List (ℤ × Walk)}
    (hwalks : ∀ w ∈ walks, ∀ c, (w.2.decide c).1 = f c) :
    (ScaleState.loop vars walks).vars.simulatedReplicas
      = f^[(walks.length + 1) / 5] vars.simulatedReplicas := by
  have hstart : ScaleState.Progressed f vars.simulatedReplicas 0
      ⟨{ vars with autoscalingEnabled := true }, .waiting⟩ := ⟨rfl, rfl, .inl rfl⟩
  have hrun := (hstart.run hwalks).count
  rwa [Nat.zero_add] at hrun

/-! ## Where the count goes -/

lemma toInt_stepDown {c : Int32} (h : 1 ≤ c.toInt) : (stepDown c).toInt = max 1 (c.toInt - 1) := by
  have hone : c > 1 ↔ 1 < c.toInt := Int32.lt_iff_toInt_lt
  unfold stepDown
  split_ifs with hgt
  · rw [int32_toInt_sub_one (by omega)]
    have := hone.mp hgt
    omega
  · have := mt hone.mpr hgt
    omega

lemma toInt_iterate_stepDown {c : Int32} (h : 1 ≤ c.toInt) (j : ℕ) :
    (stepDown^[j] c).toInt = max 1 (c.toInt - j) := by
  induction j with
  | zero => simp [h]
  | succ j ih =>
      rw [Function.iterate_succ_apply', toInt_stepDown (by omega), ih]
      push_cast
      omega

lemma toInt_iterate_stepUp {c : Int32} (h : Admitted c) (j : ℕ) :
    (stepUp^[j + 1] c).toInt = min 6 (c.toInt + (j + 1)) := by
  obtain ⟨hlow, hhigh⟩ := h
  induction j with
  | zero =>
      rw [Function.iterate_one, stepUp, Autoscaler.toInt_capped (by omega)]
      omega
  | succ j ih =>
      rw [Function.iterate_succ_apply', stepUp, Autoscaler.toInt_capped (by omega), ih]
      push_cast
      omega

/-- **Idle workloads lose their replicas.**  While everything recorded for every workload is
`(2 * n - 1) * d` old, the fourth of every five steps of the loop takes one replica away, until one
is left, which stays. -/
theorem idle_scales_down (n : ℕ) (hn : 1 ≤ n) (d : ℤ) (hd : 0 < d) (vars : AutoscalerVars)
    (hcount : 1 ≤ vars.simulatedReplicas.toInt) (walks : List (ℤ × Walk))
    (hidle : ∀ w ∈ walks, w.2.Idle n d) :
    (ScaleState.loop vars walks).vars.simulatedReplicas.toInt
      = max 1 (vars.simulatedReplicas.toInt - ((walks.length + 1) / 5 : ℕ)) := by
  rw [ScaleState.count_loop vars (fun w hw => (hidle w hw).decide hn hd),
    toInt_iterate_stepDown hcount]

/-- One workload with page faults at `1` and context switches at `95`. -/
def demoCalls : List (ℤ × StoreCall) :=
  [(0, .getOrCreate "a"), (1, .onProfile "a" (.record .pageFault "n")),
    (95, .onProfile "a" (.record (.bulk 0 0 500 0) "n"))]

/-- A walk at a reading after the first `m` calls. -/
def demoWalk (m : ℕ) (now : ℤ) : Walk :=
  ⟨(newStore (2 : ℕ) 10).run (demoCalls.take m), [("a", now)]⟩

lemma orderly_demoCalls : Orderly 1 (demoCalls.take 2) ∧ Orderly 95 demoCalls := by
  have hnone : Orderly 0 [] := fun key created own h => by cases h
  have hmade := (hnone.concat (c := .getOrCreate "a") (.inl rfl)).mono (by decide : (0 : ℤ) ≤ 1)
  have hfault := hmade.concat (c := .onProfile "a" (.record .pageFault "n")) (.inl rfl)
  have hlater := hfault.mono (by decide : (1 : ℤ) ≤ 95)
  exact ⟨hfault, hlater.concat (c := .onProfile "a" (.record (.bulk 0 0 500 0) "n")) (.inl rfl)⟩

/-- Two ticks long after the fault, from three replicas. -/
theorem idle_scales_down_two_ticks :
    (ScaleState.loop ⟨true, [], 3⟩
      (List.replicate 9 (0, demoWalk 2 60))).vars.simulatedReplicas.toInt = 1 := by
  refine idle_scales_down 2 (by decide) 10 (by decide) ⟨true, [], 3⟩ (by decide) _ (fun w hw => ?_)
  rw [List.eq_of_mem_replicate hw]
  refine ⟨by simp [demoWalk], _, ⟨rfl, 1, orderly_demoCalls.1, by decide, trivial⟩, ?_⟩
  intro key hkey created own hown
  obtain rfl := List.mem_singleton.mp hkey
  obtain ⟨rfl, rfl⟩ := Prod.mk.inj (Option.some_inj.mp hown)
  decide

/-- **A burst adds replicas.**  While the last `(n - 1) * d` hold a burst of events of one of the
workloads, the fourth of every five steps of the loop adds one replica, up to six; a deployment
above six is brought down to them by the first. -/
theorem burst_scales_up (n : ℕ) (hn : 1 ≤ n) (d : ℤ) (hd : 0 < d) (vars : AutoscalerVars)
    (hcount : Admitted vars.simulatedReplicas) (walks : List (ℤ × Walk))
    (hlength : 4 ≤ walks.length) (hbusy : ∀ w ∈ walks, w.2.Busy n d) :
    (ScaleState.loop vars walks).vars.simulatedReplicas.toInt
      = min 6 (vars.simulatedReplicas.toInt + ((walks.length + 1) / 5 : ℕ)) := by
  obtain ⟨j, hj⟩ : ∃ j, (walks.length + 1) / 5 = j + 1 := ⟨(walks.length + 1) / 5 - 1, by omega⟩
  rw [ScaleState.count_loop vars (fun w hw => (hbusy w hw).decide hn hd), hj,
    toInt_iterate_stepUp hcount]
  push_cast
  rfl

/-- Two ticks after five hundred context switches in `20` nanoseconds, from three replicas. -/
theorem burst_scales_up_two_ticks :
    (ScaleState.loop ⟨true, [], 3⟩
      (List.replicate 9 (0, demoWalk 3 100))).vars.simulatedReplicas.toInt = 5 := by
  refine burst_scales_up 2 (by decide) 10 (by decide) ⟨true, [], 3⟩ ⟨by decide, by decide⟩ _
    (by decide) (fun w hw => ?_)
  rw [List.eq_of_mem_replicate hw]
  refine ⟨_, ⟨rfl, 95, orderly_demoCalls.2, by decide, trivial⟩, _, List.mem_singleton.mpr rfl, _,
    _, rfl, .inl ⟨by decide, by decide, ?_⟩⟩
  change 100 * windowSeconds 2 10 < (500 : ℤ)
  norm_num [windowSeconds]

end Akil
