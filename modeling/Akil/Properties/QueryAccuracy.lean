import Akil.Properties.Horizon
import Akil.Properties.Linearization

/-!
# What a query counts while others write

Two results are put together.  `window_counts_recent` says what a window remembers: the records a
query counts are the last ones made since the last `ResetData`, as many of them as bring in
everything younger than `(n - 1) * d` and nothing older than `(2 * n - 1) * d`.  Its invariant is
`Horizon`, for every record of the log at once.

`aggregator_linearizable` says that the goroutines of the aggregator amount to a run of the
sequential store, so of one window for every key.  Its calls are not in the order of their readings,
since a profile is as old as the reading at which it was built and takes effect when it is stored;
but the calls of one key are (`Clocked`), and so `concurrent_query_recent` holds of every profile
any goroutine ever computes.
-/

namespace Akil

/-! ## The records a window remembers -/

/-- The records made since the last `ResetData`. -/
def sinceReset (calls : List (ℤ × ProfileCall)) : List LogEntry :=
  timedRun (fun t c es =>
    match c with
    | .record r nodeName => es ++ [⟨t, nodeName, r.counts⟩]
    | .resetData => []
    | .computeProfile => es) [] calls

/-- The log of a run is the records since the last reset, in order, each within its horizon. -/
structure Kept (n : ℕ) (d now : ℤ) (calls : List (ℤ × ProfileCall)) (E : EventLog) : Prop where
  entries_eq : E.log.entries.map Prod.snd = sinceReset calls
  ordered : E.log.Ordered
  last_le : E.lastRotation ≤ now
  horizon : ∀ e ∈ E.log.entries, Horizon n d e now E

namespace Kept

variable {n : ℕ} {d now t : ℤ} {calls : List (ℤ × ProfileCall)} {E : EventLog}

lemma new (n : ℕ) (d created : ℤ) : Kept n d created [] (EventLog.new created) where
  entries_eq := rfl
  ordered := .empty
  last_le := le_rfl
  horizon e he := by cases he

lemma ordered_rotate (h : E.log.Ordered) : (E.rotate n d t).log.Ordered := by
  unfold EventLog.rotate
  split_ifs
  · exact h
  · exact h.advance _

lemma exec (hn : 1 ≤ n) (hd : 0 < d) (h : Kept n d now calls E) (hle : now ≤ t) (c : ProfileCall) :
    Kept n d t (calls ++ [(t, c)]) (E.exec n d t c) := by
  have hsince : sinceReset (calls ++ [(t, c)]) = match c with
      | .record r nodeName => sinceReset calls ++ [⟨t, nodeName, r.counts⟩]
      | .resetData => []
      | .computeProfile => sinceReset calls := by
    rw [sinceReset, timedRun_append]
    cases c <;> rfl
  have hlast := h.last_le.trans hle
  have hentries : (E.rotate n d t).log.entries = E.log.entries := E.entries_rotate n d t
  cases c with
  | record r nodeName =>
      refine ⟨?_, (ordered_rotate h.ordered).append _, E.lastRotation_exec_le hn hd hlast _,
        fun e he => ?_⟩
      · rw [hsince, ← h.entries_eq]
        simp [EventLog.exec, hentries]
      · rcases List.mem_append.mp he with hold | hnew
        · rw [hentries] at hold
          exact (h.horizon e hold).exec hn hd hle (by simp)
        · rw [List.mem_singleton.mp hnew]
          exact Horizon.record hn hd E hlast r nodeName
  | resetData => exact ⟨hsince.symm, .clear _, le_rfl, fun e he => by cases he⟩
  | computeProfile =>
      refine ⟨?_, ordered_rotate h.ordered, E.lastRotation_exec_le hn hd hlast .computeProfile,
        fun e he => ?_⟩
      · rw [hsince, ← h.entries_eq]
        simp [EventLog.exec, hentries]
      · have hold : e ∈ E.log.entries := by rwa [← hentries]
        exact (h.horizon e hold).exec hn hd hle (by simp)

lemma run (hn : 1 ≤ n) (hd : 0 < d) {created : ℤ} {calls : List (ℤ × ProfileCall)}
    (hclock : NondecreasingFrom created calls) :
    Kept n d (lastTime created calls) calls ((EventLog.new created).run n d calls) := by
  induction calls using List.reverseRecOn with
  | nil => exact .new n d created
  | append_singleton calls c ih =>
      obtain ⟨t, c⟩ := c
      obtain ⟨hcalls, hle⟩ := nondecreasingFrom_concat.mp hclock
      rw [EventLog.run_concat, lastTime_concat]
      exact (ih hcalls).exec hn hd hle c

/-- The live records are the last ones: all the young ones, none of the old ones. -/
lemma split (hd : 0 < d) (h : Kept n d t calls E) (hrecent : t - E.lastRotation < d) :
    ∃ older, sinceReset calls = older ++ E.counted n ∧
      (∀ e ∈ older, (n - 1) * d < t - e.time) ∧
      ∀ e ∈ E.counted n, t - e.time < (2 * n - 1) * d := by
  obtain ⟨older, hsplit, hnot⟩ := h.ordered.split_live n
  refine ⟨older.map Prod.snd, ?_, fun x hx => ?_, fun x hx => ?_⟩
  · rw [← h.entries_eq, hsplit, List.map_append]
    rfl
  · obtain ⟨e, he, rfl⟩ := List.mem_map.mp hx
    have hmem : e ∈ E.log.entries := hsplit ▸ List.mem_append_left _ he
    by_contra hyoung
    exact hnot e he ((h.horizon e hmem).live hd (not_lt.mp hyoung))
  · obtain ⟨e, he, rfl⟩ := List.mem_map.mp hx
    obtain ⟨hmem, hlive⟩ := RotationLog.mem_live.mp he
    by_contra hold
    exact (h.horizon e hmem).not_live hd hrecent (not_lt.mp hold) hlive

end Kept

/-- A report is of what the log counts, as far as the counters hold it. -/
lemma Coupled.reports {key : String} {n : ℕ} {d : ℤ} {p : WorkloadProfile × EventLog}
    (h : Coupled key n d p) :
    p.1.report.Reports (windowSeconds n d) (Counts.wrap (sumCounts (p.2.counted n))).toInts := by
  have hreports : p.1.report.Reports p.1.windowDuration p.1.totals.toInts :=
    ⟨rfl, rfl, rfl, rfl, rfl⟩
  rwa [h.refines.windowDuration_eq, h.bucketCount, h.bucketDuration, h.totals_eq] at hreports

/-- **What a window counts.**  Along any run at nondecreasing readings, a query at `t` reports the
sum of the last records since the last `ResetData`: those left out are more than `(n - 1) * d` old,
those counted less than `(2 * n - 1) * d`. -/
lemma window_counts_recent (key : String) {n : ℕ} (hn : 1 ≤ n) {d : ℤ} (hd : 0 < d) {created : ℤ}
    {calls : List (ℤ × ProfileCall)} {t : ℤ} (hclock : NondecreasingFrom created calls)
    (hle : lastTime created calls ≤ t) :
    ∃ older counted, sinceReset calls = older ++ counted ∧
      (∀ e ∈ older, (n - 1) * d < t - e.time) ∧ (∀ e ∈ counted, t - e.time < (2 * n - 1) * d) ∧
      (((newWorkloadProfile key n d created).run calls).computeProfile t).1.Reports
        (windowSeconds n d) (Counts.wrap (sumCounts counted)).toInts := by
  have hkept := Kept.run hn hd hclock
  have hsince : sinceReset (calls ++ [(t, .computeProfile)]) = sinceReset calls := by
    rw [sinceReset, timedRun_append]
    rfl
  have hquery := hkept.exec hn hd hle .computeProfile
  have hrecent := (EventLog.rotate_recent hn hd _ (hkept.last_le.trans hle)).2
  obtain ⟨older, hsplit, hold, hyoung⟩ := hquery.split hd hrecent
  rw [hsince] at hsplit
  refine ⟨older, _, hsplit, hold, hyoung, ?_⟩
  exact ((Coupled.new_run key hn hd created calls).exec t .computeProfile).reports

/-! ## The readings of the calls of one key -/

/-- The calls of every key are in the order of their readings, and none is later than `now`. -/
def Orderly (now : ℤ) (calls : List (ℤ × StoreCall)) : Prop :=
  ∀ key created own, keyHistory key calls = some (created, own) →
    NondecreasingFrom created own ∧ lastTime created own ≤ now

namespace Orderly

variable {now t : ℤ} {calls : List (ℤ × StoreCall)}

lemma mono (h : Orderly now calls) (hle : now ≤ t) : Orderly t calls := by
  intro key created own hown
  obtain ⟨hclock, hlast⟩ := h key created own hown
  exact ⟨hclock, hlast.trans hle⟩

/-- A call at the reading of its step, or the `GetOrCreate` of a profile that was built before. -/
lemma concat (h : Orderly now calls) {u : ℤ} {c : StoreCall}
    (hcall : u = now ∨ (u ≤ now ∧ ∃ key, c = .getOrCreate key)) :
    Orderly now (calls ++ [(u, c)]) := by
  intro key created own hown
  have hu : u ≤ now := by
    rcases hcall with rfl | ⟨hle, -⟩
    · exact le_rfl
    · exact hle
  cases hhist : keyHistory key calls with
  | none =>
      obtain ⟨rfl, rfl⟩ := keyHistory_concat_of_none hhist hown
      exact ⟨trivial, hu⟩
  | some hkey =>
      obtain ⟨created', own'⟩ := hkey
      obtain ⟨hclock, hlast⟩ := h key created' own' hhist
      rcases keyHistory_concat_cases hhist u c with ⟨heq, -⟩ | ⟨c', heq, -⟩
      · obtain ⟨rfl, rfl⟩ := Prod.mk.inj (Option.some_inj.mp (heq.symm.trans hown))
        exact ⟨hclock, hlast⟩
      · rcases hcall with rfl | ⟨-, key', rfl⟩
        · obtain ⟨rfl, rfl⟩ := Prod.mk.inj (Option.some_inj.mp (heq.symm.trans hown))
          exact ⟨nondecreasingFrom_concat.mpr ⟨hclock, hlast⟩, (lastTime_concat _ _ _).le⟩
        · -- a `GetOrCreate` adds nothing to a history
          rw [keyHistory_concat, hhist] at heq
          simp [historyStep] at heq

end Orderly

/-- A profile of a key that a query at `now` returns after `calls`: the zero profile if the key has
no history, and otherwise the sum of the last records made for it since its last reset, of which
none is left out that is at most `(n - 1) * d` old and none counted that is `(2 * n - 1) * d` old. -/
def RuntimeProfile.Recent (p : RuntimeProfile) (n : ℕ) (d : ℤ) (calls : List (ℤ × StoreCall))
    (key : String) (now : ℤ) : Prop :=
  (keyHistory key calls = none ∧ p = Store.unknownProfile key) ∨
    ∃ created own older counted, keyHistory key calls = some (created, own) ∧
      sinceReset own = older ++ counted ∧ (∀ e ∈ older, (n - 1) * d < now - e.time) ∧
      (∀ e ∈ counted, now - e.time < (2 * n - 1) * d) ∧
      p.Reports (windowSeconds n d) (Counts.wrap (sumCounts counted)).toInts

/-- A lone window answers so. -/
lemma Orderly.recent {n : ℕ} (hn : 1 ≤ n) {d : ℤ} (hd : 0 < d) {now : ℤ}
    {calls : List (ℤ × StoreCall)} (h : Orderly now calls) (key : String) :
    (loneQuery n d calls key now).Recent n d calls key now := by
  rw [loneQuery]
  cases hhist : keyHistory key calls with
  | none => exact .inl ⟨hhist, rfl⟩
  | some hkey =>
      obtain ⟨created, own⟩ := hkey
      obtain ⟨hown, hlast⟩ := h key created own hhist
      obtain ⟨older, counted, hsplit, hold, hyoung, hreports⟩ :=
        window_counts_recent key hn hd hown hlast
      exact .inr ⟨created, own, older, counted, hhist, hsplit, hold, hyoung, hreports⟩

/-- The calls are orderly, and nobody holds a profile built in the future. -/
structure Clocked (now : ℤ) (calls : List (ℤ × StoreCall)) (sys : System SharedStore Worker) :
    Prop where
  history : Orderly now calls
  built : ∀ w ∈ sys.procs, ∀ key c wp, w.stage = .created key c wp → wp.lastRotation ≤ now

lemma Clocked.mono {now t : ℤ} {calls : List (ℤ × StoreCall)} {sys : System SharedStore Worker}
    (h : Clocked now calls sys) (hle : now ≤ t) : Clocked t calls sys where
  history := h.history.mono hle
  built w hw key c wp hstage := (h.built w hw key c wp hstage).trans hle

/-- The reading of the call a step stands for is that of the step, except where the step stores a
profile that was built before. -/
lemma Worker.call_reading {w : Worker} {m : Turn} {s : SharedStore} {u : ℤ} {c : StoreCall}
    (hcall : w.call m s = some (u, c)) :
    u = m.now ∨ ∃ key o wp, w.stage = .created key o wp ∧ u = wp.lastRotation ∧
      c = .getOrCreate key := by
  have hmoves := w.step_moves m s
  rw [hcall] at hmoves
  generalize (w.step m s).1 = s' at hmoves
  generalize (w.step m s).2 = w' at hmoves
  generalize w.answer m s = answer at hmoves
  cases hmoves with
  | store hstage _ => exact .inr ⟨_, _, _, hstage, rfl, rfl⟩
  | _ => exact .inl rfl

/-- A step builds a profile at its own reading. -/
lemma Worker.built_step {w : Worker} {m : Turn} {s : SharedStore} {key : String}
    {c : Option ProfileCall} {wp : WorkloadProfile}
    (hstage : (w.step m s).2.stage = .created key c wp) :
    wp.lastRotation = m.now ∨ w.stage = .created key c wp := by
  have hmoves := w.step_moves m s
  generalize (w.step m s).1 = s' at hmoves
  generalize (w.step m s).2 = w' at hmoves hstage
  generalize w.call m s = call at hmoves
  generalize w.answer m s = answer at hmoves
  cases hmoves with
  | wait => exact .inr hstage
  | create _ =>
      obtain ⟨-, -, rfl⟩ := ServeStage.created.inj hstage
      exact .inl rfl
  | @visit node present visited key addr _ _ _ => cases node <;> cases hstage
  | @endRange node present visited _ _ => cases node <;> cases hstage
  | _ => cases hstage

/-- **One step** at a reading that is not before the last. -/
lemma Clocked.step {now : ℤ} {calls : List (ℤ × StoreCall)} {sys : System SharedStore Worker}
    (h : Clocked now calls sys) {i : ℕ} {w : Worker} (hi : sys.procs[i]? = some w) {m : Turn}
    (hle : now ≤ m.now) :
    Clocked m.now (calls ++ (w.call m sys.shared).toList)
      ⟨(w.step m sys.shared).1, sys.procs.set i (w.step m sys.shared).2⟩ where
  history := by
    cases hcall : w.call m sys.shared with
    | none =>
        rw [Option.toList_none, List.append_nil]
        exact h.history.mono hle
    | some call =>
        obtain ⟨u, c⟩ := call
        rw [Option.toList_some]
        refine (h.history.mono hle).concat ?_
        refine (Worker.call_reading hcall).imp_right ?_
        rintro ⟨key', o, wp, hstage, rfl, rfl⟩
        exact ⟨(h.built w (List.mem_of_getElem? hi) _ _ _ hstage).trans hle, key', rfl⟩
  built w' hw' key c wp hstage := by
    rcases List.mem_or_eq_of_mem_set hw' with hmem | rfl
    · exact (h.built w' hmem key c wp hstage).trans hle
    · rcases Worker.built_step hstage with hnow | hstage'
      · exact hnow.le
      · exact (h.built w (List.mem_of_getElem? hi) key c wp hstage').trans hle

lemma linearization_concat (sys : System SharedStore Worker) (sched : List (Turn × ℕ)) (m : Turn)
    (i : ℕ) : linearization sys (sched ++ [(m, i)])
      = linearization sys sched ++ (System.output Worker.call m i (serve sys sched)).toList := by
  rw [linearization, System.trace, timedOutputs_append]
  exact congrArg _ (List.append_nil _)

/-- Along a run at nondecreasing readings the calls of every key are in their order. -/
lemma Clocked.run (bucketCount bucketDuration : ℤ) (requests : List (List Request)) {start : Turn}
    {sched : List (Turn × ℕ)} (hclock : NondecreasingFrom start sched) :
    Clocked (lastTime start sched).now
      (linearization (serviceSystem bucketCount bucketDuration requests) sched)
      (serve (serviceSystem bucketCount bucketDuration requests) sched) := by
  induction sched using List.reverseRecOn with
  | nil =>
      refine ⟨fun key created own hown => ?_, fun w hw key c wp hstage => ?_⟩
      · cases hown
      obtain ⟨reqs, -, rfl⟩ := List.mem_map.mp hw
      cases hstage
  | append_singleton sched c ih =>
      obtain ⟨m, i⟩ := c
      obtain ⟨hsched, hle⟩ := nondecreasingFrom_concat.mp hclock
      rw [linearization_concat, serve_append, lastTime_concat]
      cases hi : (serve (serviceSystem bucketCount bucketDuration requests) sched).procs[i]? with
      | none =>
          rw [System.output, hi, Option.bind_none, Option.toList_none, List.append_nil]
          have hidle : serve (serve (serviceSystem bucketCount bucketDuration requests) sched)
              [(m, i)] = serve (serviceSystem bucketCount bucketDuration requests) sched := by
            rw [serve, timedRun_cons, System.exec, hi]
            rfl
          rw [hidle]
          exact (ih hsched).mono hle
      | some w =>
          rw [System.output, hi, Option.bind_some]
          have hstep : serve (serve (serviceSystem bucketCount bucketDuration requests) sched)
              [(m, i)] = System.exec Worker.step m i
                (serve (serviceSystem bucketCount bucketDuration requests) sched) := rfl
          rw [hstep, System.exec_of_getElem? hi]
          exact (ih hsched).step hi hle

/-! ## What the goroutines compute -/

/-- A profile is computed at the reading of its step. -/
lemma Worker.answer_call {w : Worker} {m : Turn} {s : SharedStore} {p : RuntimeProfile}
    (hanswer : w.answer m s = some p) : ∃ c, w.call m s = some (m.now, c) := by
  have hmoves := w.step_moves m s
  rw [hanswer] at hmoves
  generalize (w.step m s).1 = s' at hmoves
  generalize (w.step m s).2 = w' at hmoves
  generalize w.call m s = call at hmoves ⊢
  generalize hp : some p = answer at hmoves
  cases hmoves with
  | invoke _ | compute _ | unknown _ _ | queried _ => exact ⟨_, rfl⟩
  | _ => cases hp

/-- Whatever a call of the store returns is what a lone window of its key would answer. -/
lemma result_eq_loneQuery {bucketCount bucketDuration : ℤ} {calls : List (ℤ × StoreCall)} {t : ℤ}
    {c : StoreCall} {p : RuntimeProfile}
    (hp : ((newStore bucketCount bucketDuration).run calls).result t c = some p) :
    p = loneQuery bucketCount bucketDuration calls p.workloadKey t := by
  cases c with
  | getOrCreate key => cases hp
  | onProfile key c =>
      cases c with
      | computeProfile =>
          have heq := Option.some_inj.mp hp
          rw [queryProfile_run] at heq
          rw [← heq, loneQuery_workloadKey]
      | record r nodeName => cases hp
      | resetData => cases hp
  | visitNode nodeName key =>
      change (((newStore bucketCount bucketDuration).run calls).visitNode nodeName key t).1
        = some p at hp
      by_cases hrecord : HasRecordFrom key nodeName calls
      · rw [visitNode_of_record hrecord t] at hp
        rw [← Option.some_inj.mp hp, loneQuery_workloadKey]
      · rw [visitNode_of_no_record hrecord t] at hp
        cases hp

/-- **What a query counts while others write.**  In every run of any number of goroutines at
nondecreasing readings, a profile that a goroutine computes for a workload is the zero profile if
the workload has not been created yet, and otherwise reports the sum of the last records made for
it since its last reset, of which none is left out that is at most `(n - 1) * d` old and none
counted that is `(2 * n - 1) * d` old. -/
theorem concurrent_query_recent (n : ℕ) (hn : 1 ≤ n) (d : ℤ) (hd : 0 < d)
    (requests : List (List Request)) (start : Turn) (sched : List (Turn × ℕ)) (m : Turn) (i : ℕ)
    (hclock : NondecreasingFrom start (sched ++ [(m, i)])) (p : RuntimeProfile)
    (hp : System.output Worker.answer m i (serve (serviceSystem n d requests) sched) = some p) :
    p.Recent n d (linearization (serviceSystem n d requests) sched) p.workloadKey m.now := by
  obtain ⟨hsched, hle⟩ := nondecreasingFrom_concat.mp hclock
  have hclocked := Clocked.run n d requests hsched
  obtain ⟨hserves, -⟩ := (serves_serviceSystem n d requests).run sched
  obtain ⟨w, hw, hanswer⟩ := Option.bind_eq_some_iff.mp hp
  obtain ⟨c, hcall⟩ := Worker.answer_call hanswer
  have hresult : ((newStore n d).run (linearization (serviceSystem n d requests) sched)).result
      m.now c = some p := by
    have hstep := (hserves.step hw m).2
    rw [hcall, hanswer] at hstep
    have hlist : [p] = (((newStore n d).run
        (linearization (serviceSystem n d requests) sched)).result m.now c).toList ++ [] := hstep
    rw [List.append_nil] at hlist
    cases hr : ((newStore n d).run
        (linearization (serviceSystem n d requests) sched)).result m.now c with
    | none =>
        rw [hr] at hlist
        cases hlist
    | some q =>
        rw [hr] at hlist
        rw [List.singleton_inj.mp hlist]
  rw [result_eq_loneQuery hresult, loneQuery_workloadKey]
  exact (hclocked.history.mono hle).recent hn hd p.workloadKey

/-- Three buckets of ten nanoseconds.  Two streams record a fault each, at `3` and `25`, in a
profile one of them has built at `1` and stored at `2`; a query at `31` must count the second fault
and may count the first, which is `28` old. -/
theorem concurrent_query_recent_race :
    let fault (nodeName : String) : Request :=
      .telemetry nodeName ⟨.pageFault, "default/Deployment/web", 0, none⟩
    let sys := serviceSystem (3 : ℕ) 10
      [[fault "node-1"], [fault "node-2"], [.queryProfile "default/Deployment/web"]]
    let sched : List (Turn × ℕ) := [(⟨0, none⟩, 0), (⟨0, none⟩, 1), (⟨1, none⟩, 0), (⟨1, none⟩, 1),
      (⟨2, none⟩, 1), (⟨2, none⟩, 0), (⟨3, none⟩, 0), (⟨25, none⟩, 1), (⟨30, none⟩, 2),
      (⟨30, none⟩, 2)]
    ∃ p, System.output Worker.answer ⟨31, none⟩ 2 (serve sys sched) = some p ∧
      p.Recent 3 10 (linearization sys sched) p.workloadKey 31 := by
  intro fault sys sched
  obtain ⟨p, hp⟩ : ∃ p, System.output Worker.answer ⟨31, none⟩ 2 (serve sys sched) = some p :=
    Option.isSome_iff_exists.mp (by decide)
  exact ⟨p, hp, concurrent_query_recent 3 (by decide) 10 (by decide) _ ⟨0, none⟩ sched ⟨31, none⟩ 2
    (by decide) p hp⟩

end Akil
