import Akil.Construction.Profile.Store
import Akil.Properties.EventLog

/-!
# The store is a product of independent windows

What the store does to one key is decided by that key's own calls.  `keyHistory key calls` cuts
them out of a run of the whole store: the time of the first `GetOrCreate` of `key`, and after
it the records, resets and queries made on `key`, together with the visits of node queries for
nodes `key` had already been recorded on.  A visit for another node is not in the history; it
reads the node set and leaves the window alone.

`store_get_eq` is the product theorem: after any run the profile under `key` is the lone window
created at that time and given exactly those calls.  The node set is read off the history too
(`nodeLocations_run`), so every later statement about a profile found in the store is a
statement about one window and one list of calls.  `store_is_product` reads the theorem off the
two queries: `QueryProfile` answers as the lone window would, and `QueryNodeProfiles` collects
those answers for exactly the keys that have a record from the node.
-/

namespace Akil

/-! ## The node set of a window -/

/-- The node a call records from, if it records. -/
def ProfileCall.node? : ProfileCall → Option String
  | .record _ nodeName => some nodeName
  | _ => none

lemma ProfileCall.node?_eq_some {c : ProfileCall} {nodeName : String} :
    c.node? = some nodeName ↔ ∃ r, c = .record r nodeName := by
  cases c <;> simp [ProfileCall.node?]

/-- The nodes a list of calls recorded from. -/
def recordedNodes (calls : List (ℤ × ProfileCall)) : List String :=
  calls.filterMap (fun c => c.2.node?)

lemma recordedNodes_concat (calls : List (ℤ × ProfileCall)) (c : ℤ × ProfileCall) :
    recordedNodes (calls ++ [c]) = recordedNodes calls ++ c.2.node?.toList := by
  rw [recordedNodes, List.filterMap_append]
  cases h : c.2.node? <;> simp [recordedNodes, h]

lemma mem_recordedNodes {calls : List (ℤ × ProfileCall)} {nodeName : String} :
    nodeName ∈ recordedNodes calls ↔ ∃ t r, (t, ProfileCall.record r nodeName) ∈ calls := by
  rw [recordedNodes, List.mem_filterMap]
  constructor
  · rintro ⟨⟨t, c⟩, hmem, hnode⟩
    obtain ⟨r, rfl⟩ := ProfileCall.node?_eq_some.mp hnode
    exact ⟨t, r, hmem⟩
  · rintro ⟨t, r, hmem⟩
    exact ⟨_, hmem, rfl⟩

namespace WorkloadProfile

lemma nodeLocations_maybeRotate (now : ℤ) (wp : WorkloadProfile) :
    (wp.maybeRotate now).nodeLocations = wp.nodeLocations := by
  have hiter : ∀ (k : ℕ) (wp : WorkloadProfile),
      ((rotateOnce now)^[k] wp).nodeLocations = wp.nodeLocations := by
    intro k
    induction k with
    | zero => exact fun _ => rfl
    | succ k ih => exact fun wp => (ih _).trans rfl
  unfold maybeRotate
  dsimp only
  split_ifs
  · rfl
  · exact hiter _ _
  · exact hiter _ _

lemma nodeLocations_exec (now : ℤ) (c : ProfileCall) (wp : WorkloadProfile) :
    (wp.exec now c).nodeLocations = wp.nodeLocations ∪ c.node?.toFinset := by
  cases c with
  | record r nodeName =>
      rw [exec, execRecord_eq]
      ext node
      simp [record, ProfileCall.node?, nodeLocations_maybeRotate, eq_comm]
  | resetData => simp [exec, resetData, ProfileCall.node?]
  | computeProfile =>
      simp [exec, computeProfile, ProfileCall.node?, nodeLocations_maybeRotate]

/-- The node set is the set of nodes recorded from; nothing ever leaves it. -/
lemma nodeLocations_run (wp : WorkloadProfile) (calls : List (ℤ × ProfileCall)) :
    (wp.run calls).nodeLocations = wp.nodeLocations ∪ (recordedNodes calls).toFinset := by
  induction calls generalizing wp with
  | nil => simp [run, recordedNodes]
  | cons c calls ih =>
      have hcons : recordedNodes (c :: calls) = c.2.node?.toList ++ recordedNodes calls := by
        cases h : c.2.node? <;> simp [recordedNodes, h]
      refine (ih (wp.exec c.1 c.2)).trans ?_
      rw [nodeLocations_exec, hcons]
      cases c.2.node? <;> ext <;> simp

end WorkloadProfile

/-! ## The calls of one key -/

/-- Extend the history of `key` by one call on the store: its creation time and its calls. -/
def historyStep (key : String) (t : ℤ) (c : StoreCall)
    (h : Option (ℤ × List (ℤ × ProfileCall))) : Option (ℤ × List (ℤ × ProfileCall)) :=
  match h, c with
  | none, .getOrCreate key' => if key' = key then some (t, []) else none
  | none, _ => none
  | some h, .getOrCreate _ => some h
  | some (created, calls), .onProfile key' c =>
      some (created, if key' = key then calls ++ [(t, c)] else calls)
  | some (created, calls), .visitNode nodeName key' =>
      some (created, if key' = key ∧ nodeName ∈ recordedNodes calls
        then calls ++ [(t, .computeProfile)] else calls)

lemma historyStep_of_ne {key : String} {c : StoreCall} (hne : c.workloadKey ≠ key) (t : ℤ)
    (h : Option (ℤ × List (ℤ × ProfileCall))) : historyStep key t c h = h := by
  cases c with
  | getOrCreate key' =>
      have hk : key' ≠ key := hne
      cases h <;> simp [historyStep, hk]
  | onProfile key' c =>
      have hk : key' ≠ key := hne
      cases h <;> simp [historyStep, hk]
  | visitNode nodeName key' =>
      have hk : key' ≠ key := hne
      cases h <;> simp [historyStep, hk]

/-- The history of `key` in a run of the store; `none` if it was never created. -/
def keyHistory (key : String) (calls : List (ℤ × StoreCall)) :
    Option (ℤ × List (ℤ × ProfileCall)) :=
  timedRun (historyStep key) none calls

/-- The lone window a history describes. -/
def replay (key : String) (n : ℕ) (d : ℤ) (h : ℤ × List (ℤ × ProfileCall)) : WorkloadProfile :=
  (newWorkloadProfile key n d h.1).run h.2

lemma replay_concat (key : String) (n : ℕ) (d created : ℤ) (calls : List (ℤ × ProfileCall))
    (t : ℤ) (c : ProfileCall) :
    replay key n d (created, calls ++ [(t, c)]) = (replay key n d (created, calls)).exec t c :=
  timedRun_append _ _ _ _

lemma nodeLocations_replay (key : String) (n : ℕ) (d : ℤ) (h : ℤ × List (ℤ × ProfileCall)) :
    (replay key n d h).nodeLocations = (recordedNodes h.2).toFinset := by
  rw [replay, WorkloadProfile.nodeLocations_run]
  exact Finset.empty_union _

/-- A store whose profile under `key` is the window of the history. -/
structure StoreRefines (key : String) (n : ℕ) (d : ℤ) (s : Store)
    (h : Option (ℤ × List (ℤ × ProfileCall))) : Prop where
  bucketCount : s.bucketCount = n
  bucketDuration : s.bucketDuration = d
  get_eq : s.get key = h.map (replay key n d)

namespace StoreRefines

variable {key : String} {n : ℕ} {d : ℤ} {s : Store} {h : Option (ℤ × List (ℤ × ProfileCall))}

lemma exec (hs : StoreRefines key n d s h) (t : ℤ) (c : StoreCall) :
    StoreRefines key n d (s.exec t c) (historyStep key t c h) := by
  obtain ⟨hcount, hduration⟩ := s.config_exec t c
  refine ⟨hcount.trans hs.bucketCount, hduration.trans hs.bucketDuration, ?_⟩
  by_cases hk : c.workloadKey = key
  · cases c with
    | getOrCreate key' =>
        obtain rfl : key' = key := hk
        rw [Store.get_getOrCreate_self, hs.get_eq, hs.bucketCount, hs.bucketDuration]
        cases h with
        | none => simp [historyStep, replay, WorkloadProfile.run]
        | some h => simp [historyStep]
    | onProfile key' c =>
        obtain rfl : key' = key := hk
        rw [Store.get_onProfile_self, hs.get_eq]
        cases h with
        | none => rfl
        | some h => simp [historyStep, replay_concat]
    | visitNode nodeName key' =>
        -- a visit for a node the key was recorded on is a query, any other changes nothing
        obtain rfl : key' = key := hk
        rw [Store.get_visitNode_self, hs.get_eq]
        cases h with
        | none => rfl
        | some h =>
            by_cases hnode : nodeName ∈ recordedNodes h.2
            · simp [historyStep, hnode, nodeLocations_replay, replay_concat]
            · simp [historyStep, hnode, nodeLocations_replay]
  · rw [s.get_exec_of_ne t hk, hs.get_eq, historyStep_of_ne hk]

lemma new (key : String) {n : ℕ} (hn : 1 ≤ n) {d : ℤ} (hd : 0 < d) :
    StoreRefines key n d (newStore n d) none where
  bucketCount := by simp [newStore, show n ≠ 0 by omega]
  bucketDuration := by simp [newStore, show ¬ d ≤ 0 by omega]
  get_eq := by simp [newStore, Store.get]

/-- Runs keep the refinement. -/
lemma run (hs : StoreRefines key n d s h) (calls : List (ℤ × StoreCall)) :
    StoreRefines key n d (s.run calls) (timedRun (historyStep key) h calls) := by
  have hrun := timedRun_preserves
    (f := fun t c p => (Store.exec t c p.1, historyStep key t c p.2))
    (I := fun p => StoreRefines key n d p.1 p.2) (fun t c p hp => hp.exec t c)
    (s := (s, h)) hs calls
  rwa [timedRun_prod] at hrun

end StoreRefines

/-- **The product theorem.**  After any run, the profile under `key` is the lone window created
at `key`'s first `GetOrCreate` and given the calls of `key`'s history. -/
theorem store_get_eq (key : String) {n : ℕ} (hn : 1 ≤ n) {d : ℤ} (hd : 0 < d)
    (calls : List (ℤ × StoreCall)) :
    ((newStore n d).run calls).get key = (keyHistory key calls).map (replay key n d) :=
  ((StoreRefines.new key hn hd).run calls).get_eq

/-! ## Node queries on the store -/

namespace Store

/-- A visit looks only at the profile under its key. -/
lemma visitNode_fst_congr {s s' : Store} {key : String} (h : s.get key = s'.get key)
    (nodeName : String) (t : ℤ) :
    (s.visitNode nodeName key t).1 = (s'.visitNode nodeName key t).1 := by
  rw [visitNode, visitNode, h]
  cases s'.get key with
  | none => rfl
  | some wp =>
      dsimp only
      split_ifs <;> rfl

/-- With each key visited once, every visit finds the profile the query started from. -/
lemma queryNodeProfiles_fst (nodeName : String) (visits : List (String × ℤ))
    (hnodup : (visits.map Prod.fst).Nodup) (s : Store) :
    (s.queryNodeProfiles nodeName visits).1
      = visits.filterMap (fun v => (s.visitNode nodeName v.1 v.2).1) := by
  induction visits generalizing s with
  | nil => rfl
  | cons v visits ih =>
      obtain ⟨key, t⟩ := v
      rw [List.map_cons, List.nodup_cons] at hnodup
      have hrest : visits.filterMap
            (fun v => ((s.visitNode nodeName key t).2.visitNode nodeName v.1 v.2).1)
          = visits.filterMap (fun v => (s.visitNode nodeName v.1 v.2).1) := by
        apply List.filterMap_congr
        intro v hv
        have hne : v.1 ≠ key := by
          rintro rfl
          exact hnodup.1 (List.mem_map.mpr ⟨v, hv, rfl⟩)
        have hget : (s.visitNode nodeName key t).2.get v.1 = s.get v.1 :=
          s.get_exec_of_ne t (c := .visitNode nodeName key) (Ne.symm hne)
        exact visitNode_fst_congr hget nodeName v.2
      unfold queryNodeProfiles
      dsimp only
      rw [ih hnodup.2, hrest, List.filterMap_cons]
      cases (s.visitNode nodeName key t).1 <;> rfl

end Store

/-- What one visit of a node query returns, in terms of the key's own calls. -/
lemma visitNode_run (n : ℕ) (hn : 1 ≤ n) (d : ℤ) (hd : 0 < d) (calls : List (ℤ × StoreCall))
    (nodeName key : String) (t : ℤ) (p : RuntimeProfile) :
    (((newStore n d).run calls).visitNode nodeName key t).1 = some p ↔
      ∃ created own, keyHistory key calls = some (created, own) ∧
        nodeName ∈ recordedNodes own ∧
        p = ((replay key n d (created, own)).computeProfile t).1 := by
  have hget := store_get_eq key hn hd calls
  rw [Store.visitNode, hget]
  cases hhist : keyHistory key calls with
  | none => simp
  | some h =>
      obtain ⟨created, own⟩ := h
      simp only [Option.map_some, nodeLocations_replay, List.mem_toFinset, Option.some.injEq,
        Prod.mk.injEq]
      by_cases hnode : nodeName ∈ recordedNodes own
      · simp only [hnode, if_true, Option.some.injEq]
        constructor
        · rintro rfl
          exact ⟨created, own, ⟨rfl, rfl⟩, hnode, rfl⟩
        · rintro ⟨_, _, ⟨rfl, rfl⟩, -, rfl⟩
          rfl
      · simp only [hnode, if_false]
        constructor
        · intro h
          cases h
        · rintro ⟨_, _, ⟨rfl, rfl⟩, hmem, -⟩
          exact absurd hmem hnode

/-! ## The store as a whole -/

lemma keyHistory_concat (key : String) (calls : List (ℤ × StoreCall)) (c : ℤ × StoreCall) :
    keyHistory key (calls ++ [c]) = historyStep key c.1 c.2 (keyHistory key calls) :=
  timedRun_append _ _ _ _

/-- One more call on the store adds nothing to the history of a created key, or one call, which is
a record exactly if the call was a record on the key. -/
lemma keyHistory_concat_cases {key : String} {calls : List (ℤ × StoreCall)} {created : ℤ}
    {own : List (ℤ × ProfileCall)} (h : keyHistory key calls = some (created, own)) (t : ℤ)
    (c : StoreCall) :
    (keyHistory key (calls ++ [(t, c)]) = some (created, own) ∧
        ∀ r nodeName, c ≠ .onProfile key (.record r nodeName)) ∨
      ∃ c', keyHistory key (calls ++ [(t, c)]) = some (created, own ++ [(t, c')]) ∧
        ∀ r nodeName, c = .onProfile key (.record r nodeName) ↔ c' = .record r nodeName := by
  rw [keyHistory_concat, h]
  cases c with
  | getOrCreate key' => exact Or.inl ⟨rfl, by simp⟩
  | onProfile key' c =>
      by_cases hk : key' = key
      · exact Or.inr ⟨c, by simp [historyStep, hk], by simp [hk]⟩
      · exact Or.inl ⟨by simp [historyStep, hk], by simp [hk]⟩
  | visitNode nodeName key' =>
      by_cases hk : key' = key ∧ nodeName ∈ recordedNodes own
      · exact Or.inr ⟨.computeProfile, by simp [historyStep, hk], by simp⟩
      · exact Or.inl ⟨by simp [historyStep, hk], by simp⟩

/-- A key without a history gets an empty one from its `GetOrCreate` and none from another call. -/
lemma keyHistory_concat_none {key : String} {calls : List (ℤ × StoreCall)}
    (hnone : keyHistory key calls = none) (t : ℤ) (c : StoreCall) :
    keyHistory key (calls ++ [(t, c)]) = if c = .getOrCreate key then some (t, []) else none := by
  rw [keyHistory_concat, hnone]
  cases c <;> simp [historyStep]

/-- The first call of a key creates it and records nothing. -/
lemma keyHistory_concat_of_none {key : String} {calls : List (ℤ × StoreCall)}
    (hnone : keyHistory key calls = none) {t : ℤ} {c : StoreCall} {created : ℤ}
    {own : List (ℤ × ProfileCall)}
    (h : keyHistory key (calls ++ [(t, c)]) = some (created, own)) : t = created ∧ own = [] := by
  rw [keyHistory_concat_none hnone] at h
  split_ifs at h
  obtain ⟨rfl, rfl⟩ := Prod.mk.inj (Option.some.inj h)
  exact ⟨rfl, rfl⟩

/-- `key` has been created in the run. -/
def Created (key : String) (calls : List (ℤ × StoreCall)) : Prop :=
  ∃ t, (t, .getOrCreate key) ∈ calls

/-- `key` has a record from the node in the run, made after the key was created. -/
def HasRecordFrom (key nodeName : String) (calls : List (ℤ × StoreCall)) : Prop :=
  ∃ before t r after, calls = before ++ (t, .onProfile key (.record r nodeName)) :: after ∧
    Created key before

/-- One more call adds a record from the node if it is one. -/
lemma hasRecordFrom_concat (key nodeName : String) (calls : List (ℤ × StoreCall))
    (t : ℤ) (c : StoreCall) :
    HasRecordFrom key nodeName (calls ++ [(t, c)]) ↔ HasRecordFrom key nodeName calls ∨
      (∃ r, c = .onProfile key (.record r nodeName)) ∧ Created key calls := by
  constructor
  · rintro ⟨before, u, r, after, hsplit, hcreated⟩
    rcases List.eq_nil_or_concat after with rfl | ⟨after, last, rfl⟩
    · obtain ⟨rfl, hlast⟩ := List.append_inj' hsplit rfl
      obtain ⟨-, rfl⟩ := Prod.mk.inj (List.singleton_inj.mp hlast)
      exact Or.inr ⟨⟨r, rfl⟩, hcreated⟩
    · rw [List.concat_eq_append, ← List.cons_append, ← List.append_assoc] at hsplit
      exact Or.inl ⟨before, u, r, after, (List.append_inj' hsplit rfl).1, hcreated⟩
  · rintro (⟨before, u, r, after, rfl, hcreated⟩ | ⟨⟨r, rfl⟩, hcreated⟩)
    · exact ⟨before, u, r, after ++ [(t, c)], by simp, hcreated⟩
    · exact ⟨calls, t, r, [], rfl, hcreated⟩

/-- A key has a history once it is created, and its history holds a record from a node if the
key has one. -/
lemma keyHistory_spec (key nodeName : String) (calls : List (ℤ × StoreCall)) :
    (Created key calls ↔ keyHistory key calls ≠ none) ∧
      (HasRecordFrom key nodeName calls ↔
        ∃ h, keyHistory key calls = some h ∧ nodeName ∈ recordedNodes h.2) := by
  induction calls using List.reverseRecOn with
  | nil => simp [keyHistory, Created, HasRecordFrom]
  | append_singleton calls c ih =>
      obtain ⟨t, c⟩ := c
      obtain ⟨hcreated, hrecord⟩ := ih
      have hcreated' : Created key (calls ++ [(t, c)])
          ↔ Created key calls ∨ c = .getOrCreate key := by
        simp [Created, exists_or, eq_comm]
      rw [hcreated', hasRecordFrom_concat, hrecord, hcreated]
      cases hhist : keyHistory key calls with
      | none =>
          rw [keyHistory_concat_none hhist]
          by_cases hget : c = .getOrCreate key <;> simp [hget, recordedNodes]
      | some h =>
          obtain ⟨created, own⟩ := h
          rcases keyHistory_concat_cases hhist t c with ⟨heq, hnot⟩ | ⟨c', heq, hnew⟩
          · simp [heq, hnot]
          · simp [heq, hnew, recordedNodes_concat, ProfileCall.node?_eq_some]

/-- What a lone window would answer to a query of `key` at `t`, created at `key`'s first
`GetOrCreate` of the run and given only `key`'s own calls; the zero profile if there was no
`GetOrCreate`. -/
def loneQuery (bucketCount bucketDuration : ℤ) (calls : List (ℤ × StoreCall)) (key : String)
    (t : ℤ) : RuntimeProfile :=
  match keyHistory key calls with
  | none => Store.unknownProfile key
  | some (created, own) =>
      (((newWorkloadProfile key bucketCount bucketDuration created).run own).computeProfile t).1

/-- Window parameters that are not positive are replaced by the defaults, in the store as in a
window. -/
lemma exists_positive_params (bucketCount bucketDuration : ℤ) :
    ∃ n : ℕ, 1 ≤ n ∧ ∃ d : ℤ, 0 < d ∧ newStore bucketCount bucketDuration = newStore n d ∧
      ∀ key now, newWorkloadProfile key bucketCount bucketDuration now
        = newWorkloadProfile key n d now := by
  set n : ℕ := if bucketCount ≤ 0 then defaultBucketCount else bucketCount.toNat with hn
  set d : ℤ := if bucketDuration ≤ 0 then defaultBucketDuration else bucketDuration with hd
  have hn1 : 1 ≤ n := by
    rw [hn]
    split_ifs
    · decide
    · omega
  have hd0 : 0 < d := by
    rw [hd]
    split_ifs
    · decide
    · omega
  have hcount : (if bucketCount ≤ 0 then (defaultBucketCount : ℤ) else bucketCount) = n := by
    rw [hn]
    split_ifs
    · rfl
    · omega
  have hcount' : (if (n : ℤ) ≤ 0 then (defaultBucketCount : ℤ) else n) = n :=
    if_neg (by omega)
  have hdur : (if d ≤ 0 then defaultBucketDuration else d) = d := if_neg (by omega)
  refine ⟨n, hn1, d, hd0, ?_, fun key now => ?_⟩
  · rw [newStore, newStore, hcount, hcount', hdur, hd]
  · unfold newWorkloadProfile
    rw [hcount, hcount', hdur, ← hd]

/-- The product theorem for a store of any parameters. -/
lemma store_get_run (bucketCount bucketDuration : ℤ) (calls : List (ℤ × StoreCall))
    (key : String) :
    ((newStore bucketCount bucketDuration).run calls).get key = (keyHistory key calls).map
      (fun h => (newWorkloadProfile key bucketCount bucketDuration h.1).run h.2) := by
  obtain ⟨n, hn, d, hd, hstore, hprofile⟩ := exists_positive_params bucketCount bucketDuration
  rw [hstore, store_get_eq key hn hd calls]
  simp only [hprofile]
  rfl

/-- The stored keys are the created ones. -/
lemma mem_profiles_run (bucketCount bucketDuration : ℤ) (calls : List (ℤ × StoreCall))
    (key : String) :
    key ∈ ((newStore bucketCount bucketDuration).run calls).profiles ↔ Created key calls := by
  have hget := store_get_run bucketCount bucketDuration calls key
  rw [(keyHistory_spec key "" calls).1, ← Finmap.lookup_isSome]
  change (((newStore bucketCount bucketDuration).run calls).get key).isSome ↔ _
  rw [hget, Option.isSome_map, Option.isSome_iff_ne_none]

lemma queryProfile_run (bucketCount bucketDuration : ℤ) (calls : List (ℤ × StoreCall))
    (key : String) (t : ℤ) :
    (((newStore bucketCount bucketDuration).run calls).queryProfile key t).1
      = loneQuery bucketCount bucketDuration calls key t := by
  rw [Store.queryProfile, store_get_run, loneQuery]
  cases keyHistory key calls <;> rfl

/-- A visit for a node the key has a record from returns the key's own profile. -/
lemma visitNode_of_record {bucketCount bucketDuration : ℤ} {calls : List (ℤ × StoreCall)}
    {key nodeName : String} (h : HasRecordFrom key nodeName calls) (t : ℤ) :
    (((newStore bucketCount bucketDuration).run calls).visitNode nodeName key t).1
      = some (loneQuery bucketCount bucketDuration calls key t) := by
  obtain ⟨h, hhist, hnode⟩ := (keyHistory_spec key nodeName calls).2.mp h
  rw [Store.visitNode, store_get_run, loneQuery, hhist]
  simp [WorkloadProfile.nodeLocations_run, hnode]

lemma visitNode_of_no_record {bucketCount bucketDuration : ℤ} {calls : List (ℤ × StoreCall)}
    {key nodeName : String} (h : ¬ HasRecordFrom key nodeName calls) (t : ℤ) :
    (((newStore bucketCount bucketDuration).run calls).visitNode nodeName key t).1 = none := by
  rw [(keyHistory_spec key nodeName calls).2] at h
  rw [Store.visitNode, store_get_run]
  cases hhist : keyHistory key calls with
  | none => rfl
  | some own =>
      have hnode : nodeName ∉ recordedNodes own.2 := fun hmem => h ⟨own, hhist, hmem⟩
      have hnew : (newWorkloadProfile key bucketCount bucketDuration own.1).nodeLocations = ∅ := rfl
      simp [WorkloadProfile.nodeLocations_run, hnode, hnew]

lemma loneQuery_workloadKey (bucketCount bucketDuration : ℤ) (calls : List (ℤ × StoreCall))
    (key : String) (t : ℤ) :
    (loneQuery bucketCount bucketDuration calls key t).workloadKey = key := by
  unfold loneQuery
  cases keyHistory key calls with
  | none => rfl
  | some h =>
      have hparams := ((newWorkloadProfile key bucketCount bucketDuration h.1).run
        h.2).params_maybeRotate t
      rw [WorkloadProfile.params_run] at hparams
      exact congrArg Prod.fst hparams

/-- A returned profile is that of the visited key. -/
lemma visitNode_workloadKey {bucketCount bucketDuration : ℤ} {calls : List (ℤ × StoreCall)}
    {nodeName : String} {v : String × ℤ} {p : RuntimeProfile}
    (hp : (((newStore bucketCount bucketDuration).run calls).visitNode nodeName v.1 v.2).1
      = some p) : p.workloadKey = v.1 := by
  by_cases hrec : HasRecordFrom v.1 nodeName calls
  · rw [visitNode_of_record hrec] at hp
    rw [← Option.some_inj.mp hp]
    exact loneQuery_workloadKey _ _ _ _ _
  · rw [visitNode_of_no_record hrec] at hp
    cases hp

/-- In a list with distinct labels, the results that carry the label of one element are what
that element gives. -/
lemma filter_filterMap_of_nodup {α β κ : Type*} [DecidableEq κ] {f : α → Option β} {ka : α → κ}
    {kb : β → κ} (hf : ∀ a b, f a = some b → kb b = ka a) {l : List α} (hl : (l.map ka).Nodup)
    {a : α} (ha : a ∈ l) :
    (l.filterMap f).filter (fun b => kb b = ka a) = (f a).toList := by
  induction l with
  | nil => cases ha
  | cons a' l ih =>
      rw [List.map_cons, List.nodup_cons] at hl
      have hcons : (a' :: l).filterMap f = (f a').toList ++ l.filterMap f := by
        cases hfa : f a' <;> simp [hfa]
      rw [hcons, List.filter_append]
      rcases List.mem_cons.mp ha with rfl | ha
      · have hhead : (f a).toList.filter (fun b => kb b = ka a) = (f a).toList := by
          rw [List.filter_eq_self]
          intro b hb
          simpa using hf a b (by simpa using hb)
        -- no later element has this label
        have htail : (l.filterMap f).filter (fun b => kb b = ka a) = [] := by
          rw [List.filter_eq_nil_iff]
          intro b hb
          obtain ⟨x, hx, hfx⟩ := List.mem_filterMap.mp hb
          have hlabel : ka x ≠ ka a := by
            intro heq
            exact hl.1 (heq ▸ List.mem_map_of_mem hx)
          simpa [hf x b hfx] using hlabel
        rw [hhead, htail, List.append_nil]
      · have hhead : (f a').toList.filter (fun b => kb b = ka a) = [] := by
          rw [List.filter_eq_nil_iff]
          intro b hb
          have hlabel : ka a' ≠ ka a := by
            intro heq
            exact hl.1 (heq ▸ List.mem_map_of_mem ha)
          simpa [hf a' b (by simpa using hb)] using hlabel
        rw [hhead, List.nil_append, ih hl.2 ha]

/-- **The store is a product of independent windows.**  After any run of the store: a query of a
key returns what the key's lone window would return; and a node query, in whatever order and at
whatever readings its `Range` comes by the stored keys, returns exactly one profile, that same
one, for each key that has a record from the node, and none for any other key.  What either query
leaves behind is the store after one more such run. -/
theorem store_is_product (bucketCount bucketDuration : ℤ) (calls : List (ℤ × StoreCall)) :
    let s := (newStore bucketCount bucketDuration).run calls
    (∀ key t, (s.queryProfile key t).1 = loneQuery bucketCount bucketDuration calls key t) ∧
      (∀ nodeName visits, s.IsRange visits → ∀ key,
        (HasRecordFrom key nodeName calls → ∃ t, (key, t) ∈ visits ∧
          (s.queryNodeProfiles nodeName visits).1.filter (fun p => p.workloadKey = key)
            = [loneQuery bucketCount bucketDuration calls key t]) ∧
        (¬ HasRecordFrom key nodeName calls →
          (s.queryNodeProfiles nodeName visits).1.filter (fun p => p.workloadKey = key) = [])) ∧
      (∀ key t, (s.queryProfile key t).2 = (newStore bucketCount bucketDuration).run
          (calls ++ [(t, .onProfile key .computeProfile)])) ∧
      ∀ nodeName visits, (s.queryNodeProfiles nodeName visits).2
        = (newStore bucketCount bucketDuration).run
          (calls ++ visits.map (fun v => (v.2, .visitNode nodeName v.1))) := by
  intro s
  refine ⟨fun key t => queryProfile_run _ _ calls key t, fun nodeName visits hrange key =>
    ⟨fun hrec => ?_, fun hrec => ?_⟩, fun key t => ?_, fun nodeName visits => ?_⟩
  · have hmem : key ∈ s.profiles := by
      rw [mem_profiles_run, (keyHistory_spec key nodeName calls).1]
      obtain ⟨h, hhist, -⟩ := (keyHistory_spec key nodeName calls).2.mp hrec
      simp [hhist]
    obtain ⟨⟨key', t⟩, hv, rfl⟩ := List.mem_map.mp ((hrange.2 key).mpr hmem)
    refine ⟨t, hv, ?_⟩
    rw [Store.queryNodeProfiles_fst nodeName visits hrange.1,
      filter_filterMap_of_nodup (fun _ _ => visitNode_workloadKey) hrange.1 hv,
      visitNode_of_record hrec]
    rfl
  · rw [Store.queryNodeProfiles_fst nodeName visits hrange.1, List.filter_eq_nil_iff]
    intro p hp
    obtain ⟨v, hv, hvp⟩ := List.mem_filterMap.mp hp
    have hne : v.1 ≠ key := by
      rintro rfl
      rw [visitNode_of_no_record hrec] at hvp
      cases hvp
    simpa [visitNode_workloadKey hvp] using hne
  · rw [Store.queryProfile_eq, Store.run, timedRun_append]
    rfl
  · rw [Store.queryNodeProfiles_eq, Store.run, Store.run, timedRun_append]
    rfl

/-- Two workloads on two nodes: the query for `node-1` returns the profile of the first and nothing
for the second, which was also visited by an earlier node query. -/
theorem store_is_product_two_keys :
    let calls : List (ℤ × StoreCall) :=
      [(0, .getOrCreate "default/Deployment/web"),
        (1, .onProfile "default/Deployment/web" (.record .pageFault "node-1")),
        (2, .getOrCreate "default/Deployment/db"),
        (3, .onProfile "default/Deployment/db" (.record .ctxSwitch "node-2")),
        (4, .visitNode "node-2" "default/Deployment/db")]
    let visits := [("default/Deployment/db", 14), ("default/Deployment/web", 15)]
    let profiles := (((newStore 2 10).run calls).queryNodeProfiles "node-1" visits).1
    (∃ t, ("default/Deployment/web", t) ∈ visits ∧
        profiles.filter (fun p => p.workloadKey = "default/Deployment/web")
          = [loneQuery 2 10 calls "default/Deployment/web" t]) ∧
      profiles.filter (fun p => p.workloadKey = "default/Deployment/db") = [] := by
  intro calls visits profiles
  have hrange : ((newStore 2 10).run calls).IsRange visits := by
    refine ⟨by decide, fun key => ?_⟩
    rw [mem_profiles_run]
    simp [visits, calls, Created, exists_or, or_comm]
  have hproduct := (store_is_product 2 10 calls).2.1 "node-1" visits hrange
  refine ⟨(hproduct _).1 ?_, (hproduct _).2 ?_⟩
  · exact ⟨[(0, .getOrCreate "default/Deployment/web")], 1, .pageFault, _, rfl, 0, by simp⟩
  · rw [(keyHistory_spec _ _ _).2]
    rintro ⟨h, hhist, hnode⟩
    obtain rfl : _ = h := Option.some_inj.mp hhist
    exact absurd hnode (by decide)

end Akil
