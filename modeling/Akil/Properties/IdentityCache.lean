import Akil.Construction.Telemetry.Resolver

/-!
# The identity cache

A hit is tested with `now < expiry` and an entry is evicted when `expiry < now`, on readings of
different calls.  Between the two lies the reading that equals the expiry: the entry is no hit and
is not evicted either.  What matters is that an entry that was evicted could never have been a hit
again, since the clock does not go back; so a cache from which entries were evicted and one from
which they were not give the same hits (`SameHits`).

Freshness needs no clock assumption at all.  Every entry is the trace of an earlier `Resolve` of its
cgroup that looked it up (`StoredBy`), and its expiry is the reading at the end of that call plus the
time to live.
-/

namespace Akil.Telemetry

variable {ε : Type*}

namespace CgroupResolver

/-! ## What eviction leaves -/

/-- The loop removes the expired entries among those it visits. -/
lemma lookup_evictLoop (now : ℤ) (ids : List UInt64)
    (cache : AList (fun _ : UInt64 => CachedIdentity)) (evicted : ℕ) (id : UInt64) :
    (evictLoop now ids cache evicted).1.lookup id
      = (cache.lookup id).filter (fun cached => decide (¬(id ∈ ids ∧ cached.expiry < now))) := by
  induction ids generalizing cache evicted with
  | nil => cases hcached : cache.lookup id <;> simp [evictLoop, hcached, Option.filter]
  | cons id' ids ih =>
      rw [evictLoop]
      split_ifs with hexpired
      · rw [ih]
        rcases eq_or_ne id id' with rfl | hne
        · obtain ⟨cached, hcached, hlt⟩ := hexpired
          rw [AList.lookup_erase, Option.mem_def.mp hcached]
          simp [Option.filter, hlt]
        · rw [AList.lookup_erase_ne hne]
          simp [hne]
      · rw [ih]
        rcases eq_or_ne id id' with rfl | hne
        · cases hcached : cache.lookup id with
          | none => rfl
          | some cached =>
              have hnot : ¬ cached.expiry < now := fun hlt => hexpired ⟨cached, hcached, hlt⟩
              simp [Option.filter, hnot]
        · simp [hne]

/-- **`EvictExpired`** removes exactly the entries whose expiry has passed. -/
lemma lookup_evictExpired (now : ℤ) (r : CgroupResolver) (id : UInt64) :
    (r.evictExpired now).1.cache.lookup id
      = (r.cache.lookup id).filter (fun cached => decide (¬ cached.expiry < now)) := by
  rw [evictExpired]
  dsimp only
  rw [lookup_evictLoop]
  cases hcached : r.cache.lookup id with
  | none => rfl
  | some cached =>
      have hmem : id ∈ r.cache.keys := by
        rw [← AList.mem_keys, ← AList.lookup_isSome, hcached]
        rfl
      simp [Option.filter, hmem]

end CgroupResolver

/-! ## What a `Resolve` can be -/

/-- A lookup succeeds if all three steps do. -/
lemma LookupEnv.lookup_eq_ok_iff {env : LookupEnv} {id : UInt64} {identity : PodIdentity} :
    env.lookup id = .ok identity ↔ ∃ path containerID podList,
      env.resolveCgroupPath id = .ok path ∧ parseContainerID path = .ok containerID ∧
        env.pods = .ok podList ∧ findPodByContainerID podList containerID = .ok identity := by
  rw [lookup]
  cases hpath : env.resolveCgroupPath id with
  | error err => simp [Except.mapError, bind, Except.bind]
  | ok path =>
      cases hid : parseContainerID path with
      | error err => simp [Except.mapError, bind, Except.bind, hid]
      | ok containerID =>
          cases hpods : env.pods with
          | error err => simp [Except.mapError, bind, Except.bind, hid, queryKubelet, hpods]
          | ok podList =>
              cases hfind : findPodByContainerID podList containerID <;>
                simp [Except.mapError, bind, Except.bind, hid, queryKubelet, hpods, hfind]

namespace CgroupResolver


/-- **The cases of `Resolve`**: a hit, a lookup that fails, and a lookup that succeeds and is
stored. -/
lemma resolve_cases (lookup : UInt64 → Except ε PodIdentity) (t : Span) (id : UInt64)
    (r : CgroupResolver) :
    (∃ cached, r.cache.lookup id = some cached ∧ t.start < cached.expiry ∧
        r.resolve lookup t id = (r, ⟨.ok cached.identity, false⟩)) ∨
      (∃ err, lookup id = .error err ∧ r.resolve lookup t id = (r, ⟨.error err, true⟩)) ∨
      ∃ identity, lookup id = .ok identity ∧ r.resolve lookup t id
        = (r.store t.stop id (r.onNode identity), ⟨.ok (r.onNode identity), true⟩) := by
  rw [resolve]
  cases hhit : r.hit t.start id with
  | some cached =>
      obtain ⟨hcached, hlt⟩ := Option.filter_eq_some_iff.mp hhit
      exact Or.inl ⟨cached, hcached, by simpa using hlt, rfl⟩
  | none =>
      cases hlookup : lookup id with
      | error err => exact Or.inr (Or.inl ⟨err, rfl, rfl⟩)
      | ok identity => exact Or.inr (Or.inr ⟨identity, rfl, rfl⟩)

/-- The two settings are never changed. -/
lemma exec_settings (lookup : Span → UInt64 → Except ε PodIdentity) (t : Span) (c : ResolverCall)
    (r : CgroupResolver) :
    (exec lookup t c r).nodeName = r.nodeName ∧ (exec lookup t c r).cacheTTL = r.cacheTTL := by
  cases c with
  | evictExpired => exact ⟨rfl, rfl⟩
  | resolve id =>
      rw [exec]
      rcases resolve_cases (lookup t) t id r with ⟨_, _, _, h⟩ | ⟨_, _, h⟩ | ⟨_, _, h⟩ <;>
        rw [h] <;> exact ⟨rfl, rfl⟩

/-! ## Freshness -/

/-- The entry for a cgroup was made by an earlier `Resolve` of it, from what a lookup found. -/
def StoredBy (lookup : Span → UInt64 → Except ε PodIdentity) (r : CgroupResolver)
    (calls : List (Span × ResolverCall)) (id : UInt64) (cached : CachedIdentity) : Prop :=
  ∃ before t after, calls = before ++ (t, .resolve id) :: after ∧
    ((timedRun (exec lookup) r before).resolve (lookup t) t id).2 = ⟨.ok cached.identity, true⟩ ∧
      cached.expiry = t.stop + r.cacheTTL

lemma StoredBy.concat {lookup : Span → UInt64 → Except ε PodIdentity} {r : CgroupResolver}
    {calls : List (Span × ResolverCall)} {id : UInt64} {cached : CachedIdentity}
    (h : StoredBy lookup r calls id cached) (c : Span × ResolverCall) :
    StoredBy lookup r (calls ++ [c]) id cached := by
  obtain ⟨before, t, after, rfl, hrest⟩ := h
  exact ⟨before, t, after ++ [c], by simp, hrest⟩

lemma timedRun_settings (lookup : Span → UInt64 → Except ε PodIdentity) (r : CgroupResolver)
    (calls : List (Span × ResolverCall)) :
    (timedRun (exec lookup) r calls).nodeName = r.nodeName ∧
      (timedRun (exec lookup) r calls).cacheTTL = r.cacheTTL :=
  timedRun_preserves (I := fun s => s.nodeName = r.nodeName ∧ s.cacheTTL = r.cacheTTL)
    (fun t c s h => ⟨(exec_settings lookup t c s).1.trans h.1,
      (exec_settings lookup t c s).2.trans h.2⟩) ⟨rfl, rfl⟩ calls

/-- **One call.**  Every entry it leaves was there before, or it made it. -/
lemma lookup_exec_cases (lookup : Span → UInt64 → Except ε PodIdentity) (t : Span)
    (c : ResolverCall) (r : CgroupResolver) {id : UInt64} {cached : CachedIdentity}
    (h : (exec lookup t c r).cache.lookup id = some cached) :
    r.cache.lookup id = some cached ∨ c = .resolve id ∧
      (r.resolve (lookup t) t id).2 = ⟨.ok cached.identity, true⟩ ∧
        cached.expiry = t.stop + r.cacheTTL := by
  cases c with
  | evictExpired =>
      rw [exec, lookup_evictExpired] at h
      exact Or.inl (Option.filter_eq_some_iff.mp h).1
  | resolve id' =>
      rw [exec] at h
      rcases resolve_cases (lookup t) t id' r with ⟨_, _, _, hr⟩ | ⟨_, _, hr⟩ | ⟨found, _, hr⟩
      · rw [hr] at h
        exact Or.inl h
      · rw [hr] at h
        exact Or.inl h
      · rw [hr, store] at h
        dsimp only at h
        rcases eq_or_ne id id' with rfl | hne
        · rw [AList.lookup_insert, Option.some_inj] at h
          subst h
          exact Or.inr ⟨rfl, congrArg Prod.snd hr, rfl⟩
        · rw [AList.lookup_insert_ne hne] at h
          exact Or.inl h

/-- **Whole runs.**  Every entry of the cache has its origin in the run. -/
lemma storedBy_run (lookup : Span → UInt64 → Except ε PodIdentity) {r : CgroupResolver}
    (hempty : r.cache = ∅) (calls : List (Span × ResolverCall)) {id : UInt64}
    {cached : CachedIdentity}
    (h : (timedRun (exec lookup) r calls).cache.lookup id = some cached) :
    StoredBy lookup r calls id cached := by
  induction calls using List.reverseRecOn with
  | nil =>
      rw [timedRun_nil, hempty, AList.lookup_empty] at h
      cases h
  | append_singleton calls c ih =>
      rw [timedRun_append, timedRun_cons, timedRun_nil] at h
      rcases lookup_exec_cases lookup c.1 c.2 _ h with hold | ⟨hc, hresult, hexpiry⟩
      · exact (ih hold).concat c
      · rw [(timedRun_settings lookup r calls).2] at hexpiry
        refine ⟨calls, c.1, [], ?_, hresult, hexpiry⟩
        rw [← hc]

/-! ## Evictions cannot be seen -/

/-- **The same hits from now on.**  An entry that only one of the two caches still has has
expired. -/
structure SameHits (now : Span) (r r' : CgroupResolver) : Prop where
  nodeName : r.nodeName = r'.nodeName
  cacheTTL : r.cacheTTL = r'.cacheTTL
  lookup : ∀ id, r.cache.lookup id = r'.cache.lookup id ∨
    (r.cache.lookup id = none ∧ ∀ cached ∈ r'.cache.lookup id, cached.expiry < now.stop)

namespace SameHits

variable {now t : Span} {r r' : CgroupResolver}

lemma refl (now : Span) (r : CgroupResolver) : SameHits now r r := ⟨rfl, rfl, fun _ => Or.inl rfl⟩

lemma mono (h : SameHits now r r') (hle : now ≤ t) : SameHits t r r' := by
  refine ⟨h.nodeName, h.cacheTTL, fun id => (h.lookup id).imp_right ?_⟩
  rintro ⟨hnone, hexpired⟩
  exact ⟨hnone, fun cached hcached =>
    (hexpired cached hcached).trans_le ((Span.le_def.mp hle).trans t.le)⟩

lemma hit_eq (h : SameHits now r r') (hle : now ≤ t) (id : UInt64) :
    r.hit t.start id = r'.hit t.start id := by
  rcases h.lookup id with hsame | ⟨hnone, hexpired⟩
  · rw [hit, hit, hsame]
  · rw [hit, hit, hnone, Option.filter_none, eq_comm, Option.filter_eq_none_iff]
    intro cached hcached
    have hlt := (hexpired cached hcached).trans_le (Span.le_def.mp hle)
    simpa using hlt.le

/-- Storing the same identity on both sides. -/
lemma store (h : SameHits now r r') (moment : ℤ) (id : UInt64) (identity : PodIdentity) :
    SameHits now (r.store moment id identity) (r'.store moment id identity) := by
  refine ⟨h.nodeName, h.cacheTTL, fun id' => ?_⟩
  rw [CgroupResolver.store, CgroupResolver.store, h.cacheTTL]
  dsimp only
  rcases eq_or_ne id' id with rfl | hne
  · rw [AList.lookup_insert, AList.lookup_insert]
    exact Or.inl rfl
  · rw [AList.lookup_insert_ne hne, AList.lookup_insert_ne hne]
    exact h.lookup id'

/-- `Resolve` on both sides. -/
lemma resolve (h : SameHits now r r') (hle : now ≤ t) (lookup : UInt64 → Except ε PodIdentity)
    (id : UInt64) :
    (r.resolve lookup t id).2 = (r'.resolve lookup t id).2 ∧
      SameHits t (r.resolve lookup t id).1 (r'.resolve lookup t id).1 := by
  have hnode : r.onNode = r'.onNode := by
    funext identity
    rw [onNode, onNode, h.nodeName]
  rw [CgroupResolver.resolve, CgroupResolver.resolve, h.hit_eq hle id]
  cases r'.hit t.start id with
  | some cached => exact ⟨rfl, h.mono hle⟩
  | none =>
      cases lookup id with
      | error err => exact ⟨rfl, h.mono hle⟩
      | ok identity =>
          dsimp only
          rw [hnode]
          exact ⟨rfl, (h.mono hle).store t.stop id _⟩

/-- `EvictExpired` on one side. -/
lemma evict_left (h : SameHits now r r') (hle : now ≤ t) :
    SameHits t (r.evictExpired t.start).1 r' := by
  refine ⟨h.nodeName, h.cacheTTL, fun id => ?_⟩
  rw [lookup_evictExpired]
  rcases (h.mono hle).lookup id with hsame | ⟨hnone, hexpired⟩
  · rw [hsame]
    cases hcached : r'.cache.lookup id with
    | none => exact Or.inl rfl
    | some cached =>
        by_cases hlt : cached.expiry < t.start
        · refine Or.inr ⟨by simp [Option.filter, hlt], ?_⟩
          intro cached' hcached'
          rw [← Option.mem_some_iff.mp hcached']
          exact hlt.trans_le t.le
        · exact Or.inl (by simp [Option.filter, hlt])
  · rw [hnone]
    exact Or.inr ⟨rfl, hexpired⟩

/-- `EvictExpired` on both sides. -/
lemma evict (h : SameHits now r r') (hle : now ≤ t) :
    SameHits t (r.evictExpired t.start).1 (r'.evictExpired t.start).1 := by
  refine ⟨h.nodeName, h.cacheTTL, fun id => ?_⟩
  rw [lookup_evictExpired, lookup_evictExpired]
  rcases (h.mono hle).lookup id with hsame | ⟨hnone, hexpired⟩
  · rw [hsame]
    exact Or.inl rfl
  · rw [hnone]
    exact Or.inr ⟨rfl, fun cached hcached =>
      hexpired cached (Option.filter_eq_some_iff.mp hcached).1⟩

/-- **One call on both sides.** -/
lemma both (h : SameHits now r r') (hle : now ≤ t) (lookup : Span → UInt64 → Except ε PodIdentity)
    (c : ResolverCall) :
    resolution lookup t c r = resolution lookup t c r' ∧
      SameHits t (exec lookup t c r) (exec lookup t c r') := by
  cases c with
  | evictExpired => exact ⟨rfl, h.evict hle⟩
  | resolve id => exact (h.resolve hle (lookup t) id).imp_left (congrArg some)

end SameHits

end CgroupResolver

open CgroupResolver

/-- **The identity cache is fresh and eviction is invisible.**  The lookup is any partial function
of the moment and the cgroup.  In every run of `Resolve` and `EvictExpired` calls on a clock that
does not go back: an identity that `Resolve` returns was found by the lookup of that very call, or
is that of an earlier `Resolve` of the cgroup in the run, which performed a lookup and ended less
than the time to live before this one began.  A `Resolve` that fails leaves the resolver as it was.
And if `EvictExpired` calls are inserted anywhere, the other `Resolve` calls return the same and
perform the same lookups. -/
theorem identityCache_sound (lookup : Span → UInt64 → Except ε PodIdentity)
    (cfg : CgroupResolverConfig) (created : Span) :
    let r₀ := newCgroupResolver cfg
    (∀ calls t id, NondecreasingFrom created (calls ++ [(t, ResolverCall.resolve id)]) →
        ∀ identity lookedUp,
          ((timedRun (exec lookup) r₀ calls).resolve (lookup t) t id).2 = ⟨.ok identity, lookedUp⟩ →
          (lookedUp = true ∧ ∃ found, lookup t id = .ok found ∧
              identity = { found with nodeName := cfg.nodeName }) ∨
            (lookedUp = false ∧ ∃ before t' after, calls = before ++ (t', .resolve id) :: after ∧
              ((timedRun (exec lookup) r₀ before).resolve (lookup t') t' id).2
                = ⟨.ok identity, true⟩ ∧
              t'.stop ≤ t.start ∧ t.start - t'.stop < r₀.cacheTTL)) ∧
      (∀ (r : CgroupResolver) t id err lookedUp,
        (r.resolve (lookup t) t id).2 = ⟨.error err, lookedUp⟩ →
          (r.resolve (lookup t) t id).1 = r) ∧
      ∀ sched : List (Span × ResolverCall × Bool), NondecreasingFrom created sched →
        (∀ c ∈ sched, c.2.2 = true → c.2.1 = .evictExpired) →
        originalOutputs (exec lookup) (resolution lookup) r₀ sched
          = timedOutputs (exec lookup) (resolution lookup) r₀ (originals sched) := by
  intro r₀
  refine ⟨fun calls t id hclock identity lookedUp hresult => ?_,
    fun r t id err lookedUp hresult => ?_, fun sched hclock hins => ?_⟩
  · rcases resolve_cases (lookup t) t id (timedRun (exec lookup) r₀ calls) with
      ⟨cached, hcached, hlt, h⟩ | ⟨err, -, h⟩ | ⟨found, hfound, h⟩
    · rw [h] at hresult
      cases hresult
      obtain ⟨before, t', after, rfl, hstored, hexpiry⟩ := storedBy_run lookup rfl calls hcached
      have hle : t' ≤ t := by
        rw [List.append_assoc, nondecreasingFrom_append] at hclock
        exact hclock.2.2.le_of_mem (List.mem_append_right after (List.mem_singleton_self _))
      refine Or.inr ⟨rfl, before, t', after, rfl, hstored, Span.le_def.mp hle, ?_⟩
      rw [hexpiry] at hlt
      omega
    · rw [h] at hresult
      cases hresult
    · rw [h] at hresult
      cases hresult
      refine Or.inl ⟨rfl, found, hfound, ?_⟩
      rw [onNode, (timedRun_settings lookup r₀ calls).1]
      rfl
  · rcases resolve_cases (lookup t) t id r with ⟨_, _, _, h⟩ | ⟨_, _, h⟩ | ⟨_, _, h⟩
    · rw [h]
    · rw [h]
    · rw [h] at hresult
      cases hresult
  · refine originalOutputs_eq_of_stutter (J := fun c => c = .evictExpired)
      (P := fun _ _ _ => True) (R := SameHits) ?_ ?_ (SameHits.refl created r₀) hclock hins
      (allSteps_of_forall (fun _ _ => trivial) _) (allSteps_of_forall (fun _ _ => trivial) _)
    · exact fun now t c r r' h hle _ _ => h.both hle lookup c
    · rintro now t c r r' h hle - rfl
      exact h.evict_left hle

/-- The cgroup `7` belongs to a container that the kubelet lists in one pod before the moment `50`
and in another one after it; entries live for thirty.  A hit at `20` is of the identity looked up
at `3`.  An `EvictExpired` inserted at `40` removes it, and the `Resolve` at `60`, like that without
the eviction, looks up the other pod. -/
theorem identityCache_sound_reused_id :
    let pod := fun name : String =>
      (⟨⟨name, "default", []⟩, [⟨"main", "cri-o://abc123"⟩]⟩ : KubeletPod)
    let env : Span → LookupEnv := fun t =>
      ⟨fun _ => .ok "/kubepods.slice/crio-abc123.scope",
        .ok [pod (if t.start < 50 then "web-1" else "db-0")]⟩
    let lookup := fun t => (env t).lookup
    let r₀ := newCgroupResolver ⟨"node-1", 30⟩
    let sched : List (Span × ResolverCall × Bool) :=
      [(⟨3, 5, by decide⟩, .resolve 7, false), (⟨20, 20, le_rfl⟩, .resolve 7, false),
        (⟨40, 40, le_rfl⟩, .evictExpired, true), (⟨60, 61, by decide⟩, .resolve 7, false)]
    let outputs := originalOutputs (exec lookup) (resolution lookup) r₀ sched
    (outputs.map (fun o => (o.result.toOption.map PodIdentity.podName, o.lookedUp))
        = [(some "web-1", true), (some "web-1", false), (some "db-0", true)]) ∧
      outputs = timedOutputs (exec lookup) (resolution lookup) r₀ (originals sched) := by
  intro pod env lookup r₀ sched outputs
  exact ⟨by decide, (identityCache_sound lookup ⟨"node-1", 30⟩ ⟨0, 0, le_rfl⟩).2.2 sched
    (by decide) (by decide)⟩

end Akil.Telemetry
