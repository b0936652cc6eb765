import Akil.Construction.Profile.Window

/-!
# The profile store (`pkg/profile/store.go`)

`Store` maps workload keys to their windows.  The Go map is a `sync.Map` of pointers; nothing
in this file keeps a pointer across calls, so a profile is its current value under its key.
(The interleaved ingest of `Construction/Aggregator/Ingest.lean`, where two handlers may hold
pointers at once, has a heap.)

`sync.Map.Range` promises no order, visits each key at most once, and calls its function
outside any lock, so the clock moves between two visits.  A `Range` is therefore given by the
list of its visits, each a key with the clock reading taken there; the theorems quantify over
that list.

`StoreCall` is what the aggregator does to the store, one entry per critical section: the
`GetOrCreate` of a key, one method of the profile under a key, and one visit of the `Range`
inside `QueryNodeProfiles`.  `queryNodeProfiles_eq` states that a whole `QueryNodeProfiles` is
the run of its visits.
-/

namespace Akil

/-- `Store`: workload keys to their sliding-window profiles, with the window configuration. -/
structure Store where
  profiles : Finmap (fun _ : String => WorkloadProfile)
  bucketCount : ℤ
  bucketDuration : ℤ

def newStore (bucketCount bucketDuration : ℤ) : Store where
  profiles := ∅
  bucketCount := if bucketCount ≤ 0 then defaultBucketCount else bucketCount
  bucketDuration := if bucketDuration ≤ 0 then defaultBucketDuration else bucketDuration

namespace Store

def get (s : Store) (workloadKey : String) : Option WorkloadProfile :=
  s.profiles.lookup workloadKey

/-- Replace the profile under a key: what a method called on the stored pointer does. -/
def put (s : Store) (workloadKey : String) (wp : WorkloadProfile) : Store :=
  { s with profiles := s.profiles.insert workloadKey wp }

/-- `GetOrCreate`, at the clock reading `NewWorkloadProfile` takes.  The profile returned is the
one then stored under the key. -/
def getOrCreate (workloadKey : String) (now : ℤ) (s : Store) : Store :=
  match s.get workloadKey with
  | some _ => s
  | none => s.put workloadKey
      (newWorkloadProfile workloadKey s.bucketCount s.bucketDuration now)

/-- The zero-value profile `QueryProfile` returns for an unknown workload. -/
def unknownProfile (workloadKey : String) : RuntimeProfile where
  workloadKey := workloadKey
  pageFaultRate := 0
  cacheMissRate := 0
  lockContentionRatio := 0
  contextSwitchRate := 0
  sampleCount := 0
  windowStart := none
  windowEnd := none
  confidence := .unknown

def queryProfile (workloadKey : String) (now : ℤ) (s : Store) : RuntimeProfile × Store :=
  match s.get workloadKey with
  | none => (unknownProfile workloadKey, s)
  | some wp =>
      let (p, wp) := wp.computeProfile now
      (p, s.put workloadKey wp)

/-- One visit of the `Range` in `QueryNodeProfiles`: a profile located on the node is computed
and appended. -/
def visitNode (nodeName workloadKey : String) (now : ℤ) (s : Store) :
    Option RuntimeProfile × Store :=
  match s.get workloadKey with
  | none => (none, s)
  | some wp =>
      if nodeName ∈ wp.nodeLocations then
        let (p, wp) := wp.computeProfile now
        (some p, s.put workloadKey wp)
      else (none, s)

/-- `QueryNodeProfiles`, along the visits of its `Range`. -/
def queryNodeProfiles (nodeName : String) : List (String × ℤ) → Store → List RuntimeProfile × Store
  | [], s => ([], s)
  | (workloadKey, now) :: visits, s =>
      let (p, s) := s.visitNode nodeName workloadKey now
      let (ps, s) := queryNodeProfiles nodeName visits s
      (p.toList ++ ps, s)

/-- The visits of a `Range` over the whole store: each key once. -/
def IsRange (s : Store) (visits : List (String × ℤ)) : Prop :=
  (visits.map Prod.fst).Nodup ∧ ∀ key, key ∈ visits.map Prod.fst ↔ key ∈ s.profiles

end Store

/-! ## Calls and runs -/

/-- What the aggregator does to the store, one critical section at a time. -/
inductive StoreCall
  | getOrCreate (workloadKey : String)
  | onProfile (workloadKey : String) (c : ProfileCall)
  | visitNode (nodeName workloadKey : String)
  deriving DecidableEq

def StoreCall.workloadKey : StoreCall → String
  | .getOrCreate workloadKey => workloadKey
  | .onProfile workloadKey _ => workloadKey
  | .visitNode _ workloadKey => workloadKey

namespace Store

def exec (now : ℤ) (c : StoreCall) (s : Store) : Store :=
  match c with
  | .getOrCreate workloadKey => s.getOrCreate workloadKey now
  | .onProfile workloadKey c =>
      match s.get workloadKey with
      | none => s
      | some wp => s.put workloadKey (wp.exec now c)
  | .visitNode nodeName workloadKey => (s.visitNode nodeName workloadKey now).2

def result (now : ℤ) (c : StoreCall) (s : Store) : Option RuntimeProfile :=
  match c with
  | .onProfile workloadKey .computeProfile => some (s.queryProfile workloadKey now).1
  | .visitNode nodeName workloadKey => (s.visitNode nodeName workloadKey now).1
  | _ => none

def run (s : Store) (calls : List (ℤ × StoreCall)) : Store := timedRun exec s calls

/-! ## Lookups -/

@[simp] lemma get_put_self (s : Store) (key : String) (wp : WorkloadProfile) :
    (s.put key wp).get key = some wp := Finmap.lookup_insert _

lemma get_put_of_ne (s : Store) {key key' : String} (h : key' ≠ key) (wp : WorkloadProfile) :
    (s.put key wp).get key' = s.get key' := Finmap.lookup_insert_of_ne _ h

@[simp] lemma bucketCount_put (s : Store) (key : String) (wp : WorkloadProfile) :
    (s.put key wp).bucketCount = s.bucketCount := rfl

@[simp] lemma bucketDuration_put (s : Store) (key : String) (wp : WorkloadProfile) :
    (s.put key wp).bucketDuration = s.bucketDuration := rfl

/-! ## What a call does -/

/-- A call changes at most the profile under its key. -/
lemma exec_cases (now : ℤ) (c : StoreCall) (s : Store) :
    s.exec now c = s ∨ ∃ wp, s.exec now c = s.put c.workloadKey wp := by
  cases c with
  | getOrCreate key =>
      rw [exec, getOrCreate]
      cases s.get key with
      | none => exact Or.inr ⟨_, rfl⟩
      | some wp => exact Or.inl rfl
  | onProfile key c =>
      rw [exec]
      cases s.get key with
      | none => exact Or.inl rfl
      | some wp => exact Or.inr ⟨_, rfl⟩
  | visitNode nodeName key =>
      rw [exec, visitNode]
      cases s.get key with
      | none => exact Or.inl rfl
      | some wp =>
          dsimp only
          split_ifs
          · exact Or.inr ⟨_, rfl⟩
          · exact Or.inl rfl

lemma config_exec (now : ℤ) (c : StoreCall) (s : Store) :
    (s.exec now c).bucketCount = s.bucketCount ∧
      (s.exec now c).bucketDuration = s.bucketDuration := by
  rcases s.exec_cases now c with heq | ⟨wp, heq⟩
  · rw [heq]
    exact ⟨rfl, rfl⟩
  · rw [heq]
    exact ⟨rfl, rfl⟩

lemma get_exec_of_ne (now : ℤ) {c : StoreCall} {key : String} (hne : c.workloadKey ≠ key)
    (s : Store) : (s.exec now c).get key = s.get key := by
  rcases s.exec_cases now c with heq | ⟨wp, heq⟩
  · rw [heq]
  · rw [heq, get_put_of_ne _ (Ne.symm hne)]

lemma get_getOrCreate_self (now : ℤ) (key : String) (s : Store) :
    (s.exec now (.getOrCreate key)).get key = some ((s.get key).getD
      (newWorkloadProfile key s.bucketCount s.bucketDuration now)) := by
  rw [exec, getOrCreate]
  cases hget : s.get key with
  | none => exact s.get_put_self _ _
  | some wp => exact hget

lemma get_onProfile_self (now : ℤ) (key : String) (c : ProfileCall) (s : Store) :
    (s.exec now (.onProfile key c)).get key = (s.get key).map (fun wp => wp.exec now c) := by
  rw [exec]
  cases hget : s.get key with
  | none => exact hget
  | some wp => exact s.get_put_self _ _

/-- A visit is a query of the profile if it is located on the node. -/
lemma get_visitNode_self (now : ℤ) (nodeName key : String) (s : Store) :
    (s.exec now (.visitNode nodeName key)).get key = (s.get key).map (fun wp =>
      if nodeName ∈ wp.nodeLocations then wp.exec now .computeProfile else wp) := by
  rw [exec, visitNode]
  cases hget : s.get key with
  | none => exact hget
  | some wp =>
      dsimp only
      rw [Option.map_some]
      split_ifs
      · exact s.get_put_self _ _
      · exact hget

lemma queryProfile_eq (key : String) (now : ℤ) (s : Store) :
    (s.queryProfile key now).2 = s.exec now (.onProfile key .computeProfile) := by
  rw [queryProfile, exec]
  cases s.get key <;> rfl

/-- At one clock reading a query leaves what every other query returns as it is. -/
lemma queryProfile_queryProfile (key key' : String) (now : ℤ) (s : Store) :
    ((s.queryProfile key now).2.queryProfile key' now).1 = (s.queryProfile key' now).1 := by
  unfold queryProfile
  cases hget : s.get key with
  | none => rfl
  | some wp =>
      by_cases hkey : key' = key
      · subst hkey
        simp [hget, WorkloadProfile.computeProfile]
      · simp only [s.get_put_of_ne hkey]
        cases s.get key' <;> rfl

/-- A whole `QueryNodeProfiles` is the run of its visits. -/
lemma queryNodeProfiles_eq (nodeName : String) (visits : List (String × ℤ)) (s : Store) :
    s.queryNodeProfiles nodeName visits
      = (timedOutputs exec result s (visits.map (fun v => (v.2, .visitNode nodeName v.1))),
          s.run (visits.map (fun v => (v.2, .visitNode nodeName v.1)))) := by
  induction visits generalizing s with
  | nil => rfl
  | cons v visits ih =>
      obtain ⟨key, now⟩ := v
      simp only [queryNodeProfiles, ih]
      rfl

end Store

end Akil
