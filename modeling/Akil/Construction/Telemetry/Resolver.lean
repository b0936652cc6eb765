import Akil.Construction.Telemetry.Cgroup
import Akil.Framework.TimedRun
import Mathlib.Data.List.AList

/-!
# The caching resolver (`pkg/telemetry/cgroup.go`)

`CgroupResolver.Resolve` finds the pod of a cgroup in three steps, each of which may fail: the
cgroup's path, the container ID in it, and the kubelet's entry for the container.  What the first
and the last step find depends on the moment; it is the `LookupEnv` of the call.  An identity that
was found is kept in a cache until it expires, and `EvictExpired` removes what has expired.

`Resolve` reads the clock when it has found an entry and again when it makes one, which is after
the lookup; a call therefore has a `Span`.  The lock is not modelled: calls come one at a time.
-/

namespace Akil

namespace Telemetry

/-! ## The lookup -/

/-- The errors of `resolveCgroupPath`: `walk cgroup filesystem: %w`, and `cgroup ID %d not
found`. -/
inductive CgroupWalkError
  | walk (err : String)
  | notFound (cgroupID : UInt64)
  deriving DecidableEq, Repr

/-- The errors of `queryKubelet`: `kubelet request failed: %w`, `decode kubelet response: %w`, and
that of `findPodByContainerID`. -/
inductive KubeletError
  | request (err : String)
  | decode (err : String)
  | lookup (err : PodLookupError)
  deriving DecidableEq, Repr

/-- The errors of `Resolve`: `resolve cgroup path for ID %d: %w`, `parse container ID from %q: %w`,
and `query kubelet for container %q: %w`. -/
inductive ResolveError
  | cgroupPath (cgroupID : UInt64) (err : CgroupWalkError)
  | containerID (cgroupPath : String) (err : CgroupPathError)
  | kubelet (containerID : String) (err : KubeletError)
  deriving DecidableEq, Repr

/-- What a lookup finds: the paths of the cgroups, and the pods the kubelet answers with. -/
structure LookupEnv where
  resolveCgroupPath : UInt64 → Except CgroupWalkError String
  pods : Except KubeletError (List KubeletPod)

namespace LookupEnv

def queryKubelet (env : LookupEnv) (containerID : String) : Except KubeletError PodIdentity :=
  match env.pods with
  | .error err => .error err
  | .ok podList => (findPodByContainerID podList containerID).mapError KubeletError.lookup

/-- Steps 2 to 4 of `Resolve`. -/
def lookup (env : LookupEnv) (cgroupID : UInt64) : Except ResolveError PodIdentity := do
  let cgroupPath ← (env.resolveCgroupPath cgroupID).mapError (ResolveError.cgroupPath cgroupID)
  let containerID ← (parseContainerID cgroupPath).mapError (ResolveError.containerID cgroupPath)
  (env.queryKubelet containerID).mapError (ResolveError.kubelet containerID)

end LookupEnv

/-! ## The cache -/

structure CachedIdentity where
  identity : PodIdentity
  expiry : ℤ
  deriving DecidableEq

structure CgroupResolverConfig where
  nodeName : String
  cacheTTL : ℤ

/-- `CgroupResolver`, without what the lookup needs. -/
structure CgroupResolver where
  cache : AList (fun _ : UInt64 => CachedIdentity)
  nodeName : String
  cacheTTL : ℤ

/-- `NewCgroupResolver`.  A zero is replaced by thirty seconds. -/
def newCgroupResolver (cfg : CgroupResolverConfig) : CgroupResolver :=
  ⟨∅, cfg.nodeName, if cfg.cacheTTL = 0 then 30 * 10 ^ 9 else cfg.cacheTTL⟩

/-- What `Resolve` returns, and whether it performed a lookup. -/
structure Resolution (ε : Type*) where
  result : Except ε PodIdentity
  lookedUp : Bool

namespace CgroupResolver

variable {ε : Type*}

/-- The entry of step 1, if there is one that has not expired. -/
def hit (now : ℤ) (cgroupID : UInt64) (r : CgroupResolver) : Option CachedIdentity :=
  (r.cache.lookup cgroupID).filter (fun cached => decide (now < cached.expiry))

/-- Step 5: the entry made of an identity that was found. -/
def store (now : ℤ) (cgroupID : UInt64) (identity : PodIdentity) (r : CgroupResolver) :
    CgroupResolver :=
  { r with cache := r.cache.insert cgroupID ⟨identity, now + r.cacheTTL⟩ }

def onNode (r : CgroupResolver) (identity : PodIdentity) : PodIdentity :=
  { identity with nodeName := r.nodeName }

def resolve (lookup : UInt64 → Except ε PodIdentity) (t : Span) (cgroupID : UInt64)
    (r : CgroupResolver) : CgroupResolver × Resolution ε :=
  match r.hit t.start cgroupID with
  | some cached => (r, ⟨.ok cached.identity, false⟩)
  | none =>
      match lookup cgroupID with
      | .error err => (r, ⟨.error err, true⟩)
      | .ok identity =>
          (r.store t.stop cgroupID (r.onNode identity), ⟨.ok (r.onNode identity), true⟩)

/-- The loop of `EvictExpired` over the entries, in any order. -/
def evictLoop (now : ℤ) : List UInt64 → AList (fun _ : UInt64 => CachedIdentity) → ℕ →
    AList (fun _ : UInt64 => CachedIdentity) × ℕ
  | [], cache, evicted => (cache, evicted)
  | id :: ids, cache, evicted =>
      if ∃ cached ∈ cache.lookup id, cached.expiry < now then
        evictLoop now ids (cache.erase id) (evicted + 1)
      else evictLoop now ids cache evicted

def evictExpired (now : ℤ) (r : CgroupResolver) : CgroupResolver × ℕ :=
  let (cache, evicted) := evictLoop now r.cache.keys r.cache 0
  ({ r with cache := cache }, evicted)

end CgroupResolver

inductive ResolverCall
  | resolve (cgroupID : UInt64)
  | evictExpired
  deriving DecidableEq

namespace CgroupResolver

variable {ε : Type*}

/-- One call; `lookup` says what a lookup finds at a moment. -/
def exec (lookup : Span → UInt64 → Except ε PodIdentity) (t : Span) (c : ResolverCall)
    (r : CgroupResolver) : CgroupResolver :=
  match c with
  | .resolve cgroupID => (r.resolve (lookup t) t cgroupID).1
  | .evictExpired => (r.evictExpired t.start).1

def resolution (lookup : Span → UInt64 → Except ε PodIdentity) (t : Span) (c : ResolverCall)
    (r : CgroupResolver) : Option (Resolution ε) :=
  match c with
  | .resolve cgroupID => some (r.resolve (lookup t) t cgroupID).2
  | .evictExpired => none

end CgroupResolver

end Telemetry

end Akil
