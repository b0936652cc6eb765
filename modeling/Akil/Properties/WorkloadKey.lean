import Akil.Construction.Identity.WorkloadKey

/-!
# One workload, one key

The plugin and the collector's resolver derive the same key for every pod, since they run the
same code.  The kubelet-based resolver traces a ReplicaSet to the Deployment it belongs to, as
the documented key `default/Deployment/web-frontend` requires; the other two do not.  All three
agree exactly on the pods whose first owner is not a ReplicaSet, and the pods of a Deployment
share one key in all three derivations exactly while its ReplicaSet has not been replaced.
-/

namespace Akil

open Telemetry

/-- The kind of the pod's first owner, if it has one. -/
def Pod.ownerKind? (pod : Pod) : Option String := pod.ownerReferences.head?.map OwnerReference.kind

/-- The pod is owned by the ReplicaSet `<deployment>-<hash>`. -/
def Pod.OwnedByReplicaSet (pod : Pod) (deployment hash : String) : Prop :=
  pod.ownerReferences.head? = some ⟨"ReplicaSet", deployment ++ "-" ++ hash⟩

/-- Searching the kubelet's list for `containerID` meets the pod before any other match. -/
structure FoundFirst (podList : List KubeletPod) (containerID : String) (pod : Pod) : Prop where
  split : ∃ before after, podList = before ++ pod.toKubelet :: after ∧
    ∀ q ∈ before, ∀ cs ∈ q.containerStatuses, matchesID containerID cs = false
  container : ∃ cs ∈ pod.containerStatuses, matchesID containerID cs = true

/-! ## The three derivations -/

lemma scoring_eq_cgroup (pod : Pod) : Scoring.getWorkloadKey pod = Cgroup.getWorkloadKey pod :=
  rfl

lemma findPodByContainerID_append {before : List KubeletPod} {containerID : String}
    (hbefore : ∀ q ∈ before, ∀ cs ∈ q.containerStatuses, matchesID containerID cs = false)
    (rest : List KubeletPod) :
    findPodByContainerID (before ++ rest) containerID = findPodByContainerID rest containerID := by
  induction before with
  | nil => rfl
  | cons q before ih =>
      have hnone : q.containerStatuses.find? (matchesID containerID) = none := by
        rw [List.find?_eq_none]
        intro cs hcs
        simp [hbefore q List.mem_cons_self cs hcs]
      rw [List.cons_append, findPodByContainerID, hnone]
      exact ih (fun q hq => hbefore q (List.mem_cons_of_mem _ hq))

/-- The lookup succeeds, with the key of the pod's own metadata. -/
lemma findPodByContainerID_found {podList : List KubeletPod} {containerID : String} {pod : Pod}
    (h : FoundFirst podList containerID pod) :
    ∃ identity, findPodByContainerID podList containerID = .ok identity ∧
      identity.workloadKey = kubeletWorkloadKey pod.toKubelet.metadata := by
  obtain ⟨before, after, rfl, hbefore⟩ := h.split
  obtain ⟨cs, hcs, hmatch⟩ := h.container
  have hsome : (pod.toKubelet.containerStatuses.find? (matchesID containerID)).isSome := by
    rw [List.find?_isSome]
    exact ⟨cs, hcs, hmatch⟩
  obtain ⟨found, hfound⟩ := Option.isSome_iff_exists.mp hsome
  rw [findPodByContainerID_append hbefore, findPodByContainerID, hfound]
  exact ⟨_, rfl, rfl⟩

lemma effectiveOwner_kind {owner : OwnerReference} (h : owner.kind = "ReplicaSet") :
    (effectiveOwner owner).kind = "Deployment" := by
  rw [effectiveOwner, if_pos h]
  split
  · split_ifs <;> rfl
  · rfl

/-- The hash is cut off: its last dash is the one before it. -/
lemma effectiveOwner_of_hash {deployment hash : String} (hdep : deployment ≠ "")
    (hhash : '-' ∉ hash.toList) :
    effectiveOwner ⟨"ReplicaSet", deployment ++ "-" ++ hash⟩ = ⟨"Deployment", deployment⟩ := by
  have hchars : (deployment ++ "-" ++ hash).toList = deployment.toList ++ '-' :: hash.toList := by
    simp [String.toList_append]
  have hidx : lastIndex '-' (deployment ++ "-" ++ hash).toList
      = some deployment.toList.length := by
    rw [hchars, lastIndex_append_cons _ hhash]
  have hpos : deployment.toList.length > 0 := by
    rw [gt_iff_lt, List.length_pos_iff]
    intro hnil
    apply hdep
    rw [← String.toList_inj, hnil]
    rfl
  rw [effectiveOwner, if_pos rfl, hidx]
  simp only [hpos, if_true, hchars, List.take_left', String.ofList_toList]

lemma workloadKeyOf_ne_of_replicaSet (ns a b : String) :
    workloadKeyOf ns "ReplicaSet" a ≠ workloadKeyOf ns "Deployment" b := by
  intro h
  have := congrArg String.toList h
  simp [workloadKeyOf, String.toList_append] at this

lemma workloadKeyOf_inj {ns kind a b : String}
    (h : workloadKeyOf ns kind a = workloadKeyOf ns kind b) : a = b := by
  have := congrArg String.toList h
  rw [← String.toList_inj]
  simpa [workloadKeyOf, String.toList_append] using this

/-- The kubelet-based key is the plugin's key unless the first owner is a ReplicaSet. -/
lemma kubeletWorkloadKey_eq_iff (pod : Pod) :
    Scoring.getWorkloadKey pod = kubeletWorkloadKey pod.toKubelet.metadata
      ↔ pod.ownerKind? ≠ some "ReplicaSet" := by
  rw [Scoring.getWorkloadKey, kubeletWorkloadKey, Pod.ownerKind?]
  simp only [Pod.toKubelet]
  cases pod.ownerReferences with
  | nil => simp
  | cons owner rest =>
      by_cases hk : owner.kind = "ReplicaSet"
      · simp only [List.head?_cons, Option.map_some, hk, ne_eq, not_true_eq_false, iff_false]
        rw [effectiveOwner_kind hk]
        exact workloadKeyOf_ne_of_replicaSet _ _ _
      · simp [effectiveOwner, hk]

lemma getWorkloadKey_of_owner {pod : Pod} {owner : OwnerReference}
    (h : pod.ownerReferences.head? = some owner) :
    Scoring.getWorkloadKey pod = workloadKeyOf pod.namespace owner.kind owner.name ∧
      kubeletWorkloadKey pod.toKubelet.metadata
        = workloadKeyOf pod.namespace (effectiveOwner owner).kind (effectiveOwner owner).name := by
  obtain ⟨rest, hrefs⟩ : ∃ rest, pod.ownerReferences = owner :: rest := by
    cases hr : pod.ownerReferences with
    | nil => simp [hr] at h
    | cons o rest =>
        obtain rfl : o = owner := by simpa [hr] using h
        exact ⟨rest, rfl⟩
  constructor
  · rw [Scoring.getWorkloadKey, hrefs]
  · simp only [kubeletWorkloadKey, Pod.toKubelet, hrefs]

/-- The replica names of one Deployment determine the hash. -/
lemma replicaSet_name_inj {deployment hash hash' : String}
    (h : deployment ++ "-" ++ hash = deployment ++ "-" ++ hash') : hash = hash' := by
  have := congrArg String.toList h
  rw [← String.toList_inj]
  simpa [String.toList_append] using this

/-! ## Agreement -/

/-- The replicas of one Deployment: the kubelet-based derivation gives both pods the same key,
and all three derivations do if and only if the pod-template hashes are equal. -/
lemma replicas_share_key_iff {pod pod' : Pod} {deployment hash hash' : String}
    (hns : pod.namespace = pod'.namespace) (hhash : '-' ∉ hash.toList)
    (hhash' : '-' ∉ hash'.toList) (howner : pod.OwnedByReplicaSet deployment hash)
    (howner' : pod'.OwnedByReplicaSet deployment hash') :
    (deployment ≠ "" → kubeletWorkloadKey pod.toKubelet.metadata
        = kubeletWorkloadKey pod'.toKubelet.metadata) ∧
      ((Scoring.getWorkloadKey pod = Scoring.getWorkloadKey pod' ∧
          Cgroup.getWorkloadKey pod = Cgroup.getWorkloadKey pod' ∧
          kubeletWorkloadKey pod.toKubelet.metadata
            = kubeletWorkloadKey pod'.toKubelet.metadata) ↔
        hash = hash') := by
  obtain ⟨hscore, hkubelet⟩ := getWorkloadKey_of_owner howner
  obtain ⟨hscore', hkubelet'⟩ := getWorkloadKey_of_owner howner'
  refine ⟨fun hdep => ?_, fun ⟨hs, _, _⟩ => ?_, fun h => ?_⟩
  · rw [hkubelet, hkubelet', effectiveOwner_of_hash hdep hhash,
      effectiveOwner_of_hash hdep hhash', hns]
  · rw [hscore, hscore', hns] at hs
    exact replicaSet_name_inj (workloadKeyOf_inj hs)
  · subst h
    have hs : Scoring.getWorkloadKey pod = Scoring.getWorkloadKey pod' := by
      rw [hscore, hscore', hns]
    exact ⟨hs, hs, by rw [hkubelet, hkubelet', hns]⟩

/-- **When one workload has one key.**  For every pod, the three derivations agree if and only
if the pod's first owner is not a ReplicaSet.  For two pods of ReplicaSets
`<deployment>-<hash>` and `<deployment>-<hash'>` in one namespace, the kubelet-based derivation
always gives both the same key, and all three do if and only if the hashes are equal. -/
theorem one_workload_one_key_iff (pod pod' : Pod) (podList podList' : List KubeletPod)
    (containerID containerID' : String) (hfound : FoundFirst podList containerID pod)
    (hfound' : FoundFirst podList' containerID' pod') :
    ∃ identity identity', findPodByContainerID podList containerID = .ok identity ∧
      findPodByContainerID podList' containerID' = .ok identity' ∧
      ((Scoring.getWorkloadKey pod = Cgroup.getWorkloadKey pod ∧
          Cgroup.getWorkloadKey pod = identity.workloadKey) ↔
        pod.ownerKind? ≠ some "ReplicaSet") ∧
      ∀ deployment hash hash' : String, pod.namespace = pod'.namespace →
        '-' ∉ hash.toList → '-' ∉ hash'.toList →
        pod.OwnedByReplicaSet deployment hash → pod'.OwnedByReplicaSet deployment hash' →
        (deployment ≠ "" → identity.workloadKey = identity'.workloadKey) ∧
          ((Scoring.getWorkloadKey pod = Scoring.getWorkloadKey pod' ∧
              Cgroup.getWorkloadKey pod = Cgroup.getWorkloadKey pod' ∧
              identity.workloadKey = identity'.workloadKey) ↔ hash = hash') := by
  obtain ⟨identity, hok, hkey⟩ := findPodByContainerID_found hfound
  obtain ⟨identity', hok', hkey'⟩ := findPodByContainerID_found hfound'
  refine ⟨identity, identity', hok, hok', ?_, ?_⟩
  · rw [hkey, ← scoring_eq_cgroup, ← kubeletWorkloadKey_eq_iff]
    exact and_iff_right rfl
  · intro deployment hash hash' hns hhash hhash' howner howner'
    rw [hkey, hkey']
    exact replicas_share_key_iff hns hhash hhash' howner howner'

/-- A StatefulSet pod: the three keys agree. -/
theorem one_workload_one_key_statefulSet :
    let pod : Pod := ⟨"default", "db-0", [⟨"StatefulSet", "db"⟩], [⟨"db", "containerd://abc123"⟩]⟩
    ∃ identity, findPodByContainerID [pod.toKubelet] "abc123" = .ok identity ∧
      Scoring.getWorkloadKey pod = Cgroup.getWorkloadKey pod ∧
      Cgroup.getWorkloadKey pod = identity.workloadKey := by
  intro pod
  have hfound : FoundFirst [pod.toKubelet] "abc123" pod := ⟨⟨[], [], rfl, by simp⟩, by decide⟩
  obtain ⟨identity, -, hok, -, hiff, -⟩ :=
    one_workload_one_key_iff pod pod [pod.toKubelet] [pod.toKubelet] "abc123" "abc123"
      hfound hfound
  exact ⟨identity, hok, hiff.mpr (by decide)⟩

/-- **A Deployment has several keys.**  Before and after a rollout the plugin and the collector
file the pods of `web` under two ReplicaSet keys, and neither is the key
`default/Deployment/web` the kubelet-based resolver derives. -/
theorem one_workload_one_key_fails :
    let pod : Pod := ⟨"default", "web-5d4b8c7f9-x2k4j", [⟨"ReplicaSet", "web-5d4b8c7f9"⟩],
      [⟨"nginx", "containerd://abc123"⟩]⟩
    let pod' : Pod := ⟨"default", "web-6f7c9d8b5-q8z7w", [⟨"ReplicaSet", "web-6f7c9d8b5"⟩],
      [⟨"nginx", "containerd://def456"⟩]⟩
    Scoring.getWorkloadKey pod = "default/ReplicaSet/web-5d4b8c7f9" ∧
      Cgroup.getWorkloadKey pod = "default/ReplicaSet/web-5d4b8c7f9" ∧
      Scoring.getWorkloadKey pod' = "default/ReplicaSet/web-6f7c9d8b5" ∧
      Cgroup.getWorkloadKey pod' = "default/ReplicaSet/web-6f7c9d8b5" ∧
      (findPodByContainerID [pod.toKubelet, pod'.toKubelet] "abc123").map PodIdentity.workloadKey
        = .ok "default/Deployment/web" ∧
      (findPodByContainerID [pod.toKubelet, pod'.toKubelet] "def456").map PodIdentity.workloadKey
        = .ok "default/Deployment/web" := by
  decide

end Akil
