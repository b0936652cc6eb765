import Akil.Construction.Telemetry.Cgroup

/-!
# Whose container a cgroup is

`Resolve` takes a container ID off a cgroup path and looks it up in the kubelet's pod list.  Both
halves are lenient.  The CRI-O format accepts anything between `crio-` and `.scope`, the empty
string included (`parseContainerID_ok`); and the search stops at the first container whose ID
begins with the ID searched for, although the right one may come later in the list, or there may
be no telling which is meant.  `container_attribution_iff` says for which lists the search is
right.
-/

namespace Akil.Telemetry

/-! ## What the parser accepts -/

/-- Between `crio-` and `.scope` nothing overlaps. -/
lemma crio_scope {last : List Char} (hstart : "crio-".toList.isPrefixOf last = true)
    (hend : ".scope".toList.isSuffixOf last = true) :
    ∃ id, last = "crio-".toList ++ id ++ ".scope".toList := by
  obtain ⟨s, hs⟩ := List.isPrefixOf_iff_prefix.mp hstart
  obtain ⟨t, ht⟩ := List.isSuffixOf_iff_suffix.mp hend
  rcases List.append_eq_append_iff.mp (hs.trans ht.symm) with ⟨id, -, rfl⟩ | ⟨c, hc, hrest⟩
  · exact ⟨id, by rw [← hs, List.append_assoc]⟩
  · cases c with
    | nil =>
        obtain rfl : ".scope".toList = s := by simpa using hrest
        exact ⟨[], by rw [← hs, List.append_nil]⟩
    | cons x c =>
        -- An overlap would begin with the dot, which `crio-` does not contain.
        have hx : x = '.' := by
          have hhead := congrArg List.head? hrest
          simpa using hhead.symm
        have hmem : '.' ∈ "crio-".toList := by
          rw [hc, hx]
          simp
        exact absurd hmem (by decide)

lemma trimEnd_append (s ending : List Char) : trimEnd ending (s ++ ending) = s := by
  have hdrop : (s ++ ending).dropSuffix? ending = some s :=
    List.dropSuffix?_eq_some_iff.mpr ⟨ending, rfl, by simp⟩
  rw [trimEnd, hdrop, Option.getD_some]

lemma trimStart_append (start s : List Char) : trimStart start (start ++ s) = s := by
  have hdrop : (start ++ s).dropPrefix? start = some s :=
    List.dropPrefix?_eq_some_iff.mpr ⟨start, rfl, by simp⟩
  rw [trimStart, hdrop, Option.getD_some]

lemma scopedID_eq_some {last candidate : List Char} (h : scopedID last = some candidate) :
    12 ≤ (String.ofList candidate).utf8ByteSize ∧ isHex candidate = true := by
  unfold scopedID at h
  dsimp only at h
  split_ifs at h with hscope
  split at h
  · split_ifs at h with hcandidate
    obtain rfl := Option.some.inj h
    exact hcandidate
  · cases h

/-- An ID the parser returns has at least twelve hexadecimal digits, or it is whatever stands in a
last component `crio-<id>.scope`. -/
lemma parseContainerID_ok {cgroupPath id : String} (h : parseContainerID cgroupPath = .ok id) :
    (12 ≤ id.utf8ByteSize ∧ isHex id.toList = true) ∨
      (cgroupPath.toList.splitOn '/').getLast?
        = some ("crio-".toList ++ id.toList ++ ".scope".toList) := by
  unfold parseContainerID at h
  dsimp only at h
  cases hlast : (cgroupPath.toList.splitOn '/').getLast? with
  | none =>
      rw [hlast] at h
      cases h
  | some last =>
      rw [hlast] at h
      dsimp only at h
      split_ifs at h with hcrio hbare
      · obtain ⟨c, rfl⟩ := crio_scope hcrio.1 hcrio.2
        rw [List.append_assoc, trimStart_append, trimEnd_append] at h
        obtain rfl := Except.ok.inj h
        exact Or.inr (by simp)
      · obtain rfl := Except.ok.inj h
        rw [String.toList_ofList]
        exact Or.inl ⟨by omega, hbare.2⟩
      · cases hscoped : scopedID last with
        | none =>
            rw [hscoped] at h
            cases h
        | some candidate =>
            rw [hscoped] at h
            obtain rfl := Except.ok.inj h
            rw [String.toList_ofList]
            exact Or.inl (scopedID_eq_some hscoped)

/-! ## What the search finds -/

/-- The container's ID begins with the ID searched for. -/
def begins (containerID : String) (cs : ContainerStatus) : Bool :=
  containerID.toList.isPrefixOf (bareContainerID cs).toList

/-- The pod has a container of exactly this ID. -/
def hasExact (containerID : String) (pod : KubeletPod) : Bool :=
  pod.containerStatuses.any (fun cs => bareContainerID cs = containerID)

/-- The pod has a container whose ID begins with this one. -/
def hasBegin (containerID : String) (pod : KubeletPod) : Bool :=
  pod.containerStatuses.any (begins containerID)

/-- All containers of a pod list. -/
def containers (podList : List KubeletPod) : List ContainerStatus :=
  podList.flatMap KubeletPod.containerStatuses

/-- The identity `findPodByContainerID` makes for a container of a pod. -/
def identityOf (pod : KubeletPod) (cs : ContainerStatus) : PodIdentity where
  «namespace» := pod.metadata.namespace
  podName := pod.metadata.name
  container := cs.name
  workloadKey := kubeletWorkloadKey pod.metadata
  nodeName := ""

/-- An ID begins with itself. -/
lemma begins_of_exact {containerID : String} {cs : ContainerStatus}
    (h : bareContainerID cs = containerID) : begins containerID cs = true := by
  rw [begins, h, List.isPrefixOf_iff_prefix]

lemma matchesID_eq_begins (containerID : String) : matchesID containerID = begins containerID := by
  funext cs
  by_cases h : bareContainerID cs = containerID
  · simp [matchesID, h, begins_of_exact h]
  · simp [matchesID, h, begins]

/-- **The search.**  If it returns, it returns a container of the first pod that has a match, and
that container is a match. -/
lemma findPodByContainerID_ok {podList : List KubeletPod} {containerID : String}
    {identity : PodIdentity} (h : findPodByContainerID podList containerID = .ok identity) :
    ∃ pod cs, podList[podList.findIdx (hasBegin containerID)]? = some pod ∧
      cs ∈ pod.containerStatuses ∧ begins containerID cs = true ∧ identity = identityOf pod cs := by
  induction podList with
  | nil => cases h
  | cons pod podList ih =>
      rw [findPodByContainerID, matchesID_eq_begins] at h
      cases hfind : pod.containerStatuses.find? (begins containerID) with
      | some cs =>
          rw [hfind] at h
          have hcs := List.mem_of_find?_eq_some hfind
          have hbegins := List.find?_some hfind
          have hpod : hasBegin containerID pod = true := List.any_eq_true.mpr ⟨cs, hcs, hbegins⟩
          refine ⟨pod, cs, ?_, hcs, hbegins, (Except.ok.inj h).symm⟩
          rw [List.findIdx_cons, hpod]
          rfl
      | none =>
          rw [hfind] at h
          have hpod : hasBegin containerID pod = false :=
            List.any_eq_false.mpr (List.find?_eq_none.mp hfind)
          obtain ⟨pod', cs, hget, hrest⟩ := ih h
          refine ⟨pod', cs, ?_, hrest⟩
          rw [List.findIdx_cons, hpod]
          exact hget

/-- The pod is the one the ID stands for: it has a container of exactly that ID, or no pod of the
list has, and the container found is the only one whose ID begins with it. -/
def Attributed (podList : List KubeletPod) (containerID : String) (pod : KubeletPod)
    (cs : ContainerStatus) : Prop :=
  (∃ c ∈ pod.containerStatuses, bareContainerID c = containerID) ∨
    (∀ c ∈ containers podList, bareContainerID c ≠ containerID) ∧
      (containers podList).filter (begins containerID) = [cs]

/-- The list and the ID leave no doubt: if some pod has a container of exactly the ID, the first
such pod comes no later than the first with a container whose ID begins with it; and if none has,
one container in all has an ID that begins with it. -/
def Unambiguous (podList : List KubeletPod) (containerID : String) : Prop :=
  (podList.any (hasExact containerID) = true →
    podList.findIdx (hasExact containerID) ≤ podList.findIdx (hasBegin containerID)) ∧
  (podList.any (hasExact containerID) = false →
    (containers podList).countP (begins containerID) = 1)

instance (podList : List KubeletPod) (containerID : String) :
    Decidable (Unambiguous podList containerID) :=
  inferInstanceAs (Decidable ((_ → _) ∧ (_ → _)))

lemma any_hasExact {podList : List KubeletPod} {containerID : String} :
    podList.any (hasExact containerID) = true
      ↔ ∃ c ∈ containers podList, bareContainerID c = containerID := by
  simp only [hasExact, containers, List.any_eq_true, List.mem_flatMap, decide_eq_true_eq]
  constructor
  · rintro ⟨pod, hpod, c, hc, hexact⟩
    exact ⟨c, ⟨pod, hpod, hc⟩, hexact⟩
  · rintro ⟨c, ⟨pod, hpod, hc⟩, hexact⟩
    exact ⟨pod, hpod, c, hc, hexact⟩

lemma hasBegin_of_hasExact {containerID : String} {pod : KubeletPod}
    (h : hasExact containerID pod = true) : hasBegin containerID pod = true := by
  obtain ⟨c, hc, hexact⟩ := List.any_eq_true.mp h
  exact List.any_eq_true.mpr ⟨c, hc, begins_of_exact (of_decide_eq_true hexact)⟩

/-- If the pod found is the right one, there was no doubt. -/
lemma unambiguous_of_attributed {podList : List KubeletPod} {containerID : String}
    {pod : KubeletPod} {cs : ContainerStatus}
    (hget : podList[podList.findIdx (hasBegin containerID)]? = some pod)
    (h : Attributed podList containerID pod cs) : Unambiguous podList containerID := by
  rcases h with ⟨c, hc, hexact⟩ | ⟨hnone, honly⟩
  · -- The pod found is itself one with the exact ID.
    have hhas : hasExact containerID pod = true :=
      List.any_eq_true.mpr ⟨c, hc, decide_eq_true hexact⟩
    refine ⟨fun _ => ?_, fun hnot => ?_⟩
    · by_contra hlt
      have hbefore := List.not_of_lt_findIdx (not_le.mp hlt)
      rw [(List.getElem?_eq_some_iff.mp hget).2] at hbefore
      simp [hhas] at hbefore
    · exact absurd hhas (List.any_eq_false.mp hnot pod (List.mem_of_getElem? hget))
  · refine ⟨fun hany => ?_, fun _ => ?_⟩
    · obtain ⟨c, hc, hexact⟩ := any_hasExact.mp hany
      exact absurd hexact (hnone c hc)
    · rw [List.countP_eq_length_filter, honly, List.length_singleton]

/-- Where there is no doubt, the pod found is the right one. -/
lemma attributed_of_unambiguous {podList : List KubeletPod} {containerID : String}
    {pod : KubeletPod} {cs : ContainerStatus}
    (hget : podList[podList.findIdx (hasBegin containerID)]? = some pod)
    (hcs : cs ∈ pod.containerStatuses) (hbegins : begins containerID cs = true)
    (h : Unambiguous podList containerID) : Attributed podList containerID pod cs := by
  obtain ⟨hexactFirst, hsingle⟩ := h
  cases hany : podList.any (hasExact containerID) with
  | true =>
      have hle := hexactFirst hany
      -- A pod with the exact ID is one with a match, so the two positions are the same.
      have hge : podList.findIdx (hasBegin containerID)
          ≤ podList.findIdx (hasExact containerID) :=
        List.findIdx_le_findIdx (fun _ _ => hasBegin_of_hasExact)
      rw [le_antisymm hge hle] at hget
      have hpodExact : hasExact containerID pod = true :=
        List.findIdx_of_getElem?_eq_some hget
      obtain ⟨c, hc, hexact⟩ := List.any_eq_true.mp hpodExact
      exact Or.inl ⟨c, hc, of_decide_eq_true hexact⟩
  | false =>
      have hfound : cs ∈ (containers podList).filter (begins containerID) :=
        List.mem_filter.mpr
          ⟨List.mem_flatMap.mpr ⟨pod, List.mem_of_getElem? hget, hcs⟩, hbegins⟩
      refine Or.inr ⟨fun c hc hexact => ?_, ?_⟩
      · have htrue := any_hasExact.mpr ⟨c, hc, hexact⟩
        rw [hany] at htrue
        contradiction
      · have hlen := hsingle hany
        rw [List.countP_eq_length_filter, List.length_eq_one_iff] at hlen
        obtain ⟨c, hc⟩ := hlen
        rw [hc, List.mem_singleton] at hfound
        rw [hc, hfound]

/-- **Container attribution.**  For every cgroup path the parser accepts and every pod list the
search succeeds on: the ID has at least twelve hexadecimal digits, or is whatever stands in
`crio-<id>.scope`; and the container whose identity is returned, in the pod it is in, is the one
the ID stands for if and only if the list and the ID leave no doubt. -/
theorem container_attribution_iff (cgroupPath : String) (podList : List KubeletPod) (id : String)
    (identity : PodIdentity) (hparse : parseContainerID cgroupPath = .ok id)
    (hfind : findPodByContainerID podList id = .ok identity) :
    ((12 ≤ id.utf8ByteSize ∧ isHex id.toList = true) ∨
      (cgroupPath.toList.splitOn '/').getLast?
        = some ("crio-".toList ++ id.toList ++ ".scope".toList)) ∧
    ∃ pod cs, podList[podList.findIdx (hasBegin id)]? = some pod ∧
      cs ∈ pod.containerStatuses ∧ begins id cs = true ∧ identity = identityOf pod cs ∧
      (Attributed podList id pod cs ↔ Unambiguous podList id) := by
  refine ⟨parseContainerID_ok hparse, ?_⟩
  obtain ⟨pod, cs, hget, hcs, hbegins, hidentity⟩ := findPodByContainerID_ok hfind
  exact ⟨pod, cs, hget, hcs, hbegins, hidentity, unambiguous_of_attributed hget,
    attributed_of_unambiguous hget hcs hbegins⟩

/-- A pod with one container, owned by nobody. -/
def lonePod (name containerID : String) : KubeletPod :=
  ⟨⟨name, "default", []⟩, [⟨"main", containerID⟩]⟩

/-- The container of a shortened ID, in a list where only one begins with it. -/
theorem container_attribution_iff_short :
    let podList := [lonePod "web" "containerd://fedcba987654321000",
      lonePod "db" "containerd://0123456789ab000000"]
    let id := "0123456789ab"
    parseContainerID "/kubepods.slice/cri-containerd-0123456789ab.scope" = .ok id ∧
      (findPodByContainerID podList id).map PodIdentity.podName = .ok "db" ∧
      ∃ pod cs, identityOf pod cs = identityOf (lonePod "db" "containerd://0123456789ab000000")
          ⟨"main", "containerd://0123456789ab000000"⟩ ∧ Attributed podList id pod cs := by
  intro podList id
  have hparse : parseContainerID "/kubepods.slice/cri-containerd-0123456789ab.scope" = .ok id := by
    decide +kernel
  have hfind : findPodByContainerID podList id
      = .ok (identityOf (lonePod "db" "containerd://0123456789ab000000")
          ⟨"main", "containerd://0123456789ab000000"⟩) := by decide +kernel
  obtain ⟨pod, cs, -, -, -, hidentity, hiff⟩ :=
    (container_attribution_iff _ podList id _ hparse hfind).2
  exact ⟨hparse, by decide +kernel, pod, cs, hidentity.symm, hiff.mpr (by decide +kernel)⟩

/-- Two containers whose IDs share their first twelve digits: the shortened ID in the path of the
second one's cgroup is attributed to the first. -/
theorem container_attribution_ambiguous :
    let podList := [lonePod "web" "containerd://0123456789abffffff",
      lonePod "db" "containerd://0123456789ab000000"]
    let id := "0123456789ab"
    ((containers podList).map bareContainerID).Nodup ∧
      parseContainerID "/kubepods.slice/cri-containerd-0123456789ab.scope" = .ok id ∧
      findPodByContainerID podList id = .ok (identityOf
        (lonePod "web" "containerd://0123456789abffffff")
          ⟨"main", "containerd://0123456789abffffff"⟩) ∧
      ¬ Attributed podList id (lonePod "web" "containerd://0123456789abffffff")
          ⟨"main", "containerd://0123456789abffffff"⟩ := by
  intro podList id
  refine ⟨by decide +kernel, by decide +kernel, by decide +kernel, ?_⟩
  rintro (⟨c, hc, hexact⟩ | ⟨-, honly⟩)
  · obtain rfl := List.mem_singleton.mp hc
    revert hexact
    decide +kernel
  · revert honly
    decide +kernel

end Akil.Telemetry
