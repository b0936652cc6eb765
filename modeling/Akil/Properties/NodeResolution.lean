import Akil.Construction.Telemetry.CgroupPath
import Akil.Properties.ContainerAttribution
import Akil.Properties.IdentityCache

/-!
# A container's cgroup resolves to its pod

`ContainerAttribution` and `IdentityCache` are about the last step of `Resolve` and about its cache,
whatever the steps before them find.  Here the chain is put together, from the files of the node to
the answer out of the cache.

`NodeView.Runs` says what it takes for a container to run on a node: its cgroup is in the tree with
its ID in `cgroup.id`, no other cgroup has that ID, the name of its directory parses to its
container ID, and the kubelet lists it, with no other container ID that begins with it.  As long as
this holds whenever `Resolve` looks, whatever else comes and goes on the node and whatever the cache
holds, every `Resolve` of the cgroup returns the container's pod (`container_resolved`).
-/

namespace Akil.Telemetry

/-! ## Reading an ID back -/

lemma isSpace_of_isDigit {c : Char} (h : c.isDigit = true) : isSpace c = false := by
  rw [Char.isDigit_iff_toNat] at h
  obtain ⟨hlow, hhigh⟩ := h
  have hlow : 48 ≤ c.toNat := hlow
  have hhigh : c.toNat ≤ 57 := hhigh
  simp only [isSpace, List.mem_cons, List.not_mem_nil, or_false, Bool.or_eq_false_iff,
    Bool.and_eq_false_iff, decide_eq_false_iff_not]
  omega

/-- White space around digits is trimmed. -/
lemma trimSpace_digits {ds space : List Char} (hds : ∀ c ∈ ds, c.isDigit = true) (hne : ds ≠ [])
    (hspace : ∀ c ∈ space, isSpace c = true) : trimSpace (ds ++ space) = ds := by
  have hlast := isSpace_of_isDigit (hds _ (List.getLast_mem hne))
  have hback : (ds ++ space).rdropWhile isSpace = ds := by
    induction space using List.reverseRecOn with
    | nil =>
        rw [List.append_nil]
        exact List.rdropWhile_eq_self_iff.mpr (fun _ => by simp [hlast])
    | append_singleton space x ih =>
        rw [← List.append_assoc, List.rdropWhile_concat_pos _ _ _ (hspace x (by simp))]
        exact ih (fun c hc => hspace c (by simp [hc]))
  obtain ⟨d, rest, rfl⟩ := List.exists_cons_of_ne_nil hne
  have hd := isSpace_of_isDigit (hds d List.mem_cons_self)
  have hfront : (d :: rest ++ space).dropWhile isSpace = d :: rest ++ space := by
    rw [List.cons_append, List.dropWhile_cons_of_neg (by simp [hd])]
  rw [trimSpace, hfront, hback]

/-- What the kernel writes is read back. -/
lemma scanUint64_toDigits (id : UInt64) : scanUint64 (Nat.toDigits 10 id.toNat) = some id := by
  have hdigits : ∀ c ∈ Nat.toDigits 10 id.toNat, c.isDigit = true := fun c hc =>
    Nat.isDigit_of_mem_toDigits (by decide) (by decide) hc
  have htok : (Nat.toDigits 10 id.toNat).takeWhile Char.isDigit = Nat.toDigits 10 id.toNat :=
    List.takeWhile_eq_self_iff.mpr hdigits
  have hlt : id.toNat < 2 ^ 64 := id.toNat_lt
  simp only [scanUint64, htok, Nat.toDigits_ne_nil, if_false, Nat.ofDigitChars_ten_toDigits, hlt,
    if_true, UInt64.ofNat_toNat]

/-- **The file `cgroup.id`**, a decimal number and white space. -/
lemma readCgroupID_of_file {readFile : String → Option String} {dir : String} {id : UInt64}
    {space : String} (hfile : readFile (dir ++ "/" ++ "cgroup.id")
      = some (toString id.toNat ++ space)) (hspace : ∀ c ∈ space.toList, isSpace c = true) :
    readCgroupID readFile dir = .ok id := by
  have hdigits : ∀ c ∈ Nat.toDigits 10 id.toNat, c.isDigit = true := fun c hc =>
    Nat.isDigit_of_mem_toDigits (by decide) (by decide) hc
  have htext : (toString id.toNat ++ space).toList = Nat.toDigits 10 id.toNat ++ space.toList := by
    rw [String.toList_append, Nat.toString_eq_ofList_toDigits, String.toList_ofList]
  simp only [readCgroupID, hfile, htext, trimSpace_digits hdigits Nat.toDigits_ne_nil hspace,
    scanUint64_toDigits]

/-! ## The walk -/

lemma filepathDir_append {dir name : String} (hdir : dir ≠ "") (hname : '/' ∉ name.toList) :
    filepathDir (dir ++ "/" ++ name) = dir := by
  have hpath : (dir ++ "/" ++ name).toList = dir.toList ++ '/' :: name.toList := by simp
  have hlast : lastIndex '/' (dir ++ "/" ++ name).toList = some dir.toList.length := by
    rw [hpath]
    exact lastIndex_append_cons _ hname
  have hpos : dir.toList.length ≠ 0 := by
    rw [String.length_toList]
    exact fun h => hdir (String.length_eq_zero_iff.mp h)
  obtain ⟨k, hk⟩ := Nat.exists_eq_succ_of_ne_zero hpos
  have htake : (dir ++ "/" ++ name).toList.take dir.toList.length = dir.toList := by
    rw [hpath, List.take_left]
  rw [hk] at hlast htake
  rw [filepathDir, hlast]
  change String.ofList ((dir ++ "/" ++ name).toList.take (k + 1)) = dir
  rw [htake, String.ofList_toList]

lemma filepathDir_ne_empty (path : String) : filepathDir path ≠ "" := by
  unfold filepathDir
  split
  · decide
  · decide
  next idx hpos hidx =>
    -- the position is not the first, and there is a character before it
    have hne : path.toList ≠ [] := by
      intro hnil
      rw [hnil] at hidx
      cases hidx
    have htake : path.toList.take idx ≠ [] := by
      rw [Ne, List.take_eq_nil_iff, not_or]
      exact ⟨hpos, hne⟩
    exact fun h => htake (String.ofList_eq_empty_iff.mp h)

namespace NodeView

/-- What the visitor looks for: the directory of a `cgroup.stat` whose cgroup has the ID. -/
def lookFor (v : NodeView) (cgroupID : UInt64) (path name : String) : Option String :=
  if name = "cgroup.stat" ∧ readCgroupID v.readFile (filepathDir path) = .ok cgroupID then
    some (filepathDir path)
  else none

lemma visitStat_eq (v : NodeView) (cgroupID : UInt64) :
    v.visitStat cgroupID = FileTree.stopAt (v.lookFor cgroupID) := by
  funext path name foundPath
  unfold visitStat FileTree.stopAt lookFor
  by_cases hname : name = "cgroup.stat"
  · cases hid : readCgroupID v.readFile (filepathDir path) with
    | error err => simp [hname, hid]
    | ok id => by_cases heq : id = cgroupID <;> simp [hname, hid, heq]
  · simp [hname]

/-- **The answer of the walk**: the first directory that holds a `cgroup.stat` and the ID. -/
lemma resolveCgroupPath_eq (v : NodeView) (cgroupBasePath : String) (cgroupID : UInt64) :
    v.resolveCgroupPath cgroupBasePath cgroupID
      = match (v.fs.visited cgroupBasePath).findSome? (fun e => v.lookFor cgroupID e.1 e.2) with
        | some dir => .ok dir
        | none => .error (.notFound cgroupID) := by
  rw [resolveCgroupPath, visitStat_eq, FileTree.search_find, FileTree.firstSeen]
  cases hfind : (v.fs.visited cgroupBasePath).findSome? (fun e => v.lookFor cgroupID e.1 e.2) with
  | none => rfl
  | some dir =>
      obtain ⟨e, -, hlook⟩ := List.exists_of_findSome?_eq_some hfind
      have hdir : dir ≠ "" := by
        unfold lookFor at hlook
        split_ifs at hlook
        rw [← Option.some_inj.mp hlook]
        exact filepathDir_ne_empty _
      exact if_neg hdir

/-! ## Running containers -/

/-- A container runs on the node: `dir` is its cgroup, the only one with the ID, and named after
the container; and in the kubelet's list it is the only one whose ID begins with its own. -/
structure Runs (v : NodeView) (cgroupBasePath : String) (cgroupID : UInt64) (pod : KubeletPod)
    (cs : ContainerStatus) (dir : String) : Prop where
  dir_ne : dir ≠ ""
  visited : (dir ++ "/" ++ "cgroup.stat", "cgroup.stat") ∈ v.fs.visited cgroupBasePath
  idFile : ∃ space : String, (∀ c ∈ space.toList, isSpace c = true) ∧
    v.readFile (dir ++ "/" ++ "cgroup.id") = some (toString cgroupID.toNat ++ space)
  unique : ∀ path, (path, "cgroup.stat") ∈ v.fs.visited cgroupBasePath →
    readCgroupID v.readFile (filepathDir path) = .ok cgroupID → filepathDir path = dir
  named : parseContainerID dir = .ok (bareContainerID cs)
  listed : ∃ podList, v.pods = .ok podList ∧ pod ∈ podList ∧ cs ∈ pod.containerStatuses ∧
    ∀ pod' ∈ podList, ∀ cs' ∈ pod'.containerStatuses,
      begins (bareContainerID cs) cs' = true → pod' = pod ∧ cs' = cs

variable {v : NodeView} {cgroupBasePath dir : String} {cgroupID : UInt64} {pod : KubeletPod}
  {cs : ContainerStatus}

/-- The walk finds its directory. -/
lemma Runs.resolveCgroupPath (h : v.Runs cgroupBasePath cgroupID pod cs dir) :
    v.resolveCgroupPath cgroupBasePath cgroupID = .ok dir := by
  have hdir : filepathDir (dir ++ "/" ++ "cgroup.stat") = dir :=
    filepathDir_append h.dir_ne (by decide)
  obtain ⟨space, hspace, hfile⟩ := h.idFile
  have hread := readCgroupID_of_file hfile hspace
  rw [resolveCgroupPath_eq]
  cases hfind : (v.fs.visited cgroupBasePath).findSome? (fun e => v.lookFor cgroupID e.1 e.2) with
  | none =>
      have hnone := List.findSome?_eq_none_iff.mp hfind _ h.visited
      rw [lookFor, hdir, if_pos ⟨rfl, hread⟩] at hnone
      cases hnone
  | some found =>
      obtain ⟨⟨path, name⟩, hmem, hlook⟩ := List.exists_of_findSome?_eq_some hfind
      unfold lookFor at hlook
      split_ifs at hlook with hstat
      obtain ⟨rfl, hid⟩ := hstat
      obtain rfl := Option.some_inj.mp hlook
      dsimp only
      rw [h.unique path hmem hid]

/-- A search that fails has seen no container whose ID begins with the ID searched for. -/
lemma findPodByContainerID_error {podList : List KubeletPod} {containerID : String}
    {err : PodLookupError} (h : findPodByContainerID podList containerID = .error err) :
    ∀ pod ∈ podList, ∀ cs ∈ pod.containerStatuses, begins containerID cs = false := by
  induction podList with
  | nil => exact fun pod hpod => absurd hpod List.not_mem_nil
  | cons pod podList ih =>
      rw [findPodByContainerID, matchesID_eq_begins] at h
      cases hfind : pod.containerStatuses.find? (begins containerID) with
      | some cs =>
          rw [hfind] at h
          cases h
      | none =>
          rw [hfind] at h
          have hnone := List.find?_eq_none.mp hfind
          exact List.forall_mem_cons.mpr
            ⟨fun cs hcs => Bool.eq_false_iff.mpr (hnone cs hcs), ih h⟩

/-- The kubelet's list has its pod. -/
lemma findPodByContainerID_of_only {podList : List KubeletPod} (hpod : pod ∈ podList)
    (hcs : cs ∈ pod.containerStatuses)
    (honly : ∀ pod' ∈ podList, ∀ cs' ∈ pod'.containerStatuses,
      begins (bareContainerID cs) cs' = true → pod' = pod ∧ cs' = cs) :
    findPodByContainerID podList (bareContainerID cs) = .ok (identityOf pod cs) := by
  cases hfind : findPodByContainerID podList (bareContainerID cs) with
  | ok identity =>
      obtain ⟨pod', cs', hget, hcs', hbegins, rfl⟩ := findPodByContainerID_ok hfind
      obtain ⟨rfl, rfl⟩ := honly pod' (List.mem_of_getElem? hget) cs' hcs' hbegins
      rfl
  | error err =>
      have hnone := findPodByContainerID_error hfind pod hpod cs hcs
      rw [begins_of_exact rfl] at hnone
      cases hnone

/-- **A lookup.** -/
lemma Runs.lookup (h : v.Runs cgroupBasePath cgroupID pod cs dir) :
    (v.env cgroupBasePath).lookup cgroupID = .ok (identityOf pod cs) := by
  obtain ⟨podList, hpods, hpod, hcs, honly⟩ := h.listed
  exact LookupEnv.lookup_eq_ok_iff.mpr ⟨dir, bareContainerID cs, podList, h.resolveCgroupPath,
    h.named, hpods, findPodByContainerID_of_only hpod hcs honly⟩

end NodeView

/-! ## Out of the cache -/

open CgroupResolver

/-- What a `Resolve` that looked up returns. -/
lemma identity_of_lookedUp {ε : Type*} {lookup : UInt64 → Except ε PodIdentity} {t : Span}
    {id : UInt64} {r : CgroupResolver} {identity found : PodIdentity}
    (h : (r.resolve lookup t id).2 = ⟨.ok identity, true⟩) (hfound : lookup id = .ok found) :
    identity = r.onNode found := by
  rcases resolve_cases lookup t id r with ⟨cached, -, -, hr⟩ | ⟨err, herr, -⟩ | ⟨found', hok, hr⟩
  · rw [hr] at h
    cases h
  · rw [hfound] at herr
    cases herr
  · rw [hfound] at hok
    obtain rfl := Except.ok.inj hok
    rw [hr] at h
    cases h
    rfl

/-- **A container's cgroup resolves to its pod.**  The node may change as it likes between the calls.
If the container runs on it whenever one of the calls looks, then after any `Resolve` and
`EvictExpired` calls a `Resolve` of its cgroup returns its pod, on the resolver's node. -/
theorem container_resolved (view : Span → NodeView) (cgroupBasePath : String)
    (cfg : CgroupResolverConfig) (calls : List (Span × ResolverCall)) (t : Span) (cgroupID : UInt64)
    (pod : KubeletPod) (cs : ContainerStatus)
    (hruns : ∀ t' ∈ t :: calls.map Prod.fst,
      ∃ dir, (view t').Runs cgroupBasePath cgroupID pod cs dir) :
    let lookup := fun t' => ((view t').env cgroupBasePath).lookup
    ((timedRun (exec lookup) (newCgroupResolver cfg) calls).resolve (lookup t) t cgroupID).2.result
      = .ok { identityOf pod cs with nodeName := cfg.nodeName } := by
  intro lookup
  have hlookup : ∀ t' ∈ t :: calls.map Prod.fst, lookup t' cgroupID = .ok (identityOf pod cs) := by
    intro t' ht'
    obtain ⟨dir, hdir⟩ := hruns t' ht'
    exact hdir.lookup
  have hnode : (timedRun (exec lookup) (newCgroupResolver cfg) calls).nodeName = cfg.nodeName :=
    (timedRun_settings lookup (newCgroupResolver cfg) calls).1
  rcases resolve_cases (lookup t) t cgroupID (timedRun (exec lookup) (newCgroupResolver cfg) calls)
    with ⟨cached, hcached, -, h⟩ | ⟨err, herr, -⟩ | ⟨found, hfound, h⟩
  · obtain ⟨before, t', after, hcalls, hstored, -⟩ := storedBy_run lookup rfl calls hcached
    have ht' : t' ∈ t :: calls.map Prod.fst := by
      rw [hcalls]
      simp
    have hnode' : (timedRun (exec lookup) (newCgroupResolver cfg) before).nodeName = cfg.nodeName :=
      (timedRun_settings lookup (newCgroupResolver cfg) before).1
    rw [h, identity_of_lookedUp hstored (hlookup t' ht'), onNode, hnode']
  · rw [hlookup t List.mem_cons_self] at herr
    cases herr
  · rw [hlookup t List.mem_cons_self] at hfound
    obtain rfl := Except.ok.inj hfound
    rw [h, onNode, hnode]

/-- A node with one container, whose cgroup has the ID `7`; that of the root is `1`. -/
def demoNode : NodeView where
  fs := .dir "cgroup" [.file "cgroup.stat", .dir "crio-0123456789ab.scope" [.file "cgroup.stat"]]
  readFile path :=
    if path = "/sys/fs/cgroup/cgroup.id" then some "1\n"
    else if path = "/sys/fs/cgroup/crio-0123456789ab.scope/cgroup.id" then some "7\n"
    else none
  pods := .ok [lonePod "db" "cri-o://ba9876543210", lonePod "web" "cri-o://0123456789ab"]

/-- It is resolved by a lookup, and again out of the cache. -/
theorem container_resolved_twice :
    let lookup := fun _ => (demoNode.env "/sys/fs/cgroup").lookup
    let r := timedRun (exec lookup) (newCgroupResolver ⟨"node-1", 0⟩)
      [(⟨0, 1, by decide⟩, .resolve 7), (⟨2, 2, by decide⟩, .evictExpired)]
    (r.resolve (lookup ⟨9, 9, by decide⟩) ⟨9, 9, by decide⟩ 7).2.result
      = .ok ⟨"default", "web", "main", "default/Pod/web", "node-1"⟩ := by
  intro lookup r
  have hidentity : { identityOf (lonePod "web" "cri-o://0123456789ab")
      ⟨"main", "cri-o://0123456789ab"⟩ with nodeName := "node-1" }
        = (⟨"default", "web", "main", "default/Pod/web", "node-1"⟩ : PodIdentity) := by decide +kernel
  rw [← hidentity]
  refine container_resolved (fun _ => demoNode) "/sys/fs/cgroup" ⟨"node-1", 0⟩ _ _ 7 _ _
    (fun t' _ => ?_)
  refine ⟨"/sys/fs/cgroup/crio-0123456789ab.scope", by decide, by decide +kernel,
    ⟨"\n", by simp [isSpace], by decide +kernel⟩, fun path hpath => ?_, by decide +kernel,
    _, rfl, by decide +kernel, by decide +kernel, by decide +kernel⟩
  have hvisited : demoNode.fs.visited "/sys/fs/cgroup" = [("/sys/fs/cgroup", "cgroup"),
      ("/sys/fs/cgroup/cgroup.stat", "cgroup.stat"),
      ("/sys/fs/cgroup/crio-0123456789ab.scope", "crio-0123456789ab.scope"),
      ("/sys/fs/cgroup/crio-0123456789ab.scope/cgroup.stat", "cgroup.stat")] := by decide +kernel
  rw [hvisited] at hpath
  simp only [List.mem_cons, Prod.mk.injEq, List.not_mem_nil, or_false] at hpath
  rcases hpath with ⟨-, hname⟩ | ⟨rfl, -⟩ | ⟨-, hname⟩ | ⟨rfl, -⟩
  · exact absurd hname (by decide)
  · decide +kernel
  · exact absurd hname (by decide)
  · decide +kernel

end Akil.Telemetry
