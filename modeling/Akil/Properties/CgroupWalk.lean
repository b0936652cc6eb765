import Akil.Construction.Collector.Resolver
import Akil.Properties.ContainerPaths

/-!
# Which directory the collector takes for a container

The kubelet-based resolver reads a container's ID off the last component of a cgroup path.  The
collector goes the other way and looks for the directory of a given ID, but by a cruder test: the
ID may stand anywhere in the path.  Its walk is pruned, so the candidates are the outermost
directories with the ID in their path, and the last of them is the answer (`findCgroupPath_eq`).

A helper of the container is enough to mislead it.  CRI-O runs the container's monitor in a scope of
its own next to the container's, `crio-conmon-<id>.scope`, which comes later in the order of the
names (`findCgroupPath_takes_conmon`).  `findCgroupPath_finds_iff` says exactly in which trees the
two resolvers agree, and that the inodes in the collector's map are then the containers' own.
-/

namespace Akil.Cgroup

open Telemetry (parseContainerID)

/-- The directories of the tree at `baseDir`, in the order of the walk. -/
def cgroupDirs (fs : FileTree) : List FileTree.Directory := fs.dirs [] baseDir

/-- If some directory is that of the container, `findCgroupPath` returns one that is. -/
def FindsContainer (fs : FileTree) (containerID : String) : Prop :=
  (∃ d ∈ cgroupDirs fs, parseContainerID d.path = .ok containerID) →
    ∃ d ∈ cgroupDirs fs, findCgroupPath fs containerID = d.path ∧
      parseContainerID d.path = .ok containerID

/-- If some directory is that of the container, there is one with two properties.  It lies in no
directory with the ID in its path; and whatever comes after it and has the ID in its path lies in
one that has. -/
def ContainerLast (fs : FileTree) (containerID : String) : Prop :=
  (∃ d ∈ cgroupDirs fs, parseContainerID d.path = .ok containerID) →
    ∃ before d after, cgroupDirs fs = before ++ d :: after ∧
      parseContainerID d.path = .ok containerID ∧
      (∀ a ∈ d.above, ¬ stringsContains a containerID) ∧
      ∀ e ∈ after, stringsContains e.path containerID → ∃ a ∈ e.above, stringsContains a containerID

/-- The test of the visitor. -/
def mentions (containerID path : String) : Bool := decide (stringsContains path containerID)

lemma outermost_iff {containerID : String} {d : FileTree.Directory} :
    d.Outermost (mentions containerID) ↔
      stringsContains d.path containerID ∧ ∀ a ∈ d.above, ¬ stringsContains a containerID := by
  simp [FileTree.Directory.Outermost, mentions]

/-- **The answer of the walk** is the last outermost directory with the ID in its path. -/
lemma findCgroupPath_eq (fs : FileTree) (containerID : String) :
    findCgroupPath fs containerID
      = (((cgroupDirs fs).reverse.find? (fun d => d.Outermost (mentions containerID))).map
          FileTree.Directory.path).getD "" := by
  have hvisit : visitCgroup containerID
      = FileTree.prune (mentions containerID) (fun path _ => path) := by
    funext path isDir targetPath
    rfl
  rw [findCgroupPath, hvisit, FileTree.walk_prune [] (fun _ h => absurd h List.not_mem_nil),
    FileTree.foldOutermost_last, List.getLast?_filter]
  rfl

lemma findCgroupPath_of_last {fs : FileTree} {containerID : String}
    {before after : List FileTree.Directory} {d : FileTree.Directory}
    (hsplit : cgroupDirs fs = before ++ d :: after) (houter : d.Outermost (mentions containerID))
    (hafter : ∀ e ∈ after, ¬ e.Outermost (mentions containerID)) :
    findCgroupPath fs containerID = d.path := by
  have hfind : (cgroupDirs fs).reverse.find? (fun d => d.Outermost (mentions containerID))
      = some d := by
    rw [List.find?_eq_some_iff_append]
    refine ⟨by simpa using houter, after.reverse, before.reverse, by simp [hsplit], fun e he => ?_⟩
    simpa using hafter e (List.mem_reverse.mp he)
  rw [findCgroupPath_eq, hfind]
  rfl

/-- There is a last one if there is any directory with the ID in its path. -/
lemma exists_last_outermost {fs : FileTree} {containerID : String}
    (h : ∃ d ∈ cgroupDirs fs, stringsContains d.path containerID) :
    ∃ before d after, cgroupDirs fs = before ++ d :: after ∧
      d.Outermost (mentions containerID) ∧ ∀ e ∈ after, ¬ e.Outermost (mentions containerID) := by
  obtain ⟨d, hd, hcontains⟩ := h
  obtain ⟨d₀, hd₀, houter₀⟩ := FileTree.exists_outermost (p := mentions containerID)
    (fun _ h => absurd h List.not_mem_nil) baseDir fs ⟨d, hd, decide_eq_true hcontains⟩
  have hsome : ((cgroupDirs fs).reverse.find?
      (fun d => d.Outermost (mentions containerID))).isSome := by
    rw [List.find?_isSome]
    exact ⟨d₀, List.mem_reverse.mpr hd₀, by simpa using houter₀⟩
  obtain ⟨e, hfind⟩ := Option.isSome_iff_exists.mp hsome
  obtain ⟨houter, later, earlier, hsplit, hlater⟩ := List.find?_eq_some_iff_append.mp hfind
  refine ⟨earlier.reverse, e, later.reverse, ?_, by simpa using houter, fun e' he' => ?_⟩
  · rw [← List.reverse_reverse (cgroupDirs fs), hsplit]
    simp
  · simpa using hlater e' (List.mem_reverse.mp he')

/-- The directory of a container has its ID in the path. -/
lemma contains_of_parse {path containerID : String} (h : parseContainerID path = .ok containerID) :
    stringsContains path containerID :=
  Telemetry.infix_of_parseContainerID h

/-- What the walk returns is what the condition asks for. -/
lemma containerLast_of_finds {fs : FileTree} {containerID : String}
    (h : FindsContainer fs containerID) : ContainerLast fs containerID := by
  rintro ⟨d₀, hd₀, hparse₀⟩
  obtain ⟨d', -, hpath, hparse⟩ := h ⟨d₀, hd₀, hparse₀⟩
  obtain ⟨before, d, after, hsplit, houter, hafter⟩ :=
    exists_last_outermost ⟨d₀, hd₀, contains_of_parse hparse₀⟩
  rw [← hpath, findCgroupPath_of_last hsplit houter hafter] at hparse
  refine ⟨before, d, after, hsplit, hparse, (outermost_iff.mp houter).2, fun e he hcontains => ?_⟩
  by_contra hnone
  push Not at hnone
  exact hafter e he (outermost_iff.mpr ⟨hcontains, hnone⟩)

/-- The directory of the condition is the one the walk returns. -/
lemma findsContainer_of_last {fs : FileTree} {containerID : String}
    (h : ContainerLast fs containerID) : FindsContainer fs containerID := by
  intro hexists
  obtain ⟨before, d, after, hsplit, hparse, habove, hlast⟩ := h hexists
  refine ⟨d, by rw [hsplit]; simp, ?_, hparse⟩
  refine findCgroupPath_of_last hsplit
    (outermost_iff.mpr ⟨contains_of_parse hparse, habove⟩) (fun e he houter => ?_)
  obtain ⟨hcontains, hnone⟩ := outermost_iff.mp houter
  obtain ⟨a, ha, hin⟩ := hlast e he hcontains
  exact hnone a ha hin

/-! ## What `sync` stores -/

/-- Every entry that one status makes is that of the inode found for its container. -/
lemma lookup_syncContainer {fs : FileTree} {stat : String → Option UInt64} {workloadKey : String}
    {newMap : Finmap (fun _ : UInt64 => String)} {cs : ContainerStatus} {ino : UInt64}
    {key : String}
    (h : (syncContainer fs stat workloadKey newMap cs).lookup ino = some key) :
    newMap.lookup ino = some key ∨ key = workloadKey ∧
      ∃ cID, containerIDOf cs = some cID ∧ stat (findCgroupPath fs cID) = some ino := by
  rw [syncContainer] at h
  cases hid : containerIDOf cs with
  | none =>
      rw [hid] at h
      exact Or.inl h
  | some cID =>
      rw [hid] at h
      dsimp only at h
      split_ifs at h with hempty
      · exact Or.inl h
      · cases hstat : stat (findCgroupPath fs cID) with
        | none =>
            rw [hstat] at h
            exact Or.inl h
        | some found =>
            rw [hstat] at h
            dsimp only at h
            rcases eq_or_ne ino found with rfl | hne
            · rw [Finmap.lookup_insert, Option.some_inj] at h
              exact Or.inr ⟨h.symm, cID, rfl, hstat⟩
            · rw [Finmap.lookup_insert_of_ne _ hne] at h
              exact Or.inl h

/-- **One pod.** -/
lemma lookup_syncContainers {fs : FileTree} {stat : String → Option UInt64} {workloadKey : String}
    {statuses : List ContainerStatus} {newMap : Finmap (fun _ : UInt64 => String)} {ino : UInt64}
    {key : String}
    (h : (statuses.foldl (syncContainer fs stat workloadKey) newMap).lookup ino = some key) :
    newMap.lookup ino = some key ∨ key = workloadKey ∧ ∃ cs ∈ statuses, ∃ cID,
      containerIDOf cs = some cID ∧ stat (findCgroupPath fs cID) = some ino := by
  induction statuses generalizing newMap with
  | nil => exact Or.inl h
  | cons cs statuses ih =>
      rcases ih h with hold | ⟨hkey, cs', hcs', hrest⟩
      · rcases lookup_syncContainer hold with hold | ⟨hkey, hrest⟩
        · exact Or.inl hold
        · exact Or.inr ⟨hkey, cs, List.mem_cons_self, hrest⟩
      · exact Or.inr ⟨hkey, cs', List.mem_cons_of_mem _ hcs', hrest⟩

/-- **Every entry of the map** is the inode of the path found for a container of a listed pod, with
that pod's key. -/
lemma lookup_sync {fs : FileTree} {stat : String → Option UInt64} {pods : List Pod}
    {r : Resolver} {ino : UInt64} {key : String}
    (h : (sync fs stat (some pods) r).cgroupMap.lookup ino = some key) :
    ∃ pod ∈ pods, key = getWorkloadKey pod ∧ ∃ cs ∈ pod.containerStatuses, ∃ cID,
      containerIDOf cs = some cID ∧ stat (findCgroupPath fs cID) = some ino := by
  have hfold : ∀ (pods : List Pod) (newMap : Finmap (fun _ : UInt64 => String)),
      (pods.foldl (fun newMap pod => pod.containerStatuses.foldl
        (syncContainer fs stat (getWorkloadKey pod)) newMap) newMap).lookup ino = some key →
      newMap.lookup ino = some key ∨ ∃ pod ∈ pods, key = getWorkloadKey pod ∧
        ∃ cs ∈ pod.containerStatuses, ∃ cID,
          containerIDOf cs = some cID ∧ stat (findCgroupPath fs cID) = some ino := by
    intro pods
    induction pods with
    | nil => exact fun newMap h => Or.inl h
    | cons pod pods ih =>
        intro newMap h
        rcases ih _ h with hold | ⟨pod', hpod', hrest⟩
        · exact (lookup_syncContainers hold).imp_right
            (fun hrest => ⟨pod, List.mem_cons_self, hrest⟩)
        · exact Or.inr ⟨pod', List.mem_cons_of_mem _ hpod', hrest⟩
  rcases hfold pods ∅ h with hempty | hpod
  · rw [Finmap.lookup_empty] at hempty
    cases hempty
  · exact hpod

/-- If every container of the listed pods has a directory, and one of the kind the walk returns,
every inode in the map is that of a directory of a container of the pod whose key it has. -/
lemma lookup_sync_own {fs : FileTree} {stat : String → Option UInt64} {pods : List Pod}
    {r : Resolver}
    (hdirs : ∀ pod ∈ pods, ∀ cs ∈ pod.containerStatuses, ∀ cID ∈ containerIDOf cs,
      (∃ d ∈ cgroupDirs fs, parseContainerID d.path = .ok cID) ∧ ContainerLast fs cID)
    {ino : UInt64} {key : String}
    (h : (sync fs stat (some pods) r).cgroupMap.lookup ino = some key) :
    ∃ pod ∈ pods, key = getWorkloadKey pod ∧ ∃ cs ∈ pod.containerStatuses, ∃ cID,
      containerIDOf cs = some cID ∧ ∃ d ∈ cgroupDirs fs,
        parseContainerID d.path = .ok cID ∧ stat d.path = some ino := by
  obtain ⟨pod, hpod, hkey, cs, hcs, cID, hcID, hstat⟩ := lookup_sync h
  obtain ⟨hexists, hlast⟩ := hdirs pod hpod cs hcs cID hcID
  obtain ⟨d, hd, hpath, hparse⟩ := findsContainer_of_last hlast hexists
  rw [hpath] at hstat
  exact ⟨pod, hpod, hkey, cs, hcs, cID, hcID, d, hd, hparse, hstat⟩

/-- **When the two resolvers agree.**  In every tree and for every ID: if some directory is that of
the container, `findCgroupPath` returns one that is, exactly if one of them lies in no directory
with the ID in its path and everything with the ID in its path that the walk meets after it lies in
a directory with the ID in its path.  Where this holds of all the containers that `sync` is listed
and each of them has a directory, every inode it stores is that of a directory of a container of
the pod under whose key it is stored. -/
theorem findCgroupPath_finds_iff (fs : FileTree) :
    (∀ containerID, FindsContainer fs containerID ↔ ContainerLast fs containerID) ∧
      ∀ (stat : String → Option UInt64) (pods : List Pod) (r : Resolver),
        (∀ pod ∈ pods, ∀ cs ∈ pod.containerStatuses, ∀ cID ∈ containerIDOf cs,
          (∃ d ∈ cgroupDirs fs, parseContainerID d.path = .ok cID) ∧ ContainerLast fs cID) →
        ∀ ino key, (sync fs stat (some pods) r).cgroupMap.lookup ino = some key →
          ∃ pod ∈ pods, key = getWorkloadKey pod ∧ ∃ cs ∈ pod.containerStatuses, ∃ cID,
            containerIDOf cs = some cID ∧ ∃ d ∈ cgroupDirs fs,
              parseContainerID d.path = .ok cID ∧ stat d.path = some ino :=
  ⟨fun _ => ⟨containerLast_of_finds, findsContainer_of_last⟩,
    fun _ _ _ hdirs _ _ h => lookup_sync_own hdirs h⟩

/-- A pod of one container, whose scope has a directory of its own inside. -/
theorem findCgroupPath_finds_iff_nested :
    let fs : FileTree := .dir "cgroup"
      [.dir "crio-0f1e.scope" [.dir "container" [.file "cgroup.procs"]]]
    let stat := fun path => if path = "/sys/fs/cgroup/crio-0f1e.scope" then some 7 else none
    let web : Pod := ⟨"default", "web", [], [⟨"nginx", "cri-o://0f1e"⟩]⟩
    FindsContainer fs "0f1e" ∧
      (sync fs stat (some [web]) ⟨∅⟩).cgroupMap.lookup 7 = some "default/Pod/web" ∧
      ∃ d ∈ cgroupDirs fs, parseContainerID d.path = .ok "0f1e" ∧ stat d.path = some 7 := by
  intro fs stat web
  have hdirs : cgroupDirs fs = [⟨"/sys/fs/cgroup", []⟩]
      ++ ⟨"/sys/fs/cgroup/crio-0f1e.scope", ["/sys/fs/cgroup"]⟩
      :: [⟨"/sys/fs/cgroup/crio-0f1e.scope/container",
        ["/sys/fs/cgroup/crio-0f1e.scope", "/sys/fs/cgroup"]⟩] := rfl
  have hparse : parseContainerID "/sys/fs/cgroup/crio-0f1e.scope" = .ok "0f1e" := by
    decide +kernel
  have hexists : ∃ d ∈ cgroupDirs fs, parseContainerID d.path = .ok "0f1e" :=
    ⟨_, hdirs ▸ List.mem_append_right _ List.mem_cons_self, hparse⟩
  have hlast : ContainerLast fs "0f1e" := fun _ =>
    ⟨_, _, _, hdirs, hparse, by decide +kernel, by decide +kernel⟩
  have hlisted : ∀ pod ∈ [web], ∀ cs ∈ pod.containerStatuses, ∀ cID ∈ containerIDOf cs,
      cID = "0f1e" := by decide +kernel
  have hstored : (sync fs stat (some [web]) ⟨∅⟩).cgroupMap.lookup 7 = some "default/Pod/web" := by
    decide +kernel
  obtain ⟨hiff, hsync⟩ := findCgroupPath_finds_iff fs
  obtain ⟨pod, hpod, -, cs, hcs, cID, hcID, hown⟩ := hsync stat [web] ⟨∅⟩
    (fun pod hpod cs hcs cID hcID => by
      rw [hlisted pod hpod cs hcs cID hcID]
      exact ⟨hexists, hlast⟩) 7 _ hstored
  rw [hlisted pod hpod cs hcs cID hcID] at hown
  exact ⟨(hiff "0f1e").mpr hlast, hstored, hown⟩

/-! ## The monitor's cgroup -/

/-- The path of a scope in the slice of the pods. -/
def scopePath (scope : String) : String := baseDir ++ "/" ++ "kubepods.slice" ++ "/" ++ scope

/-- CRI-O's scope of a container and that of its monitor, next to each other. -/
def monitoredScopes (id : String) : FileTree :=
  .dir "cgroup" [.dir "kubepods.slice"
    [.dir ("crio-" ++ id ++ ".scope") [.file "cgroup.procs"],
      .dir ("crio-conmon-" ++ id ++ ".scope") [.file "cgroup.procs"]]]

lemma cgroupDirs_monitoredScopes (id : String) :
    cgroupDirs (monitoredScopes id)
      = [⟨baseDir, []⟩, ⟨baseDir ++ "/" ++ "kubepods.slice", [baseDir]⟩,
          ⟨scopePath ("crio-" ++ id ++ ".scope"), [baseDir ++ "/" ++ "kubepods.slice", baseDir]⟩]
        ++ [⟨scopePath ("crio-conmon-" ++ id ++ ".scope"),
          [baseDir ++ "/" ++ "kubepods.slice", baseDir]⟩] := by
  simp [cgroupDirs, monitoredScopes, FileTree.dirs, FileTree.dirsOfEntries, FileTree.name,
    scopePath]

lemma not_contains_of_length_lt {path id : String} (h : path.length < id.length) :
    ¬ stringsContains path id := by
  intro hin
  have hle := hin.length_le
  rw [String.length_toList, String.length_toList] at hle
  omega

/-- The other resolver reads what stands between `crio-` and `.scope`. -/
lemma parseContainerID_scopePath {id : String} (hslash : '/' ∉ id.toList) :
    parseContainerID (scopePath ("crio-" ++ id ++ ".scope")) = .ok id := by
  refine Telemetry.parseContainerID_crio ?_
  have hcut : (scopePath ("crio-" ++ id ++ ".scope")).toList
      = (baseDir ++ "/" ++ "kubepods.slice").toList
        ++ '/' :: ("crio-".toList ++ id.toList ++ ".scope".toList) := by
    simp [scopePath, String.toList_append]
  rw [hcut, getLast?_splitOn_append_cons]
  simp only [List.mem_append, not_or]
  exact ⟨⟨by decide, hslash⟩, by decide⟩

/-- Whatever the ID, the walk ends with the monitor's scope. -/
lemma findCgroupPath_monitoredScopes {id : String} (hlen : 29 < id.length) :
    findCgroupPath (monitoredScopes id) id = scopePath ("crio-conmon-" ++ id ++ ".scope") := by
  refine findCgroupPath_of_last (cgroupDirs_monitoredScopes id) (outermost_iff.mpr ⟨?_, ?_⟩)
    (fun _ h => absurd h List.not_mem_nil)
  · refine ⟨(scopePath "crio-conmon-").toList, ".scope".toList, ?_⟩
    simp [scopePath, String.toList_append]
  · have hbase : baseDir.length < id.length := lt_of_le_of_lt (by decide) hlen
    have hslice : (baseDir ++ "/" ++ "kubepods.slice").length < id.length :=
      lt_of_le_of_lt (by decide) hlen
    simpa using ⟨not_contains_of_length_lt hslice, not_contains_of_length_lt hbase⟩

/-- **The wrong scope.**  The first of the two scopes is the container's.  `findCgroupPath` returns
the second, in which the other resolver reads another ID. -/
theorem findCgroupPath_takes_conmon :
    let id := "0f1e2d3c4b5a69788796a5b4c3d2e1f00f1e2d3c4b5a69788796a5b4c3d2e1f0"
    let own := "/sys/fs/cgroup/kubepods.slice/crio-" ++ id ++ ".scope"
    let conmon := "/sys/fs/cgroup/kubepods.slice/crio-conmon-" ++ id ++ ".scope"
    let fs : FileTree := .dir "cgroup" [.dir "kubepods.slice"
      [.dir ("crio-" ++ id ++ ".scope") [.file "cgroup.procs"],
        .dir ("crio-conmon-" ++ id ++ ".scope") [.file "cgroup.procs"]]]
    (∃ d ∈ cgroupDirs fs, d.path = own) ∧ parseContainerID own = .ok id ∧
      findCgroupPath fs id = conmon ∧ parseContainerID conmon = .ok ("conmon-" ++ id) ∧
      ¬ FindsContainer fs id := by
  intro id own conmon fs
  have hslash : '/' ∉ id.toList := by decide
  have hscope : scopePath ("crio-" ++ id ++ ".scope") = own := by decide
  have hscope' : scopePath ("crio-" ++ ("conmon-" ++ id) ++ ".scope") = conmon := by decide
  have hown : parseContainerID own = .ok id := hscope ▸ parseContainerID_scopePath hslash
  have hconmon : parseContainerID conmon = .ok ("conmon-" ++ id) :=
    hscope' ▸ parseContainerID_scopePath (by decide)
  have hfound : findCgroupPath fs id = conmon :=
    (findCgroupPath_monitoredScopes (by decide)).trans (by decide)
  have hdir : ∃ d ∈ cgroupDirs fs, d.path = own := by
    refine ⟨⟨own, [baseDir ++ "/" ++ "kubepods.slice", baseDir]⟩, ?_, rfl⟩
    rw [show cgroupDirs fs = _ from cgroupDirs_monitoredScopes id, hscope]
    simp
  refine ⟨hdir, hown, hfound, hconmon, fun hfinds => ?_⟩
  obtain ⟨d, hd, hpath⟩ := hdir
  obtain ⟨d', -, hpath', hparse⟩ := hfinds ⟨d, hd, by rw [hpath, hown]⟩
  rw [← hpath', hfound, hconmon] at hparse
  exact absurd (Except.ok.inj hparse) (by decide)

end Akil.Cgroup
