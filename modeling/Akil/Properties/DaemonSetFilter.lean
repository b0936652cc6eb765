import Akil.Construction.Scoring.Plugin
import Akil.Properties.WorkloadKey

/-!
# Workload keys read back

A workload key is a namespace, a kind and a name with slashes between them.  Kubernetes allows no
slash in any of the three, so the key determines them (`workloadKeyOf_inj_iff`), and the plugin
may tell a DaemonSet by looking for `/DaemonSet/` in the key: the text can only stand where the
kind stands, whatever the namespace and the names look like (`contains_daemonSet_iff`).
-/

namespace Akil

/-- The kind and the name of the workload a pod belongs to: those of its first owner, or its own. -/
def Pod.owner (pod : Pod) : OwnerReference :=
  match pod.ownerReferences with
  | ref :: _ => ref
  | [] => ⟨"Pod", pod.name⟩

/-- No slash in the names Kubernetes gives: the namespace, the name, and kind and name of the first
owner. -/
structure Pod.SlashFree (pod : Pod) : Prop where
  «namespace» : '/' ∉ pod.namespace.toList
  name : '/' ∉ pod.name.toList
  ownerKind : ∀ ref ∈ pod.ownerReferences.head?, '/' ∉ ref.kind.toList
  ownerName : ∀ ref ∈ pod.ownerReferences.head?, '/' ∉ ref.name.toList

lemma OwnerReference.eq_iff {ref ref' : OwnerReference} :
    ref = ref' ↔ ref.kind = ref'.kind ∧ ref.name = ref'.name := by
  cases ref
  cases ref'
  simp

lemma getWorkloadKey_eq (pod : Pod) :
    Scoring.getWorkloadKey pod = workloadKeyOf pod.namespace pod.owner.kind pod.owner.name := by
  rw [Scoring.getWorkloadKey, Pod.owner]
  cases pod.ownerReferences <;> rfl

/-- Then the parts of its key have none. -/
lemma Pod.SlashFree.owner {pod : Pod} (h : pod.SlashFree) :
    '/' ∉ pod.owner.kind.toList ∧ '/' ∉ pod.owner.name.toList := by
  rw [Pod.owner]
  cases hrefs : pod.ownerReferences with
  | nil => exact ⟨(by decide : '/' ∉ "Pod".toList), h.name⟩
  | cons ref refs =>
      have hhead : ref ∈ pod.ownerReferences.head? := by rw [hrefs]; rfl
      exact ⟨h.ownerKind ref hhead, h.ownerName ref hhead⟩

/-! ## The text of a key -/

lemma toList_workloadKeyOf (ns kind name : String) :
    (workloadKeyOf ns kind name).toList
      = ns.toList ++ '/' :: (kind.toList ++ '/' :: name.toList) := by
  simp [workloadKeyOf, String.toList_append]

/-- A key determines its parts. -/
lemma workloadKeyOf_inj_iff {ns kind name ns' kind' name' : String} (hns : '/' ∉ ns.toList)
    (hkind : '/' ∉ kind.toList) (hname : '/' ∉ name.toList) (hns' : '/' ∉ ns'.toList)
    (hkind' : '/' ∉ kind'.toList) (hname' : '/' ∉ name'.toList) :
    workloadKeyOf ns kind name = workloadKeyOf ns' kind' name'
      ↔ ns = ns' ∧ kind = kind' ∧ name = name' := by
  rw [← String.toList_inj, toList_workloadKeyOf, toList_workloadKeyOf,
    three_parts_inj hns hkind hname hns' hkind' hname', String.toList_inj, String.toList_inj,
    String.toList_inj]

/-- `/DaemonSet/` is found where the kind is `DaemonSet`, and nowhere else. -/
lemma contains_daemonSet_iff {ns kind name : String} (hns : '/' ∉ ns.toList)
    (hkind : '/' ∉ kind.toList) (hname : '/' ∉ name.toList) :
    stringsContains (workloadKeyOf ns kind name) "/DaemonSet/" ↔ kind = "DaemonSet" := by
  have hword : "/DaemonSet/".toList = '/' :: ("DaemonSet".toList ++ ['/']) := by decide
  rw [stringsContains, toList_workloadKeyOf, hword,
    separated_infix_iff (by decide) hns hkind hname, String.toList_inj, eq_comm]

/-- **Keys and the DaemonSet filter.**  For all pods without slashes in their names: two have the
same key, with the plugin and with the collector, exactly if they are of one namespace and belong
to one workload; the key contains `/DaemonSet/` exactly if the workload's kind is `DaemonSet`; and
so the loop of `Score` leaves out the candidate's own replicas and the DaemonSets, and no others. -/
theorem workloadKey_unambiguous (pod pod' : Pod) (h : pod.SlashFree) (h' : pod'.SlashFree) :
    (Scoring.getWorkloadKey pod = Scoring.getWorkloadKey pod' ↔
        pod.namespace = pod'.namespace ∧ pod.owner = pod'.owner) ∧
      (Cgroup.getWorkloadKey pod = Cgroup.getWorkloadKey pod' ↔
        pod.namespace = pod'.namespace ∧ pod.owner = pod'.owner) ∧
      (stringsContains (Scoring.getWorkloadKey pod) "/DaemonSet/" ↔
        pod.owner.kind = "DaemonSet") ∧
      (stringsContains (Cgroup.getWorkloadKey pod) "/DaemonSet/" ↔
        pod.owner.kind = "DaemonSet") ∧
      (AkilScorePlugin.Neighbour (Scoring.getWorkloadKey pod) (Cgroup.getWorkloadKey pod') ↔
        ¬ (pod.namespace = pod'.namespace ∧ pod.owner = pod'.owner) ∧
          pod'.owner.kind ≠ "DaemonSet") := by
  have hsame : ∀ q q' : Pod, q.SlashFree → q'.SlashFree →
      (Scoring.getWorkloadKey q = Scoring.getWorkloadKey q' ↔
        q.namespace = q'.namespace ∧ q.owner = q'.owner) := by
    intro q q' hq hq'
    rw [getWorkloadKey_eq, getWorkloadKey_eq, workloadKeyOf_inj_iff hq.namespace hq.owner.1
      hq.owner.2 hq'.namespace hq'.owner.1 hq'.owner.2, OwnerReference.eq_iff]
  have hdaemon : ∀ q : Pod, q.SlashFree →
      (stringsContains (Scoring.getWorkloadKey q) "/DaemonSet/" ↔ q.owner.kind = "DaemonSet") := by
    intro q hq
    rw [getWorkloadKey_eq]
    exact contains_daemonSet_iff hq.namespace hq.owner.1 hq.owner.2
  simp only [← scoring_eq_cgroup]
  refine ⟨hsame pod pod' h h', hsame pod pod' h h', hdaemon pod h, hdaemon pod h, ?_⟩
  rw [AkilScorePlugin.Neighbour, ne_eq, eq_comm, hsame pod pod' h h', hdaemon pod' h']

/-- A Deployment named `DaemonSet` in a namespace of that name is not taken for a DaemonSet, and a
DaemonSet beside it is. -/
theorem workloadKey_unambiguous_names :
    let pod : Pod := ⟨"DaemonSet", "DaemonSet-1", [⟨"Deployment", "DaemonSet"⟩], []⟩
    let pod' : Pod := ⟨"DaemonSet", "web-1", [⟨"DaemonSet", "web"⟩], []⟩
    ¬ stringsContains (Scoring.getWorkloadKey pod) "/DaemonSet/" ∧
      stringsContains (Scoring.getWorkloadKey pod') "/DaemonSet/" ∧
      Scoring.getWorkloadKey pod ≠ Scoring.getWorkloadKey pod' := by
  intro pod pod'
  have h : pod.SlashFree := ⟨by decide, by decide, by simp [pod], by simp [pod]⟩
  have h' : pod'.SlashFree := ⟨by decide, by decide, by simp [pod'], by simp [pod']⟩
  obtain ⟨hsame, -, hdaemon, -⟩ := workloadKey_unambiguous pod pod' h h'
  obtain ⟨-, -, hdaemon', -⟩ := workloadKey_unambiguous pod' pod h' h
  exact ⟨fun hc => absurd (hdaemon.mp hc) (by decide), hdaemon'.mpr rfl,
    fun hkey => absurd (hsame.mp hkey).2 (by decide)⟩

end Akil
