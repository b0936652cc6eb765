import Akil.Construction.Scoring.Plugin
import Akil.Properties.NodeAttribution
import Akil.Properties.Score

/-!
# What a score depends on

A score is computed from two answers of the aggregator, and most of what they contain must not
matter: workloads elsewhere, DaemonSets, the candidate's own replicas, and the order in which the
store's `Range` came by.  The scorer does not see the order (`Scorer.score_perm`), and the
plugin's filter works on the key that `profileToProto` and `fromProto` hand through unchanged, so
it may be moved in front of both (`colocated_profileToProto`).  `score_eq` puts the two together:
the plugin's score is the scorer's, of the candidate's profile and of the neighbours among the
node's profiles.

`score_noninterference` is the two-run statement, first on the answers (`score_eq_of_answers`) and
then drawn down to the stores (`score_eq_of_neighbours`): if two stores hold the same profile for
the candidate and the same profile for every neighbour that either locates on the node, no choice
of `Range` orders lets the scores differ.
-/

namespace Akil

/-! ## The plugin -/

/-- Over the wire and back, a profile keeps everything but its window bounds. -/
lemma fromProto_profileToProto (p : RuntimeProfile) :
    fromProto (profileToProto p) = p.measures := by
  obtain ⟨key, pf, cm, lc, cs, n, ws, we, conf⟩ := p
  cases conf <;> rfl

/-- A workload key is never empty. -/
lemma getWorkloadKey_ne_empty (pod : Pod) : Scoring.getWorkloadKey pod ≠ "" := by
  intro h
  have hslash : '/' ∈ (Scoring.getWorkloadKey pod).toList := by
    unfold Scoring.getWorkloadKey
    cases pod.ownerReferences <;> simp [workloadKeyOf, String.toList_append]
  rw [h] at hslash
  cases hslash

namespace AkilScorePlugin

/-- The neighbours of a workload among the profiles of a node. -/
def neighbours (workloadKey : String) (profiles : List RuntimeProfile) : List RuntimeProfile :=
  profiles.filter (fun p => Neighbour workloadKey p.workloadKey)

/-- The plugin's filter may be moved in front of the conversions. -/
lemma colocated_profileToProto (workloadKey : String) (profiles : List RuntimeProfile) :
    colocated workloadKey (profiles.map profileToProto)
      = (neighbours workloadKey profiles).map RuntimeProfile.measures := by
  have hfilter : (profiles.map profileToProto).filter
        (fun np => Neighbour workloadKey np.workloadKey)
      = (neighbours workloadKey profiles).map profileToProto := by
    rw [List.filter_map]
    rfl
  rw [colocated, hfilter, List.map_map]
  exact List.map_congr_left (fun p _ => fromProto_profileToProto p)

/-- The profile of the candidate that the first call is answered with. -/
def candidateProfile (pod : Pod) (q : ScoreQueries) (s : Store) : RuntimeProfile :=
  (s.queryProfile (Scoring.getWorkloadKey pod) q.candidateTime).1

/-- The profiles of the node that the second call, made after the first, is answered with. -/
def nodeProfiles (pod : Pod) (nodeName : String) (q : ScoreQueries) (s : Store) :
    List RuntimeProfile :=
  ((s.queryProfile (Scoring.getWorkloadKey pod) q.candidateTime).2.queryNodeProfiles nodeName
    q.visits).1

/-- **The score through all layers.**  It is neutral if a call fails, and otherwise the scorer's
for the candidate's profile and its neighbours'. -/
lemma score_eq (plugin : AkilScorePlugin) (pod : Pod) (nodeName : String) (q : ScoreQueries)
    (s : Store) :
    plugin.score pod nodeName q s
      = if (q.candidateFails ∨ q.nodeFails) ∨ nodeName = "" then neutralScore
        else (plugin.scorer.score (candidateProfile pod q s).measures
          ((neighbours (Scoring.getWorkloadKey pod) (nodeProfiles pod nodeName q s)).map
            RuntimeProfile.measures)).score := by
  have hcand : AggregatorService.queryProfile (Scoring.getWorkloadKey pod) q.candidateTime s
      = (.ok (profileToProto (candidateProfile pod q s)),
        (s.queryProfile (Scoring.getWorkloadKey pod) q.candidateTime).2) := by
    rw [AggregatorService.queryProfile, if_neg (getWorkloadKey_ne_empty pod)]
    rfl
  unfold score
  simp only [hcand]
  by_cases hc : q.candidateFails
  · simp [hc]
  · by_cases hname : nodeName = ""
    · simp [hc, hname, AggregatorService.queryNodeProfiles]
    · by_cases hn : q.nodeFails
      · simp [hc, hn, hname, AggregatorService.queryNodeProfiles]
      · simp [hc, hn, hname, AggregatorService.queryNodeProfiles, nodeProfiles,
          colocated_profileToProto, fromProto_profileToProto]

end AkilScorePlugin

open AkilScorePlugin in
/-- Two runs of `Score` whose calls go through or fail alike and whose aggregators answer, as far as
the neighbours go and up to order, with the same. -/
lemma score_eq_of_answers (plugin : AkilScorePlugin) {pod : Pod} {nodeName : String}
    {q₁ q₂ : ScoreQueries} {s₁ s₂ : Store}
    (hfail : (q₁.candidateFails ∨ q₁.nodeFails) ↔ (q₂.candidateFails ∨ q₂.nodeFails))
    (hcand : candidateProfile pod q₁ s₁ = candidateProfile pod q₂ s₂)
    (hnode : (neighbours (Scoring.getWorkloadKey pod) (nodeProfiles pod nodeName q₁ s₁)).Perm
      (neighbours (Scoring.getWorkloadKey pod) (nodeProfiles pod nodeName q₂ s₂))) :
    plugin.score pod nodeName q₁ s₁ = plugin.score pod nodeName q₂ s₂ := by
  simp only [score_eq, hcand, hfail,
    plugin.scorer.score_perm _ (hnode.map RuntimeProfile.measures)]

lemma score_eq_fifty (plugin : AkilScorePlugin) (pod : Pod) {nodeName : String} {q : ScoreQueries}
    (h : (q.candidateFails ∨ q.nodeFails) ∨ nodeName = "") (s : Store) :
    plugin.score pod nodeName q s = 50 := by
  rw [AkilScorePlugin.score_eq, if_pos h]
  rfl

lemma score_mem (plugin : AkilScorePlugin) (pod : Pod) (nodeName : String) (q : ScoreQueries)
    (s : Store) : 0 ≤ plugin.score pod nodeName q s ∧ plugin.score pod nodeName q s ≤ 100 := by
  rw [AkilScorePlugin.score_eq]
  split_ifs
  · exact ⟨by decide, by decide⟩
  · exact plugin.scorer.score_mem _ _

/-! ## From the answers to the stores -/

namespace Store

/-- The store locates the workload on the node. -/
def Locates (s : Store) (nodeName key : String) : Prop :=
  ∃ wp, s.get key = some wp ∧ nodeName ∈ wp.nodeLocations

instance (s : Store) (nodeName key : String) : Decidable (s.Locates nodeName key) :=
  inferInstanceAs (Decidable (∃ wp ∈ s.get key, nodeName ∈ wp.nodeLocations))

/-- Profiles are stored under their own keys. -/
def WellKeyed (s : Store) : Prop := ∀ key wp, s.get key = some wp → wp.workloadKey = key

lemma get_queryProfile_of_ne (s : Store) {key key' : String} (h : key' ≠ key) (t : ℤ) :
    (s.queryProfile key t).2.get key' = s.get key' := by
  rw [queryProfile_eq]
  exact s.get_exec_of_ne t (c := .onProfile key .computeProfile) (Ne.symm h)

lemma WellKeyed.queryProfile {s : Store} (hs : s.WellKeyed) (key : String) (t : ℤ) :
    (s.queryProfile key t).2.WellKeyed := by
  intro key' wp hget
  by_cases hne : key' = key
  · subst hne
    rw [queryProfile_eq, get_onProfile_self] at hget
    obtain ⟨old, hold, rfl⟩ := Option.map_eq_some_iff.mp hget
    rw [← hs key' old hold]
    exact congrArg Prod.fst (old.params_maybeRotate t)
  · rw [s.get_queryProfile_of_ne hne] at hget
    exact hs key' wp hget

/-- What a visit returns, if it returns anything, is the profile of the visited key. -/
lemma visitNode_fst_eq_some {s : Store} (hs : s.WellKeyed) {nodeName key : String} {t : ℤ}
    {p : RuntimeProfile} (h : (s.visitNode nodeName key t).1 = some p) :
    p.workloadKey = key ∧ s.Locates nodeName key := by
  unfold visitNode at h
  cases hget : s.get key with
  | none => simp [hget] at h
  | some wp =>
      simp only [hget] at h
      split_ifs at h with hnode
      obtain rfl := Option.some_inj.mp h
      have hkey : (wp.maybeRotate t).workloadKey = wp.workloadKey :=
        congrArg Prod.fst (wp.params_maybeRotate t)
      exact ⟨hkey.trans (hs key wp hget), wp, hget, hnode⟩

lemma visitNode_fst_eq_none {s : Store} (hs : s.WellKeyed) {nodeName key : String}
    (h : ¬ s.Locates nodeName key) (t : ℤ) : (s.visitNode nodeName key t).1 = none := by
  by_contra hsome
  obtain ⟨p, hp⟩ := Option.ne_none_iff_exists'.mp hsome
  exact h (visitNode_fst_eq_some hs hp).2

lemma Locates.mem {s : Store} {nodeName key : String} (h : s.Locates nodeName key) :
    key ∈ s.profiles := by
  obtain ⟨wp, hget, -⟩ := h
  exact Finmap.mem_of_lookup_eq_some hget

/-- Every reachable store is well keyed. -/
lemma wellKeyed_run {n : ℕ} (hn : 1 ≤ n) {d : ℤ} (hd : 0 < d) (calls : List (ℤ × StoreCall)) :
    ((newStore n d).run calls).WellKeyed := by
  intro key wp hget
  rw [store_get_eq key hn hd] at hget
  obtain ⟨h, -, rfl⟩ := Option.map_eq_some_iff.mp hget
  exact congrArg Prod.fst ((newWorkloadProfile key n d h.1).params_run h.2)

end Store

namespace AkilScorePlugin

/-- One `Score` at the reading `t`, with the keys visited in the order `order`. -/
def queriesAt (t : ℤ) (order : List String) : ScoreQueries :=
  ⟨t, false, order.map (fun key => (key, t)), false⟩

/-- The visit of a key, as far as the plugin looks at it. -/
def visitNeighbour (s : Store) (pod : Pod) (nodeName : String) (t : ℤ) (key : String) :
    Option RuntimeProfile :=
  if Neighbour (Scoring.getWorkloadKey pod) key then (s.visitNode nodeName key t).1 else none

/-- The neighbours the plugin sees are those its visits return. -/
lemma neighbours_nodeProfiles {s : Store} (hs : s.WellKeyed) (pod : Pod) (nodeName : String)
    (t : ℤ) {order : List String} (hnodup : order.Nodup) :
    neighbours (Scoring.getWorkloadKey pod) (nodeProfiles pod nodeName (queriesAt t order) s)
      = order.filterMap (visitNeighbour s pod nodeName t) := by
  have hfst : ((queriesAt t order).visits.map Prod.fst).Nodup := by
    simpa [queriesAt, Function.comp_def] using hnodup
  have hs' := hs.queryProfile (Scoring.getWorkloadKey pod) t
  rw [neighbours, nodeProfiles, Store.queryNodeProfiles_fst nodeName _ hfst, queriesAt,
    List.filterMap_map, List.filter_filterMap]
  refine List.filterMap_congr (fun key _ => ?_)
  by_cases hkey : Neighbour (Scoring.getWorkloadKey pod) key
  · -- the candidate's query has not touched this profile
    have hvisit := Store.visitNode_fst_congr (s.get_queryProfile_of_ne hkey.1 t) nodeName t
    simp only [Function.comp_apply, hvisit, visitNeighbour, hkey, if_true]
    cases hp : (s.visitNode nodeName key t).1 with
    | none => rfl
    | some p => simp [(Store.visitNode_fst_eq_some hs hp).1, hkey]
  · simp only [Function.comp_apply, visitNeighbour, hkey, if_false]
    cases hp : ((s.queryProfile (Scoring.getWorkloadKey pod) t).2.visitNode nodeName key t).1 with
    | none => rfl
    | some p => simp [(Store.visitNode_fst_eq_some hs' hp).1, hkey]

/-- A visit that returns a neighbour found it located on the node. -/
lemma locates_of_visitNeighbour {s : Store} (hs : s.WellKeyed) {pod : Pod} {nodeName : String}
    {t : ℤ} {key : String} (h : (visitNeighbour s pod nodeName t key).isSome) :
    s.Locates nodeName key := by
  unfold visitNeighbour at h
  split_ifs at h
  · obtain ⟨p, hp⟩ := Option.isSome_iff_exists.mp h
    exact (Store.visitNode_fst_eq_some hs hp).2
  · cases h

/-- Stores that agree on the neighbours either of them locates on the node return the same
neighbours. -/
lemma visitNeighbour_eq {s₁ s₂ : Store} (hs₁ : s₁.WellKeyed) (hs₂ : s₂.WellKeyed) {pod : Pod}
    {nodeName : String}
    (hsame : ∀ key, Neighbour (Scoring.getWorkloadKey pod) key →
      s₁.Locates nodeName key ∨ s₂.Locates nodeName key → s₁.get key = s₂.get key)
    (t : ℤ) : visitNeighbour s₁ pod nodeName t = visitNeighbour s₂ pod nodeName t := by
  funext key
  by_cases hkey : Neighbour (Scoring.getWorkloadKey pod) key
  · rw [visitNeighbour, visitNeighbour, if_pos hkey, if_pos hkey]
    by_cases hloc : s₁.Locates nodeName key ∨ s₂.Locates nodeName key
    · exact Store.visitNode_fst_congr (hsame key hkey hloc) nodeName t
    · obtain ⟨hloc₁, hloc₂⟩ := not_or.mp hloc
      rw [Store.visitNode_fst_eq_none hs₁ hloc₁, Store.visitNode_fst_eq_none hs₂ hloc₂]
  · rw [visitNeighbour, visitNeighbour, if_neg hkey, if_neg hkey]

end AkilScorePlugin

/-- Two lists without repetition that share the elements on which `f` is defined have the same
values of `f`, up to order. -/
lemma filterMap_perm_of_nodup {α β : Type*} {f : α → Option β} {l l' : List α} (hl : l.Nodup)
    (hl' : l'.Nodup) (h : ∀ a, (f a).isSome → (a ∈ l ↔ a ∈ l')) :
    (l.filterMap f).Perm (l'.filterMap f) := by
  have hsplit : ∀ l : List α, l.filterMap f = (l.filter (fun a => (f a).isSome)).filterMap f := by
    intro l
    rw [List.filterMap_filter]
    refine List.filterMap_congr (fun a _ => ?_)
    cases hf : f a <;> simp
  rw [hsplit l, hsplit l']
  refine List.Perm.filterMap _ ((List.perm_ext_iff_of_nodup (hl.filter _) (hl'.filter _)).mpr
    (fun a => ?_))
  rw [List.mem_filter, List.mem_filter]
  exact and_congr_left (fun ha => h a ha)

open AkilScorePlugin in
/-- Two reachable stores that hold the same profile of the candidate, and the same profile of every
neighbour that one of them locates on the node. -/
lemma score_eq_of_neighbours (plugin : AkilScorePlugin) (pod : Pod) (nodeName : String)
    {n : ℕ} (hn : 1 ≤ n) {d : ℤ} (hd : 0 < d) (calls₁ calls₂ : List (ℤ × StoreCall)) (t : ℤ)
    (order₁ order₂ : List String)
    (hrange₁ : ((newStore n d).run calls₁).IsRange (order₁.map (fun key => (key, t))))
    (hrange₂ : ((newStore n d).run calls₂).IsRange (order₂.map (fun key => (key, t))))
    (hcand : ((newStore n d).run calls₁).get (Scoring.getWorkloadKey pod)
      = ((newStore n d).run calls₂).get (Scoring.getWorkloadKey pod))
    (hsame : ∀ key, Neighbour (Scoring.getWorkloadKey pod) key →
      ((newStore n d).run calls₁).Locates nodeName key ∨
        ((newStore n d).run calls₂).Locates nodeName key →
      ((newStore n d).run calls₁).get key = ((newStore n d).run calls₂).get key) :
    plugin.score pod nodeName (queriesAt t order₁) ((newStore n d).run calls₁)
      = plugin.score pod nodeName (queriesAt t order₂) ((newStore n d).run calls₂) := by
  have hs₁ := Store.wellKeyed_run hn hd calls₁
  have hs₂ := Store.wellKeyed_run hn hd calls₂
  generalize (newStore n d).run calls₁ = s₁ at *
  generalize (newStore n d).run calls₂ = s₂ at *
  have hkeys : ∀ order : List String, (order.map (fun key => (key, t))).map Prod.fst = order := by
    intro order
    simp [Function.comp_def]
  rw [Store.IsRange, hkeys] at hrange₁ hrange₂
  have hvisit := visitNeighbour_eq hs₁ hs₂ hsame t
  have hperm : (neighbours (Scoring.getWorkloadKey pod)
        (nodeProfiles pod nodeName (queriesAt t order₁) s₁)).Perm
      (neighbours (Scoring.getWorkloadKey pod)
        (nodeProfiles pod nodeName (queriesAt t order₂) s₂)) := by
    rw [neighbours_nodeProfiles hs₁ pod nodeName t hrange₁.1,
      neighbours_nodeProfiles hs₂ pod nodeName t hrange₂.1, ← hvisit]
    refine filterMap_perm_of_nodup hrange₁.1 hrange₂.1 (fun key hsome => ?_)
    have hmem₁ := (locates_of_visitNeighbour hs₁ hsome).mem
    have hmem₂ := (locates_of_visitNeighbour hs₂ (hvisit ▸ hsome)).mem
    exact iff_of_true ((hrange₁.2 key).mpr hmem₁) ((hrange₂.2 key).mpr hmem₂)
  have hprofile : candidateProfile pod (queriesAt t order₁) s₁
      = candidateProfile pod (queriesAt t order₂) s₂ := by
    simp only [candidateProfile, Store.queryProfile, queriesAt, hcand]
    cases s₂.get (Scoring.getWorkloadKey pod) <;> rfl
  exact score_eq_of_answers plugin Iff.rfl hprofile hperm

open AkilScorePlugin in
/-- **Score noninterference.**  For every pod and node and two runs of `Score` whose calls go
through or fail alike: if the two aggregators answer with the same profile of the candidate and,
in any order, with the same profiles of the candidate's neighbours on the node, the two scores are
equal.  So they are, at any reading and whatever the order of each `Range`, if the two stores hold
the same profile of the candidate and of every neighbour that one of them locates on the node,
whatever else they hold.  If a call fails or the node has no name the score is 50, and it always
lies between 0 and 100. -/
theorem score_noninterference (plugin : AkilScorePlugin) (pod : Pod) (nodeName : String) :
    (∀ (q₁ q₂ : ScoreQueries) (s₁ s₂ : Store),
      ((q₁.candidateFails ∨ q₁.nodeFails) ↔ (q₂.candidateFails ∨ q₂.nodeFails)) →
      candidateProfile pod q₁ s₁ = candidateProfile pod q₂ s₂ →
      (neighbours (Scoring.getWorkloadKey pod) (nodeProfiles pod nodeName q₁ s₁)).Perm
        (neighbours (Scoring.getWorkloadKey pod) (nodeProfiles pod nodeName q₂ s₂)) →
      plugin.score pod nodeName q₁ s₁ = plugin.score pod nodeName q₂ s₂) ∧
    (∀ (n : ℕ) (d : ℤ) (calls₁ calls₂ : List (ℤ × StoreCall)) (t : ℤ)
        (order₁ order₂ : List String), 1 ≤ n → 0 < d →
      let s₁ := (newStore n d).run calls₁
      let s₂ := (newStore n d).run calls₂
      s₁.IsRange (order₁.map (fun key => (key, t))) →
      s₂.IsRange (order₂.map (fun key => (key, t))) →
      s₁.get (Scoring.getWorkloadKey pod) = s₂.get (Scoring.getWorkloadKey pod) →
      (∀ key, Neighbour (Scoring.getWorkloadKey pod) key →
        s₁.Locates nodeName key ∨ s₂.Locates nodeName key → s₁.get key = s₂.get key) →
      plugin.score pod nodeName (queriesAt t order₁) s₁
        = plugin.score pod nodeName (queriesAt t order₂) s₂) ∧
    ∀ (q : ScoreQueries) (s : Store),
      ((q.candidateFails ∨ q.nodeFails) ∨ nodeName = "" → plugin.score pod nodeName q s = 50) ∧
        0 ≤ plugin.score pod nodeName q s ∧ plugin.score pod nodeName q s ≤ 100 :=
  ⟨fun _ _ _ _ hfail hcand hnode => score_eq_of_answers plugin hfail hcand hnode,
    fun _ _ calls₁ calls₂ t order₁ order₂ hn hd => score_eq_of_neighbours plugin pod nodeName hn hd
      calls₁ calls₂ t order₁ order₂,
    fun q s => ⟨fun hneutral => score_eq_fifty plugin pod hneutral s,
      score_mem plugin pod nodeName q s⟩⟩

/-- The pod of the run below. -/
def webPod : Pod := ⟨"default", "web-0", [⟨"StatefulSet", "web"⟩], []⟩

/-- Two aggregators that both know the pod's workload, from a replica on the node: the second also
holds a DaemonSet on the node and a workload elsewhere, and its `Range` comes by in another
order. -/
theorem score_noninterference_two_stores :
    let shared : List (ℤ × StoreCall) :=
      [(0, .getOrCreate "default/Deployment/cache"),
        (0, .onProfile "default/Deployment/cache" (.record (.cacheMiss 500000) "node-1")),
        (0, .getOrCreate "default/StatefulSet/web"),
        (0, .onProfile "default/StatefulSet/web" (.record (.bulk 100 400000 200 0) "node-1")),
        (0, .getOrCreate "default/Deployment/db"),
        (0, .onProfile "default/Deployment/db" (.record .pageFault "node-1"))]
    let extra : List (ℤ × StoreCall) :=
      [(0, .getOrCreate "kube-system/DaemonSet/akil-collector"),
        (0, .onProfile "kube-system/DaemonSet/akil-collector" (.record .ctxSwitch "node-1")),
        (0, .getOrCreate "default/Deployment/batch"),
        (0, .onProfile "default/Deployment/batch" (.record .pageFault "node-2"))]
    let s₁ := (newStore (1 : ℕ) 1000000000).run shared
    let s₂ := (newStore (1 : ℕ) 1000000000).run (shared ++ extra)
    let q₁ := AkilScorePlugin.queriesAt 5
      ["default/Deployment/cache", "default/StatefulSet/web", "default/Deployment/db"]
    let q₂ := AkilScorePlugin.queriesAt 5
      ["kube-system/DaemonSet/akil-collector", "default/Deployment/db", "default/StatefulSet/web",
        "default/Deployment/batch", "default/Deployment/cache"]
    AkilScorePlugin.new.score webPod "node-1" q₁ s₁
        = AkilScorePlugin.new.score webPod "node-1" q₂ s₂ ∧
      AkilScorePlugin.new.score webPod "node-1" q₁ s₁ = 81 ∧
      AkilScorePlugin.new.score webPod "node-1" { q₁ with nodeFails := true } s₁ = 50 := by
  intro shared extra s₁ s₂ q₁ q₂
  obtain ⟨-, hstores, hneutral⟩ := score_noninterference AkilScorePlugin.new webPod "node-1"
  have hrange₁ : s₁.profiles.keys = {"default/Deployment/cache", "default/StatefulSet/web",
      "default/Deployment/db"} := by decide +kernel
  have hrange₂ : s₂.profiles.keys = {"kube-system/DaemonSet/akil-collector",
      "default/Deployment/db", "default/StatefulSet/web", "default/Deployment/batch",
      "default/Deployment/cache"} := by decide +kernel
  have hsame : ∀ key ∈ s₁.profiles.keys ∪ s₂.profiles.keys,
      s₁.Locates "node-1" key ∨ s₂.Locates "node-1" key →
      AkilScorePlugin.Neighbour (Scoring.getWorkloadKey webPod) key → s₁.get key = s₂.get key := by
    decide +kernel
  refine ⟨hstores 1 1000000000 shared (shared ++ extra) 5 _ _ (by decide) (by decide)
    ⟨by decide, fun key => ?_⟩ ⟨by decide, fun key => ?_⟩ (by decide +kernel)
    (fun key hkey hloc => hsame key ?_ hloc hkey), by decide +kernel, (hneutral _ s₁).1 (by decide)⟩
  · rw [← Finmap.mem_keys, hrange₁]
    simp
  · rw [← Finmap.mem_keys, hrange₂]
    simp
  · rw [Finset.mem_union, Finmap.mem_keys, Finmap.mem_keys]
    exact hloc.imp Store.Locates.mem Store.Locates.mem

end Akil
