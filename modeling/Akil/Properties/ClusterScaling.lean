import Akil.Construction.Aggregator.ClusterScaling
import Akil.Framework.Linearization
import Akil.Framework.RelyGuarantee
import Akil.Properties.ScalingRule

/-!
# Scaling in a cluster

Without a cluster the autoscaler can overwrite a request it has never seen
(`Properties/ScaleRequests.lean`).  In a cluster it cannot.  Both the autoscaler and `POST
/api/scale` hand a `Scale` back with the resource version it was read with, and the API server
refuses an update of an old version: `DeploymentApi.Lawful` states what is documented of it, for
writes of the aggregator and of anybody else.  An update that is accepted therefore finds the very
`Scale` it was made from (`Lawful.unchanged`), however much time and however many other steps have
passed since.

`cluster_scale_requests_kept` concludes that every count the autoscaler writes is `decide`'s for the
count in force at the write, made of workloads that had been marked as simulated, and that an
acknowledged request is in force when it is acknowledged.  `cluster_autoscaler_gated` is about what
keeps the autoscaler's hands off: while autoscaling is off, or no workload is marked, or the
deployment does not opt in, it writes nothing, whatever the other two say.
-/

namespace Akil

variable {K V : Type*}

/-! ## What is documented of the API server -/

/-- `Writes` is a write to the cluster by anybody.  An update that is accepted is one, had the
version that is stored, and leaves the count it asks for; and a version names one `Scale` for
ever. -/
structure DeploymentApi.Lawful (api : DeploymentApi K V) (Writes : K → K → Prop) : Prop where
  update_writes : ∀ scale k k', api.updateScale scale k = some k' → Writes k k'
  update_conflicts : ∀ scale k k', api.updateScale scale k = some k' →
    ∃ stored, api.getScale k = some stored ∧ stored.resourceVersion = scale.resourceVersion
  update_takes : ∀ scale k k', api.updateScale scale k = some k' →
    ∃ stored, api.getScale k' = some stored ∧ stored.replicas = scale.replicas
  version_names : ∀ k k' scale scale', Relation.ReflTransGen Writes k k' →
    api.getScale k = some scale → api.getScale k' = some scale' →
    scale.resourceVersion = scale'.resourceVersion → scale = scale'

namespace DeploymentApi

variable {api : DeploymentApi K V} {Writes : K → K → Prop}

/-- A `Scale` that was stored at some time before. -/
def Seen (api : DeploymentApi K V) (Writes : K → K → Prop) (k : K) (scale : Scale V) : Prop :=
  ∃ k₀, Relation.ReflTransGen Writes k₀ k ∧ api.getScale k₀ = some scale

lemma Seen.mono {k k' : K} {scale : Scale V} (h : api.Seen Writes k scale)
    (hwrites : Relation.ReflTransGen Writes k k') : api.Seen Writes k' scale := by
  obtain ⟨k₀, hbefore, hget⟩ := h
  exact ⟨k₀, hbefore.trans hwrites, hget⟩

/-- **Optimistic concurrency.**  An update that is accepted finds the `Scale` it was made from. -/
lemma Lawful.unchanged (law : api.Lawful Writes) {k k' : K} {scale : Scale V} {n : Int32}
    (hseen : api.Seen Writes k scale)
    (hupdate : api.updateScale { scale with replicas := n } k = some k') :
    api.getScale k = some scale := by
  obtain ⟨k₀, hbefore, hget⟩ := hseen
  obtain ⟨stored, hstored, hversion⟩ := law.update_conflicts _ _ _ hupdate
  rw [hstored, law.version_names k₀ k scale stored hbefore hget hstored hversion.symm]

/-- What an update does to the cluster is a write or nothing. -/
lemma Lawful.update_rtc (law : api.Lawful Writes) (fault : Fault) (scale : Scale V) (k : K) :
    Relation.ReflTransGen Writes k (api.update fault scale k).2 := by
  unfold update
  split_ifs
  · exact .refl
  · cases hupdate : api.updateScale scale k with
    | none => exact .refl
    | some k' => exact .single (law.update_writes _ _ _ hupdate)

end DeploymentApi

/-! ## Writes of the aggregator -/

/-- A count the aggregator has written to the deployment: the autoscaler's, with the answers it was
decided on, or that of a request. -/
inductive ScaleWrite
  | autoscaler (answers : List (String × RuntimeProfile)) (n : Int32)
  | post (r : Int32)

/-- The count a write leaves. -/
def ScaleWrite.count : ScaleWrite → Int32
  | .autoscaler _ n => n
  | .post r => r

/-- The write a step makes, if it makes one: an update that gets to the server and is accepted. -/
def ScaleParty.write (api : DeploymentApi K V) (m : ScaleTurn) (s : ScaleShared K) :
    ScaleParty K V → Option ScaleWrite
  | .autoscaler (.decided answers scale n _) =>
      if m.fault ≠ .lost ∧ (api.updateScale { scale with replicas := n } s.cluster).isSome then
        some (.autoscaler answers n)
      else none
  | .post (.read r scale) =>
      if m.fault ≠ .lost ∧ (api.updateScale { scale with replicas := r } s.cluster).isSome then
        some (.post r)
      else none
  | _ => none

/-- The write leaves its count in force.  The autoscaler's is `decide`'s for the count in force
before, and was decided on workloads that are marked; a request's is one it may ask for. -/
structure ScaleWrite.InForce (api : DeploymentApi K V) (s s' : ScaleShared K) (w : ScaleWrite) :
    Prop where
  after : ∃ scale, api.getScale s'.cluster = some scale ∧ scale.replicas = w.count
  decided : ∀ answers n, w = .autoscaler answers n →
    (∃ scale, api.getScale s.cluster = some scale ∧
      n = (Autoscaler.decideOn answers scale.replicas).1) ∧
    answers ≠ [] ∧ ∀ a ∈ answers, a.1 ∈ s.simulatedKeys
  admitted : ∀ r, w = .post r → 1 ≤ r ∧ r ≤ 10

/-! ## What a party relies on -/

/-- Every key of a tick is marked. -/
def Marked (s : ScaleShared K) (keys : List String) : Prop :=
  keys ≠ [] ∧ ∀ k ∈ keys, k ∈ s.simulatedKeys

/-- What a party relies on: that what it has read was there. -/
def ScaleParty.Relies (api : DeploymentApi K V) (Writes : K → K → Prop) (s : ScaleShared K) :
    ScaleParty K V → Prop
  | .autoscaler (.keyed keys) | .autoscaler (.optedIn keys) => Marked s keys
  | .autoscaler (.scaled keys scale) => Marked s keys ∧ api.Seen Writes s.cluster scale
  | .autoscaler (.decided answers scale n _) =>
      Marked s (answers.map Prod.fst) ∧ api.Seen Writes s.cluster scale ∧
        n = (Autoscaler.decideOn answers scale.replicas).1
  | .post (.read r scale) => (1 ≤ r ∧ r ≤ 10) ∧ api.Seen Writes s.cluster scale
  | .other writes => ∀ write ∈ writes, ∀ k, Writes k (write k)
  | _ => True

/-- What all parties stay within: the cluster is written to, and no mark is taken back. -/
structure ScaleShared.Grows (Writes : K → K → Prop) (s s' : ScaleShared K) : Prop where
  cluster : Relation.ReflTransGen Writes s.cluster s'.cluster
  simulatedKeys : s.simulatedKeys ⊆ s'.simulatedKeys

lemma ScaleShared.Grows.refl (Writes : K → K → Prop) (s : ScaleShared K) : s.Grows Writes s :=
  ⟨.refl, Finset.Subset.refl _⟩

lemma Marked.mono {Writes : K → K → Prop} {s s' : ScaleShared K} {keys : List String}
    (h : Marked s keys) (hgrows : s.Grows Writes s') : Marked s' keys :=
  ⟨h.1, fun k hk => hgrows.simulatedKeys (h.2 k hk)⟩

/-- What a party relies on is stable. -/
lemma ScaleParty.Relies.stable {api : DeploymentApi K V} {Writes : K → K → Prop}
    {s s' : ScaleShared K} {p : ScaleParty K V} (hgrows : s.Grows Writes s')
    (h : p.Relies api Writes s) : p.Relies api Writes s' := by
  cases p with
  | autoscaler tick =>
      cases tick with
      | keyed keys => exact Marked.mono h hgrows
      | optedIn keys => exact Marked.mono h hgrows
      | scaled keys scale => exact ⟨h.1.mono hgrows, h.2.mono hgrows.cluster⟩
      | decided answers scale n reason =>
          exact ⟨h.1.mono hgrows, h.2.1.mono hgrows.cluster, h.2.2⟩
      | _ => trivial
  | post handler =>
      cases handler with
      | read r scale => exact ⟨h.1, h.2.mono hgrows.cluster⟩
      | _ => trivial
  | other writes => exact h
  | _ => trivial

/-! ## One step -/

namespace DeploymentApi

variable {api : DeploymentApi K V} {Writes : K → K → Prop} {fault : Fault} {scale : Scale V}
  {k k' : K}

lemma update_of_accepted (hfault : fault ≠ .lost) (h : api.updateScale scale k = some k') :
    api.update fault scale k = (decide (fault = .none), k') := by
  rw [update, if_neg hfault, h]

/-- Only an update that is accepted succeeds. -/
lemma accepted_of_update (h : (api.update fault scale k).1 = true) :
    fault ≠ .lost ∧ (api.updateScale scale k).isSome := by
  unfold update at h
  split_ifs at h with hlost
  cases hupdate : api.updateScale scale k with
  | none => simp [hupdate] at h
  | some k' => exact ⟨hlost, rfl⟩

lemma receive_eq_some {α : Type*} {answer : Option α} {a : α}
    (h : receive fault answer = some a) : answer = some a := by
  unfold receive at h
  split_ifs at h
  exact h

/-- An update of a `Scale` that was seen finds it still in force, and leaves the new count. -/
lemma Lawful.inForce (law : api.Lawful Writes) {n : Int32} (hseen : api.Seen Writes k scale)
    (hfault : fault ≠ .lost) (h : (api.updateScale { scale with replicas := n } k).isSome) :
    api.getScale k = some scale ∧ ∃ stored,
      api.getScale (api.update fault { scale with replicas := n } k).2 = some stored ∧
        stored.replicas = n := by
  obtain ⟨k', hk'⟩ := Option.isSome_iff_exists.mp h
  rw [update_of_accepted hfault hk']
  exact ⟨law.unchanged hseen hk', law.update_takes _ _ _ hk'⟩

end DeploymentApi

namespace ScaleParty

variable {api : DeploymentApi K V} {Writes : K → K → Prop} {s : ScaleShared K}

/-- A write leaves its count in force, and a request is acknowledged only if it has written. -/
structure Kept (api : DeploymentApi K V) (m : ScaleTurn) (s : ScaleShared K)
    (p : ScaleParty K V) : Prop where
  inForce : ∀ w ∈ p.write api m s, w.InForce api s (p.step api m s).1
  acknowledged : ∀ r scale, p = .post (.read r scale) →
    (p.step api m s).2 = .post (.answered true) → p.write api m s = some (.post r)

lemma kept_of_write_eq_none {m : ScaleTurn} {p : ScaleParty K V} (h : p.write api m s = none)
    (hpost : ∀ r scale, p ≠ .post (.read r scale)) : p.Kept api m s where
  inForce w hw := by
    rw [h] at hw
    cases hw
  acknowledged r scale hp := absurd hp (hpost r scale)

/-- A step of the autoscaler. -/
lemma step_autoscaler (law : api.Lawful Writes) {tick : ClusterTick V}
    (h : (ScaleParty.autoscaler tick).Relies api Writes s) (m : ScaleTurn) :
    (ScaleParty.autoscaler tick).Kept api m s ∧
      s.Grows Writes (tick.step api m s).1 ∧
      (ScaleParty.autoscaler (K := K) (tick.step api m s).2).Relies api Writes
        (tick.step api m s).1 := by
  cases tick with
  | waiting =>
      refine ⟨kept_of_write_eq_none rfl (by simp), .refl Writes s, ?_⟩
      cases hon : s.vars.autoscalingEnabled <;> simp [ClusterTick.step, hon, Relies]
  | enabled =>
      refine ⟨kept_of_write_eq_none rfl (by simp), .refl Writes s, ?_⟩
      by_cases hnil : m.visits.filter (· ∈ s.simulatedKeys) = []
      · simp [ClusterTick.step, hnil, Relies]
      · simp only [ClusterTick.step, if_neg hnil]
        exact ⟨hnil, fun k hk => of_decide_eq_true (List.mem_filter.mp hk).2⟩
  | keyed keys =>
      refine ⟨kept_of_write_eq_none rfl (by simp), ?_, ?_⟩
      · cases hlabels : DeploymentApi.receive m.fault (api.getLabels s.cluster) <;>
          simp only [ClusterTick.step, hlabels] <;> exact .refl Writes s
      · cases hlabels : DeploymentApi.receive m.fault (api.getLabels s.cluster) with
        | none => simp [ClusterTick.step, hlabels, Relies]
        | some labels =>
            by_cases hopt : OptedIn labels
            · simp only [ClusterTick.step, hlabels, if_pos hopt]
              exact h
            · simp [ClusterTick.step, hlabels, if_neg hopt, Relies]
  | optedIn keys =>
      refine ⟨kept_of_write_eq_none rfl (by simp), ?_, ?_⟩
      · cases hscale : DeploymentApi.receive m.fault (api.getScale s.cluster) <;>
          simp only [ClusterTick.step, hscale] <;> exact .refl Writes s
      · cases hscale : DeploymentApi.receive m.fault (api.getScale s.cluster) with
        | none => simp [ClusterTick.step, hscale, Relies]
        | some scale =>
            simp only [ClusterTick.step, hscale]
            exact ⟨h, s.cluster, .refl, DeploymentApi.receive_eq_some hscale⟩
  | scaled keys scale =>
      refine ⟨kept_of_write_eq_none rfl (by simp), .refl Writes s, ?_⟩
      by_cases hsame : (Autoscaler.decideOn (keys.map fun k => (k, m.profile k))
          scale.replicas).1 = scale.replicas
      · simp [ClusterTick.step, hsame, Relies]
      · simp only [ClusterTick.step, if_neg hsame]
        refine ⟨?_, h.2, rfl⟩
        rw [List.map_map]
        simpa [Function.comp_def] using h.1
  | decided answers scale n reason =>
      obtain ⟨hmarked, hseen, hn⟩ := h
      refine ⟨⟨fun w hw => ?_, fun r scale' hp => by cases hp⟩,
        ⟨law.update_rtc m.fault _ s.cluster, Finset.Subset.refl _⟩, ?_⟩
      · simp only [write, Option.mem_def, Option.ite_none_right_eq_some, Option.some.injEq] at hw
        obtain ⟨⟨hfault, haccepted⟩, rfl⟩ := hw
        obtain ⟨hbefore, hafter⟩ := law.inForce hseen hfault haccepted
        refine ⟨hafter, fun answers' n' heq => ?_, fun r heq => by cases heq⟩
        obtain ⟨rfl, rfl⟩ := ScaleWrite.autoscaler.inj heq
        refine ⟨⟨scale, hbefore, hn⟩, fun hnil => hmarked.1 (by rw [hnil]; rfl),
          fun a ha => hmarked.2 _ (List.mem_map_of_mem ha)⟩
      · cases hok : (api.update m.fault { scale with replicas := n } s.cluster).1 <;>
          simp [ClusterTick.step, hok, Relies]
  | updated cur n reason =>
      exact ⟨kept_of_write_eq_none rfl (by simp), ⟨.refl, Finset.Subset.refl _⟩, trivial⟩

/-- The conversion `int32(replicas)` of a count that is admitted. -/
lemma admitted_ofInt {r : ℤ} (h : ¬ (r < 1 ∨ r > 10)) :
    1 ≤ Int32.ofInt r ∧ Int32.ofInt r ≤ 10 := by
  obtain ⟨hlow, hhigh⟩ := not_or.mp h
  have hlow : 1 ≤ r := not_lt.mp hlow
  have hhigh : r ≤ 10 := not_lt.mp hhigh
  interval_cases r <;> decide

/-- A step of a `POST /api/scale`. -/
lemma step_post (law : api.Lawful Writes) {handler : PostScale V}
    (h : (ScaleParty.post handler).Relies api Writes s) (m : ScaleTurn) :
    (ScaleParty.post handler).Kept api m s ∧
      s.Grows Writes (handler.step api m s).1 ∧
      (ScaleParty.post (K := K) (handler.step api m s).2).Relies api Writes
        (handler.step api m s).1 := by
  cases handler with
  | new replicas =>
      refine ⟨kept_of_write_eq_none rfl (by simp), ?_⟩
      cases replicas with
      | none => exact ⟨.refl Writes s, trivial⟩
      | some r =>
          by_cases hr : r < 1 ∨ r > 10
          · simp only [PostScale.step, if_pos hr]
            exact ⟨.refl Writes s, trivial⟩
          · cases hscale : DeploymentApi.receive m.fault (api.getScale s.cluster) with
            | none =>
                simp only [PostScale.step, if_neg hr, hscale]
                exact ⟨.refl Writes s, trivial⟩
            | some scale =>
                simp only [PostScale.step, if_neg hr, hscale]
                refine ⟨.refl Writes s, ?_, s.cluster, .refl, DeploymentApi.receive_eq_some hscale⟩
                exact admitted_ofInt hr
  | read r scale =>
      obtain ⟨hadmitted, hseen⟩ := h
      refine ⟨⟨fun w hw => ?_, fun r' scale' hp hok => ?_⟩,
        ⟨law.update_rtc m.fault _ s.cluster, Finset.Subset.refl _⟩, trivial⟩
      · simp only [write, Option.mem_def, Option.ite_none_right_eq_some, Option.some.injEq] at hw
        obtain ⟨⟨hfault, haccepted⟩, rfl⟩ := hw
        obtain ⟨-, hafter⟩ := law.inForce hseen hfault haccepted
        refine ⟨hafter, fun answers n heq => ?_, fun r' heq => ?_⟩
        · cases heq
        obtain rfl := ScaleWrite.post.inj heq
        exact hadmitted
      · obtain ⟨rfl, rfl⟩ := PostScale.read.inj (ScaleParty.post.inj hp)
        have hsuccess : (api.update m.fault { scale with replicas := r } s.cluster).1 = true :=
          PostScale.answered.inj (ScaleParty.post.inj hok)
        rw [write, if_pos (DeploymentApi.accepted_of_update hsuccess)]
  | answered ok => exact ⟨kept_of_write_eq_none rfl (by simp), .refl Writes s, trivial⟩

/-- **One step.** -/
lemma step_kept (law : api.Lawful Writes) {p : ScaleParty K V} (h : p.Relies api Writes s)
    (m : ScaleTurn) :
    p.Kept api m s ∧ s.Grows Writes (p.step api m s).1 ∧
      (p.step api m s).2.Relies api Writes (p.step api m s).1 := by
  cases p with
  | autoscaler tick => exact step_autoscaler law h m
  | post handler => exact step_post law h m
  | toggle switches =>
      refine ⟨kept_of_write_eq_none rfl (by simp), ?_⟩
      cases switches with
      | nil => exact ⟨.refl Writes s, trivial⟩
      | cons enabled switches => exact ⟨⟨.refl, Finset.Subset.refl _⟩, trivial⟩
  | simulate keys =>
      refine ⟨kept_of_write_eq_none rfl (by simp), ?_⟩
      cases keys with
      | nil => exact ⟨.refl Writes s, trivial⟩
      | cons key keys => exact ⟨⟨.refl, Finset.subset_insert _ _⟩, trivial⟩
  | other writes =>
      refine ⟨kept_of_write_eq_none rfl (by simp), ?_⟩
      cases writes with
      | nil => exact ⟨.refl Writes s, h⟩
      | cons write writes =>
          exact ⟨⟨.single (h write List.mem_cons_self s.cluster), Finset.Subset.refl _⟩,
            fun write' hmem => h write' (List.mem_cons_of_mem _ hmem)⟩

end ScaleParty

/-! ## Runs -/

/-- How a party starts; what another client does to the cluster is a write. -/
def ScaleParty.Starts (Writes : K → K → Prop) : ScaleParty K V → Prop
  | .autoscaler tick => tick = .waiting
  | .post handler => ∃ replicas, handler = .new replicas
  | .toggle _ | .simulate _ => True
  | .other writes => ∀ write ∈ writes, ∀ k, Writes k (write k)

lemma ScaleParty.Starts.relies {api : DeploymentApi K V} {Writes : K → K → Prop}
    {p : ScaleParty K V} (h : p.Starts Writes) (s : ScaleShared K) : p.Relies api Writes s := by
  cases p with
  | autoscaler tick =>
      obtain rfl : tick = .waiting := h
      trivial
  | post handler =>
      obtain ⟨replicas, rfl⟩ := h
      trivial
  | other writes => exact h
  | _ => trivial

/-- What a `POST /api/scale` that asks for `replicas` has written by the time it stands where it
does. -/
def ScaleParty.HasWritten (replicas : Option ℤ) (writes : List ScaleWrite) :
    ScaleParty K V → Prop
  | .post (.new replicas') => replicas' = replicas ∧ writes = []
  | .post (.read r _) =>
      (∃ asked, replicas = some asked ∧ (1 ≤ asked ∧ asked ≤ 10) ∧ r = Int32.ofInt asked) ∧
        writes = []
  | .post (.answered ok) => ok = true → ∃ asked, replicas = some asked ∧
      (1 ≤ asked ∧ asked ≤ 10) ∧ writes = [.post (Int32.ofInt asked)]
  | _ => False

lemma ScaleParty.HasWritten.step {api : DeploymentApi K V} {replicas : Option ℤ}
    {writes : List ScaleWrite} {p : ScaleParty K V} (h : p.HasWritten replicas writes)
    (m : ScaleTurn) (s : ScaleShared K) :
    (p.step api m s).2.HasWritten replicas (writes ++ (p.write api m s).toList) := by
  cases p with
  | post handler =>
      cases handler with
      | new replicas' =>
          obtain ⟨rfl, rfl⟩ := h
          cases replicas' with
          | none => exact fun hok => absurd hok Bool.false_ne_true
          | some r =>
              by_cases hr : r < 1 ∨ r > 10
              · simp [ScaleParty.step, PostScale.step, hr, HasWritten]
              · have hadmitted : 1 ≤ r ∧ r ≤ 10 := by omega
                cases hscale : DeploymentApi.receive m.fault (api.getScale s.cluster) with
                | none => simp [ScaleParty.step, PostScale.step, hr, hscale, HasWritten]
                | some scale =>
                    simp only [ScaleParty.step, PostScale.step, if_neg hr, hscale]
                    exact ⟨⟨r, rfl, hadmitted, rfl⟩, rfl⟩
      | read r scale =>
          obtain ⟨⟨asked, hreplicas, hadmitted, rfl⟩, rfl⟩ := h
          intro hok
          have hsuccess : (api.update m.fault { scale with replicas := Int32.ofInt asked }
            s.cluster).1 = true := hok
          refine ⟨asked, hreplicas, hadmitted, ?_⟩
          rw [write, if_pos (DeploymentApi.accepted_of_update hsuccess)]
          rfl
      | answered ok =>
          have hsame : writes ++ ((ScaleParty.post (.answered ok) : ScaleParty K V).write api m
            s).toList = writes := List.append_nil _
          rw [hsame]
          exact h
  | _ => exact h.elim

/-- **No scale request is lost in a cluster.**  The autoscaler, any number of `POST /api/scale`
handlers and other clients of the cluster take their steps in any order, and requests and answers
may be lost.  Every count that is written is in force after the write; the autoscaler's is
`decide`'s for the count in force just before, whoever wrote that, and rests on marked workloads
alone; and a request is acknowledged only if it asked for a count from one to ten, has written that
count, once, and has written nothing else. -/
theorem cluster_scale_requests_kept (api : DeploymentApi K V) (Writes : K → K → Prop)
    (law : api.Lawful Writes) (sys : System (ScaleShared K) (ScaleParty K V))
    (hstart : ∀ p ∈ sys.procs, p.Starts Writes) (sched : List (ScaleTurn × ℕ)) :
    AllSteps (System.exec (ScaleParty.step api))
        (System.Takes fun m s p => p.Kept api m s) sys sched ∧
      ∀ i replicas, sys.procs[i]? = some (.post (.new replicas)) →
        (timedRun (System.exec (ScaleParty.step api)) sys sched).procs[i]?
          = some (.post (.answered true)) →
        ∃ asked, replicas = some asked ∧ (1 ≤ asked ∧ asked ≤ 10) ∧
          System.traceOf (ScaleParty.step api) (ScaleParty.write api) i sys sched
            = [.post (Int32.ofInt asked)] := by
  refine ⟨System.rely_guarantee (A := fun _ _ _ => True)
    (L := fun s p => p.Relies api Writes s) (G := ScaleShared.Grows Writes)
    (fun m _ _ _ hrelies => ScaleParty.step_kept law hrelies m)
    (fun _ _ _ hgrows hrelies => hrelies.stable hgrows)
    (fun p hp => (hstart p hp).relies _)
    (allSteps_of_forall (P := fun _ _ => True) (fun _ _ => trivial) _ |>.of_invariant
      (I := fun _ => True) (fun _ _ _ _ _ => ⟨fun _ _ => trivial, trivial⟩) trivial),
    fun i replicas hi hanswered => ?_⟩
  have hstep : ∀ (m : ScaleTurn) s p writes, p.HasWritten replicas writes →
      (ScaleParty.step api m s p).2.HasWritten replicas
        (writes ++ (ScaleParty.write api m s p).toList) :=
    fun m s _ _ hp => hp.step m s
  have hwritten := System.traceOf_invariant hstep []
    (fun p hp => by
      obtain rfl := Option.some.inj (hi.symm.trans hp)
      exact ⟨rfl, rfl⟩) sched _ hanswered
  exact hwritten rfl

/-! ## What holds the autoscaler back -/

/-- The three things a tick asks for before it reads the count. -/
inductive ScaleGate
  | enabled
  | simulated
  | optIn

/-- What a gate asks for. -/
def ScaleGate.Open (api : DeploymentApi K V) (s : ScaleShared K) : ScaleGate → Prop
  | .enabled => s.vars.autoscalingEnabled = true
  | .simulated => s.simulatedKeys ≠ ∅
  | .optIn => ∃ labels, api.getLabels s.cluster = some labels ∧ OptedIn labels

instance (api : DeploymentApi K V) (s : ScaleShared K) (gate : ScaleGate) :
    Decidable (gate.Open api s) :=
  match gate with
  | .enabled => inferInstanceAs (Decidable (_ = _))
  | .simulated => inferInstanceAs (Decidable (_ ≠ _))
  | .optIn => decidable_of_iff (∃ labels ∈ api.getLabels s.cluster, OptedIn labels) Iff.rfl

/-- The stages in front of a gate. -/
def ScaleGate.Before (tick : ClusterTick V) : ScaleGate → Prop
  | .enabled => tick = .waiting
  | .simulated => tick = .waiting ∨ tick = .enabled
  | .optIn => tick = .waiting ∨ tick = .enabled ∨ ∃ keys, tick = .keyed keys

lemma ScaleGate.before_waiting (gate : ScaleGate) :
    gate.Before (.waiting : ClusterTick V) := by
  cases gate with
  | enabled => exact rfl
  | simulated => exact .inl rfl
  | optIn => exact .inl rfl

/-- A tick in front of a closed gate stays there. -/
lemma ScaleGate.before_step {api : DeploymentApi K V} {gate : ScaleGate} {s : ScaleShared K}
    (hclosed : ¬ gate.Open api s) {tick : ClusterTick V} (h : gate.Before tick) (m : ScaleTurn) :
    gate.Before (tick.step api m s).2 := by
  cases gate with
  | enabled =>
      obtain rfl : tick = .waiting := h
      have hoff : s.vars.autoscalingEnabled = false := Bool.not_eq_true _ ▸ hclosed
      simp [ClusterTick.step, hoff, Before]
  | simulated =>
      have hempty : s.simulatedKeys = ∅ := not_not.mp hclosed
      rcases h with rfl | rfl
      · cases hon : s.vars.autoscalingEnabled <;> simp [ClusterTick.step, hon, Before]
      · simp [ClusterTick.step, hempty, Before]
  | optIn =>
      rcases h with rfl | rfl | ⟨keys, rfl⟩
      · cases hon : s.vars.autoscalingEnabled <;> simp [ClusterTick.step, hon, Before]
      · by_cases hnil : m.visits.filter (· ∈ s.simulatedKeys) = []
        · simp [ClusterTick.step, hnil, Before]
        · simp only [ClusterTick.step, if_neg hnil]
          exact .inr (.inr ⟨_, rfl⟩)
      · cases hlabels : DeploymentApi.receive m.fault (api.getLabels s.cluster) with
        | none => simp [ClusterTick.step, hlabels, Before]
        | some labels =>
            have hnot : ¬ OptedIn labels := fun hopt =>
              hclosed ⟨labels, DeploymentApi.receive_eq_some hlabels, hopt⟩
            simp [ClusterTick.step, hlabels, if_neg hnot, Before]

lemma ScaleGate.not_before_decided (gate : ScaleGate) {answers : List (String × RuntimeProfile)}
    {scale : Scale V} {n : Int32} {reason : String} :
    ¬ gate.Before (.decided answers scale n reason) := by
  cases gate <;> simp [Before]

/-- **The autoscaler keeps its hands off.**  While autoscaling is off, or while no workload has been
marked as simulated, or while the deployment does not carry the label that lets it be scaled, the
autoscaler writes no count, whatever the other two conditions and the other parties do. -/
theorem cluster_autoscaler_gated (api : DeploymentApi K V) (gate : ScaleGate)
    (sys : System (ScaleShared K) (ScaleParty K V))
    (hstart : ∀ tick, .autoscaler tick ∈ sys.procs → tick = .waiting)
    (sched : List (ScaleTurn × ℕ))
    (hclosed : AllSteps (System.exec (ScaleParty.step api))
      (fun _ _ sys => ¬ gate.Open api sys.shared) sys sched) :
    ∀ w ∈ System.trace (ScaleParty.step api) (ScaleParty.write api) sys sched,
      ∃ r, w = .post r := by
  refine System.forall_mem_trace (System.rely_guarantee
    (A := fun _ s _ => ¬ gate.Open api s) (G := fun _ _ => True)
    (L := fun (_ : ScaleShared K) (p : ScaleParty K V) =>
      ∀ tick, p = .autoscaler tick → gate.Before tick)
    (fun m s p hclosed hbefore => ⟨fun w hw => ?_, trivial, fun tick htick => ?_⟩)
    (fun _ _ _ _ h => h) (fun p hp tick htick => ?_)
    (hclosed.of_invariant (I := fun _ => True) (fun _ _ _ _ h => ⟨fun _ _ => h, trivial⟩) trivial))
  · cases p with
    | autoscaler tick =>
        cases tick with
        | decided answers scale n reason =>
            exact absurd (hbefore _ rfl) gate.not_before_decided
        | _ => cases hw
    | post handler =>
        cases handler with
        | read r scale =>
            simp only [ScaleParty.write, Option.mem_def, Option.ite_none_right_eq_some,
              Option.some.injEq] at hw
            exact ⟨r, hw.2.symm⟩
        | _ => cases hw
    | _ => cases hw
  · cases p with
    | autoscaler tick' =>
        obtain rfl := ScaleParty.autoscaler.inj htick
        exact gate.before_step hclosed (hbefore tick' rfl) m
    | toggle switches => cases switches <;> cases htick
    | simulate keys => cases keys <;> cases htick
    | other writes => cases writes <;> cases htick
    | post handler => cases htick
  · rw [hstart tick (htick ▸ hp)]
    exact gate.before_waiting

/-! ## An API server -/

/-- A cluster with the demo deployment in it. -/
structure DemoCluster where
  labels : Finmap (fun _ : String => String)
  replicas : Int32
  revision : ℕ

/-- An API server for it: every write gets a revision of its own, and an update of another revision
than the stored one is refused. -/
def demoApi : DeploymentApi DemoCluster ℕ where
  getLabels k := some k.labels
  getScale k := some ⟨k.replicas, k.revision⟩
  updateScale scale k :=
    if scale.resourceVersion = k.revision then
      some { k with replicas := scale.replicas, revision := k.revision + 1 }
    else none

lemma revision_le_of_rtc {k k' : DemoCluster}
    (h : Relation.ReflTransGen (fun k k' : DemoCluster => k.revision < k'.revision) k k') :
    k = k' ∨ k.revision < k'.revision := by
  induction h with
  | refl => exact .inl rfl
  | tail _ hlast ih =>
      rcases ih with rfl | hlt
      · exact .inr hlast
      · exact .inr (hlt.trans hlast)

lemma demoApi_lawful : demoApi.Lawful fun k k' => k.revision < k'.revision where
  update_writes scale k k' h := by
    simp only [demoApi, Option.ite_none_right_eq_some, Option.some.injEq] at h
    obtain ⟨-, rfl⟩ := h
    exact Nat.lt_succ_self _
  update_conflicts scale k k' h := by
    simp only [demoApi, Option.ite_none_right_eq_some] at h
    exact ⟨_, rfl, h.1.symm⟩
  update_takes scale k k' h := by
    simp only [demoApi, Option.ite_none_right_eq_some, Option.some.injEq] at h
    obtain ⟨-, rfl⟩ := h
    exact ⟨_, rfl, rfl⟩
  version_names k k' scale scale' h hscale hscale' hversion := by
    obtain rfl := Option.some_inj.mp hscale
    obtain rfl := Option.some_inj.mp hscale'
    rcases revision_le_of_rtc h with rfl | hlt
    · rfl
    · exact absurd hversion hlt.ne

/-- The demo deployment with two replicas, autoscaling on and one workload marked; a request for
eight replicas is about to be served. -/
def demoSystem (labels : Finmap (fun _ : String => String)) :
    System (ScaleShared DemoCluster) (ScaleParty DemoCluster ℕ) :=
  ⟨⟨⟨true, [], 2⟩, {"default/Deployment/web"}, ⟨labels, 2, 7⟩⟩,
    [.autoscaler .waiting, .post (.new (some 8))]⟩

/-- A turn in which nothing fails and every workload is idle. -/
def idleTurn : ScaleTurn := ⟨0, .none, ["default/Deployment/web"], Store.unknownProfile⟩

/-- The race that loses a request without a cluster: the tick reads two replicas and decides on one,
a request for eight is acknowledged, and then the tick writes.  Here its update is refused. -/
theorem cluster_scale_requests_kept_race :
    let sched := [(idleTurn, 0), (idleTurn, 0), (idleTurn, 0), (idleTurn, 0), (idleTurn, 1),
      (idleTurn, 0), (idleTurn, 1), (idleTurn, 0)]
    AllSteps (System.exec (ScaleParty.step demoApi))
        (System.Takes fun m s p => p.Kept demoApi m s)
        (demoSystem (Finmap.singleton optInLabel "true")) sched ∧
      System.traceOf (ScaleParty.step demoApi) (ScaleParty.write demoApi) 1
        (demoSystem (Finmap.singleton optInLabel "true")) sched = [.post 8] ∧
      (timedRun (System.exec (ScaleParty.step demoApi))
        (demoSystem (Finmap.singleton optInLabel "true")) sched).shared.cluster.replicas = 8 := by
  intro sched
  have hstart : ∀ p ∈ (demoSystem (Finmap.singleton optInLabel "true")).procs,
      p.Starts fun k k' => k.revision < k'.revision := by
    intro p hp
    rcases List.mem_cons.mp hp with rfl | hp
    · exact rfl
    · obtain rfl := List.mem_singleton.mp hp
      exact ⟨_, rfl⟩
  obtain ⟨hkept, hacknowledged⟩ :=
    cluster_scale_requests_kept demoApi _ demoApi_lawful _ hstart sched
  obtain ⟨asked, hasked, -, hwritten⟩ := hacknowledged 1 (some 8) rfl rfl
  obtain rfl := Option.some.inj hasked
  exact ⟨hkept, hwritten, by decide +kernel⟩

/-- A deployment without the label: two ticks and a request, of which only the request writes. -/
theorem cluster_autoscaler_gated_unlabelled :
    let sched := [(idleTurn, 0), (idleTurn, 0), (idleTurn, 0), (idleTurn, 1), (idleTurn, 1),
      (idleTurn, 0), (idleTurn, 0), (idleTurn, 0)]
    (∀ w ∈ System.trace (ScaleParty.step demoApi) (ScaleParty.write demoApi) (demoSystem ∅) sched,
        ∃ r, w = .post r) ∧
      (timedRun (System.exec (ScaleParty.step demoApi)) (demoSystem ∅)
        sched).shared.cluster.replicas = 8 := by
  intro sched
  refine ⟨cluster_autoscaler_gated demoApi .optIn (demoSystem ∅) (fun tick htick => ?_) sched
    (by decide +kernel), by decide +kernel⟩
  rcases List.mem_cons.mp htick with heq | hp
  · exact ScaleParty.autoscaler.inj heq
  · cases List.mem_singleton.mp hp

end Akil
