import Akil.Construction.Aggregator.Service
import Akil.Framework.Linearization
import Akil.Properties.StoreProduct

/-!
# The store is linearizable

Goroutines that share pointers to profiles implement the sequential store of
`Construction/Profile/Store.lean`.  A `GetOrCreate` takes effect when it finds a pointer or when
`LoadOrStore` settles which one is stored, though the profile is then as old as the reading at which
it was built; a method takes effect in its section under the profile's mutex; and the visit of a key
in a `Range` takes effect where the node set is found not to have the node, or else, since a node
never leaves that set, where the profile is computed.

`Represents` relates a store to the shared one: the same window under every key, and no two keys
with one address.  Every step keeps it (`step_represents`), and what a goroutine holds in its hands
stays good whatever the others do, because addresses are never replaced and node sets only grow
(`SharedStore.Grows`).  `aggregator_linearizable` draws the conclusion for whole runs.
-/

namespace Akil

/-! ## The shared store as a store -/

/-- Under every key the store and the shared store have the same profile, and no two keys share
one. -/
structure Represents (a : Store) (s : SharedStore) : Prop where
  bucketCount : s.bucketCount = a.bucketCount
  bucketDuration : s.bucketDuration = a.bucketDuration
  get_eq : ∀ key, s.get key = a.get key
  addr_lt : ∀ key addr, s.load key = some addr → addr < s.heap.length
  inj : ∀ key key' addr, s.load key = some addr → s.load key' = some addr → key = key'

namespace SharedStore

variable {s : SharedStore} {key : String} {addr : ℕ}

lemma get_of_load_none (h : s.load key = none) : s.get key = none := by
  rw [get, h, Option.bind_none]

lemma get_of_load (h : s.load key = some addr) : s.get key = s.heap[addr]? := by
  rw [get, h, Option.bind_some]

lemma get_publish_self (wp : WorkloadProfile) : (s.publish key wp).get key = some wp := by
  rw [get_of_load (s.load_publish_self key wp)]
  simp [publish]

lemma get_publish_of_ne (hlt : ∀ key addr, s.load key = some addr → addr < s.heap.length)
    {key' : String} (hne : key' ≠ key) (wp : WorkloadProfile) :
    (s.publish key wp).get key' = s.get key' := by
  have hload := s.load_publish_of_ne hne wp
  cases h : s.load key' with
  | none => rw [get_of_load_none h, get_of_load_none (hload.trans h)]
  | some addr =>
      rw [get_of_load h, get_of_load (hload.trans h)]
      exact List.getElem?_append_left (hlt key' addr h)

lemma get_update_self (h : s.load key = some addr) (f : WorkloadProfile → WorkloadProfile) :
    (s.update addr f).get key = (s.get key).map f := by
  have hload : (s.update addr f).load key = some addr := h
  rw [get_of_load h, get_of_load hload]
  simp [update]

lemma get_update_of_ne {key' : String} (h : s.load key' ≠ some addr)
    (f : WorkloadProfile → WorkloadProfile) : (s.update addr f).get key' = s.get key' := by
  have hload : (s.update addr f).load key' = s.load key' := rfl
  cases h' : s.load key' with
  | none => rw [get_of_load_none h', get_of_load_none (hload.trans h')]
  | some addr' =>
      have hne : addr ≠ addr' := by
        rintro rfl
        exact h h'
      rw [get_of_load h', get_of_load (hload.trans h')]
      simp [update, hne]

end SharedStore

namespace Represents

variable {a : Store} {s : SharedStore} {key : String} {addr : ℕ}

lemma get_none (h : Represents a s) (hload : s.load key = none) : a.get key = none := by
  rw [← h.get_eq, SharedStore.get_of_load_none hload]

/-- A loaded address is that of the profile under the key. -/
lemma get_some (h : Represents a s) (hload : s.load key = some addr) :
    ∃ wp, s.heap[addr]? = some wp ∧ a.get key = some wp := by
  have hlt := h.addr_lt key addr hload
  exact ⟨s.heap[addr], List.getElem?_eq_getElem hlt, by
    rw [← h.get_eq, SharedStore.get_of_load hload, List.getElem?_eq_getElem hlt]⟩

/-- Two stores that agree on all keys are represented alike. -/
lemma congr {a' : Store} (h : Represents a s) (hcount : a'.bucketCount = a.bucketCount)
    (hduration : a'.bucketDuration = a.bucketDuration) (hget : ∀ key, a'.get key = a.get key) :
    Represents a' s :=
  ⟨h.bucketCount.trans hcount.symm, h.bucketDuration.trans hduration.symm,
    fun key => (h.get_eq key).trans (hget key).symm, h.addr_lt, h.inj⟩

/-- A call that leaves the profile under its key changes nothing. -/
lemma of_get_eq (h : Represents a s) {t : ℤ} {c : StoreCall}
    (hget : (a.exec t c).get c.workloadKey = a.get c.workloadKey) :
    Represents (a.exec t c) s := by
  obtain ⟨hcount, hduration⟩ := a.config_exec t c
  refine h.congr hcount hduration (fun key => ?_)
  by_cases hkey : c.workloadKey = key
  · rw [← hkey, hget]
  · exact a.get_exec_of_ne t hkey

/-- A `GetOrCreate` that finds a profile. -/
lemma getOrCreate_of_load (h : Represents a s) (hload : s.load key = some addr) (t : ℤ) :
    Represents (a.exec t (.getOrCreate key)) s := by
  obtain ⟨wp, -, hget⟩ := h.get_some hload
  apply h.of_get_eq
  have hself := a.get_getOrCreate_self t key
  rw [hget, Option.getD_some] at hself
  exact hself.trans hget.symm

/-- A `GetOrCreate` that stores a profile built at `t`. -/
lemma publish (h : Represents a s) (hload : s.load key = none) (t : ℤ) :
    Represents (a.exec t (.getOrCreate key))
      (s.publish key (newWorkloadProfile key s.bucketCount s.bucketDuration t)) := by
  set wp := newWorkloadProfile key s.bucketCount s.bucketDuration t with hwp
  obtain ⟨hcount, hduration⟩ := a.config_exec t (.getOrCreate key)
  have hother : ∀ {key'}, key' ≠ key → (s.publish key wp).load key' = s.load key' :=
    fun hne => s.load_publish_of_ne hne wp
  have hself := s.load_publish_self key wp
  have hlength : (s.publish key wp).heap.length = s.heap.length + 1 := by
    simp [SharedStore.publish]
  refine ⟨h.bucketCount.trans hcount.symm, h.bucketDuration.trans hduration.symm,
    fun key' => ?_, fun key' addr hl => ?_, fun key₁ key₂ addr h₁ h₂ => ?_⟩
  · by_cases hne : key' = key
    · subst hne
      rw [SharedStore.get_publish_self, a.get_getOrCreate_self, h.get_none hload, hwp,
        h.bucketCount, h.bucketDuration]
      rfl
    · rw [SharedStore.get_publish_of_ne h.addr_lt hne, h.get_eq,
        a.get_exec_of_ne t (c := .getOrCreate key) (Ne.symm hne)]
  · rw [hlength]
    by_cases hne : key' = key
    · subst hne
      obtain rfl : s.heap.length = addr := Option.some_inj.mp (hself.symm.trans hl)
      omega
    · rw [hother hne] at hl
      have := h.addr_lt key' addr hl
      omega
  · by_cases hne₁ : key₁ = key
    · by_cases hne₂ : key₂ = key
      · rw [hne₁, hne₂]
      · rw [hne₁, hself, Option.some_inj] at h₁
        rw [hother hne₂] at h₂
        exact absurd (h.addr_lt key₂ addr h₂) (by omega)
    · rw [hother hne₁] at h₁
      by_cases hne₂ : key₂ = key
      · rw [hne₂, hself, Option.some_inj] at h₂
        exact absurd (h.addr_lt key₁ addr h₁) (by omega)
      · rw [hother hne₂] at h₂
        exact h.inj key₁ key₂ addr h₁ h₂

/-- A call on the stored profile. -/
lemma update (h : Represents a s) (hload : s.load key = some addr) {t : ℤ} {c : StoreCall}
    (hkey : c.workloadKey = key) {f : WorkloadProfile → WorkloadProfile}
    (hget : (a.exec t c).get key = (a.get key).map f) :
    Represents (a.exec t c) (s.update addr f) := by
  obtain ⟨hcount, hduration⟩ := a.config_exec t c
  refine ⟨h.bucketCount.trans hcount.symm, h.bucketDuration.trans hduration.symm,
    fun key' => ?_, fun key' addr' hl => ?_, h.inj⟩
  · by_cases hne : key' = key
    · rw [hne, SharedStore.get_update_self hload, hget, h.get_eq]
    · have hother : s.load key' ≠ some addr := fun hl => hne (h.inj _ _ _ hl hload)
      rw [SharedStore.get_update_of_ne hother, h.get_eq,
        a.get_exec_of_ne t (fun heq => hne (heq.symm.trans hkey))]
  · have hlt := h.addr_lt key' addr' hl
    simpa [SharedStore.update] using hlt

lemma onProfile (h : Represents a s) (hload : s.load key = some addr) (t : ℤ) (c : ProfileCall) :
    Represents (a.exec t (.onProfile key c)) (s.update addr (fun wp => wp.exec t c)) :=
  h.update hload rfl (a.get_onProfile_self t key c)

/-- A method called on the profile of a key that is not stored does nothing. -/
lemma onProfile_of_none (h : Represents a s) (hload : s.load key = none) (t : ℤ)
    (c : ProfileCall) : Represents (a.exec t (.onProfile key c)) s := by
  refine h.of_get_eq ?_
  have hself := a.get_onProfile_self t key c
  rwa [h.get_none hload, Option.map_none, ← h.get_none hload] at hself

lemma mem_nodeLocations_iff (h : Represents a s) (hload : s.load key = some addr)
    {nodeName : String} :
    s.OnNode addr nodeName ↔ ∃ wp, a.get key = some wp ∧ nodeName ∈ wp.nodeLocations := by
  rw [← h.get_eq, SharedStore.get_of_load hload]
  rfl

/-- The visit of a profile that is located on the node. -/
lemma visitNode (h : Represents a s) (hload : s.load key = some addr) {nodeName : String}
    (hnode : s.OnNode addr nodeName) (t : ℤ) :
    Represents (a.exec t (.visitNode nodeName key))
      (s.update addr (fun wp => wp.exec t .computeProfile)) := by
  obtain ⟨wp, hget, hmem⟩ := (h.mem_nodeLocations_iff hload).mp hnode
  apply h.update hload rfl
  rw [a.get_visitNode_self, hget, Option.map_some, Option.map_some, if_pos hmem]

/-- The visit of a profile that is not. -/
lemma visitNode_elsewhere (h : Represents a s) (hload : s.load key = some addr)
    {nodeName : String} (hnode : ¬ s.OnNode addr nodeName) (t : ℤ) :
    Represents (a.exec t (.visitNode nodeName key)) s := by
  refine h.of_get_eq ?_
  have hself := a.get_visitNode_self t nodeName key
  obtain ⟨wp, -, hget⟩ := h.get_some hload
  have hmem : nodeName ∉ wp.nodeLocations := fun hmem =>
    hnode ((h.mem_nodeLocations_iff hload).mpr ⟨wp, hget, hmem⟩)
  rwa [hget, Option.map_some, if_neg hmem, ← hget] at hself

/-! ### What queries return -/

lemma compute_eq (h : Represents a s) (hload : s.load key = some addr) (t : ℤ) :
    s.compute addr t = some (a.queryProfile key t).1 := by
  obtain ⟨wp, hwp, hget⟩ := h.get_some hload
  simp [SharedStore.compute, Store.queryProfile, hwp, hget]

lemma answer_eq (h : Represents a s) (hload : s.load key = some addr) (t : ℤ) (c : ProfileCall) :
    s.answer addr t c = a.result t (.onProfile key c) := by
  cases c with
  | computeProfile => exact h.compute_eq hload t
  | record r nodeName => rfl
  | resetData => rfl

lemma unknown_eq (h : Represents a s) (hload : s.load key = none) (t : ℤ) :
    (a.queryProfile key t).1 = Store.unknownProfile key := by
  rw [Store.queryProfile, h.get_none hload]

lemma compute_eq_visit (h : Represents a s) (hload : s.load key = some addr) {nodeName : String}
    (hnode : s.OnNode addr nodeName) (t : ℤ) :
    s.compute addr t = (a.visitNode nodeName key t).1 := by
  obtain ⟨wp, hwp, hget⟩ := h.get_some hload
  obtain ⟨wp', hget', hmem⟩ := (h.mem_nodeLocations_iff hload).mp hnode
  obtain rfl : wp = wp' := Option.some_inj.mp (hget.symm.trans hget')
  simp [SharedStore.compute, Store.visitNode, hwp, hget, hmem]

lemma visit_elsewhere_eq (h : Represents a s) (hload : s.load key = some addr)
    {nodeName : String} (hnode : ¬ s.OnNode addr nodeName) (t : ℤ) :
    (a.visitNode nodeName key t).1 = none := by
  obtain ⟨wp, -, hget⟩ := h.get_some hload
  have hmem : nodeName ∉ wp.nodeLocations := fun hmem =>
    hnode ((h.mem_nodeLocations_iff hload).mpr ⟨wp, hget, hmem⟩)
  simp [Store.visitNode, hget, hmem]

end Represents

/-! ## What a goroutine holds -/

/-- Nothing stored is replaced, no node is forgotten, and the configuration stays. -/
structure SharedStore.Grows (s s' : SharedStore) : Prop where
  bucketCount : s'.bucketCount = s.bucketCount
  bucketDuration : s'.bucketDuration = s.bucketDuration
  load : ∀ key addr, s.load key = some addr → s'.load key = some addr
  onNode : ∀ addr nodeName, s.OnNode addr nodeName → s'.OnNode addr nodeName

namespace SharedStore.Grows

variable {s : SharedStore}

lemma refl (s : SharedStore) : s.Grows s := ⟨rfl, rfl, fun _ _ h => h, fun _ _ h => h⟩

lemma publish {key : String} (hload : s.load key = none) (wp : WorkloadProfile) :
    s.Grows (s.publish key wp) where
  bucketCount := rfl
  bucketDuration := rfl
  load key' addr h := by
    have hne : key' ≠ key := by
      rintro rfl
      rw [hload] at h
      cases h
    rw [s.load_publish_of_ne hne]
    exact h
  onNode addr nodeName h := by
    obtain ⟨wp', hwp', hmem⟩ := h
    have hlt := (List.getElem?_eq_some_iff.mp hwp').1
    exact ⟨wp', (List.getElem?_append_left hlt).trans hwp', hmem⟩

lemma update (addr : ℕ) (t : ℤ) (c : ProfileCall) :
    s.Grows (s.update addr (fun wp => wp.exec t c)) where
  bucketCount := rfl
  bucketDuration := rfl
  load _ _ h := h
  onNode addr' nodeName h := by
    obtain ⟨wp, hwp, hmem⟩ := h
    by_cases haddr : addr = addr'
    · refine ⟨wp.exec t c, by simp [SharedStore.update, haddr, hwp], ?_⟩
      rw [WorkloadProfile.nodeLocations_exec]
      exact Finset.mem_union_left _ hmem
    · exact ⟨wp, by simp [SharedStore.update, haddr, hwp], hmem⟩

end SharedStore.Grows

/-- What a goroutine relies on at a stage. -/
def ServeStage.Promises (s : SharedStore) : ServeStage → Prop
  | .created key _ wp => ∃ t, wp = newWorkloadProfile key s.bucketCount s.bucketDuration t
  | .located key _ addr | .visiting _ _ _ key addr | .found _ key addr => s.load key = some addr
  | .onNode nodeName _ _ key addr => s.load key = some addr ∧ s.OnNode addr nodeName
  | .next | .missed _ _ | .ranging _ _ _ | .querying _ => True

lemma ServeStage.Promises.mono {s s' : SharedStore} (hgrows : s.Grows s') {stage : ServeStage}
    (h : stage.Promises s) : stage.Promises s' := by
  cases stage with
  | created key c wp =>
      rw [Promises, hgrows.bucketCount, hgrows.bucketDuration]
      exact h
  | located key c addr => exact hgrows.load _ _ h
  | visiting nodeName present visited key addr => exact hgrows.load _ _ h
  | onNode nodeName present visited key addr =>
      exact ⟨hgrows.load _ _ h.1, hgrows.onNode _ _ h.2⟩
  | found keys key addr => exact hgrows.load _ _ h
  | _ => trivial

/-! ## One step -/

/-- The store a step leaves, the promise of the goroutine and what it has computed, when the
sequential store makes the call the step stands for. -/
structure StepRepresents (a : Store) (s s' : SharedStore) (w' : Worker)
    (call : Option (ℤ × StoreCall)) (answer : Option RuntimeProfile) : Prop where
  represents : Represents (timedRun Store.exec a call.toList) s'
  grows : s.Grows s'
  promises : w'.stage.Promises s'
  answer_eq : answer.toList = timedOutputs Store.exec Store.result a call.toList

/-- A step that is no call. -/
lemma StepRepresents.of_silent {a : Store} {s : SharedStore} {w' : Worker} (h : Represents a s)
    (hpromises : w'.stage.Promises s) : StepRepresents a s s w' none none :=
  ⟨h, .refl s, hpromises, rfl⟩

/-- A step that is one call, and returns what the call returns. -/
lemma StepRepresents.of_call {a : Store} {s s' : SharedStore} {w' : Worker} {t : ℤ}
    {c : StoreCall} {answer : Option RuntimeProfile} (h : Represents (a.exec t c) s')
    (hgrows : s.Grows s') (hpromises : w'.stage.Promises s')
    (hanswer : answer = a.result t c) : StepRepresents a s s' w' (some (t, c)) answer := by
  refine ⟨h, hgrows, hpromises, ?_⟩
  rw [hanswer]
  exact (List.append_nil _).symm

/-- **One step.**  A step is the call it stands for, and keeps what the goroutine relies on. -/
lemma Worker.step_represents {a : Store} {s : SharedStore} (h : Represents a s) {w : Worker}
    (hw : w.stage.Promises s) (m : Turn) :
    StepRepresents a s (w.step m s).1 (w.step m s).2 (w.call m s) (w.answer m s) := by
  have hmoves := w.step_moves m s
  generalize (w.step m s).1 = s' at hmoves ⊢
  generalize (w.step m s).2 = w' at hmoves ⊢
  generalize w.call m s = call at hmoves ⊢
  generalize w.answer m s = answer at hmoves ⊢
  cases hmoves with
  | wait => exact .of_silent h hw
  | skip _ _ _ => exact .of_silent h trivial
  | hit _ _ _ hload =>
      exact .of_call (h.getOrCreate_of_load hload m.now) (.refl s) hload rfl
  | miss _ _ _ _ => exact .of_silent h trivial
  | create _ => exact .of_silent h ⟨m.now, rfl⟩
  | @store key c wp s' addr hstage hstore =>
      rw [hstage] at hw
      obtain ⟨t, rfl⟩ := hw
      cases hload : s.load key with
      | some old =>
          rw [SharedStore.loadOrStore_of_some hload] at hstore
          obtain ⟨rfl, rfl⟩ := Prod.mk.inj hstore
          exact .of_call (h.getOrCreate_of_load hload _) (.refl s) hload rfl
      | none =>
          rw [SharedStore.loadOrStore_of_none hload] at hstore
          obtain ⟨rfl, rfl⟩ := Prod.mk.inj hstore
          exact .of_call (h.publish hload t) (.publish hload _) (s.load_publish_self key _) rfl
  | ignore _ => exact .of_silent h trivial
  | @invoke key c addr hstage =>
      rw [hstage] at hw
      refine .of_call (h.onProfile hw m.now c) (.update addr m.now c) trivial ?_
      exact h.answer_eq hw m.now c
  | query _ _ _ => exact .of_silent h trivial
  | range _ _ _ => exact .of_silent h trivial
  | @visit nodeName present visited key addr hstage hnew hload =>
      cases nodeName with
      | none => exact .of_silent h trivial
      | some nodeName => exact .of_silent h hload
  | @endRange nodeName present visited hstage hend =>
      cases nodeName with
      | none => exact .of_silent h trivial
      | some nodeName => exact .of_silent h trivial
  | elsewhere hstage hnode =>
      rw [hstage] at hw
      exact .of_call (h.visitNode_elsewhere hw hnode m.now) (.refl s) trivial
        (h.visit_elsewhere_eq hw hnode m.now).symm
  | onNode hstage hnode =>
      rw [hstage] at hw
      exact .of_silent h ⟨hw, hnode⟩
  | @compute nodeName present visited key addr hstage =>
      rw [hstage] at hw
      exact .of_call (h.visitNode hw.1 hw.2 m.now) (.update addr m.now _) trivial
        (h.compute_eq_visit hw.1 hw.2 m.now)
  | done _ => exact .of_silent h trivial
  | find _ hload => exact .of_silent h hload
  | @unknown key keys hstage hload =>
      refine .of_call (h.onProfile_of_none hload m.now _) (.refl s) trivial ?_
      rw [Store.result, h.unknown_eq hload]
  | @queried keys key addr hstage =>
      rw [hstage] at hw
      exact .of_call (h.onProfile hw m.now _) (.update addr m.now _) trivial
        (h.compute_eq hw m.now)

/-! ## Runs -/

/-- The shared store is the sequential one, and every goroutine has what it relies on. -/
structure Serves (a : Store) (sys : System SharedStore Worker) : Prop where
  represents : Represents a sys.shared
  promises : ∀ w ∈ sys.procs, w.stage.Promises sys.shared

lemma represents_new (bucketCount bucketDuration : ℤ) :
    Represents (newStore bucketCount bucketDuration) (SharedStore.new bucketCount bucketDuration)
    where
  bucketCount := rfl
  bucketDuration := rfl
  get_eq _ := rfl
  addr_lt _ _ h := by cases h
  inj _ _ _ h _ := by cases h

/-- The aggregator as it starts. -/
lemma serves_serviceSystem (bucketCount bucketDuration : ℤ) (requests : List (List Request)) :
    Serves (newStore bucketCount bucketDuration)
      (serviceSystem bucketCount bucketDuration requests) where
  represents := represents_new bucketCount bucketDuration
  promises w hw := by
    obtain ⟨reqs, -, rfl⟩ := List.mem_map.mp hw
    trivial

/-- A step of one goroutine, among the others. -/
lemma Serves.step {a : Store} {sys : System SharedStore Worker} (h : Serves a sys) {i : ℕ}
    {w : Worker} (hi : sys.procs[i]? = some w) (m : Turn) :
    Serves (timedRun Store.exec a (w.call m sys.shared).toList)
        ⟨(w.step m sys.shared).1, sys.procs.set i (w.step m sys.shared).2⟩ ∧
      (w.answer m sys.shared).toList
        = timedOutputs Store.exec Store.result a (w.call m sys.shared).toList := by
  have hw := h.promises w (List.mem_of_getElem? hi)
  obtain ⟨hrepresents, hgrows, hpromises, hanswer⟩ := w.step_represents h.represents hw m
  refine ⟨⟨hrepresents, fun w' hw' => ?_⟩, hanswer⟩
  rcases List.mem_or_eq_of_mem_set hw' with hmem | rfl
  · exact (h.promises w' hmem).mono hgrows
  · exact hpromises

/-- The calls of the sequential store a run of the goroutines amounts to, in the order in which they
take effect. -/
def linearization (sys : System SharedStore Worker) (sched : List (Turn × ℕ)) :
    List (ℤ × StoreCall) :=
  System.trace Worker.step Worker.call sys sched

/-- The profiles the goroutines compute in a run. -/
def answers (sys : System SharedStore Worker) (sched : List (Turn × ℕ)) : List RuntimeProfile :=
  System.trace Worker.step Worker.answer sys sched

/-- The aggregator after a run. -/
def serve (sys : System SharedStore Worker) (sched : List (Turn × ℕ)) :
    System SharedStore Worker :=
  timedRun (System.exec Worker.step) sys sched

lemma serve_append (sys : System SharedStore Worker) (sched sched' : List (Turn × ℕ)) :
    serve sys (sched ++ sched') = serve (serve sys sched) sched' := timedRun_append _ _ _ _

lemma Serves.run {a : Store} {sys : System SharedStore Worker} (h : Serves a sys)
    (sched : List (Turn × ℕ)) :
    Serves (a.run (linearization sys sched)) (serve sys sched) ∧
      answers sys sched = timedOutputs Store.exec Store.result a (linearization sys sched) :=
  System.linearizes (fun m _ _ _ _ hi hserves => hserves.step hi m) h sched

/-- **The aggregator is linearizable.**  However many goroutines serve telemetry streams, queries
and the HTTP handlers, and however their steps interleave, there is one run of the sequential store
whose calls take effect at steps of the goroutines that make them: it ends with the same profile
under every key, and its queries return the profiles the goroutines compute, in that order. -/
theorem aggregator_linearizable (bucketCount bucketDuration : ℤ) (requests : List (List Request))
    (sched : List (Turn × ℕ)) :
    let sys := serviceSystem bucketCount bucketDuration requests
    let calls := linearization sys sched
    (∀ key, (serve sys sched).shared.get key
        = ((newStore bucketCount bucketDuration).run calls).get key) ∧
      answers sys sched
        = timedOutputs Store.exec Store.result (newStore bucketCount bucketDuration) calls := by
  intro sys calls
  obtain ⟨hserves, hanswers⟩ := (serves_serviceSystem bucketCount bucketDuration requests).run sched
  exact ⟨hserves.represents.get_eq, hanswers⟩

end Akil
