import Akil.Construction.Aggregator.ClusterScaling

/-!
# The rule of the autoscaler

`decide` walks over its keys, queries each profile, returns at the first hot one and otherwise
remembers whether all were nominal.  `Autoscaler.pressure` states the same rule without a loop, on
the list of profiles the walk reads (`Autoscaler.readings`), and `Autoscaler.decide_eq` says that
`decide` follows it, as does the rule of the cluster's autoscaler on the answers it gets
(`Autoscaler.decideOn_eq`).

Two consequences.  At one clock reading a query does not change what another returns, so the
readings are the profiles of the keys, and the rule sees them only through "some key" and "every
key": neither order nor repetition matters (`decide_depends_on_keySet`).  And the cap at
`maxReplicas` is below the ten replicas `POST /api/scale` admits, so a hot workload takes replicas
away from a deployment above the cap (`decide_direction_iff`).
-/

namespace Akil.Autoscaler

/-! ## What the walk reads -/

/-- The profiles the queries of `decide` return, were none of the keys to end the walk. -/
def readings : List (String × ℤ) → Store → List (String × RuntimeProfile)
  | [], _ => []
  | (k, now) :: keys, s =>
      (k, (s.queryProfile k now).1) :: readings keys (s.queryProfile k now).2

/-- At one clock reading, the profiles of the keys. -/
lemma readings_sameTime (keys : List String) (now : ℤ) (s : Store) :
    readings (keys.map (fun k => (k, now))) s
      = keys.map (fun k => (k, (s.queryProfile k now).1)) := by
  -- Every store along the walk answers as the first one does.
  have hwalk : ∀ (keys : List String) (s' : Store),
      (∀ k, (s'.queryProfile k now).1 = (s.queryProfile k now).1) →
      readings (keys.map (fun k => (k, now))) s'
        = keys.map (fun k => (k, (s.queryProfile k now).1)) := by
    intro keys
    induction keys with
    | nil => exact fun _ _ => rfl
    | cons key keys ih =>
        intro s' hs'
        have hnext : ∀ k, ((s'.queryProfile key now).2.queryProfile k now).1
            = (s.queryProfile k now).1 :=
          fun k => (s'.queryProfile_queryProfile key k now).trans (hs' k)
        rw [List.map_cons, List.map_cons, readings, ih _ hnext, hs' key]
  exact hwalk keys s (fun _ => rfl)

/-- A workload is hot: one of the rates of the `switch` is above its bound. -/
def Hot (prof : RuntimeProfile) : Prop :=
  prof.contextSwitchRate > 100 ∨ prof.pageFaultRate > 5000 ∨ prof.cacheMissRate > 1000

instance (prof : RuntimeProfile) : Decidable (Hot prof) :=
  inferInstanceAs (Decidable (_ ∨ _ ∨ _))

lemma hotReason_eq_none {k : String} {prof : RuntimeProfile} :
    hotReason k prof = none ↔ ¬ Hot prof := by
  unfold hotReason Hot
  split_ifs with hcs hpf hcm <;> simp [*]

lemma hot_of_hotReason {k reason : String} {prof : RuntimeProfile}
    (h : hotReason k prof = some reason) : Hot prof := by
  by_contra hcool
  rw [hotReason_eq_none.mpr hcool] at h
  contradiction

/-! ## The rule without the loop -/

/-- What the profiles ask for. -/
inductive Pressure
  | hot (reason : String)
  | nominal
  | neither
  deriving DecidableEq

/-- The first hot profile gives the reason; without one, a list that is not empty is nominal if
all its profiles are. -/
def pressure (rs : List (String × RuntimeProfile)) : Pressure :=
  match rs.findSome? (fun r => hotReason r.1 r.2) with
  | some reason => .hot reason
  | none => if rs ≠ [] ∧ ∀ r ∈ rs, Nominal r.2 then .nominal else .neither

/-- The new count and the reason for a pressure. -/
def respond (current : Int32) : Pressure → Int32 × String
  | .hot reason => (min (current + 1) maxReplicas, reason)
  | .nominal =>
      if current > 1 then
        (current - 1, "All workload metrics nominal. Scaling DOWN to conserve resources.")
      else (current, "")
  | .neither => (current, "")

lemma answersLoop_eq (current : Int32) (rs : List (String × RuntimeProfile)) (allNominal : Bool) :
    answersLoop current rs allNominal
      = match rs.findSome? (fun r => hotReason r.1 r.2) with
        | some reason => (min (current + 1) maxReplicas, reason)
        | none =>
            if (allNominal = true ∧ ∀ r ∈ rs, Nominal r.2) ∧ current > 1 then
              (current - 1, "All workload metrics nominal. Scaling DOWN to conserve resources.")
            else (current, "") := by
  induction rs generalizing allNominal with
  | nil =>
      simp only [answersLoop, List.findSome?_nil, List.not_mem_nil, false_implies, implies_true,
        and_true]
  | cons r rs ih =>
      obtain ⟨k, prof⟩ := r
      simp only [answersLoop, List.findSome?_cons]
      cases hhot : hotReason k prof with
      | some reason => rfl
      | none =>
          simp only [ih, List.forall_mem_cons]
          by_cases hnom : Nominal prof
          · simp only [hnom, if_true, true_and]
          · simp only [hnom, if_false, Bool.false_eq_true, false_and, and_false]

/-- The rule on answers. -/
lemma decideOn_eq (rs : List (String × RuntimeProfile)) (current : Int32) :
    decideOn rs current = respond current (pressure rs) := by
  unfold decideOn pressure
  by_cases hnil : rs = []
  · subst hnil
    simp [respond]
  · rw [if_neg hnil, answersLoop_eq]
    cases rs.findSome? (fun r => hotReason r.1 r.2) with
    | some reason => rfl
    | none =>
        by_cases hnom : ∀ r ∈ rs, Nominal r.2
        · simp only [hnil, eq_true hnom, ne_eq, not_false_eq_true, and_true, true_and, if_true,
            respond]
        · simp only [eq_false hnom, and_false, false_and, if_false, respond]

lemma answersLoop_readings (current : Int32) (keys : List (String × ℤ)) (allNominal : Bool)
    (s : Store) :
    (decideLoop current keys allNominal s).1
      = answersLoop current (readings keys s) allNominal := by
  induction keys generalizing allNominal s with
  | nil =>
      simp only [decideLoop, readings, answersLoop]
      split_ifs <;> rfl
  | cons key keys ih =>
      obtain ⟨k, now⟩ := key
      simp only [decideLoop, readings, answersLoop]
      cases hotReason k (s.queryProfile k now).1 with
      | some reason => rfl
      | none => exact ih _ _

/-- On a store of its own, `decide` is the rule on what it reads there. -/
lemma decide_eq_decideOn (s : Store) (keys : List (String × ℤ)) (current : Int32) :
    (decide s keys current).1 = decideOn (readings keys s) current := by
  cases keys with
  | nil => rfl
  | cons key keys =>
      rw [decide, if_neg (List.cons_ne_nil _ _), decideOn,
        if_neg (by rw [readings]; exact List.cons_ne_nil _ _), answersLoop_readings]

/-- `decide` follows the rule on what it reads. -/
lemma decide_eq (s : Store) (keys : List (String × ℤ)) (current : Int32) :
    (decide s keys current).1 = respond current (pressure (readings keys s)) :=
  (decide_eq_decideOn s keys current).trans (decideOn_eq _ current)

/-- `pressure` by what the profiles are. -/
lemma pressure_cases (rs : List (String × RuntimeProfile)) :
    (∃ r ∈ rs, Hot r.2 ∧ ∃ reason, hotReason r.1 r.2 = some reason ∧ pressure rs = .hot reason) ∨
      ((¬ ∃ r ∈ rs, Hot r.2) ∧ pressure rs
        = if rs ≠ [] ∧ ∀ r ∈ rs, Nominal r.2 then .nominal else .neither) := by
  unfold pressure
  cases hfind : rs.findSome? (fun r => hotReason r.1 r.2) with
  | some reason =>
      obtain ⟨r, hr, hreason⟩ := List.exists_of_findSome?_eq_some hfind
      exact Or.inl ⟨r, hr, hot_of_hotReason hreason, reason, hreason, rfl⟩
  | none =>
      refine Or.inr ⟨?_, rfl⟩
      rintro ⟨r, hr, hhot⟩
      exact hotReason_eq_none.mp (List.findSome?_eq_none_iff.mp hfind r hr) hhot

/-! ## Order and repetition -/

/-- The count `respond` returns, case by case. -/
lemma respond_pressure_count (current : Int32) (rs : List (String × RuntimeProfile)) :
    (respond current (pressure rs)).1
      = if ∃ r ∈ rs, Hot r.2 then min (current + 1) maxReplicas
        else if rs ≠ [] ∧ (∀ r ∈ rs, Nominal r.2) ∧ current > 1 then current - 1
        else current := by
  rcases pressure_cases rs with ⟨r, hr, hhot, reason, -, hpressure⟩ | ⟨hcool, hpressure⟩
  · rw [hpressure, if_pos ⟨r, hr, hhot⟩, respond]
  · rw [hpressure, if_neg hcool]
    by_cases hnom : rs ≠ [] ∧ ∀ r ∈ rs, Nominal r.2
    · rw [if_pos hnom, respond]
      by_cases hone : current > 1
      · rw [if_pos hone, if_pos ⟨hnom.1, hnom.2, hone⟩]
      · rw [if_neg hone, if_neg (fun h => hone h.2.2)]
    · rw [if_neg hnom, respond, if_neg (fun h => hnom ⟨h.1, h.2.1⟩)]

/-- As integers, one up and the cap. -/
lemma toInt_capped {current : Int32} (h : current.toInt + 1 < 2 ^ 31) :
    (min (current + 1) maxReplicas).toInt = min (current.toInt + 1) 6 := by
  rw [int32_toInt_min, int32_toInt_add_one h]
  rfl

/-- **`decide` sees the set of workloads.**  At one clock reading, two key lists with the same
keys, in whatever order and however often each is listed, give the same replica count: one more,
up to six, if any key is hot; one fewer if the list is not empty, no key is hot, all are nominal
and there is more than one replica; and the current count otherwise.  Keys the store does not hold
read as nominal.  The sum is that of `int32`, and the integer one below the largest `int32`. -/
theorem decide_depends_on_keySet (s : Store) (now : ℤ) (current : Int32) (keys keys' : List String)
    (h : ∀ k, k ∈ keys ↔ k ∈ keys') :
    let count := fun keys : List String => (decide s (keys.map (fun k => (k, now))) current).1.1
    let prof := fun k : String => (s.queryProfile k now).1
    count keys = count keys' ∧
      (count keys
        = if ∃ k ∈ keys, Hot (prof k) then min (current + 1) 6
          else if keys ≠ [] ∧ (∀ k ∈ keys, Nominal (prof k)) ∧ current > 1 then current - 1
          else current) ∧
      (current.toInt + 1 < 2 ^ 31 → (min (current + 1) 6 : Int32).toInt
        = min (current.toInt + 1) 6) := by
  intro count prof
  have hcount : ∀ keys : List String, count keys
      = if ∃ k ∈ keys, Hot (prof k) then min (current + 1) 6
        else if keys ≠ [] ∧ (∀ k ∈ keys, Nominal (prof k)) ∧ current > 1 then current - 1
        else current := by
    intro keys
    simp only [count, decide_eq, readings_sameTime, respond_pressure_count]
    exact if_congr (by simp [prof]) rfl (if_congr (by simp [prof]) rfl rfl)
  have hnil : keys = [] ↔ keys' = [] := by
    simp only [List.eq_nil_iff_forall_not_mem, h]
  refine ⟨?_, hcount keys, toInt_capped⟩
  rw [hcount, hcount]
  exact if_congr (by simp only [h]) rfl (if_congr (by simp only [h, hnil, ne_eq]) rfl rfl)

/-- A store with one workload, at 500 context switches per second. -/
def hotStore : Store :=
  (newStore 1 (10 ^ 9)).run
    [(0, .getOrCreate "a"), (0, .onProfile "a" (.record (.bulk 0 0 500 0) "n"))]

/-- The hot key listed twice after a key nobody has, and listed once before it: one replica more
both times. -/
theorem decide_depends_on_keySet_hot :
    (decide hotStore [("b", 0), ("a", 0), ("a", 0)] 3).1.1
        = (decide hotStore [("a", 0), ("b", 0)] 3).1.1 ∧
      (decide hotStore [("b", 0), ("a", 0), ("a", 0)] 3).1.1 = 4 := by
  have hsame : ∀ k, k ∈ ["b", "a", "a"] ↔ k ∈ ["a", "b"] := by
    intro k
    simp only [List.mem_cons, List.not_mem_nil, or_false, or_self]
    exact or_comm
  exact ⟨(decide_depends_on_keySet hotStore 0 3 _ _ hsame).1, by decide +kernel⟩

/-! ## The direction of a step -/

/-- The count a walk of `decide` returns moves in the direction it announces: up by at most one
if a key is hot, down by at most one otherwise, never below one; a hot workload loses no replicas,
and the reason of a hot key is not logged as a step down. -/
structure Announced (s : Store) (keys : List (String × ℤ)) (current : Int32) : Prop where
  hot : (∃ r ∈ readings keys s, Hot r.2) →
    (decide s keys current).1.1 = current ∨ (decide s keys current).1.1 = current + 1
  cool : (¬ ∃ r ∈ readings keys s, Hot r.2) →
    (decide s keys current).1.1 = current ∨ (decide s keys current).1.1 = current - 1
  pos : 1 ≤ (decide s keys current).1.1
  keeps : (∃ r ∈ readings keys s, Hot r.2) → current ≤ (decide s keys current).1.1
  logged : ∀ r ∈ readings keys s, hotReason r.1 r.2 = some (decide s keys current).1.2 →
    (decide s keys current).1.1 ≠ current → ∀ (v : AutoscalerVars) (now : ℤ),
      ∀ entry ∈ (v.logScaling current (decide s keys current).1.1
        (decide s keys current).1.2 now).scalingLogs.getLast?, entry.action = .scaleUp

/-- The entry `logScaling` writes is the last one of the log. -/
lemma getLast?_logScaling (old n : Int32) (reason : String) (now : ℤ) (v : AutoscalerVars) :
    (v.logScaling old n reason now).scalingLogs.getLast?
      = some ⟨now, if n > old then .scaleUp else .scaleDown, reason, n⟩ := by
  unfold AutoscalerVars.logScaling
  generalize (⟨now, if n > old then .scaleUp else .scaleDown, reason, n⟩ : ScalingLog) = entry
  dsimp only
  split_ifs with hlong
  · have hne : v.scalingLogs ≠ [] := by
      rintro hnil
      rw [hnil] at hlong
      simp at hlong
    rw [List.tail_append_of_ne_nil hne]
    simp
  · simp

/-- A hot key: one up, capped. -/
lemma decide_of_hot {s : Store} {keys : List (String × ℤ)} (current : Int32)
    (h : ∃ r ∈ readings keys s, Hot r.2) :
    (decide s keys current).1.1 = min (current + 1) maxReplicas := by
  rw [decide_eq, respond_pressure_count, if_pos h]

/-- No hot key: one down, or none. -/
lemma decide_of_cool {s : Store} {keys : List (String × ℤ)} (current : Int32)
    (h : ¬ ∃ r ∈ readings keys s, Hot r.2) :
    (decide s keys current).1.1 = current ∨
      (decide s keys current).1.1 = current - 1 ∧ current > 1 := by
  rw [decide_eq, respond_pressure_count, if_neg h]
  split_ifs with hdown
  · exact Or.inr ⟨rfl, hdown.2.2⟩
  · exact Or.inl rfl

/-- Within the cap a hot key moves the count as announced. -/
lemma announced_of_hot {s : Store} {keys : List (String × ℤ)} {current : Int32}
    (hlow : 1 ≤ current.toInt) (hcur : current.toInt ≤ 6)
    (hhot : ∃ r ∈ readings keys s, Hot r.2) : Announced s keys current := by
  have hn := decide_of_hot current hhot
  have hsucc : (current + 1).toInt = current.toInt + 1 := int32_toInt_add_one (by omega)
  have hcap : (min (current + 1) maxReplicas).toInt = min (current.toInt + 1) 6 :=
    toInt_capped (by omega)
  have hle : current.toInt ≤ (decide s keys current).1.1.toInt := by
    rw [hn]
    omega
  refine ⟨fun _ => ?_, fun hcool => absurd hhot hcool, ?_,
    fun _ => Int32.le_iff_toInt_le.mpr hle, ?_⟩
  · rw [hn, ← Int32.toInt_inj, ← Int32.toInt_inj]
    omega
  · refine Int32.le_iff_toInt_le.mpr ?_
    rw [Int32.toInt_one]
    omega
  · intro r _ _ hne v now entry hentry
    rw [getLast?_logScaling] at hentry
    obtain rfl := Option.mem_some_iff.mp hentry
    refine if_pos (Int32.lt_iff_toInt_lt.mpr (lt_of_le_of_ne hle ?_))
    exact fun heq => hne (Int32.toInt_inj.mp heq.symm)

/-- Without a hot key the count moves as announced, wherever it is. -/
lemma announced_of_cool {s : Store} {keys : List (String × ℤ)} {current : Int32}
    (hlow : 1 ≤ current) (hcool : ¬ ∃ r ∈ readings keys s, Hot r.2) :
    Announced s keys current := by
  rcases decide_of_cool current hcool with hstay | ⟨hdown, hone⟩
  · refine ⟨fun h => absurd h hcool, fun _ => Or.inl hstay, ?_, fun h => absurd h hcool,
      fun r _ _ hne => absurd hstay hne⟩
    rw [hstay]
    exact hlow
  · have hone' : 1 < current.toInt := Int32.lt_iff_toInt_lt.mp hone
    refine ⟨fun h => absurd h hcool, fun _ => Or.inr hdown, ?_, fun h => absurd h hcool, ?_⟩
    · rw [hdown]
      refine Int32.le_iff_toInt_le.mpr ?_
      rw [int32_toInt_sub_one (by omega), Int32.toInt_one]
      omega
    · intro r hr hreason
      exact absurd ⟨r, hr, hot_of_hotReason hreason⟩ hcool

/-- **The direction of the autoscaler.**  For every store, every walk over keys and every replica
count that `POST /api/scale` admits, the new count moves as announced exactly when no key is hot
or the current count is within the autoscaler's own cap of six. -/
theorem decide_direction_iff (s : Store) (keys : List (String × ℤ)) (current : Int32)
    (hlow : 1 ≤ current) (hhigh : current ≤ 10) :
    Announced s keys current ↔ ((∃ r ∈ readings keys s, Hot r.2) → current ≤ 6) := by
  have hc₁ : 1 ≤ current.toInt := Int32.le_iff_toInt_le.mp hlow
  have hc₂ : current.toInt ≤ 10 := Int32.le_iff_toInt_le.mp hhigh
  have hsix : current ≤ 6 ↔ current.toInt ≤ 6 := Int32.le_iff_toInt_le
  constructor
  · intro h hhot
    -- The capped count is not below the current one.
    have hkeeps := Int32.le_iff_toInt_le.mp (h.keeps hhot)
    rw [decide_of_hot current hhot, toInt_capped (by omega)] at hkeeps
    exact hsix.mpr (hkeeps.trans (min_le_right _ _))
  · intro h
    by_cases hhot : ∃ r ∈ readings keys s, Hot r.2
    · exact announced_of_hot hc₁ (hsix.mp (h hhot)) hhot
    · exact announced_of_cool hlow hhot

/-- Within the cap, a hot workload gains a replica. -/
theorem decide_direction_iff_within :
    Announced hotStore [("a", 0)] 3 ∧ (decide hotStore [("a", 0)] 3).1.1 = 4 :=
  ⟨(decide_direction_iff hotStore [("a", 0)] 3 (by decide) (by decide)).mpr (fun _ => by decide),
    by decide +kernel⟩

/-- Above the cap, a hot workload loses two: with eight replicas the reason says that `decide`
scales up, the count it returns is six, and the log calls it a step down. -/
theorem decide_hot_above_cap :
    (decide hotStore [("a", 0)] 8).1 = (6, "High Context Switch Rate detected (>100/s) for a. "
        ++ "Scaling UP to relieve CPU contention.") ∧
      ((AutoscalerVars.logScaling 8 (decide hotStore [("a", 0)] 8).1.1
        (decide hotStore [("a", 0)] 8).1.2 0 ⟨true, [], 8⟩).scalingLogs.map ScalingLog.action
          = [.scaleDown]) ∧
      ¬ Announced hotStore [("a", 0)] 8 := by
  have hcount : (decide hotStore [("a", 0)] 8).1.1 = 6 := by decide +kernel
  have hhot : ∃ r ∈ readings [("a", 0)] hotStore, Hot r.2 := by decide +kernel
  refine ⟨by decide +kernel, by decide +kernel, fun h => ?_⟩
  have hkeeps := h.keeps hhot
  rw [hcount] at hkeeps
  exact absurd hkeeps (by decide)

end Akil.Autoscaler
