import Akil.Properties.ContainerAttribution

/-!
# Container IDs in and out of cgroup paths

`parseContainerID` tries three formats in turn.  Which of them a path is in is decided by its last
component alone, and a hexadecimal ID cannot be mistaken for any of the text around it: it has no
slash, no dash, no dot and no `r`.  So each format gives back the ID it was made from, whatever
directory it stands in, and whatever the runtime puts before the dash
(`parseContainerID_recovers`).

The other way round, an ID the parser returns can be read off the path: it is part of it
(`infix_of_parseContainerID`).
-/

namespace Akil.Telemetry

/-! ## Hexadecimal text -/

/-- Hexadecimal text contains hexadecimal digits only. -/
lemma notMem_of_isHex {s : List Char} (h : isHex s = true) {c : Char}
    (hc : isHexDigit c = false) : c ∉ s := by
  intro hmem
  have hdigit := List.all_eq_true.mp h c hmem
  rw [hc] at hdigit
  contradiction

/-- Each of its characters takes one byte. -/
lemma utf8ByteSize_of_isHex {s : String} (h : isHex s.toList = true) :
    s.utf8ByteSize = s.length := by
  have hone : ∀ c ∈ s.toList, c.utf8Size = 1 := by
    intro c hc
    have hdigit := List.all_eq_true.mp h c hc
    have hle : c ≤ 'f' := by
      simp only [isHexDigit, Bool.or_eq_true, Bool.and_eq_true, decide_eq_true_eq] at hdigit
      rcases hdigit with (⟨-, hle⟩ | ⟨-, hle⟩) | ⟨-, hle⟩
      · exact le_trans hle (by decide : '9' ≤ 'f')
      · exact hle
      · exact le_trans hle (by decide : 'F' ≤ 'f')
    have hval : c.val ≤ 102 := hle
    rw [Char.utf8Size_eq_one_iff]
    exact UInt32.le_trans hval (by decide)
  have hlen : ∀ cs : List Char, (∀ c ∈ cs, c.utf8Size = 1) → String.utf8Len cs = cs.length := by
    intro cs hcs
    induction cs with
    | nil => rfl
    | cons c cs ih =>
        rw [String.utf8Len_cons, ih (fun c' hc' => hcs c' (List.mem_cons_of_mem _ hc')),
          hcs c List.mem_cons_self, List.length_cons]
  rw [← String.ofList_toList (s := s), String.utf8ByteSize_ofList, hlen _ hone,
    String.ofList_toList, String.length_toList]

/-! ## The three formats -/

variable {cgroupPath id : String} {last : List Char}

/-- CRI-O's format is tried first and takes whatever stands between. -/
lemma parseContainerID_crio
    (hlast : (cgroupPath.toList.splitOn '/').getLast?
      = some ("crio-".toList ++ id.toList ++ ".scope".toList)) :
    parseContainerID cgroupPath = .ok id := by
  have hstart : "crio-".toList.isPrefixOf
      ("crio-".toList ++ id.toList ++ ".scope".toList) = true := by
    rw [List.isPrefixOf_iff_prefix, List.append_assoc]
    exact List.prefix_append _ _
  have hend : ".scope".toList.isSuffixOf
      ("crio-".toList ++ id.toList ++ ".scope".toList) = true := by
    rw [List.isSuffixOf_iff_suffix]
    exact List.suffix_append _ _
  rw [parseContainerID, hlast]
  dsimp only
  rw [if_pos ⟨hstart, hend⟩, List.append_assoc, trimStart_append, trimEnd_append,
    String.ofList_toList]

/-- A bare ID of sixty-four digits has no `crio-` before it. -/
lemma parseContainerID_bare (hhex : isHex id.toList = true) (hlen : id.length = 64)
    (hlast : (cgroupPath.toList.splitOn '/').getLast? = some id.toList) :
    parseContainerID cgroupPath = .ok id := by
  have hstart : ¬ "crio-".toList.isPrefixOf id.toList = true := by
    rw [List.isPrefixOf_iff_prefix]
    intro hstart
    exact notMem_of_isHex hhex (c := 'r') (by decide) (hstart.subset (by decide))
  have hsize : (String.ofList id.toList).utf8ByteSize = 64 := by
    rw [String.ofList_toList, utf8ByteSize_of_isHex hhex, hlen]
  rw [parseContainerID, hlast]
  dsimp only
  rw [if_neg (fun h => hstart h.1), if_pos ⟨hsize, hhex⟩, String.ofList_toList]

/-- The scope of another runtime: the ID follows the last dash. -/
lemma parseContainerID_scoped {p : List Char} (hhex : isHex id.toList = true)
    (hlen : 12 ≤ id.length) (hp : ¬ "crio-".toList <+: p ++ '-' :: id.toList ++ ".scope".toList)
    (hlast : (cgroupPath.toList.splitOn '/').getLast?
      = some (p ++ '-' :: id.toList ++ ".scope".toList)) :
    parseContainerID cgroupPath = .ok id := by
  have hnotHex : ¬ isHex (p ++ '-' :: id.toList ++ ".scope".toList) = true := by
    intro h
    exact notMem_of_isHex h (c := '-') (by decide) (by simp)
  have hend : ".scope".toList.isSuffixOf (p ++ '-' :: id.toList ++ ".scope".toList) = true := by
    rw [List.isSuffixOf_iff_suffix]
    exact List.suffix_append _ _
  have hdash : lastIndex '-' (p ++ '-' :: id.toList) = some p.length :=
    lastIndex_append_cons p (notMem_of_isHex hhex (by decide))
  have hdrop : (p ++ '-' :: id.toList).drop (p.length + 1) = id.toList := by simp
  have hid : scopedID (p ++ '-' :: id.toList ++ ".scope".toList) = some id.toList := by
    rw [scopedID, if_pos hend, trimEnd_append]
    dsimp only
    rw [hdash]
    dsimp only
    rw [hdrop, String.ofList_toList, utf8ByteSize_of_isHex hhex, if_pos ⟨hlen, hhex⟩]
  rw [parseContainerID, hlast]
  dsimp only
  rw [if_neg (fun h => hp (List.isPrefixOf_iff_prefix.mp h.1)), if_neg (fun h => hnotHex h.2), hid]
  dsimp only
  rw [String.ofList_toList]

/-- A runtime prefix that does not itself begin with `crio-` makes a CRI-O path only if it is
`crio`. -/
lemma eq_crio_of_isPrefixOf {p rest : List Char} (hp : ¬ "crio-".toList <+: p)
    (h : "crio-".toList <+: p ++ '-' :: rest) : p = "crio".toList := by
  obtain ⟨t, ht⟩ := h
  rcases List.append_eq_append_iff.mp ht with ⟨c, rfl, -⟩ | ⟨c, hc, hrest⟩
  · exact absurd (List.prefix_append _ _) hp
  · cases c with
    | nil =>
        rw [List.append_nil] at hc
        exact absurd (hc ▸ List.prefix_refl _) hp
    | cons x c =>
        obtain rfl : '-' = x := (List.cons.inj hrest).1
        have hcut : "crio".toList ++ '-' :: [] = p ++ '-' :: c := hc
        exact ((List.append_cons_inj_of_notMem (by decide) List.not_mem_nil).mp hcut).1.symm

/-- **The ID comes back.**  For every directory and every hexadecimal ID: sixty-four digits alone,
any digits in CRI-O's scope, and twelve or more in the scope of a runtime whose prefix has no slash
and does not begin with `crio-`, dashes and dots allowed. -/
theorem parseContainerID_recovers (dir id : String) (hhex : isHex id.toList = true) :
    (id.length = 64 → parseContainerID (dir ++ "/" ++ id) = .ok id) ∧
      parseContainerID (dir ++ "/crio-" ++ id ++ ".scope") = .ok id ∧
      ∀ p : String, '/' ∉ p.toList → ¬ "crio-".toList <+: p.toList → 12 ≤ id.length →
        parseContainerID (dir ++ "/" ++ p ++ "-" ++ id ++ ".scope") = .ok id := by
  have hslash : '/' ∉ id.toList := notMem_of_isHex hhex (by decide)
  have hscope : '/' ∉ ".scope".toList := by decide
  refine ⟨fun hlen => ?_, ?_, fun p hp hcrio hlen => ?_⟩
  · refine parseContainerID_bare hhex hlen ?_
    have hpath : (dir ++ "/" ++ id).toList = dir.toList ++ '/' :: id.toList := by simp
    rw [hpath]
    exact getLast?_splitOn_append_cons _ hslash
  · refine parseContainerID_crio ?_
    have hpath : (dir ++ "/crio-" ++ id ++ ".scope").toList
        = dir.toList ++ '/' :: ("crio-".toList ++ id.toList ++ ".scope".toList) := by simp
    rw [hpath]
    refine getLast?_splitOn_append_cons _ ?_
    simp [hslash]
  · have hlast : ((dir ++ "/" ++ p ++ "-" ++ id ++ ".scope").toList.splitOn '/').getLast?
        = some (p.toList ++ '-' :: id.toList ++ ".scope".toList) := by
      have hpath : (dir ++ "/" ++ p ++ "-" ++ id ++ ".scope").toList
          = dir.toList ++ '/' :: (p.toList ++ '-' :: id.toList ++ ".scope".toList) := by simp
      rw [hpath]
      refine getLast?_splitOn_append_cons _ ?_
      simp [hslash, hp]
    by_cases hstart : "crio-".toList <+: p.toList ++ '-' :: id.toList ++ ".scope".toList
    · -- the prefix is `crio`, and CRI-O's format reads the same ID
      rw [List.append_assoc, List.cons_append] at hstart
      rw [eq_crio_of_isPrefixOf hcrio hstart] at hlast
      refine parseContainerID_crio (hlast.trans ?_)
      simp
    · exact parseContainerID_scoped hhex hlen hstart hlast

/-- A scope of containerd under a directory with dashes, and one of CRI-O. -/
theorem parseContainerID_recovers_scopes :
    parseContainerID "/kubepods.slice/kubepods-pod1.slice/cri-containerd-0123456789ab.scope"
        = .ok "0123456789ab" ∧
      parseContainerID "/kubepods.slice/crio-0123456789ab.scope" = .ok "0123456789ab" := by
  have h := parseContainerID_recovers "/kubepods.slice/kubepods-pod1.slice" "0123456789ab"
    (by decide)
  have h' := parseContainerID_recovers "/kubepods.slice" "0123456789ab" (by decide)
  exact ⟨h.2.2 "cri-containerd" (by decide) (by decide) (by decide), h'.2.1⟩

/-! ## Reading an ID off the path -/

lemma trimStart_isSuffix (start s : List Char) : trimStart start s <:+ s := by
  rw [trimStart]
  cases hdrop : s.dropPrefix? start with
  | none => exact List.suffix_refl s
  | some rest =>
      obtain ⟨p, hsplit, -⟩ := List.dropPrefix?_eq_some_iff.mp hdrop
      exact ⟨p, hsplit.symm⟩

lemma trimEnd_isPrefix (ending s : List Char) : trimEnd ending s <+: s := by
  rw [trimEnd]
  cases hdrop : s.dropSuffix? ending with
  | none => exact List.prefix_refl s
  | some rest =>
      obtain ⟨t, hsplit, -⟩ := List.dropSuffix?_eq_some_iff.mp hdrop
      exact ⟨t, hsplit.symm⟩

lemma infix_of_scopedID {candidate : List Char} (h : scopedID last = some candidate) :
    candidate <:+: last := by
  unfold scopedID at h
  dsimp only at h
  split_ifs at h with hscope
  split at h
  · split_ifs at h with hcandidate
    obtain rfl := Option.some.inj h
    exact (List.drop_suffix _ _).isInfix.trans (trimEnd_isPrefix _ _).isInfix
  · cases h

/-- What the parser returns is part of the path's last component, and so of the path. -/
lemma infix_of_parseContainerID (h : parseContainerID cgroupPath = .ok id) :
    id.toList <:+: cgroupPath.toList := by
  unfold parseContainerID at h
  dsimp only at h
  cases hlast : (cgroupPath.toList.splitOn '/').getLast? with
  | none =>
      rw [hlast] at h
      cases h
  | some last =>
      rw [hlast] at h
      refine List.IsInfix.trans ?_ (suffix_of_getLast?_splitOn hlast).isInfix
      dsimp only at h
      split_ifs at h
      · obtain rfl := Except.ok.inj h
        rw [String.toList_ofList]
        exact (trimEnd_isPrefix _ _).isInfix.trans (trimStart_isSuffix _ _).isInfix
      · obtain rfl := Except.ok.inj h
        rw [String.toList_ofList]
      · cases hscoped : scopedID last with
        | none =>
            rw [hscoped] at h
            cases h
        | some candidate =>
            rw [hscoped] at h
            obtain rfl := Except.ok.inj h
            rw [String.toList_ofList]
            exact infix_of_scopedID hscoped

end Akil.Telemetry
