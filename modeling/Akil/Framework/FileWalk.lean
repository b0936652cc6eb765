import Mathlib.Data.List.Induction

/-!
# Walking a file tree

`FileTree.walk` is Go's `filepath.Walk`: it visits a tree in pre-order, the entries of a directory
in the order of the list, which is the lexical order of their names.  The visitor may skip: at a
directory that skips its contents, at a file the rest of the directory it is in.

A visitor that skips the directories it is looking for prunes the walk.  It sees exactly the
*outermost* of them, those that lie in no other one, in pre-order (`walk_prune`).

A visitor may also end the whole walk, with `filepath.SkipAll`.  `FileTree.search` is the walk with
such a visitor, which does not skip otherwise; if all it does is to end the walk at what it is
looking for, it sees the first of it (`search_find`).
-/

namespace Akil

/-- A file or a directory, with its name. -/
inductive FileTree
  | file (name : String)
  | dir (name : String) (entries : List FileTree)

namespace FileTree

variable {σ : Type*}

/-- The name of an entry. -/
def name : FileTree → String
  | file name => name
  | dir name _ => name

/-- Whether it is a directory. -/
def isDir : FileTree → Bool
  | file _ => false
  | dir _ _ => true

/-! ## The walk -/

mutual

/-- What a walk leaves, and whether it ends with a skip.  The visitor is given the path and whether
it is that of a directory. -/
def walk (visit : String → Bool → σ → σ × Bool) (path : String) : FileTree → σ → σ × Bool
  | file _, s => visit path false s
  | dir _ entries, s =>
      match visit path true s with
      | (s, true) => (s, true)
      | (s, false) => walkEntries visit path entries s

/-- The entries of a directory.  The skip of a directory among them is over with it. -/
def walkEntries (visit : String → Bool → σ → σ × Bool) (path : String) :
    List FileTree → σ → σ × Bool
  | [], s => (s, false)
  | t :: ts, s =>
      match t.walk visit (path ++ "/" ++ t.name) s with
      | (s, true) => if t.isDir then walkEntries visit path ts s else (s, true)
      | (s, false) => walkEntries visit path ts s

end

/-! ## The directories of a tree -/

/-- The path of a directory, and those of the directories it lies in, the innermost first. -/
structure Directory where
  path : String
  above : List String
  deriving DecidableEq

mutual

/-- The directories of a tree in pre-order. -/
def dirs (above : List String) (path : String) : FileTree → List Directory
  | file _ => []
  | dir _ entries => ⟨path, above⟩ :: dirsOfEntries (path :: above) path entries

/-- Those of the entries of a directory. -/
def dirsOfEntries (above : List String) (path : String) : List FileTree → List Directory
  | [] => []
  | t :: ts => t.dirs above (path ++ "/" ++ t.name) ++ dirsOfEntries above path ts

end

/-- A directory with the property `p` that lies in no other one. -/
def Directory.Outermost (p : String → Bool) (d : Directory) : Prop :=
  p d.path = true ∧ ∀ a ∈ d.above, p a = false

instance (p : String → Bool) (d : Directory) : Decidable (d.Outermost p) :=
  inferInstanceAs (Decidable (_ ∧ _))

mutual

/-- All of them lie in what the tree lies in. -/
lemma above_subset_dirs (above : List String) (path : String) :
    ∀ (t : FileTree), ∀ d ∈ t.dirs above path, above ⊆ d.above
  | file _, d, hd => by
      rw [dirs] at hd
      cases hd
  | dir _ entries, d, hd => by
      rw [dirs, List.mem_cons] at hd
      rcases hd with rfl | hd
      · exact List.Subset.refl _
      · have hsub := above_subset_dirsOfEntries (path :: above) path entries d hd
        exact fun a ha => hsub (List.mem_cons_of_mem path ha)

lemma above_subset_dirsOfEntries (above : List String) (path : String) :
    ∀ (ts : List FileTree), ∀ d ∈ dirsOfEntries above path ts, above ⊆ d.above
  | [], d, hd => by
      rw [dirsOfEntries] at hd
      cases hd
  | t :: ts, d, hd => by
      rw [dirsOfEntries, List.mem_append] at hd
      rcases hd with hd | hd
      · exact above_subset_dirs above _ t d hd
      · exact above_subset_dirsOfEntries above path ts d hd

end

mutual

/-- Where there is a directory with the property, there is an outermost one. -/
lemma exists_outermost {p : String → Bool} {above : List String}
    (habove : ∀ a ∈ above, p a = false) (path : String) :
    ∀ (t : FileTree), (∃ d ∈ t.dirs above path, p d.path = true) →
      ∃ d ∈ t.dirs above path, d.Outermost p
  | file _, h => by
      obtain ⟨d, hd, -⟩ := h
      rw [dirs] at hd
      cases hd
  | dir name entries, h => by
      rw [dirs] at h ⊢
      cases hp : p path with
      | true => exact ⟨⟨path, above⟩, List.mem_cons_self, hp, habove⟩
      | false =>
          have habove' : ∀ a ∈ path :: above, p a = false := List.forall_mem_cons.mpr ⟨hp, habove⟩
          obtain ⟨d, hd, hpd⟩ := h
          rcases List.mem_cons.mp hd with rfl | hd
          · rw [hp] at hpd
            cases hpd
          · obtain ⟨e, he, houter⟩ :=
              exists_outermost_of_entries habove' path entries ⟨d, hd, hpd⟩
            exact ⟨e, List.mem_cons_of_mem _ he, houter⟩

lemma exists_outermost_of_entries {p : String → Bool} {above : List String}
    (habove : ∀ a ∈ above, p a = false) (path : String) :
    ∀ (ts : List FileTree), (∃ d ∈ dirsOfEntries above path ts, p d.path = true) →
      ∃ d ∈ dirsOfEntries above path ts, d.Outermost p
  | [], h => by
      obtain ⟨d, hd, -⟩ := h
      rw [dirsOfEntries] at hd
      cases hd
  | t :: ts, h => by
      rw [dirsOfEntries] at h ⊢
      obtain ⟨d, hd, hpd⟩ := h
      rcases List.mem_append.mp hd with hd | hd
      · obtain ⟨e, he, houter⟩ := exists_outermost habove _ t ⟨d, hd, hpd⟩
        exact ⟨e, List.mem_append_left _ he, houter⟩
      · obtain ⟨e, he, houter⟩ := exists_outermost_of_entries habove path ts ⟨d, hd, hpd⟩
        exact ⟨e, List.mem_append_right _ he, houter⟩

end

/-! ## Pruned walks -/

/-- The visitor that looks for directories with the property `p` and skips them. -/
def prune (p : String → Bool) (found : String → σ → σ) : String → Bool → σ → σ × Bool :=
  fun path isDir s => if isDir && p path then (found path s, true) else (s, false)

/-- The outermost directories of a list, one after the other. -/
def foldOutermost (p : String → Bool) (found : String → σ → σ) (ds : List Directory) (s : σ) : σ :=
  (ds.filter (fun d => d.Outermost p)).foldl (fun s d => found d.path s) s

variable {p : String → Bool} {found : String → σ → σ}

/-- Inside a directory that was found there is nothing to find. -/
lemma foldOutermost_of_above {a : String} (ha : p a = true) {ds : List Directory}
    (hds : ∀ d ∈ ds, a ∈ d.above) (s : σ) : foldOutermost p found ds s = s := by
  have hnone : ds.filter (fun d => d.Outermost p) = [] := by
    rw [List.filter_eq_nil_iff]
    intro d hd houtermost
    have hfalse := (of_decide_eq_true houtermost).2 a (hds d hd)
    rw [ha] at hfalse
    cases hfalse
  rw [foldOutermost, hnone, List.foldl_nil]

lemma foldOutermost_cons_of_outermost {d : Directory} (h : d.Outermost p) (ds : List Directory)
    (s : σ) : foldOutermost p found (d :: ds) s = foldOutermost p found ds (found d.path s) := by
  rw [foldOutermost, foldOutermost, List.filter_cons_of_pos (by simpa using h), List.foldl_cons]

lemma foldOutermost_cons_of_not {d : Directory} (h : ¬ d.Outermost p) (ds : List Directory)
    (s : σ) : foldOutermost p found (d :: ds) s = foldOutermost p found ds s := by
  rw [foldOutermost, foldOutermost, List.filter_cons_of_neg (by simpa using h)]

lemma foldOutermost_append (ds ds' : List Directory) (s : σ) :
    foldOutermost p found (ds ++ ds') s
      = foldOutermost p found ds' (foldOutermost p found ds s) := by
  rw [foldOutermost, foldOutermost, foldOutermost, List.filter_append, List.foldl_append]

/-- A walk that keeps what it finds in a variable ends with the last one. -/
lemma foldOutermost_last (ds : List Directory) (s : String) :
    foldOutermost p (fun path _ => path) ds s
      = ((ds.filter (fun d => d.Outermost p)).getLast?.map Directory.path).getD s := by
  rw [foldOutermost]
  induction ds.filter (fun d => d.Outermost p) using List.reverseRecOn with
  | nil => rfl
  | append_singleton ds d _ => simp

mutual

/-- **Pruned walks** see the outermost directories they look for, in pre-order. -/
theorem walk_prune (above : List String) (habove : ∀ a ∈ above, p a = false) (path : String) :
    ∀ (t : FileTree) (s : σ), t.walk (prune p found) path s
      = (foldOutermost p found (t.dirs above path) s, t.isDir && p path)
  | file _, s => by
      rw [walk, dirs]
      rfl
  | dir name entries, s => by
      rw [walk, dirs]
      cases hp : p path with
      | true =>
          have hskip : prune p found path true s = (found path s, true) := by simp [prune, hp]
          have houtermost : Directory.Outermost p ⟨path, above⟩ := ⟨hp, habove⟩
          have hinside : foldOutermost p found (dirsOfEntries (path :: above) path entries)
              (found path s) = found path s :=
            foldOutermost_of_above hp (fun d hd =>
              above_subset_dirsOfEntries (path :: above) path entries d hd List.mem_cons_self) _
          rw [hskip, foldOutermost_cons_of_outermost houtermost, hinside]
          rfl
      | false =>
          have hgo : prune p found path true s = (s, false) := by simp [prune, hp]
          have hnot : ¬ Directory.Outermost p ⟨path, above⟩ :=
            fun h => Bool.false_ne_true (hp.symm.trans h.1)
          have habove' : ∀ a ∈ path :: above, p a = false := List.forall_mem_cons.mpr ⟨hp, habove⟩
          rw [hgo, foldOutermost_cons_of_not hnot]
          exact walkEntries_prune (path :: above) habove' path entries s

theorem walkEntries_prune (above : List String) (habove : ∀ a ∈ above, p a = false)
    (path : String) : ∀ (ts : List FileTree) (s : σ), walkEntries (prune p found) path ts s
      = (foldOutermost p found (dirsOfEntries above path ts) s, false)
  | [], s => by
      rw [walkEntries, dirsOfEntries]
      rfl
  | t :: ts, s => by
      have hrest := walkEntries_prune above habove path ts
      rw [walkEntries, dirsOfEntries, foldOutermost_append, walk_prune above habove _ t s]
      cases hskip : t.isDir && p (path ++ "/" ++ t.name) with
      | true =>
          dsimp only
          rw [if_pos (Bool.and_eq_true_iff.mp hskip).1]
          exact hrest _
      | false => exact hrest _

end

/-! ## Searches -/

mutual

/-- What a walk leaves, and whether the visitor has ended it.  The visitor is given the path and the
name of an entry. -/
def search (visit : String → String → σ → σ × Bool) (path : String) : FileTree → σ → σ × Bool
  | file name, s => visit path name s
  | dir name entries, s =>
      match visit path name s with
      | (s, true) => (s, true)
      | (s, false) => searchEntries visit path entries s

/-- The entries of a directory. -/
def searchEntries (visit : String → String → σ → σ × Bool) (path : String) :
    List FileTree → σ → σ × Bool
  | [], s => (s, false)
  | t :: ts, s =>
      match t.search visit (path ++ "/" ++ t.name) s with
      | (s, true) => (s, true)
      | (s, false) => searchEntries visit path ts s

end

mutual

/-- The paths and names of a tree in pre-order. -/
def visited (path : String) : FileTree → List (String × String)
  | file name => [(path, name)]
  | dir name entries => (path, name) :: visitedEntries path entries

/-- Those of the entries of a directory. -/
def visitedEntries (path : String) : List FileTree → List (String × String)
  | [] => []
  | t :: ts => t.visited (path ++ "/" ++ t.name) ++ visitedEntries path ts

end

/-- The visitor that ends the walk with what `look` makes of an entry, if it makes something. -/
def stopAt (look : String → String → Option σ) (path name : String) (s : σ) : σ × Bool :=
  match look path name with
  | some s' => (s', true)
  | none => (s, false)

/-- What such a walk leaves. -/
def firstSeen (look : String → String → Option σ) (es : List (String × String)) (s : σ) : σ × Bool :=
  match es.findSome? (fun e => look e.1 e.2) with
  | some s' => (s', true)
  | none => (s, false)

lemma firstSeen_append (look : String → String → Option σ) (es es' : List (String × String))
    (s : σ) : firstSeen look (es ++ es') s
      = match firstSeen look es s with
        | (s, true) => (s, true)
        | (s, false) => firstSeen look es' s := by
  unfold firstSeen
  rw [List.findSome?_append]
  cases es.findSome? (fun e => look e.1 e.2) <;> rfl

lemma stopAt_eq (look : String → String → Option σ) (path name : String) (s : σ) :
    stopAt look path name s = firstSeen look [(path, name)] s := by
  unfold stopAt firstSeen
  rw [List.findSome?_singleton]

mutual

/-- **Searches** end at the first entry they look for. -/
theorem search_find (look : String → String → Option σ) (path : String) :
    ∀ (t : FileTree) (s : σ), t.search (stopAt look) path s = firstSeen look (t.visited path) s
  | file name, s => by rw [search, visited, stopAt_eq]
  | dir name entries, s => by
      have hcons := firstSeen_append look [(path, name)] (visitedEntries path entries) s
      rw [List.singleton_append] at hcons
      rw [search, visited, stopAt_eq, hcons]
      cases firstSeen look [(path, name)] s with
      | mk s' stopped =>
          cases stopped with
          | true => rfl
          | false => exact searchEntries_find look path entries s'

theorem searchEntries_find (look : String → String → Option σ) (path : String) :
    ∀ (ts : List FileTree) (s : σ),
      searchEntries (stopAt look) path ts s = firstSeen look (visitedEntries path ts) s
  | [], s => by
      rw [searchEntries, visitedEntries]
      rfl
  | t :: ts, s => by
      rw [searchEntries, visitedEntries, firstSeen_append, search_find look _ t s]
      cases firstSeen look (t.visited (path ++ "/" ++ t.name)) s with
      | mk s' stopped =>
          cases stopped with
          | true => rfl
          | false => exact searchEntries_find look path ts s'

end

end FileTree

end Akil
