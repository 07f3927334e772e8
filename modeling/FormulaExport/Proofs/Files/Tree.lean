import Mathlib.Data.List.Basic
import FormulaExport.Files.Workspace
import FormulaExport.Proofs.Lexicographic

/-!
# Walking a file tree

In a **proper** tree every entry of a directory has a name of its own, one that a path can go along.
What a walk of such a tree lists (`Tree.filesBelow`) are the places of its regular files, all of
them and nothing else, in lexicographic order: the files of a directory stand where its name stands
among those of its siblings.
-/

set_option autoImplicit false

namespace FormulaExport.Tree

/-! ## Places -/

/-- What can be the **name** of an entry: a path component that leads into a directory, so neither
empty nor `.` nor `..`, and without separators. -/
structure IsEntryName (name : String) : Prop where
  notEmpty : name ≠ ""
  notHere : name ≠ "."
  notUp : name ≠ ".."
  noSeparator : separator ∉ name.toList

instance : DecidablePred IsEntryName := fun name =>
  decidable_of_iff (name ≠ "" ∧ name ≠ "." ∧ name ≠ ".." ∧ separator ∉ name.toList)
    ⟨fun h => ⟨h.1, h.2.1, h.2.2.1, h.2.2.2⟩,
      fun h => ⟨h.notEmpty, h.notHere, h.notUp, h.noSeparator⟩⟩

/-- A tree is **proper** if the entries of all its directories have different names, and names that
entries can have. -/
inductive Proper : Tree → Prop where
  | file {content : ByteArray} : Proper (.file content)
  | directory {entries : List (String × Tree)} : (entries.map Prod.fst).Nodup →
      (∀ entry ∈ entries, IsEntryName entry.1) → (∀ entry ∈ entries, Proper entry.2) →
      Proper (.directory entries)

/-- What stands at a place below a tree. A place is given by the names that lead there. -/
def at? : Tree → List String → Option Tree
  | tree, [] => some tree
  | tree, name :: place => (lookup name tree.entries).bind fun inner => inner.at? place

variable {entries : List (String × Tree)} {name : String} {tree inner : Tree}

theorem mem_of_lookup (h : lookup name entries = some inner) : (name, inner) ∈ entries := by
  induction entries with
  | nil => cases h
  | cons entry entries ih =>
      obtain ⟨other, first⟩ := entry
      rw [lookup] at h
      by_cases same : other = name
      · rw [if_pos same, Option.some.injEq] at h
        rw [same, h]
        exact List.mem_cons_self
      · rw [if_neg same] at h
        exact List.mem_cons_of_mem _ (ih h)

theorem lookup_eq_some_iff (distinct : (entries.map Prod.fst).Nodup) :
    lookup name entries = some inner ↔ (name, inner) ∈ entries := by
  refine ⟨mem_of_lookup, ?_⟩
  intro inside
  induction entries with
  | nil => cases inside
  | cons entry entries ih =>
      obtain ⟨new, distinct⟩ := List.nodup_cons.mp distinct
      rcases List.mem_cons.mp inside with rfl | later
      · exact if_pos rfl
      · have other : entry.1 ≠ name := by
          intro same
          exact new (List.mem_map.mpr ⟨_, later, same.symm⟩)
        exact (if_neg other).trans (ih distinct later)

theorem at?_directory_cons (distinct : (entries.map Prod.fst).Nodup) {place : List String} :
    (directory entries).at? (name :: place) = some tree ↔
      ∃ inner, (name, inner) ∈ entries ∧ inner.at? place = some tree := by
  rw [at?, Option.bind_eq_some_iff]
  exact exists_congr fun inner => and_congr_left' (lookup_eq_some_iff distinct)

theorem Proper.isEntryName (proper : tree.Proper) {place : List String}
    (h : tree.at? place = some inner) : ∀ name ∈ place, IsEntryName name := by
  induction proper generalizing place with
  | file =>
      cases place with
      | nil => exact List.forall_mem_nil _
      | cons => cases h
  | @directory entries distinct names _ ih =>
      cases place with
      | nil => exact List.forall_mem_nil _
      | cons name place =>
          obtain ⟨next, inside, found⟩ := (at?_directory_cons distinct).mp h
          exact List.forall_mem_cons.mpr ⟨names _ inside, ih _ inside found⟩

/-! ## The walk -/

theorem filesOfEntries_eq (entries : List (String × Tree)) :
    filesOfEntries entries = entries.map fun entry => (entry.1, entry.2.filesBelow) := by
  induction entries with
  | nil => rfl
  | cons entry entries ih =>
      rw [filesOfEntries, ih]
      rfl

theorem pairwise_branches (distinct : (entries.map Prod.fst).Nodup) :
    ((filesOfEntries entries).mergeSort nameLe).Pairwise
      fun branch other => branch.1 < other.1 := by
  have sorted : ((filesOfEntries entries).mergeSort nameLe).Pairwise
      fun branch other => nameLe branch other = true := by
    refine List.pairwise_mergeSort ?_ ?_ _
    · intro a b c le le'
      exact decide_eq_true (String.le_trans (of_decide_eq_true le) (of_decide_eq_true le'))
    · intro a b
      rw [nameLe, nameLe, Bool.or_eq_true, decide_eq_true_iff, decide_eq_true_iff]
      exact String.le_total a.1 b.1
  have names : ((filesOfEntries entries).mergeSort nameLe).Pairwise
      fun branch other => branch.1 ≠ other.1 := by
    refine List.pairwise_map.mp (((List.mergeSort_perm _ _).map Prod.fst).nodup_iff.mpr ?_)
    rw [filesOfEntries_eq, List.map_map]
    exact distinct
  refine sorted.imp₂ ?_ names
  intro a b le differ
  exact String.not_le.mp fun le' => differ (String.le_antisymm (of_decide_eq_true le) le')

/-- The places of the regular files stand in lexicographic order, so none of them twice. -/
theorem Proper.pairwise_filesBelow (proper : tree.Proper) : tree.filesBelow.Pairwise (· < ·) := by
  induction proper with
  | file =>
      rw [filesBelow]
      exact List.pairwise_singleton _ _
  | @directory entries distinct _ _ ih =>
      rw [filesBelow]
      refine pairwise_lt_flatMap (pairwise_branches distinct) ?_
      intro branch among
      rw [List.mem_mergeSort, filesOfEntries_eq] at among
      obtain ⟨entry, inside, rfl⟩ := List.mem_map.mp among
      exact ih entry inside

theorem cons_mem_filesBelow_directory {place : List String} :
    name :: place ∈ (directory entries).filesBelow ↔
      ∃ inner, (name, inner) ∈ entries ∧ place ∈ inner.filesBelow := by
  rw [filesBelow, List.mem_flatMap]
  constructor
  · rintro ⟨branch, among, inside⟩
    rw [List.mem_mergeSort, filesOfEntries_eq] at among
    obtain ⟨entry, listed, rfl⟩ := List.mem_map.mp among
    obtain ⟨place', below, same⟩ := List.mem_map.mp inside
    obtain ⟨rfl, rfl⟩ := List.cons.inj same
    exact ⟨entry.2, listed, below⟩
  · rintro ⟨inner, listed, inside⟩
    refine ⟨(name, inner.filesBelow), ?_, List.mem_map_of_mem inside⟩
    rw [List.mem_mergeSort, filesOfEntries_eq]
    exact List.mem_map_of_mem listed

theorem nil_not_mem_filesBelow_directory : [] ∉ (directory entries).filesBelow := by
  rw [filesBelow, List.mem_flatMap]
  rintro ⟨branch, -, inside⟩
  obtain ⟨_, -, same⟩ := List.mem_map.mp inside
  cases same

/-- A walk lists the place of every regular file, and of nothing else. -/
theorem Proper.mem_filesBelow_iff (proper : tree.Proper) {place : List String} :
    place ∈ tree.filesBelow ↔ ∃ content, tree.at? place = some (.file content) := by
  induction proper generalizing place with
  | @file content =>
      rw [filesBelow, List.mem_singleton]
      cases place with
      | nil => exact ⟨fun _ => ⟨content, rfl⟩, fun _ => rfl⟩
      | cons name place =>
          constructor
          · intro same
            cases same
          · rintro ⟨_, found⟩
            cases found
  | @directory entries distinct _ _ ih =>
      cases place with
      | nil =>
          constructor
          · intro inside
            exact absurd inside nil_not_mem_filesBelow_directory
          · rintro ⟨_, found⟩
            cases found
      | cons name place =>
          rw [cons_mem_filesBelow_directory]
          constructor
          · rintro ⟨inner, inside, listed⟩
            obtain ⟨content, found⟩ := (ih _ inside).mp listed
            exact ⟨content, (at?_directory_cons distinct).mpr ⟨inner, inside, found⟩⟩
          · rintro ⟨content, found⟩
            obtain ⟨inner, inside, found⟩ := (at?_directory_cons distinct).mp found
            exact ⟨inner, inside, (ih _ inside).mpr ⟨content, found⟩⟩

end FormulaExport.Tree
