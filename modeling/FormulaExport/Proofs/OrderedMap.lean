import Mathlib.Data.List.Basic
import Mathlib.Data.List.Forall2
import Mathlib.Data.List.Perm.Basic
import FormulaExport.OrderedMap

/-!
# Maps built by insertion

A map into which entries are put one after the other (`OrderedMap.insertAll`): under every key it
has the value that came in last, and a list of entries with pairwise different keys is the list of
its entries.
-/

set_option autoImplicit false

namespace FormulaExport

variable {κ α : Type}

namespace Entries

variable [DecidableEq κ]

theorem put_of_not_mem {key : κ} {value : α} {entries : List (κ × α)}
    (h : key ∉ entries.map Prod.fst) : put key value entries = entries ++ [(key, value)] := by
  induction entries with
  | nil => rfl
  | cons entry rest ih =>
      obtain ⟨k, a⟩ := entry
      rw [List.map_cons, List.mem_cons, not_or] at h
      rw [put, if_neg (Ne.symm h.1), ih h.2]
      rfl

theorem find?_eq_none_iff {key : κ} {entries : List (κ × α)} :
    find? key entries = none ↔ key ∉ entries.map Prod.fst := by
  induction entries with
  | nil => simp [find?]
  | cons entry rest ih =>
      obtain ⟨k, a⟩ := entry
      rw [find?, List.map_cons, List.mem_cons, not_or]
      by_cases same : k = key
      · simp [same]
      · rw [if_neg same, ih]
        exact ⟨fun h => ⟨Ne.symm same, h⟩, And.right⟩

theorem mem_of_find? {key : κ} {value : α} {entries : List (κ × α)}
    (h : find? key entries = some value) : (key, value) ∈ entries := by
  induction entries with
  | nil => cases h
  | cons entry rest ih =>
      obtain ⟨k, a⟩ := entry
      rw [find?] at h
      split at h
      · next same =>
        cases h
        exact same ▸ List.mem_cons_self
      · exact List.mem_cons_of_mem _ (ih h)

end Entries

namespace OrderedMap

theorem ext {map other : OrderedMap κ α} (h : map.entries = other.entries) : map = other := by
  cases map
  cases other
  cases h
  rfl

variable [DecidableEq κ]

theorem get?_eq_none_iff {map : OrderedMap κ α} {key : κ} :
    map.get? key = none ↔ key ∉ map.keys :=
  Entries.find?_eq_none_iff

theorem size_eq_of_get? {map other : OrderedMap κ α} (h : ∀ key, map.get? key = other.get? key) :
    map.size = other.size := by
  have sameKeys : map.keys.Perm other.keys := by
    refine (List.perm_ext_iff_of_nodup map.nodup other.nodup).mpr ?_
    intro key
    show key ∈ map.keys ↔ key ∈ other.keys
    rw [← not_iff_not, ← get?_eq_none_iff, ← get?_eq_none_iff, h key]
  calc map.size = map.keys.length := (List.length_map _).symm
    _ = other.keys.length := sameKeys.length_eq
    _ = other.size := List.length_map _

theorem mem_entries_of_get? {map : OrderedMap κ α} {key : κ} {value : α}
    (h : map.get? key = some value) : (key, value) ∈ map.entries :=
  Entries.mem_of_find? h

theorem mem_keys_of_get? {map : OrderedMap κ α} {key : κ} {value : α}
    (h : map.get? key = some value) : key ∈ map.keys :=
  List.mem_map_of_mem (mem_entries_of_get? h)

def insertAll (known : OrderedMap κ α) (entries : List (κ × α)) : OrderedMap κ α :=
  entries.foldl (fun map entry => map.insert entry.1 entry.2) known

theorem insertAll_empty (entries : List (κ × α)) : insertAll ∅ entries = ofList entries := rfl

theorem insertAll_cons (known : OrderedMap κ α) (entry : κ × α) (entries : List (κ × α)) :
    known.insertAll (entry :: entries) = (known.insert entry.1 entry.2).insertAll entries := rfl

theorem mem_keys_insert {map : OrderedMap κ α} {key other : κ} {value : α} :
    other ∈ (map.insert key value).keys ↔ other ∈ map.keys ∨ other = key := by
  rw [keys_insert]
  by_cases there : key ∈ map.keys
  · rw [if_pos there]
    exact ⟨Or.inl, fun h => h.elim id fun same => same ▸ there⟩
  · rw [if_neg there, List.mem_append, List.mem_singleton]

/-- The keys of a map into which entries were put are the old ones and those of the entries. -/
theorem mem_keys_insertAll {known : OrderedMap κ α} {entries : List (κ × α)} {key : κ} :
    key ∈ (known.insertAll entries).keys ↔ key ∈ known.keys ∨ key ∈ entries.map Prod.fst := by
  induction entries generalizing known with
  | nil => simp [insertAll]
  | cons entry entries ih =>
      rw [insertAll_cons, ih, mem_keys_insert, List.map_cons, List.mem_cons, or_assoc]

/-- Entries under new and pairwise different keys are added at the end. -/
theorem entries_insertAll (known : OrderedMap κ α) (entries : List (κ × α))
    (h : (known.keys ++ entries.map Prod.fst).Nodup) :
    (known.insertAll entries).entries = known.entries ++ entries := by
  induction entries generalizing known with
  | nil => exact (List.append_nil _).symm
  | cons entry entries ih =>
      have new : entry.1 ∉ known.keys := by
        intro inside
        exact (List.nodup_append.mp h).2.2 _ inside _ List.mem_cons_self rfl
      have added : (known.insert entry.1 entry.2).entries = known.entries ++ [entry] :=
        Entries.put_of_not_mem new
      have keys : (known.insert entry.1 entry.2).keys = known.keys ++ [entry.1] := by
        rw [keys_insert, if_neg new]
      rw [insertAll_cons, ih, added, List.append_assoc]
      · rfl
      · rwa [keys, List.append_assoc]

theorem ofList_entries (map : OrderedMap κ α) : ofList map.entries = map := by
  refine ext ?_
  rw [← insertAll_empty, entries_insertAll]
  · rfl
  · exact map.nodup

theorem get?_insertAll_of_not_mem {key : κ} {entries : List (κ × α)}
    (h : ∀ value, (key, value) ∉ entries) (known : OrderedMap κ α) :
    (known.insertAll entries).get? key = known.get? key := by
  induction entries generalizing known with
  | nil => rfl
  | cons entry entries ih =>
      have other : entry.1 ≠ key := by
        rintro rfl
        exact h entry.2 List.mem_cons_self
      rw [insertAll_cons, ih fun value inside => h value (List.mem_cons_of_mem _ inside),
        get?_insert, if_neg other]

theorem get?_insertAll_of_mem {key : κ} {value : α} {entries : List (κ × α)}
    (h : (key, value) ∈ entries) (unique : ∀ other, (key, other) ∈ entries → other = value)
    (known : OrderedMap κ α) : (known.insertAll entries).get? key = some value := by
  induction entries generalizing known with
  | nil => cases h
  | cons entry entries ih =>
      have unique' : ∀ other, (key, other) ∈ entries → other = value := fun other inside =>
        unique other (List.mem_cons_of_mem _ inside)
      rw [insertAll_cons]
      by_cases later : (key, value) ∈ entries
      · exact ih later unique' _
      · -- then this entry is the last one under the key
        have none : ∀ other, (key, other) ∉ entries := fun other inside =>
          later (unique' other inside ▸ inside)
        obtain rfl : (key, value) = entry := (List.mem_cons.mp h).resolve_right later
        rw [get?_insertAll_of_not_mem none, get?_insert, if_pos rfl]

/-- If no key has two values among some entries, their order makes no difference to a look-up. -/
theorem get?_insertAll_of_perm {entries entries' : List (κ × α)} (perm : entries.Perm entries')
    (unique : ∀ key value value', (key, value) ∈ entries → (key, value') ∈ entries →
      value = value') (known : OrderedMap κ α) (key : κ) :
    (known.insertAll entries).get? key = (known.insertAll entries').get? key := by
  by_cases there : ∃ value, (key, value) ∈ entries
  · obtain ⟨value, inside⟩ := there
    rw [get?_insertAll_of_mem inside fun other inside' => unique key other value inside' inside,
      get?_insertAll_of_mem (perm.mem_iff.mp inside) fun other inside' =>
        unique key other value (perm.mem_iff.mpr inside') inside]
  · rw [not_exists] at there
    rw [get?_insertAll_of_not_mem there,
      get?_insertAll_of_not_mem fun value inside => there value (perm.mem_iff.mpr inside)]

/-- Entries with related values, under a key and another one at the same places, give these two keys
related values. -/
theorem rel_get?_insertAll {related : α → α → Prop} {key key' : κ} {entries entries' : List (κ × α)}
    (h : List.Forall₂ (fun entry entry' => (entry.1 = key ↔ entry'.1 = key') ∧
      related entry.2 entry'.2) entries entries') (known known' : OrderedMap κ α)
    (before : Option.Rel related (known.get? key) (known'.get? key')) :
    Option.Rel related ((known.insertAll entries).get? key)
      ((known'.insertAll entries').get? key') := by
  induction h generalizing known known' with
  | nil => exact before
  | @cons entry entry' _ _ one _ ih =>
      refine ih _ _ ?_
      rw [get?_insert, get?_insert]
      by_cases same : entry.1 = key
      · rw [if_pos same, if_pos (one.1.mp same)]
        exact .some one.2
      · rw [if_neg same, if_neg fun same' => same (one.1.mpr same')]
        exact before

end OrderedMap

end FormulaExport
