/-!
# Maps in order of insertion

A map is kept as the list of its entries in the order in which their keys first came in. Putting a
value under a key that is there already replaces the value and keeps the place. That no key occurs
twice is part of the type (`OrderedMap.nodup`), and `get?_insert` and `keys_insert` say what an
insertion does to the two views of a map, its look-ups and its keys.
-/

set_option autoImplicit false

namespace FormulaExport

/-! ## Lists of entries -/

namespace Entries

variable {κ α : Type} [DecidableEq κ]

/-- The value of the first entry under a key. -/
def find? (key : κ) : List (κ × α) → Option α
  | [] => none
  | (k, a) :: rest => if k = key then some a else find? key rest

/-- Replaces the value under a key in place, or adds an entry at the end. -/
def put (key : κ) (value : α) : List (κ × α) → List (κ × α)
  | [] => [(key, value)]
  | (k, a) :: rest => if k = key then (k, value) :: rest else (k, a) :: put key value rest

/-- The keys after `put`: a known key moves nothing, a new key comes last. -/
theorem keys_put (key : κ) (value : α) (entries : List (κ × α)) :
    (put key value entries).map Prod.fst =
      if key ∈ entries.map Prod.fst then entries.map Prod.fst
      else entries.map Prod.fst ++ [key] := by
  induction entries with
  | nil => simp [put]
  | cons entry rest ih =>
      obtain ⟨k, a⟩ := entry
      by_cases h : k = key
      · simp [put, h]
      · have h' : ¬ key = k := fun e => h e.symm
        by_cases m : key ∈ rest.map Prod.fst
        · simp only [if_pos m] at ih
          simp only [put, if_neg h, List.map_cons, ih]
          rw [if_pos (List.mem_cons_of_mem _ m)]
        · simp only [if_neg m] at ih
          simp only [put, if_neg h, List.map_cons, ih]
          rw [if_neg (by simpa [h'] using m)]
          rfl

theorem nodup_put (key : κ) (value : α) (entries : List (κ × α))
    (h : (entries.map Prod.fst).Nodup) : ((put key value entries).map Prod.fst).Nodup := by
  rw [keys_put]
  by_cases m : key ∈ entries.map Prod.fst
  · rw [if_pos m]
    exact h
  · rw [if_neg m]
    refine List.nodup_append.mpr ⟨h, by simp, ?_⟩
    intro a ha b hb e
    rw [List.mem_singleton] at hb
    exact m (hb ▸ e ▸ ha)

/-- A look-up after `put` finds the new value under its key and the old ones elsewhere. -/
theorem find?_put (key other : κ) (value : α) (entries : List (κ × α)) :
    find? other (put key value entries) =
      if key = other then some value else find? other entries := by
  induction entries with
  | nil => simp [put, find?]
  | cons entry rest ih =>
      obtain ⟨k, a⟩ := entry
      by_cases h : k = key
      · by_cases e : key = other <;> simp [put, find?, h, e]
      · by_cases e : k = other
        · have h' : ¬ key = other := fun e' => h (e.trans e'.symm)
          have h'' : ¬ other = key := fun e' => h' e'.symm
          simp [put, find?, e, h', h'']
        · simp [put, find?, h, e, ih]

end Entries

/-! ## Maps -/

/-- A **map in order of insertion**: a list of entries with pairwise different keys. -/
structure OrderedMap (κ α : Type) where
  entries : List (κ × α)
  nodup : (entries.map Prod.fst).Nodup

namespace OrderedMap

variable {κ α : Type}

def empty : OrderedMap κ α := ⟨[], List.nodup_nil⟩

instance : EmptyCollection (OrderedMap κ α) := ⟨empty⟩

instance : Inhabited (OrderedMap κ α) := ⟨empty⟩

def keys (map : OrderedMap κ α) : List κ := map.entries.map Prod.fst

def size (map : OrderedMap κ α) : Nat := map.entries.length

variable [DecidableEq κ]

def get? (map : OrderedMap κ α) (key : κ) : Option α := Entries.find? key map.entries

/-- Puts a value under a key; a key that is there already keeps its place. -/
def insert (map : OrderedMap κ α) (key : κ) (value : α) : OrderedMap κ α :=
  ⟨Entries.put key value map.entries, Entries.nodup_put key value map.entries map.nodup⟩

/-- The map of a list of entries, put in one after the other. -/
def ofList (entries : List (κ × α)) : OrderedMap κ α :=
  entries.foldl (fun map entry => map.insert entry.1 entry.2) empty

/-- Two maps are the same up to order if they have equally many keys and every key of the first has
the same value in the second. -/
def same [DecidableEq α] (left right : OrderedMap κ α) : Bool :=
  left.size == right.size &&
    left.entries.all fun entry => decide (right.get? entry.1 = some entry.2)

theorem get?_insert (map : OrderedMap κ α) (key other : κ) (value : α) :
    (map.insert key value).get? other = if key = other then some value else map.get? other :=
  Entries.find?_put key other value map.entries

theorem keys_insert (map : OrderedMap κ α) (key : κ) (value : α) :
    (map.insert key value).keys = if key ∈ map.keys then map.keys else map.keys ++ [key] :=
  Entries.keys_put key value map.entries

@[simp] theorem get?_empty (key : κ) : (∅ : OrderedMap κ α).get? key = none := rfl

end OrderedMap

end FormulaExport
