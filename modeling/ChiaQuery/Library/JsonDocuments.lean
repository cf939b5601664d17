import Mathlib.Data.List.Nodup

/-! JSON values and the positions inside them. An object lists its entries under distinct
keys, and a position descends objects by key and arrays by their first element.
-/

namespace ChiaQuery.Library

section Entries

variable {κ ν μ : Type*} [DecidableEq κ] {entries : List (κ × ν)} {key : κ} {value : ν}

/-- A key looks up nothing exactly when no entry has it. -/
theorem lookup_eq_none_iff_not_mem : entries.lookup key = none ↔ key ∉ entries.map Prod.fst := by
  rw [List.lookup_eq_none_iff]
  constructor
  · intro other member
    obtain ⟨entry, inside, same⟩ := List.mem_map.mp member
    exact absurd same.symm (by simpa using other entry inside)
  · intro missing entry inside
    have different : key ≠ entry.1 := fun same =>
      missing (List.mem_map.mpr ⟨entry, inside, same.symm⟩)
    simpa using different

theorem mem_of_lookup (found : entries.lookup key = some value) : (key, value) ∈ entries := by
  obtain ⟨before, after, split, -⟩ := List.lookup_eq_some_iff.mp found
  rw [split]
  exact List.mem_append_right before List.mem_cons_self

/-- Under distinct keys every entry is the one its key looks up, by induction on the list. -/
theorem lookup_of_mem (distinct : (entries.map Prod.fst).Nodup) (member : (key, value) ∈ entries)
    : entries.lookup key = some value := by
  induction entries with
  | nil => cases member
  | cons entry rest ih =>
      rw [List.map_cons, List.nodup_cons] at distinct
      rcases List.mem_cons.mp member with same | later
      · rw [← same, List.lookup_cons_self]
      · have different : key ≠ entry.1 := by
          rintro rfl
          exact distinct.1 (List.mem_map.mpr ⟨_, later, rfl⟩)
        rw [List.lookup_cons, beq_eq_false_iff_ne.mpr different]
        exact ih distinct.2 later

/-- Mapping the values maps what a key looks up. -/
theorem lookup_map_values (entries : List (κ × ν)) (f : ν → μ) (key : κ)
    : (entries.map (fun entry => (entry.1, f entry.2))).lookup key
      = (entries.lookup key).map f := by
  induction entries with
  | nil => rfl
  | cons entry rest ih =>
      rw [List.map_cons, List.lookup_cons, List.lookup_cons, ih]
      cases key == entry.1 <;> rfl

end Entries

/-- A JSON number is a natural number, a negative integer, or a binary fraction. -/
inductive JsonNumber
  | posInt (value : UInt64)
  | negInt (value : Int64)
  | float (bits : UInt64)
  deriving DecidableEq

inductive Json
  | null
  | bool (value : Bool)
  | number (value : JsonNumber)
  | string (text : String)
  | array (items : List Json)
  | object (entries : List (String × Json))

namespace Json

/-- Every object of the value lists its entries under distinct keys. -/
inductive Keyed : Json → Prop
  | null : Keyed .null
  | bool (value : Bool) : Keyed (.bool value)
  | number (value : JsonNumber) : Keyed (.number value)
  | string (text : String) : Keyed (.string text)
  | array {items : List Json} (each : ∀ item ∈ items, Keyed item) : Keyed (.array items)
  | object {entries : List (String × Json)} (distinct : (entries.map Prod.fst).Nodup)
      (each : ∀ entry ∈ entries, Keyed entry.2)
    : Keyed (.object entries)

/-- One step of a descent: into the entry of a key, or into an array's first element. -/
inductive Step
  | key (name : String)
  | first
  deriving DecidableEq

/-- The value one step below. -/
def child? : Json → Step → Option Json
  | .object entries, .key name => entries.lookup name
  | .array items, .first => items.head?
  | _, _ => none

/-- The value at a position, none where the descent meets nothing. -/
def at? (value : Json) : List Step → Option Json
  | [] => some value
  | step :: rest => (value.child? step).bind (fun child => child.at? rest)

/-- A descent continues from the value its first part reaches. -/
theorem at?_append (value : Json) (before after : List Step)
    : value.at? (before ++ after) = (value.at? before).bind (fun reached => reached.at? after) := by
  induction before generalizing value with
  | nil => rfl
  | cons step rest ih =>
      rw [List.cons_append, at?, at?, Option.bind_assoc]
      congr 1
      funext child
      exact ih child

/-- Nothing is below the first element of an empty array. -/
theorem at?_below_empty {value : Json} {before : List Step}
    (empty : value.at? before = some (.array [])) (after : List Step)
    : value.at? (before ++ .first :: after) = none := by
  rw [at?_append, empty]
  rfl

end Json

end ChiaQuery.Library
