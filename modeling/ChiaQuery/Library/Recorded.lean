import Mathlib.Data.List.Induction
import Mathlib.Data.List.Nodup
import Mathlib.Data.List.Perm.Subperm

/-! Collecting key-value pairs into an ordered map, where a later pair of a key replaces
the earlier one. The lookup of a key is the value of its last pair, or what the map held.
-/

namespace ChiaQuery.Library

open Std

variable {α κ ν : Type*} {cmp : κ → κ → Ordering} [TransCmp cmp]

/-- Collect the pairs of a list into an ordered map, one insertion per element. -/
def collectBy (cmp : κ → κ → Ordering) [TransCmp cmp] (key : α → κ) (value : α → ν)
    (items : List α)
    : ExtTreeMap κ ν cmp :=
  items.foldl (fun recorded item => recorded.insert (key item) (value item)) ∅

/-- Collecting one more element inserts its pair last. -/
theorem collectBy_append_singleton (key : α → κ) (value : α → ν) (items : List α) (item : α)
    : collectBy cmp key value (items ++ [item])
      = (collectBy cmp key value items).insert (key item) (value item) := by
  simp [collectBy]

/-- Record the pairs of a list in a map that may already hold some. -/
def recordInto (recorded : ExtTreeMap κ ν cmp) (key : α → κ) (value : α → ν)
    (items : List α)
    : ExtTreeMap κ ν cmp :=
  items.foldl (fun recorded item => recorded.insert (key item) (value item)) recorded

/-- A recorded pair replaces what the map held. Induction from the end of the list. -/
theorem getElem?_recordInto (recorded : ExtTreeMap κ ν cmp) (key : α → κ) (value : α → ν)
    (items : List α) (k : κ)
    : (recordInto recorded key value items)[k]?
      = (collectBy cmp key value items)[k]?.or recorded[k]? := by
  induction items using List.reverseRecOn with
  | nil => simp [recordInto, collectBy]
  | append_singleton items last ih =>
      rw [collectBy_append_singleton, recordInto, List.foldl_append]
      simp only [List.foldl_cons, List.foldl_nil, ExtTreeMap.getElem?_insert]
      split
      · rfl
      · exact ih

variable [LawfulEqCmp cmp]

/-- A recorded value is the value of some element of that key, by induction from the end.
-/
theorem exists_of_collectBy_eq_some {key : α → κ} {value : α → ν} {items : List α}
    {k : κ} {v : ν} (found : (collectBy cmp key value items)[k]? = some v)
    : ∃ item ∈ items, key item = k ∧ value item = v := by
  induction items using List.reverseRecOn with
  | nil => simp [collectBy] at found
  | append_singleton items last ih =>
      rw [collectBy_append_singleton, ExtTreeMap.getElem?_insert] at found
      split at found
      · rename_i same
        exact ⟨last, by simp, LawfulEqCmp.eq_of_compare same, Option.some.inj found⟩
      · obtain ⟨item, member, sameKey, sameValue⟩ := ih found
        exact ⟨item, by simp [member], sameKey, sameValue⟩

/-- What one more element in front changes: it is recorded only under a key that no later
element has. Induction from the end of the list.
-/
theorem getElem?_collectBy_cons [DecidableEq κ] (key : α → κ) (value : α → ν) (item : α)
    (items : List α) (k : κ)
    : (collectBy cmp key value (item :: items))[k]?
      = (collectBy cmp key value items)[k]?.or
          (if key item = k then some (value item) else none) := by
  have hkey (a b : κ) : cmp a b = .eq ↔ a = b := LawfulEqCmp.compare_eq_iff_eq
  induction items using List.reverseRecOn with
  | nil => simp [collectBy, ExtTreeMap.getElem?_insert, hkey]
  | append_singleton items last ih =>
      rw [← List.cons_append, collectBy_append_singleton, collectBy_append_singleton,
        ExtTreeMap.getElem?_insert, ExtTreeMap.getElem?_insert, ih]
      by_cases same : key last = k
      · simp [hkey, same]
      · simp [hkey, same]

/-- A key is recorded exactly when some element has it. -/
theorem collectBy_isSome_iff {key : α → κ} {value : α → ν} {items : List α} {k : κ}
    : (collectBy cmp key value items)[k]?.isSome ↔ ∃ item ∈ items, key item = k := by
  constructor
  · intro present
    obtain ⟨v, found⟩ := Option.isSome_iff_exists.mp present
    obtain ⟨item, member, sameKey, _⟩ := exists_of_collectBy_eq_some found
    exact ⟨item, member, sameKey⟩
  · intro present
    obtain ⟨item, member, rfl⟩ := present
    induction items using List.reverseRecOn with
    | nil => simp at member
    | append_singleton items last ih =>
        rw [collectBy_append_singleton, ExtTreeMap.getElem?_insert]
        split
        · rfl
        · rcases List.mem_append.mp member with earlier | final
          · exact ih earlier
          · rename_i differ
            simp [List.mem_singleton.mp final] at differ

omit [LawfulEqCmp cmp] in
/-- What two lists in a row record: the second one's value of a key, if it has one. -/
theorem getElem?_collectBy_append (key : α → κ) (value : α → ν) (earlier later : List α)
    (k : κ)
    : (collectBy cmp key value (earlier ++ later))[k]?
      = (collectBy cmp key value later)[k]?.or (collectBy cmp key value earlier)[k]? := by
  rw [← getElem?_recordInto, collectBy, List.foldl_append]
  rfl

/-- The value recorded of a key is that of the last element that has it. Induction from the end of
the list.
-/
theorem collectBy_eq_some_iff_last {key : α → κ} {value : α → ν} {items : List α} {k : κ}
    {v : ν}
    : (collectBy cmp key value items)[k]? = some v
      ↔ ∃ earlier item later,
          items = earlier ++ item :: later
          ∧ key item = k
          ∧ value item = v
          ∧ ∀ other ∈ later, key other ≠ k := by
  constructor
  · intro found
    induction items using List.reverseRecOn with
    | nil => simp [collectBy] at found
    | append_singleton items last ih =>
        rw [collectBy_append_singleton, ExtTreeMap.getElem?_insert] at found
        split at found
        · rename_i same
          exact ⟨items, last, [], rfl, LawfulEqCmp.eq_of_compare same, Option.some.inj found,
            by simp⟩
        · rename_i differ
          obtain ⟨earlier, item, later, rfl, sameKey, sameValue, silent⟩ := ih found
          refine ⟨earlier, item, later ++ [last], by simp, sameKey, sameValue, ?_⟩
          intro other member same
          rcases List.mem_append.mp member with between | final
          · exact silent other between same
          · rw [List.mem_singleton.mp final] at same
            exact differ (by simp [same])
  · rintro ⟨earlier, item, later, rfl, rfl, rfl, silent⟩
    rw [List.append_cons, getElem?_collectBy_append, collectBy_append_singleton]
    have none : (collectBy cmp key value later)[key item]? = none := by
      rw [← Option.not_isSome_iff_eq_none, collectBy_isSome_iff]
      rintro ⟨other, member, same⟩
      exact silent other member same
    simp [none]

/-- No two elements of one key carry different values. -/
def OneValueEach (key : α → κ) (value : α → ν) (items : List α) : Prop :=
  ∀ left ∈ items, ∀ right ∈ items, key left = key right → value left = value right

/-- When all elements of a key carry one value, that value is what is recorded. -/
theorem collectBy_eq_some_of_mem {key : α → κ} {value : α → ν} {items : List α} {item : α}
    (member : item ∈ items)
    (agree : ∀ other ∈ items, key other = key item → value other = value item)
    : (collectBy cmp key value items)[key item]? = some (value item) := by
  have present : (collectBy cmp key value items)[key item]?.isSome :=
    collectBy_isSome_iff.mpr ⟨item, member, rfl⟩
  obtain ⟨v, found⟩ := Option.isSome_iff_exists.mp present
  obtain ⟨other, otherMember, sameKey, sameValue⟩ := exists_of_collectBy_eq_some found
  rw [found, ← sameValue, agree other otherMember sameKey]

/-- Of a list with one value for each key every pair is recorded. -/
theorem collectBy_eq_some_iff_mem {key : α → κ} {value : α → ν} {items : List α}
    (single : OneValueEach key value items) {k : κ} {v : ν}
    : (collectBy cmp key value items)[k]? = some v
      ↔ ∃ item ∈ items, key item = k ∧ value item = v := by
  constructor
  · exact exists_of_collectBy_eq_some
  · rintro ⟨item, member, rfl, rfl⟩
    exact collectBy_eq_some_of_mem member
      (fun other held same => single other held item member same)

/-- Two lists with the same elements, each key of which carries one value, record the same
map. Witness: extensionality, with both lookups decided by membership alone.
-/
theorem collectBy_congr {key : α → κ} {value : α → ν} {left right : List α}
    (same : ∀ item, item ∈ left ↔ item ∈ right)
    (agree : ∀ a ∈ left, ∀ b ∈ left, key a = key b → value a = value b)
    : collectBy cmp key value left = collectBy cmp key value right := by
  apply ExtTreeMap.ext_getElem?
  intro k
  cases found : (collectBy cmp key value left)[k]? with
  | none =>
      cases other : (collectBy cmp key value right)[k]? with
      | none => rfl
      | some v =>
          obtain ⟨item, member, sameKey, _⟩ := exists_of_collectBy_eq_some other
          have present : (collectBy cmp key value left)[k]?.isSome :=
            collectBy_isSome_iff.mpr ⟨item, (same item).mpr member, sameKey⟩
          simp [found] at present
  | some v =>
      obtain ⟨item, member, rfl, rfl⟩ := exists_of_collectBy_eq_some found
      refine (collectBy_eq_some_of_mem ((same item).mp member) ?_).symm
      intro other otherMember sameKey
      exact agree other ((same other).mpr otherMember) item member sameKey

theorem mem_recordInto {recorded : ExtTreeMap κ ν cmp} {key : α → κ} {value : α → ν}
    {items : List α} {k : κ}
    : k ∈ recordInto recorded key value items
      ↔ (∃ item ∈ items, key item = k) ∨ k ∈ recorded := by
  rw [← ExtTreeMap.isSome_getElem?_iff_mem, getElem?_recordInto, Option.isSome_or,
    Bool.or_eq_true, collectBy_isSome_iff, ExtTreeMap.isSome_getElem?_iff_mem]

/-- A map with fewer keys is no larger, because each key is listed once. -/
theorem size_le_of_keys_subset {left right : ExtTreeMap κ ν cmp}
    (subset : ∀ k ∈ left, k ∈ right)
    : left.size ≤ right.size := by
  have keys : left.keys ⊆ right.keys := by
    intro k member
    exact ExtTreeMap.mem_keys.mpr (subset k (ExtTreeMap.mem_keys.mp member))
  simpa only [ExtTreeMap.length_keys] using
    (List.subperm_of_subset ExtTreeMap.nodup_keys keys).length_le

omit [LawfulEqCmp cmp] in
/-- A loop that returns at the first hit tests whether there is one, by induction. -/
theorem forIn_eq_any (entries : List α) (test : α → Bool)
    : (Id.run (do
        for entry in entries do
          if test entry then return true
        return false))
      = entries.any test := by
  induction entries with
  | nil => rfl
  | cons entry rest ih =>
      simp only [List.forIn_cons, List.any_cons] at ih ⊢
      cases test entry with
      | true => rfl
      | false => simpa using ih

omit [LawfulEqCmp cmp] in
/-- Testing the pairs of a map is testing its list of pairs. -/
theorem any_eq_any_toList (recorded : ExtTreeMap κ ν cmp) (test : κ → ν → Bool)
    : recorded.any test = recorded.toList.any (fun entry => test entry.1 entry.2) := by
  obtain ⟨inner⟩ := recorded
  induction inner using ExtDTreeMap.inductionOn with
  | mk tree =>
      change tree.any test
        = (DTreeMap.Const.toList tree).any (fun entry => test entry.1 entry.2)
      rw [← forIn_eq_any, ← DTreeMap.Const.forInUncurried_eq_forIn_toList]
      rfl

/-- A test holds of some pair of a map exactly when it holds at some lookup. -/
theorem any_iff_exists_getElem? {recorded : ExtTreeMap κ ν cmp} {test : κ → ν → Bool}
    : recorded.any test = true ↔ ∃ k v, recorded[k]? = some v ∧ test k v = true := by
  simp only [any_eq_any_toList, List.any_eq_true, Prod.exists,
    ExtTreeMap.mem_toList_iff_getElem?_eq_some]

end ChiaQuery.Library
