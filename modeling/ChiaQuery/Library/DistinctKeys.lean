import Mathlib.Data.Finset.Card
import Mathlib.Data.List.Nodup
import Mathlib.Data.List.Perm.Basic

/-! Keeping the first element of each key, and the facts a reader needs about the result.
The traversal carries the keys already seen, exactly as an insert-and-test loop does.
-/

namespace ChiaQuery.Library

variable {α κ : Type*} [DecidableEq κ]

/-- Keep the elements of the list whose key is new, given the keys already `seen`. -/
def distinctByFrom (key : α → κ) (seen : List κ) : List α → List α
  | [] => []
  | item :: rest =>
      if key item ∈ seen then distinctByFrom key seen rest
      else item :: distinctByFrom key (key item :: seen) rest

/-- Keep the first element of each key, in the order of the list. -/
def distinctBy (key : α → κ) (items : List α) : List α :=
  distinctByFrom key [] items

/-- The traversal only drops elements, by induction on the list. -/
theorem distinctByFrom_sublist (key : α → κ) (seen : List κ) (items : List α)
    : (distinctByFrom key seen items).Sublist items := by
  induction items generalizing seen with
  | nil => simp [distinctByFrom]
  | cons item rest ih =>
      unfold distinctByFrom
      split
      · exact (ih seen).cons item
      · exact (ih (key item :: seen)).cons_cons item

/-- No kept element repeats a key seen before the traversal started. -/
theorem distinctByFrom_fresh {key : α → κ} {seen : List κ} {items : List α} {item : α}
    (member : item ∈ distinctByFrom key seen items)
    : key item ∉ seen := by
  induction items generalizing seen with
  | nil => simp [distinctByFrom] at member
  | cons head rest ih =>
      unfold distinctByFrom at member
      split at member
      · exact ih member
      · rename_i absent
        rcases List.mem_cons.mp member with same | later
        · exact same ▸ absent
        · exact fun old => ih later (List.mem_cons_of_mem _ old)

/-- Kept keys are pairwise different, since each kept key joins the seen keys. -/
theorem distinctByFrom_keys_nodup (key : α → κ) (seen : List κ) (items : List α)
    : ((distinctByFrom key seen items).map key).Nodup := by
  induction items generalizing seen with
  | nil => simp [distinctByFrom]
  | cons item rest ih =>
      unfold distinctByFrom
      split
      · exact ih seen
      · simp only [List.map_cons, List.nodup_cons]
        refine ⟨?_, ih _⟩
        intro repeated
        obtain ⟨later, member, same⟩ := List.mem_map.mp repeated
        exact distinctByFrom_fresh member (by simp [same])

/-- Every key of the list was seen before or is kept, since a dropped element's key was seen.
Witness: induction on the list.
-/
theorem mem_keys_distinctByFrom {key : α → κ} {seen : List κ} {items : List α} {item : α}
    (member : item ∈ items) (fresh : key item ∉ seen)
    : key item ∈ (distinctByFrom key seen items).map key := by
  induction items generalizing seen with
  | nil => cases member
  | cons head rest ih =>
      unfold distinctByFrom
      rcases List.mem_cons.mp member with same | later
      · subst same
        simp [fresh]
      · split
        · exact ih later fresh
        · by_cases same : key item = key head
          · simp [same]
          · exact List.mem_cons_of_mem _ (ih later (by simp [same, fresh]))

/-- Keeping first occurrences only drops elements. -/
theorem distinctBy_sublist (key : α → κ) (items : List α)
    : (distinctBy key items).Sublist items :=
  distinctByFrom_sublist key [] items

/-- Every kept element comes from the list. -/
theorem mem_of_mem_distinctBy {key : α → κ} {items : List α} {item : α}
    (member : item ∈ distinctBy key items)
    : item ∈ items :=
  (distinctBy_sublist key items).subset member

/-- Keeping first occurrences loses no key. -/
theorem mem_keys_distinctBy {key : α → κ} {items : List α} {item : α} (member : item ∈ items)
    : key item ∈ (distinctBy key items).map key :=
  mem_keys_distinctByFrom member List.not_mem_nil

/-- Kept keys are pairwise different. -/
theorem distinctBy_keys_nodup (key : α → κ) (items : List α)
    : ((distinctBy key items).map key).Nodup :=
  distinctByFrom_keys_nodup key [] items

/-- One element is kept for each key that occurs. -/
theorem length_distinctBy (key : α → κ) (items : List α)
    : (distinctBy key items).length = (items.map key).toFinset.card := by
  have sameKeys : ((distinctBy key items).map key).toFinset = (items.map key).toFinset := by
    ext k
    simp only [List.mem_toFinset]
    constructor
    · intro kept
      obtain ⟨item, member, rfl⟩ := List.mem_map.mp kept
      exact List.mem_map_of_mem (mem_of_mem_distinctBy member)
    · intro held
      obtain ⟨item, member, rfl⟩ := List.mem_map.mp held
      exact mem_keys_distinctBy member
  rw [← sameKeys, List.toFinset_card_of_nodup (distinctBy_keys_nodup key items),
    List.length_map]

/-- A kept element is the first of its key, by induction on the list. -/
theorem exists_first_of_mem_distinctByFrom {key : α → κ} {seen : List κ} {items : List α}
    {item : α} (kept : item ∈ distinctByFrom key seen items)
    : ∃ before after,
        items = before ++ item :: after ∧ ∀ other ∈ before, key other ≠ key item := by
  induction items generalizing seen with
  | nil => simp [distinctByFrom] at kept
  | cons head rest ih =>
      unfold distinctByFrom at kept
      split at kept
      · rename_i old
        obtain ⟨before, after, rfl, first⟩ := ih kept
        refine ⟨head :: before, after, rfl, fun other member => ?_⟩
        rcases List.mem_cons.mp member with rfl | earlier
        · exact fun same => distinctByFrom_fresh kept (same ▸ old)
        · exact first other earlier
      · rcases List.mem_cons.mp kept with rfl | later
        · exact ⟨[], rest, rfl, by simp⟩
        · obtain ⟨before, after, rfl, first⟩ := ih later
          refine ⟨head :: before, after, rfl, fun other member => ?_⟩
          rcases List.mem_cons.mp member with rfl | earlier
          · exact fun same => distinctByFrom_fresh later (by simp [same])
          · exact first other earlier

/-- In an ordered list the kept element of a key comes before the others of the key. -/
theorem ordered_of_mem_distinctBy {key : α → κ} {items : List α} {order : α → α → Prop}
    (reflexive : ∀ item, order item item) (ordered : items.Pairwise order) {item other : α}
    (kept : item ∈ distinctBy key items) (member : other ∈ items) (same : key other = key item)
    : order item other := by
  obtain ⟨before, after, rfl, first⟩ := exists_first_of_mem_distinctByFrom kept
  rcases List.mem_append.mp member with earlier | later
  · exact absurd same (first other earlier)
  · rcases List.mem_cons.mp later with rfl | later
    · exact reflexive other
    · exact (List.pairwise_cons.mp (List.pairwise_append.mp ordered).2.1).1 other later

/-- One more element at the end is kept when its key is new. Induction on the list. -/
theorem distinctByFrom_append_singleton (key : α → κ) (seen : List κ) (items : List α)
    (item : α)
    : distinctByFrom key seen (items ++ [item])
      = distinctByFrom key seen items
        ++ if key item ∈ seen ∨ key item ∈ items.map key then [] else [item] := by
  induction items generalizing seen with
  | nil => by_cases old : key item ∈ seen <;> simp [distinctByFrom, old]
  | cons head rest ih =>
      rw [List.cons_append, distinctByFrom, distinctByFrom]
      split
      · rename_i old
        rw [ih]
        have same : (key item ∈ seen ∨ key item ∈ rest.map key)
            ↔ (key item ∈ seen ∨ key item ∈ (head :: rest).map key) := by
          rw [List.map_cons, List.mem_cons]
          constructor
          · tauto
          · rintro (seen | same | later)
            · exact Or.inl seen
            · exact Or.inl (same ▸ old)
            · exact Or.inr later
        simp only [same]
      · rw [ih, List.cons_append]
        simp only [List.map_cons, List.mem_cons, or_left_comm, or_assoc]

omit [DecidableEq κ] in
/-- A list is its last element exactly when it has no more than that. -/
theorem map_eq_toList_getLast?_iff {β : Type*} {f : α → β} {items : List α}
    : items.map f = (items.getLast?.map f).toList ↔ items.length ≤ 1 := by
  constructor
  · intro same
    have lengths := congrArg List.length same
    rw [List.length_map, Option.length_toList] at lengths
    split at lengths <;> omega
  · intro few
    cases items with
    | nil => rfl
    | cons item rest =>
        obtain rfl : rest = [] := List.eq_nil_of_length_eq_zero (by simpa using few)
        rfl

/-- Keys are pairwise different exactly when each has at most one element. -/
theorem nodup_keys_iff {key : α → κ} {items : List α}
    : (items.map key).Nodup ↔ ∀ k, (items.filter (fun item => key item = k)).length ≤ 1 := by
  rw [List.nodup_iff_count_le_one]
  refine forall_congr' (fun k => ?_)
  rw [List.count_eq_countP, List.countP_map, List.countP_eq_length_filter]
  rfl

/-- A change at one key changes the position that has it, since no other has. Witness: induction
on the list.
-/
theorem map_at_key_eq_modify {β : Type*} {items : List (κ × β)}
    (distinct : (items.map Prod.fst).Nodup) {position : Nat} {key : κ} {value : β}
    (found : items[position]? = some (key, value)) (change : β → β)
    : items.map (fun item => if item.1 = key then (item.1, change item.2) else item)
      = items.modify position (fun item => (item.1, change item.2)) := by
  induction items generalizing position with
  | nil => simp at found
  | cons head rest ih =>
      obtain ⟨absent, restDistinct⟩ := List.nodup_cons.mp distinct
      cases position with
      | zero =>
          simp only [List.getElem?_cons_zero, Option.some.injEq] at found
          subst found
          have others : rest.map (fun item =>
              if item.1 = key then (item.1, change item.2) else item) = rest := by
            refine (List.map_congr_left ?_).trans (List.map_id rest)
            intro item member
            have other : item.1 ≠ key := fun same =>
              absent (List.mem_map.mpr ⟨item, member, same⟩)
            simp [other]
          simp [others]
      | succ position =>
          simp only [List.getElem?_cons_succ] at found
          have other : head.1 ≠ key := by
            intro same
            exact absent (List.mem_map.mpr ⟨_, List.mem_of_getElem? found, same.symm⟩)
          simp [other, ih restDistinct found]

end ChiaQuery.Library
