import Mathlib.Data.List.Forall2

/-! Binary trees read as lists: the left children along the right spine are the elements, and
the atom that ends the spine closes the list. A loop that takes one element off the tree in
every turn runs its body over the elements and stops.
-/

namespace ChiaQuery.Library

inductive ListTree (α : Type*) where
  | atom (value : α)
  | pair (left right : ListTree α)
  deriving DecidableEq

namespace ListTree

variable {α σ β : Type*}

/-- The elements of the tree read as a list. -/
def spine : ListTree α → List (ListTree α)
  | atom _ => []
  | pair left right => left :: right.spine

/-- The list of some elements, closed by an atom. -/
def ofList (last : α) (items : List (ListTree α)) : ListTree α :=
  items.foldr pair (atom last)

/-- The number of nodes. -/
def size : ListTree α → Nat
  | atom _ => 1
  | pair left right => left.size + right.size + 1

theorem spine_ofList (last : α) (items : List (ListTree α))
    : (ofList last items).spine = items := by
  induction items with
  | nil => rfl
  | cons item items ih => exact congrArg (item :: ·) ih

theorem spine_length_lt_size (tree : ListTree α) : tree.spine.length < tree.size := by
  induction tree with
  | atom value => exact Nat.zero_lt_one
  | pair left right _ ih =>
      simp only [spine, size, List.length_cons]
      omega

/-- The elements of a list are smaller than the list, by induction along the spine. -/
theorem size_lt_of_mem_spine {tree item : ListTree α} (member : item ∈ tree.spine)
    : item.size < tree.size := by
  induction tree with
  | atom value => cases member
  | pair left right _ ih =>
      rw [size]
      rcases List.mem_cons.mp member with rfl | later
      · omega
      · have smaller := ih later
        omega

/-- `while let Some((item, rest)) = next(tree)`: the body is run on one item after the other.
There is no result while the loop, or a loop in its body, still runs after so many turns.
-/
def whileNext (next : ListTree α → Option (ListTree α × ListTree α))
    (body : σ → ListTree α → Option σ)
    : Nat → ListTree α → σ → Option σ
  | 0, _, _ => none
  | turns + 1, tree, state =>
      match next tree with
      | none => some state
      | some (item, rest) => (body state item).bind (whileNext next body turns rest)

/-- `next` takes the first element off a list, and there is none in an atom. -/
structure ReadsSpine (next : ListTree α → Option (ListTree α × ListTree α)) : Prop where
  pair : ∀ left right, next (pair left right) = some (left, right)
  atom : ∀ value, next (atom value) = none

/-- With a turn more than there are elements, the loop has folded its body over them. -/
theorem whileNext_eq_foldl {next : ListTree α → Option (ListTree α × ListTree α)}
    (reads : ReadsSpine next) {body : σ → ListTree α → Option σ} {step : σ → ListTree α → σ}
    {tree : ListTree α}
    (runs : ∀ state, ∀ item ∈ tree.spine, body state item = some (step state item))
    {turns : Nat} (enough : tree.spine.length < turns) (state : σ)
    : whileNext next body turns tree state = some (tree.spine.foldl step state) := by
  induction tree generalizing turns state with
  | atom value =>
      obtain ⟨turns, rfl⟩ := Nat.exists_eq_add_one_of_ne_zero (Nat.ne_of_gt enough)
      rw [whileNext, reads.atom]
      rfl
  | pair left right _ ih =>
      rw [spine, List.length_cons] at enough
      obtain ⟨turns, rfl⟩ := Nat.exists_eq_add_one_of_ne_zero (Nat.ne_zero_of_lt enough)
      rw [whileNext, reads.pair]
      have first := runs state left List.mem_cons_self
      have rest : ∀ state, ∀ item ∈ right.spine, body state item = some (step state item) :=
        fun state item member => runs state item (List.mem_cons_of_mem left member)
      simp only [first, Option.bind_some]
      exact ih rest (Nat.lt_of_succ_lt_succ enough) (step state left)

end ListTree

section Appending

variable {α β : Type*}

/-- Appending what each element gives, if anything, is filtering the list. -/
theorem foldl_append_toList (f : α → Option β) (items : List α) (start : List β)
    : items.foldl (fun found item => found ++ (f item).toList) start
      = start ++ items.filterMap f := by
  induction items generalizing start with
  | nil => exact (List.append_nil start).symm
  | cons item items ih =>
      rw [List.foldl_cons, ih, List.append_assoc]
      cases given : f item <;> simp [given]

/-- Where exactly the elements that pass a test give something, what they give stands in their
order.
-/
theorem forall₂_filter_filterMap {R : α → β → Prop} {test : α → Bool} {f : α → Option β}
    {items : List α}
    (passed : ∀ item ∈ items, test item = true → ∃ given, f item = some given ∧ R item given)
    (failed : ∀ item ∈ items, test item = false → f item = none)
    : List.Forall₂ R (items.filter test) (items.filterMap f) := by
  induction items with
  | nil => exact .nil
  | cons item items ih =>
      have rest := ih (fun other member => passed other (List.mem_cons_of_mem item member))
        (fun other member => failed other (List.mem_cons_of_mem item member))
      cases tested : test item with
      | true =>
          obtain ⟨given, gives, related⟩ := passed item List.mem_cons_self tested
          rw [List.filter_cons_of_pos tested, List.filterMap_cons_some gives]
          exact .cons related rest
      | false =>
          have gives := failed item List.mem_cons_self tested
          rw [List.filter_cons_of_neg (by simp [tested]), List.filterMap_cons_none gives]
          exact rest

end Appending

end ChiaQuery.Library
