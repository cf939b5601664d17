import ChiaQuery.Library.DistinctKeys
import Mathlib.Data.Finset.Card
import Mathlib.Data.List.Perm.Subperm

/-! Going round the buckets of a list, one element of each bucket per pass. A bucket holds the
elements of one key in their order, and the buckets stand in the order their keys first appear.
However early the round is cut off, it has taken a front part of each bucket, and no two of
them differ in length by more than one unless the shorter bucket ran out.
-/

namespace ChiaQuery.Library

variable {α κ : Type*} [DecidableEq κ]

/-- The elements of one key, in their order. -/
def bucketOf (key : α → κ) (items : List α) (k : κ) : List α :=
  items.filter (fun item => key item = k)

/-- The keys in the order they first appear. -/
def keysInOrder (key : α → κ) (items : List α) : List κ :=
  (distinctBy key items).map key

/-- One pass over the buckets takes the element of each that stands at its turn. -/
def takePass (buckets : List (List α)) (turn : Nat) : List α :=
  buckets.filterMap (fun bucket => bucket[turn]?)

/-- The first passes over the buckets. -/
def takePasses (buckets : List (List α)) (passes : Nat) : List α :=
  (List.range passes).flatMap (takePass buckets)

/-- Go round the buckets of a list until they are empty. -/
def roundRobin (key : α → κ) (items : List α) : List α :=
  takePasses ((keysInOrder key items).map (bucketOf key items)) items.length

variable {key : α → κ} {items : List α}

------------------------------------------------------------------------------------------
-- Passes
------------------------------------------------------------------------------------------

omit [DecidableEq κ] in
theorem takePasses_succ (buckets : List (List α)) (passes : Nat)
    : takePasses buckets (passes + 1) = takePasses buckets passes ++ takePass buckets passes := by
  simp [takePasses, List.range_succ]

/-- The first pass takes the heads, and the others are the passes over the tails. -/
theorem takePasses_succ_heads (buckets : List (List α)) (passes : Nat)
    : takePasses buckets (passes + 1)
      = buckets.filterMap List.head? ++ takePasses (buckets.map List.tail) passes := by
  have heads : takePass buckets 0 = buckets.filterMap List.head? := by
    simp only [takePass, List.head?_eq_getElem?]
  have later : takePass (buckets.map List.tail) = fun turn => takePass buckets (turn + 1) := by
    funext turn
    simp [takePass, List.filterMap_map]
  rw [takePasses, List.range_succ_eq_map, List.flatMap_cons, List.flatMap_map, heads, takePasses,
    later]

/-- A pass over empty buckets takes nothing. -/
theorem takePasses_of_empty {buckets : List (List α)} (empty : ∀ bucket ∈ buckets, bucket = [])
    (passes : Nat)
    : takePasses buckets passes = [] := by
  refine List.flatMap_eq_nil_iff.mpr (fun turn _ => ?_)
  refine List.filterMap_eq_nil_iff.mpr (fun bucket member => ?_)
  rw [empty bucket member, List.getElem?_nil]

/-- Once every bucket is empty further passes take nothing, by induction on their number. -/
theorem takePasses_of_exhausted {buckets : List (List α)} {passes : Nat}
    (exhausted : ∀ bucket ∈ buckets, bucket.length ≤ passes) (further : Nat)
    : takePasses buckets (passes + further) = takePasses buckets passes := by
  induction further with
  | zero => rfl
  | succ further ih =>
      have nothing : takePass buckets (passes + further) = [] := by
        refine List.filterMap_eq_nil_iff.mpr (fun bucket member => ?_)
        have short := exhausted bucket member
        exact List.getElem?_eq_none (by omega)
      rw [← Nat.add_assoc, takePasses_succ, nothing, List.append_nil, ih]

/-- Wherever the passes are cut off, some number of them is complete and the next is not over.
Induction on the passes: the cut is within the last of them or before it.
-/
theorem exists_pass_of_cut (buckets : List (List α)) (passes cut : Nat)
    : ∃ complete,
        takePasses buckets complete <+: (takePasses buckets passes).take cut
        ∧ (takePasses buckets passes).take cut <+: takePasses buckets (complete + 1) := by
  induction passes with
  | zero => exact ⟨0, by simp [takePasses], by simp [takePasses]⟩
  | succ passes ih =>
      by_cases within : (takePasses buckets passes).length ≤ cut
      · refine ⟨passes, ?_, List.take_prefix _ _⟩
        rw [takePasses_succ, List.take_append, List.take_of_length_le within]
        exact List.prefix_append _ _
      · have before : (takePasses buckets (passes + 1)).take cut
            = (takePasses buckets passes).take cut := by
          rw [takePasses_succ]
          exact List.take_append_of_le_length (by omega)
        rw [before]
        exact ih

------------------------------------------------------------------------------------------
-- What the passes take of one key
------------------------------------------------------------------------------------------

theorem keysInOrder_nodup (key : α → κ) (items : List α) : (keysInOrder key items).Nodup :=
  distinctBy_keys_nodup key items

theorem mem_keysInOrder {k : κ} : k ∈ keysInOrder key items ↔ ∃ item ∈ items, key item = k := by
  constructor
  · intro listed
    obtain ⟨item, kept, rfl⟩ := List.mem_map.mp listed
    exact ⟨item, mem_of_mem_distinctBy kept, rfl⟩
  · rintro ⟨item, member, rfl⟩
    exact mem_keys_distinctBy member

/-- One more element at the end lists its key unless it is listed already. -/
theorem keysInOrder_append_singleton (key : α → κ) (items : List α) (item : α)
    : keysInOrder key (items ++ [item])
      = keysInOrder key items ++ if key item ∈ keysInOrder key items then [] else [key item] := by
  have listed : key item ∈ keysInOrder key items ↔ key item ∈ items.map key := by
    rw [mem_keysInOrder, List.mem_map]
  rw [keysInOrder, distinctBy, distinctByFrom_append_singleton, List.map_append, ← distinctBy,
    ← keysInOrder]
  by_cases old : key item ∈ items.map key
  · simp [old, listed]
  · simp [old, listed]

theorem bucketOf_append_singleton (key : α → κ) (items : List α) (item : α) (k : κ)
    : bucketOf key (items ++ [item]) k
      = bucketOf key items k ++ if k = key item then [item] else [] := by
  rw [bucketOf, List.filter_append, ← bucketOf]
  by_cases same : k = key item
  · simp [same]
  · simp [same, Ne.symm same]

theorem bucketOf_eq_nil {k : κ} (absent : k ∉ keysInOrder key items)
    : bucketOf key items k = [] := by
  refine List.filter_eq_nil_iff.mpr (fun item member same => absent ?_)
  exact mem_keysInOrder.mpr ⟨item, member, of_decide_eq_true same⟩

theorem key_of_mem_bucketOf {k : κ} {item : α} (member : item ∈ bucketOf key items k)
    : key item = k :=
  of_decide_eq_true (List.mem_filter.mp member).2

/-- One pass takes one element of a listed key, by induction on the keys. -/
theorem filter_takePass_keys {keys : List κ} (distinct : keys.Nodup) (turn : Nat) (k : κ)
    : (takePass (keys.map (bucketOf key items)) turn).filter (fun item => key item = k)
      = if k ∈ keys then ((bucketOf key items k)[turn]?).toList else [] := by
  have taken (first : κ) : ((bucketOf key items first)[turn]?).toList.filter (fun item =>
        key item = k)
      = if first = k then ((bucketOf key items first)[turn]?).toList else [] := by
    cases found : (bucketOf key items first)[turn]? with
    | none => simp
    | some item =>
        have own := key_of_mem_bucketOf (List.mem_of_getElem? found)
        by_cases same : first = k
        · simp [own, same]
        · simp [own, same]
  induction keys with
  | nil => simp [takePass]
  | cons first rest ih =>
      obtain ⟨absent, distinct⟩ := List.nodup_cons.mp distinct
      have split : takePass ((first :: rest).map (bucketOf key items)) turn
          = ((bucketOf key items first)[turn]?).toList
            ++ takePass (rest.map (bucketOf key items)) turn := by
        rw [takePass, List.map_cons, List.filterMap_cons]
        cases (bucketOf key items first)[turn]? <;> rfl
      rw [split, List.filter_append, taken, ih distinct]
      by_cases same : first = k
      · subst same
        simp [absent]
      · simp [same, Ne.symm same]

/-- The passes take the front part of each bucket, one element longer with each pass. -/
theorem filter_takePasses (key : α → κ) (items : List α) (passes : Nat) (k : κ)
    : (takePasses ((keysInOrder key items).map (bucketOf key items)) passes).filter
          (fun item => key item = k)
      = (bucketOf key items k).take passes := by
  induction passes with
  | zero => simp [takePasses]
  | succ passes ih =>
      rw [takePasses_succ, List.filter_append, ih, List.take_add_one,
        filter_takePass_keys (keysInOrder_nodup key items)]
      by_cases listed : k ∈ keysInOrder key items
      · rw [if_pos listed]
      · rw [if_neg listed, bucketOf_eq_nil listed]
        simp

/-- The whole round has of each key what the list has, in the same order. -/
theorem filter_roundRobin (key : α → κ) (items : List α) (k : κ)
    : (roundRobin key items).filter (fun item => key item = k) = bucketOf key items k := by
  rw [roundRobin, filter_takePasses]
  exact List.take_of_length_le (List.length_filter_le _ items)

/-- Lists with the same elements of each key are the same up to order. Induction on the first,
which loses all elements of its first key at a time.
-/
theorem perm_of_bucketOf_eq {left right : List α}
    (same : ∀ k, bucketOf key left k = bucketOf key right k)
    : left.Perm right := by
  induction hlength : left.length using Nat.strong_induction_on generalizing left right with
  | _ length ih =>
      cases left with
      | nil =>
          cases right with
          | nil => exact List.Perm.nil
          | cons item rest =>
              have found := same (key item)
              simp [bucketOf] at found
      | cons item rest =>
          have others : ∀ k,
              bucketOf key ((item :: rest).filter (fun other => !decide (key other = key item))) k
              = bucketOf key (right.filter (fun other => !decide (key other = key item))) k := by
            intro k
            have both := congrArg (List.filter (fun other => !decide (key other = key item)))
              (same k)
            simp only [bucketOf, List.filter_filter] at both ⊢
            simpa only [Bool.and_comm] using both
          have fewer : ((item :: rest).filter (fun other =>
              !decide (key other = key item))).length < length := by
            have bound := List.length_filter_le (fun other => !decide (key other = key item)) rest
            rw [List.filter_cons_of_neg (by simp)]
            simp only [List.length_cons] at hlength
            omega
          have rests := ih _ fewer others rfl
          have mine := same (key item)
          have leftSplit := List.filter_append_perm (fun other => decide (key other = key item))
            (item :: rest)
          have rightSplit := List.filter_append_perm (fun other => decide (key other = key item))
            right
          rw [bucketOf, bucketOf] at mine
          rw [mine] at leftSplit
          exact leftSplit.symm.trans ((rests.append_left _).trans rightSplit)

/-- Going round only reorders. -/
theorem roundRobin_perm (key : α → κ) (items : List α) : (roundRobin key items).Perm items :=
  perm_of_bucketOf_eq (filter_roundRobin key items)

------------------------------------------------------------------------------------------
-- Cut-offs
------------------------------------------------------------------------------------------

/-- A cut-off round has taken a front part of each bucket. -/
theorem bucketOf_take_roundRobin_prefix (key : α → κ) (items : List α) (cut : Nat) (k : κ)
    : bucketOf key ((roundRobin key items).take cut) k <+: bucketOf key items k := by
  rw [← filter_roundRobin key items k]
  exact (List.take_prefix cut (roundRobin key items)).filter _

/-- A cut-off round takes alike of any two buckets, unless one of them ran out: of both it has
taken the complete passes, and at most one element more.
-/
theorem roundRobin_fair (key : α → κ) (items : List α) (cut : Nat) {fewer more : κ}
    (apart
      : (bucketOf key ((roundRobin key items).take cut) fewer).length + 1
        < (bucketOf key ((roundRobin key items).take cut) more).length)
    : (bucketOf key ((roundRobin key items).take cut) fewer).length
      = (bucketOf key items fewer).length := by
  obtain ⟨complete, below, above⟩ := exists_pass_of_cut
    ((keysInOrder key items).map (bucketOf key items)) items.length cut
  have atLeast (k : κ) : min complete (bucketOf key items k).length
      ≤ (bucketOf key ((roundRobin key items).take cut) k).length := by
    have lengths := (below.filter (fun item => key item = k)).length_le
    rw [filter_takePasses, List.length_take] at lengths
    exact lengths
  have atMost (k : κ) : (bucketOf key ((roundRobin key items).take cut) k).length
      ≤ min (complete + 1) (bucketOf key items k).length := by
    have lengths := (above.filter (fun item => key item = k)).length_le
    rw [filter_takePasses, List.length_take] at lengths
    exact lengths
  have fewerLow := atLeast fewer
  have fewerHigh := atMost fewer
  have moreHigh := atMost more
  omega

/-- The first pass takes one element of each key. -/
theorem takePass_zero_keys (key : α → κ) (items : List α)
    : (takePass ((keysInOrder key items).map (bucketOf key items)) 0).map key
      = keysInOrder key items := by
  have heads : ∀ k ∈ keysInOrder key items,
      ((bucketOf key items k)[0]?).map key = some k := by
    intro k listed
    obtain ⟨item, member, same⟩ := mem_keysInOrder.mp listed
    have inside : item ∈ bucketOf key items k :=
      List.mem_filter.mpr ⟨member, decide_eq_true same⟩
    cases found : (bucketOf key items k)[0]? with
    | none =>
        have empty := List.getElem?_eq_none_iff.mp found
        have positive := List.length_pos_of_mem inside
        omega
    | some head => rw [Option.map_some, key_of_mem_bucketOf (List.mem_of_getElem? found)]
  rw [takePass, List.filterMap_map, List.map_filterMap]
  exact (List.filterMap_congr heads).trans List.filterMap_some

/-- A cut-off round reaches as many keys as it has room for. -/
theorem card_keys_take_roundRobin (key : α → κ) (items : List α) (cut : Nat)
    : (((roundRobin key items).take cut).map key).toFinset.card
      = min cut (items.map key).toFinset.card := by
  have distinct := keysInOrder_nodup key items
  have all : (items.map key).toFinset = (keysInOrder key items).toFinset := by
    ext k
    simp [mem_keysInOrder]
  rw [all, List.toFinset_card_of_nodup distinct]
  have firstPass : takePass ((keysInOrder key items).map (bucketOf key items)) 0
      <+: roundRobin key items := by
    cases items with
    | nil => simp [keysInOrder, distinctBy, distinctByFrom, takePass]
    | cons item rest =>
        rw [roundRobin, List.length_cons, takePasses, List.range_succ_eq_map, List.flatMap_cons]
        exact List.prefix_append _ _
  have firstLength : (takePass ((keysInOrder key items).map (bucketOf key items)) 0).length
      = (keysInOrder key items).length := by
    rw [← List.length_map (f := key), takePass_zero_keys]
  by_cases room : cut ≤ (keysInOrder key items).length
  · have front : (roundRobin key items).take cut
        = (takePass ((keysInOrder key items).map (bucketOf key items)) 0).take cut := by
      obtain ⟨later, split⟩ := firstPass
      rw [← split, List.take_append_of_le_length (by omega)]
    rw [front, List.map_take, takePass_zero_keys,
      List.toFinset_card_of_nodup (distinct.sublist (List.take_sublist _ _)), List.length_take]
  · have whole : (((roundRobin key items).take cut).map key).toFinset
        = (keysInOrder key items).toFinset := by
      ext k
      rw [List.mem_toFinset, List.mem_toFinset]
      constructor
      · intro taken
        obtain ⟨item, kept, rfl⟩ := List.mem_map.mp taken
        have member := (roundRobin_perm key items).mem_iff.mp (List.mem_of_mem_take kept)
        exact mem_keysInOrder.mpr ⟨item, member, rfl⟩
      · intro listed
        have inFront : takePass ((keysInOrder key items).map (bucketOf key items)) 0
            <+: (roundRobin key items).take cut := by
          refine List.prefix_take_iff.mpr ⟨firstPass, ?_⟩
          omega
        rw [← takePass_zero_keys key items] at listed
        exact (inFront.map key).subset listed
    rw [whole, List.toFinset_card_of_nodup distinct]
    omega

end ChiaQuery.Library
