import Mathlib.Data.List.Perm.Basic
import Mathlib.Data.List.Nodup

/-! Asking a list of sources in order for one answer of each key. A source whose key has an
answer is passed over, and so is one that does not answer; what is gathered for a key is the
first answer among its sources, whatever order the keys come in.
-/

namespace ChiaQuery.Library

variable {α β κ : Type*} [DecidableEq κ] {key : α → κ} {answer : α → Option β}

/-- Gather the first answer of each key, beside those gathered already. -/
def gatherFrom (key : α → κ) (answer : α → Option β)
    : List (κ × β) → List α → List (κ × β)
  | gathered, [] => gathered
  | gathered, source :: rest =>
      if gathered.any (fun entry => entry.1 = key source) then
        gatherFrom key answer gathered rest
      else
        match answer source with
        | none => gatherFrom key answer gathered rest
        | some value => gatherFrom key answer (gathered ++ [(key source, value)]) rest

/-- The first answer of each key, in the order the sources gave them. -/
def gather (key : α → κ) (answer : α → Option β) (sources : List α) : List (κ × β) :=
  gatherFrom key answer [] sources

/-- The first answer among the sources of one key. -/
def firstAnswer (key : α → κ) (answer : α → Option β) (value : κ) (sources : List α)
    : Option β :=
  (sources.filter (fun source => key source = value)).findSome? answer

theorem any_key_iff {gathered : List (κ × β)} {value : κ}
    : gathered.any (fun entry => entry.1 = value) = true ↔ value ∈ gathered.map Prod.fst := by
  simp [List.any_eq_true]

theorem firstAnswer_cons (source : α) (rest : List α) (value : κ)
    : firstAnswer key answer value (source :: rest)
      = if key source = value then (answer source).or (firstAnswer key answer value rest)
        else firstAnswer key answer value rest := by
  by_cases mine : key source = value
  · rw [if_pos mine, firstAnswer, List.filter_cons_of_pos (by simpa using mine),
      List.findSome?_cons]
    cases answer source <;> rfl
  · rw [if_neg mine, firstAnswer, List.filter_cons_of_neg (by simpa using mine)]
    rfl

/-- No key is gathered twice, by induction on the sources. -/
theorem gatherFrom_keys_nodup {gathered : List (κ × β)} (sources : List α)
    (distinct : (gathered.map Prod.fst).Nodup)
    : ((gatherFrom key answer gathered sources).map Prod.fst).Nodup := by
  induction sources generalizing gathered with
  | nil => exact distinct
  | cons source rest ih =>
      rw [gatherFrom]
      split
      · exact ih distinct
      · rename_i unseen
        rw [any_key_iff] at unseen
        cases answer source with
        | none => exact ih distinct
        | some value =>
            refine ih ?_
            rw [List.map_append, List.map_singleton]
            refine List.nodup_append.mpr ⟨distinct, List.nodup_singleton _, ?_⟩
            intro one member other last same
            rw [same, List.mem_singleton.mp last] at member
            exact unseen member

/-- What is gathered in the end was gathered before, or is the first answer of a key that had
none. Induction on the sources.
-/
theorem mem_gatherFrom {gathered : List (κ × β)} {sources : List α} {value : κ} {found : β}
    : (value, found) ∈ gatherFrom key answer gathered sources
      ↔ (value, found) ∈ gathered
        ∨ value ∉ gathered.map Prod.fst
          ∧ firstAnswer key answer value sources = some found := by
  induction sources generalizing gathered with
  | nil => simp [gatherFrom, firstAnswer]
  | cons source rest ih =>
      rw [gatherFrom, firstAnswer_cons]
      split
      · rename_i seen
        rw [any_key_iff] at seen
        rw [ih]
        by_cases mine : key source = value
        · simp [← mine, seen]
        · rw [if_neg mine]
      · rename_i unseen
        rw [any_key_iff] at unseen
        cases given : answer source with
        | none =>
            rw [ih]
            by_cases mine : key source = value
            · rw [if_pos mine, Option.none_or]
            · rw [if_neg mine]
        | some first =>
            rw [ih, List.mem_append, List.mem_singleton, List.map_append, List.mem_append,
              Prod.mk.injEq]
            by_cases mine : key source = value
            · subst mine
              simp [unseen, eq_comm]
            · have other : value ≠ key source := fun same => mine same.symm
              simp [if_neg mine, other]

theorem gather_keys_nodup (sources : List α)
    : ((gather key answer sources).map Prod.fst).Nodup :=
  gatherFrom_keys_nodup sources List.nodup_nil

/-- What is gathered for a key is the first answer among its sources. -/
theorem mem_gather {sources : List α} {value : κ} {found : β}
    : (value, found) ∈ gather key answer sources
      ↔ firstAnswer key answer value sources = some found := by
  simp [gather, mem_gatherFrom]

/-- What was gathered before stays in front, by induction on the sources. -/
theorem prefix_gatherFrom (gathered : List (κ × β)) (sources : List α)
    : gathered <+: gatherFrom key answer gathered sources := by
  induction sources generalizing gathered with
  | nil => exact List.prefix_rfl
  | cons source rest ih =>
      rw [gatherFrom]
      split
      · exact ih gathered
      · cases answer source with
        | none => exact ih gathered
        | some value => exact (List.prefix_append gathered _).trans (ih _)

/-- Where the sources of one key stand first and one of them answers, its answer is gathered
first. Induction on those sources, past the ones that do not answer.
-/
theorem gather_of_first {mine others : List α} {value : κ} {found : β}
    (all : ∀ source ∈ mine, key source = value) (first : mine.findSome? answer = some found)
    : [(value, found)] <+: gather key answer (mine ++ others) := by
  induction mine with
  | nil => cases first
  | cons source rest ih =>
      rw [gather, List.cons_append, gatherFrom]
      simp only [List.any_nil, Bool.false_eq_true, if_false]
      rw [List.findSome?_cons] at first
      cases given : answer source with
      | none =>
          rw [given] at first
          exact ih (fun other member => all other (List.mem_cons_of_mem source member)) first
      | some one =>
          rw [given] at first
          cases first
          rw [all source List.mem_cons_self]
          exact prefix_gatherFrom _ _

end ChiaQuery.Library
