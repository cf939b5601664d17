import Mathlib.Data.Finset.Card

/-! Statements that several domains make, each of which may be faulty as a whole. What more
domains state than can be faulty is what a sound one states.
-/

namespace ChiaQuery.Library

variable {δ β : Type*}

/-- As many different domains as the floor asks for state the value. -/
def Backed (states : δ → β → Prop) (floor : Nat) (value : β) : Prop :=
  ∃ domains : List δ,
    domains.Nodup ∧ floor ≤ domains.length ∧ ∀ domain ∈ domains, states domain value

namespace Backed

variable {states : δ → β → Prop} {floor : Nat} {value : β}

/-- Fewer faulty domains than the floor leave a sound one among those that back the value. -/
theorem exists_sound [DecidableEq δ] (backed : Backed states floor value) {faulty : Finset δ}
    (few : faulty.card < floor)
    : ∃ domain, domain ∉ faulty ∧ states domain value := by
  obtain ⟨domains, distinct, enough, each⟩ := backed
  by_contra none
  have within : domains.toFinset ⊆ faulty := by
    intro domain member
    by_contra sound
    exact none ⟨domain, sound, each domain (List.mem_toFinset.mp member)⟩
  have bound := Finset.card_le_card within
  rw [List.toFinset_card_of_nodup distinct] at bound
  omega

/-- What holds of every statement of a sound domain holds of a value backed by more domains than
are faulty.
-/
theorem holds [DecidableEq δ] (backed : Backed states floor value) {faulty : Finset δ}
    (few : faulty.card < floor) (sound : β → Prop)
    (honest : ∀ domain, domain ∉ faulty → ∀ value, states domain value → sound value)
    : sound value := by
  obtain ⟨domain, outside, stated⟩ := backed.exists_sound few
  exact honest domain outside value stated

end Backed

end ChiaQuery.Library
