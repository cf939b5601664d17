import Mathlib.Data.List.Basic

/-! Messages in flight towards a store, seen from one key. A message carries a value for the
key or none; one that carries none leaves what the store holds alone when it spares it.
-/

namespace ChiaQuery.Library

variable {μ ν : Type*}

/-- Some message carries a value for the key. -/
def Overridden (carried : μ → Option ν) (messages : List μ) : Prop :=
  ∃ message ∈ messages, (carried message).isSome = true

instance (carried : μ → Option ν) (messages : List μ)
    : Decidable (Overridden carried messages) :=
  inferInstanceAs (Decidable (∃ message ∈ messages, (carried message).isSome = true))

/-- Applied in order to a store that holds `held`, the messages end in `final`: each carried
value replaces what is held, and every other message spares it, unless a later message
carries a value anyway.
-/
def Leads (carried : μ → Option ν) (Spares : μ → Option ν → Prop)
    : Option ν → List μ → Option ν → Prop
  | held, [], final => held = final
  | held, message :: rest, final =>
      match carried message with
      | some value => Leads carried Spares (some value) rest final
      | none =>
          (Overridden carried rest ∨ Spares message held)
          ∧ Leads carried Spares held rest final

namespace Leads

variable {carried : μ → Option ν} {Spares : μ → Option ν → Prop}
variable {held other final : Option ν} {message : μ} {messages : List μ} {value : ν}

theorem cons_of_some (h : carried message = some value)
    : Leads carried Spares held (message :: messages) final
      ↔ Leads carried Spares (some value) messages final := by
  simp only [Leads, h]

theorem cons_of_none (h : carried message = none)
    : Leads carried Spares held (message :: messages) final
      ↔ (Overridden carried messages ∨ Spares message held)
        ∧ Leads carried Spares held messages final := by
  simp only [Leads, h]

/-- What is held does not matter when a message carries a value. Induction on the messages:
the first carried value takes over.
-/
theorem of_overridden (overridden : Overridden carried messages)
    (h : Leads carried Spares held messages final)
    : Leads carried Spares other messages final := by
  induction messages with
  | nil =>
      obtain ⟨message, member, _⟩ := overridden
      cases member
  | cons message rest ih =>
      cases carries : carried message with
      | some value => exact (cons_of_some carries).mpr ((cons_of_some carries).mp h)
      | none =>
          obtain ⟨_, h⟩ := (cons_of_none carries).mp h
          have later : Overridden carried rest := by
            obtain ⟨found, member, present⟩ := overridden
            rcases List.mem_cons.mp member with rfl | member
            · simp [carries] at present
            · exact ⟨found, member, present⟩
          exact (cons_of_none carries).mpr ⟨Or.inl later, ih later h⟩

/-- A last message that carries a value decides the end, whatever is held. -/
theorem append_of_some (carries : carried message = some value) (messages : List μ)
    : Leads carried Spares held (messages ++ [message]) (some value) := by
  have overridden (before : List μ) : Overridden carried (before ++ [message]) :=
    ⟨message, by simp, by simp [carries]⟩
  induction messages generalizing held with
  | nil => exact (cons_of_some carries).mpr rfl
  | cons first rest ih =>
      cases firstCarries : carried first with
      | some earlier => exact (cons_of_some firstCarries).mpr ih
      | none => exact (cons_of_none firstCarries).mpr ⟨Or.inl (overridden rest), ih⟩

/-- A last message that carries nothing keeps the end it spares. -/
theorem append_of_none (carries : carried message = none) (spares : Spares message final)
    (h : Leads carried Spares held messages final)
    : Leads carried Spares held (messages ++ [message]) final := by
  induction messages generalizing held with
  | nil =>
      cases h
      exact (cons_of_none carries).mpr ⟨Or.inr spares, rfl⟩
  | cons first rest ih =>
      cases firstCarries : carried first with
      | some earlier =>
          exact (cons_of_some firstCarries).mpr (ih ((cons_of_some firstCarries).mp h))
      | none =>
          obtain ⟨reason, h⟩ := (cons_of_none firstCarries).mp h
          refine (cons_of_none firstCarries).mpr ⟨reason.imp_left ?_, ih h⟩
          intro overridden
          obtain ⟨found, member, present⟩ := overridden
          exact ⟨found, List.mem_append_left _ member, present⟩

/-- Sparing more only helps. -/
theorem mono {Kinder : μ → Option ν → Prop}
    (kinder : ∀ message held, Spares message held → Kinder message held)
    (h : Leads carried Spares held messages final)
    : Leads carried Kinder held messages final := by
  induction messages generalizing held with
  | nil => exact h
  | cons message rest ih =>
      cases carries : carried message with
      | some value => exact (cons_of_some carries).mpr (ih ((cons_of_some carries).mp h))
      | none =>
          obtain ⟨reason, h⟩ := (cons_of_none carries).mp h
          exact (cons_of_none carries).mpr ⟨reason.imp_right (kinder message held), ih h⟩

/-- The first message arrives at a store that takes carried values and keeps what is
spared.
-/
theorem tail (h : Leads carried Spares held (message :: messages) final)
    (takes : ∀ value, carried message = some value → other = some value)
    (keeps : carried message = none → Spares message held → other = held)
    : Leads carried Spares other messages final := by
  cases carries : carried message with
  | some value =>
      rw [takes value carries]
      exact (cons_of_some carries).mp h
  | none =>
      obtain ⟨reason, h⟩ := (cons_of_none carries).mp h
      rcases reason with overridden | spares
      · exact of_overridden overridden h
      · rwa [keeps carries spares]

/-- Past the first message what is held still does not matter when a later one carries a
value.
-/
theorem later (overridden : Overridden carried messages)
    (h : Leads carried Spares held (message :: messages) final)
    : Leads carried Spares other messages final := by
  cases carries : carried message with
  | some value => exact of_overridden overridden ((cons_of_some carries).mp h)
  | none => exact of_overridden overridden ((cons_of_none carries).mp h).2

theorem not_overridden_cons (h : ¬ Overridden carried (message :: messages))
    : carried message = none ∧ ¬ Overridden carried messages := by
  constructor
  · rw [← Option.not_isSome_iff_eq_none]
    intro present
    exact h ⟨message, List.mem_cons_self, present⟩
  · intro overridden
    obtain ⟨found, member, present⟩ := overridden
    exact h ⟨found, List.mem_cons_of_mem message member, present⟩

/-- Without a carried value the messages lead exactly from a value to itself, when each of
them spares it.
-/
theorem iff_of_not_overridden (silent : ¬ Overridden carried messages)
    : Leads carried Spares held messages final
      ↔ held = final ∧ ∀ message ∈ messages, Spares message held := by
  induction messages with
  | nil => simp [Leads]
  | cons message rest ih =>
      obtain ⟨carries, silent⟩ := not_overridden_cons silent
      rw [cons_of_none carries, ih silent, List.forall_mem_cons]
      constructor
      · rintro ⟨reason, same, spares⟩
        exact ⟨same, reason.resolve_left silent, spares⟩
      · rintro ⟨same, first, spares⟩
        exact ⟨Or.inr first, same, spares⟩

end Leads

end ChiaQuery.Library
