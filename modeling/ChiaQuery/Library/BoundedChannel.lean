import Mathlib.Data.List.Basic

/-! Bounded channels with one sender and one receiver. `Queue` says what such a channel is for,
and a channel implements it when every operation does to the queue its state stands for what the
queue's own operation does, with the same result.
-/

namespace ChiaQuery.Library

/-- The outcome of an attempt to send. -/
inductive SendResult where
  | ok
  | full
  | closed
  deriving DecidableEq, Repr

/-- What a receiver finds: an item, the end of the stream, or nothing yet. -/
inductive RecvResult (α : Type*) where
  | item (value : α)
  | ended
  | pending
  deriving DecidableEq, Repr

/-- The item found, if one was. -/
def RecvResult.item? {α : Type*} : RecvResult α → Option α
  | .item value => some value
  | _ => none

/-- The operations on a channel whose two halves share the state `Chan`. -/
structure BoundedChannel (Chan α : Type*) where
  create : Nat → Chan
  trySend : Chan → α → Chan × SendResult
  recv : Chan → Chan × RecvResult α
  dropSender : Chan → Chan
  dropReceiver : Chan → Chan

/-- A bounded queue, and which of its halves are still held. -/
structure Queue (α : Type*) where
  buffered : List α
  capacity : Nat
  sending : Bool
  receiving : Bool
  deriving DecidableEq, Repr

variable {α Chan : Type*}

namespace Queue

def trySend (queue : Queue α) (item : α) : Queue α × SendResult :=
  if !queue.receiving then (queue, .closed)
  else if queue.buffered.length < queue.capacity then
    ({ queue with buffered := queue.buffered ++ [item] }, .ok)
  else (queue, .full)

/-- A queue without a sender ends once it is drained. -/
def recv (queue : Queue α) : Queue α × RecvResult α :=
  match queue.buffered with
  | item :: rest => ({ queue with buffered := rest }, .item item)
  | [] => (queue, if queue.sending then .pending else .ended)

/-- The queue is itself a channel. -/
def channel : BoundedChannel (Queue α) α where
  create capacity := { buffered := [], capacity, sending := true, receiving := true }
  trySend := trySend
  recv := recv
  dropSender queue := { queue with sending := false }
  dropReceiver queue := { queue with buffered := [], receiving := false }

/-- An accepted item waits behind the others; a refused one leaves the queue as it was. -/
theorem trySend_cases (queue : Queue α) (item : α)
    : queue.trySend item = ({ queue with buffered := queue.buffered ++ [item] }, .ok)
      ∨ (queue.trySend item).1 = queue ∧ (queue.trySend item).2 ≠ .ok := by
  unfold trySend
  split
  · exact Or.inr ⟨rfl, by simp⟩
  · split
    · exact Or.inl rfl
    · exact Or.inr ⟨rfl, by simp⟩

/-- Receiving moves the first buffered item to the receiver, and keeps the halves. -/
theorem recv_conserves (queue : Queue α)
    : queue.recv.2.item?.toList ++ queue.recv.1.buffered = queue.buffered
      ∧ queue.recv.1.sending = queue.sending := by
  unfold recv
  split
  · rename_i item rest found
    rw [found]
    exact ⟨rfl, rfl⟩
  · rename_i found
    cases queue.sending <;> simp [found, RecvResult.item?]

/-- A queue with room takes its first item. -/
theorem trySend_create {capacity : Nat} (room : 0 < capacity) (item : α)
    : (channel.create capacity : Queue α).trySend item
      = ({ buffered := [item], capacity, sending := true, receiving := true }, .ok) := by
  simp [trySend, channel, room]

end Queue

namespace BoundedChannel

/-- The channel does to the queue that its state stands for what the queue does. -/
structure Implements (channel : BoundedChannel Chan α) (queue : Chan → Queue α) : Prop where
  create
    : ∀ capacity, 0 < capacity
        → queue (channel.create capacity) = Queue.channel.create capacity
  trySend :
    ∀ state item,
      queue (channel.trySend state item).1 = ((queue state).trySend item).1
      ∧ (channel.trySend state item).2 = ((queue state).trySend item).2
  recv :
    ∀ state,
      queue (channel.recv state).1 = (queue state).recv.1
      ∧ (channel.recv state).2 = (queue state).recv.2
  dropSender :
    ∀ state, queue (channel.dropSender state) = { queue state with sending := false }
  dropReceiver :
    ∀ state,
      queue (channel.dropReceiver state)
        = { queue state with buffered := [], receiving := false }

theorem implements_queue : (Queue.channel : BoundedChannel (Queue α) α).Implements id where
  create := fun _ _ => rfl
  trySend := fun _ _ => ⟨rfl, rfl⟩
  recv := fun _ => ⟨rfl, rfl⟩
  dropSender := fun _ => rfl
  dropReceiver := fun _ => rfl

/-- Receiving again and again from the state gives these items, and then `last`. -/
inductive Yields (channel : BoundedChannel Chan α) : Chan → List α → RecvResult α → Prop where
  | ended {state} (found : (channel.recv state).2 = .ended)
    : Yields channel state [] .ended
  | pending {state} (found : (channel.recv state).2 = .pending)
    : Yields channel state [] .pending
  | item {state value rest last} (found : (channel.recv state).2 = .item value)
    (later : Yields channel (channel.recv state).1 rest last)
    : Yields channel state (value :: rest) last

/-- A channel yields what its queue has buffered, and then ends or waits as its sender is
dropped or held. Witness: induction on the buffered items.
-/
theorem Implements.yields {channel : BoundedChannel Chan α} {queue : Chan → Queue α}
    (lawful : channel.Implements queue) (state : Chan)
    : channel.Yields state (queue state).buffered
        (if (queue state).sending then .pending else .ended) := by
  generalize hbuffered : (queue state).buffered = items
  induction items generalizing state with
  | nil =>
      have result := (lawful.recv state).2
      simp only [Queue.recv, hbuffered] at result
      cases hsending : (queue state).sending with
      | false =>
          simp only [hsending] at result
          exact Yields.ended result
      | true =>
          simp only [hsending] at result
          exact Yields.pending result
  | cons item rest ih =>
      obtain ⟨next, result⟩ := lawful.recv state
      simp only [Queue.recv, hbuffered] at next result
      have later := ih (channel.recv state).1 (by rw [next])
      rw [next] at later
      exact Yields.item result later

end BoundedChannel

end ChiaQuery.Library
