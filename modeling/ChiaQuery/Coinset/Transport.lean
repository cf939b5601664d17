import ChiaQuery.Library.JsonDocuments
import ChiaQuery.Library.StreamLoop
import ChiaQuery.Types.Error
import Mathlib.Tactic.Common

/-! The native transport receives a response chunk by chunk. What it keeps never exceeds the
cap, however the body is cut up and whatever length the server advertises for it.
-/

namespace ChiaQuery.Coinset

open Library

/-- `MAX_RESPONSE_BYTES`. -/
def maxResponseBytes : Nat := 256 * 1024 * 1024

/-- `usize::MAX`. -/
def usizeMax : Nat := 2 ^ 64 - 1

/-- `content_length_within_cap`. -/
def contentLengthWithinCap (len : Option UInt64) (cap : Nat) : Bool :=
  match len with
  | some len => len.toNat ≤ cap
  | none => true

/-- `accumulate_within_cap`. -/
def accumulateWithinCap (current chunk cap : Nat) : Except ChiaQueryError Nat :=
  -- The sum saturates, so that no chunk can wrap it below the cap.
  let next := min (current + chunk) usizeMax
  if cap < next then .error (.coinsetHttp s!"coinset response exceeded the {cap}-byte cap")
  else .ok next

/-- A response: the length it advertises, and its body as the stream yields it. A stream that
has ended yields nothing.
-/
structure HttpResponse where
  contentLength : Option UInt64
  body : Nat → Option (Except String (List UInt8))

/-- The pass of `post_json` over one item of the stream. -/
def receiveChunk (buf : List UInt8) (item : Option (Except String (List UInt8)))
    : Loop (List UInt8) (Except ChiaQueryError (List UInt8)) :=
  match item with
  | none => .returned (.ok buf)
  | some (.error text) => .returned (.error (.coinsetHttp text))
  | some (.ok chunk) =>
      match accumulateWithinCap buf.length chunk.length maxResponseBytes with
      | .error failure => .returned (.error failure)
      | .ok _ => .running (buf ++ chunk)

/-- The parsing of a received body. -/
def parseBody (parse : List UInt8 → Except String Json)
    (received : Except ChiaQueryError (List UInt8))
    : Except ChiaQueryError Json :=
  received.bind (fun buf => (parse buf).mapError ChiaQueryError.coinsetHttp)

/-- `post_json`, after a number of items of the response's stream. `sent` is what the request
comes to, and `parse` is `serde_json::from_slice`.
-/
def postJson (parse : List UInt8 → Except String Json) (sent : Except String HttpResponse)
    (items : Nat)
    : Loop (List UInt8) (Except ChiaQueryError Json) :=
  match sent with
  | .error text => .returned (.error (.coinsetHttp text))
  | .ok response =>
      if contentLengthWithinCap response.contentLength maxResponseBytes then
        (Loop.after receiveChunk response.body [] items).andThen (parseBody parse)
      else
        .returned
          (.error
            (.coinsetHttp
              s!"coinset response Content-Length exceeds the {maxResponseBytes}-byte cap"))

/-- The bytes of an item of the stream. -/
def itemBytes : Option (Except String (List UInt8)) → List UInt8
  | some (.ok chunk) => chunk
  | _ => []

namespace HttpResponse

/-- The bytes of the first items of the body. -/
def bytes (response : HttpResponse) : Nat → List UInt8
  | 0 => []
  | items + 1 => response.bytes items ++ itemBytes (response.body items)

/-- The first items of the body all arrive as chunks. -/
def Delivers (response : HttpResponse) (items : Nat) : Prop :=
  ∀ index < items, ∃ chunk, response.body index = some (.ok chunk)

/-- The body arrives whole and in that many chunks. -/
def IsWhole (response : HttpResponse) (items : Nat) : Prop :=
  response.Delivers items ∧ response.body items = none

end HttpResponse

/-- A response is received within the cap: at every moment what is kept is what has arrived, and
fits in the cap; an answer is what a whole body within the cap is parsed as; a body that exceeds
the cap is refused no later than the chunk that exceeds it; and where every chunk brings
something, so that it cannot go on for ever, the response ends.
-/
structure ReceivesWithinCap (parse : List UInt8 → Except String Json) (response : HttpResponse)
    : Prop where
  kept
    : ∀ items buf,
        postJson parse (.ok response) items = .running buf
        → buf = response.bytes items ∧ buf.length ≤ maxResponseBytes
  answered_iff
    : ∀ value,
        Loop.Returns (postJson parse (.ok response)) (.ok value)
        ↔ contentLengthWithinCap response.contentLength maxResponseBytes = true
          ∧ ∃ items, response.IsWhole items
            ∧ (response.bytes items).length ≤ maxResponseBytes
            ∧ parse (response.bytes items) = .ok value
  refused
    : ∀ items,
        response.Delivers items
        → maxResponseBytes < (response.bytes items).length
        → ∃ failure, postJson parse (.ok response) items = .returned (.error failure)
  ends
    : (∀ index chunk, response.body index = some (.ok chunk) → chunk ≠ [])
      → ∃ result, postJson parse (.ok response) (maxResponseBytes + 1) = .returned result

theorem accumulateWithinCap_of_le {current chunk : Nat}
    (under : current + chunk ≤ maxResponseBytes)
    : accumulateWithinCap current chunk maxResponseBytes = .ok (current + chunk) := by
  have room : maxResponseBytes < usizeMax := by decide
  have exact : min (current + chunk) usizeMax = current + chunk := by omega
  simp only [accumulateWithinCap, exact]
  exact if_neg (Nat.not_lt.mpr under)

/-- A chunk that would exceed the cap is refused, saturated or not. -/
theorem accumulateWithinCap_of_lt {current chunk : Nat}
    (exceeds : maxResponseBytes < current + chunk)
    : ∃ text, accumulateWithinCap current chunk maxResponseBytes = .error (.coinsetHttp text) := by
  have room : maxResponseBytes < usizeMax := by decide
  have still : maxResponseBytes < min (current + chunk) usizeMax := by omega
  exact ⟨_, if_pos still⟩

/-- A pass goes on exactly with a chunk that still fits. -/
theorem receiveChunk_eq_running_iff {buf next : List UInt8}
    {item : Option (Except String (List UInt8))}
    : receiveChunk buf item = .running next
      ↔ ∃ chunk, item = some (.ok chunk) ∧ next = buf ++ chunk
        ∧ next.length ≤ maxResponseBytes := by
  rcases item with _ | text | chunk
  · simp [receiveChunk]
  · simp [receiveChunk]
  · by_cases under : (buf ++ chunk).length ≤ maxResponseBytes
    · have summed := accumulateWithinCap_of_le (List.length_append ▸ under)
      simp only [receiveChunk, summed, Loop.running.injEq]
      constructor
      · rintro rfl
        exact ⟨chunk, rfl, rfl, under⟩
      · rintro ⟨_, same, rfl, -⟩
        cases same
        rfl
    · have exceeds : maxResponseBytes < buf.length + chunk.length := by
        rw [← List.length_append]
        omega
      obtain ⟨text, refused⟩ := accumulateWithinCap_of_lt exceeds
      simp only [receiveChunk, refused, reduceCtorEq, false_iff]
      rintro ⟨_, same, rfl, fits⟩
      cases same
      exact under fits

/-- What a pass returns without failing is what was kept when the stream ended. -/
theorem receiveChunk_eq_ok_iff {buf received : List UInt8}
    {item : Option (Except String (List UInt8))}
    : receiveChunk buf item = .returned (.ok received) ↔ item = none ∧ received = buf := by
  rcases item with _ | text | chunk
  · simp [receiveChunk, eq_comm]
  · simp [receiveChunk]
  · simp only [receiveChunk]
    split <;> simp

variable {parse : List UInt8 → Except String Json} {response : HttpResponse}

/-- While chunks arrive, everything that has arrived is kept and fits in the cap. -/
theorem after_receiveChunk_eq_running_iff {items : Nat} {buf : List UInt8}
    : Loop.after receiveChunk response.body [] items = .running buf
      ↔ response.Delivers items ∧ buf = response.bytes items
        ∧ buf.length ≤ maxResponseBytes := by
  induction items generalizing buf with
  | zero =>
      simp only [Loop.after, Loop.running.injEq, HttpResponse.bytes]
      constructor
      · rintro rfl
        exact ⟨fun index below => absurd below (Nat.not_lt_zero index), rfl, Nat.zero_le _⟩
      · rintro ⟨-, rfl, -⟩
        rfl
  | succ items ih =>
      constructor
      · intro running
        obtain ⟨before, kept, went⟩ := Loop.exists_turn_of_running running
        obtain ⟨delivered, rfl, -⟩ := ih.mp kept
        obtain ⟨chunk, arrived, rfl, fits⟩ := receiveChunk_eq_running_iff.mp went
        refine ⟨fun index below => ?_, ?_, fits⟩
        · rcases Nat.lt_succ_iff_lt_or_eq.mp below with earlier | rfl
          · exact delivered index earlier
          · exact ⟨chunk, arrived⟩
        · rw [HttpResponse.bytes, arrived, itemBytes]
      · rintro ⟨delivered, rfl, fits⟩
        obtain ⟨chunk, arrived⟩ := delivered items (Nat.lt_succ_self items)
        have grown : response.bytes (items + 1) = response.bytes items ++ chunk := by
          rw [HttpResponse.bytes, arrived, itemBytes]
        have earlier : (response.bytes items).length ≤ maxResponseBytes := by
          rw [grown, List.length_append] at fits
          omega
        have kept := ih.mpr
          ⟨fun index below => delivered index (Nat.lt_succ_of_lt below), rfl, earlier⟩
        rw [Loop.after_succ_of_running kept]
        exact receiveChunk_eq_running_iff.mpr ⟨chunk, arrived, grown, fits⟩

/-- The loop comes to a body exactly when it arrives whole and fits in the cap. -/
theorem returns_receiveChunk_iff {received : List UInt8}
    : Loop.Returns (Loop.after receiveChunk response.body []) (.ok received)
      ↔ ∃ items, response.IsWhole items ∧ received = response.bytes items
        ∧ received.length ≤ maxResponseBytes := by
  constructor
  · rintro ⟨turns, returned⟩
    obtain ⟨last, -, buf, kept, ended⟩ := Loop.exists_turn_of_returned returned
    obtain ⟨delivered, rfl, fits⟩ := after_receiveChunk_eq_running_iff.mp kept
    obtain ⟨stopped, rfl⟩ := receiveChunk_eq_ok_iff.mp ended
    exact ⟨last, ⟨delivered, stopped⟩, rfl, fits⟩
  · rintro ⟨items, ⟨delivered, stopped⟩, rfl, fits⟩
    have kept := after_receiveChunk_eq_running_iff.mpr ⟨delivered, rfl, fits⟩
    exact ⟨items + 1, (Loop.after_succ_of_running kept).trans
      (receiveChunk_eq_ok_iff.mpr ⟨stopped, rfl⟩)⟩

/-- Where every chunk brings something, as many bytes as chunks have arrived. -/
theorem le_length_bytes
    (something : ∀ index chunk, response.body index = some (.ok chunk) → chunk ≠ [])
    {items : Nat} (delivered : response.Delivers items)
    : items ≤ (response.bytes items).length := by
  induction items with
  | zero => exact Nat.zero_le _
  | succ items ih =>
      have earlier := ih (fun index below => delivered index (Nat.lt_succ_of_lt below))
      obtain ⟨chunk, arrived⟩ := delivered items (Nat.lt_succ_self items)
      have more := List.length_pos_iff.mpr (something items chunk arrived)
      rw [HttpResponse.bytes, arrived, itemBytes, List.length_append]
      omega

theorem parseBody_eq_ok_iff {received : Except ChiaQueryError (List UInt8)} {value : Json}
    : parseBody parse received = .ok value
      ↔ ∃ buf, received = .ok buf ∧ parse buf = .ok value := by
  rw [parseBody, bind_eq_ok_iff]
  refine exists_congr (fun buf => and_congr_right (fun _ => ?_))
  cases parse buf <;> simp [Except.mapError]

theorem postJson_of_advertised
    (advertised : contentLengthWithinCap response.contentLength maxResponseBytes = true)
    (items : Nat)
    : postJson parse (.ok response) items
      = (Loop.after receiveChunk response.body [] items).andThen (parseBody parse) := by
  rw [postJson, if_pos advertised]

theorem postJson_of_overlong
    (overlong : ¬ contentLengthWithinCap response.contentLength maxResponseBytes = true)
    (items : Nat)
    : ∃ failure, postJson parse (.ok response) items = .returned (.error failure) := by
  rw [postJson, if_neg overlong]
  exact ⟨_, rfl⟩

/-- Once more has arrived than fits in the cap, the loop has failed. -/
theorem after_receiveChunk_of_over {items : Nat} (delivered : response.Delivers items)
    (exceeds : maxResponseBytes < (response.bytes items).length)
    : ∃ failure, Loop.after receiveChunk response.body [] items = .returned (.error failure) := by
  cases stands : Loop.after receiveChunk response.body [] items with
  | running buf =>
      obtain ⟨-, rfl, fits⟩ := after_receiveChunk_eq_running_iff.mp stands
      omega
  | returned result =>
      cases result with
      | error failure => exact ⟨failure, rfl⟩
      | ok received =>
          obtain ⟨last, earlier, buf, -, ended⟩ := Loop.exists_turn_of_returned stands
          obtain ⟨stopped, -⟩ := receiveChunk_eq_ok_iff.mp ended
          obtain ⟨chunk, arrived⟩ := delivered last earlier
          rw [stopped] at arrived
          cases arrived

/-- More chunks than the cap has bytes cannot all be kept where each of them brings something. -/
theorem postJson_ends
    (something : ∀ index chunk, response.body index = some (.ok chunk) → chunk ≠ [])
    {items : Nat} (many : maxResponseBytes < items)
    : ∃ result, postJson parse (.ok response) items = .returned result := by
  by_cases advertised : contentLengthWithinCap response.contentLength maxResponseBytes = true
  · rw [postJson_of_advertised advertised]
    cases stands : Loop.after receiveChunk response.body [] items with
    | returned received => exact ⟨_, rfl⟩
    | running buf =>
        obtain ⟨delivered, rfl, fits⟩ := after_receiveChunk_eq_running_iff.mp stands
        have bytes := le_length_bytes something delivered
        omega
  · obtain ⟨failure, failed⟩ := postJson_of_overlong advertised items
    exact ⟨_, failed⟩

/-- A response is received within the cap, whatever the server sends. -/
theorem postJson_receivesWithinCap (parse : List UInt8 → Except String Json)
    (response : HttpResponse)
    : ReceivesWithinCap parse response where
  kept := by
    intro items buf running
    by_cases advertised : contentLengthWithinCap response.contentLength maxResponseBytes = true
    · rw [postJson_of_advertised advertised] at running
      exact (after_receiveChunk_eq_running_iff.mp (Loop.andThen_running.mp running)).2
    · obtain ⟨failure, failed⟩ := postJson_of_overlong advertised items
      rw [failed] at running
      cases running
  answered_iff := by
    intro value
    constructor
    · rintro ⟨turns, returned⟩
      by_cases advertised : contentLengthWithinCap response.contentLength maxResponseBytes = true
      · rw [postJson_of_advertised advertised] at returned
        obtain ⟨received, looped, parsed⟩ := Loop.andThen_returned returned
        obtain ⟨buf, rfl, read⟩ := parseBody_eq_ok_iff.mp parsed
        obtain ⟨items, whole, rfl, fits⟩ := returns_receiveChunk_iff.mp ⟨turns, looped⟩
        exact ⟨advertised, items, whole, fits, read⟩
      · obtain ⟨failure, failed⟩ := postJson_of_overlong advertised turns
        rw [failed] at returned
        cases returned
    · rintro ⟨advertised, items, whole, fits, parsed⟩
      obtain ⟨turns, looped⟩ := returns_receiveChunk_iff.mpr ⟨items, whole, rfl, fits⟩
      refine ⟨turns, ?_⟩
      rw [postJson_of_advertised advertised, looped, Loop.andThen]
      exact congrArg Loop.returned (parseBody_eq_ok_iff.mpr ⟨_, rfl, parsed⟩)
  refused := by
    intro items delivered exceeds
    by_cases advertised : contentLengthWithinCap response.contentLength maxResponseBytes = true
    · obtain ⟨failure, failed⟩ := after_receiveChunk_of_over delivered exceeds
      rw [postJson_of_advertised advertised, failed]
      exact ⟨failure, rfl⟩
    · exact postJson_of_overlong advertised items
  ends := fun something => postJson_ends something (Nat.lt_succ_self _)

end ChiaQuery.Coinset
