import ChiaQuery.Drift.Shapes
import ChiaQuery.Types.Error
import Mathlib.Data.List.Induction

/-! The drift monitor compares the shapes of the API's answers with those of its last update.
It leaves the peak out, whose shape changes from block to block, and nothing else.
-/

namespace ChiaQuery.Drift

open Library

/-- A probe of one endpoint, named in the snapshot. -/
structure Probe where
  name : String
  endpoint : String
  body : Json

/-- `probes`. -/
def probes : List Probe :=
  [
    { name := "get_blockchain_state", endpoint := "get_blockchain_state", body := .object [] },
    { name := "get_network_info", endpoint := "get_network_info", body := .object [] },
    {
      name := "get_block_record_by_height",
      endpoint := "get_block_record_by_height",
      body := .object [("height", .number (.posInt 1))]
    },
    {
      name := "get_coin_record_by_name__error",
      endpoint := "get_coin_record_by_name",
      body := .object [("name", .string ("0x" ++ String.ofList (List.replicate 64 '0')))]
    }
  ]

/-- What `post_raw` comes to for an endpoint and a body. -/
abbrev Answers := String → Json → Except ChiaQueryError Document

/-- The removal of a key from an object. -/
def without (key : String) : Json → Json
  | .object entries => .object (entries.filter (fun entry => entry.1 ≠ key))
  | other => other

/-- A change of the value under a key, where it is an object with that key. -/
def modifyKey (key : String) (change : Json → Json) : Json → Json
  | .object entries =>
      .object (entries.map (fun entry =>
        (entry.1, if entry.1 = key then change entry.2 else entry.2)))
  | other => other

/-- `drop_volatile_peak`. -/
def dropVolatilePeak (shape : Json) : Json :=
  modifyKey "blockchain_state" (without "peak") shape

/-- What a probe keeps of a value: all but the peak, where it asks for the chain's state. -/
def Probe.kept (probe : Probe) (value : Json) : Json :=
  if probe.name = "get_blockchain_state" then dropVolatilePeak value else value

/-- `collect_shapes`. -/
def collectShapes (answers : Answers) : Except ChiaQueryError Json := do
  let shapes ← probes.mapM (fun probe => do
    let response ← answers probe.endpoint probe.body
    return (probe.name, probe.kept (shapeOf response.value)))
  return .object shapes

/-- How a run of the monitor ends: without drift, with some, or with an error. -/
inductive ExitCode where
  | success
  | failure
  | error
  deriving DecidableEq, Repr

/-- A run: its exit code, the drifts it prints, and the snapshot it leaves behind, if there is
one that can be read.
-/
structure Outcome where
  exit : ExitCode
  drifts : List String
  snapshot : Option Json

/-- `run`, and the exit code `main` makes of its error. -/
def run (mode : String) (answers : Answers) (snapshot : Option Json) : Outcome :=
  match collectShapes answers with
  | .error _ => { exit := .error, drifts := [], snapshot }
  | .ok live =>
      if mode = "update" then { exit := .success, drifts := [], snapshot := some live }
      else if mode = "check" then
        match snapshot with
        | none => { exit := .error, drifts := [], snapshot }
        | some baseline =>
            let drifts := diffShapes "" baseline live
            if drifts = [] then { exit := .success, drifts, snapshot }
            else { exit := .failure, drifts, snapshot }
      else { exit := .error, drifts := [], snapshot }

/-- The snapshot after a history of runs. -/
def snapshotAfter (start : Option Json) (history : List (String × Answers)) : Option Json :=
  history.foldl (fun snapshot event => (run event.1 event.2 snapshot).snapshot) start

/-- What the monitor watches of the answers: all the responses without the peak, by the names
of their probes.
-/
def watched (answers : Answers) : Except ChiaQueryError Json := do
  let responses ← probes.mapM (fun probe => do
    let response ← answers probe.endpoint probe.body
    return (probe.name, probe.kept response.value))
  return .object responses

/-- What was watched at the last update in a history of runs that did not fail. -/
def lastUpdate (history : List (String × Answers)) : Option Json :=
  history.reverse.findSome? (fun event =>
    if event.1 = "update" then (watched event.2).toOption else none)

/-- Two answers to a probe that differ in the peak at most. -/
def SameButPeak (probe : Probe) (left right : Except ChiaQueryError Document) : Prop :=
  left.map (fun response => probe.kept response.value)
  = right.map (fun response => probe.kept response.value)

/-- After any history of runs a check compares with the last update: it passes exactly when the
answers agree with those of the update at every position that no empty array hides, prints
exactly their differences, is blind to the peak, and fails where a probe is not answered. It
leaves the snapshot as it is.
-/
structure ChecksLastUpdate (start : Option Json) (history : List (String × Answers)) : Prop where
  passes_iff
    : ∀ base, lastUpdate history = some base → ∀ answers cur, watched answers = .ok cur
        → ((run "check" answers (snapshotAfter start history)).exit = .success
          ↔ ∀ position, ¬ BelowEmptyArray base cur position → AgreeAt base cur position)
  drifts_iff
    : ∀ base, lastUpdate history = some base → ∀ answers cur, watched answers = .ok cur
        → ∀ line,
            line ∈ (run "check" answers (snapshotAfter start history)).drifts
            ↔ Reports "" base cur line
  unanswered
    : ∀ answers failure, watched answers = .error failure
        → ∀ mode snapshot, run mode answers snapshot = { exit := .error, drifts := [], snapshot }
  blind
    : ∀ answers others,
        (∀ probe ∈ probes,
          SameButPeak probe (answers probe.endpoint probe.body) (others probe.endpoint probe.body))
        → ∀ mode snapshot, run mode answers snapshot = run mode others snapshot
  forgets
    : ∀ peak response,
        dropVolatilePeak
            (modifyKey "blockchain_state" (modifyKey "peak" (fun _ => peak)) response)
          = dropVolatilePeak response
  untouched : ∀ answers snapshot, (run "check" answers snapshot).snapshot = snapshot

------------------------------------------------------------------------------------------
-- The shape without the peak is the shape of what has no peak
------------------------------------------------------------------------------------------

theorem shapeOf_without (key : String) (value : Json)
    : without key (shapeOf value) = shapeOf (without key value) := by
  cases value with
  | object entries =>
      rw [shapeOf, without, without, shapeOf, shapeOfEntries_eq_map, shapeOfEntries_eq_map,
        List.filter_map]
      rfl
  | array items => cases items <;> rfl
  | _ => rfl

/-- A change that commutes with the shape does so under a key. -/
theorem shapeOf_modifyKey {change : Json → Json}
    (commutes : ∀ value, change (shapeOf value) = shapeOf (change value)) (key : String)
    (value : Json)
    : modifyKey key change (shapeOf value) = shapeOf (modifyKey key change value) := by
  cases value with
  | object entries =>
      rw [shapeOf, modifyKey, modifyKey, shapeOf, shapeOfEntries_eq_map, shapeOfEntries_eq_map,
        List.map_map, List.map_map]
      congr 1
      refine List.map_congr_left (fun entry _ => ?_)
      simp only [Function.comp_apply]
      split
      · rw [commutes]
      · rfl
  | array items => cases items <;> rfl
  | _ => rfl

theorem Probe.shapeOf_kept (probe : Probe) (value : Json)
    : probe.kept (shapeOf value) = shapeOf (probe.kept value) := by
  unfold Probe.kept dropVolatilePeak
  split
  · exact shapeOf_modifyKey (shapeOf_without "peak") "blockchain_state" value
  · rfl

/-- Two changes under one key are one. -/
theorem modifyKey_modifyKey (key : String) (change before : Json → Json) (value : Json)
    : modifyKey key change (modifyKey key before value)
      = modifyKey key (fun inner => change (before inner)) value := by
  cases value with
  | object entries =>
      rw [modifyKey, modifyKey, modifyKey, List.map_map]
      congr 1
      refine List.map_congr_left (fun entry _ => ?_)
      by_cases same : entry.1 = key <;> simp [same]
  | _ => rfl

/-- What a key held is gone with the key. -/
theorem without_modifyKey (key : String) (change : Json → Json) (value : Json)
    : without key (modifyKey key change value) = without key value := by
  cases value with
  | object entries =>
      rw [modifyKey, without, without]
      congr 1
      induction entries with
      | nil => rfl
      | cons entry rest ih =>
          rw [List.map_cons, List.filter_cons, List.filter_cons, ih]
          by_cases same : entry.1 = key <;> simp [same]
  | _ => rfl

theorem keyed_without {value : Json} (keyed : value.Keyed) (key : String)
    : (without key value).Keyed := by
  cases keyed with
  | object distinct each =>
      refine .object (distinct.sublist (List.filter_sublist.map Prod.fst)) ?_
      intro entry member
      exact each entry (List.mem_of_mem_filter member)
  | _ => constructor <;> assumption

theorem keyed_modifyKey {change : Json → Json}
    (keeps : ∀ value : Json, value.Keyed → (change value).Keyed) {value : Json}
    (keyed : value.Keyed) (key : String)
    : (modifyKey key change value).Keyed := by
  cases keyed with
  | @object entries distinct each =>
      refine .object ?_ ?_
      · rw [List.map_map]
        exact distinct
      · intro entry member
        obtain ⟨before, inside, rfl⟩ := List.mem_map.mp member
        change (if before.1 = key then change before.2 else before.2).Keyed
        split
        · exact keeps _ (each before inside)
        · exact each before inside
  | _ => constructor <;> assumption

theorem Probe.keyed_kept (probe : Probe) {value : Json} (keyed : value.Keyed)
    : (probe.kept value).Keyed := by
  unfold Probe.kept dropVolatilePeak
  split
  · exact keyed_modifyKey (fun _ keyed => keyed_without keyed "peak") keyed "blockchain_state"
  · exact keyed

------------------------------------------------------------------------------------------
-- A run compares what it watches
------------------------------------------------------------------------------------------

/-- What is collected for each value may be computed after all are collected. -/
theorem mapM_map {ε α β γ : Type} (collect : α → Except ε β) (compute : β → γ)
    (values : List α)
    : values.mapM (fun value => (collect value).map compute)
      = (values.mapM collect).map (List.map compute) := by
  induction values with
  | nil => rfl
  | cons value rest ih =>
      rw [List.mapM_cons, List.mapM_cons, ih]
      cases collect value with
      | error failure => rfl
      | ok first => cases rest.mapM collect <;> rfl

theorem collectShapes_eq (answers : Answers)
    : collectShapes answers = (watched answers).map shapeOf := by
  have each : (fun probe : Probe => do
      let response ← answers probe.endpoint probe.body
      return (probe.name, probe.kept (shapeOf response.value)))
      = fun probe => (do
          let response ← answers probe.endpoint probe.body
          return (probe.name, probe.kept response.value) : Except ChiaQueryError _).map
            (fun entry => (entry.1, shapeOf entry.2)) := by
    funext probe
    cases answers probe.endpoint probe.body with
    | error failure => rfl
    | ok response =>
        change Except.ok _ = Except.ok _
        rw [probe.shapeOf_kept]
  rw [collectShapes, each, mapM_map, watched]
  cases probes.mapM (fun probe => do
      let response ← answers probe.endpoint probe.body
      return (probe.name, probe.kept response.value)) with
  | error failure => rfl
  | ok entries =>
      change Except.ok _ = Except.ok _
      rw [shapeOf, shapeOfEntries_eq_map]

/-- The names of the probes are the keys of what is watched, whose values are documents. -/
theorem entries_of_collected {answers : Answers} {asked : List Probe}
    {entries : List (String × Json)}
    (collected
      : List.Forall₂ (fun probe entry => (do
            let response ← answers probe.endpoint probe.body
            return (probe.name, probe.kept response.value) : Except ChiaQueryError _)
          = .ok entry) asked entries)
    : entries.map Prod.fst = asked.map Probe.name ∧ ∀ entry ∈ entries, entry.2.Keyed := by
  induction collected with
  | nil => exact ⟨rfl, fun _ member => absurd member List.not_mem_nil⟩
  | @cons probe entry asked entries answered _ ih =>
      obtain ⟨response, -, same⟩ := bind_eq_ok_iff.mp answered
      cases same
      refine ⟨by rw [List.map_cons, List.map_cons, ih.1], ?_⟩
      intro other member
      rcases List.mem_cons.mp member with rfl | later
      · exact probe.keyed_kept response.keyed
      · exact ih.2 other later

theorem watched_keyed {answers : Answers} {value : Json} (found : watched answers = .ok value)
    : value.Keyed := by
  obtain ⟨entries, collected, same⟩ := bind_eq_ok_iff.mp found
  cases same
  obtain ⟨named, keyed⟩ := entries_of_collected (mapM_eq_ok_iff.mp collected)
  refine .object ?_ keyed
  rw [named]
  decide

theorem run_check {answers : Answers} {cur : Json} (found : watched answers = .ok cur)
    (baseline : Json)
    : run "check" answers (some baseline)
      = {
          exit := if diffShapes "" baseline (shapeOf cur) = [] then .success else .failure,
          drifts := diffShapes "" baseline (shapeOf cur),
          snapshot := some baseline
        } := by
  rw [run, collectShapes_eq, found]
  change (if "check" = "update" then _ else if "check" = "check" then _ else _) = _
  rw [if_neg (by decide), if_pos rfl]
  by_cases silent : diffShapes "" baseline (shapeOf cur) = []
  · simp only [silent, if_true]
  · simp only [silent, if_false]

theorem run_unanswered {answers : Answers} {failure : ChiaQueryError}
    (missed : watched answers = .error failure) (mode : String) (snapshot : Option Json)
    : run mode answers snapshot = { exit := .error, drifts := [], snapshot } := by
  rw [run, collectShapes_eq, missed]
  rfl

/-- The snapshot a run leaves: what an update watched, and otherwise the one it met. -/
theorem run_snapshot (mode : String) (answers : Answers) (snapshot : Option Json)
    : (run mode answers snapshot).snapshot
      = (((if mode = "update" then (watched answers).toOption else none).map shapeOf).or
          snapshot) := by
  cases found : watched answers with
  | error failure =>
      rw [run_unanswered found]
      split <;> rfl
  | ok live =>
      by_cases check : mode = "check"
      · subst check
        rw [if_neg (by decide)]
        cases snapshot with
        | none =>
            rw [run, collectShapes_eq, found]
            rfl
        | some baseline =>
            rw [run_check found]
            rfl
      · rw [run, collectShapes_eq, found]
        simp only [Except.map, check, if_false]
        split <;> rfl

/-- The snapshot after a history is the shape of what the last update watched, by induction on
the history from its end.
-/
theorem snapshotAfter_eq (start : Option Json) (history : List (String × Answers))
    : snapshotAfter start history = ((lastUpdate history).map shapeOf).or start := by
  induction history using List.reverseRecOn with
  | nil => rfl
  | append_singleton history event ih =>
      rw [snapshotAfter, List.foldl_append, List.foldl_cons, List.foldl_nil, run_snapshot]
      change Option.or _ (snapshotAfter start history) = _
      rw [ih, lastUpdate, lastUpdate, List.reverse_append, List.reverse_singleton,
        List.singleton_append, List.findSome?_cons]
      cases if event.1 = "update" then (watched event.2).toOption else none <;> rfl

/-- A history that held an update leaves a keyed snapshot: the shape of a document. -/
theorem keyed_of_lastUpdate {history : List (String × Answers)} {base : Json}
    (last : lastUpdate history = some base)
    : base.Keyed := by
  obtain ⟨event, -, updated⟩ := List.exists_of_findSome?_eq_some last
  split at updated
  · cases found : watched event.2 with
    | error failure =>
        rw [found] at updated
        cases updated
    | ok value =>
        rw [found] at updated
        cases updated
        exact watched_keyed found
  · cases updated

theorem mapM_congr {ε α β : Type} {collect others : α → Except ε β} {values : List α}
    (same : ∀ value ∈ values, collect value = others value)
    : values.mapM collect = values.mapM others := by
  induction values with
  | nil => rfl
  | cons value rest ih =>
      rw [List.mapM_cons, List.mapM_cons, same value List.mem_cons_self,
        ih (fun later member => same later (List.mem_cons_of_mem value member))]

/-- Answers that differ in the peak at most are watched alike. -/
theorem watched_congr {answers others : Answers}
    (same
      : ∀ probe ∈ probes,
          SameButPeak probe (answers probe.endpoint probe.body)
            (others probe.endpoint probe.body))
    : watched answers = watched others := by
  unfold watched
  refine congrArg (fun collected => Except.bind collected _) (mapM_congr ?_)
  intro probe member
  have kept := same probe member
  unfold SameButPeak at kept
  cases answered : answers probe.endpoint probe.body with
  | error failure =>
      cases other : others probe.endpoint probe.body with
      | error text =>
          rw [answered, other] at kept
          cases kept
          rfl
      | ok response =>
          rw [answered, other] at kept
          cases kept
  | ok response =>
      cases other : others probe.endpoint probe.body with
      | error failure =>
          rw [answered, other] at kept
          cases kept
      | ok second =>
          rw [answered, other] at kept
          exact congrArg (fun value => Except.ok (probe.name, value)) (Except.ok.inj kept)

end ChiaQuery.Drift
