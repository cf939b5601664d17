import ChiaQuery.Peer.Conditions
import ChiaQuery.Router.BlockRanges
import ChiaQuery.Router.GradedReads
import Mathlib.Algebra.Order.BigOperators.Group.List
import Mathlib.Algebra.Order.Group.Nat

/-! What is read from a block by running its generator: the coins it makes and spends, and the
spends themselves. Two readers list the spends; one of them reads their conditions as well, from
the nodes of a spend, and these are the ones that its text is run to.
-/

namespace ChiaQuery

open Library

/-- `TransactionsInfo`, with the field the readers of a block use. -/
structure TransactionsInfo where
  rewardClaimsIncorporated : List ProtocolCoin

/-- `FullBlock`, with the parts its readers use. -/
structure FullBlock where
  foliageTransactionBlock : Option FoliageTransactionBlock
  transactionsInfo : Option TransactionsInfo
  transactionsGenerator : Option (List UInt8)

/-- `SpendConditions`, with the atoms and the amount that name the spent coin. -/
structure SpendConditions where
  parentId : List UInt8
  puzzleHash : List UInt8
  coinAmount : UInt64

/-- What the readers of a block call of the consensus crates. A generator that refers to no
other block has the same arguments every time.
-/
structure GeneratorCrates where
  additionsAndRemovals
    : List UInt8
      → Except String (List (ProtocolCoin × Option (List UInt8)) × List (Bytes32 × ProtocolCoin))
  runBlockGenerator2 : List UInt8 → Except String (List SpendConditions)
  nodeFromBytesBackrefs : List UInt8 → Except String Sexp
  setupGeneratorArgs : Except String Sexp
  getPuzzleAndSolutionForCoin : Sexp → ProtocolCoin → Except String (Sexp × Sexp)

/-- All that reading the conditions of a block takes. -/
structure BlockReader where
  toValue : FullBlock → Except String Json
  generator : GeneratorCrates
  clvm : ClvmCrates
  runner : PuzzleRunner

/-- `block_timestamp`. -/
def blockTimestamp (block : FullBlock) : UInt64 :=
  (block.foliageTransactionBlock.map (·.timestamp)).getD 0

/-- `reward_coins`. -/
def rewardCoins (block : FullBlock) (height : UInt32) : List CoinRecord :=
  match block.transactionsInfo with
  | none => []
  | some info =>
      info.rewardClaimsIncorporated.map (fun coin =>
        {
          coin := Coin.fromProtocol coin,
          confirmedBlockIndex := height,
          spentBlockIndex := 0,
          spent := false,
          coinbase := true,
          timestamp := blockTimestamp block
        })

/-- `block_additions_and_removals`. -/
def blockAdditionsAndRemovals (crates : GeneratorCrates) (block : FullBlock) (height : UInt32)
    : Except ChiaQueryError AdditionsAndRemovals :=
  match block.transactionsGenerator with
  | none => .ok { additions := rewardCoins block height, removals := [] }
  | some generator => do
      let (rawAdditions, rawRemovals) ←
        (crates.additionsAndRemovals generator).mapError
          (fun failure => .peerConnection s!"CLVM execution failed: {failure}")
      let additions := rawAdditions.map (fun (coin, _) =>
        ({
          coin := Coin.fromProtocol coin,
          confirmedBlockIndex := height,
          spentBlockIndex := 0,
          spent := false,
          coinbase := false,
          timestamp := blockTimestamp block
        } : CoinRecord))
      let removals := rawRemovals.map (fun (_, coin) =>
        ({
          coin := Coin.fromProtocol coin,
          confirmedBlockIndex := 0,
          spentBlockIndex := height,
          spent := true,
          coinbase := false,
          timestamp := 0
        } : CoinRecord))
      return { additions := additions ++ rewardCoins block height, removals }

/-- The spent coin, none where an atom that names it does not have 32 bytes and unwrapping it
panics.
-/
def SpendConditions.removal (spend : SpendConditions) : Option ProtocolCoin := do
  let parentCoinInfo ← bytes32Of spend.parentId
  let puzzleHash ← bytes32Of spend.puzzleHash
  return { parentCoinInfo, puzzleHash, amount := spend.coinAmount }

namespace BlockReader

/-- How both readers of spends begin: what the generator spends, and what it returns. -/
def runGenerator (reader : BlockReader) (generator : List UInt8)
    : Except ChiaQueryError (List SpendConditions × Sexp) := do
  let spends ←
    (reader.generator.runBlockGenerator2 generator).mapError
      (fun failure => .peerConnection s!"run_block_generator2 failed: {failure}")
  let program ←
    (reader.generator.nodeFromBytesBackrefs generator).mapError
      (fun failure => .peerConnection s!"parse generator: {failure}")
  let args ←
    reader.generator.setupGeneratorArgs.mapError
      (fun failure => .peerConnection s!"setup args: {failure}")
  let generatorOutput ←
    (reader.runner.runProgram program args).mapError
      (fun failure => .peerConnection s!"run_program: {failure}")
  return (spends, generatorOutput)

/-- The bytes of a node, and none where it does not serialise. -/
def bytesOrDefault (reader : BlockReader) (node : Sexp) : List UInt8 :=
  match reader.clvm.nodeToBytes node with
  | .ok bytes => bytes
  | .error _ => []

/-- The spend of a coin, as both readers of spends state it. -/
def coinSpendOf (reader : BlockReader) (removal : ProtocolCoin) (puzzleNode solutionNode : Sexp)
    : CoinSpend where
  coin := Coin.fromProtocol removal
  puzzleReveal := hexBytes (reader.bytesOrDefault puzzleNode)
  solution := hexBytes (reader.bytesOrDefault solutionNode)

/-- One turn of the loop of `block_spends`. -/
def collectSpend (reader : BlockReader) (generatorOutput : Sexp) (spends : List CoinSpend)
    (spend : SpendConditions)
    : Option (List CoinSpend) := do
  let removal ← spend.removal
  match reader.generator.getPuzzleAndSolutionForCoin generatorOutput removal with
  | .error _ => return spends
  | .ok (puzzleNode, solutionNode) =>
      return spends ++ [reader.coinSpendOf removal puzzleNode solutionNode]

/-- `block_spends`, none where it panics. -/
def blockSpends (reader : BlockReader) (block : FullBlock)
    : Option (Except ChiaQueryError (List CoinSpend)) :=
  match block.transactionsGenerator with
  | none => some (.ok [])
  | some generator =>
      match reader.runGenerator generator with
      | .error failure => some (.error failure)
      | .ok (spends, generatorOutput) =>
          (spends.foldlM (reader.collectSpend generatorOutput) []).map .ok

/-- The conditions of a spend, from its nodes: one that cannot be run has none. -/
def nodeConditions (reader : BlockReader) (turns : Nat) (puzzleNode solutionNode : Sexp)
    : Option (List Condition) :=
  match reader.runner.runProgram puzzleNode solutionNode with
  | .ok output => reader.clvm.parseConditions turns output
  | .error _ => some []

/-- One turn of the loop of `block_spends_with_conditions`. -/
def collectSpendWithConditions (reader : BlockReader) (turns : Nat) (generatorOutput : Sexp)
    (items : List (CoinSpendWithConditions Condition)) (spend : SpendConditions)
    : Option (List (CoinSpendWithConditions Condition)) := do
  let removal ← spend.removal
  match reader.generator.getPuzzleAndSolutionForCoin generatorOutput removal with
  | .error _ => return items
  | .ok (puzzleNode, solutionNode) =>
      let conditions ← reader.nodeConditions turns puzzleNode solutionNode
      return items
        ++ [{ coinSpend := reader.coinSpendOf removal puzzleNode solutionNode, conditions }]

/-- `block_spends_with_conditions`, none where it panics or while one of its loops still runs
after so many turns.
-/
def blockSpendsWithConditions (reader : BlockReader) (turns : Nat) (block : FullBlock)
    : Option (Except ChiaQueryError (List (CoinSpendWithConditions Condition))) :=
  match block.transactionsGenerator with
  | none => some (.ok [])
  | some generator =>
      match reader.runGenerator generator with
      | .error failure => some (.error failure)
      | .ok (spends, generatorOutput) =>
          (spends.foldlM (reader.collectSpendWithConditions turns generatorOutput) []).map .ok

/-- The blocks that peers are asked for. -/
abbrev blocks (reader : BlockReader) : BlockCrates where
  FullBlock := FullBlock
  toValue := reader.toValue

/-- What the crates document of the nodes of a spend and of the atoms that name a coin. -/
structure Documented (reader : BlockReader) : Prop where
  clvm : reader.clvm.Documented
  nodeFromBytes_nodeToBytes
    : ∀ node bytes, reader.clvm.nodeToBytes node = .ok bytes
        → reader.runner.nodeFromBytes bytes = .ok node
  nodeFromBytes_nil : ∀ node, reader.runner.nodeFromBytes [] ≠ .ok node
  hashes
    : ∀ generator spends, reader.generator.runBlockGenerator2 generator = .ok spends
        → ∀ spend ∈ spends, spend.parentId.length = 32 ∧ spend.puzzleHash.length = 32

def Serialises (reader : BlockReader) (node : Sexp) : Prop :=
  ∃ bytes, reader.clvm.nodeToBytes node = .ok bytes

/-- A spend is that of a coin by two nodes, and where both of them serialise, its conditions are
those that its text is run to; otherwise its text is run to none.
-/
inductive StatesSpend (reader : BlockReader) (turns : Nat)
    : CoinSpendWithConditions Condition → Prop
  | serialised {removal puzzleNode solutionNode conditions}
    (puzzle : reader.Serialises puzzleNode)
    (solution : reader.Serialises solutionNode)
    (read : reader.nodeConditions turns puzzleNode solutionNode = some conditions)
    (run
      : reader.clvm.runPuzzleConditions reader.runner turns
          (reader.coinSpendOf removal puzzleNode solutionNode)
        = some conditions)
    : StatesSpend reader turns
        { coinSpend := reader.coinSpendOf removal puzzleNode solutionNode, conditions }
  | unserialised {removal puzzleNode solutionNode conditions}
    (lost : ¬ (reader.Serialises puzzleNode ∧ reader.Serialises solutionNode))
    (read : reader.nodeConditions turns puzzleNode solutionNode = some conditions)
    (run
      : reader.clvm.runPuzzleConditions reader.runner turns
          (reader.coinSpendOf removal puzzleNode solutionNode)
        = some [])
    : StatesSpend reader turns
        { coinSpend := reader.coinSpendOf removal puzzleNode solutionNode, conditions }

end BlockReader

------------------------------------------------------------------------------------------
-- Loops that may stop without a result
------------------------------------------------------------------------------------------

section Loops

variable {α σ τ : Type} {body : σ → α → Option σ}

/-- A loop whose turns act on what is kept of its state as another loop's do comes to what that
one comes to.
-/
theorem map_foldlM {other : τ → α → Option τ} {keep : σ → τ} {items : List α}
    (turn : ∀ state, ∀ item ∈ items, (body state item).map keep = other (keep state) item)
    (state : σ)
    : (items.foldlM body state).map keep = items.foldlM other (keep state) := by
  induction items generalizing state with
  | nil => rfl
  | cons item rest ih =>
      rw [List.foldlM_cons, List.foldlM_cons, ← turn state item (List.mem_cons_self ..)]
      cases body state item with
      | none => rfl
      | some next =>
          exact ih (fun state item member => turn state item (List.mem_cons_of_mem _ member)) next

theorem foldlM_invariant (holds : σ → Prop) {items : List α} {state final : σ}
    (kept : ∀ state item next, holds state → body state item = some next → holds next)
    (initially : holds state) (ended : items.foldlM body state = some final)
    : holds final := by
  induction items generalizing state with
  | nil =>
      cases ended
      exact initially
  | cons item rest ih =>
      rw [List.foldlM_cons] at ended
      obtain ⟨next, stepped, later⟩ := Option.bind_eq_some_iff.mp ended
      exact ih (kept state item next initially stepped) later

/-- A loop ends where each of its turns does. -/
theorem exists_foldlM {items : List α}
    (turn : ∀ state, ∀ item ∈ items, ∃ next, body state item = some next) (state : σ)
    : ∃ final, items.foldlM body state = some final := by
  induction items generalizing state with
  | nil => exact ⟨state, rfl⟩
  | cons item rest ih =>
      obtain ⟨next, stepped⟩ := turn state item (List.mem_cons_self ..)
      obtain ⟨final, ended⟩ :=
        ih (fun state item member => turn state item (List.mem_cons_of_mem _ member)) next
      refine ⟨final, ?_⟩
      rw [List.foldlM_cons, stepped]
      exact ended

end Loops

namespace BlockReader

variable {reader : BlockReader}

------------------------------------------------------------------------------------------
-- Spends and their conditions
------------------------------------------------------------------------------------------

theorem exists_removal {spend : SpendConditions}
    (hashes : spend.parentId.length = 32 ∧ spend.puzzleHash.length = 32)
    : ∃ removal, spend.removal = some removal := by
  simp only [SpendConditions.removal, bytes32Of, if_pos hashes.1, if_pos hashes.2]
  exact ⟨_, rfl⟩

/-- Enough turns for the conditions of what these nodes are run to. -/
def turnsFor (reader : BlockReader) (puzzleNode solutionNode : Sexp) : Nat :=
  match reader.runner.runProgram puzzleNode solutionNode with
  | .ok output => output.size
  | .error _ => 0

theorem exists_nodeConditions (documented : reader.Documented) {puzzleNode solutionNode : Sexp}
    {turns : Nat} (enough : reader.turnsFor puzzleNode solutionNode ≤ turns)
    : ∃ conditions, reader.nodeConditions turns puzzleNode solutionNode = some conditions := by
  unfold nodeConditions
  unfold turnsFor at enough
  cases ran : reader.runner.runProgram puzzleNode solutionNode with
  | error failure => exact ⟨[], rfl⟩
  | ok output =>
      rw [ran] at enough
      exact ⟨_, ClvmCrates.parseConditionsPublic_eq documented.clvm enough⟩

theorem bytesOrDefault_of_serialises {node : Sexp} (serialises : reader.Serialises node)
    : reader.clvm.nodeToBytes node = .ok (reader.bytesOrDefault node) := by
  obtain ⟨bytes, written⟩ := serialises
  rw [bytesOrDefault, written]

/-- The text of a node that does not serialise is not read. -/
theorem not_nodeFromBytes_of_lost (documented : reader.Documented) {node found : Sexp}
    (lost : ¬ reader.Serialises node)
    : reader.runner.nodeFromBytes (reader.bytesOrDefault node) ≠ .ok found := by
  unfold bytesOrDefault
  split
  · rename_i bytes written
    exact absurd ⟨bytes, written⟩ lost
  · exact documented.nodeFromBytes_nil found

/-- A spend's text is run as its nodes are, where they can be read from it. -/
theorem runPuzzleConditions_coinSpendOf (documented : reader.Documented) (turns : Nat)
    (removal : ProtocolCoin) {puzzleNode solutionNode : Sexp}
    (puzzle : reader.Serialises puzzleNode) (solution : reader.Serialises solutionNode)
    : reader.clvm.runPuzzleConditions reader.runner turns
        (reader.coinSpendOf removal puzzleNode solutionNode)
      = reader.nodeConditions turns puzzleNode solutionNode := by
  have puzzleRead := documented.nodeFromBytes_nodeToBytes _ _ (bytesOrDefault_of_serialises puzzle)
  have solutionRead :=
    documented.nodeFromBytes_nodeToBytes _ _ (bytesOrDefault_of_serialises solution)
  simp only [ClvmCrates.runPuzzleConditions, coinSpendOf, parseHex_hexBytes, puzzleRead,
    solutionRead, nodeConditions]
  rfl

theorem runPuzzleConditions_of_lost (documented : reader.Documented) (turns : Nat)
    (removal : ProtocolCoin) {puzzleNode solutionNode : Sexp}
    (lost : ¬ (reader.Serialises puzzleNode ∧ reader.Serialises solutionNode))
    : reader.clvm.runPuzzleConditions reader.runner turns
        (reader.coinSpendOf removal puzzleNode solutionNode)
      = some [] := by
  simp only [ClvmCrates.runPuzzleConditions, coinSpendOf, parseHex_hexBytes]
  split
  · rename_i puzzleRead solutionRead
    rcases not_and_or.mp lost with puzzle | solution
    · exact absurd puzzleRead (not_nodeFromBytes_of_lost documented puzzle)
    · exact absurd solutionRead (not_nodeFromBytes_of_lost documented solution)
  · rfl

theorem statesSpend (documented : reader.Documented) {turns : Nat} (removal : ProtocolCoin)
    {puzzleNode solutionNode : Sexp} {conditions : List Condition}
    (read : reader.nodeConditions turns puzzleNode solutionNode = some conditions)
    : reader.StatesSpend turns
        { coinSpend := reader.coinSpendOf removal puzzleNode solutionNode, conditions } := by
  by_cases whole : reader.Serialises puzzleNode ∧ reader.Serialises solutionNode
  · exact .serialised whole.1 whole.2 read
      ((runPuzzleConditions_coinSpendOf documented turns removal whole.1 whole.2).trans read)
  · exact .unserialised whole read (runPuzzleConditions_of_lost documented turns removal whole)

/-- Enough turns for the conditions of a spend of the generator. -/
def turnsForSpend (reader : BlockReader) (generatorOutput : Sexp) (spend : SpendConditions)
    : Nat :=
  match spend.removal with
  | none => 0
  | some removal =>
      match reader.generator.getPuzzleAndSolutionForCoin generatorOutput removal with
      | .error _ => 0
      | .ok (puzzleNode, solutionNode) => reader.turnsFor puzzleNode solutionNode

/-- Without its conditions, a turn of the loop with conditions is one of the loop without. -/
theorem map_collectSpendWithConditions (documented : reader.Documented) {turns : Nat}
    {generatorOutput : Sexp} {spend : SpendConditions}
    (enough : reader.turnsForSpend generatorOutput spend ≤ turns)
    (items : List (CoinSpendWithConditions Condition))
    : (reader.collectSpendWithConditions turns generatorOutput items spend).map
        (fun items => items.map (·.coinSpend))
      = reader.collectSpend generatorOutput (items.map (·.coinSpend)) spend := by
  unfold collectSpendWithConditions collectSpend
  unfold turnsForSpend at enough
  cases found : spend.removal with
  | none => rfl
  | some removal =>
      simp only [found] at enough
      simp only [Option.bind_eq_bind, Option.bind_some]
      cases taken : reader.generator.getPuzzleAndSolutionForCoin generatorOutput removal with
      | error failure => rfl
      | ok nodes =>
          obtain ⟨puzzleNode, solutionNode⟩ := nodes
          simp only [taken] at enough
          obtain ⟨conditions, read⟩ := exists_nodeConditions documented enough
          simp only [read, Option.bind_some, Option.pure_def, Option.map_some, List.map_append,
            List.map_cons, List.map_nil]

theorem collectSpendWithConditions_states (documented : reader.Documented) {turns : Nat}
    {generatorOutput : Sexp} {items next : List (CoinSpendWithConditions Condition)}
    {spend : SpendConditions} (stated : ∀ item ∈ items, reader.StatesSpend turns item)
    (stepped
      : reader.collectSpendWithConditions turns generatorOutput items spend = some next)
    : ∀ item ∈ next, reader.StatesSpend turns item := by
  unfold collectSpendWithConditions at stepped
  obtain ⟨removal, -, stepped⟩ := Option.bind_eq_some_iff.mp stepped
  split at stepped
  · cases stepped
    exact stated
  · rename_i puzzleNode solutionNode _
    obtain ⟨conditions, read, returned⟩ := Option.bind_eq_some_iff.mp stepped
    cases returned
    intro item member
    rcases List.mem_append.mp member with earlier | last
    · exact stated item earlier
    · rw [List.mem_singleton.mp last]
      exact statesSpend documented removal read

/-- The generator's spends name their coins, so that no turn of the loop panics. -/
theorem exists_foldlM_collectSpend (documented : reader.Documented) {generator : List UInt8}
    {spends : List SpendConditions} {generatorOutput : Sexp}
    (ran : reader.runGenerator generator = .ok (spends, generatorOutput))
    : ∃ plain, spends.foldlM (reader.collectSpend generatorOutput) [] = some plain := by
  obtain ⟨listed, generated, ran⟩ := bind_eq_ok_iff.mp ran
  obtain ⟨program, -, ran⟩ := bind_eq_ok_iff.mp ran
  obtain ⟨args, -, ran⟩ := bind_eq_ok_iff.mp ran
  obtain ⟨output, -, returned⟩ := bind_eq_ok_iff.mp ran
  cases returned
  have hashes := documented.hashes generator spends (mapError_eq_ok_iff.mp generated)
  apply exists_foldlM
  intro state spend member
  obtain ⟨removal, named⟩ := exists_removal (hashes spend member)
  simp only [collectSpend, named, Option.bind_eq_bind, Option.bind_some]
  split
  · exact ⟨_, rfl⟩
  · exact ⟨_, rfl⟩

/-- Both readers fail alike; else the one without conditions returns, and with enough turns the
other one returns as well, the same spends with the conditions of their text.
-/
theorem blockSpendsWithConditions_extends (documented : reader.Documented) (block : FullBlock)
    : ∃ plain enough, reader.blockSpends block = some plain
        ∧ ∀ turns, enough ≤ turns
          → ∃ full,
            reader.blockSpendsWithConditions turns block = some full
            ∧ full.map (fun items => items.map (·.coinSpend)) = plain
            ∧ ∀ items, full = .ok items → ∀ item ∈ items, reader.StatesSpend turns item := by
  cases has : block.transactionsGenerator with
  | none =>
      simp only [blockSpends, blockSpendsWithConditions, has]
      refine ⟨.ok [], 0, rfl, fun turns _ => ⟨.ok [], rfl, rfl, ?_⟩⟩
      intro items same item member
      cases same
      cases member
  | some generator =>
      cases ran : reader.runGenerator generator with
      | error failure =>
          simp only [blockSpends, blockSpendsWithConditions, has, ran]
          exact ⟨.error failure, 0, rfl, fun turns _ => ⟨.error failure, rfl, rfl, nofun⟩⟩
      | ok found =>
          obtain ⟨spends, generatorOutput⟩ := found
          simp only [blockSpends, blockSpendsWithConditions, has, ran]
          obtain ⟨plain, returned⟩ := exists_foldlM_collectSpend documented ran
          refine ⟨.ok plain, (spends.map (reader.turnsForSpend generatorOutput)).sum, ?_, ?_⟩
          · rw [returned, Option.map_some]
          · intro turns enough
            have turn
                : ∀ items, ∀ spend ∈ spends,
                    (reader.collectSpendWithConditions turns generatorOutput items spend).map
                      (fun items => items.map (·.coinSpend))
                    = reader.collectSpend generatorOutput (items.map (·.coinSpend)) spend := by
              intro items spend member
              apply map_collectSpendWithConditions documented
              exact (List.le_sum_of_mem (List.mem_map_of_mem member)).trans enough
            have same := (map_foldlM turn []).trans returned
            obtain ⟨items, ended, rfl⟩ := Option.map_eq_some_iff.mp same
            refine ⟨.ok items, by rw [ended, Option.map_some], rfl, ?_⟩
            intro listed same
            cases same
            apply foldlM_invariant (fun items => ∀ item ∈ items, reader.StatesSpend turns item)
              (fun _ _ _ => collectSpendWithConditions_states documented) _ ended
            intro item never
            cases never

end BlockReader

end ChiaQuery
