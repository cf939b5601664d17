import ChiaQuery.Library.JsonDocuments
import ChiaQuery.Library.ListTrees
import ChiaQuery.Peer.Requests

/-! The conditions of a spend are parsed from what its puzzle returned: a list of any shape,
whose elements may be malformed. The parser skips what is not a condition and keeps the order
and the arguments of what is.
-/

namespace ChiaQuery

open Library

/-- A node of the CLVM allocator, with everything below it. -/
abbrev Sexp := ListTree (List UInt8)

/-- What the parser calls of the CLVM crates. -/
structure ClvmCrates where
  next : Sexp → Except String (Option (Sexp × Sexp))
  first : Sexp → Except String Sexp
  rest : Sexp → Except String Sexp
  nodeToBytes : Sexp → Except String (List UInt8)

/-- What running a puzzle takes. -/
structure PuzzleRunner where
  nodeFromBytes : List UInt8 → Except String Sexp
  runProgram : Sexp → Sexp → Except String Sexp

/-- `Condition`. -/
structure Condition where
  opcode : Json
  vars : List String

namespace ClvmCrates

/-- The pattern of both loops: `next` succeeds and there is an element. -/
def nextItem (crates : ClvmCrates) (node : Sexp) : Option (Sexp × Sexp) :=
  match crates.next node with
  | .ok found => found
  | .error _ => none

/-- One turn of the inner loop. An argument that does not serialise is skipped. -/
def collectVar (crates : ClvmCrates) (vars : List String) (arg : Sexp) : List String :=
  match arg with
  | .atom bytes => vars ++ [hexBytes bytes]
  | .pair _ _ =>
      match crates.nodeToBytes arg with
      | .ok bytes => vars ++ [hexBytes bytes]
      | .error _ => vars

/-- One turn of the outer loop, with so many turns for the inner one. -/
def collectCondition (crates : ClvmCrates) (turns : Nat) (conditions : List Condition)
    (cond : Sexp)
    : Option (List Condition) :=
  match crates.first cond with
  | .error _ => some conditions
  | .ok (.pair _ _) => some conditions
  | .ok (.atom opcodeBytes) =>
      let opcode := Json.string (hexBytes opcodeBytes)
      match crates.rest cond with
      | .error _ => some conditions
      | .ok argsIter => do
          let vars ←
            ListTree.whileNext crates.nextItem
              (fun vars arg => some (crates.collectVar vars arg)) turns argsIter []
          return conditions ++ [{ opcode, vars }]

/-- `parse_conditions_public`, none while a loop still runs after so many turns. -/
def parseConditionsPublic (crates : ClvmCrates) (turns : Nat) (output : Sexp)
    : Option (List Condition) :=
  ListTree.whileNext crates.nextItem (crates.collectCondition turns) turns output []

/-- `parse_conditions`. -/
def parseConditions (crates : ClvmCrates) (turns : Nat) (output : Sexp)
    : Option (List Condition) :=
  crates.parseConditionsPublic turns output

/-- `run_puzzle_conditions`: a spend that cannot be run has no conditions. -/
def runPuzzleConditions (crates : ClvmCrates) (runner : PuzzleRunner) (turns : Nat)
    (spend : CoinSpend)
    : Option (List Condition) :=
  match parseHex spend.puzzleReveal, parseHex spend.solution with
  | .ok puzzleBytes, .ok solutionBytes =>
      match runner.nodeFromBytes puzzleBytes, runner.nodeFromBytes solutionBytes with
      | .ok puzzleNode, .ok solutionNode =>
          match runner.runProgram puzzleNode solutionNode with
          | .ok output => crates.parseConditionsPublic turns output
          | .error _ => some []
      | _, _ => some []
  | _, _ => some []

/-- What the crates document of the calls that take a list apart. -/
structure Documented (crates : ClvmCrates) : Prop where
  next_pair : ∀ left right, crates.next (.pair left right) = .ok (some (left, right))
  next_atom : ∀ bytes found, crates.next (.atom bytes) ≠ .ok (some found)
  first_pair : ∀ left right, crates.first (.pair left right) = .ok left
  first_atom : ∀ bytes node, crates.first (.atom bytes) ≠ .ok node
  rest_pair : ∀ left right, crates.rest (.pair left right) = .ok right

variable {crates : ClvmCrates}

/-- With enough turns the parser returns these conditions, however many more it is given. -/
def ParsesTo (crates : ClvmCrates) (output : Sexp) (conditions : List Condition) : Prop :=
  ∃ enough, ∀ turns, enough ≤ turns → crates.parseConditionsPublic turns output = some conditions

/-- The text of an argument: an atom's bytes, or those a pair serialises to. -/
inductive IsVar (crates : ClvmCrates) : Sexp → String → Prop
  | atom (bytes : List UInt8) : IsVar crates (.atom bytes) (hexBytes bytes)
  | pair {left right : Sexp} {bytes : List UInt8}
      (serialised : crates.nodeToBytes (.pair left right) = .ok bytes)
    : IsVar crates (.pair left right) (hexBytes bytes)

/-- A condition has the bytes of the head and, one for one, the texts of the arguments. -/
inductive IsConditionOf (crates : ClvmCrates) : Sexp → Condition → Prop
  | mk {opcode : List UInt8} {args : Sexp} {vars : List String}
      (each : List.Forall₂ crates.IsVar args.spine vars)
    : IsConditionOf crates (.pair (.atom opcode) args)
        { opcode := .string (hexBytes opcode), vars }

/-- The element is a pair whose head is an atom. -/
def atomHeaded : Sexp → Bool
  | .pair (.atom _) _ => true
  | _ => false

/-- Every pair among the arguments of the output's conditions serialises. -/
def SerialisesArguments (crates : ClvmCrates) (output : Sexp) : Prop :=
  ∀ opcode args, .pair (.atom opcode) args ∈ output.spine
    → ∀ left right, .pair left right ∈ args.spine
      → ∃ bytes, crates.nodeToBytes (.pair left right) = .ok bytes

/-- A condition whose opcode and arguments are atoms. -/
structure AtomCondition where
  opcode : List UInt8
  args : List (List UInt8)

/-- The condition as CLVM lists it. -/
def AtomCondition.sexp (condition : AtomCondition) : Sexp :=
  .pair (.atom condition.opcode) (ListTree.ofList [] (condition.args.map .atom))

/-- The condition as the parser reports it. -/
def AtomCondition.reported (condition : AtomCondition) : Condition where
  opcode := .string (hexBytes condition.opcode)
  vars := condition.args.map hexBytes

/-- The parser terminates on every output and returns the conditions in it, and a list of
conditions is read back.
-/
structure ParsesConditions (crates : ClvmCrates) : Prop where
  terminates : ∀ output, ∃ conditions, crates.ParsesTo output conditions
  conditions : ∀ output, crates.SerialisesArguments output
    → ∃ conditions, crates.ParsesTo output conditions
      ∧ List.Forall₂ crates.IsConditionOf (output.spine.filter atomHeaded) conditions
  readBack : ∀ listed : List AtomCondition,
    crates.ParsesTo (ListTree.ofList [] (listed.map AtomCondition.sexp))
      (listed.map AtomCondition.reported)
  distinct : ∀ left right : AtomCondition, left.reported = right.reported → left = right

------------------------------------------------------------------------------------------
-- The two loops
------------------------------------------------------------------------------------------

/-- The text of an argument, if it has one. -/
def varOf (crates : ClvmCrates) : Sexp → Option String
  | .atom bytes => some (hexBytes bytes)
  | .pair left right =>
      match crates.nodeToBytes (.pair left right) with
      | .ok bytes => some (hexBytes bytes)
      | .error _ => none

/-- The condition that an element of the output states, if it states one. -/
def conditionOf (crates : ClvmCrates) : Sexp → Option Condition
  | .pair (.atom opcode) args =>
      some { opcode := .string (hexBytes opcode), vars := args.spine.filterMap crates.varOf }
  | _ => none

theorem nextItem_readsSpine (documented : crates.Documented)
    : ListTree.ReadsSpine crates.nextItem where
  pair := by
    intro left right
    rw [nextItem, documented.next_pair]
  atom := by
    intro bytes
    unfold nextItem
    split
    · rename_i found read
      cases found with
      | none => rfl
      | some pair => exact absurd read (documented.next_atom bytes pair)
    · rfl

theorem collectVar_eq (vars : List String) (arg : Sexp)
    : crates.collectVar vars arg = vars ++ (crates.varOf arg).toList := by
  cases arg with
  | atom bytes => rfl
  | pair left right =>
      rw [collectVar, varOf]
      cases crates.nodeToBytes (.pair left right) with
      | ok bytes => rfl
      | error failure => exact (List.append_nil vars).symm

/-- The inner loop returns the texts of the arguments, in their order. -/
theorem whileNext_collectVar (documented : crates.Documented) {args : Sexp} {turns : Nat}
    (enough : args.spine.length < turns)
    : ListTree.whileNext crates.nextItem (fun vars arg => some (crates.collectVar vars arg))
        turns args []
      = some (args.spine.filterMap crates.varOf) := by
  have turn : ∀ vars, ∀ arg ∈ args.spine, some (crates.collectVar vars arg)
      = some (vars ++ (crates.varOf arg).toList) :=
    fun vars arg _ => congrArg some (collectVar_eq vars arg)
  rw [ListTree.whileNext_eq_foldl (nextItem_readsSpine documented) turn enough,
    foldl_append_toList, List.nil_append]

/-- A turn of the outer loop appends the condition that the element states. -/
theorem collectCondition_eq (documented : crates.Documented) {cond : Sexp} {turns : Nat}
    (enough : cond.size ≤ turns) (conditions : List Condition)
    : crates.collectCondition turns conditions cond
      = some (conditions ++ (crates.conditionOf cond).toList) := by
  cases cond with
  | atom bytes =>
      unfold collectCondition
      split
      · exact congrArg some (List.append_nil conditions).symm
      · rename_i read
        exact absurd read (documented.first_atom bytes _)
      · rename_i read
        exact absurd read (documented.first_atom bytes _)
  | pair head args =>
      cases head with
      | pair left right =>
          simp only [collectCondition, documented.first_pair, conditionOf, Option.toList_none,
            List.append_nil]
      | atom opcode =>
          have inTime : args.spine.length < turns := by
            have bound := args.spine_length_lt_size
            simp only [ListTree.size] at enough
            omega
          simp only [collectCondition, documented.first_pair, documented.rest_pair,
            whileNext_collectVar documented inTime]
          rfl

/-- As many turns as the output has nodes are enough for all the loops. -/
theorem parseConditionsPublic_eq (documented : crates.Documented) {output : Sexp} {turns : Nat}
    (enough : output.size ≤ turns)
    : crates.parseConditionsPublic turns output
      = some (output.spine.filterMap crates.conditionOf) := by
  have inTime : output.spine.length < turns :=
    Nat.lt_of_lt_of_le output.spine_length_lt_size enough
  have turn
      : ∀ conditions, ∀ cond ∈ output.spine,
          crates.collectCondition turns conditions cond
          = some (conditions ++ (crates.conditionOf cond).toList) := by
    intro conditions cond member
    have smaller := ListTree.size_lt_of_mem_spine member
    exact collectCondition_eq documented (by omega) conditions
  rw [parseConditionsPublic,
    ListTree.whileNext_eq_foldl (nextItem_readsSpine documented) turn inTime,
    foldl_append_toList, List.nil_append]

theorem parsesTo_conditionOf (documented : crates.Documented) (output : Sexp)
    : crates.ParsesTo output (output.spine.filterMap crates.conditionOf) :=
  ⟨output.size, fun _ enough => parseConditionsPublic_eq documented enough⟩

------------------------------------------------------------------------------------------
-- What is parsed
------------------------------------------------------------------------------------------

/-- Where the pairs serialise, every argument has its text. -/
theorem forall₂_isVar {args : List Sexp}
    (serialises : ∀ left right, .pair left right ∈ args
      → ∃ bytes, crates.nodeToBytes (.pair left right) = .ok bytes)
    : List.Forall₂ crates.IsVar args (args.filterMap crates.varOf) := by
  have each : List.Forall₂ crates.IsVar (args.filter (fun _ => true))
      (args.filterMap crates.varOf) := by
    refine forall₂_filter_filterMap ?_ (fun _ _ never => nomatch never)
    intro arg member _
    cases arg with
    | atom bytes => exact ⟨_, rfl, .atom bytes⟩
    | pair left right =>
        obtain ⟨bytes, serialised⟩ := serialises left right member
        exact ⟨hexBytes bytes, by rw [varOf, serialised], .pair serialised⟩
  rwa [List.filter_true] at each

theorem forall₂_isConditionOf {output : Sexp} (serialises : crates.SerialisesArguments output)
    : List.Forall₂ crates.IsConditionOf (output.spine.filter atomHeaded)
        (output.spine.filterMap crates.conditionOf) := by
  refine forall₂_filter_filterMap ?_ ?_
  · intro cond member headed
    match cond with
    | .pair (.atom opcode) args =>
        exact ⟨_, rfl, .mk (forall₂_isVar (serialises opcode args member))⟩
  · intro cond _ headless
    match cond with
    | .atom _ => rfl
    | .pair (.pair _ _) _ => rfl

theorem varOf_atoms (args : List (List UInt8))
    : (args.map ListTree.atom).filterMap crates.varOf = args.map hexBytes := by
  rw [List.filterMap_map, ← List.filterMap_eq_map]
  rfl

theorem conditionOf_sexp (condition : AtomCondition)
    : crates.conditionOf condition.sexp = some condition.reported := by
  rw [AtomCondition.sexp, conditionOf, ListTree.spine_ofList, varOf_atoms]
  rfl

theorem hexBytes_injective {left right : List UInt8} (same : hexBytes left = hexBytes right)
    : left = right := by
  have parsed := (parseHex_hexBytes left).symm.trans ((congrArg parseHex same).trans
    (parseHex_hexBytes right))
  exact Except.ok.inj parsed

theorem AtomCondition.reported_injective {left right : AtomCondition}
    (same : left.reported = right.reported)
    : left = right := by
  obtain ⟨opcode, vars⟩ := Condition.mk.inj same
  have sameOpcode := hexBytes_injective (Json.string.inj opcode)
  have sameArgs := List.map_injective_iff.mpr (fun _ _ => hexBytes_injective) vars
  cases left
  cases right
  cases sameOpcode
  cases sameArgs
  rfl

/-- The parser terminates on every output and returns its conditions in order, one for each
element that is a pair with an atom for its head.
-/
theorem parseConditionsPublic_parses (documented : crates.Documented)
    : crates.ParsesConditions where
  terminates := fun output => ⟨_, parsesTo_conditionOf documented output⟩
  conditions := fun output serialises =>
    ⟨_, parsesTo_conditionOf documented output, forall₂_isConditionOf serialises⟩
  readBack := by
    intro listed
    have parsed := parsesTo_conditionOf documented
      (ListTree.ofList [] (listed.map AtomCondition.sexp))
    rw [ListTree.spine_ofList, List.filterMap_map] at parsed
    have reported : listed.filterMap (crates.conditionOf ∘ AtomCondition.sexp)
        = listed.map AtomCondition.reported := by
      rw [← List.filterMap_eq_map]
      exact congrArg (listed.filterMap ·) (funext conditionOf_sexp)
    rwa [reported] at parsed
  distinct := fun _ _ same => AtomCondition.reported_injective same

/-- Running a spend's puzzle comes to a result as well. -/
theorem exists_runPuzzleConditions (documented : crates.Documented) (runner : PuzzleRunner)
    (spend : CoinSpend)
    : ∃ conditions enough, ∀ turns, enough ≤ turns
        → crates.runPuzzleConditions runner turns spend = some conditions := by
  unfold runPuzzleConditions
  split
  · split
    · split
      · rename_i output _
        exact ⟨_, parsesTo_conditionOf documented output⟩
      · exact ⟨[], 0, fun _ _ => rfl⟩
    · exact ⟨[], 0, fun _ _ => rfl⟩
  · exact ⟨[], 0, fun _ _ => rfl⟩

/-- Serialise a tree whose atoms have fewer than 64 bytes. -/
def sampleBytes : Sexp → Except String (List UInt8)
  | .atom [byte] => .ok (if byte ≤ 127 then [byte] else [129, byte])
  | .atom bytes =>
      if bytes.length < 64 then .ok (UInt8.ofNat (128 + bytes.length) :: bytes)
      else .error "too long"
  | .pair left right => do
      let leftBytes ← sampleBytes left
      let rightBytes ← sampleBytes right
      return 255 :: (leftBytes ++ rightBytes)

/-- The crates on small trees. -/
def sampleCrates : ClvmCrates where
  next
    | .pair left right => .ok (some (left, right))
    | .atom [] => .ok none
    | .atom (_ :: _) => .error "InvalidCondition"
  first
    | .pair left _ => .ok left
    | .atom _ => .error "InvalidCondition"
  rest
    | .pair _ right => .ok right
    | .atom _ => .error "InvalidCondition"
  nodeToBytes := sampleBytes

theorem sampleCrates_documented : sampleCrates.Documented where
  next_pair := fun _ _ => rfl
  next_atom := fun bytes _ found => by cases bytes <;> cases found
  first_pair := fun _ _ => rfl
  first_atom := fun _ _ found => by cases found
  rest_pair := fun _ _ => rfl

/-- An improper list of a stray atom and a condition with a hint list. -/
def sampleOutput : Sexp :=
  ListTree.ofList [9]
    [.atom [1],
      .pair (.atom [51])
        (ListTree.ofList [] [.atom [170], .pair (.atom [187]) (.atom [])])]

theorem sampleOutput_serialises : sampleCrates.SerialisesArguments sampleOutput := by
  intro opcode args member left right inside
  simp only [sampleOutput, ListTree.spine_ofList, List.mem_cons, List.not_mem_nil] at member
  rcases member with same | same | never
  · cases same
  · cases same
    simp only [ListTree.spine_ofList, List.mem_cons, List.not_mem_nil] at inside
    rcases inside with same | same | never
    · cases same
    · cases same
      exact ⟨_, rfl⟩
    · exact never.elim
  · exact never.elim

theorem parseConditionsPublic_parses_sample
    : sampleCrates.SerialisesArguments sampleOutput
      ∧ ∃ conditions, sampleCrates.ParsesTo sampleOutput conditions
        ∧ List.Forall₂ sampleCrates.IsConditionOf (sampleOutput.spine.filter atomHeaded)
            conditions :=
  ⟨sampleOutput_serialises,
    (parseConditionsPublic_parses sampleCrates_documented).conditions sampleOutput
      sampleOutput_serialises⟩

end ClvmCrates

end ChiaQuery
