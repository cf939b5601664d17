import ChiaQuery.Library.JsonDocuments

/-! The drift of an endpoint's answers is found by comparing shapes: a document with every
scalar replaced by the tag of its type and every array cut down to its first element. The
comparison reports exactly the differences at the positions that both documents reach.
-/

namespace ChiaQuery

open Library

/-- Whether a number is within `i64`. -/
def isI64 : JsonNumber → Bool
  | .posInt value => value ≤ 9223372036854775807
  | .negInt _ => true
  | .float _ => false

/-- Whether a number is within `u64`. -/
def isU64 : JsonNumber → Bool
  | .posInt _ => true
  | .negInt _ | .float _ => false

/-- The integer that a number is, unless it is a float. -/
def integerOf : JsonNumber → Option Int
  | .posInt value => some value.toNat
  | .negInt value => some value.toInt
  | .float _ => none

/-- `is_i64` as documented: the number is an integer from `i64::MIN` to `i64::MAX`. -/
theorem isI64_iff {n : JsonNumber}
    : isI64 n = true
      ↔ ∃ value ∈ integerOf n,
          -9223372036854775808 ≤ value ∧ value ≤ 9223372036854775807 := by
  cases n with
  | posInt natural =>
      have top : (9223372036854775807 : UInt64).toNat = 9223372036854775807 := rfl
      simp only [isI64, integerOf, Option.mem_def, Option.some.injEq, exists_eq_left',
        decide_eq_true_eq, UInt64.le_iff_toNat_le, top]
      omega
  | negInt integer =>
      have low : -9223372036854775808 ≤ integer.toInt := integer.le_toInt
      have high : integer.toInt < 9223372036854775808 := integer.toInt_lt
      simp only [isI64, integerOf, Option.mem_def, Option.some.injEq, exists_eq_left', true_iff]
      omega
  | float bits => simp [isI64, integerOf]

/-- `is_u64` as documented, a `negInt` being one: the number is an integer from 0 to `u64::MAX`. -/
theorem isU64_iff {n : JsonNumber} (negative : ∀ integer, n = .negInt integer → integer.toInt < 0)
    : isU64 n = true
      ↔ ∃ value ∈ integerOf n, 0 ≤ value ∧ value ≤ 18446744073709551615 := by
  cases n with
  | posInt natural =>
      have small : natural.toNat < 18446744073709551616 := natural.toNat_lt
      simp only [isU64, integerOf, Option.mem_def, Option.some.injEq, exists_eq_left', true_iff]
      omega
  | negInt integer =>
      have below := negative integer rfl
      simp only [isU64, integerOf, Option.mem_def, Option.some.injEq, exists_eq_left',
        Bool.false_eq_true, false_iff]
      omega
  | float bits => simp [isU64, integerOf]

mutual

/-- Reduce a value to its shape, which is itself a value. -/
def shapeOf : Json → Json
  | .object map => .object (shapeOfEntries map)
  | .array items =>
      match items with
      | first :: _ => .array [shapeOf first]
      | [] => .array []
  | .string _ => .string "string"
  | .number n => .string (if isI64 n || isU64 n then "integer" else "number")
  | .bool _ => .string "boolean"
  | .null => .string "null"

def shapeOfEntries : List (String × Json) → List (String × Json)
  | [] => []
  | (key, val) :: rest => (key, shapeOf val) :: shapeOfEntries rest

end

/-- The coarse structural kind of a shape node. -/
def kind : Json → String
  | .object _ => "object"
  | .array _ => "array"
  | _ => "scalar"

/-- Join a dotted path with a child key; the root has the empty path. -/
def join (path key : String) : String :=
  if path = "" then key else path ++ "." ++ key

mutual

/-- One line for each drift of the current shape from the baseline. -/
def diffShapes (path : String) : Json → Json → List String
  | .object base, .object cur => diffObjects path base cur base
  | .array (b :: _), .array (c :: _) => diffShapes (path ++ "[]") b c
  | .array _, .array _ => []
  | .string baseTag, .string curTag =>
      if baseTag ≠ curTag then
        [path ++ ": type changed " ++ baseTag ++ " -> " ++ curTag]
      else []
  | baseline, current =>
      [path ++ ": structure changed " ++ kind baseline ++ " -> " ++ kind current]

/-- The drifts of two shaped objects: the first loop walks the entries of the baseline that
are still to come, the second one the keys of the current shape.
-/
def diffObjects (path : String) (base cur : List (String × Json))
    : List (String × Json) → List String
  | [] =>
      (cur.filter (fun entry => (base.lookup entry.1).isNone)).map
        (fun entry => join path entry.1 ++ ": key added")
  | (key, baseVal) :: rest =>
      (match cur.lookup key with
        | some curVal => diffShapes (join path key) baseVal curVal
        | none => [join path key ++ ": key removed"])
      ++ diffObjects path base cur rest

end

/-- The type of a scalar value. -/
inductive ScalarType
  | string
  | integer
  | number
  | boolean
  | null
  deriving DecidableEq

def ScalarType.tag : ScalarType → String
  | .string => "string"
  | .integer => "integer"
  | .number => "number"
  | .boolean => "boolean"
  | .null => "null"

def scalarType? : Json → Option ScalarType
  | .string _ => some .string
  | .number (.posInt _) | .number (.negInt _) => some .integer
  | .number (.float _) => some .number
  | .bool _ => some .boolean
  | .null => some .null
  | .array _ | .object _ => none

/-- A document is a value whose objects list distinct keys. -/
structure Document where
  value : Json
  keyed : value.Keyed

/-- What the values that two documents hold at one position may differ in. -/
inductive Difference
  | keyRemoved (key : String)
  | keyAdded (key : String)
  | typeChanged (base cur : ScalarType)
  | structureChanged (base cur : String)

/-- The differences of two values themselves, not of what is below them. -/
inductive Differs : Json → Json → Difference → Prop
  | keyRemoved {base cur : List (String × Json)} {key : String}
      (held : key ∈ base.map Prod.fst) (gone : key ∉ cur.map Prod.fst)
    : Differs (.object base) (.object cur) (.keyRemoved key)
  | keyAdded {base cur : List (String × Json)} {key : String}
      (fresh : key ∉ base.map Prod.fst) (held : key ∈ cur.map Prod.fst)
    : Differs (.object base) (.object cur) (.keyAdded key)
  | typeChanged {base cur : Json} {baseType curType : ScalarType}
      (baseScalar : scalarType? base = some baseType)
      (curScalar : scalarType? cur = some curType) (different : baseType ≠ curType)
    : Differs base cur (.typeChanged baseType curType)
  | structureChanged {base cur : Json} (different : kind base ≠ kind cur)
    : Differs base cur (.structureChanged (kind base) (kind cur))

/-- The line that reports a difference of the values at a path. -/
def Difference.line (path : String) : Difference → String
  | .keyRemoved key => join path key ++ ": key removed"
  | .keyAdded key => join path key ++ ": key added"
  | .typeChanged base cur => path ++ ": type changed " ++ base.tag ++ " -> " ++ cur.tag
  | .structureChanged base cur => path ++ ": structure changed " ++ base ++ " -> " ++ cur

/-- The path of the value one step below. -/
def pathBelow (path : String) : Json.Step → String
  | .key name => join path name
  | .first => path ++ "[]"

/-- A line reports a difference at some position that both values reach. -/
def Reports (path : String) (base cur : Json) (line : String) : Prop :=
  ∃ position baseAt curAt difference,
    base.at? position = some baseAt ∧ cur.at? position = some curAt
    ∧ Differs baseAt curAt difference ∧ line = difference.line (position.foldl pathBelow path)

/-- Two values agree on their keys, in being arrays, or on their scalar type. -/
def Agree : Json → Json → Prop
  | .object base, .object cur => ∀ key, key ∈ base.map Prod.fst ↔ key ∈ cur.map Prod.fst
  | .array _, .array _ => True
  | base, cur => ∃ type, scalarType? base = some type ∧ scalarType? cur = some type

/-- Two values agree at a position that both reach, and at one that neither reaches. -/
def AgreeAt (base cur : Json) (position : List Json.Step) : Prop :=
  match base.at? position, cur.at? position with
  | some baseAt, some curAt => Agree baseAt curAt
  | none, none => True
  | _, _ => False

/-- The position is inside two arrays of which one is empty. -/
def BelowEmptyArray (base cur : Json) (position : List Json.Step) : Prop :=
  ∃ before after baseItems curItems,
    position = before ++ .first :: after
    ∧ base.at? before = some (.array baseItems) ∧ cur.at? before = some (.array curItems)
    ∧ (baseItems = [] ∨ curItems = [])

/-- One value becomes the other by changing scalars to scalars of the same type. -/
inductive Rescaled : Json → Json → Prop
  | scalar {value other : Json} {type : ScalarType} (before : scalarType? value = some type)
      (after : scalarType? other = some type)
    : Rescaled value other
  | array {items others : List Json} (length : items.length = others.length)
      (each : ∀ index (left : index < items.length) (right : index < others.length),
        Rescaled items[index] others[index])
    : Rescaled (.array items) (.array others)
  | object {entries others : List (String × Json)} (length : entries.length = others.length)
      (keys : ∀ index (left : index < entries.length) (right : index < others.length),
        entries[index].1 = others[index].1)
      (each : ∀ index (left : index < entries.length) (right : index < others.length),
        Rescaled entries[index].2 others[index].2)
    : Rescaled (.object entries) (.object others)

/-- What the comparison of two documents tells of them. -/
structure TellsDrift (path : String) (base cur : Document) : Prop where
  empty_iff : diffShapes path (shapeOf base.value) (shapeOf cur.value) = []
    ↔ ∀ position, ¬ BelowEmptyArray base.value cur.value position
        → AgreeAt base.value cur.value position
  line_iff : ∀ line, line ∈ diffShapes path (shapeOf base.value) (shapeOf cur.value)
    ↔ Reports path base.value cur.value line
  rescaled : ∀ other, Rescaled cur.value other
    → diffShapes path (shapeOf cur.value) (shapeOf other) = []
      ∧ diffShapes path (shapeOf base.value) (shapeOf other)
        = diffShapes path (shapeOf base.value) (shapeOf cur.value)

theorem shapeOfEntries_eq_map (entries : List (String × Json))
    : shapeOfEntries entries = entries.map (fun entry => (entry.1, shapeOf entry.2)) := by
  induction entries with
  | nil => rfl
  | cons entry rest ih => simp only [shapeOfEntries, List.map_cons, ih]

theorem keys_shapeOfEntries (entries : List (String × Json))
    : (shapeOfEntries entries).map Prod.fst = entries.map Prod.fst := by
  rw [shapeOfEntries_eq_map, List.map_map]
  rfl

/-- A scalar's shape is the tag of its type. -/
theorem shapeOf_of_scalar {value : Json} {type : ScalarType}
    (scalar : scalarType? value = some type)
    : shapeOf value = .string type.tag := by
  cases value with
  | null | bool _ | string _ =>
      cases scalar
      rfl
  | number n =>
      cases n with
      | posInt value =>
          cases scalar
          simp [shapeOf, isU64, ScalarType.tag]
      | negInt value | float value =>
          cases scalar
          rfl
  | array _ | object _ => cases scalar

theorem ScalarType.tag_injective {base cur : ScalarType} (same : base.tag = cur.tag)
    : base = cur := by
  cases base <;> cases cur <;> first | rfl | exact absurd same (by decide)

/-- Every value is a scalar of one type, an array or an object. -/
theorem scalar_or_container (value : Json)
    : (∃ type, scalarType? value = some type) ∨ (∃ items, value = .array items)
      ∨ ∃ entries, value = .object entries := by
  cases value with
  | null | bool _ | string _ => exact .inl ⟨_, rfl⟩
  | number n => cases n <;> exact .inl ⟨_, rfl⟩
  | array items => exact .inr (.inl ⟨items, rfl⟩)
  | object entries => exact .inr (.inr ⟨entries, rfl⟩)

/-- The differences reported of two values are their own and those reported of the pairs one
step below them.
-/
theorem reports_iff {path line : String} {base cur : Json}
    : Reports path base cur line
      ↔ (∃ difference, Differs base cur difference ∧ line = difference.line path)
        ∨ ∃ step baseChild curChild,
            base.child? step = some baseChild ∧ cur.child? step = some curChild
            ∧ Reports (pathBelow path step) baseChild curChild line := by
  constructor
  · rintro ⟨position, baseAt, curAt, difference, baseFound, curFound, differs, rfl⟩
    cases position with
    | nil =>
        cases baseFound
        cases curFound
        exact .inl ⟨difference, differs, rfl⟩
    | cons step rest =>
        obtain ⟨baseChild, baseStep, baseRest⟩ := Option.bind_eq_some_iff.mp baseFound
        obtain ⟨curChild, curStep, curRest⟩ := Option.bind_eq_some_iff.mp curFound
        exact .inr ⟨step, baseChild, curChild, baseStep, curStep,
          rest, baseAt, curAt, difference, baseRest, curRest, differs, rfl⟩
  · rintro (⟨difference, differs, rfl⟩ | ⟨step, baseChild, curChild, baseStep, curStep, below⟩)
    · exact ⟨[], base, cur, difference, rfl, rfl, differs, rfl⟩
    · obtain ⟨rest, baseAt, curAt, difference, baseRest, curRest, differs, rfl⟩ := below
      refine ⟨step :: rest, baseAt, curAt, difference, ?_, ?_, differs, rfl⟩
      · exact Option.bind_eq_some_iff.mpr ⟨baseChild, baseStep, baseRest⟩
      · exact Option.bind_eq_some_iff.mpr ⟨curChild, curStep, curRest⟩

/-- What the two loops report, by induction on the entries the first one has still to walk. -/
theorem mem_diffObjects_iff {path line : String} {base cur remaining : List (String × Json)}
    : line ∈ diffObjects path base cur remaining
      ↔ (∃ key baseVal, (key, baseVal) ∈ remaining
          ∧ ((∃ curVal, cur.lookup key = some curVal
                ∧ line ∈ diffShapes (join path key) baseVal curVal)
            ∨ key ∉ cur.map Prod.fst ∧ line = join path key ++ ": key removed"))
        ∨ ∃ key, key ∉ base.map Prod.fst ∧ key ∈ cur.map Prod.fst
            ∧ line = join path key ++ ": key added" := by
  induction remaining with
  | nil =>
      have walked : ∀ entry : String × Json,
          (base.lookup entry.1).isNone = true ↔ entry.1 ∉ base.map Prod.fst :=
        fun entry => Option.isNone_iff_eq_none.trans lookup_eq_none_iff_not_mem
      simp only [diffObjects, List.mem_map, List.mem_filter, walked]
      grind
  | cons entry rest ih =>
      obtain ⟨key, baseVal⟩ := entry
      rw [diffObjects, List.mem_append, ih]
      cases found : cur.lookup key with
      | none =>
          have gone := lookup_eq_none_iff_not_mem.mp found
          grind
      | some curVal =>
          have held : key ∈ cur.map Prod.fst :=
            List.mem_map.mpr ⟨_, mem_of_lookup found, rfl⟩
          grind

theorem kind_of_scalar {value : Json} {type : ScalarType}
    (scalar : scalarType? value = some type)
    : kind value = "scalar" := by
  cases value with
  | array _ | object _ => cases scalar
  | _ => rfl

theorem child?_of_scalar {value : Json} {type : ScalarType}
    (scalar : scalarType? value = some type) (step : Json.Step)
    : value.child? step = none := by
  cases value with
  | array _ | object _ => cases scalar
  | _ => cases step <;> rfl

/-- Values of different kinds have nothing below them in common. -/
theorem kind_eq_of_child {base cur baseChild curChild : Json} {step : Json.Step}
    (baseStep : base.child? step = some baseChild) (curStep : cur.child? step = some curChild)
    : kind base = kind cur := by
  cases step with
  | key name =>
      cases base with
      | object entries =>
          cases cur with
          | object others => rfl
          | _ => cases curStep
      | _ => cases baseStep
  | first =>
      cases base with
      | array items =>
          cases cur with
          | array others => rfl
          | _ => cases curStep
      | _ => cases baseStep

theorem diffShapes_of_kind_ne {base cur : Json} (different : kind base ≠ kind cur)
    (path : String)
    : diffShapes path (shapeOf base) (shapeOf cur)
      = [(Difference.structureChanged (kind base) (kind cur)).line path] := by
  rcases scalar_or_container base with ⟨baseType, baseScalar⟩ | ⟨items, rfl⟩ | ⟨entries, rfl⟩
  · rw [kind_of_scalar baseScalar, shapeOf_of_scalar baseScalar] at *
    rcases scalar_or_container cur with ⟨curType, curScalar⟩ | ⟨items, rfl⟩ | ⟨entries, rfl⟩
    · exact absurd (kind_of_scalar curScalar).symm different
    · cases items <;> rfl
    · rfl
  · rcases scalar_or_container cur with ⟨curType, curScalar⟩ | ⟨others, rfl⟩ | ⟨entries, rfl⟩
    · rw [kind_of_scalar curScalar, shapeOf_of_scalar curScalar]
      cases items <;> rfl
    · exact absurd rfl different
    · cases items <;> rfl
  · rcases scalar_or_container cur with ⟨curType, curScalar⟩ | ⟨items, rfl⟩ | ⟨others, rfl⟩
    · rw [kind_of_scalar curScalar, shapeOf_of_scalar curScalar]
      rfl
    · cases items <;> rfl
    · exact absurd rfl different

theorem reports_of_kind_ne {base cur : Json} (different : kind base ≠ kind cur)
    {path line : String}
    : Reports path base cur line
      ↔ line = (Difference.structureChanged (kind base) (kind cur)).line path := by
  rw [reports_iff]
  constructor
  · rintro (⟨difference, differs, same⟩ | ⟨step, baseChild, curChild, baseStep, curStep, -⟩)
    · cases differs with
      | keyRemoved | keyAdded => exact absurd rfl different
      | typeChanged baseScalar curScalar =>
          exact absurd ((kind_of_scalar baseScalar).trans (kind_of_scalar curScalar).symm)
            different
      | structureChanged => exact same
    · exact absurd (kind_eq_of_child baseStep curStep) different
  · intro same
    exact .inl ⟨_, .structureChanged different, same⟩

/-- Values of different kinds report just that, so only values of one kind are left. -/
theorem mem_diffShapes_of_sameKind {base cur : Json} {path line : String}
    (ofSame : kind base = kind cur →
      (line ∈ diffShapes path (shapeOf base) (shapeOf cur) ↔ Reports path base cur line))
    : line ∈ diffShapes path (shapeOf base) (shapeOf cur) ↔ Reports path base cur line := by
  by_cases same : kind base = kind cur
  · exact ofSame same
  · rw [diffShapes_of_kind_ne same, reports_of_kind_ne same, List.mem_singleton]

/-- A scalar and a value of the same kind differ exactly when their types do. -/
theorem mem_diffShapes_of_scalar {base cur : Json} {baseType : ScalarType}
    (baseScalar : scalarType? base = some baseType) {path line : String}
    : line ∈ diffShapes path (shapeOf base) (shapeOf cur) ↔ Reports path base cur line := by
  refine mem_diffShapes_of_sameKind (fun sameKind => ?_)
  obtain ⟨curType, curScalar⟩ : ∃ curType, scalarType? cur = some curType := by
    rw [kind_of_scalar baseScalar] at sameKind
    rcases scalar_or_container cur with scalar | ⟨items, rfl⟩ | ⟨entries, rfl⟩
    · exact scalar
    · exact absurd sameKind (by simp [kind])
    · exact absurd sameKind (by simp [kind])
  rw [shapeOf_of_scalar baseScalar, shapeOf_of_scalar curScalar, diffShapes, reports_iff]
  constructor
  · intro member
    by_cases same : baseType.tag = curType.tag
    · simp [same] at member
    · rw [if_pos same, List.mem_singleton] at member
      have different : baseType ≠ curType := fun equal => same (congrArg ScalarType.tag equal)
      exact .inl ⟨_, .typeChanged baseScalar curScalar different, member⟩
  · rintro (⟨difference, differs, rfl⟩ | ⟨step, baseChild, curChild, baseStep, -, -⟩)
    · cases differs with
      | keyRemoved | keyAdded => cases baseScalar
      | typeChanged baseFound curFound different =>
          cases baseFound.symm.trans baseScalar
          cases curFound.symm.trans curScalar
          rw [if_pos (fun same => different (ScalarType.tag_injective same))]
          exact List.mem_singleton_self _
      | structureChanged different => exact absurd sameKind different
    · rw [child?_of_scalar baseScalar] at baseStep
      cases baseStep

theorem not_differs_array {base cur : List Json} {difference : Difference}
    : ¬ Differs (.array base) (.array cur) difference := by
  intro differs
  cases differs with
  | typeChanged baseScalar => cases baseScalar
  | structureChanged different => exact different rfl

/-- Two objects differ in the keys that only one of them has. -/
theorem differs_object_iff {base cur : List (String × Json)} {difference : Difference}
    : Differs (.object base) (.object cur) difference
      ↔ ∃ key, (key ∈ base.map Prod.fst ∧ key ∉ cur.map Prod.fst
            ∧ difference = .keyRemoved key)
          ∨ key ∉ base.map Prod.fst ∧ key ∈ cur.map Prod.fst ∧ difference = .keyAdded key := by
  constructor
  · intro differs
    cases differs with
    | keyRemoved held gone => exact ⟨_, .inl ⟨held, gone, rfl⟩⟩
    | keyAdded fresh held => exact ⟨_, .inr ⟨fresh, held, rfl⟩⟩
    | typeChanged baseScalar => cases baseScalar
    | structureChanged different => exact absurd rfl different
  · rintro ⟨key, ⟨held, gone, rfl⟩ | ⟨fresh, held, rfl⟩⟩
    · exact .keyRemoved held gone
    · exact .keyAdded fresh held

/-- Two arrays report what their first elements report. -/
theorem mem_diffShapes_array {base cur : List Json}
    (each : ∀ item ∈ base, ∀ {other : Json} {path line : String},
      line ∈ diffShapes path (shapeOf item) (shapeOf other) ↔ Reports path item other line)
    {path line : String}
    : line ∈ diffShapes path (shapeOf (.array base)) (shapeOf (.array cur))
      ↔ Reports path (.array base) (.array cur) line := by
  rw [reports_iff]
  constructor
  · intro member
    cases base with
    | nil => cases cur <;> cases member
    | cons item items =>
        cases cur with
        | nil => cases member
        | cons other others =>
            exact .inr ⟨.first, item, other, rfl, rfl, (each item List.mem_cons_self).mp member⟩
  · rintro (⟨difference, differs, -⟩ | ⟨step, item, other, baseStep, curStep, below⟩)
    · exact absurd differs not_differs_array
    · cases step with
      | key name => cases baseStep
      | first =>
          obtain ⟨items, rfl⟩ := List.head?_eq_some_iff.mp baseStep
          obtain ⟨others, rfl⟩ := List.head?_eq_some_iff.mp curStep
          exact (each item List.mem_cons_self).mpr below

/-- Two objects report the keys that only one of them has and what the values under their
common keys report.
-/
theorem mem_diffShapes_object {base cur : List (String × Json)}
    (distinct : (base.map Prod.fst).Nodup)
    (each : ∀ entry ∈ base, ∀ {other : Json} {path line : String},
      line ∈ diffShapes path (shapeOf entry.2) (shapeOf other) ↔ Reports path entry.2 other line)
    {path line : String}
    : line ∈ diffShapes path (shapeOf (.object base)) (shapeOf (.object cur))
      ↔ Reports path (.object base) (.object cur) line := by
  rw [shapeOf, shapeOf, diffShapes, mem_diffObjects_iff, reports_iff]
  simp only [keys_shapeOfEntries, differs_object_iff]
  simp only [shapeOfEntries_eq_map, lookup_map_values]
  constructor
  · rintro (⟨key, baseShape, member, walked⟩ | ⟨key, fresh, held, rfl⟩)
    · obtain ⟨⟨name, baseVal⟩, inside, same⟩ := List.mem_map.mp member
      obtain ⟨rfl, rfl⟩ := Prod.mk.inj same
      have baseStep := lookup_of_mem distinct inside
      rcases walked with ⟨curShape, found, drift⟩ | ⟨gone, rfl⟩
      · obtain ⟨curVal, curStep, rfl⟩ := Option.map_eq_some_iff.mp found
        exact .inr ⟨.key name, baseVal, curVal, baseStep, curStep, (each _ inside).mp drift⟩
      · have held : name ∈ base.map Prod.fst := List.mem_map.mpr ⟨_, inside, rfl⟩
        exact .inl ⟨_, ⟨name, .inl ⟨held, gone, rfl⟩⟩, rfl⟩
    · exact .inl ⟨_, ⟨key, .inr ⟨fresh, held, rfl⟩⟩, rfl⟩
  · rintro (⟨_, ⟨key, ⟨held, gone, rfl⟩ | ⟨fresh, held, rfl⟩⟩, rfl⟩
      | ⟨step, baseVal, curVal, baseStep, curStep, below⟩)
    · obtain ⟨⟨name, baseVal⟩, inside, rfl⟩ := List.mem_map.mp held
      exact .inl ⟨name, shapeOf baseVal, List.mem_map.mpr ⟨_, inside, rfl⟩, .inr ⟨gone, rfl⟩⟩
    · exact .inr ⟨key, fresh, held, rfl⟩
    · cases step with
      | first => cases baseStep
      | key name =>
          have inside := mem_of_lookup baseStep
          refine .inl ⟨name, shapeOf baseVal, List.mem_map.mpr ⟨_, inside, rfl⟩, .inl ?_⟩
          exact ⟨shapeOf curVal, Option.map_eq_some_iff.mpr ⟨curVal, curStep, rfl⟩,
            (each _ inside).mpr below⟩

/-- The lines of a comparison are the reports of the differences at the positions that both
values reach, by induction on the baseline.
-/
theorem mem_diffShapes_iff {base : Json} (keyed : base.Keyed) {cur : Json} {path line : String}
    : line ∈ diffShapes path (shapeOf base) (shapeOf cur) ↔ Reports path base cur line := by
  induction keyed generalizing cur path line with
  | null | bool value | string text => exact mem_diffShapes_of_scalar rfl
  | number value => cases value <;> exact mem_diffShapes_of_scalar rfl
  | @array items _ ih =>
      refine mem_diffShapes_of_sameKind (fun same => ?_)
      cases cur with
      | array others => exact mem_diffShapes_array ih
      | _ => exact absurd same (by simp [kind])
  | @object entries distinct _ ih =>
      refine mem_diffShapes_of_sameKind (fun same => ?_)
      cases cur with
      | object others => exact mem_diffShapes_object distinct ih
      | _ => exact absurd same (by simp [kind])

/-- A scalar agrees with the scalars of its type. -/
theorem agree_of_scalar_iff {base cur : Json} {type : ScalarType}
    (scalar : scalarType? base = some type)
    : Agree base cur ↔ scalarType? cur = some type := by
  have unfolded : Agree base cur
      ↔ ∃ type, scalarType? base = some type ∧ scalarType? cur = some type := by
    cases base with
    | array _ | object _ => cases scalar
    | _ => exact Iff.rfl
  rw [unfolded, scalar]
  constructor
  · rintro ⟨_, same, found⟩
    exact same ▸ found
  · intro found
    exact ⟨type, rfl, found⟩

theorem kind_eq_of_agree {base cur : Json} (agree : Agree base cur) : kind base = kind cur := by
  rcases scalar_or_container base with ⟨type, scalar⟩ | ⟨items, rfl⟩ | ⟨entries, rfl⟩
  · rw [kind_of_scalar scalar, kind_of_scalar ((agree_of_scalar_iff scalar).mp agree)]
  · cases cur with
    | array others => rfl
    | _ =>
        obtain ⟨_, found, -⟩ := agree
        cases found
  · cases cur with
    | object others => rfl
    | _ =>
        obtain ⟨_, found, -⟩ := agree
        cases found

/-- Values of one kind are two scalars, two arrays or two objects. -/
theorem cases_of_kind_eq {base cur : Json} (same : kind base = kind cur)
    : (∃ baseType curType, scalarType? base = some baseType ∧ scalarType? cur = some curType)
      ∨ (∃ items others, base = .array items ∧ cur = .array others)
      ∨ ∃ entries others, base = .object entries ∧ cur = .object others := by
  rcases scalar_or_container base with ⟨type, scalar⟩ | ⟨items, rfl⟩ | ⟨entries, rfl⟩
  · rw [kind_of_scalar scalar] at same
    rcases scalar_or_container cur with ⟨curType, curScalar⟩ | ⟨others, rfl⟩ | ⟨others, rfl⟩
    · exact .inl ⟨type, curType, scalar, curScalar⟩
    · exact absurd same (by simp [kind])
    · exact absurd same (by simp [kind])
  · cases cur with
    | array others => exact .inr (.inl ⟨items, others, rfl, rfl⟩)
    | _ => exact absurd same (by simp [kind])
  · cases cur with
    | object others => exact .inr (.inr ⟨entries, others, rfl, rfl⟩)
    | _ => exact absurd same (by simp [kind])

theorem agree_iff {base cur : Json}
    : Agree base cur ↔ ∀ difference, ¬ Differs base cur difference := by
  constructor
  · intro agree difference differs
    cases differs with
    | keyRemoved held gone => exact gone ((agree _).mp held)
    | keyAdded fresh held => exact fresh ((agree _).mpr held)
    | typeChanged baseScalar curScalar different =>
        have same := (agree_of_scalar_iff baseScalar).mp agree
        exact different (Option.some.inj (same.symm.trans curScalar))
    | structureChanged different => exact different (kind_eq_of_agree agree)
  · intro none
    have same : kind base = kind cur := by
      by_contra different
      exact none _ (.structureChanged different)
    rcases cases_of_kind_eq same with
      ⟨baseType, curType, baseScalar, curScalar⟩ | ⟨items, others, rfl, rfl⟩
      | ⟨entries, others, rfl, rfl⟩
    · refine (agree_of_scalar_iff baseScalar).mpr ?_
      by_contra different
      have typesDiffer : baseType ≠ curType := fun equal => different (equal ▸ curScalar)
      exact none _ (.typeChanged baseScalar curScalar typesDiffer)
    · trivial
    · intro key
      constructor
      · intro held
        by_contra gone
        exact none _ (.keyRemoved held gone)
      · intro held
        by_contra fresh
        exact none _ (.keyAdded fresh held)

/-- A position below a step is hidden when it is hidden in the values at that step. -/
theorem belowEmptyArray_cons {base cur baseChild curChild : Json} {step : Json.Step}
    {rest : List Json.Step} (baseStep : base.child? step = some baseChild)
    (curStep : cur.child? step = some curChild)
    (below : BelowEmptyArray baseChild curChild rest)
    : BelowEmptyArray base cur (step :: rest) := by
  obtain ⟨before, after, baseItems, curItems, rfl, baseFound, curFound, hidden⟩ := below
  refine ⟨step :: before, after, baseItems, curItems, rfl, ?_, ?_, hidden⟩
  · rw [Json.at?, baseStep, Option.bind_some, baseFound]
  · rw [Json.at?, curStep, Option.bind_some, curFound]

/-- Where two values agree, a step that only one of them can take leads into an array that
is empty in the other.
-/
theorem child?_of_agree {base cur : Json} (agree : Agree base cur) {step : Json.Step}
    (rest : List Json.Step) (sampled : ¬ BelowEmptyArray base cur (step :: rest))
    : (base.child? step).isSome = (cur.child? step).isSome := by
  rcases cases_of_kind_eq (kind_eq_of_agree agree) with
    ⟨baseType, curType, baseScalar, curScalar⟩ | ⟨items, others, rfl, rfl⟩
    | ⟨entries, others, rfl, rfl⟩
  · rw [child?_of_scalar baseScalar, child?_of_scalar curScalar]
  · cases step with
    | key name => rfl
    | first =>
        have itemsFull : items ≠ [] := fun empty =>
          sampled ⟨[], rest, items, others, rfl, rfl, rfl, .inl empty⟩
        have othersFull : others ≠ [] := fun empty =>
          sampled ⟨[], rest, items, others, rfl, rfl, rfl, .inr empty⟩
        obtain ⟨item, rest, rfl⟩ := List.exists_cons_of_ne_nil itemsFull
        obtain ⟨other, rest, rfl⟩ := List.exists_cons_of_ne_nil othersFull
        rfl
  · cases step with
    | first => rfl
    | key name =>
        have missing : entries.lookup name = none ↔ others.lookup name = none := by
          rw [lookup_eq_none_iff_not_mem, lookup_eq_none_iff_not_mem]
          exact not_congr (agree name)
        rw [Json.child?, Json.child?, Bool.eq_iff_iff, Option.isSome_iff_ne_none,
          Option.isSome_iff_ne_none]
        exact not_congr missing

/-- When the common positions agree, only what an empty array hides can be reached in one
value alone, by induction on the position.
-/
theorem agreeAt_of_common {base cur : Json} {position : List Json.Step}
    (common : ∀ position baseAt curAt, base.at? position = some baseAt
      → cur.at? position = some curAt → Agree baseAt curAt)
    (sampled : ¬ BelowEmptyArray base cur position)
    : AgreeAt base cur position := by
  induction position generalizing base cur with
  | nil => exact common [] base cur rfl rfl
  | cons step rest ih =>
      have alike := child?_of_agree (common [] base cur rfl rfl) rest sampled
      rw [AgreeAt, Json.at?, Json.at?]
      cases baseStep : base.child? step with
      | none =>
          cases curStep : cur.child? step with
          | none => trivial
          | some curChild => simp [baseStep, curStep] at alike
      | some baseChild =>
          cases curStep : cur.child? step with
          | none => simp [baseStep, curStep] at alike
          | some curChild =>
              refine ih (fun position baseAt curAt baseFound curFound => ?_) ?_
              · refine common (step :: position) baseAt curAt ?_ ?_
                · rw [Json.at?, baseStep, Option.bind_some, baseFound]
                · rw [Json.at?, curStep, Option.bind_some, curFound]
              · exact fun below => sampled (belowEmptyArray_cons baseStep curStep below)

theorem shapeOf_of_rescaled {value other : Json} (same : Rescaled value other)
    : shapeOf value = shapeOf other := by
  induction same with
  | scalar before after => rw [shapeOf_of_scalar before, shapeOf_of_scalar after]
  | @array items others length _ ih =>
      cases items with
      | nil => rw [List.length_eq_zero_iff.mp length.symm]
      | cons item items =>
          cases others with
          | nil => cases length
          | cons other others =>
              have first := ih 0 (Nat.zero_lt_succ _) (Nat.zero_lt_succ _)
              exact congrArg (fun shape => Json.array [shape]) first
  | @object entries others length keys _ ih =>
      have same : shapeOfEntries entries = shapeOfEntries others := by
        rw [shapeOfEntries_eq_map, shapeOfEntries_eq_map]
        refine List.ext_getElem (by simpa using length) ?_
        intro index left right
        rw [List.getElem_map, List.getElem_map]
        rw [List.length_map] at left right
        exact Prod.ext (keys index left right) (ih index left right)
      rw [shapeOf, shapeOf, same]

/-- What both values reach is not hidden by an empty array. -/
theorem not_belowEmptyArray {base cur baseAt curAt : Json} {position : List Json.Step}
    (baseFound : base.at? position = some baseAt) (curFound : cur.at? position = some curAt)
    : ¬ BelowEmptyArray base cur position := by
  rintro ⟨before, after, baseItems, curItems, rfl, baseArray, curArray, rfl | rfl⟩
  · rw [Json.at?_below_empty baseArray] at baseFound
    cases baseFound
  · rw [Json.at?_below_empty curArray] at curFound
    cases curFound

theorem diffShapes_eq_nil_iff {base : Json} (keyed : base.Keyed) {cur : Json} {path : String}
    : diffShapes path (shapeOf base) (shapeOf cur) = []
      ↔ ∀ position, ¬ BelowEmptyArray base cur position → AgreeAt base cur position := by
  rw [List.eq_nil_iff_forall_not_mem]
  constructor
  · intro silent position sampled
    refine agreeAt_of_common (fun position baseAt curAt baseFound curFound => ?_) sampled
    rw [agree_iff]
    intro difference differs
    exact silent _ ((mem_diffShapes_iff keyed).mpr
      ⟨position, baseAt, curAt, difference, baseFound, curFound, differs, rfl⟩)
  · intro agreeing line member
    obtain ⟨position, baseAt, curAt, difference, baseFound, curFound, differs, -⟩ :=
      (mem_diffShapes_iff keyed).mp member
    have agree := agreeing position (not_belowEmptyArray baseFound curFound)
    rw [AgreeAt, baseFound, curFound] at agree
    exact agree_iff.mp agree difference differs

/-- A value does not differ from itself. -/
theorem diffShapes_self {value : Json} (keyed : value.Keyed) (path : String)
    : diffShapes path (shapeOf value) (shapeOf value) = [] := by
  refine List.eq_nil_iff_forall_not_mem.mpr (fun line member => ?_)
  obtain ⟨position, left, right, difference, leftFound, rightFound, differs, -⟩ :=
    (mem_diffShapes_iff keyed).mp member
  cases leftFound.symm.trans rightFound
  cases differs with
  | keyRemoved held gone => exact gone held
  | keyAdded fresh held => exact fresh held
  | typeChanged before after different =>
      exact different (Option.some.inj (before.symm.trans after))
  | structureChanged different => exact different rfl

/-- The comparison tells exactly the differences, and none where nothing but the values of
scalars has changed.
-/
theorem diffShapes_tellsDrift (path : String) (base cur : Document)
    : TellsDrift path base cur where
  empty_iff := diffShapes_eq_nil_iff base.keyed
  line_iff := fun _ => mem_diffShapes_iff base.keyed
  rescaled := by
    intro other rescaled
    rw [← shapeOf_of_rescaled rescaled]
    exact ⟨diffShapes_self cur.keyed path, rfl⟩

example :
    diffShapes "ep"
        (shapeOf (.object [("items", .array [.object [("amount", .number (.posInt 1))]])]))
        (shapeOf (.object [("items", .array [.object [("amount", .string "1")]])]))
      = ["ep.items[].amount: type changed integer -> string"] := by
  decide +kernel

end ChiaQuery
