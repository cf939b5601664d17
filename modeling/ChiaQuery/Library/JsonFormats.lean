import ChiaQuery.Library.JsonDocuments

/-! How typed data is written as JSON values and read from them. A record is read from an
object by the keys of its fields, whatever else the object holds, or from an array by the
order of its fields.
-/

namespace ChiaQuery.Library

variable {α β ρ : Type}

/-- A format reads back what it writes. -/
structure JsonFormat (α : Type) where
  write : α → Json
  read : Json → Option α
  read_write : ∀ value, read (write value) = some value

namespace JsonFormat

/-- Any value, as it is. -/
def json : JsonFormat Json where
  write := id
  read := some
  read_write _ := rfl

def string : JsonFormat String where
  write := .string
  read
    | .string text => some text
    | _ => none
  read_write _ := rfl

def bool : JsonFormat Bool where
  write := .bool
  read
    | .bool value => some value
    | _ => none
  read_write _ := rfl

/-- A number, as it is written. -/
def number : JsonFormat JsonNumber where
  write := .number
  read
    | .number value => some value
    | _ => none
  read_write _ := rfl

def uint64 : JsonFormat UInt64 where
  write value := .number (.posInt value)
  read
    | .number (.posInt value) => some value
    | _ => none
  read_write _ := rfl

theorem uint64_nonnull (value : UInt64) : uint64.write value ≠ .null := nofun

/-- Natural numbers that are narrow enough. -/
def narrow (widen : α → UInt64) (fits : UInt64 → Option α)
    (back : ∀ value, fits (widen value) = some value)
    : JsonFormat α where
  write value := uint64.write (widen value)
  read json := (uint64.read json).bind fits
  read_write value := back value

def uint32 : JsonFormat UInt32 :=
  narrow UInt32.toUInt64
    (fun value => if value.toNat < UInt32.size then some value.toUInt32 else none)
    (by
      intro value
      have small : value.toUInt64.toNat < UInt32.size := by simpa using value.toNat_lt
      rw [if_pos small, UInt32.toUInt32_toUInt64])

def uint8 : JsonFormat UInt8 :=
  narrow UInt8.toUInt64
    (fun value => if value.toNat < UInt8.size then some value.toUInt8 else none)
    (by
      intro value
      have small : value.toUInt64.toNat < UInt8.size := by simpa using value.toNat_lt
      rw [if_pos small, UInt8.toUInt8_toUInt64])

/-- The reading of a list, which fails at the first item that cannot be read. -/
def readAll (read : Json → Option α) : List Json → Option (List α)
  | [] => some []
  | item :: rest =>
      match read item with
      | none => none
      | some value => (readAll read rest).map (value :: ·)

theorem readAll_map_write (format : JsonFormat α) (values : List α)
    : readAll format.read (values.map format.write) = some values := by
  induction values with
  | nil => rfl
  | cons value rest ih => rw [List.map_cons, readAll, format.read_write, ih]; rfl

def list (format : JsonFormat α) : JsonFormat (List α) where
  write values := .array (values.map format.write)
  read
    | .array items => readAll format.read items
    | _ => none
  read_write := readAll_map_write format

/-- The reading of a value that may be null. -/
def readOption (read : Json → Option α) : Json → Option (Option α)
  | .null => some none
  | json => (read json).map some

theorem readOption_of_ne_null {read : Json → Option α} {json : Json} (nonnull : json ≠ .null)
    : readOption read json = (read json).map some := by
  cases json with
  | null => exact absurd rfl nonnull
  | _ => rfl

def writeOption (format : JsonFormat α) : Option α → Json
  | none => .null
  | some value => format.write value

/-- A value that may be null, in a format that does not write null itself. -/
def option (format : JsonFormat α) (nonnull : ∀ value, format.write value ≠ .null)
    : JsonFormat (Option α) where
  write := writeOption format
  read := readOption format.read
  read_write
    | none => rfl
    | some value => by
        rw [writeOption, readOption_of_ne_null (nonnull value), format.read_write]
        rfl

/-- A format is exact when it reads no value but the ones it writes. -/
def Exact (format : JsonFormat α) : Prop :=
  ∀ json value, format.read json = some value → format.write value = json

theorem string_exact : string.Exact := by
  intro json value found
  cases json with
  | string text =>
      cases found
      rfl
  | _ => cases found

theorem uint64_exact : uint64.Exact := by
  intro json value found
  cases json with
  | number number =>
      cases number with
      | posInt natural =>
          cases found
          rfl
      | _ => cases found
  | _ => cases found

theorem narrow_exact {widen : α → UInt64} {fits : UInt64 → Option α}
    {back : ∀ value, fits (widen value) = some value}
    (same : ∀ natural value, fits natural = some value → widen value = natural)
    : (narrow widen fits back).Exact := by
  intro json value found
  obtain ⟨natural, wide, small⟩ := Option.bind_eq_some_iff.mp found
  rw [← uint64_exact json natural wide, ← same natural value small]
  rfl

theorem uint32_exact : uint32.Exact := by
  refine narrow_exact (fun natural value found => ?_)
  split at found
  · rename_i small
    cases found
    exact UInt64.toNat_inj.mp (by simpa using small)
  · cases found

theorem uint8_exact : uint8.Exact := by
  refine narrow_exact (fun natural value found => ?_)
  split at found
  · rename_i small
    cases found
    exact UInt64.toNat_inj.mp (by simpa using small)
  · cases found

theorem option_exact {format : JsonFormat α} (nonnull : ∀ value, format.write value ≠ .null)
    (exact : format.Exact)
    : (format.option nonnull).Exact := by
  intro json value found
  by_cases isNull : json = .null
  · subst isNull
    cases found
    rfl
  · have read : (format.read json).map some = some value :=
      (readOption_of_ne_null isNull).symm.trans found
    obtain ⟨inner, below, rfl⟩ := Option.map_eq_some_iff.mp read
    exact exact json inner below

end JsonFormat

------------------------------------------------------------------------------------------
-- The fields of a record
------------------------------------------------------------------------------------------

/-- A field of a record: its key, its format, and its value where it is missing. -/
structure Field (α : Type) where
  key : String
  format : JsonFormat α
  missing : Option α

/-- A field that has to be there. -/
def Field.required (key : String) (format : JsonFormat α) : Field α where
  key
  format
  missing := none

/-- A field that is a default where it is missing. -/
def Field.defaulted (key : String) (format : JsonFormat α) (value : α) : Field α where
  key
  format
  missing := some value

namespace Field

/-- The value of a field from what its key looks up. -/
def read (field : Field α) : Option Json → Option α
  | some json => field.format.read json
  | none => field.missing

/-- The value of a field from the next item of an array. -/
def readNext (field : Field α) (items : List Json) : Option (α × List Json) :=
  (field.read items.head?).map (fun value => (value, items.tail))

end Field

/-- The fields of a record, with the tuple of their values: how they are written as entries,
and read by their keys or from an array.
-/
structure Fields (α : Type) where
  keys : List String
  write : α → List (String × Json)
  read : List (String × Json) → Option α
  readItems : List Json → Option (α × List Json)
  distinct : keys.Nodup
  keys_write : ∀ value, (write value).map Prod.fst = keys
  read_congr
    : ∀ entries others : List (String × Json),
        (∀ key ∈ keys, entries.lookup key = others.lookup key) → read entries = read others
  read_write : ∀ value, read (write value) = some value

/-- A key of an appended list that is not in its first part looks up in the second one. -/
theorem lookup_append_right {entries more : List (String × Json)} {key : String}
    (fresh : key ∉ entries.map Prod.fst)
    : (entries ++ more).lookup key = more.lookup key := by
  rw [List.lookup_append, lookup_eq_none_iff_not_mem.mpr fresh, Option.none_or]

theorem lookup_append_left {entries more : List (String × Json)} {key : String}
    (held : key ∈ entries.map Prod.fst)
    : (entries ++ more).lookup key = entries.lookup key := by
  have found : entries.lookup key ≠ none := fun missing =>
    lookup_eq_none_iff_not_mem.mp missing held
  obtain ⟨value, looked⟩ := Option.ne_none_iff_exists'.mp found
  rw [List.lookup_append, looked, Option.some_or]

/-- Filtering by the key keeps what such a key looks up, by induction on the list. -/
theorem lookup_filter_of_kept (keep : String → Bool) {key : String} (kept : keep key = true)
    (entries : List (String × Json))
    : (entries.filter (fun entry => keep entry.1)).lookup key = entries.lookup key := by
  induction entries with
  | nil => rfl
  | cons entry rest ih =>
      rw [List.filter_cons]
      by_cases same : key = entry.1
      · subst same
        rw [if_pos kept, List.lookup_cons, List.lookup_cons, beq_self_eq_true]
      · have different := beq_eq_false_iff_ne.mpr same
        split
        · rw [List.lookup_cons, List.lookup_cons, different, ih]
        · rw [List.lookup_cons, different, ih]

theorem lookup_filter_of_dropped (keep : String → Bool) {key : String}
    (dropped : keep key = false) (entries : List (String × Json))
    : (entries.filter (fun entry => keep entry.1)).lookup key = none := by
  rw [lookup_eq_none_iff_not_mem]
  intro member
  obtain ⟨entry, kept, rfl⟩ := List.mem_map.mp member
  rw [(List.mem_filter.mp kept).2] at dropped
  cases dropped

namespace Fields

def none : Fields Unit where
  keys := []
  write _ := []
  read _ := some ()
  readItems items := some ((), items)
  distinct := List.nodup_nil
  keys_write _ := rfl
  read_congr _ _ _ := rfl
  read_write _ := rfl

/-- One more field, behind the others. -/
def and (front : Fields α) (field : Field β) (fresh : field.key ∉ front.keys)
    : Fields (α × β) where
  keys := front.keys ++ [field.key]
  write value := front.write value.1 ++ [(field.key, field.format.write value.2)]
  read entries :=
    (front.read entries).bind (fun values =>
      (field.read (entries.lookup field.key)).map (fun value => (values, value)))
  readItems items :=
    (front.readItems items).bind (fun (values, rest) =>
      (field.readNext rest).map (fun (value, rest) => ((values, value), rest)))
  distinct := by
    rw [List.nodup_append]
    refine ⟨front.distinct, List.nodup_singleton _, ?_⟩
    rintro key held _ member rfl
    exact fresh (List.mem_singleton.mp member ▸ held)
  keys_write value := by rw [List.map_append, front.keys_write]; rfl
  read_congr := by
    intro entries others same
    rw [front.read_congr entries others (fun key held => same key (List.mem_append_left _ held)),
      same field.key (List.mem_append_right _ (List.mem_singleton_self _))]
  read_write := by
    intro value
    have before : ∀ key ∈ front.keys,
        (front.write value.1 ++ [(field.key, field.format.write value.2)]).lookup key
        = (front.write value.1).lookup key :=
      fun key held => lookup_append_left (front.keys_write value.1 ▸ held)
    have last :
        (front.write value.1 ++ [(field.key, field.format.write value.2)]).lookup field.key
        = some (field.format.write value.2) := by
      rw [lookup_append_right (front.keys_write value.1 ▸ fresh), List.lookup_cons_self]
    rw [front.read_congr _ _ before, front.read_write, last, Option.bind_some, Field.read,
      field.format.read_write]
    rfl

variable {fields : Fields α}

/-- What is written under other keys too is read back all the same. -/
theorem read_write_append (value : α) (more : List (String × Json))
    : fields.read (fields.write value ++ more) = some value := by
  rw [← fields.read_write value]
  exact fields.read_congr _ _ (fun key held =>
    lookup_append_left (fields.keys_write value ▸ held))

/-- Whatever the fields are read from is what their values are written as. -/
def Exact (fields : Fields α) : Prop :=
  ∀ entries value, fields.read entries = some value
    → ∀ key ∈ fields.keys, ∀ json, entries.lookup key = some json
      → (fields.write value).lookup key = some json

theorem none_exact : none.Exact :=
  fun _ _ _ _ held => absurd held List.not_mem_nil

theorem Exact.and {front : Fields α} {field : Field β} {fresh : field.key ∉ front.keys}
    (exact : front.Exact) (last : field.format.Exact)
    : (front.and field fresh).Exact := by
  intro entries value found key held json looked
  obtain ⟨values, before, rest⟩ := Option.bind_eq_some_iff.mp found
  obtain ⟨newest, behind, rfl⟩ := Option.map_eq_some_iff.mp rest
  rcases List.mem_append.mp held with earlier | latest
  · rw [Fields.and, lookup_append_left (front.keys_write values ▸ earlier)]
    exact exact entries values before key earlier json looked
  · cases List.mem_singleton.mp latest
    rw [looked, Field.read] at behind
    rw [Fields.and, lookup_append_right (front.keys_write values ▸ fresh),
      List.lookup_cons_self, last json newest behind]

/-- Entries of an object under other keys than the fields'. -/
def Rest (fields : Fields α) : Type :=
  {entries : List (String × Json) // ∀ key ∈ fields.keys, entries.lookup key = .none}

/-- The entries of an object that are none of the fields. -/
def others (fields : Fields α) (entries : List (String × Json)) : fields.Rest where
  val := entries.filter (fun entry => entry.1 ∉ fields.keys)
  property key held :=
    lookup_filter_of_dropped (fun key => key ∉ fields.keys) (by simpa using held) entries

theorem lookup_others_of_fresh {key : String} (fresh : key ∉ fields.keys)
    (entries : List (String × Json))
    : (fields.others entries).val.lookup key = entries.lookup key :=
  lookup_filter_of_kept (fun key => key ∉ fields.keys) (by simpa using fresh) entries

/-- Of what a record writes, the rest is none of the fields. -/
theorem others_write_append (value : α) (rest : fields.Rest)
    : fields.others (fields.write value ++ rest.val) = rest := by
  apply Subtype.ext
  have dropped : (fields.write value).filter (fun entry => entry.1 ∉ fields.keys) = [] := by
    rw [List.filter_eq_nil_iff]
    intro entry member
    simpa using fields.keys_write value ▸ List.mem_map_of_mem (f := Prod.fst) member
  have kept : rest.val.filter (fun entry => entry.1 ∉ fields.keys) = rest.val := by
    rw [List.filter_eq_self]
    intro entry member
    have fresh : entry.1 ∉ fields.keys := fun held =>
      lookup_eq_none_iff_not_mem.mp (rest.property entry.1 held) (List.mem_map_of_mem member)
    simpa using fresh
  change List.filter _ (fields.write value ++ rest.val) = rest.val
  rw [List.filter_append, dropped, kept, List.nil_append]

end Fields

namespace JsonFormat

/-- A record, packed from the values of its fields. -/
def record (fields : Fields α) (pack : α → ρ) (unpack : ρ → α)
    (inverse : ∀ value, pack (unpack value) = value)
    : JsonFormat ρ where
  write value := .object (fields.write (unpack value))
  read
    | .object entries => (fields.read entries).map pack
    | .array items =>
        match fields.readItems items with
        | some (values, []) => some (pack values)
        | _ => none
    | _ => none
  read_write value := by
    simp only [fields.read_write, Option.map_some, inverse]

/-- A record is read back from the object it is written as, whatever is added to that. -/
theorem record_read_append {fields : Fields α} {pack : α → ρ} {unpack : ρ → α}
    {inverse : ∀ value, pack (unpack value) = value} {value : ρ} {entries : List (String × Json)}
    (written : (record fields pack unpack inverse).write value = .object entries)
    (more : List (String × Json))
    : (record fields pack unpack inverse).read (.object (entries ++ more)) = some value := by
  cases written
  change (fields.read (fields.write (unpack value) ++ more)).map pack = some value
  rw [Fields.read_write_append, Option.map_some, inverse]

/-- A record that keeps the rest of its object beside its fields. It is read from objects
only.
-/
def recordBeside (fields : Fields α) (pack : α × fields.Rest → ρ) (unpack : ρ → α × fields.Rest)
    (inverse : ∀ value, pack (unpack value) = value)
    : JsonFormat ρ where
  write value := .object (fields.write (unpack value).1 ++ (unpack value).2.val)
  read
    | .object entries =>
        (fields.read entries).map (fun values => pack (values, fields.others entries))
    | _ => none
  read_write value := by
    simp only [Fields.read_write_append, Fields.others_write_append, Option.map_some, inverse]

/-- A record that keeps the rest of its object is written as what it was read from, with the
fields that were missing.
-/
theorem recordBeside_written {fields : Fields α} {pack : α × fields.Rest → ρ}
    {unpack : ρ → α × fields.Rest} {inverse : ∀ value, pack (unpack value) = value}
    (exact : fields.Exact) (back : ∀ parts, unpack (pack parts) = parts)
    {entries : List (String × Json)} {value : ρ}
    (found : (recordBeside fields pack unpack inverse).read (.object entries) = some value)
    : ∃ written, (recordBeside fields pack unpack inverse).write value = .object written
      ∧ (∀ key json, entries.lookup key = some json → written.lookup key = some json)
      ∧ ∀ key, key ∉ fields.keys → written.lookup key = entries.lookup key := by
  obtain ⟨values, read, rfl⟩ := Option.map_eq_some_iff.mp found
  refine ⟨fields.write values ++ (fields.others entries).val, ?_, fun key json looked => ?_,
    fun key fresh => ?_⟩
  · change Json.object _ = _
    rw [back]
  · by_cases held : key ∈ fields.keys
    · rw [lookup_append_left (fields.keys_write values ▸ held)]
      exact exact entries values read key held json looked
    · rw [lookup_append_right (fields.keys_write values ▸ held),
        Fields.lookup_others_of_fresh held, looked]
  · rw [lookup_append_right (fields.keys_write values ▸ fresh),
      Fields.lookup_others_of_fresh fresh]

end JsonFormat

end ChiaQuery.Library
