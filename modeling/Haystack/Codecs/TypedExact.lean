import Haystack.Codecs.Typed
import Haystack.PlainFormats

/-!
# The typed payload is exact

What is decoded of an encoded value is the value, in every bit and field.  The
scalars of the tree are read back; what is read of a written document has its
fields in order; deserializing finds every field of a variant; and lists,
dictionaries and grids are rebuilt from their parts.
-/

namespace Haystack
namespace Codecs
namespace Typed

open Collections
open Collections.JsonText (Doc)

variable {formats : Formats}

/-! ## Scalars -/

@[simp] theorem parseBits_bits (x : F64) : parseBits (bits x) = .ok x := by
  have small : x.bits.toNat < 16 ^ 16 := x.bits.toNat_lt
  rw [parseBits, bits, String.toList_ofList, parseHex_fixedHex small]
  simp

theorem signedDecimal_intText (value : Int) :
    signedDecimal (JsonText.intText value) = some value := by
  rw [JsonText.intText]
  split
  · rw [signedDecimal, parseDecimal_decimal, Option.map_some, Option.some.injEq]
    omega
  · obtain ⟨c, _, shape⟩ := List.exists_cons_of_ne_nil (JsonText.decimal_ne_nil value.natAbs)
    have digit : c.isDigit = true :=
      JsonText.isDigit_decimal (n := value.natAbs) (by simp [shape])
    have read := parseDecimal_decimal value.natAbs
    rw [shape] at read ⊢
    unfold signedDecimal
    split
    · next same =>
      rw [(List.cons.inj same).1] at digit
      exact absurd digit (by decide)
    · next same =>
      rw [(List.cons.inj same).1] at digit
      exact absurd digit (by decide)
    · rw [read, Option.map_some, Option.some.injEq]
      omega

theorem parseI64_intText (value : Int64) :
    parseI64 (JsonText.intText value.toInt) = some value := by
  have within : -2 ^ 63 ≤ value.toInt ∧ value.toInt < 2 ^ 63 := ⟨value.le_toInt, value.toInt_lt⟩
  rw [parseI64, signedDecimal_intText, Option.bind_some, if_pos within, Int64.ofInt_toInt]

@[simp] theorem parseInt_intString (value : Int64) : parseInt (intString value) = .ok value := by
  have text : (intString value).toList = JsonText.intText value.toInt := String.toList_ofList
  rw [parseInt, text, parseI64_intText]
  simp

theorem timeOf_eq {clock : NaiveTime} (valid : clock.Valid) :
    timeOf clock.secs clock.frac = some clock :=
  if_pos ⟨valid.secs, valid.frac⟩

/-- The date and the time of day are recovered from the timestamp. -/
theorem utcOf_timestamp {value : DateTime} (valid : value.Valid) :
    utcOf (timestamp value) value.time.frac = some (value.date, value.time) := by
  obtain ⟨⟨low, high⟩, ⟨secs, frac⟩, -⟩ := valid
  obtain ⟨⟨days⟩, ⟨seconds, nanos⟩, offset⟩ := value
  simp only at low high secs frac
  have exact : (timestamp ⟨⟨days⟩, ⟨seconds, nanos⟩, offset⟩).toInt =
      (days - 719528) * 86400 + seconds :=
    Int64.toInt_ofInt_of_le (by simp only [epochDay, secondsPerDay]; omega)
      (by simp only [epochDay, secondsPerDay]; omega)
  have quotient : 719528 + ((days - 719528) * 86400 + (seconds : Int)) / 86400 = days := by
    omega
  have remainder : (((days - 719528) * 86400 + (seconds : Int)) % 86400).toNat = seconds := by
    omega
  simp only [utcOf, exact, epochDay, secondsPerDay, quotient, remainder]
  rw [if_pos ⟨low, high, frac⟩]

theorem fromBuf_standardEncode (bytes : List UInt8) :
    fromBuf (String.ofList (standardEncode bytes)) = .ok (.buf bytes) := by
  rw [fromBuf, String.toList_ofList, standardDecode_encode]
  simp

variable {value : Kind}

/-- A scalar is read back from the tree. -/
theorem scalarOf_scalarWire (form : value.OwnForm) (scalar : value.isScalar = true) :
    scalarOf formats (scalarWire formats value) = .ok value := by
  cases value with
  | list items | dict tags | grid gridMeta cols rows => cases scalar
  | null | none | marker | na | remove | bool flag | str text | ref r | uri text
  | symbol text | xstr x => rfl
  | int =>
    simp only [scalarWire, scalarOf, parseInt_intString]
    rfl
  | float x | number n | coord =>
    simp only [scalarWire, scalarOf, parseBits_bits]
    rfl
  | date day =>
    simp [scalarWire, scalarOf, formats.parseDate_displayDate day form]
  | time =>
    simp [scalarWire, scalarOf, timeOf_eq form]
  | dateTime =>
    obtain ⟨low, high⟩ := form.offset
    simp [scalarWire, scalarOf, fromDateTime, low, high, bind, Except.bind, utcOf_timestamp form]
  | buf bytes => exact fromBuf_standardEncode bytes
  | nominal value =>
    simp only [scalarWire, scalarOf, fromNominal]
    rw [show NominalScalar.new value.spec value.catalog value.revision value.text =
      some value from form]

/-! ## Values and trees -/

section Trees

theorem toItems_eq (depth : Nat) (items : List Kind) :
    toItems formats depth items = items.mapM (toWire formats depth) :=
  eq_mapM (toItems formats depth) rfl (fun _ _ => rfl) items

theorem toTags_eq (depth : Nat) (tags : List (String × Kind)) :
    toTags formats depth tags = tags.mapM (onValue (toWire formats (depth + 1))) := by
  refine eq_mapM (toTags formats depth) rfl (fun entry rest => ?_) tags
  rw [toTags, onValue]
  cases toWire formats (depth + 1) entry.2 <;> rfl

theorem toColumns_eq (depth : Nat) (cols : List (String × List (String × Kind))) :
    toColumns formats depth cols = cols.mapM (onValue (toTags formats depth)) := by
  refine eq_mapM (toColumns formats depth) rfl (fun col rest => ?_) cols
  rw [toColumns, onValue]
  cases toTags formats depth col.2 <;> rfl

theorem toRows_eq (depth : Nat) (rows : List (List (String × Kind))) :
    toRows formats depth rows = rows.mapM (toTags formats depth) :=
  eq_mapM (toRows formats depth) rfl (fun _ _ => rfl) rows

theorem fromItems_eq (items : List WireValue) :
    fromItems formats items = items.mapM (fromWire formats) :=
  eq_mapM (fromItems formats) rfl (fun _ _ => rfl) items

theorem fromTags_eq (tags : List (String × WireValue)) :
    fromTags formats tags = tags.mapM (onValue (fromWire formats)) := by
  refine eq_mapM (fromTags formats) rfl (fun entry rest => ?_) tags
  rw [fromTags, onValue]
  cases fromWire formats entry.2 <;> rfl

/-- The dictionary of the tags of a tree. -/
def fromDict (formats : Formats) (tags : List (String × WireValue)) :
    Except TypedPayloadError (List (String × Kind)) :=
  (fromTags formats tags).map Assoc.ofList

theorem fromColumns_eq (cols : List (String × List (String × WireValue))) :
    fromColumns formats cols = cols.mapM (onValue (fromDict formats)) := by
  refine eq_mapM (fromColumns formats) rfl (fun col rest => ?_) cols
  rw [fromColumns, onValue, fromDict]
  cases fromTags formats col.2 <;> rfl

theorem fromRows_eq (rows : List (List (String × WireValue))) :
    fromRows formats rows = rows.mapM (fromDict formats) := by
  refine eq_mapM (fromRows formats) rfl (fun row rest => ?_) rows
  rw [fromRows, fromDict]
  cases fromTags formats row <;> rfl

/-- What the tree of a value is, by the kinds of values. -/
theorem toWire_cases {wire : WireValue} {depth : Nat}
    (built : toWire formats depth value = .ok wire) :
    (∃ items wires, value = .list items ∧ wire = .list wires ∧
      toItems formats (depth + 1) items = .ok wires) ∨
    (∃ tags wires, value = .dict tags ∧ wire = .dict wires ∧
      toTags formats depth tags = .ok wires) ∨
    (∃ gridMeta cols rows metaWires colWires rowWires, value = .grid gridMeta cols rows ∧
      wire = .grid metaWires colWires rowWires ∧
      (cols.map Prod.fst).Nodup ∧
      toTags formats (depth + 1) gridMeta = .ok metaWires ∧
      toColumns formats (depth + 1) cols = .ok colWires ∧
      toRows formats (depth + 1) rows = .ok rowWires) ∨
    (value.isScalar = true ∧ wire = scalarWire formats value) := by
  cases value with
  | list items =>
    obtain ⟨_, _, built⟩ := except_bind_eq_ok.mp built
    obtain ⟨wires, parts, same⟩ := except_bind_eq_ok.mp built
    exact .inl ⟨items, wires, rfl, (Except.ok.inj same).symm, parts⟩
  | dict tags =>
    obtain ⟨_, _, built⟩ := except_bind_eq_ok.mp built
    obtain ⟨wires, parts, same⟩ := except_bind_eq_ok.mp built
    exact .inr (.inl ⟨tags, wires, rfl, (Except.ok.inj same).symm, parts⟩)
  | grid gridMeta cols rows =>
    obtain ⟨_, _, built⟩ := except_bind_eq_ok.mp built
    obtain ⟨_, checked, built⟩ := except_bind_eq_ok.mp built
    obtain ⟨metaWires, metaParts, built⟩ := except_bind_eq_ok.mp built
    obtain ⟨colWires, colParts, built⟩ := except_bind_eq_ok.mp built
    obtain ⟨rowWires, rowParts, same⟩ := except_bind_eq_ok.mp built
    have distinct : (cols.map Prod.fst).Nodup := by
      by_contra duplicate
      rw [checkColumns, if_neg duplicate] at checked
      cases checked
    exact .inr (.inr (.inl ⟨gridMeta, cols, rows, metaWires, colWires, rowWires,
      rfl, (Except.ok.inj same).symm, distinct, metaParts, colParts, rowParts⟩))
  | _ =>
    obtain ⟨_, _, same⟩ := except_bind_eq_ok.mp built
    exact .inr (.inr (.inr ⟨rfl, (Except.ok.inj same).symm⟩))

/-- Tags are rebuilt when their values are. -/
theorem fromDict_toTags {depth : Nat} {tags : List (String × Kind)}
    {wires : List (String × WireValue)} (sorted : Assoc.Sorted tags)
    (built : toTags formats depth tags = .ok wires)
    (each : ∀ entry ∈ tags, ∀ wire, toWire formats (depth + 1) entry.2 = .ok wire →
        fromWire formats wire = .ok entry.2) :
    fromDict formats wires = .ok tags := by
  rw [toTags_eq] at built
  have undone : wires.mapM (onValue (fromWire formats)) = .ok tags := by
    refine mapM_undone built ?_
    intro entry member wire same
    obtain ⟨same, key⟩ := onValue_eq_ok.mp same
    exact onValue_eq_ok.mpr ⟨each entry member wire.2 same, key.symm⟩
  rw [fromDict, fromTags_eq, undone]
  exact congrArg _ (Assoc.ofList_of_sorted sorted)

theorem fromWire_scalarWire (scalar : value.isScalar = true) :
    fromWire formats (scalarWire formats value) =
      scalarOf formats (scalarWire formats value) := by
  cases value with
  | list items | dict tags | grid gridMeta cols rows => cases scalar
  | _ => simp only [scalarWire, fromWire]

/-- A value is rebuilt from its tree. -/
theorem fromWire_toWire (form : value.WellFormed) : ∀ {depth : Nat} {wire : WireValue},
      toWire formats depth value = .ok wire → fromWire formats wire = .ok value := by
  induction value using Kind.nestingInduction with
  | step value ih =>
    intro depth wire built
    have inside : ∀ {tag : Option String} {inner : Kind},
        Kind.Contains value tag inner → ∀ depth wire,
        toWire formats depth inner = .ok wire → fromWire formats wire = .ok inner :=
      fun contains _ _ built =>
        ih _ _ contains (form.inside contains) built
    rcases toWire_cases built with ⟨items, wires, rfl, rfl, parts⟩ |
      ⟨tags, wires, rfl, rfl, parts⟩ |
      ⟨gridMeta, cols, rows, metaWires, colWires, rowWires, rfl, rfl, distinct,
        metaParts, colParts, rowParts⟩ | ⟨scalar, rfl⟩
    · rw [toItems_eq] at parts
      have undone : wires.mapM (fromWire formats) = .ok items :=
        mapM_undone parts fun item member => inside (.item member) (depth + 1)
      rw [fromWire, fromItems_eq, undone]
      rfl
    · have undone := fromDict_toTags form.self parts fun entry member =>
        inside (.entry member) (depth + 1)
      obtain ⟨_, tagsRead, same⟩ := except_map_eq_ok.mp undone
      rw [fromWire, tagsRead]
      simp [bind, Except.bind, same]
    · obtain ⟨metaSorted, colsSorted, rowsSorted⟩ := form.self
      have metaUndone := fromDict_toTags metaSorted metaParts fun entry member =>
        inside (.gridMeta member) (depth + 2)
      rw [toColumns_eq] at colParts
      have colsUndone : colWires.mapM (onValue (fromDict formats)) = .ok cols := by
        refine mapM_undone colParts ?_
        intro col listed wire same
        obtain ⟨same, name⟩ := onValue_eq_ok.mp same
        refine onValue_eq_ok.mpr ⟨fromDict_toTags (colsSorted col listed) same
          fun entry member => ?_, name.symm⟩
        exact inside (.column listed member) (depth + 2)
      rw [toRows_eq] at rowParts
      have rowsUndone : rowWires.mapM (fromDict formats) = .ok rows := by
        refine mapM_undone rowParts ?_
        intro row listed wire same
        exact fromDict_toTags (rowsSorted row listed) same fun entry member =>
          inside (.row listed member) (depth + 2)
      obtain ⟨_, metaRead, same⟩ := except_map_eq_ok.mp metaUndone
      rw [fromWire, fromColumns_eq, colsUndone, fromRows_eq, rowsUndone, metaRead]
      simp [bind, Except.bind, checkColumns, if_pos distinct, same]
    · rw [fromWire_scalarWire scalar]
      exact scalarOf_scalarWire form.self scalar

end Trees

/-! ## What is read of a document -/

mutual

/-- What is read of a document, with the fields in order. -/
def ordered : Doc → Json
  | .null => .null
  | .bool value => .bool value
  | .int value => .number (intNumber value)
  | .string text => .string text
  | .array items => .array (orderedItems items)
  | .object fields => .object (Assoc.ofList (orderedFields fields))

def orderedItems : List Doc → List Json
  | [] => []
  | item :: rest => ordered item :: orderedItems rest

def orderedFields : List (String × Doc) → List (String × Json)
  | [] => []
  | (name, value) :: rest => (name, ordered value) :: orderedFields rest

end

section Reading

variable {limits : PayloadLimits}

mutual

/-- Reading within limits only puts the fields in order. -/
theorem bounded_raw (doc : Doc) {depth nodes after : Nat} {json : Json}
    (read : bounded limits depth nodes (raw doc) = .ok (json, after)) : json = ordered doc := by
  cases doc with
  | array items =>
    obtain ⟨_, _, read⟩ := except_bind_eq_ok.mp read
    obtain ⟨⟨values, count⟩, inner, same⟩ := except_bind_eq_ok.mp read
    cases same
    rw [boundedItems_raw items inner]
    rfl
  | object fields =>
    obtain ⟨_, _, read⟩ := except_bind_eq_ok.mp read
    obtain ⟨⟨values, count⟩, inner, same⟩ := except_bind_eq_ok.mp read
    cases same
    rw [boundedFields_raw fields inner]
    rfl
  | int value =>
    have kept : raw (.int value) = .number (intNumber value) := rfl
    rw [kept, intNumber] at read
    rw [ordered, intNumber]
    split at read
    · obtain ⟨_, _, same⟩ := except_bind_eq_ok.mp read
      cases same
      rw [if_pos ‹_›]
    · obtain ⟨_, _, same⟩ := except_bind_eq_ok.mp read
      cases same
      rw [if_neg ‹_›]
  | null | bool value | string text =>
    obtain ⟨_, _, same⟩ := except_bind_eq_ok.mp read
    cases same
    rfl

theorem boundedItems_raw (items : List Doc) {depth nodes after : Nat} {values : List Json}
    (read : boundedItems limits depth nodes (rawItems items) = .ok (values, after)) :
    values = orderedItems items := by
  cases items with
  | nil =>
    cases read
    rfl
  | cons item rest =>
    obtain ⟨⟨first, count⟩, head, read⟩ := except_bind_eq_ok.mp read
    obtain ⟨⟨others, count⟩, tail, same⟩ := except_bind_eq_ok.mp read
    cases same
    rw [bounded_raw item head, boundedItems_raw rest tail]
    rfl

theorem boundedFields_raw (fields : List (String × Doc)) {depth nodes after : Nat}
    {before values : List (String × Json)}
    (read : boundedFields limits depth nodes before (rawFields fields) = .ok (values, after)) :
    values = (orderedFields fields).foldl
      (fun map field => Assoc.insert field.1 field.2 map) before := by
  cases fields with
  | nil =>
    cases read
    rfl
  | cons field rest =>
    obtain ⟨name, value⟩ := field
    rw [rawFields, boundedFields] at read
    split at read
    · cases read
    · obtain ⟨⟨first, count⟩, head, tail⟩ := except_bind_eq_ok.mp read
      rw [boundedFields_raw rest tail, bounded_raw value head]
      rfl

end

/-- What is read of the bytes of a document is the document with its fields in
order. -/
theorem boundedJson_docBytes {reader : JsonReader} {doc : Doc} {json : Json}
    (read : boundedJson limits reader (docBytes doc) = .ok json) : json = ordered doc := by
  rw [boundedJson] at read
  split at read
  · cases read
  · split at read
    · cases read
    · rw [reader.read_docBytes doc] at read
      obtain ⟨⟨_, _⟩, inner, rfl⟩ := except_map_eq_ok.mp read
      exact bounded_raw doc inner

end Reading

/-! ## Deserialization -/

section Levels

theorem height_lt_of_mem_items {items : List Json} {item : Json} (member : item ∈ items) :
    height item < height (.array items) := by
  rw [height]
  induction items with
  | nil => cases member
  | cons first rest ih =>
    rw [heightItems]
    rcases List.mem_cons.mp member with rfl | member
    · omega
    · have := ih member
      omega

theorem height_lt_of_mem_fields {fields : List (String × Json)} {name : String} {value : Json}
    (member : (name, value) ∈ fields) : height value < height (.object fields) := by
  rw [height]
  induction fields with
  | nil => cases member
  | cons first rest ih =>
    rw [heightFields]
    rcases List.mem_cons.mp member with rfl | member
    · exact Nat.lt_succ_of_le (le_max_left _ _)
    · have := ih member
      omega

end Levels

theorem ordered_array (items : List Doc) :
    ordered (.array items) = .array (orderedItems items) := rfl

theorem orderedItems_eq (items : List Doc) : orderedItems items = items.map ordered :=
  eq_map orderedItems rfl (fun _ _ => rfl) items

theorem orderedFields_eq (fields : List (String × Doc)) :
    orderedFields fields = fields.map fun field => (field.1, ordered field.2) :=
  eq_map orderedFields rfl (fun _ _ => rfl) fields

theorem keys_orderedFields (fields : List (String × Doc)) :
    (orderedFields fields).map Prod.fst = fields.map Prod.fst := by
  rw [orderedFields_eq, List.map_map]
  rfl

variable {fields : List (String × Doc)}

/-- The fields of a structure are found in a document that has them. -/
theorem structFields_ordered {names : List String} (keys : fields.map Prod.fst = names) :
    structFields names (.object (Assoc.ofList (orderedFields fields))) =
      .ok fun name => Assoc.lookup name (Assoc.ofList (orderedFields fields)) := by
  have listed : (Assoc.ofList (orderedFields fields)).all
      (fun field => names.contains field.1) = true := by
    rw [List.all_eq_true]
    intro field member
    rcases Assoc.mem_foldl_insert member with member | member
    · rw [List.contains_iff_mem, ← keys, ← keys_orderedFields]
      exact List.mem_map_of_mem member
    · cases member
  rw [structFields, if_pos listed]

/-- The tag of a variant is found, and so are its fields. -/
theorem deserializeAt_tagged
    {kind : String} (levels : Nat) (nested : Bool) (known : kind ∈ kindNames)
    (names : fields.map Prod.fst = fieldNames kind) (plain : "kind" ∉ fieldNames kind) :
    deserializeAt (levels + 1) nested (ordered (tagged kind fields)) =
      variant (deserializeAt levels true)
        (fun name => Assoc.lookup name (Assoc.ofList (orderedFields fields))) kind := by
  have keys := (keys_orderedFields fields).trans names
  have others : (orderedFields fields).filter (fun field => field.1 ≠ "kind") =
      orderedFields fields := by
    rw [List.filter_eq_self]
    intro field member
    have named : field.1 ∈ (orderedFields fields).map Prod.fst := List.mem_map_of_mem member
    rw [keys] at named
    have different : field.1 ≠ "kind" := fun same => plain (same ▸ named)
    simpa using different
  have tag : Assoc.lookup "kind" (Assoc.ofList
      (("kind", Json.string kind) :: orderedFields fields)) = some (.string kind) := by
    rw [Assoc.ofList, List.foldl_cons,
      Assoc.lookup_foldl_insert _ (keys ▸ plain), Assoc.lookup_insert, if_pos rfl]
  have content : (Assoc.ofList (("kind", Json.string kind) :: orderedFields fields)).filter
      (fun field => field.1 ≠ "kind") = Assoc.ofList (orderedFields fields) := by
    have single : Assoc.Sorted [("kind", Json.string kind)] := List.pairwise_singleton _ _
    exact (Assoc.filter_foldl_insert single).trans (by rw [others]; rfl)
  rw [deserializeAt, tagged, ordered, orderedFields, ordered]
  simp only [splitTag, tag, variantName, known, if_true, content,
    structFields_ordered names, bind, Except.bind]

section Fields

theorem asU32_intDoc {n : Nat} (small : n < 2 ^ 32) :
    asU32 (some (ordered (intDoc n))) = .ok n := by
  have exact : (Int64.ofInt (n : Int)).toInt = n := Int64.toInt_ofInt_of_le (by omega) (by omega)
  have natural : (UInt64.ofNat n).toNat = n := by
    rw [UInt64.toNat_ofNat']
    omega
  simp only [intDoc, ordered, intNumber, exact]
  rw [if_neg (by omega)]
  simp only [Int.toNat_natCast, asU32, natural, if_pos small]

theorem asI32_intDoc {value : Int} (low : -2 ^ 31 ≤ value) (high : value < 2 ^ 31) :
    asI32 (some (ordered (intDoc value))) = .ok value := by
  have exact : (Int64.ofInt value).toInt = value := Int64.toInt_ofInt_of_le (by omega) (by omega)
  simp only [intDoc, ordered, intNumber, exact]
  split
  · simp only [asI32, exact]
    rw [if_pos ⟨low, high⟩]
  · have natural : (UInt64.ofNat value.toNat).toNat = value.toNat := by
      rw [UInt64.toNat_ofNat']
      omega
    simp only [asI32, natural]
    rw [if_pos (by omega), Int.toNat_of_nonneg (by omega)]

theorem asOption_optionDoc (text : Option String) :
    asOption (some (ordered (optionDoc text))) = .ok text := by
  cases text <;> rfl

end Fields

/-- A scalar of the tree is deserialized. -/
theorem deserializeAt_scalarWire
    (form : value.OwnForm) (scalar : value.isScalar = true) (levels : Nat) (nested : Bool) :
    deserializeAt (levels + 1) nested (ordered (serialize (scalarWire formats value))) =
      .ok (scalarWire formats value) := by
  cases value with
  | list items | dict tags | grid gridMeta cols rows => cases scalar
  | time clock =>
    have secs : clock.secs < 2 ^ 32 := lt_trans form.secs (by decide)
    have frac : clock.frac < 2 ^ 32 := lt_trans form.frac (by decide)
    rw [scalarWire, serialize, deserializeAt_tagged _ _ (by decide) rfl (by decide)]
    simp only [orderedFields, Assoc.ofList, List.foldl_cons, List.foldl_nil, Assoc.lookup_insert,
      String.reduceEq, if_true, if_false, variant, asU32_intDoc secs, asU32_intDoc frac]
    rfl
  | dateTime value =>
    have frac : value.dt.time.frac < 2 ^ 32 := lt_trans form.time.frac (by decide)
    obtain ⟨_, _⟩ := form.offset
    have offset : asI32 (some (ordered (intDoc value.dt.offset))) =
        .ok value.dt.offset := asI32_intDoc (by omega) (by omega)
    rw [scalarWire, serialize, deserializeAt_tagged _ _ (by decide) rfl (by decide)]
    simp only [orderedFields, Assoc.ofList, List.foldl_cons, List.foldl_nil, Assoc.lookup_insert,
      String.reduceEq, if_true, if_false, variant, asU32_intDoc frac, offset]
    rfl
  | null | none | marker | na | remove =>
    rfl
  | _ =>
    rw [scalarWire, serialize, deserializeAt_tagged _ _ (by decide) rfl (by decide)]
    simp only [orderedFields, Assoc.ofList, List.foldl_cons, List.foldl_nil, Assoc.lookup_insert,
      if_true, variant, asOption_optionDoc]
    rfl

theorem serializeItems_eq (items : List WireValue) : serializeItems items = items.map serialize :=
  eq_map serializeItems rfl (fun _ _ => rfl) items

theorem serializeTags_eq (tags : List (String × WireValue)) :
    serializeTags tags = tags.map fun tag => (tag.1, serialize tag.2) :=
  eq_map serializeTags rfl (fun _ _ => rfl) tags

/-- The document of a column. -/
def columnDoc (col : String × List (String × WireValue)) : Doc :=
  .object [("name", .string col.1), ("meta", .object (serializeTags col.2))]

theorem serializeColumns_eq (cols : List (String × List (String × WireValue))) :
    serializeColumns cols = cols.map columnDoc :=
  eq_map serializeColumns rfl (fun _ _ => rfl) cols

theorem serializeRows_eq (rows : List (List (String × WireValue))) :
    serializeRows rows = rows.map fun row => .object (serializeTags row) :=
  eq_map serializeRows rfl (fun _ _ => rfl) rows

variable {tags : List (String × WireValue)}

/-- Tags in order stay as they are. -/
theorem ordered_tags (sorted : Assoc.Sorted tags) : ordered (.object (serializeTags tags)) =
    .object (tags.map fun tag => (tag.1, ordered (serialize tag.2))) := by
  have fields : orderedFields (serializeTags tags) =
      tags.map fun tag => (tag.1, ordered (serialize tag.2)) := by
    rw [orderedFields_eq, serializeTags_eq, List.map_map]
    rfl
  rw [ordered, fields, Assoc.ofList_of_sorted]
  refine (Assoc.sorted_congr_keys ?_).mpr sorted
  rw [List.map_map]
  rfl

section Containers

variable {child : Json → Except TypedPayloadError WireValue}

/-- Tags in order are deserialized when their values are. -/
theorem asTags_serializeTags (sorted : Assoc.Sorted tags)
    (each : ∀ tag ∈ tags, child (ordered (serialize tag.2)) = .ok tag.2) :
    asTags child (some (ordered (.object (serializeTags tags)))) = .ok tags := by
  have read : (tags.map fun tag => (tag.1, ordered (serialize tag.2))).mapM
      (onValue child) = .ok tags :=
    mapM_map_eq_ok fun tag member => onValue_eq_ok.mpr ⟨each tag member, rfl⟩
  rw [ordered_tags sorted, asTags, read]
  exact congrArg _ (Assoc.ofList_of_sorted sorted)

theorem asColumn_columnDoc
    {col : String × List (String × WireValue)} (sorted : Assoc.Sorted col.2)
    (each : ∀ tag ∈ col.2, child (ordered (serialize tag.2)) = .ok tag.2) :
    asColumn child (ordered (columnDoc col)) = .ok col := by
  have tags := asTags_serializeTags sorted each
  have names : [("name", Doc.string col.1),
      ("meta", .object (serializeTags col.2))].map Prod.fst = ["name", "meta"] := rfl
  rw [columnDoc, ordered, asColumn, structFields_ordered names]
  simp only [bind, Except.bind, orderedFields, Assoc.ofList, List.foldl_cons, List.foldl_nil,
    Assoc.lookup_insert, if_true, tags]
  rfl

end Containers

/-- A tree that is deserialized when there are enough levels. -/
def Readable (wire : WireValue) : Prop :=
  ∀ levels nested, height (ordered (serialize wire)) ≤ levels →
    deserializeAt levels nested (ordered (serialize wire)) = .ok wire

/-- Tags in order whose values are deserialized. -/
structure ReadableTags (tags : List (String × WireValue)) : Prop where
  sorted : Assoc.Sorted tags
  each : ∀ tag ∈ tags, Readable tag.2

/-- The values of tags have fewer levels than the tags. -/
theorem height_tag_lt (sorted : Assoc.Sorted tags) {tag : String × WireValue}
    (member : tag ∈ tags) :
    height (ordered (serialize tag.2)) < height (ordered (.object (serializeTags tags))) := by
  rw [ordered_tags sorted]
  exact height_lt_of_mem_fields (List.mem_map_of_mem member)

/-- A field of a document has fewer levels than the document. -/
theorem height_field_lt {name : String} {doc : Doc} (distinct : (fields.map Prod.fst).Nodup)
    (member : (name, doc) ∈ fields) :
    height (ordered doc) < height (ordered (.object fields)) := by
  rw [← keys_orderedFields] at distinct
  have listed : (name, ordered doc) ∈ orderedFields fields := by
    rw [orderedFields_eq]
    exact List.mem_map_of_mem member
  exact height_lt_of_mem_fields ((Assoc.mem_ofList distinct).mpr listed)

section Containers

variable {levels : Nat}

theorem ReadableTags.asTags_eq_ok (readable : ReadableTags tags)
    (enough : height (ordered (.object (serializeTags tags))) ≤ levels) :
    asTags (deserializeAt levels true)
      (some (ordered (.object (serializeTags tags)))) = .ok tags :=
  asTags_serializeTags readable.sorted fun tag member =>
    readable.each tag member levels true
      (Nat.le_of_lt (lt_of_lt_of_le (height_tag_lt readable.sorted member) enough))

theorem readable_list {items : List WireValue} (each : ∀ item ∈ items, Readable item) :
    Readable (.list items) := by
  intro levels nested enough
  rw [serialize] at enough ⊢
  have below := (height_field_lt (by simp) (.tail _ (.head _))).trans_le enough
  obtain ⟨levels, rfl⟩ := Nat.exists_eq_succ_of_ne_zero (Nat.ne_zero_of_lt below)
  rw [deserializeAt_tagged _ _ (by decide) rfl (by decide)]
  have docs : orderedItems (serializeItems items) =
      items.map fun item => ordered (serialize item) := by
    rw [orderedItems_eq, serializeItems_eq, List.map_map]
    rfl
  have read : (items.map fun item => ordered (serialize item)).mapM
      (deserializeAt levels true) = .ok items := by
    refine mapM_map_eq_ok fun item member => each item member levels true ?_
    have inside : height (ordered (serialize item)) <
        height (ordered (.array (serializeItems items))) := by
      rw [ordered, docs]
      exact height_lt_of_mem_items (List.mem_map_of_mem member)
    omega
  simp only [orderedFields, Assoc.ofList, List.foldl_cons, List.foldl_nil,
    Assoc.lookup_insert, if_true, variant, ordered, asArray, docs, read]
  rfl

theorem readable_dict (readable : ReadableTags tags) : Readable (.dict tags) := by
  intro levels nested enough
  rw [serialize] at enough ⊢
  have below := (height_field_lt (by simp) (.tail _ (.head _))).trans_le enough
  obtain ⟨_, rfl⟩ := Nat.exists_eq_succ_of_ne_zero (Nat.ne_zero_of_lt below)
  rw [deserializeAt_tagged _ _ (by decide) rfl (by decide)]
  simp only [orderedFields, Assoc.ofList, List.foldl_cons, List.foldl_nil,
    Assoc.lookup_insert, if_true, variant,
    readable.asTags_eq_ok (Nat.le_of_lt_succ below)]
  rfl

theorem readable_grid {gridMeta : List (String × WireValue)}
    {cols : List (String × List (String × WireValue))} {rows : List (List (String × WireValue))}
    (readableMeta : ReadableTags gridMeta) (readableCols : ∀ col ∈ cols, ReadableTags col.2)
    (readableRows : ∀ row ∈ rows, ReadableTags row) : Readable (.grid gridMeta cols rows) := by
  intro levels nested enough
  rw [serialize] at enough ⊢
  have metaBelow := (height_field_lt (by simp) (.tail _ (.head _))).trans_le enough
  have colsBelow := (height_field_lt (by simp) (.tail _ (.tail _ (.head _)))).trans_le enough
  have rowsBelow :=
    (height_field_lt (by simp) (.tail _ (.tail _ (.tail _ (.head _))))).trans_le enough
  obtain ⟨levels, rfl⟩ := Nat.exists_eq_succ_of_ne_zero (Nat.ne_zero_of_lt metaBelow)
  have colDocs : orderedItems (serializeColumns cols) =
      cols.map fun col => ordered (columnDoc col) := by
    rw [orderedItems_eq, serializeColumns_eq, List.map_map]
    rfl
  have rowDocs : orderedItems (serializeRows rows) =
      rows.map fun row => ordered (.object (serializeTags row)) := by
    rw [orderedItems_eq, serializeRows_eq, List.map_map]
    rfl
  have colsRead : (cols.map fun col => ordered (columnDoc col)).mapM
      (asColumn (deserializeAt levels true)) = .ok cols := by
    refine mapM_map_eq_ok fun col listed => ?_
    have inside : height (ordered (columnDoc col)) <
        height (ordered (.array (serializeColumns cols))) := by
      rw [ordered, colDocs]
      exact height_lt_of_mem_items (List.mem_map_of_mem listed)
    have tagsInside : _ < height (ordered (columnDoc col)) :=
      height_field_lt (by simp) (.tail _ (.head _))
    refine asColumn_columnDoc (readableCols col listed).sorted fun tag member => ?_
    have tagInside := height_tag_lt (readableCols col listed).sorted member
    exact (readableCols col listed).each tag member levels true (by omega)
  have rowsRead : (rows.map fun row => ordered (.object (serializeTags row))).mapM
      (fun row => asTags (deserializeAt levels true) (some row)) = .ok rows := by
    refine mapM_map_eq_ok fun row listed => ?_
    have inside : height (ordered (.object (serializeTags row))) <
        height (ordered (.array (serializeRows rows))) := by
      rw [ordered, rowDocs]
      exact height_lt_of_mem_items (List.mem_map_of_mem listed)
    exact (readableRows row listed).asTags_eq_ok (by omega)
  rw [deserializeAt_tagged _ _ (by decide) rfl (by decide)]
  simp only [orderedFields, Assoc.ofList, List.foldl_cons, List.foldl_nil,
    Assoc.lookup_insert, String.reduceEq, if_true, if_false, variant,
    readableMeta.asTags_eq_ok (Nat.le_of_lt_succ metaBelow), ordered_array, asArray,
    colDocs, rowDocs, colsRead, rowsRead]
  rfl

end Containers

/-- The tree of tags is readable when the trees of the values are. -/
theorem readableTags_of_toTags {depth : Nat} {tags : List (String × Kind)}
    {wires : List (String × WireValue)} (sorted : Assoc.Sorted tags)
    (built : toTags formats depth tags = .ok wires)
    (each : ∀ entry ∈ tags, ∀ wire,
      toWire formats (depth + 1) entry.2 = .ok wire → Readable wire) :
    ReadableTags wires := by
  rw [toTags_eq] at built
  refine ⟨(Assoc.sorted_congr_keys (keys_of_mapM_onValue built)).mpr sorted, ?_⟩
  intro tag member
  obtain ⟨entry, listed, same⟩ := exists_of_mem_right (mapM_eq_ok.mp built) member
  exact each entry listed tag.2 (onValue_eq_ok.mp same).1

/-- The tree of a value is deserialized. -/
theorem readable_of_toWire (form : value.WellFormed) : ∀ {depth : Nat} {wire : WireValue},
      toWire formats depth value = .ok wire → Readable wire := by
  induction value using Kind.nestingInduction with
  | step value ih =>
    intro depth wire built
    have inside : ∀ {tag : Option String} {inner : Kind},
        Kind.Contains value tag inner → ∀ depth wire,
        toWire formats depth inner = .ok wire → Readable wire :=
      fun contains _ _ built =>
        ih _ _ contains (form.inside contains) built
    rcases toWire_cases built with ⟨items, wires, rfl, rfl, parts⟩ |
      ⟨tags, wires, rfl, rfl, parts⟩ |
      ⟨gridMeta, cols, rows, metaWires, colWires, rowWires, rfl, rfl, distinct,
        metaParts, colParts, rowParts⟩ | ⟨scalar, rfl⟩
    · rw [toItems_eq] at parts
      refine readable_list fun item member => ?_
      obtain ⟨value, listed, same⟩ := exists_of_mem_right (mapM_eq_ok.mp parts) member
      exact inside (.item listed) (depth + 1) item same
    · exact readable_dict (readableTags_of_toTags form.self parts
        fun entry member => inside (.entry member) (depth + 1))
    · obtain ⟨metaSorted, colsSorted, rowsSorted⟩ := form.self
      rw [toColumns_eq] at colParts
      rw [toRows_eq] at rowParts
      refine readable_grid (readableTags_of_toTags metaSorted metaParts
        fun entry member => inside (.gridMeta member) (depth + 2)) ?_ ?_
      · intro colWire member
        obtain ⟨col, listed, same⟩ := exists_of_mem_right (mapM_eq_ok.mp colParts) member
        exact readableTags_of_toTags (colsSorted col listed)
          (onValue_eq_ok.mp same).1 fun entry member =>
            inside (.column listed member) (depth + 2)
      · intro rowWire member
        obtain ⟨row, listed, same⟩ := exists_of_mem_right (mapM_eq_ok.mp rowParts) member
        exact readableTags_of_toTags (rowsSorted row listed) same
          fun entry member => inside (.row listed member) (depth + 2)
    · intro levels nested enough
      have positive : 0 < height (ordered (serialize (scalarWire formats value))) := by
        cases value <;> exact Nat.succ_pos _
      obtain ⟨levels, rfl⟩ := Nat.exists_eq_succ_of_ne_zero
        (Nat.ne_zero_of_lt (lt_of_lt_of_le positive enough))
      exact deserializeAt_scalarWire form.self scalar levels nested

/-! ## The codec -/

theorem version_envelope (wire : WireValue) : version (ordered (envelope wire)) = some 1 := by
  have written : ordered (intDoc 1) = .number (.unsigned 1) := rfl
  simp [envelope, ordered, orderedFields, Assoc.ofList, version, Assoc.lookup_insert, written]

theorem deserializeEnvelope_envelope {wire : WireValue} (readable : Readable wire) :
    deserializeEnvelope (ordered (envelope wire)) = .ok wire := by
  have one : asU32 (some (ordered (intDoc 1))) = .ok 1 := asU32_intDoc (by decide)
  have read : deserialize (ordered (serialize wire)) = .ok wire := readable _ false le_rfl
  have names : [("version", intDoc 1), ("value", serialize wire)].map Prod.fst =
      ["version", "value"] := rfl
  rw [envelope, ordered, deserializeEnvelope, structFields_ordered names]
  simp [bind, Except.bind, orderedFields, Assoc.ofList, Assoc.lookup_insert, one, read]

/-- What is decoded of the bytes of an encoded value is the value. -/
theorem decode_encode {reader : JsonReader} {bytes : List UInt8} (form : value.WellFormed)
    (encoded : encode formats reader value = .ok bytes) :
    decode formats reader bytes = .ok value := by
  rw [encode] at encoded
  split at encoded
  · cases encoded
  · obtain ⟨_, built, encoded⟩ := except_bind_eq_ok.mp encoded
    obtain ⟨_, read, same⟩ := except_bind_eq_ok.mp encoded
    cases same
    rw [decode, decodeWithLimits, read]
    cases boundedJson_docBytes read
    simp [bind, Except.bind, version_envelope, deserializeEnvelope_envelope (readable_of_toWire
      form built), fromWire_toWire form built]

/-- A value fits the budget, and its document the limits. -/
def encodable (formats : Formats) (value : Kind) : Bool :=
  ((Graph.ValueBudget.new 4000000 (32 * 1024 * 1024) 64).value 0 value).isSome &&
    match toWire formats 0 value with
    | .error _ => false
    | .ok wire =>
      decide ((docBytes (envelope wire)).length ≤ PayloadLimits.default.maxBytes) &&
        (bounded .default 0 0 (raw (envelope wire))).isOk

/-- Whether a value is encoded does not depend on how its document is read. -/
theorem exists_encode (accepted : encodable formats value = true) (reader : JsonReader) :
    ∃ bytes, encode formats reader value = .ok bytes := by
  obtain ⟨charged, accepted⟩ := Bool.and_eq_true_iff.mp accepted
  obtain ⟨_, charged⟩ := Option.isSome_iff_exists.mp charged
  split at accepted
  · cases accepted
  · next wire built =>
    obtain ⟨short, within⟩ := Bool.and_eq_true_iff.mp accepted
    have valid : ¬(PayloadLimits.default.maxBytes = 0 ∨
        PayloadLimits.default.maxNodes = 0 ∨ PayloadLimits.default.maxDepth = 0 ∨
          PayloadLimits.default.maxDepth > 64) := by
      decide
    have fits : ¬(docBytes (envelope wire)).length > PayloadLimits.default.maxBytes :=
      Nat.not_lt.mpr (of_decide_eq_true short)
    cases read : bounded .default 0 0 (raw (envelope wire)) with
    | error =>
      rw [read] at within
      cases within
    | ok =>
      exact ⟨docBytes (envelope wire), by
        simp [encode, charged, built, boundedJson, if_neg valid, if_neg fits,
          reader.read_docBytes, read, bind, Except.bind, Except.map]⟩

/-- Typed payloads are exact: what is decoded of the bytes of an encoded value is
the value itself; encoding what was decoded gives the same bytes; and two values
with the same bytes are the same value. -/
theorem typed_payload_exact (formats : Formats) (reader : JsonReader) (value : Kind)
    (bytes : List UInt8) (form : value.WellFormed)
    (encoded : encode formats reader value = .ok bytes) :
    decode formats reader bytes = .ok value ∧
      (∀ result, decode formats reader bytes = .ok result →
        encode formats reader result = .ok bytes) ∧
      ∀ other : Kind, other.WellFormed →
        encode formats reader other = .ok bytes → other = value := by
  have decoded := decode_encode form encoded
  refine ⟨decoded, ?_, ?_⟩
  · intro result read
    rw [decoded] at read
    cases read
    exact encoded
  · intro other otherForm otherEncoded
    have read := decode_encode otherForm otherEncoded
    rw [decoded] at read
    exact (Except.ok.inj read).symm

/-- A NaN with a payload and a leap second. -/
def exactSample : Kind := .list [.float ⟨0x7ff8000000000001⟩, .time ⟨86399, 1500000000⟩]

theorem exactSample_wellFormed : exactSample.WellFormed := by
  refine Kind.everywhere_of_contains trivial fun tag inner contains => ?_
  cases contains with
  | item member =>
    simp only [List.mem_cons, List.not_mem_nil, or_false] at member
    rcases member with rfl | rfl
    · exact Kind.everywhere_of_isScalar rfl trivial
    · exact Kind.everywhere_of_isScalar rfl ⟨by decide, by decide⟩

theorem typed_payload_exact_sample :
    ∃ bytes, encode Formats.plain .plain exactSample = .ok bytes ∧
      decode Formats.plain .plain bytes = .ok exactSample := by
  have accepted : encodable Formats.plain exactSample = true := by decide +kernel
  obtain ⟨bytes, encoded⟩ := exists_encode accepted .plain
  exact ⟨bytes, encoded, (typed_payload_exact _ _ _ _ exactSample_wellFormed encoded).1⟩

end Typed
end Codecs
end Haystack
