import Haystack.Codecs.JsonLayout
import Haystack.Codecs.JsonV4
import Haystack.PlainFormats

/-!
# JSON v4 is exact

A JSON value that encodes a value decodes to that value or to an error.  Scalars
are read from the fields they are written to; dictionaries, lists and grids are
read entry by entry.
-/

namespace Haystack
namespace Codecs
namespace JsonV4

open Collections

variable {formats : Formats}

/-! ## Scalars -/

/-- What the codec decodes: no tag is the discriminator, and dates and datetimes
have a calendar text. -/
def Decodable : Kind → Prop
  | .date day => day.hasShortYear = true
  | .dateTime value => value.dt.h4Representable = true
  | .dict tags => "_kind" ∉ tags.map Prod.fst
  | .grid _ cols rows =>
    (∀ col ∈ cols, "_kind" ∉ col.2.map Prod.fst) ∧ ∀ row ∈ rows, "_kind" ∉ row.map Prod.fst
  | _ => True

/-- Both coordinates are numbers. -/
def FiniteCoord : Kind → Prop
  | .coord c => c.lat.isFinite = true ∧ c.lng.isFinite = true
  | _ => True

/-- The scalar that is read back: a value that is not a number becomes the
canonical one, a time the one its digits stand for, and a missing time zone is
UTC. -/
def settled : Kind → Kind
  | .number n => .number { n with val := if n.val.isNaN then .nan else n.val }
  | .time clock => .time clock.normalized
  | .dateTime value =>
    .dateTime { value with
      tzName := if value.tzName.isEmpty then "UTC" else value.tzName }
  | value => value

/-- What the codec represents exactly: what it decodes, without a discriminator in
the meta of a grid, with canonical values, calendar times and time zones. -/
def Representable : Kind → Prop
  | .number n => n.val.isNaN = true → n.val = .nan
  | .time clock => clock.isCalendar = true
  | .dateTime value => value.dt.h4Representable = true ∧ value.tzName ≠ ""
  | .grid gridMeta cols rows =>
    "_kind" ∉ gridMeta.map Prod.fst ∧ Decodable (.grid gridMeta cols rows)
  | value => Decodable value

variable {value : Kind}

theorem Representable.decodable (own : Representable value) : Decodable value := by
  cases value with
  | dateTime => exact own.1
  | grid => exact own.2
  | number n | time clock => trivial
  | _ => exact own

theorem Representable.settled_eq (own : Representable value) : settled value = value := by
  cases value with
  | number n =>
    by_cases notNumber : n.val.isNaN = true
    · simp [settled, ← own notNumber]
    · simp [settled, if_neg notNumber]
  | time => exact congrArg _ (NaiveTime.normalized_of_isCalendar own)
  | dateTime value =>
    have named : value.tzName.isEmpty = false := by simpa using own.2
    simp [settled, named]
  | _ => rfl

section Fields

variable (formats)

theorem numberVal_encodeNumber (x : F64) : numberVal formats (some (if x.isInfinite then
        if x.isNegative then .string "-INF" else .string "INF"
      else if x.isNaN then .string "NaN"
      else jsonNumber formats x)) = .ok (if x.isNaN then .nan else x) := by
  by_cases infinite : x.isInfinite = true
  · rw [F64.eq_of_isInfinite infinite]
    cases sign : x.isNegative <;> rfl
  · rw [if_neg infinite]
    by_cases notNumber : x.isNaN = true
    · rw [if_pos notNumber, if_pos notNumber]
      rfl
    · rw [if_neg notNumber, if_neg notNumber]
      have finite : x.isFinite = true := by
        rcases x.finite_or_infinite_or_nan with finite | other | other
        · exact finite
        · exact absurd other infinite
        · exact absurd other notNumber
      simp [jsonNumber, finite, numberVal, JsonNumber.asF64]

/-- The discriminator of a typed object selects its decoder. -/
theorem decodeObject_kindObj (child : Json → Except CodecError Kind) (kindName : String)
    (fields : List (String × Json)) (plain : "_kind" ∉ fields.map Prod.fst) :
    decodeObject formats child (Assoc.ofList (("_kind", .string kindName) :: fields)) =
      decodeTyped formats child (Assoc.ofList (("_kind", .string kindName) :: fields))
        kindName := by
  rw [decodeObject, Assoc.ofList, List.foldl_cons, Assoc.lookup_foldl_insert _ plain,
    Assoc.lookup_insert]
  simp

end Fields

variable {fields : List (String × Json)} (child : Json → Except CodecError Kind)

theorem decodeObject_encodeNumber {n : Number}
    (encoded : encodeNumber formats n = .object fields) :
    decodeObject formats child fields = .ok (settled (.number n)) := by
  obtain ⟨val, unit⟩ := n
  have read := numberVal_encodeNumber formats val
  obtain rfl := Json.object.inj encoded
  rw [decodeObject_kindObj]
  · cases unit <;>
    · simp only [decodeTyped, decodeNumber, Assoc.ofList, List.foldl_cons, List.foldl_nil,
        Assoc.lookup_insert, String.reduceEq, if_true, if_false, read]
      rfl
  · cases unit <;> simp

theorem decodeObject_encodeRef {r : HRef} (encoded : encodeRef r = .object fields) :
    decodeObject formats child fields = .ok (.ref r) := by
  obtain ⟨_, dis⟩ := r
  obtain rfl := Json.object.inj encoded
  rw [decodeObject_kindObj]
  · cases dis <;>
    · simp only [Assoc.ofList, List.foldl_cons]
      rfl
  · cases dis <;> simp

theorem decodeObject_encodeDatetime {value : HDateTime}
    (valid : value.dt.Valid) (exact : value.dt.h4Representable = true)
    (encoded : encodeDatetime formats value = .object fields) :
    decodeObject formats child fields = .ok (settled (.dateTime value)) := by
  have short : value.dt.localDate.hasShortYear = true := by
    simp only [DateTime.h4Representable, Bool.and_eq_true] at exact
    exact exact.1.2
  have read : parseDatetime formats (formats.dateTime value.dt) = some value.dt := by
    rw [parseDatetime, Formats.dateTime,
      formats.parseDateTime_text .rfc3339 _ valid exact (by decide)]
    rfl
  obtain rfl := Json.object.inj encoded
  cases named : value.tzName.isEmpty <;>
  · rw [decodeObject_kindObj _ _ _ _ (by simp)]
    simp [decodeTyped, decodeDatetime, getStr, Assoc.ofList, Assoc.lookup_insert, named, bind,
      Except.bind, settled, rejectLowercaseTSeparator_dateTime formats short, readText, read]

/-- A typed scalar is read from the fields it is written to. -/
theorem decodeObject_encodeScalar (own : Decodable value)
    (form : value.OwnForm) (finite : FiniteCoord value)
    (encoded : encodeScalar formats value = .ok (.object fields)) :
    decodeObject formats child fields = .ok (settled value) := by
  cases value with
  | marker | na | remove =>
    cases encoded
    rfl
  | number => exact decodeObject_encodeNumber child (Except.ok.inj encoded)
  | ref => exact decodeObject_encodeRef child (Except.ok.inj encoded)
  | dateTime =>
    exact decodeObject_encodeDatetime child form own (Except.ok.inj encoded)
  | uri text | symbol text | xstr x =>
    cases encoded
    simp only [Assoc.ofList, List.foldl_cons]
    rfl
  | date day =>
    cases encoded
    rw [decodeObject_kindObj _ _ _ _ (by simp)]
    simp only [decodeTyped, getStr, Assoc.ofList, List.foldl_cons,
      List.foldl_nil, Assoc.lookup_insert, if_true, bind, Except.bind,
      readText, String.toList_ofList, formats.parseYmd_ymd day own]
    rfl
  | time clock =>
    cases encoded
    have read : parseTime formats (formatTime clock) = some clock.normalized := by
      rw [parseTime, formats.parseTime_formatTime clock form]
      rfl
    rw [decodeObject_kindObj _ _ _ _ (by simp)]
    simp only [decodeTyped, getStr, Assoc.ofList, List.foldl_cons,
      List.foldl_nil, Assoc.lookup_insert, if_true, bind, Except.bind,
      readText, String.toList_ofList, read]
    rfl
  | coord =>
    cases encoded
    simp only [jsonNumber, finite.1, finite.2, Assoc.ofList, List.foldl_cons]
    rfl
  | null | bool value | str text => cases encoded
  | none | int value | float value | buf bytes | nominal value | list items
  | dict tags | grid gridMeta cols rows => cases encoded

variable {result : Kind}

/-- The text of a coordinate that is no number is not read. -/
theorem finiteCoord_of_decodeObject {child : Json → Except CodecError Kind}
    (encoded : encodeScalar formats value = .ok (.object fields))
    (decoded : decodeObject formats child fields = .ok result) : FiniteCoord value := by
  cases value with
  | coord c =>
    cases encoded
    rw [decodeObject_kindObj _ _ _ _ (by simp)] at decoded
    simp only [decodeTyped, decodeCoord, getF64, Assoc.ofList, List.foldl_cons, List.foldl_nil,
      Assoc.lookup_insert, jsonNumber] at decoded
    by_cases lat : c.lat.isFinite = true
    · by_cases lng : c.lng.isFinite = true
      · exact ⟨lat, lng⟩
      · simp [lat, lng, bind, Except.bind] at decoded
    · simp [lat, bind, Except.bind] at decoded
  | _ => trivial

variable {json : Json}

/-- What is read back of an encoded scalar is the scalar. -/
theorem eq_of_decodeKindAt_scalar {room : Nat} (own : Representable value)
    (form : value.OwnForm) (encoded : encodeScalar formats value = .ok json)
    (decoded : (layout formats).decodeKindAt room json = .ok result) : result = value := by
  cases json with
  | object =>
    obtain ⟨inner, -, object⟩ := Layout.decodeKindAt_object.mp decoded
    have finite := finiteCoord_of_decodeObject encoded object
    have read := decodeObject_encodeScalar
      ((layout formats).decodeKindAt inner) own.decodable form finite encoded
    rw [own.settled_eq] at read
    exact Except.ok.inj (object.symm.trans read)
  | null | bool flag | string text | number n | array arr =>
    cases room with
    | zero => cases decoded
    | succ =>
      cases value <;> cases encoded
      all_goals
        cases decoded
        rfl

/-! ## Dictionaries and grids -/

section Containers

variable {child : Json → Except CodecError Kind} {fields : List (String × Json)}

/-- A dictionary without a discriminator is decoded entry by entry. -/
theorem decodeObject_encodeDict {tags : List (String × Kind)} (own : Decodable (.dict tags))
    (encoded : (layout formats).encodeDict tags = .ok fields) :
    decodeObject formats child fields = (decodeEntries child fields).map .dict := by
  have plain : Assoc.lookup "_kind" fields = none :=
    Assoc.lookup_eq_none (Layout.keys_encodeDict encoded ▸ own)
  rw [decodeObject, plain]

theorem lookup_gridFields
    (key : String) (gridMeta : List (String × Json)) (cols rows : List Json) :
    Assoc.lookup key (gridFields gridMeta cols rows) =
      if key = "rows" then some (.array rows)
      else if key = "cols" then some (.array cols)
      else if key = "meta" ∧ gridMeta ≠ [] then some (.ofFields gridMeta)
      else if key = "_kind" then some (.string "grid")
      else none := by
  cases gridMeta <;>
    simp [gridFields, Assoc.ofList, Assoc.lookup_insert, eq_comm]

/-- An encoded grid is decoded from its parts, without a discriminator in its
meta. -/
theorem gridParts {gridMeta : List (String × Json)} (sorted : Assoc.Sorted gridMeta)
    (cols rows : List Json) :
    Layout.GridParts "_kind" (gridFields gridMeta cols rows)
      (gridMeta.filter fun field => field.1 ≠ "_kind") cols rows where
  cols := by simp [lookup_gridFields]
  rows := by simp [lookup_gridFields]
  gridMeta := by
    intro child
    rw [lookup_gridFields]
    by_cases empty : gridMeta = []
    · subst empty
      rfl
    · simp [empty, Json.ofFields, decodeGridMeta, Assoc.ofList_of_sorted sorted]

theorem decodeObject_gridFields (gridMeta : List (String × Json)) (cols rows : List Json) :
    decodeObject formats child (gridFields gridMeta cols rows) =
      (decodeGridAt child (.object (gridFields gridMeta cols rows))).map HGrid.kind := by
  rw [decodeObject, lookup_gridFields]
  rfl

/-- The name of a column, and where its meta is. -/
theorem decodeColumn_columnObj {name : String} {colMeta : List (String × Json)}
    (sorted : Assoc.Sorted colMeta) :
    decodeColumn child (columnObj name colMeta) =
      (decodeEntries child colMeta).map fun colMeta => (name, colMeta) := by
  cases colMeta with
  | nil =>
    simp only [columnObj, Json.ofFields, Assoc.ofList, List.foldl_cons]
    rfl
  | cons field rest =>
    have kept := Assoc.ofList_of_sorted sorted
    simp only [columnObj, Json.ofFields, decodeColumn, List.isEmpty_cons, Bool.false_eq_true,
      kept]
    simp only [Assoc.ofList, List.foldl_cons, List.foldl_nil, Assoc.lookup_insert, if_false,
      if_true, decodeColMeta]
    cases decodeEntries child (field :: rest) <;> rfl

end Containers

theorem containers (formats : Formats) :
    (layout formats).Containers Decodable "_kind" decodeColumn where
  dict _ _ _ own encoded := decodeObject_encodeDict own encoded
  column _ _ _ _ _ _ sorted _ := decodeColumn_columnObj sorted
  parts cols rows sorted := gridParts sorted cols rows
  grid _ := decodeObject_gridFields

/-- The codec reads back what it represents. -/
theorem exact (formats : Formats) : (layout formats).Exact Representable :=
  (containers formats).exact Representable.decodable (fun own => own.symm)
    eq_of_decodeKindAt_scalar

/-- What the codec decodes again: coordinates have to be numbers. -/
def Accepted (value : Kind) : Prop := Decodable value ∧ FiniteCoord value

/-- A typed scalar is an object, which takes two levels. -/
def scalarLevels : Kind → Nat
  | .null | .bool _ | .str _ => 1
  | _ => 2

/-- The codec accepts what it encodes, given the levels it takes. -/
theorem accepting (formats : Formats) : (layout formats).Accepting Accepted scalarLevels := by
  refine (containers formats).accepting (fun own => own.1) ?_ ?_
  · intro value json room own form encoded enough
    cases value with
    | null | bool flag | str text =>
      cases encoded
      obtain ⟨left, rfl⟩ := Nat.exists_eq_add_of_le' enough
      exact ⟨_, rfl⟩
    | _ =>
      obtain ⟨left, rfl⟩ := Nat.exists_eq_add_of_le' enough
      cases json with
      | object =>
        exact ⟨_, Layout.decodeKindAt_object.mpr ⟨left, rfl,
          decodeObject_encodeScalar _ own.1 form own.2 encoded⟩⟩
      | _ => cases encoded
  · intro value json encoded
    cases value with
    | list items | dict tags | grid gridMeta cols rows => cases encoded
    | _ => rfl

/-! ## Fidelity -/

end JsonV4
end Codecs
end Haystack
