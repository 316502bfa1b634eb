import Haystack.Codecs.JsonLayout
import Haystack.Codecs.JsonV3
import Haystack.PlainFormats

/-!
# JSON v3 reads what it writes

The parts of a prefixed string are separated by characters that do not occur in
its first part, so every encoded scalar is read, and as itself if its parts are.  The version of a grid and the
name of a column are fields beside their meta, and are found again.
-/

namespace Haystack
namespace Codecs
namespace JsonV3

open Collections

variable {formats : Formats}

/-! ## Scalars -/

/-- What the codec decodes: dates and datetimes have a calendar text, time zones
are named by the characters that are read, no dictionary looks like a grid, and no
column has a `name` in its meta. -/
def Decodable : Kind → Prop
  | .date day => day.hasShortYear = true
  | .dateTime value =>
    value.dt.h4Representable = true ∧ value.tzName.toList.all isTzChar = true
  | .dict tags => ¬ ("meta" ∈ tags.map Prod.fst ∧ "cols" ∈ tags.map Prod.fst)
  | .grid _ cols _ => ∀ col ∈ cols, "name" ∉ col.2.map Prod.fst
  | _ => True

variable (formats) in
/-- What the codec represents exactly: canonical values, calendar times, references
without a space, types without a colon, and grids without a version in their meta.
A date is read as itself if it is read. -/
def Representable : Kind → Prop
  | .number n => (n.val.isNaN = true → n.val = .nan) ∧ n.unit ≠ some ""
  | .ref r => ' ' ∉ r.val.toList
  | .date day => ∀ result, formats.parseYmd (formats.ymd day) = some result → result = day
  | .time clock => clock.isCalendar = true
  | .dateTime value => Decodable (.dateTime value) ∧ value.tzName ≠ ""
  | .coord c => (c.lat.isNaN = true → c.lat = .nan) ∧ (c.lng.isNaN = true → c.lng = .nan)
  | .xstr x => ':' ∉ x.typeName.toList
  | .grid gridMeta cols rows =>
    "ver" ∉ gridMeta.map Prod.fst ∧ Decodable (.grid gridMeta cols rows)
  | value => Decodable value

theorem canonical_eq {x : F64} (canonical : x.isNaN = true → x = .nan) :
    (if x.isNaN then .nan else x) = x := by
  split
  · rename_i notNumber
    exact (canonical notNumber).symm
  · rfl

section Words

variable {word : List Char}

/-- A text of one word and what follows it are split at the space. -/
theorem splitSpace_append (rest : List Char) (whole : ' ' ∉ word) :
    splitSpace (word ++ ' ' :: rest) = (word, some rest) := by
  rw [splitSpace, splitOnce_singleton rest whole]

theorem splitSpace_word (whole : ' ' ∉ word) : splitSpace word = (word, none) := by
  rw [splitSpace, splitOnce_eq_none whole]

variable (formats)

/-- A printed number is read, as itself or as the canonical value that is none. -/
theorem parseNumber_formatNumberVal (x : F64) :
    parseNumber formats (formats.formatNumberVal x) = some (if x.isNaN then .nan else x) := by
  rcases x.finite_or_infinite_or_nan with finite | infinite | notNumber
  · obtain ⟨plain⟩ := formats.plainDigits x finite
    have noLetter : 'N' ∉ formats.digits x := plain.not_mem (by decide)
    rw [formats.formatNumberVal_of_isFinite finite, F64.isNaN_of_isFinite finite]
    unfold parseNumber
    split
    · next same => simp [same] at noLetter
    · next same => simp [same] at noLetter
    · next same => simp [same] at noLetter
    · exact formats.parseFloat_digits x finite
  · have same := F64.eq_of_isInfinite infinite
    rw [Formats.formatNumberVal, if_pos infinite, F64.isNaN_of_isInfinite infinite]
    cases sign : x.isNegative with
    | false | true =>
      rw [sign] at same
      exact congrArg some same.symm
  · have notInfinite : x.isInfinite = false := by
      rw [Bool.eq_false_iff]
      intro infinite
      simp [F64.isNaN_of_isInfinite infinite] at notNumber
    rw [Formats.formatNumberVal, notInfinite, if_pos notNumber, if_pos notNumber]
    rfl

/-- A printed number is one word. -/
theorem space_not_mem_formatNumberVal (x : F64) : ' ' ∉ formats.formatNumberVal x := by
  rcases x.finite_or_infinite_or_nan with finite | infinite | notNumber
  · obtain ⟨plain⟩ := formats.plainDigits x finite
    rw [formats.formatNumberVal_of_isFinite finite]
    exact plain.not_mem (by decide)
  · rw [Formats.formatNumberVal, if_pos infinite]
    cases x.isNegative <;> simp
  · rw [Formats.formatNumberVal, if_pos notNumber]
    cases x.isInfinite <;> cases x.isNegative <;> simp

/-- A printed datetime is one word. -/
theorem space_not_mem_dateTime {value : DateTime} (short : value.localDate.hasShortYear = true) :
    ' ' ∉ formats.dateTime value := by
  intro member
  have char := List.all_eq_true.mp (formats.all_dateTime short) _ member
  revert char
  decide

end Words

variable {json : Json}

/-- What follows the word of a number is its unit. -/
theorem decodeNumberStr_eq {text : List Char} {x : F64} {unit : Option (List Char)}
    (split : splitSpace text = (formats.formatNumberVal x, unit)) :
    decodeNumberStr formats text = .ok (.number ⟨if x.isNaN then .nan else x,
      (unit.filter (· ≠ [])).map String.ofList⟩) := by
  simp only [decodeNumberStr, split, readText, parseNumber_formatNumberVal formats x]
  rcases unit with _ | _ | ⟨c, rest⟩ <;> rfl

theorem exists_decodeNumberStr {n : Number} (encoded : encodeNumber formats n = json) :
    ∃ text result, json = prefixed 'n' text ∧ decodeNumberStr formats text = .ok result ∧
      (Representable formats (.number n) → result = .number n) := by
  obtain ⟨val, unit⟩ := n
  have word := space_not_mem_formatNumberVal formats val
  cases unit with
  | none =>
    refine ⟨_, _, encoded.symm, decodeNumberStr_eq (splitSpace_word word), fun own => ?_⟩
    simp [canonical_eq own.1]
  | some unit =>
    refine ⟨_, _, encoded.symm, decodeNumberStr_eq (splitSpace_append unit.toList word),
      fun own => ?_⟩
    have named : unit ≠ "" := fun empty => own.2 (congrArg some empty)
    simp [canonical_eq own.1, named]

/-- A name of the characters that are read has no white space to remove. -/
theorem trim_tzName {name : List Char} (named : name.all isTzChar = true) : trim name = name := by
  have each := List.all_eq_true.mp named
  apply trim_eq_self
  · exact fun c first =>
      isWhitespace_of_isTzChar (each c (List.mem_of_head? first))
  · exact fun c last =>
      isWhitespace_of_isTzChar (each c (List.mem_of_getLast? last))

/-- What follows the word of a datetime is its time zone. -/
theorem decodeDatetimeStr_eq {dt : DateTime} {name text : List Char} (valid : dt.Valid)
    (exact : dt.h4Representable = true) (named : name.all isTzChar = true)
    (split : splitDatetimeTz text = (formats.dateTime dt, name)) :
    decodeDatetimeStr formats text = .ok (.dateTime
      ⟨dt, if name.isEmpty then "UTC" else String.ofList name⟩) := by
  have short : dt.localDate.hasShortYear = true := by
    simp only [DateTime.h4Representable, Bool.and_eq_true] at exact
    exact exact.1.2
  have read : parseDatetime formats (formats.dateTime dt) = some dt := by
    rw [parseDatetime, Formats.dateTime,
      formats.parseDateTime_text .rfc3339 _ valid exact (by decide)]
    rfl
  simp [decodeDatetimeStr, split, rejectLowercaseTSeparator_dateTime formats short, readText,
    read, bind, Except.bind, named]

theorem exists_decodeDatetimeStr {value : HDateTime} (valid : value.dt.Valid)
    (own : Decodable (.dateTime value)) (encoded : encodeDatetime formats value = json) :
    ∃ text result, json = prefixed 't' text ∧ decodeDatetimeStr formats text = .ok result ∧
      (value.tzName ≠ "" → result = .dateTime value) := by
  obtain ⟨exact, named⟩ := own
  have short : value.dt.localDate.hasShortYear = true := by
    simp only [DateTime.h4Representable, Bool.and_eq_true] at exact
    exact exact.1.2
  have word := space_not_mem_dateTime formats short
  rw [encodeDatetime] at encoded
  split at encoded
  · rename_i unnamed
    have alone : splitDatetimeTz (formats.dateTime value.dt) =
        (formats.dateTime value.dt, []) := by
      rw [splitDatetimeTz, splitSpace_word word]
      rfl
    exact ⟨_, _, encoded.symm, decodeDatetimeStr_eq valid exact rfl alone,
      fun named => absurd (String.isEmpty_iff.mp unnamed) named⟩
  · refine ⟨_, _, encoded.symm, decodeDatetimeStr_eq valid exact named ?_, fun nonempty => ?_⟩
    · rw [splitDatetimeTz, splitSpace_append _ word]
      exact congrArg _ (trim_tzName named)
    · simp [nonempty]

theorem decodeCoordStr_display (lat lng : F64) :
    decodeCoordStr formats (formats.display lat ++ ',' :: formats.display lng) =
      .ok (.coord ⟨if lat.isNaN then .nan else lat, if lng.isNaN then .nan else lng⟩) := by
  rw [decodeCoordStr, splitOnce_singleton _ (formats.not_mem_display lat (.inr rfl))]
  simp [readText, formats.parseFloat_display, bind, Except.bind]

theorem decodePrefixedString_time {clock : NaiveTime} (valid : clock.Valid) :
    decodePrefixedString formats ('h' :: ':' :: formatTime clock) =
      .ok (.time clock.normalized) := by
  have read : parseTime formats (formatTime clock) = some clock.normalized := by
    rw [parseTime, formats.parseTime_formatTime clock valid]
    rfl
  simp only [decodePrefixedString, readText, read]
  rfl

/-- Every encoded scalar is read, and a representable one as itself. -/
theorem exists_decode_encodeScalar
    {value : Kind} {room : Nat} (own : Decodable value) (form : value.OwnForm)
    (encoded : encodeScalar formats value = .ok json) :
    ∃ result, (layout formats).decodeKindAt (room + 1) json = .ok result ∧
      (Representable formats value → result = value) := by
  have text : ∀ code rest, (layout formats).decodeKindAt (room + 1) (prefixed code rest) =
        decodePrefixedString formats (code :: ':' :: rest) := by
    intro code rest
    simp [Layout.decodeKindAt, prefixed, layout]
  cases value with
  | null | bool flag =>
    cases encoded
    exact ⟨_, rfl, fun _ => rfl⟩
  | marker | na | remove | str content | uri content | symbol content =>
    cases encoded
    rw [text]
    exact ⟨_, rfl, fun _ => by simp⟩
  | number =>
    obtain ⟨_, result, same, read⟩ := exists_decodeNumberStr (Except.ok.inj encoded)
    rw [same, text]
    exact ⟨result, read⟩
  | ref r =>
    obtain ⟨val, dis⟩ := r
    cases dis with
    | none =>
      rw [← Except.ok.inj encoded]
      refine ⟨_, text _ _, fun own => ?_⟩
      simp [decodeRefStr, splitSpace_word own]
    | some =>
      rw [← Except.ok.inj encoded]
      refine ⟨_, text _ _, fun own => ?_⟩
      simp [decodeRefStr, splitSpace_append _ own]
  | date day =>
    cases encoded
    rw [text]
    refine ⟨.date day, ?_, fun _ => rfl⟩
    simp only [decodePrefixedString, readText, formats.parseYmd_ymd day own]
    rfl
  | time clock =>
    cases encoded
    rw [text]
    refine ⟨.time clock.normalized, decodePrefixedString_time form, fun own => ?_⟩
    rw [NaiveTime.normalized_of_isCalendar own]
  | dateTime =>
    obtain ⟨_, result, same, read, named⟩ :=
      exists_decodeDatetimeStr form own (Except.ok.inj encoded)
    rw [same, text]
    exact ⟨result, read, fun own => named own.2⟩
  | coord c =>
    cases encoded
    rw [text]
    refine ⟨_, decodeCoordStr_display c.lat c.lng, fun own => ?_⟩
    rw [canonical_eq own.1, canonical_eq own.2]
  | xstr x =>
    cases encoded
    rw [text]
    have colon : ':' ∈ x.typeName.toList ++ ':' :: x.val.toList := by simp
    obtain ⟨typeName, val, split⟩ := exists_splitOnce colon
    refine ⟨.xstr ⟨String.ofList typeName, String.ofList val⟩, ?_, fun own => ?_⟩
    · simp [decodePrefixedString, decodeXstrStr, split]
    · rw [splitOnce_singleton _ own] at split
      cases split
      simp
  | none | int value | float value | buf bytes | nominal value | list items
  | dict tags | grid gridMeta cols rows => cases encoded

theorem Representable.decodable {value : Kind} (own : Representable formats value)
    (undated : ∀ day, value ≠ .date day) : Decodable value := by
  cases value with
  | date day => exact absurd rfl (undated day)
  | dateTime => exact own.1
  | grid => exact own.2
  | number n | ref r | time clock | coord c | xstr x => trivial
  | _ => exact own

/-- What is read back of an encoded scalar is the scalar. -/
theorem eq_of_decodeKindAt_scalar
    {value result : Kind} {room : Nat} (own : Representable formats value)
    (form : value.OwnForm) (encoded : encodeScalar formats value = .ok json)
    (decoded : (layout formats).decodeKindAt room json = .ok result) : result = value := by
  cases room with
  | zero => cases decoded
  | succ =>
    by_cases dated : ∃ day, value = .date day
    · obtain ⟨day, rfl⟩ := dated
      cases encoded
      simp only [Layout.decodeKindAt, prefixed, layout, String.toList_ofList] at decoded
      obtain ⟨_, read, rfl⟩ := except_map_eq_ok.mp decoded
      unfold readText at read
      split at read
      · rename_i found
        cases read
        rw [own _ found]
      · cases read
    · obtain ⟨_, decodes, same⟩ := exists_decode_encodeScalar
        (own.decodable fun day same => dated ⟨day, same⟩) form encoded
      rw [← same own]
      exact Except.ok.inj (decoded.symm.trans decodes)

/-! ## Dictionaries and grids -/

section Containers

variable {child : Json → Except CodecError Kind}

/-- A dictionary that does not look like a grid is decoded entry by entry. -/
theorem decodeObject_encodeDict {tags : List (String × Kind)} {fields : List (String × Json)}
    (own : Decodable (.dict tags)) (encoded : (layout formats).encodeDict tags = .ok fields) :
    decodeObject child fields = (decodeEntries child fields).map .dict := by
  have keys := Layout.keys_encodeDict encoded
  have plain : ((Assoc.lookup "meta" fields).isSome &&
      (Assoc.lookup "cols" fields).isSome) = false := by
    rcases not_and_or.mp own with absent | absent
    · have gone : Assoc.lookup "meta" fields = none := Assoc.lookup_eq_none (keys ▸ absent)
      simp [gone]
    · have gone : Assoc.lookup "cols" fields = none := Assoc.lookup_eq_none (keys ▸ absent)
      simp [gone]
  rw [decodeObject, plain]
  rfl

theorem lookup_gridFields
    (key : String) (gridMeta : List (String × Json)) (cols rows : List Json) :
    Assoc.lookup key (gridFields gridMeta cols rows) = if key = "rows" then some (.array rows)
      else if key = "cols" then some (.array cols)
      else if key = "meta" then
        some (.ofFields (("ver", .string "3.0") :: gridMeta))
      else none := by
  simp [gridFields, Assoc.ofList, Assoc.lookup_insert, eq_comm]

/-- An encoded grid is decoded from its parts, without a version in its meta. -/
theorem gridParts {gridMeta : List (String × Json)} (sorted : Assoc.Sorted gridMeta)
    (cols rows : List Json) :
    Layout.GridParts "ver" (gridFields gridMeta cols rows)
      (gridMeta.filter fun field => field.1 ≠ "ver") cols rows where
  cols := by simp [lookup_gridFields]
  rows := by simp [lookup_gridFields]
  gridMeta := by
    intro child
    rw [lookup_gridFields]
    simp only [String.reduceEq, if_false, if_true, Json.ofFields, decodeGridMeta,
      Assoc.ofList, List.foldl_cons, Assoc.insert]
    rw [Assoc.filter_foldl_insert_singleton sorted]

theorem decodeObject_gridFields (gridMeta : List (String × Json)) (cols rows : List Json) :
    decodeObject child (gridFields gridMeta cols rows) =
      (decodeGridFromMap child (gridFields gridMeta cols rows)).map HGrid.kind := by
  rw [decodeObject, lookup_gridFields, lookup_gridFields]
  rfl

/-- The name of a column, and its meta beside it. -/
theorem decodeColumn_columnObj {name : String} {colMeta : List (String × Json)}
    (sorted : Assoc.Sorted colMeta) (plain : "name" ∉ colMeta.map Prod.fst) :
    decodeColumn child (columnObj name colMeta) =
      (decodeEntries child (colMeta.filter fun field => field.1 ≠ "name")).map
        fun colMeta => (name, colMeta) := by
  have named : Assoc.lookup "name" ((Assoc.ofList colMeta).foldl
      (fun fields field => Assoc.insert field.1 field.2 fields)
      [("name", Json.string name)]) = some (.string name) := by
    rw [Assoc.ofList_of_sorted sorted, Assoc.lookup_foldl_insert _ plain]
    rfl
  rw [columnObj, decodeColumn, named, Assoc.ofList_of_sorted sorted,
    Assoc.filter_foldl_insert_singleton sorted]
  cases decodeEntries child (colMeta.filter fun field => field.1 ≠ "name") <;> rfl

end Containers

theorem containers (formats : Formats) :
    (layout formats).Containers Decodable "ver" decodeColumn where
  dict _ _ _ own encoded := decodeObject_encodeDict own encoded
  column _ _ col _ own member sorted encoded := by
    have plain := own col member
    refine (decodeColumn_columnObj sorted (Layout.keys_encodeDict encoded ▸ plain)).trans ?_
    rw [Layout.filter_encodeDict plain encoded]
  parts cols rows sorted := gridParts sorted cols rows
  grid _ := decodeObject_gridFields

/-- The codec accepts what it encodes, given the levels it takes.  A scalar is a
string, which takes one. -/
theorem accepting (formats : Formats) : (layout formats).Accepting Decodable fun _ => 1 := by
  refine (containers formats).accepting id ?_ ?_
  · intro value json room own form encoded enough
    obtain ⟨_, rfl⟩ := Nat.exists_eq_add_of_le' enough
    obtain ⟨result, read, _⟩ := exists_decode_encodeScalar own form encoded
    exact ⟨result, read⟩
  · intro value json encoded
    cases value with
    | list items | dict tags | grid gridMeta cols rows => cases encoded
    | _ => rfl

/-! ## Fidelity -/

theorem exact (formats : Formats) : (layout formats).Exact (Representable formats) :=
  (containers formats).exact id (fun own => own.symm) eq_of_decodeKindAt_scalar

end JsonV3
end Codecs
end Haystack
