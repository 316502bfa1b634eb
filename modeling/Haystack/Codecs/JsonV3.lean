import Haystack.Codecs.Json

/-!
# JSON v3

Values as JSON with typed scalars as prefixed strings.  A grid is an object with
`meta` and `cols`, and the meta of a column is flattened into its object.
-/

namespace Haystack
namespace Codecs
namespace JsonV3

open Collections

variable (formats : Formats)

/-! ## Encoding -/

/-- A string with a type code in front. -/
def prefixed (code : Char) (text : List Char) : Json :=
  .string (String.ofList (code :: ':' :: text))

def encodeNumber (n : Number) : Json :=
  match n.unit with
  | some unit =>
    prefixed 'n' (formats.formatNumberVal n.val ++ ' ' :: unit.toList)
  | none => prefixed 'n' (formats.formatNumberVal n.val)

def encodeRef (r : HRef) : Json :=
  match r.dis with
  | some dis => prefixed 'r' (r.val.toList ++ ' ' :: dis.toList)
  | none => prefixed 'r' r.val.toList

def encodeDatetime (value : HDateTime) : Json :=
  if value.tzName.isEmpty then prefixed 't' (formats.dateTime value.dt)
  else prefixed 't' (formats.dateTime value.dt ++ ' ' :: value.tzName.toList)

/-- Encode a value that is no list, dictionary or grid. -/
def encodeScalar : Kind → Except CodecError Json
  | .null => .ok .null
  | .bool value => .ok (.bool value)
  | .marker => .ok (prefixed 'm' [])
  | .na => .ok (prefixed 'z' [])
  | .remove => .ok (prefixed '-' [])
  | .number n => .ok (encodeNumber formats n)
  | .str text => .ok (prefixed 's' text.toList)
  | .ref r => .ok (encodeRef r)
  | .uri text => .ok (prefixed 'u' text.toList)
  | .symbol text => .ok (prefixed 'y' text.toList)
  | .date day => .ok (prefixed 'd' (formats.ymd day))
  | .time clock => .ok (prefixed 'h' (formatTime clock))
  | .dateTime value => .ok (encodeDatetime formats value)
  | .coord c =>
    .ok (prefixed 'c' (formats.display c.lat ++ ',' :: formats.display c.lng))
  | .xstr x => .ok (prefixed 'x' (x.typeName.toList ++ ':' :: x.val.toList))
  | _ => .error .unsupportedKind

/-- The object of a column: its name, overwritten by its meta. -/
def columnObj (name : String) (colMeta : List (String × Json)) : Json :=
  .object ((Assoc.ofList colMeta).foldl (fun fields field => Assoc.insert field.1 field.2 fields)
    [("name", .string name)])

/-- The fields of a grid.  Its meta has a version, which a tag may overwrite. -/
def gridFields (gridMeta : List (String × Json)) (cols rows : List Json) : List (String × Json) :=
  Assoc.ofList [("meta", .ofFields (("ver", .string "3.0") :: gridMeta)),
    ("cols", .array cols), ("rows", .array rows)]

/-! ## Decoding -/

/-- The texts before and after the first space. -/
def splitSpace (text : List Char) : List Char × Option (List Char) :=
  match splitOnce [' '] text with
  | some (before, after) => (before, some after)
  | none => (text, none)

/-- The value of a number. -/
def parseNumber : List Char → Option F64
  | ['I', 'N', 'F'] => some .infinity
  | ['-', 'I', 'N', 'F'] => some .negInfinity
  | ['N', 'a', 'N'] => some .nan
  | text => formats.parseFloat text

def decodeNumberStr (text : List Char) : Except CodecError Kind := do
  let unit := match (splitSpace text).2 with
    | some (c :: rest) => some (String.ofList (c :: rest))
    | _ => none
  let val ← readText (parseNumber formats) "invalid v3 number" (splitSpace text).1
  .ok (.number ⟨val, unit⟩)

def decodeRefStr (text : List Char) : Kind :=
  .ref ⟨String.ofList (splitSpace text).1, (splitSpace text).2.map String.ofList⟩

/-- A datetime, in the standard format or more lenient ones. -/
def parseDatetime (text : List Char) : Option DateTime :=
  ((formats.parseDateTime .rfc3339 text).or (formats.parseDateTime .seconds text)).or
      (formats.parseDateTime .fraction text)

/-- The datetime and the time zone name after it. -/
def splitDatetimeTz (text : List Char) : List Char × List Char :=
  ((splitSpace text).1, trim ((splitSpace text).2.getD []))

def decodeDatetimeStr (text : List Char) : Except CodecError Kind := do
  let (dtText, tzName) := splitDatetimeTz text
  rejectLowercaseTSeparator dtText
  let dt ← readText (parseDatetime formats) "invalid v3 datetime" dtText
  if tzName.all isTzChar then
    .ok (.dateTime ⟨dt, if tzName.isEmpty then "UTC" else String.ofList tzName⟩)
  else .error (.parse 0 "invalid v3 datetime timezone name")

def decodeCoordStr (text : List Char) : Except CodecError Kind :=
  match splitOnce [','] text with
  | none =>
    .error (.parse 0 ("invalid v3 coord: expected 'lat,lng', got '" ++ String.ofList text ++ "'"))
  | some (lat, lng) => do
    let lat ← readText formats.parseFloat "invalid v3 coord lat" lat
    let lng ← readText formats.parseFloat "invalid v3 coord lng" lng
    .ok (.coord ⟨lat, lng⟩)

def decodeXstrStr (text : List Char) : Except CodecError Kind :=
  match splitOnce [':'] text with
  | some (typeName, val) => .ok (.xstr ⟨String.ofList typeName, String.ofList val⟩)
  | none =>
    .error (.parse 0 ("invalid v3 xstr: expected 'Type:value', got '" ++
      String.ofList text ++ "'"))

/-- Decode a prefixed string.  Without a known prefix it is a plain string. -/
def decodePrefixedString (text : List Char) : Except CodecError Kind :=
  match text with
  | ['m', ':'] => .ok .marker
  | ['z', ':'] => .ok .na
  | ['-', ':'] => .ok .remove
  | 's' :: ':' :: rest => .ok (.str (String.ofList rest))
  | 'n' :: ':' :: rest => decodeNumberStr formats rest
  | 'r' :: ':' :: rest => .ok (decodeRefStr rest)
  | 'u' :: ':' :: rest => .ok (.uri (String.ofList rest))
  | 'y' :: ':' :: rest => .ok (.symbol (String.ofList rest))
  | 'd' :: ':' :: rest =>
    (readText formats.parseYmd "invalid v3 date" rest).map .date
  | 'h' :: ':' :: rest =>
    (readText (parseTime formats) "invalid v3 time" rest).map .time
  | 't' :: ':' :: rest => decodeDatetimeStr formats rest
  | 'c' :: ':' :: rest => decodeCoordStr formats rest
  | 'x' :: ':' :: rest => decodeXstrStr rest
  | _ => .ok (.str (String.ofList text))

section Objects

variable (child : Json → Except CodecError Kind)

def decodeColumn : Json → Except CodecError (String × List (String × Kind))
  | .object fields =>
    match Assoc.lookup "name" fields with
    | some (.string name) => do
      let colMeta ← decodeEntries child (fields.filter fun field => field.1 ≠ "name")
      .ok (name, colMeta)
    | _ => .error (.parse 0 "col missing 'name' field")
  | _ => .error (.parse 0 "col must be a JSON object")

/-- Decode a grid from its fields. -/
def decodeGridFromMap (fields : List (String × Json)) : Except CodecError HGrid :=
  decodeGridFields "ver" child (decodeColumn child) fields

/-- Decode an object, with a decoder for the values one level below it. -/
def decodeObject (fields : List (String × Json)) : Except CodecError Kind :=
  if (Assoc.lookup "meta" fields).isSome && (Assoc.lookup "cols" fields).isSome then
    (decodeGridFromMap child fields).map HGrid.kind
  else (decodeEntries child fields).map .dict

end Objects

/-- The layout of the codec. -/
def layout : Layout where
  formats
  encodeScalar := encodeScalar formats
  columnObj
  gridFields
  decodeString text := decodePrefixedString formats text.toList
  decodeObject

def encodeKind : Kind → Except CodecError Json := (layout formats).encodeKind

def encodeGridValue : HGrid → Except CodecError (List (String × Json)) :=
  (layout formats).encodeGridValue

end JsonV3
end Codecs
end Haystack
