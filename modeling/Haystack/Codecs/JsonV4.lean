import Haystack.Codecs.Json

/-!
# JSON v4

Values as JSON with a `_kind` field that tells typed scalars and grids from plain
dictionaries.
-/

namespace Haystack
namespace Codecs
namespace JsonV4

open Collections

variable (formats : Formats)

/-! ## Encoding -/

/-- A `_kind` object. -/
def kindObj (kindName : String) (fields : List (String × Json)) : Json :=
  .ofFields (("_kind", .string kindName) :: fields)

/-- A JSON number, or the text of a value that is none. -/
def jsonNumber (x : F64) : Json :=
  if x.isFinite then .number (.float x)
  else .string (String.ofList (formats.display x))

def encodeNumber (n : Number) : Json :=
  let val :=
    if n.val.isInfinite then
      if n.val.isNegative then .string "-INF" else .string "INF"
    else if n.val.isNaN then .string "NaN"
    else jsonNumber formats n.val
  kindObj "number" (("val", val) :: match n.unit with
    | some unit => [("unit", .string unit)]
    | none => [])

def encodeRef (r : HRef) : Json := kindObj "ref" (("val", .string r.val) :: match r.dis with
    | some dis => [("dis", .string dis)]
    | none => [])

def encodeDatetime (value : HDateTime) : Json :=
  kindObj "dateTime" (("val", .string (String.ofList (formats.dateTime value.dt))) ::
      if value.tzName.isEmpty then [] else [("tz", .string value.tzName)])

/-- Encode a value that is no list, dictionary or grid. -/
def encodeScalar : Kind → Except CodecError Json
  | .null => .ok .null
  | .bool value => .ok (.bool value)
  | .marker => .ok (kindObj "marker" [])
  | .na => .ok (kindObj "na" [])
  | .remove => .ok (kindObj "remove" [])
  | .number n => .ok (encodeNumber formats n)
  | .str text => .ok (.string text)
  | .ref r => .ok (encodeRef r)
  | .uri text => .ok (kindObj "uri" [("val", .string text)])
  | .symbol text => .ok (kindObj "symbol" [("val", .string text)])
  | .date day =>
    .ok (kindObj "date" [("val", .string (String.ofList (formats.ymd day)))])
  | .time clock =>
    .ok (kindObj "time" [("val", .string (String.ofList (formatTime clock)))])
  | .dateTime value => .ok (encodeDatetime formats value)
  | .coord c =>
    .ok (kindObj "coord" [("lat", jsonNumber formats c.lat), ("lng", jsonNumber formats c.lng)])
  | .xstr x =>
    .ok (kindObj "xstr" [("type", .string x.typeName), ("val", .string x.val)])
  | _ => .error .unsupportedKind

/-- The object of a column. -/
def columnObj (name : String) (colMeta : List (String × Json)) : Json :=
  .ofFields (("name", .string name) ::
    if colMeta.isEmpty then [] else [("meta", .ofFields colMeta)])

/-- The fields of a grid. -/
def gridFields (gridMeta : List (String × Json)) (cols rows : List Json) : List (String × Json) :=
  Assoc.ofList (("_kind", .string "grid") ::
    ((if gridMeta.isEmpty then [] else [("meta", .ofFields gridMeta)]) ++
      [("cols", .array cols), ("rows", .array rows)]))

/-! ## Decoding -/

/-- A string field. -/
def getStr (fields : List (String × Json)) (key : String) : Except CodecError String :=
  match Assoc.lookup key fields with
  | some (.string text) => .ok text
  | _ => .error (.parse 0 ("missing or invalid string field '" ++ key ++ "'"))

/-- A number field. -/
def getF64 (fields : List (String × Json)) (key : String) : Except CodecError F64 :=
  match Assoc.lookup key fields with
  | some (.number n) => .ok (n.asF64 formats)
  | _ => .error (.parse 0 ("missing or invalid number field '" ++ key ++ "'"))

/-- The value of a number. -/
def numberVal : Option Json → Except CodecError F64
  | none => .error (.parse 0 "number missing 'val' field")
  | some (.number n) => .ok (n.asF64 formats)
  | some (.string "INF") => .ok .infinity
  | some (.string "-INF") => .ok .negInfinity
  | some (.string "NaN") => .ok .nan
  | some (.string text) =>
    match formats.parseFloat text.toList with
    | some x => .ok x
    | none => .error (.parse 0 "invalid number string")
  | some _ => .error (.parse 0 "number 'val' must be a number or string")

/-- The unit of a number. -/
def numberUnit : Option Json → Except CodecError (Option String)
  | none => .ok none
  | some (.string unit) => .ok (some unit)
  | some _ =>
    .error (.parse 0 "number 'unit' must be a string when present")

def decodeNumber (fields : List (String × Json)) : Except CodecError Kind := do
  let val ← numberVal formats (Assoc.lookup "val" fields)
  let unit ← numberUnit (Assoc.lookup "unit" fields)
  .ok (.number ⟨val, unit⟩)

def decodeRef (fields : List (String × Json)) : Except CodecError Kind := do
  let val ← getStr fields "val"
  let dis := match Assoc.lookup "dis" fields with
    | some (.string text) => some text
    | _ => none
  .ok (.ref ⟨val, dis⟩)

/-- A datetime, in the standard format or a more lenient one. -/
def parseDatetime (text : List Char) : Option DateTime :=
  (formats.parseDateTime .rfc3339 text).or (formats.parseDateTime .seconds text)

def decodeDatetime (fields : List (String × Json)) : Except CodecError Kind := do
  let val ← getStr fields "val"
  rejectLowercaseTSeparator val.toList
  let dt ← readText (parseDatetime formats) "invalid datetime" val.toList
  let tz := match Assoc.lookup "tz" fields with
    | some (.string name) => if name.isEmpty then "UTC" else name
    | _ => "UTC"
  .ok (.dateTime ⟨dt, tz⟩)

def decodeCoord (fields : List (String × Json)) : Except CodecError Kind := do
  let lat ← getF64 formats fields "lat"
  let lng ← getF64 formats fields "lng"
  .ok (.coord ⟨lat, lng⟩)

section Objects

variable (child : Json → Except CodecError Kind)

/-- The meta of a column. -/
def decodeColMeta : Option Json → Except CodecError (List (String × Kind))
  | some (.object fields) => decodeEntries child fields
  | _ => .ok []

def decodeColumn : Json → Except CodecError (String × List (String × Kind))
  | .object fields => do
    let name ← getStr fields "name"
    let colMeta ← decodeColMeta child (Assoc.lookup "meta" fields)
    .ok (name, colMeta)
  | _ => .error (.parse 0 "col must be a JSON object")

/-- Decode a grid, with a decoder for the values one level below it. -/
def decodeGridAt : Json → Except CodecError HGrid
  | .object fields => decodeGridFields "_kind" child (decodeColumn child) fields
  | _ => .error (.parse 0 "grid must be a JSON object")

/-- Decode a typed object. -/
def decodeTyped (fields : List (String × Json)) : String → Except CodecError Kind
  | "marker" => .ok .marker
  | "na" => .ok .na
  | "remove" => .ok .remove
  | "number" => decodeNumber formats fields
  | "ref" => decodeRef fields
  | "uri" => (getStr fields "val").map .uri
  | "symbol" => (getStr fields "val").map .symbol
  | "date" => do
    let val ← getStr fields "val"
    (readText formats.parseYmd "invalid date" val.toList).map .date
  | "time" => do
    let val ← getStr fields "val"
    (readText (parseTime formats) "invalid time" val.toList).map .time
  | "dateTime" => decodeDatetime formats fields
  | "coord" => decodeCoord formats fields
  | "xstr" => do
    let typeName ← getStr fields "type"
    let val ← getStr fields "val"
    .ok (.xstr ⟨typeName, val⟩)
  | "grid" => (decodeGridAt child (.object fields)).map HGrid.kind
  | other => .error (.parse 0 ("unknown _kind: " ++ other))

/-- Decode an object, with a decoder for the values one level below it. -/
def decodeObject (fields : List (String × Json)) : Except CodecError Kind :=
  match Assoc.lookup "_kind" fields with
  | some (.string kindName) => decodeTyped formats child fields kindName
  | _ => (decodeEntries child fields).map .dict

end Objects

/-- The layout of the codec. -/
def layout : Layout where
  formats
  encodeScalar := encodeScalar formats
  columnObj
  gridFields
  decodeString text := .ok (.str text)
  decodeObject := decodeObject formats

def encodeKind : Kind → Except CodecError Json := (layout formats).encodeKind

def encodeGridValue : HGrid → Except CodecError (List (String × Json)) :=
  (layout formats).encodeGridValue

end JsonV4
end Codecs
end Haystack
