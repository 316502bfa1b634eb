import Haystack.Codecs.Json
import Haystack.Collections.JsonText
import Haystack.Graph.Size

/-!
# Typed payload v1

Every value as a JSON document: a version and a tree of objects with a `kind`.
Encoding builds the tree (`toWire`), serializes it and checks the limits of the
document; decoding checks the limits while it reads, deserializes the tree and
builds the value (`fromWire`).  The text library is a `JsonReader`: it reads the
documents that are written.
-/

namespace Haystack
namespace Codecs
namespace Typed

open Collections
open Collections.JsonText (Doc)

/-- The limits of a document.  Depth counts nested values below the envelope. -/
structure PayloadLimits where
  maxBytes : Nat
  maxDepth : Nat
  maxNodes : Nat
  deriving DecidableEq, Repr

def PayloadLimits.default : PayloadLimits := ⟨1048576, 64, 100000⟩

/-- The errors of the codec.  `malformed` is an invalid payload with a message of
a library. -/
inductive TypedPayloadError
  | invalidLimits
  | byteLimit (limit : Nat)
  | invalid (message : String)
  | malformed
  | unsupportedVersion (version : Nat)
  deriving DecidableEq, Repr

/-! ## The tree -/

inductive WireValue
  | null
  | none
  | marker
  | na
  | remove
  | bool (value : Bool)
  | int (value : String)
  | float (bits : String)
  | number (bits : String) (unit : Option String)
  | str (value : String)
  | ref (value : String) (display : Option String)
  | uri (value : String)
  | symbol (value : String)
  | date (value : String)
  | time (seconds nanos : Nat)
  | dateTime (seconds : String) (nanos : Nat) (offset : Int) (timezone : String)
  | coord (lat lng : String)
  | xstr (name value : String)
  | buf (base64 : String)
  | nominal (spec catalog revision value : String)
  | list (items : List WireValue)
  | dict (tags : List (String × WireValue))
  | grid (gridMeta : List (String × WireValue)) (cols : List (String × List (String × WireValue)))
      (rows : List (List (String × WireValue)))
  deriving Repr

/-- Sixteen hexadecimal digits. -/
def bits (value : F64) : String := String.ofList (fixedHex 16 value.bits.toNat)

def parseBits (text : String) : Except TypedPayloadError F64 :=
  match parseHex text.toList with
  | some value =>
    if text.toList.length = 16 then .ok ⟨UInt64.ofNat value⟩
    else .error (.invalid "float bits require 16 lowercase hexadecimal digits")
  | .none =>
    .error (.invalid "float bits require 16 lowercase hexadecimal digits")

/-- Decimal digits with an optional sign. -/
def signedDecimal : List Char → Option Int
  | '-' :: digits => (parseDecimal digits).map fun (n : Nat) => -(n : Int)
  | '+' :: digits => (parseDecimal digits).map fun (n : Nat) => (n : Int)
  | digits => (parseDecimal digits).map fun (n : Nat) => (n : Int)

/-- `str::parse` of a signed integer of 64 bits. -/
def parseI64 (text : List Char) : Option Int64 := (signedDecimal text).bind fun value =>
    if -2 ^ 63 ≤ value ∧ value < 2 ^ 63 then some (Int64.ofInt value) else .none

def intString (value : Int64) : String := String.ofList (JsonText.intText value.toInt)

def parseInt (text : String) : Except TypedPayloadError Int64 :=
  match parseI64 text.toList with
  | .none => .error (.invalid "integer outside signed 64-bit range or invalid decimal")
  | some value =>
    if intString value = text then .ok value
    else .error (.invalid ("integer must be canonical decimal " ++
      "(no plus, leading zeros or negative zero)"))

/-- The day of the first of January 1970. -/
def epochDay : Int := 719528

/-- Seconds since the epoch. -/
def timestamp (value : DateTime) : Int64 :=
  Int64.ofInt ((value.date.days - epochDay) * secondsPerDay + value.time.secs)

section Building

variable (formats : Formats)

/-- A scalar of the tree. -/
def scalarWire : Kind → WireValue
  | .null => .null
  | .none => .none
  | .marker => .marker
  | .na => .na
  | .remove => .remove
  | .bool value => .bool value
  | .int value => .int (intString value)
  | .float value => .float (bits value)
  | .number n => .number (bits n.val) n.unit
  | .str text => .str text
  | .ref r => .ref r.val r.dis
  | .uri text => .uri text
  | .symbol text => .symbol text
  | .date day => .date (String.ofList (formats.displayDate day))
  | .time clock => .time clock.secs clock.frac
  | .dateTime value =>
    .dateTime (intString (timestamp value.dt)) value.dt.time.frac value.dt.offset value.tzName
  | .coord c => .coord (bits c.lat) (bits c.lng)
  | .xstr x => .xstr x.typeName x.val
  | .buf bytes => .buf (String.ofList (standardEncode bytes))
  | .nominal value => .nominal value.spec value.catalog value.revision value.text
  | .list _ | .dict _ | .grid _ _ _ => .null

/-- Refuse a value that is nested too deeply. -/
def checkNesting (depth : Nat) : Except TypedPayloadError Unit :=
  if depth > 64 then .error (.invalid "value nesting exceeds 64") else .ok ()

/-- Refuse a grid with two columns of one name. -/
def checkColumns (names : List String) : Except TypedPayloadError Unit :=
  if names.Nodup then .ok () else .error (.invalid "duplicate grid column")

mutual

def toWire (depth : Nat) : Kind → Except TypedPayloadError WireValue
  | .list items => do
    checkNesting depth
    let items ← toItems (depth + 1) items
    .ok (.list items)
  | .dict tags => do
    checkNesting depth
    let tags ← toTags depth tags
    .ok (.dict tags)
  | .grid gridMeta cols rows => do
    checkNesting depth
    checkColumns (cols.map Prod.fst)
    let gridMeta ← toTags (depth + 1) gridMeta
    let cols ← toColumns (depth + 1) cols
    let rows ← toRows (depth + 1) rows
    .ok (.grid gridMeta cols rows)
  | scalar => do
    checkNesting depth
    .ok (scalarWire formats scalar)

def toItems (depth : Nat) : List Kind → Except TypedPayloadError (List WireValue)
  | [] => .ok []
  | value :: rest => do
    let first ← toWire depth value
    let others ← toItems depth rest
    .ok (first :: others)

def toTags (depth : Nat) :
    List (String × Kind) → Except TypedPayloadError (List (String × WireValue))
  | [] => .ok []
  | (tag, value) :: rest => do
    let first ← toWire (depth + 1) value
    let others ← toTags depth rest
    .ok ((tag, first) :: others)

def toColumns (depth : Nat) : List (String × List (String × Kind)) →
    Except TypedPayloadError (List (String × List (String × WireValue)))
  | [] => .ok []
  | (name, colMeta) :: rest => do
    let colMeta ← toTags depth colMeta
    let others ← toColumns depth rest
    .ok ((name, colMeta) :: others)

def toRows (depth : Nat) : List (List (String × Kind)) →
    Except TypedPayloadError (List (List (String × WireValue)))
  | [] => .ok []
  | row :: rest => do
    let row ← toTags depth row
    let others ← toRows depth rest
    .ok (row :: others)

end

/-- A time of day, with the nanoseconds set apart from the seconds. -/
def timeOf (seconds nanos : Nat) : Option NaiveTime :=
  if seconds < 86400 ∧ nanos < 2000000000 then some ⟨seconds, nanos⟩ else .none

/-- A datetime in UTC, with the nanoseconds set apart from the seconds. -/
def utcOf (seconds : Int64) (nanos : Nat) : Option (NaiveDate × NaiveTime) :=
  let days := epochDay + seconds.toInt / secondsPerDay
  if -95745764 ≤ days ∧ days ≤ 95745764 ∧ nanos < 2000000000 then
    some (⟨days⟩, ⟨(seconds.toInt % secondsPerDay).toNat, nanos⟩)
  else .none

def fromDateTime (seconds : String) (nanos : Nat) (offset : Int)
    (timezone : String) : Except TypedPayloadError Kind :=
  if -86400 < offset ∧ offset < 86400 then do
    let seconds ← parseInt seconds
    match utcOf seconds nanos with
    | some (date, time) => .ok (.dateTime ⟨⟨date, time, offset⟩, timezone⟩)
    | .none => .error (.invalid "invalid datetime timestamp or nanoseconds")
  else .error (.invalid "invalid datetime offset")

def fromBuf (base64 : String) : Except TypedPayloadError Kind :=
  match standardDecode base64.toList with
  | .none => .error .malformed
  | some bytes =>
    if standardEncode bytes = base64.toList then .ok (.buf bytes)
    else .error (.invalid "noncanonical base64")

def fromNominal (spec catalog revision value : String) : Except TypedPayloadError Kind :=
  match NominalScalar.new spec catalog revision value with
  | some value => .ok (.nominal value)
  | .none => .error (.invalid ("nominal scalar requires a qualified " ++
      "library::Spec and nonempty catalog identity/revision"))

/-- The value of a scalar of the tree. -/
def scalarOf : WireValue → Except TypedPayloadError Kind
  | .null => .ok .null
  | .none => .ok .none
  | .marker => .ok .marker
  | .na => .ok .na
  | .remove => .ok .remove
  | .bool value => .ok (.bool value)
  | .int value => (parseInt value).map .int
  | .float bits => (parseBits bits).map .float
  | .number bits unit => do
    let val ← parseBits bits
    .ok (.number ⟨val, unit⟩)
  | .str value => .ok (.str value)
  | .ref value display => .ok (.ref ⟨value, display⟩)
  | .uri value => .ok (.uri value)
  | .symbol value => .ok (.symbol value)
  | .date value =>
    match formats.parseDate value.toList with
    | some day => .ok (.date day)
    | .none => .error (.invalid "invalid date")
  | .time seconds nanos =>
    match timeOf seconds nanos with
    | some clock => .ok (.time clock)
    | .none => .error (.invalid "invalid time seconds or nanoseconds")
  | .dateTime seconds nanos offset timezone =>
    fromDateTime seconds nanos offset timezone
  | .coord lat lng => do
    let lat ← parseBits lat
    let lng ← parseBits lng
    .ok (.coord ⟨lat, lng⟩)
  | .xstr name value => .ok (.xstr ⟨name, value⟩)
  | .buf base64 => fromBuf base64
  | .nominal spec catalog revision value =>
    fromNominal spec catalog revision value
  | .list _ | .dict _ | .grid _ _ _ => .error .malformed

mutual

def fromWire : WireValue → Except TypedPayloadError Kind
  | .list items => do
    let items ← fromItems items
    .ok (.list items)
  | .dict tags => do
    let tags ← fromTags tags
    .ok (.dict (Assoc.ofList tags))
  | .grid gridMeta cols rows => do
    let cols ← fromColumns cols
    checkColumns (cols.map Prod.fst)
    let gridMeta ← fromTags gridMeta
    let rows ← fromRows rows
    .ok (.grid (Assoc.ofList gridMeta) cols rows)
  | scalar => scalarOf formats scalar

def fromItems : List WireValue → Except TypedPayloadError (List Kind)
  | [] => .ok []
  | value :: rest => do
    let first ← fromWire value
    let others ← fromItems rest
    .ok (first :: others)

/-- The tags of a dictionary, to be inserted one by one. -/
def fromTags : List (String × WireValue) → Except TypedPayloadError (List (String × Kind))
  | [] => .ok []
  | (tag, value) :: rest => do
    let first ← fromWire value
    let others ← fromTags rest
    .ok ((tag, first) :: others)

def fromColumns : List (String × List (String × WireValue)) →
    Except TypedPayloadError (List (String × List (String × Kind)))
  | [] => .ok []
  | (name, colMeta) :: rest => do
    let colMeta ← fromTags colMeta
    let others ← fromColumns rest
    .ok ((name, Assoc.ofList colMeta) :: others)

def fromRows : List (List (String × WireValue)) →
    Except TypedPayloadError (List (List (String × Kind)))
  | [] => .ok []
  | row :: rest => do
    let row ← fromTags row
    let others ← fromRows rest
    .ok (Assoc.ofList row :: others)

end

end Building

/-! ## Serialization -/

/-- An object with its tag in front. -/
def tagged (kind : String) (fields : List (String × Doc)) : Doc :=
  .object (("kind", .string kind) :: fields)

def optionDoc : Option String → Doc
  | some text => .string text
  | .none => .null

def intDoc (value : Int) : Doc := .int (Int64.ofInt value)

mutual

def serialize : WireValue → Doc
  | .null => tagged "null" []
  | .none => tagged "none" []
  | .marker => tagged "marker" []
  | .na => tagged "na" []
  | .remove => tagged "remove" []
  | .bool value => tagged "bool" [("value", .bool value)]
  | .int value => tagged "int" [("value", .string value)]
  | .float bits => tagged "float" [("bits", .string bits)]
  | .number bits unit =>
    tagged "number" [("bits", .string bits), ("unit", optionDoc unit)]
  | .str value => tagged "str" [("value", .string value)]
  | .ref value display =>
    tagged "ref" [("value", .string value), ("display", optionDoc display)]
  | .uri value => tagged "uri" [("value", .string value)]
  | .symbol value => tagged "symbol" [("value", .string value)]
  | .date value => tagged "date" [("value", .string value)]
  | .time seconds nanos =>
    tagged "time" [("seconds", intDoc seconds), ("nanos", intDoc nanos)]
  | .dateTime seconds nanos offset timezone =>
    tagged "dateTime" [("seconds", .string seconds), ("nanos", intDoc nanos),
      ("offset", intDoc offset), ("timezone", .string timezone)]
  | .coord lat lng => tagged "coord" [("lat", .string lat), ("lng", .string lng)]
  | .xstr name value => tagged "xstr" [("name", .string name), ("value", .string value)]
  | .buf base64 => tagged "buf" [("base64", .string base64)]
  | .nominal spec catalog revision value =>
    tagged "nominal" [("spec", .string spec), ("catalog", .string catalog),
      ("revision", .string revision), ("value", .string value)]
  | .list items => tagged "list" [("items", .array (serializeItems items))]
  | .dict tags => tagged "dict" [("tags", .object (serializeTags tags))]
  | .grid gridMeta cols rows =>
    tagged "grid" [("meta", .object (serializeTags gridMeta)),
      ("cols", .array (serializeColumns cols)),
      ("rows", .array (serializeRows rows))]

def serializeItems : List WireValue → List Doc
  | [] => []
  | value :: rest => serialize value :: serializeItems rest

def serializeTags : List (String × WireValue) → List (String × Doc)
  | [] => []
  | (tag, value) :: rest => (tag, serialize value) :: serializeTags rest

def serializeColumns : List (String × List (String × WireValue)) → List Doc
  | [] => []
  | (name, colMeta) :: rest =>
    .object [("name", .string name), ("meta", .object (serializeTags colMeta))] ::
      serializeColumns rest

def serializeRows : List (List (String × WireValue)) → List Doc
  | [] => []
  | row :: rest => .object (serializeTags row) :: serializeRows rest

end

/-- The document of a payload. -/
def envelope (value : WireValue) : Doc :=
  .object [("version", intDoc 1), ("value", serialize value)]

/-! ## Reading documents -/

/-- An integer as a JSON number. -/
def intNumber (value : Int64) : JsonNumber :=
  if value.toInt < 0 then .signed value else .unsigned (UInt64.ofNat value.toInt.toNat)

mutual

/-- What the text library reads of a document, with its fields in order. -/
def raw : Doc → Json
  | .null => .null
  | .bool value => .bool value
  | .int value => .number (intNumber value)
  | .string text => .string text
  | .array items => .array (rawItems items)
  | .object fields => .object (rawFields fields)

def rawItems : List Doc → List Json
  | [] => []
  | item :: rest => raw item :: rawItems rest

def rawFields : List (String × Doc) → List (String × Json)
  | [] => []
  | (name, value) :: rest => (name, raw value) :: rawFields rest

end

/-- The bytes of a document. -/
def docBytes (doc : Doc) : List UInt8 := utf8Bytes (JsonText.write doc)

/-- A text library: it reads every document that is written, and any other text
as it may. -/
structure JsonReader where
  read : List UInt8 → Option Json
  read_docBytes : ∀ doc, read (docBytes doc) = some (raw doc)

/-- A reader of what is written and of nothing else. -/
def JsonReader.plain : JsonReader where
  read bytes := ((ofUtf8 bytes).bind JsonText.read).map raw
  read_docBytes doc := by
    rw [docBytes, ofUtf8_utf8Bytes, Option.bind_some, JsonText.read_write]
    rfl

section Bounds

variable (limits : PayloadLimits)

/-- Count a value of the document. -/
def seed (depth nodes : Nat) : Except TypedPayloadError Nat :=
  if depth > limits.maxDepth then .error .malformed
  else if nodes ≥ limits.maxNodes then .error .malformed
  else .ok (nodes + 1)

mutual

/-- Read a value with the nodes counted so far.  The fields of an object are put
in order, and none may occur twice. -/
def bounded (depth nodes : Nat) : Json → Except TypedPayloadError (Json × Nat)
  | .array items => do
    let nodes ← seed limits depth nodes
    let (values, nodes) ← boundedItems (depth + 1) nodes items
    .ok (.array values, nodes)
  | .object fields => do
    let nodes ← seed limits depth nodes
    let (values, nodes) ← boundedFields (depth + 1) nodes [] fields
    .ok (.object values, nodes)
  | .number (.float value) => do
    let nodes ← seed limits depth nodes
    if value.isFinite then .ok (.number (.float value), nodes)
    else .error .malformed
  | scalar => do
    let nodes ← seed limits depth nodes
    .ok (scalar, nodes)

def boundedItems (depth nodes : Nat) : List Json → Except TypedPayloadError (List Json × Nat)
  | [] => .ok ([], nodes)
  | item :: rest => do
    let (value, nodes) ← bounded depth nodes item
    let (values, nodes) ← boundedItems depth nodes rest
    .ok (value :: values, nodes)

def boundedFields (depth nodes : Nat) (values : List (String × Json)) :
    List (String × Json) → Except TypedPayloadError (List (String × Json) × Nat)
  | [] => .ok (values, nodes)
  | (key, field) :: rest =>
    if (Assoc.lookup key values).isSome then .error .malformed
    else do
      let (value, nodes) ← bounded depth nodes field
      boundedFields depth nodes (Assoc.insert key value values) rest

end

/-- Read a document within its limits. -/
def boundedJson (reader : JsonReader) (bytes : List UInt8) : Except TypedPayloadError Json :=
  if limits.maxBytes = 0 ∨ limits.maxNodes = 0 ∨ limits.maxDepth = 0 ∨
      limits.maxDepth > 64 then .error .invalidLimits
  else if bytes.length > limits.maxBytes then .error (.byteLimit limits.maxBytes)
  else
    match reader.read bytes with
    | .none => .error .malformed
    | some json => (bounded limits 0 0 json).map Prod.fst

end Bounds

/-! ## Deserialization -/

/-- The names of the variants, in order. -/
def kindNames : List String :=
  ["null", "none", "marker", "na", "remove", "bool", "int", "float", "number",
    "str", "ref", "uri", "symbol", "date", "time", "dateTime", "coord", "xstr",
    "buf", "nominal", "list", "dict", "grid"]

/-- The fields of a variant. -/
def fieldNames : String → List String
  | "bool" | "int" | "str" | "uri" | "symbol" | "date" => ["value"]
  | "float" => ["bits"]
  | "number" => ["bits", "unit"]
  | "ref" => ["value", "display"]
  | "time" => ["seconds", "nanos"]
  | "dateTime" => ["seconds", "nanos", "offset", "timezone"]
  | "coord" => ["lat", "lng"]
  | "xstr" => ["name", "value"]
  | "buf" => ["base64"]
  | "nominal" => ["spec", "catalog", "revision", "value"]
  | "list" => ["items"]
  | "dict" => ["tags"]
  | "grid" => ["meta", "cols", "rows"]
  | _ => []

/-- The variant that a tag names.  Below the first level the library has buffered
the value, and then it also takes the index of a variant. -/
def variantName (nested : Bool) : Json → Except TypedPayloadError String
  | .string name => if name ∈ kindNames then .ok name else .error .malformed
  | .number (.unsigned index) =>
    match kindNames[index.toNat]? with
    | some name => if nested then .ok name else .error .malformed
    | .none => .error .malformed
  | _ => .error .malformed

/-- The tag of a value and what is left of it. -/
def splitTag (nested : Bool) : Json → Except TypedPayloadError (String × Json)
  | .object fields =>
    match Assoc.lookup "kind" fields with
    | some tag => do
      let name ← variantName nested tag
      .ok (name, .object (fields.filter fun field => field.1 ≠ "kind"))
    | .none => .error .malformed
  | .array (tag :: rest) => do
    let name ← variantName nested tag
    .ok (name, .array rest)
  | _ => .error .malformed

/-- The fields of a structure, by name or by position, without others. -/
def structFields (names : List String) : Json → Except TypedPayloadError (String → Option Json)
  | .object fields =>
    if fields.all fun field => names.contains field.1 then
      .ok fun name => Assoc.lookup name fields
    else .error .malformed
  | .array items =>
    if items.length = names.length then
      .ok fun name => (names.zip items).lookup name
    else .error .malformed
  | _ => .error .malformed

def asBool : Option Json → Except TypedPayloadError Bool
  | some (.bool value) => .ok value
  | _ => .error .malformed

def asString : Option Json → Except TypedPayloadError String
  | some (.string text) => .ok text
  | _ => .error .malformed

def asOption : Option Json → Except TypedPayloadError (Option String)
  | some (.string text) => .ok (some text)
  | some .null => .ok .none
  | .none => .ok .none
  | _ => .error .malformed

def asU32 : Option Json → Except TypedPayloadError Nat
  | some (.number (.unsigned value)) =>
    if value.toNat < 2 ^ 32 then .ok value.toNat else .error .malformed
  | _ => .error .malformed

def asI32 : Option Json → Except TypedPayloadError Int
  | some (.number (.unsigned value)) =>
    if value.toNat < 2 ^ 31 then .ok value.toNat else .error .malformed
  | some (.number (.signed value)) =>
    if -2 ^ 31 ≤ value.toInt ∧ value.toInt < 2 ^ 31 then .ok value.toInt
    else .error .malformed
  | _ => .error .malformed

section Trees

variable (child : Json → Except TypedPayloadError WireValue)

def asArray (item : Json → Except TypedPayloadError α) :
    Option Json → Except TypedPayloadError (List α)
  | some (.array items) => items.mapM item
  | _ => .error .malformed

def asTags : Option Json → Except TypedPayloadError (List (String × WireValue))
  | some (.object fields) => (fields.mapM (onValue child)).map Assoc.ofList
  | _ => .error .malformed

def asColumn (json : Json) : Except TypedPayloadError (String × List (String × WireValue)) := do
  let field ← structFields ["name", "meta"] json
  let name ← asString (field "name")
  let colMeta ← asTags child (field "meta")
  .ok (name, colMeta)

/-- A variant from its fields. -/
def variant (field : String → Option Json) : String → Except TypedPayloadError WireValue
  | "null" => .ok .null
  | "none" => .ok .none
  | "marker" => .ok .marker
  | "na" => .ok .na
  | "remove" => .ok .remove
  | "bool" => (asBool (field "value")).map .bool
  | "int" => (asString (field "value")).map .int
  | "float" => (asString (field "bits")).map .float
  | "number" => do
    let bits ← asString (field "bits")
    let unit ← asOption (field "unit")
    .ok (.number bits unit)
  | "str" => (asString (field "value")).map .str
  | "ref" => do
    let value ← asString (field "value")
    let display ← asOption (field "display")
    .ok (.ref value display)
  | "uri" => (asString (field "value")).map .uri
  | "symbol" => (asString (field "value")).map .symbol
  | "date" => (asString (field "value")).map .date
  | "time" => do
    let seconds ← asU32 (field "seconds")
    let nanos ← asU32 (field "nanos")
    .ok (.time seconds nanos)
  | "dateTime" => do
    let seconds ← asString (field "seconds")
    let nanos ← asU32 (field "nanos")
    let offset ← asI32 (field "offset")
    let timezone ← asString (field "timezone")
    .ok (.dateTime seconds nanos offset timezone)
  | "coord" => do
    let lat ← asString (field "lat")
    let lng ← asString (field "lng")
    .ok (.coord lat lng)
  | "xstr" => do
    let name ← asString (field "name")
    let value ← asString (field "value")
    .ok (.xstr name value)
  | "buf" => (asString (field "base64")).map .buf
  | "nominal" => do
    let spec ← asString (field "spec")
    let catalog ← asString (field "catalog")
    let revision ← asString (field "revision")
    let value ← asString (field "value")
    .ok (.nominal spec catalog revision value)
  | "list" => (asArray child (field "items")).map .list
  | "dict" => (asTags child (field "tags")).map .dict
  | "grid" => do
    let gridMeta ← asTags child (field "meta")
    let cols ← asArray (asColumn child) (field "cols")
    let rows ← asArray (fun row => asTags child (some row)) (field "rows")
    .ok (.grid gridMeta cols rows)
  | _ => .error .malformed

end Trees

/-- Deserialize a value of at most some levels. -/
def deserializeAt : Nat → Bool → Json → Except TypedPayloadError WireValue
  | 0, _, _ => .error .malformed
  | levels + 1, nested, json => do
    let (name, content) ← splitTag nested json
    let field ← structFields (fieldNames name) content
    variant (deserializeAt levels true) field name

mutual

/-- The levels of a JSON value. -/
def height : Json → Nat
  | .array items => heightItems items + 1
  | .object fields => heightFields fields + 1
  | _ => 1

def heightItems : List Json → Nat
  | [] => 0
  | item :: rest => max (height item) (heightItems rest)

def heightFields : List (String × Json) → Nat
  | [] => 0
  | (_, value) :: rest => max (height value) (heightFields rest)

end

/-- Deserialize a value. -/
def deserialize (json : Json) : Except TypedPayloadError WireValue :=
  deserializeAt (height json) false json

/-- The version of a document. -/
def version : Json → Option Nat
  | .object fields =>
    match Assoc.lookup "version" fields with
    | some (.number (.unsigned value)) =>
      if value.toNat < 2 ^ 32 then some value.toNat else .none
    | _ => .none
  | _ => .none

def deserializeEnvelope (json : Json) : Except TypedPayloadError WireValue := do
  let field ← structFields ["version", "value"] json
  let _ ← asU32 (field "version")
  match field "value" with
  | some value => deserialize value
  | .none => .error .malformed

/-! ## The codec -/

section Codec

variable (formats : Formats) (reader : JsonReader)

def encode (value : Kind) : Except TypedPayloadError (List UInt8) := do
  match (Graph.ValueBudget.new 4000000 (32 * 1024 * 1024) 64).value 0 value with
  | .none => .error (.invalid "typed encoding input exceeds limits")
  | some _ =>
    let wire ← toWire formats 0 value
    let bytes := docBytes (envelope wire)
    let _ ← boundedJson .default reader bytes
    .ok bytes

def decodeWithLimits (bytes : List UInt8) (limits : PayloadLimits) :
    Except TypedPayloadError Kind := do
  let json ← boundedJson limits reader bytes
  match version json with
  | .none => .error (.invalid "version must be a u32")
  | some version =>
    if version ≠ 1 then .error (.unsupportedVersion version)
    else do
      let wire ← deserializeEnvelope json
      fromWire formats wire

def decode (bytes : List UInt8) : Except TypedPayloadError Kind :=
  decodeWithLimits formats reader bytes .default

end Codec
end Typed
end Codecs
end Haystack
