import Haystack.Codecs.Projection
import Haystack.Collections.Loop

/-!
# JSON values and codecs

The values of the JSON library.  An object is a map from field names to values,
kept in the order of the names.

The two JSON codecs walk values in the same way and differ in a `Layout`.
Decoding recurses with the levels that are left (`room`): the source counts levels
up to `maxNestingDepth`, and an object takes two of them.
-/

namespace Haystack
namespace Codecs

open Collections

/-- A JSON number. -/
inductive JsonNumber
  | unsigned (value : UInt64)
  | signed (value : Int64)
  | float (value : F64)
  deriving DecidableEq, Repr

/-- A JSON value. -/
inductive Json
  | null
  | bool (value : Bool)
  | number (value : JsonNumber)
  | string (value : String)
  | array (items : List Json)
  | object (fields : List (String × Json))
  deriving Repr

/-- A number as a binary64 value. -/
def JsonNumber.asF64 (formats : Formats) : JsonNumber → F64
  | .unsigned value => formats.ofUnsigned value
  | .signed value => formats.ofSigned value
  | .float value => value

/-- Insert fields into an empty object. -/
def Json.ofFields (fields : List (String × Json)) : Json := .object (Assoc.ofList fields)

/-! ## Encoding -/

/-- What distinguishes the two JSON codecs: the JSON of scalars, columns and
grids, and how strings and objects are read. -/
structure Layout where
  formats : Formats
  /-- Encode a value that is no list, dictionary or grid. -/
  encodeScalar : Kind → Except CodecError Json
  /-- The object of a column with its encoded meta. -/
  columnObj : String → List (String × Json) → Json
  /-- The fields of a grid with its encoded meta, columns and rows. -/
  gridFields : List (String × Json) → List Json → List Json → List (String × Json)
  decodeString : String → Except CodecError Kind
  /-- Decode an object, with a decoder for the values one level below it. -/
  decodeObject : (Json → Except CodecError Kind) → List (String × Json) → Except CodecError Kind

namespace Layout

variable (layout : Layout)

mutual

def encodeKind : Kind → Except CodecError Json
  | .list items => do
    ensureH4 (.list items)
    let arr ← encodeItems items
    .ok (.array arr)
  | .dict tags => do
    ensureH4 (.dict tags)
    let fields ← encodeDict tags
    .ok (.ofFields fields)
  | .grid gridMeta cols rows => do
    ensureH4 (.grid gridMeta cols rows)
    ensureH4Grid gridMeta cols rows
    let gridMeta ← encodeDict gridMeta
    let cols ← encodeColumns cols
    let rows ← encodeRows rows
    .ok (.object (layout.gridFields gridMeta cols rows))
  | scalar => do
    ensureH4 scalar
    layout.encodeScalar scalar

def encodeItems : List Kind → Except CodecError (List Json)
  | [] => .ok []
  | value :: rest => do
    let first ← encodeKind value
    let others ← encodeItems rest
    .ok (first :: others)

/-- Encode the tags of a dictionary. -/
def encodeDict : List (String × Kind) → Except CodecError (List (String × Json))
  | [] => .ok []
  | (tag, value) :: rest => do
    let first ← encodeKind value
    let others ← encodeDict rest
    .ok ((tag, first) :: others)

def encodeColumns : List (String × List (String × Kind)) → Except CodecError (List Json)
  | [] => .ok []
  | (name, colMeta) :: rest => do
    let colMeta ← encodeDict colMeta
    let others ← encodeColumns rest
    .ok (layout.columnObj name colMeta :: others)

def encodeRows : List (List (String × Kind)) → Except CodecError (List Json)
  | [] => .ok []
  | row :: rest => do
    let fields ← encodeDict row
    let others ← encodeRows rest
    .ok (.ofFields fields :: others)

end

/-- Encode a grid. -/
def encodeGridValue (grid : HGrid) : Except CodecError (List (String × Json)) := do
  ensureH4Grid grid.gridMeta grid.cols grid.rows
  let gridMeta ← layout.encodeDict grid.gridMeta
  let cols ← layout.encodeColumns grid.cols
  let rows ← layout.encodeRows grid.rows
  .ok (layout.gridFields gridMeta cols rows)

end Layout

/-! ## Decoding -/

/-- The error of a value below the nesting limit. -/
def tooDeep : CodecError := .parse 0 "maximum nesting depth exceeded"

/-- Decode a value with the levels that are left. -/
def Layout.decodeKindAt (layout : Layout) : Nat → Json → Except CodecError Kind
  | 0, _ => .error tooDeep
  | _ + 1, .null => .ok .null
  | _ + 1, .bool value => .ok (.bool value)
  | _ + 1, .number n => .ok (.number ⟨n.asF64 layout.formats, none⟩)
  | _ + 1, .string text => layout.decodeString text
  | room + 1, .array arr => (arr.mapM (decodeKindAt layout room)).map .list
  | 1, .object _ => .error tooDeep
  | room + 2, .object fields =>
    layout.decodeObject (decodeKindAt layout room) fields

/-- Decode the fields of an object into a dictionary. -/
def decodeEntries (child : Json → Except CodecError Kind)
    (fields : List (String × Json)) : Except CodecError (List (String × Kind)) :=
  (fields.mapM (onValue child)).map Assoc.ofList

/-- Decode the items of an array field, which is empty when it is no array. -/
def decodeArray (item : Json → Except CodecError α) : Option Json → Except CodecError (List α)
  | some (.array arr) => arr.mapM item
  | _ => .ok []

/-- Decode a row. -/
def decodeRow (child : Json → Except CodecError Kind) :
    Json → Except CodecError (List (String × Kind))
  | .object fields => decodeEntries child fields
  | _ => .error (.parse 0 "row must be a JSON object")

/-- Decode the meta of a grid, without one of its fields. -/
def decodeGridMeta (skip : String) (child : Json → Except CodecError Kind) :
    Option Json → Except CodecError (List (String × Kind))
  | some (.object fields) =>
    decodeEntries child (fields.filter fun field => field.1 ≠ skip)
  | _ => .ok []

/-- Decode a grid from its fields. -/
def decodeGridFields (skip : String) (child : Json → Except CodecError Kind)
    (column : Json → Except CodecError (String × List (String × Kind)))
    (fields : List (String × Json)) : Except CodecError HGrid := do
  let gridMeta ← decodeGridMeta skip child (Assoc.lookup "meta" fields)
  let cols ← decodeArray column (Assoc.lookup "cols" fields)
  let rows ← decodeArray (decodeRow child) (Assoc.lookup "rows" fields)
  .ok ⟨gridMeta, cols, rows⟩

/-- Read a text, or fail with a message. -/
def readText (read : List Char → Option α) (message : String)
    (text : List Char) : Except CodecError α :=
  match read text with
  | some value => .ok value
  | none => .error (.parse 0 message)

/-- A time with an optional fraction of a second. -/
def parseTime (formats : Formats) (text : List Char) : Option NaiveTime :=
  (formats.parseTime .fraction text).or (formats.parseTime .seconds text)

/-- Refuse the lower-case separator of date and time. -/
def rejectLowercaseTSeparator (text : List Char) : Except CodecError Unit :=
  if (utf8Bytes text)[10]? = some 0x74 then
    .error (.parse 10 ("invalid datetime: separator must be an uppercase 'T'; " ++
      "a lowercase 't' is not valid Haystack"))
  else .ok ()

/-- The separator of a printed datetime is upper case. -/
theorem rejectLowercaseTSeparator_dateTime (formats : Formats) {value : DateTime}
    (short : value.localDate.hasShortYear = true) :
    rejectLowercaseTSeparator (formats.dateTime value) = .ok () := by
  have width := utf8Length_of_isYmd (formats.isYmd_ymd _ short)
  have separator : (utf8Bytes (formats.dateTime value))[10]? = some 0x54 := by
    unfold Formats.dateTime dateTimeText
    rw [List.append_assoc, List.append_assoc, utf8Bytes_append,
      List.getElem?_append_right, length_utf8Bytes, width]
    · rfl
    · rw [length_utf8Bytes, width]
  unfold rejectLowercaseTSeparator
  rw [separator]
  rfl

end Codecs
end Haystack
