import Haystack.Nesting

/-!
# The boundary of the older value model

The text codecs carry the values of the older model only.  `ensureH4` walks a
value before it is encoded: it refuses the typed scalars, and values that are
nested too deeply.  Its errors name the place of what it refuses.
-/

namespace Haystack
namespace Codecs

/-- A step from a value to one that occurs in it. -/
inductive ValuePathSegment
  | tag (name : String)
  | item (index : Nat)
  | gridMeta
  | columnMeta (index : Nat)
  | row (index : Nat)
  deriving DecidableEq, Repr

/-- A location in a value. -/
abbrev ValuePath := List ValuePathSegment

/-- The errors of the codecs.  `nesting` is the encoding error that prints the
path of a value below the nesting limit. -/
inductive CodecError
  | parse (pos : Nat) (message : String)
  | encode (message : String)
  | nesting (path : ValuePath)
  | unsupportedKind
  | unprojected (path : ValuePath)
  deriving DecidableEq, Repr

/-- The deepest level at which a value is encoded. -/
def maxNestingDepth : Nat := 64

/-- Refuse a value below the nesting limit. -/
def checkDepth (path : ValuePath) (depth : Nat) : Except CodecError Unit :=
  if depth > maxNestingDepth then .error (.nesting path) else .ok ()

mutual

/-- Walk a value. -/
def visit (path : ValuePath) (depth : Nat) : Kind → Except CodecError Unit
  | .int _ | .float _ | .none | .buf _ | .nominal _ => do
    checkDepth path depth
    .error (.unprojected path)
  | .list items => do
    checkDepth path depth
    visitItems path depth 0 items
  | .dict tags => do
    checkDepth path depth
    visitDict path depth tags
  | .grid gridMeta cols rows => do
    checkDepth path depth
    visitDict (path ++ [.gridMeta]) (depth + 1) gridMeta
    visitColumns path depth 0 cols
    visitRows path depth 0 rows
  | _ => checkDepth path depth

/-- Walk the items of a list, from an index on. -/
def visitItems (path : ValuePath) (depth index : Nat) :
    List Kind → Except CodecError Unit
  | [] => .ok ()
  | value :: rest => do
    visit (path ++ [.item index]) (depth + 1) value
    visitItems path depth (index + 1) rest

/-- Walk the tags of a dictionary. -/
def visitDict (path : ValuePath) (depth : Nat) :
    List (String × Kind) → Except CodecError Unit
  | [] => .ok ()
  | (tag, value) :: rest => do
    visit (path ++ [.tag tag]) (depth + 1) value
    visitDict path depth rest

/-- Walk the columns of a grid, from an index on. -/
def visitColumns (path : ValuePath) (depth index : Nat) :
    List (String × List (String × Kind)) → Except CodecError Unit
  | [] => .ok ()
  | (_, colMeta) :: rest => do
    visitDict (path ++ [.columnMeta index]) (depth + 1) colMeta
    visitColumns path depth (index + 1) rest

/-- Walk the rows of a grid, from an index on. -/
def visitRows (path : ValuePath) (depth index : Nat) :
    List (List (String × Kind)) → Except CodecError Unit
  | [] => .ok ()
  | row :: rest => do
    visitDict (path ++ [.row index]) (depth + 1) row
    visitRows path depth (index + 1) rest

end

def ensureH4 (value : Kind) : Except CodecError Unit := visit [] 0 value

def ensureH4Dict (tags : List (String × Kind)) : Except CodecError Unit := visitDict [] 0 tags

def ensureH4Grid
    (gridMeta : List (String × Kind))
    (cols : List (String × List (String × Kind)))
    (rows : List (List (String × Kind))) : Except CodecError Unit := do
  visitDict [.gridMeta] 1 gridMeta
  visitColumns [] 0 0 cols
  visitRows [] 0 0 rows

end Codecs
end Haystack
