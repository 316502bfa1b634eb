import Haystack.App.Types

/-!
# Authorized projections

What a caller sees of a record under a policy snapshot.  A tag is shown if the
policy allows it and every reference nested in its value; what is nested in a
shown value is filtered by the tags of its owner.  Metering is left out: an
exhausted budget ends a request with its error.
-/

namespace Haystack
namespace App

inductive ReadOperation
  | read
  | nav
  | definitions
  | libraries
  | specs
  | spec
  | changes
  | history
  | subscriptions
  deriving DecidableEq

inductive CatalogKind
  | definition
  | library
  | spec
  deriving DecidableEq

/-- The read rules of one principal. -/
structure PolicySnapshot where
  scopeKey : String
  operation : ReadOperation → Bool
  entity : String → Bool
  tag : String → String → Bool
  reference : String → Bool
  referenceDisplay : String → Bool
  catalog : CatalogKind → String → Bool
  nominalProvenance : NominalScalar → Bool

/-- `str::split_once` at a double colon. -/
def splitColons : List Char → Option (List Char × List Char)
  | [] => none
  | ':' :: ':' :: rest => some ([], rest)
  | c :: rest => (splitColons rest).map fun (left, right) => (c :: left, right)

namespace PolicySnapshot

variable (policy : PolicySnapshot)

/-- The library of a qualified catalog name, if both of its parts are given. -/
def catalogReference (tag : String) (value : Kind) : Option (String × String) :=
  if tag = "spec" ∨ tag = "of" then
    match value with
    | .ref r =>
      match splitColons r.val.toList with
      | some (library, name) =>
        if library.isEmpty || name.isEmpty then none
        else some (r.val, String.ofList library)
      | none => none
    | _ => none
  else none

/-- A nominal scalar shows its declaration, library and provenance. -/
def nominalVisible (value : NominalScalar) : Bool :=
  policy.catalog .spec value.spec && (match splitColons value.spec.toList with
      | some (library, _) => policy.catalog .library (String.ofList library)
      | none => false) &&
    policy.nominalProvenance value

/-- A tag whose value is a catalog reference follows catalog visibility, and any
other one the visibility of its value. -/
def memberVisible (tag : String) (value : Kind) (visible : Bool) : Bool :=
  match catalogReference tag value with
  | some (qname, library) =>
    policy.catalog .spec qname && policy.catalog .library library
  | none => visible

mutual

/-- Every identity nested in a value is visible. -/
def visible (ownId : Bool) : Kind → Bool
  | .ref r => ownId || (policy.entity r.val && policy.reference r.val)
  | .nominal value => policy.nominalVisible value
  | .list items => visibleItems items
  | .dict tags => visitDict tags
  | .grid gridMeta cols rows =>
    visitDict gridMeta && visitColumns cols && visitRows rows
  | _ => true

def visibleItems : List Kind → Bool
  | [] => true
  | value :: rest => visible false value && visibleItems rest

def visitDict : List (String × Kind) → Bool
  | [] => true
  | (tag, value) :: rest =>
    policy.memberVisible tag value (visible false value) && visitDict rest

def visitColumns : List (String × List (String × Kind)) → Bool
  | [] => true
  | (_, colMeta) :: rest => visitDict colMeta && visitColumns rest

def visitRows : List (List (String × Kind)) → Bool
  | [] => true
  | row :: rest => visitDict row && visitRows rest

end

mutual

/-- A value as its owner's tags allow it. -/
def copyValue (owner : String) : Kind → Kind
  | .ref r =>
    .ref ⟨r.val, if policy.referenceDisplay r.val then r.dis else none⟩
  | .list items => .list (copyItems owner items)
  | .dict tags => .dict (copyDict owner tags)
  | .grid gridMeta cols rows =>
    .grid (copyDict owner gridMeta) (copyColumns owner cols) (copyRows owner rows)
  | value => value

def copyItems (owner : String) : List Kind → List Kind
  | [] => []
  | value :: rest => copyValue owner value :: copyItems owner rest

def copyDict (owner : String) : List (String × Kind) → List (String × Kind)
  | [] => []
  | (tag, value) :: rest =>
    if policy.tag owner tag then
      (tag, copyValue owner value) :: copyDict owner rest
    else copyDict owner rest

def copyColumns (owner : String) :
    List (String × List (String × Kind)) → List (String × List (String × Kind))
  | [] => []
  | (name, colMeta) :: rest =>
    if policy.tag owner name then
      (name, copyDict owner colMeta) :: copyColumns owner rest
    else copyColumns owner rest

def copyRows (owner : String) : List (List (String × Kind)) → List (List (String × Kind))
  | [] => []
  | row :: rest => copyDict owner row :: copyRows owner rest

end

/-- The tag is the reference of a record to itself. -/
def isOwnId (id tag : String) : Kind → Bool
  | .ref r => tag = "id" && r.val = id
  | _ => false

/-- A tag of a record is shown. -/
def showsTag (id tag : String) (value : Kind) : Bool := policy.tag id tag &&
    policy.memberVisible tag value (policy.visible (isOwnId id tag value) value)

/-- What the policy shows of a record. -/
def record (id : String) (raw : HDict) : Option HDict :=
  if !policy.entity id then none
  else
    some (raw.iter.foldl (fun out (tag, value) =>
        if policy.showsTag id tag value then
          out.set tag (policy.copyValue id value)
        else out)
      .new)

end PolicySnapshot
end App
end Haystack
