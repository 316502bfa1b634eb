import Haystack.Kinds

/-!
# Strict catalogs

A selected catalog with its compiled declarations, and the fitting of native
records to them.  Fitting follows references through the records of its caller
and stops at a fixed depth.  What a caller's budget may cut short is left out:
an exhausted budget ends the fitting with its own error.
-/

namespace Haystack
namespace Xeto

open Std (ExtTreeMap)

/-! ## Declarations -/

/-- A compiled pattern is the set of the texts it matches. -/
structure Constraints where
  patterns : List (String → Bool)
  min : Option Int64
  max : Option Int64

structure Slot where
  typeRef : Option String
  slotMeta : ExtTreeMap String Kind

def Slot.isMaybe (slot : Slot) : Bool := slot.slotMeta.contains "maybe"

def slotType (slot : Slot) : String := slot.typeRef.getD "sys::Marker"

structure CompiledSlot where
  slot : Slot
  constraints : Constraints

structure CompiledType where
  slots : ExtTreeMap String CompiledSlot
  constraints : Constraints

/-- Where a declaration comes from. -/
structure ProfileSource where
  role : String
  path : String
  sha256 : String
  deriving DecidableEq

/-- A declaration.  `content` is what its text says apart from its base. -/
structure Spec where
  base : Option String
  content : String
  deriving DecidableEq

structure AdmittedSpec where
  source : ProfileSource
  spec : Spec

structure Provenance where
  repository : String
  commit : String
  deriving DecidableEq

structure Catalog where
  provenance : Provenance
  libraries : List String
  specs : ExtTreeMap String AdmittedSpec
  enums : ExtTreeMap String (List String)
  markerBindings : ExtTreeMap String String
  compiled : ExtTreeMap String CompiledType

namespace Catalog

variable (catalog : Catalog)

def declaration (qname : String) : Option AdmittedSpec := catalog.specs[qname]?

/-- The loop of `derives_from`, with `steps` bases left to follow. -/
def derivesWithin (expected : String) : Nat → Option String → Bool
  | 0, _ => false
  | _ + 1, none => false
  | steps + 1, some name =>
    name = expected || derivesWithin expected steps
        (catalog.specs[name]?.bind fun entry => entry.spec.base)

def derivesFrom (actual expected : String) : Bool :=
  catalog.derivesWithin expected (catalog.specs.size + 1) (some actual)

/-- The text of a nominal value of this very catalog. -/
def nominalText (qname : String) (value : Kind) : Option String :=
  match value with
  | .nominal n =>
    if n.spec = qname ∧ n.catalog = catalog.provenance.repository ∧
        n.revision = catalog.provenance.commit then some n.text
    else none
  | _ => none

end Catalog

/-! ## Fitting -/

/-- `uncompiled` stands for the lookup of a declaration that was not compiled. -/
inductive FitError
  | invalid (slot expected message : String)
  | uncompiled (qname : String)
  deriving DecidableEq

def check (condition : Bool) (failure : FitError) : Except FitError Unit :=
  if condition then .ok () else .error failure

def isNull : Kind → Bool
  | .null => true
  | _ => false

/-- The dictionary of nested tags. -/
def ofTags (tags : List (String × Kind)) : HDict :=
  ⟨tags.foldl (fun map tag => map.insert tag.1 tag.2) ∅⟩

/-- The references that are being followed, with the type each must have. -/
abbrev Active := List (String × String)

/-- The functions of the fitter at one depth. -/
structure Fitter where
  dict : String → HDict → String → Active → Except FitError Unit
  value : String → Kind → String → Active → Except FitError Unit
  of : String → Kind → String → Active → Except FitError Unit
  extension : Kind → String → Active → Except FitError Unit

/-- Every function of the fitter checks its depth first. -/
def tooDeep : FitError := .invalid "catalog" "bounded selected value" "value depth exceeded"

def Fitter.exhausted : Fitter where
  dict _ _ _ _ := .error tooDeep
  value _ _ _ _ := .error tooDeep
  of _ _ _ _ := .error tooDeep
  extension _ _ _ := .error tooDeep

/-- The text of a value that patterns apply to. -/
def constrainedText : Kind → Option String
  | .str value => some value
  | .ref value => some value.val
  | .nominal value => some value.text
  | .bool value => some (if value then "true" else "false")
  | .marker => some "✓"
  | .none => some "∅"
  | _ => none

def outsideBounds (constraints : Constraints) : Kind → Bool
  | .int value =>
    constraints.min.any (fun min => value < min) || constraints.max.any (fun max => max < value)
  | _ => false

def fitConstraints (constraints : Constraints) (value : Kind)
    (path qname : String) : Except FitError Unit := do
  check (!outsideBounds constraints value)
    (.invalid path qname "integer is outside selected bounds")
  check ((constrainedText value).all fun text =>
      constraints.patterns.all fun pattern => pattern text)
    (.invalid path qname "scalar text does not match selected pattern")

def child (path slot : String) : String := path ++ "." ++ slot

namespace Catalog

variable (catalog : Catalog)

/-- The type a record is fitted to: its structural spec, if it has one. -/
def structuralSpec (expected : String) (row : HDict) (path : String) : Except FitError String :=
  match row.get "spec" with
  | none => .ok expected
  | some .null => .ok expected
  | some (.ref spec) =>
    if catalog.derivesFrom spec.val expected &&
        (catalog.declaration spec.val).isSome then .ok spec.val
    else .error (.invalid path expected "structural spec is unknown or incompatible")
  | some _ => .error (.invalid path expected "structural spec is unknown or incompatible")

/-- The target of an `of` constraint. -/
def fitTarget (deeper : Fitter) (slot : Slot) (value : Kind) (path : String)
    (active : Active) : Except FitError Unit :=
  match slot.slotMeta["of"]? with
  | some (.ref of) => deeper.of of.val value path active
  | _ => .ok ()

def fitSlot (deeper : Fitter) (row : HDict) (path : String) (active : Active)
    (field : String × CompiledSlot) : Except FitError Unit :=
  let slot := field.2.slot
  let path := child path field.1
  match row.get field.1 with
  | none => check slot.isMaybe (.invalid path (slotType slot) "missing required slot")
  | some value =>
    if isNull value && slot.isMaybe then .ok ()
    else do
      deeper.value (slotType slot) value path active
      fitConstraints field.2.constraints value path (slotType slot)
      fitTarget deeper slot value path active

/-- Undeclared tags stay open, apart from the structure inside them. -/
def fitExtra (deeper : Fitter) (compiled : CompiledType) (path : String) (active : Active)
    (tag : String × Kind) : Except FitError Unit :=
  if tag.1 = "spec" ∨ compiled.slots.contains tag.1 then .ok ()
  else deeper.extension tag.2 (child path tag.1) active

def compiledType (qname : String) : Except FitError CompiledType :=
  match catalog.compiled[qname]? with
  | some compiled => .ok compiled
  | none => .error (.uncompiled qname)

def fitDict (deeper : Fitter) (expected : String) (row : HDict) (path : String)
    (active : Active) : Except FitError Unit := do
  check (catalog.derivesFrom expected "sys::Dict")
    (.invalid path expected "expected an admitted Dict declaration")
  let actual ← catalog.structuralSpec expected row path
  let compiled ← catalog.compiledType actual
  compiled.slots.toList.forM (fitSlot deeper row path active)
  row.iter.forM (fitExtra deeper compiled path active)

def isCollection : Kind → Bool
  | .list _ => true
  | .dict _ => true
  | .grid _ _ _ => true
  | _ => false

/-- A zone name of a datetime. -/
def zoneName (name : String) : Bool :=
  !name.isEmpty && name.toList.all fun c => c.isAlphanum || "_+-".contains c

/-- The keys of an enumeration contain a text of this catalog. -/
def enumHas (qname : String) (keys : List String) (value : Kind) : Bool :=
  (catalog.nominalText qname value).any keys.contains

/-- Types that one kind of value has. -/
def nativeTypes : List String :=
  ["sys::Int", "sys::Number", "sys::Marker", "sys::None", "sys::Bool",
    "sys::Str", "sys::Ref", "sys::Uri", "sys::List", "sys::Grid"]

def nativeType : Kind → Option String
  | .int _ => some "sys::Int"
  | .number _ => some "sys::Number"
  | .marker => some "sys::Marker"
  | .none => some "sys::None"
  | .bool _ => some "sys::Bool"
  | .str _ => some "sys::Str"
  | .ref _ => some "sys::Ref"
  | .uri _ => some "sys::Uri"
  | .list _ => some "sys::List"
  | .grid _ _ _ => some "sys::Grid"
  | _ => none

def fitsDateTime : Kind → Bool
  | .dateTime time => zoneName time.tzName
  | _ => false

def fitsEnum (value : Kind) : Bool :=
  match value with
  | .nominal n =>
    (catalog.enums[n.spec]?).any fun keys => catalog.enumHas n.spec keys value
  | _ => false

def fitsApiVersion : Kind → Bool
  | .str text => !text.isEmpty && text.toList.all Char.isDigit
  | _ => false

/-- A nominal scalar, with a key of its type if that is an enumeration. -/
def fitsNominal (qname : String) (value : Kind) : Bool :=
  (catalog.nominalText qname value).any fun text =>
    (catalog.enums[qname]?).all fun keys => keys.contains text

/-- The kind of a value agrees with a type that is no dictionary. -/
def fitsKind (qname : String) (value : Kind) : Bool :=
  if qname = "sys::Obj" then true
  else if qname = "sys::Scalar" then !isCollection value
  else if qname = "sys::Collection" then isCollection value
  else if nativeTypes.contains qname then nativeType value = some qname
  else if qname = "sys::DateTime" then fitsDateTime value
  else if qname = "sys::Enum" then catalog.fitsEnum value
  else if qname = "sys.api::ApiVersion" then fitsApiVersion value
  else if catalog.derivesFrom qname "sys::Ref" then
    nativeType value = some "sys::Ref"
  else if catalog.derivesFrom qname "sys::Scalar" then
    catalog.fitsNominal qname value
  else false

/-- Types whose values may nest structure of their own. -/
def openTypes : List String :=
  ["sys::Obj", "sys::Collection", "sys::List", "sys::Grid", "sys::Scalar"]

def fitNative (deeper : Fitter) (compiled : CompiledType) (qname : String) (value : Kind)
    (path : String)
    (active : Active) : Except FitError Unit := do
  check (catalog.fitsKind qname value)
    (.invalid path qname "native kind or nominal identity does not fit")
  fitConstraints compiled.constraints value path qname
  if openTypes.contains qname then deeper.extension value path active else .ok ()

/-- A dictionary value stays at its depth: `dict` is the function of this one. -/
def fitValue (dict : String → HDict → String → Active → Except FitError Unit)
    (deeper : Fitter) (qname : String) (value : Kind) (path : String)
    (active : Active) : Except FitError Unit :=
  match catalog.compiled[qname]? with
  | none => .error (.invalid path qname "type is not admitted")
  | some compiled =>
    if isNull value then
      .error (.invalid path qname "null is not admitted here")
    else if catalog.derivesFrom qname "sys::Dict" then
      match value with
      | .dict tags => dict qname (ofTags tags) path active
      | _ => .error (.invalid path qname "expected native Dict")
    else catalog.fitNative deeper compiled qname value path active

/-- A reference to a record.  One that is already being followed is not followed
again. -/
def fitReference (record : HRef → Option HDict) (deeper : Fitter) (target : String)
    (reference : HRef) (path : String)
    (active : Active) : Except FitError Unit :=
  match record reference with
  | none => .error (.invalid path target "entity reference does not resolve")
  | some row =>
    match row.get "spec" with
    | some (.ref actual) => do
      check (catalog.derivesFrom actual.val target && (catalog.declaration actual.val).isSome)
        (.invalid path target "entity reference target spec is incompatible")
      check (row.id.any fun id => id.val = reference.val)
        (.invalid path target "entity reference identity does not match")
      if active.contains (reference.val, target) then .ok ()
      else deeper.dict target row path ((reference.val, target) :: active)
    | _ => .error (.invalid path target "entity reference target has no structural spec")

def fitOf (record : HRef → Option HDict) (deeper : Fitter) (target : String)
    (value : Kind) (path : String)
    (active : Active) : Except FitError Unit :=
  match value with
  | .ref reference =>
    if target = "sys::Spec" then
      check (catalog.declaration reference.val).isSome
        (.invalid path target "catalog reference does not resolve")
    else catalog.fitReference record deeper target reference path active
  | .list items => items.forM fun item => deeper.value target item path active
  | .grid _ _ rows =>
    rows.forM fun row => deeper.dict target (ofTags row) path active
  | _ => .error (.invalid path target "of constraint requires Ref, List, or Grid")

def fitExtension (deeper : Fitter) (value : Kind) (path : String)
    (active : Active) : Except FitError Unit :=
  match value with
  | .dict tags => deeper.dict "sys::Dict" (ofTags tags) path active
  | .list items => items.forM fun item => deeper.extension item path active
  | .grid gridMeta cols rows => do
    deeper.dict "sys::Dict" (ofTags gridMeta) path active
    cols.forM fun col => deeper.dict "sys::Dict" (ofTags col.2) path active
    rows.forM fun row => deeper.dict "sys::Dict" (ofTags row) path active
  | .nominal nominal => deeper.value nominal.spec value path active
  | _ => .ok ()

/-- The fitter with `room` depths left. -/
def fitter (record : HRef → Option HDict) : Nat → Fitter
  | 0 => .exhausted
  | room + 1 =>
    let deeper := fitter record room
    { dict := catalog.fitDict deeper
      value := catalog.fitValue (catalog.fitDict deeper) deeper
      of := catalog.fitOf record deeper
      extension := fitExtension deeper }

/-- Fit a record to a declaration, from depth 0 to depth 64. -/
def fitEntity (record : HRef → Option HDict) (qname : String)
    (row : HDict) : Except FitError Unit :=
  (catalog.fitter record 65).dict qname row qname []

end Catalog
end Xeto
end Haystack
