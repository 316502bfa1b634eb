import Haystack.Kinds

/-!
# Filters

Filter expressions, and the comparison of two values.  Equality of values is the
equality of the source: references compare by value without their display name,
instants without their offset, and nested dictionaries as maps.

Whether an entity fits a spec term.  The namespace is a parameter (`Ontology`):
its term resolution, its taxonomy, the fitting of selected declarations and the
checks of one entity against the slots of a spec.  The query slots of a spec,
which walk the references of the surrounding store, are modelled as they are.
Filters are evaluated with it on one entity.
-/

namespace Haystack

/-! ## Equality of values -/

/-- Equality of datetimes: the same instant and the same zone name. -/
def HDateTime.eq (x y : HDateTime) : Bool :=
  x.dt.date = y.dt.date && x.dt.time = y.dt.time && x.tzName = y.tzName

namespace Kind

/-- Equality of two scalars; lists, dictionaries and grids are never equal. -/
def eqScalar : Kind → Kind → Bool
  | .null, .null => true
  | .none, .none => true
  | .int x, .int y => x = y
  | .float x, .float y => x = y
  | .buf x, .buf y => x = y
  | .nominal x, .nominal y => x = y
  | .marker, .marker => true
  | .na, .na => true
  | .remove, .remove => true
  | .bool x, .bool y => x = y
  | .number x, .number y => x = y
  | .str x, .str y => x = y
  | .ref x, .ref y => x.val = y.val
  | .uri x, .uri y => x = y
  | .symbol x, .symbol y => x = y
  | .date x, .date y => x = y
  | .time x, .time y => x = y
  | .dateTime x, .dateTime y => x.eq y
  | .coord x, .coord y => x = y
  | .xstr x, .xstr y => x = y
  | _, _ => false

mutual

/-- Equality of two values. -/
def eq (left right : Kind) : Bool :=
  match left with
  | .list x =>
    match right with
    | .list y => eqItems x y
    | _ => false
  | .dict x =>
    match right with
    | .dict y => x.length = y.length && eqEntries x y
    | _ => false
  | .grid xMeta xCols xRows =>
    match right with
    | .grid yMeta yCols yRows =>
      xMeta.length = yMeta.length && eqEntries xMeta yMeta &&
        eqColumns xCols yCols && eqRows xRows yRows
    | _ => false
  | scalar => eqScalar scalar right

/-- Equality of two lists of values. -/
def eqItems : List Kind → List Kind → Bool
  | [], [] => true
  | x :: xs, y :: ys => eq x y && eqItems xs ys
  | _, _ => false

/-- Every entry of the left dictionary is in the right one. -/
def eqEntries : List (String × Kind) → List (String × Kind) → Bool
  | [], _ => true
  | (name, value) :: rest, other =>
    (match other.lookup name with
      | some otherValue => eq value otherValue
      | Option.none => false) && eqEntries rest other

/-- Equality of two lists of columns. -/
def eqColumns : List (String × List (String × Kind)) → List (String × List (String × Kind)) → Bool
  | [], [] => true
  | (name, colMeta) :: rest, (otherName, otherMeta) :: others =>
    name = otherName && colMeta.length = otherMeta.length &&
      eqEntries colMeta otherMeta && eqColumns rest others
  | _, _ => false

/-- Equality of two lists of rows. -/
def eqRows : List (List (String × Kind)) → List (List (String × Kind)) → Bool
  | [], [] => true
  | row :: rest, otherRow :: others =>
    row.length = otherRow.length && eqEntries row otherRow && eqRows rest others
  | _, _ => false

end

end Kind

namespace Filter

/-! ## The filter tree -/

inductive CmpOp
  | eq
  | ne
  | lt
  | le
  | gt
  | ge
  deriving DecidableEq, Repr

/-- A path through entity references. -/
structure Path where
  segments : List String
  deriving DecidableEq, Repr

def Path.isSingle (path : Path) : Bool := path.segments.length = 1

inductive FilterNode
  | has (path : Path)
  | missing (path : Path)
  | cmp (path : Path) (op : CmpOp) (val : Kind)
  | and (left right : FilterNode)
  | or (left right : FilterNode)
  | specMatch (spec : String)

/-! ## Comparison -/

/-- The order of two values, when they are of one orderable kind. -/
def ordering : Kind → Kind → Option Ordering
  | .number a, .number b => a.partialCmp b
  | .int a, .int b => some (compare a.toInt b.toInt)
  | .float a, .float b => a.partialCmp b
  | .str a, .str b => some (compare a b)
  | .date a, .date b => some (a.cmp b)
  | .time a, .time b => some (a.cmp b)
  | .dateTime a, .dateTime b => some (a.dt.cmp b.dt)
  | _, _ => none

/-- Ordered comparison; values that are not comparable never match. -/
def orderedCmp (actual : Kind) (op : CmpOp) (expected : Kind) : Bool :=
  match ordering actual expected with
  | some ord =>
    match op with
    | .lt => ord.isLT
    | .le => ord.isLE
    | .gt => ord.isGT
    | .ge => ord.isGE
    | _ => false
  | none => false

/-- The `==` operator: floats compare numerically, all else by equality. -/
def compareEq : Kind → Kind → Bool
  | .float a, .float b => a.partialCmp b = some .eq
  | actual, expected => actual.eq expected

end Filter

/-- Compare a value with the literal of a filter. -/
def Kind.compare (actual : Kind) (op : Filter.CmpOp) (expected : Kind) : Bool :=
  match op with
  | .eq => Filter.compareEq actual expected
  | .ne => !Filter.compareEq actual expected
  | _ => Filter.orderedCmp actual op expected

/-! ## Spec fitting -/

namespace Filter

open Std (ExtTreeMap)

/-- The parts of a slot read by query evaluation. -/
structure Slot where
  name : String
  isQuery : Bool
  isMaybe : Bool
  slotMeta : ExtTreeMap String Kind

/-- The parts of a spec read by query evaluation. -/
structure Spec where
  qname : String
  lib : String
  slots : List Slot

/-- A resolved spec term: a taxonomy symbol or a spec. -/
inductive SpecTerm
  | definition (name : String)
  | spec (spec : Spec)

/-- A shared handle: the identity of the allocation, and the value. -/
structure Arc (α : Type u) where
  ptr : Nat
  val : α

def Arc.ptrEq {α : Type u} (left right : Arc α) : Bool := left.ptr = right.ptr

/-- What a graph asks of namespaces and catalogs. -/
structure Ontology (Namespace Catalog : Type) where
  /-- `ActivatedCatalog::namespace`. -/
  catalogNamespace : Catalog → Arc Namespace
  /-- `ActivatedCatalog::rebase`, with the identity of the new namespace. -/
  rebase : Catalog → Namespace → Nat → Catalog
  /-- `DefNamespace::resolve_spec_term`. -/
  resolveSpecTerm : Namespace → String → Option SpecTerm
  /-- `DefNamespace::specs_map`. -/
  specs : Namespace → String → Option Spec
  /-- `DefNamespace::entity_is_a`. -/
  entityIsA : Namespace → HDict → String → Bool
  /-- The term names a declaration of the selected catalog. -/
  isSelected : Namespace → String → Bool
  /-- `fits_selected`, with the forward resolver of the caller. -/
  fitsSelected : Namespace → String → HDict → Option (HRef → Option HDict) → Bool
  /-- Mandatory markers, slot types and value constraints of a spec. -/
  fitsSlots : Namespace → HDict → Spec → Bool

/-- The ontology that declares nothing. -/
def Ontology.blank : Ontology Unit Unit where
  catalogNamespace _ := ⟨0, ()⟩
  rebase catalog _ _ := catalog
  resolveSpecTerm _ _ := none
  specs _ _ := none
  entityIsA _ _ _ := false
  isSelected _ _ := false
  fitsSelected _ _ _ _ := false
  fitsSlots _ _ _ := false

/-- What query evaluation may ask of the surrounding store.  `bound` limits the
iterations of a traversal; a graph gives more than a traversal needs. -/
structure QueryContext where
  forward : HRef → Option HDict
  inverse : Option (HRef → String → List HDict)
  bound : Nat

/-! ## Traversal -/

/-- The loop of `traverse_refs`, with `fuel` iterations left. -/
def traverseLoop (refTag : String) (transitive : Bool) (resolver : HRef → Option HDict) :
    Nat → List HRef → List String → List HDict → List HDict
  | 0, _, _, results => results
  | _ + 1, [], _, results => results
  | fuel + 1, ref :: queue, visited, results =>
    if visited.contains ref.val then
      traverseLoop refTag transitive resolver fuel queue visited results
    else
      match resolver ref with
      | none =>
        traverseLoop refTag transitive resolver fuel queue (ref.val :: visited) results
      | some target =>
        let queue :=
          match transitive, target.get refTag with
          | true, some (.ref next) => next :: queue
          | _, _ => queue
        traverseLoop refTag transitive resolver fuel queue
          (ref.val :: visited) (results ++ [target])

/-- Follow a ref tag from an entity, optionally transitively. -/
def traverseRefs (entity : HDict) (refTag : String) (transitive : Bool)
    (ctx : QueryContext) : List HDict :=
  let queue :=
    match entity.get refTag with
    | some (.ref r) => [r]
    | _ => []
  traverseLoop refTag transitive ctx.forward ctx.bound queue [] []

/-- The ids of the sources that are still to be visited, last one first. -/
def pushSources (visited : List String) (queue : List HRef) (sources : List HDict) : List HRef :=
  sources.foldl (fun queue source =>
      match source.get "id" with
      | some (.ref sourceId) =>
        if visited.contains sourceId.val then queue else sourceId :: queue
      | _ => queue)
    queue

/-- The loop of `traverse_refs_inverse`, with `fuel` iterations left. -/
def traverseInverseLoop (refTag : String) (transitive : Bool)
    (reverse : HRef → String → List HDict) :
    Nat → List HRef → List String → List HDict → List HDict
  | 0, _, _, results => results
  | _ + 1, [], _, results => results
  | fuel + 1, target :: queue, visited, results =>
    if visited.contains target.val then
      traverseInverseLoop refTag transitive reverse fuel queue visited results
    else
      let visited := target.val :: visited
      let sources := reverse target refTag
      if transitive then
        traverseInverseLoop refTag transitive reverse fuel
          (pushSources visited queue sources) visited (results ++ sources)
      else results ++ sources

/-- The entities that reach an entity through a ref tag. -/
def traverseRefsInverse (entity : HDict) (refTag : String) (transitive : Bool)
    (reverse : HRef → String → List HDict)
    (bound : Nat) : List HDict :=
  match entity.get "id" with
  | some (.ref start) =>
    traverseInverseLoop refTag transitive reverse bound [start] [] []
  | _ => []

/-! ## Query slots -/

/-- A string-valued entry of the meta of a slot. -/
def strMeta (slot : Slot) (key : String) : Option String :=
  match slot.slotMeta[key]? with
  | some (.str s) => some s
  | _ => none

/-- The ref tag of a `via` path, and whether it is transitive. -/
def splitVia (via : String) : String × Bool :=
  match via.toList.getLast? with
  | some '+' => (String.ofList via.toList.dropLast, true)
  | _ => (via, false)

/-- Split at the last dot. -/
def rsplitOnceDot (text : String) : Option (String × String) :=
  let reversed := text.toList.reverse
  if reversed.contains '.' then
    some (String.ofList ((reversed.dropWhile (· ≠ '.')).drop 1).reverse,
      String.ofList (reversed.takeWhile (· ≠ '.')).reverse)
  else none

/-- The ref tag and transitivity of the forward query slot an inverse names. -/
def resolveInverseVia (inverse : String)
    (specs : String → Option Spec) : Option (String × Bool) := do
  let (specQname, slotName) ← rsplitOnceDot inverse
  let target ← specs specQname
  let slot ← target.slots.find? (·.name = slotName)
  if slot.isQuery then
    let via ← strMeta slot "via"
    some (splitVia via)
  else none

variable {Namespace Catalog : Type} (ontology : Ontology Namespace Catalog)

/-- Fitting without a query context, as `fits_spec_term`. -/
def fitsSpecTerm (ns : Namespace) (entity : HDict) (term : String) : Bool :=
  if ontology.isSelected ns term then ontology.fitsSelected ns term entity none
  else
    match ontology.resolveSpecTerm ns term with
    | some (.definition name) => ontology.entityIsA ns entity name
    | some (.spec spec) => ontology.fitsSlots ns entity spec
    | none => false

/-- Whether a reached entity counts as the type named by `of`: a bare name is
looked up in the library of the enclosing spec first. -/
def fitsOf (ns : Namespace) (enclosingLib : String) (ofType : String)
    (candidate : HDict) : Bool :=
  let sibling :=
    if "::".toList <:+: ofType.toList then none
    else ontology.specs ns (enclosingLib ++ "::" ++ ofType)
  match sibling with
  | some spec => ontology.fitsSlots ns candidate spec
  | none => fitsSpecTerm ontology ns candidate ofType

/-- The entities that a query slot reaches, or `none` when the query cannot be
evaluated. -/
def slotReaches (ns : Namespace) (ctx : QueryContext) (entity : HDict)
    (via inverse : Option String) : Option (List HDict) :=
  match via, inverse with
  | some via, _ =>
    let (refTag, transitive) := splitVia via
    some (traverseRefs entity refTag transitive ctx)
  | none, some inverse => do
    let (refTag, transitive) ← resolveInverseVia inverse (ontology.specs ns)
    let reverse ← ctx.inverse
    some (traverseRefsInverse entity refTag transitive reverse ctx.bound)
  | none, none => some []

/-- One iteration of `check_query_slots`: the slot raises no issue. -/
def checkQuerySlot (ns : Namespace) (ctx : QueryContext) (entity : HDict) (spec : Spec)
    (slot : Slot) : Bool :=
  let via := strMeta slot "via"
  let inverse := strMeta slot "inverse"
  if !slot.isQuery || (via.isNone && inverse.isNone) then true
  else
    match slotReaches ontology ns ctx entity via inverse with
    | none => false
    | some found =>
      let matching :=
        match strMeta slot "of" with
        | some ofType => found.filter (fitsOf ontology ns spec.lib ofType)
        | none => found
      slot.isMaybe || !matching.isEmpty

/-- `check_query_slots` reports no issue. -/
def checkQuerySlots (ns : Namespace) (ctx : QueryContext) (entity : HDict) (spec : Spec) : Bool :=
  spec.slots.all (checkQuerySlot ontology ns ctx entity spec)

/-- Fitting with a query context. -/
def fitsSpecTermWith (ns : Namespace) (ctx : QueryContext) (entity : HDict)
    (term : String) : Bool :=
  if ontology.isSelected ns term then
    ontology.fitsSelected ns term entity (some ctx.forward)
  else
    match ontology.resolveSpecTerm ns term with
    | some (.definition name) => ontology.entityIsA ns entity name
    | some (.spec spec) =>
      ontology.fitsSlots ns entity spec && checkQuerySlots ontology ns ctx entity spec
    | none => false

/-! ## Evaluation of filters -/

/-- Walk all segments of a path but the last one along references. -/
def resolveSegments (resolve : HRef → Option HDict) (entity : HDict) : List String → Option Kind
  | [] => none
  | [last] => entity.get last
  | segment :: rest =>
    match entity.get segment with
    | some (.ref r) =>
      (resolve r).bind fun target => resolveSegments resolve target rest
    | _ => none

/-- The value at a path. -/
def resolvePath (path : Path) (entity : HDict) (ctx : QueryContext) : Option Kind :=
  resolveSegments ctx.forward entity path.segments

theorem resolvePath_single (name : String) (entity : HDict) (ctx : QueryContext) :
    resolvePath ⟨[name]⟩ entity ctx = entity.get name := rfl

/-- Evaluate a filter on an entity. -/
def matchesWithNs (ctx : QueryContext) (ns : Option Namespace)
    (entity : HDict) : FilterNode → Bool
  | .has path => (resolvePath path entity ctx).isSome
  | .missing path => (resolvePath path entity ctx).isNone
  | .cmp path op val =>
    match resolvePath path entity ctx with
    | some actual => actual.compare op val
    | none => false
  | .and left right =>
    matchesWithNs ctx ns entity left && matchesWithNs ctx ns entity right
  | .or left right =>
    matchesWithNs ctx ns entity left || matchesWithNs ctx ns entity right
  | .specMatch spec =>
    match ns with
    | some ns => fitsSpecTermWith ontology ns ctx entity spec
    | none => false

/-- Collect the spec terms that the namespace cannot resolve. -/
def collectUnresolved (ns : Option Namespace) (out : List String) : FilterNode → List String
  | .specMatch spec =>
    let known := ns.any fun ns => (ontology.resolveSpecTerm ns spec).isSome
    if !known && !out.contains spec then out ++ [spec] else out
  | .and left right =>
    collectUnresolved ns (collectUnresolved ns out left) right
  | .or left right =>
    collectUnresolved ns (collectUnresolved ns out left) right
  | _ => out

def unresolvedSpecs (ns : Option Namespace) (node : FilterNode) : List String :=
  collectUnresolved ontology ns [] node

end Filter
end Haystack
