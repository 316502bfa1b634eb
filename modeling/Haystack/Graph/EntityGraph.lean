import Haystack.Filter.Fitting
import Haystack.Graph.Adjacency
import Haystack.Graph.Bitmap
import Haystack.Graph.Changelog
import Haystack.Graph.ValueIndex

/-!
# Entity graph

The in-memory entity store.  Rows are kept by their ref value; a bijection with
numeric ids connects them to the indexes.  Native operations return the graph
after their effects; an operation that fails has no effect, except that a query
may fill the caches of the graph.

Choices of the surrounding system are arguments: the wall clock, the identity of
newly allocated handles, the filter parser.
-/

namespace Haystack
namespace Graph

open Std (ExtTreeMap)
open Haystack.Filter (FilterNode Ontology Arc)

inductive GraphError
  | missingId
  | invalidId
  | immutableId
  | duplicateRef (refVal : String)
  | notFound (refVal : String)
  | filter (message : String)
  | idExhausted
  | revisionExhausted
  deriving DecidableEq, Repr

/-- A catalog publication was based on an obsolete generation. -/
inductive CatalogChanged
  | catalogChanged
  deriving DecidableEq, Repr

/-- Largest numeric id. -/
def maxEntityId : Nat := u32Max

/-! ## Query cache -/

/-- Query results by filter and version, least recently used first. -/
structure QueryCache where
  entries : List ((String × Nat) × List String)
  capacity : Nat

namespace QueryCache

def new (capacity : Nat) : QueryCache := ⟨[], capacity⟩

/-- Look up a result and move it to the back. -/
def get (cache : QueryCache) (filter : String) (version : Nat) :
    Option (List String × QueryCache) :=
  (cache.entries.find? (·.1 = (filter, version))).map fun entry =>
    (entry.2, { cache with
        entries := cache.entries.filter (·.1 ≠ (filter, version)) ++ [entry] })

/-- Drop the results of older versions. -/
def purgeStale (cache : QueryCache) (minVersion : Nat) : QueryCache :=
  { cache with entries := cache.entries.filter (minVersion ≤ ·.1.2) }

/-- Drop the least recently used result. -/
def evictFront (cache : QueryCache) : QueryCache := { cache with entries := cache.entries.drop 1 }

/-- Replace a result in place, or append it. -/
def store (cache : QueryCache) (key : String × Nat) (refVals : List String) : QueryCache :=
  if cache.entries.any (·.1 = key) then
    { cache with
      entries := cache.entries.map fun entry =>
        if entry.1 = key then (key, refVals) else entry }
  else { cache with entries := cache.entries ++ [(key, refVals)] }

/-- Insert a result, making room when the cache is full. -/
def insert (cache : QueryCache) (filter : String) (version : Nat)
    (refVals : List String) : QueryCache :=
  let cache :=
    if cache.entries.length ≥ cache.capacity then cache.purgeStale version
    else cache
  let cache :=
    if cache.entries.length ≥ cache.capacity then cache.evictFront else cache
  cache.store (filter, version) refVals

def clear (cache : QueryCache) : QueryCache := { cache with entries := [] }

/-- Raise the capacity to a target. -/
def grow (cache : QueryCache) (target : Nat) : QueryCache :=
  { cache with capacity := max cache.capacity target }

end QueryCache

def queryCacheCapacityFor (entityCount : Nat) : Nat := max 256 (min (entityCount / 100) 1024)

def defaultQueryCacheCapacity : Nat := 256

def maxAstCacheSize : Nat := 10000

def autoIndexFields : List String :=
  ["siteRef", "equipRef", "dis", "curVal", "area", "geoCity", "kind", "unit"]

/-! ## The graph -/

structure EntityGraph (Namespace Catalog : Type) where
  entities : ExtTreeMap String HDict
  idMap : ExtTreeMap String Nat
  reverseId : ExtTreeMap Nat String
  nextId : Nat
  /-- Recycled ids, the most recently freed one first. -/
  freeIds : List Nat
  tagIndex : TagBitmapIndex
  adjacency : RefAdjacency
  namespaceArc : Option (Arc Namespace)
  activated : Option (Arc Catalog)
  catalogGeneration : Nat
  incarnation : BitVec 128
  version : Nat
  log : Changelog
  queryCache : QueryCache
  astCache : ExtTreeMap String FilterNode
  valueIndex : ValueIndex
  indexGeneration : Nat

namespace EntityGraph

variable {N C : Type}

/-- The value index with the standard fields registered. -/
def autoIndex : ValueIndex := autoIndexFields.foldl ValueIndex.indexField ValueIndex.new

def withChangelogCapacity (capacity : Nat) (incarnation : BitVec 128) : EntityGraph N C where
  entities := ∅
  idMap := ∅
  reverseId := ∅
  nextId := 0
  freeIds := []
  tagIndex := TagBitmapIndex.new
  adjacency := RefAdjacency.new
  namespaceArc := none
  activated := none
  catalogGeneration := 0
  incarnation := incarnation
  version := 0
  log := ⟨[], max capacity 1, defaultChangelogBytes, 0, 0⟩
  queryCache := QueryCache.new defaultQueryCacheCapacity
  astCache := ∅
  valueIndex := autoIndex
  indexGeneration := 0

def withChangelogLimits (capacity bytes : Nat) (incarnation : BitVec 128) : EntityGraph N C :=
  let g : EntityGraph N C := withChangelogCapacity capacity incarnation
  { g with log := { g.log with byteCapacity := max bytes 1 } }

def new (incarnation : BitVec 128) : EntityGraph N C :=
  withChangelogCapacity defaultChangelogCapacity incarnation

def withNamespace (ns : Arc N) (incarnation : BitVec 128) : EntityGraph N C :=
  { (new incarnation : EntityGraph N C) with namespaceArc := some ns }

def state (g : EntityGraph N C) : GraphState := ⟨g.incarnation, g.version, g.catalogGeneration⟩

/-- The attached namespace. -/
def ns (g : EntityGraph N C) : Option N := g.namespaceArc.map (·.val)

def get (g : EntityGraph N C) (refVal : String) : Option HDict := g.entities[refVal]?

/-- The retained diffs after a version. -/
def changesSince (g : EntityGraph N C) (version : Nat) : Except ChangelogGap (List GraphDiff) :=
  g.log.changesSince version

/-- The complete units after a version. -/
def changeUnitsSince (g : EntityGraph N C) (version : Nat) :
    Except ChangeCursorError ChangeUnits :=
  g.log.changeUnitsSince g.state version

/-! ## Indexing -/

/-- Add the tag and value index entries of a row. -/
def indexTags (g : EntityGraph N C) (entityId : Nat) (entity : HDict) : EntityGraph N C :=
  { g with
    tagIndex := g.tagIndex.add entityId entity.tagNames
    valueIndex := g.valueIndex.addTags entityId entity }

/-- Add the edges of a row. -/
def indexRefs (g : EntityGraph N C) (entityId : Nat) (entity : HDict) : EntityGraph N C :=
  { g with adjacency := g.adjacency.addRefs entityId entity }

/-- Remove all index entries of a row. -/
def removeIndexing (g : EntityGraph N C) (entityId : Nat) (entity : HDict) : EntityGraph N C :=
  { g with
    tagIndex := g.tagIndex.remove entityId entity.tagNames
    adjacency := g.adjacency.remove entityId
    valueIndex := g.valueIndex.removeTags entityId entity }

/-- The rows with their numeric ids, in ref order. -/
def numbered (g : EntityGraph N C) : List (Nat × HDict) := g.entities.toList.filterMap fun row =>
    g.idMap[row.1]?.map fun eid => (eid, row.2)

/-- Register a field and add its value for every row.  `none` models the panic
at the last index generation. -/
def indexField (g : EntityGraph N C) (field : String) : Option (EntityGraph N C) :=
  if g.valueIndex.hasIndex field then some g
  else do
    let generation ← checkedAdd u64Max g.indexGeneration 1
    some { g with
        indexGeneration := generation
        valueIndex := g.numbered.foldl (fun index row => index.backfill field row.1 row.2)
          (g.valueIndex.indexField field) }

/-- Rebuild the value index of all registered fields. -/
def rebuildValueIndex (g : EntityGraph N C) : EntityGraph N C :=
  { g with
    valueIndex := g.numbered.foldl
      (fun index row => index.addTags row.1 row.2) g.valueIndex.clear }

/-! ## Native operations -/

/-- The ref value of the `id` tag. -/
def extractRefVal (entity : HDict) : Except GraphError String :=
  match entity.get "id" with
  | some (.ref r) => .ok r.val
  | some _ => .error .invalidId
  | none => .error .missingId

/-- The revision of the next mutation. -/
def nextRevision (g : EntityGraph N C) : Except GraphError Nat :=
  match checkedAdd u64Max g.version 1 with
  | some revision => .ok revision
  | none => .error .revisionExhausted

/-- Take a recycled id, or the next one. -/
def takeId (g : EntityGraph N C) : Except GraphError (Nat × EntityGraph N C) :=
  match g.freeIds with
  | recycled :: rest => .ok (recycled, { g with freeIds := rest })
  | [] =>
    if g.nextId > maxEntityId then .error .idExhausted
    else .ok (g.nextId, { g with nextId := g.nextId + 1 })

/-- Record a native mutation: its diff, or a gap when it is too large. -/
def record (g : EntityGraph N C) (now : Int) (diff : Option GraphDiff) : EntityGraph N C :=
  { g with
    log :=
      match diff with
      | some diff => g.log.appendCommittedUnit now [diff]
      | none => g.log.nativeGap g.version }

/-- Raise the capacity of the query cache with the number of entities. -/
def growCache (g : EntityGraph N C) : EntityGraph N C :=
  { g with
    queryCache := g.queryCache.grow (queryCacheCapacityFor g.entities.size) }

/-- The diff of an addition. -/
def addDiff (revision bytes : Nat) (refVal : String) (entity : HDict) : GraphDiff :=
  ⟨revision, .singleton revision, bytes, 0, .add, refVal, none, some entity, none, none⟩

/-- The diff of a patch. -/
def updateDiff (revision bytes : Nat) (refVal : String) (changed previous : HDict) : GraphDiff :=
  ⟨revision, .singleton revision, bytes, 0, .update, refVal, none, none,
    some changed, some previous⟩

/-- The diff of a removal. -/
def removeDiff (revision bytes : Nat) (refVal : String) (entity : HDict) : GraphDiff :=
  ⟨revision, .singleton revision, bytes, 0, .remove, refVal, some entity, none, none, none⟩

/-- Store a new row under a numeric id, with all its index entries. -/
def storeRow (g : EntityGraph N C) (refVal : String) (eid : Nat)
    (entity : HDict) : EntityGraph N C :=
  let g := { g with
    idMap := g.idMap.insert refVal eid
    reverseId := g.reverseId.insert eid refVal }
  let g := (g.indexTags eid entity).indexRefs eid entity
  { g with entities := g.entities.insert refVal entity }

def add (g : EntityGraph N C) (now : Int) (entity : HDict) :
    Except GraphError (String × EntityGraph N C) := do
  let refVal ← extractRefVal entity
  if g.entities.contains refVal then .error (.duplicateRef refVal)
  else do
    let revision ← g.nextRevision
    let logBytes := diffBytes refVal [entity] g.log.byteCapacity
    let (eid, g) ← g.takeId
    let g := { g.storeRow refVal eid entity with version := revision }
    let g := g.record now (logBytes.map fun bytes => addDiff revision bytes refVal entity)
    .ok (refVal, g.growCache)

/-- The values that a patch replaces. -/
def previousTags (old changes : HDict) : HDict := changes.iter.foldl (fun previous tag =>
      match old.get tag.1 with
      | some value => previous.set tag.1 value
      | none => previous)
    HDict.new

/-- The patch renames, retypes or removes the `id` tag. -/
def changesIdentity (refVal : String) (changes : HDict) : Bool :=
  match changes.get "id" with
  | none => false
  | some (.ref id) => id.val ≠ refVal
  | some _ => true

/-- Replace the row of an id, with all its index entries. -/
def replaceRow (g : EntityGraph N C) (refVal : String) (eid : Nat)
    (old entity : HDict) : EntityGraph N C :=
  let g := { g with entities := g.entities.erase refVal }
  let g := g.removeIndexing eid old
  let g := (g.indexTags eid entity).indexRefs eid entity
  { g with entities := g.entities.insert refVal entity }

/-- A row exists for every mapped id, so the second lookup does not fail. -/
def update (g : EntityGraph N C) (now : Int) (refVal : String)
    (changes : HDict) : Except GraphError (EntityGraph N C) :=
  match g.idMap[refVal]?, g.entities[refVal]? with
  | some eid, some old =>
    if changesIdentity refVal changes then .error .immutableId
    else if changes.isEmpty then .ok g
    else do
      let revision ← g.nextRevision
      let logBytes := patchDiffBytes refVal old changes g.log.byteCapacity
      let g :=
        { g.replaceRow refVal eid old (old.merge changes) with
          version := revision }
      .ok (g.record now (logBytes.map fun bytes =>
        updateDiff revision bytes refVal changes (previousTags old changes)))
  | _, _ => .error (.notFound refVal)

/-- Drop the row of an id, with all its index entries. -/
def dropRow (g : EntityGraph N C) (refVal : String) (eid : Nat)
    (entity : HDict) : EntityGraph N C :=
  let g := { g with
    idMap := g.idMap.erase refVal
    reverseId := g.reverseId.erase eid
    entities := g.entities.erase refVal }
  let g := g.removeIndexing eid entity
  { g with freeIds := eid :: g.freeIds }

/-- A row exists for every mapped id, so the second lookup does not fail. -/
def remove (g : EntityGraph N C) (now : Int) (refVal : String) :
    Except GraphError (HDict × EntityGraph N C) :=
  match g.idMap[refVal]?, g.entities[refVal]? with
  | some eid, some entity => do
    let revision ← g.nextRevision
    let logBytes := diffBytes refVal [entity] g.log.byteCapacity
    let g := { g.dropRow refVal eid entity with version := revision }
    .ok (entity, g.record now (logBytes.map fun bytes => removeDiff revision bytes refVal entity))
  | _, _ => .error (.notFound refVal)

/-! ## Catalog publication -/

section Publication

variable (ontology : Ontology N C)

/-- Replace the activated catalog and the namespace derived from it. -/
def publishCatalog (g : EntityGraph N C) (next : Arc C) :
    Except CatalogChanged (Nat × EntityGraph N C) :=
  match checkedAdd u64Max g.catalogGeneration 1 with
  | none => .error .catalogChanged
  | some generation =>
    .ok (generation, { g with
        namespaceArc := some (ontology.catalogNamespace next.val)
        activated := some next
        catalogGeneration := generation
        queryCache := g.queryCache.clear })

/-- The captured base namespace is still the attached one. -/
def sameBase (current base : Option (Arc N)) : Bool :=
  match current, base with
  | none, none => true
  | some current, some base => current.ptrEq base
  | _, _ => false

def compareInitializeCatalog (g : EntityGraph N C) (expected : GraphState) (base : Option (Arc N))
    (catalog : Arc C) : Except CatalogChanged (Nat × EntityGraph N C) :=
  if g.activated.isSome || g.incarnation ≠ expected.incarnation ||
      g.catalogGeneration ≠ expected.catalogGeneration ||
      !sameBase g.namespaceArc base then
    .error .catalogChanged
  else g.publishCatalog ontology catalog

def compareActivateCatalog (g : EntityGraph N C) (expected : GraphState)
    (old next : Arc C) : Except CatalogChanged (Nat × EntityGraph N C) :=
  if g.state ≠ expected || old.ptrEq next ||
      !(g.activated.any fun current => current.ptrEq old) then
    .error .catalogChanged
  else g.publishCatalog ontology next

/-- Replace the namespace; on a managed graph the activated selection is rebased
over it.  `ptr` and `nsPtr` identify the handles allocated for the rebased
catalog and its namespace.  `none` models the panic at the last generation. -/
def setNamespace (g : EntityGraph N C) (ns : Arc N) (ptr nsPtr : Nat) :
    Option (EntityGraph N C) := do
  let generation ← checkedAdd u64Max g.catalogGeneration 1
  match g.activated with
  | some current =>
    let rebased := ontology.rebase current.val ns.val nsPtr
    some { g with
        catalogGeneration := generation
        namespaceArc := some (ontology.catalogNamespace rebased)
        activated := some ⟨ptr, rebased⟩
        queryCache := g.queryCache.clear }
  | none =>
    some { g with
        catalogGeneration := generation
        namespaceArc := some ns
        queryCache := g.queryCache.clear }

def compareSetNamespace (g : EntityGraph N C) (expected : Nat) (ns : Arc N) (ptr nsPtr : Nat) :
    Option (Except CatalogChanged (Nat × EntityGraph N C)) :=
  if g.catalogGeneration ≠ expected then some (.error .catalogChanged)
  else (g.setNamespace ontology ns ptr nsPtr).map fun g =>
    .ok (g.catalogGeneration, g)

end Publication
end EntityGraph
end Graph
end Haystack
