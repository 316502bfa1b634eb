import Haystack.Graph.EntityGraph

/-!
# Queries

`readAll` answers a filter.  It first looks for a cached answer of the current
version, then computes candidate ids from the tag and value indexes, and
evaluates the filter on the candidates, or on all rows when the indexes cannot
narrow them.  Queries fill the caches of the graph, so the graph is returned too.
-/

namespace Haystack
namespace Graph

open Haystack.Filter
  (FilterNode CmpOp Path Ontology QueryContext Arc matchesWithNs unresolvedSpecs)

/-- Candidate ids of a comparison of an indexed field, when its bound allows. -/
def cmpCandidates (index : ValueIndex) (field : String) (op : CmpOp) :
    Kind → Option (List Nat)
  | .number n =>
    match op with
    | .eq => some (index.eqLookup field (.number n))
    | _ =>
      if n.val.isZero then none
      else
        match op with
        | .lt => some (index.ltLookup field (.number n))
        | .le => some (index.leLookup field (.number n))
        | .gt => some (index.gtLookup field (.number n))
        | .ge => some (index.geLookup field (.number n))
        | _ => none
  | .str s =>
    match op with
    | .eq => some (index.eqLookup field (.str s))
    | .lt => some (index.ltLookup field (.str s))
    | .le => some (index.leLookup field (.str s))
    | .gt => some (index.gtLookup field (.str s))
    | .ge => some (index.geLookup field (.str s))
    | .ne => none
  | _ => none

/-- Candidate ids of a filter; `none` when the indexes do not narrow it. -/
def bitmapCandidates
    (tagIndex : TagBitmapIndex) (valueIndex : ValueIndex)
    (allIds : Finset Nat) : FilterNode → Option (Finset Nat)
  | .has ⟨[tag]⟩ => tagIndex.hasTag tag
  | .missing ⟨[tag]⟩ =>
    (tagIndex.hasTag tag).map fun bitmap =>
      TagBitmapIndex.negate bitmap allIds
  | .cmp ⟨[field]⟩ op val =>
    if valueIndex.hasIndex field then
      (cmpCandidates valueIndex field op val).map List.toFinset
    else none
  | .and left right =>
    match bitmapCandidates tagIndex valueIndex allIds left,
      bitmapCandidates tagIndex valueIndex allIds right with
    | some a, some b => some (a ∩ b)
    | some a, none => some a
    | none, some b => some b
    | none, none => none
  | .or left right =>
    match bitmapCandidates tagIndex valueIndex allIds left,
      bitmapCandidates tagIndex valueIndex allIds right with
    | some a, some b => some (a ∪ b)
    | _, _ => none
  | _ => none

namespace EntityGraph

variable {N C : Type} (ontology : Ontology N C)

/-- The rows that reference a target through a tag. -/
def inverseRows (g : EntityGraph N C) (target : HRef) (tag : String) :
    List HDict :=
  (g.adjacency.sourcesTo target.val (some tag)).filterMap fun eid =>
    (g.reverseId[eid]?).bind fun refVal => g.entities[refVal]?

/-- The query context of a graph.  A traversal visits every row at most once,
and one more target that has no row. -/
def context (g : EntityGraph N C) : QueryContext where
  forward := fun r => g.entities[r.val]?
  inverse := some g.inverseRows
  bound := g.entities.size + 2

/-- The plain scan: all rows that match, in ref order. -/
def scan (g : EntityGraph N C) (ast : FilterNode) : List HDict :=
  (g.entities.toList.map Prod.snd).filter fun entity =>
    matchesWithNs ontology g.context g.ns entity ast

/-- The matching rows among candidate ids, in id order. -/
def scanCandidates
    (g : EntityGraph N C) (ast : FilterNode)
    (bitmap : Finset Nat) : List HDict :=
  (bitmap.sort (· ≤ ·)).filterMap fun eid =>
    ((g.reverseId[eid]?).bind fun refVal => g.entities[refVal]?).filter
      fun entity => matchesWithNs ontology g.context g.ns entity ast

/-- All live ids. -/
def allIds (g : EntityGraph N C) : Finset Nat := (g.idMap.toList.map Prod.snd).toFinset

/-- Refuse a filter with spec terms that the namespace does not resolve. -/
def rejectUnresolvedSpecs (g : EntityGraph N C) (ast : FilterNode) :
    Except GraphError Unit :=
  let unresolved := unresolvedSpecs ontology g.ns ast
  if unresolved.isEmpty then .ok ()
  else if g.ns.isSome then
    .error (.filter ("filter names " ++ (if unresolved.length = 1 then "a spec" else "specs") ++
      " that this graph's namespace does not define: " ++
      ", ".intercalate unresolved))
  else
    .error (.filter ("filter contains spec-match terms (" ++
      ", ".intercalate unresolved ++ ") but this graph has no " ++
      "namespace: build it with EntityGraph::with_namespace"))

/-- The parsed filter, from the cache or the parser. -/
def parsed
    (parseFilter : String → Except String FilterNode) (g : EntityGraph N C)
    (filterExpr : String) : Except GraphError (FilterNode × EntityGraph N C) :=
  match g.astCache[filterExpr]? with
  | some cached => .ok (cached, g)
  | none =>
    match parseFilter filterExpr with
    | .error message => .error (.filter message)
    | .ok ast =>
      let astCache :=
        if g.astCache.size ≥ maxAstCacheSize then ∅ else g.astCache
      .ok (ast, { g with astCache := astCache.insert filterExpr ast })

/-- The matching rows of a parsed filter, at most `limit` of them. -/
def evaluate (g : EntityGraph N C) (ast : FilterNode) (limit : Nat) :
    List HDict :=
  match bitmapCandidates g.tagIndex g.valueIndex g.allIds ast with
  | some bitmap => (g.scanCandidates ontology ast bitmap).take limit
  | none => (g.scan ontology ast).take limit

/-- The ref value of a result row. -/
def resultRef (entity : HDict) : Option String :=
  match entity.get "id" with
  | some (.ref r) => some r.val
  | _ => none

/-- Run a filter; `limit = 0` means no limit. -/
def readAll
    (parseFilter : String → Except String FilterNode) (g : EntityGraph N C)
    (filterExpr : String)
    (limit : Nat) : Except GraphError (List HDict) × EntityGraph N C :=
  let effectiveLimit := if limit = 0 then usizeMax else limit
  match g.queryCache.get filterExpr g.version with
  | some (cachedRefs, queryCache) =>
    (.ok ((cachedRefs.filterMap (g.entities[·]?)).take effectiveLimit), { g with queryCache })
  | none =>
    match g.parsed parseFilter filterExpr with
    | .error failure => (.error failure, g)
    | .ok (ast, g) =>
      match g.rejectUnresolvedSpecs ontology ast with
      | .error failure => (.error failure, g)
      | .ok () =>
        let results := g.evaluate ontology ast effectiveLimit
        if limit = 0 then
          (.ok results, { g with
              queryCache := g.queryCache.insert filterExpr g.version
                (results.filterMap resultRef) })
        else (.ok results, g)

/-! ## References -/

def refsFrom (g : EntityGraph N C) (refVal : String) (refType : Option String) :
    List String :=
  match g.idMap[refVal]? with
  | some eid => g.adjacency.targetsFrom eid refType
  | none => []

def refsTo (g : EntityGraph N C) (refVal : String) (refType : Option String) :
    List String :=
  (g.adjacency.sourcesTo refVal refType).filterMap (g.reverseId[·]?)

end EntityGraph
end Graph
end Haystack
