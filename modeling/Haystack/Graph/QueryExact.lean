import Haystack.Graph.Invariants

/-!
# Correctness of queries

The candidates of a filter contain every matching row, because the indexes are
exact and the total order of the value index refines the comparison of filters.
So the accelerated evaluation finds the rows of a plain scan.  A cached result
of the current version is the result of a scan as well, since every change of
rows takes a new version and every change of the namespace clears the cache.
-/

namespace Haystack
namespace Graph

open Std (ExtTreeMap)
open Collections
open Haystack.Filter (FilterNode CmpOp Ontology matchesWithNs unresolvedSpecs resolvePath_single
  ordering orderedCmp compareEq)

/-! ## Comparisons -/

/-- The outcomes of a comparison that an ordering operator admits. -/
def admits : CmpOp → Ordering → Bool
  | .lt => (·.isLT)
  | .le => (·.isLE)
  | .gt => (·.isGT)
  | .ge => (·.isGE)
  | _ => fun _ => false

variable {op : CmpOp}

theorem orderedCmp_eq_true_iff {actual expected : Kind} :
    orderedCmp actual op expected = true ↔
      ∃ outcome, ordering actual expected = some outcome ∧ admits op outcome = true := by
  unfold orderedCmp
  cases ordering actual expected with
  | none => simp
  | some => cases op <;> simp [admits]

variable {val : Kind} {key : OrderableKind} {actual : Kind}

/-- A value equal to a number or a string is that number or string. -/
theorem eq_of_compareEq (keyed : OrderableKind.fromKind val = some key)
    (equal : compareEq actual val = true) : actual = val := by
  cases val with
  | number n | str s =>
    cases actual <;> simp_all [compareEq, Kind.eq, Kind.eqScalar]
  | _ => cases keyed

variable {n : Nat} {index : ValueIndex} {field : String}

namespace ValueIndex

theorem mem_eqLookup (keyed : OrderableKind.fromKind val = some key) (n : Nat) :
    n ∈ index.eqLookup field val ↔ n ∈ index.bucketOf (field, key) := by
  unfold eqLookup bucketOf
  rw [keyed]
  cases index.indexes[field]? with
  | none => simp
  | some => simp [bucket, List.empty_eq]

theorem mem_rangeLookup {bound : OrderableKind} (keyed : OrderableKind.fromKind val = some bound)
    {keep : Ordering → Bool} (kept : keep (compare key bound) = true)
    (posted : n ∈ index.bucketOf (field, key)) : n ∈ index.rangeLookup keep field val := by
  unfold bucketOf at posted
  unfold rangeLookup
  rw [keyed]
  cases registered : index.indexes[field]? with
  | none => simp [registered] at posted
  | some tree =>
    cases found : tree[key]? with
    | none => simp [registered, bucket, found] at posted
    | some ids =>
      rw [registered, Option.map_some, bucket_of_getElem? found] at posted
      rw [List.mem_flatMap]
      refine ⟨(key, ids), ?_, posted⟩
      rw [List.mem_filter]
      exact ⟨ExtTreeMap.mem_toList_iff_getElem?_eq_some.mpr found, kept⟩

end ValueIndex

variable {ids : List Nat}

/-- An ordering comparison that uses the index compares the indexed values. -/
theorem compare_of_ordering (ordered : op ≠ .eq)
    (narrowed : cmpCandidates index field op val = some ids)
    {outcome : Ordering} (compared : ordering actual val = some outcome) :
    ids = index.rangeLookup (admits op) field val ∧
      ∃ key bound, OrderableKind.fromKind actual = some key ∧
        OrderableKind.fromKind val = some bound ∧
        compare key bound = outcome := by
  cases val with
  | number n =>
    have nonzero : n.val.isZero = false := by
      cases zero : n.val.isZero with
      | false => rfl
      | true => cases op <;> simp_all [cmpCandidates]
    refine ⟨?_, ?_⟩
    · cases op <;> simp_all [cmpCandidates] <;> exact narrowed.symm
    · cases actual with
      | number m =>
        refine ⟨_, _, rfl, rfl, ?_⟩
        simp only [ordering, Number.partialCmp] at compared
        split at compared
        · cases nans : m.val.isNaN || n.val.isNaN with
          | true => simp [F64.partialCmp, nans] at compared
          | false =>
            obtain ⟨left, right⟩ := Bool.or_eq_false_iff.mp nans
            rw [F64.partialCmp_eq_totalCmp left right (by simp [nonzero])] at compared
            exact Option.some.inj compared
        · cases compared
      | _ => cases compared
  | str =>
    refine ⟨?_, ?_⟩
    · cases op <;> simp_all [cmpCandidates] <;> exact narrowed.symm
    · cases actual with
      | str => exact ⟨_, _, rfl, rfl, Option.some.inj compared⟩
      | _ => cases compared
  | _ => cases narrowed

/-- The candidates of a comparison contain every id whose value satisfies it. -/
theorem mem_cmpCandidates (narrowed : cmpCandidates index field op val = some ids)
    (holds : actual.compare op val = true)
    (posted : ∀ key, OrderableKind.fromKind actual = some key → n ∈ index.bucketOf (field, key)) :
    n ∈ ids := by
  by_cases equality : op = .eq
  · subst equality
    obtain ⟨key, keyed⟩ : ∃ key, OrderableKind.fromKind val = some key := by
      cases val <;> first | exact ⟨_, rfl⟩ | cases narrowed
    have found : ids = index.eqLookup field val := by
      cases val <;> first | exact (Option.some.inj narrowed).symm | cases keyed
    have same := eq_of_compareEq keyed holds
    rw [found, ValueIndex.mem_eqLookup keyed]
    exact posted key (same ▸ keyed)
  · have differs : op ≠ .ne := by
      rintro rfl
      cases val <;> simp [cmpCandidates] at narrowed
    have ordered : orderedCmp actual op val = true := by
      cases op <;> first | exact holds | contradiction
    obtain ⟨_, compared, admitted⟩ := orderedCmp_eq_true_iff.mp ordered
    obtain ⟨rfl, key, _, keyed, bounded, rfl⟩ := compare_of_ordering equality narrowed compared
    exact ValueIndex.mem_rangeLookup bounded admitted (posted key keyed)

namespace EntityGraph

variable {N C : Type} {ontology : Ontology N C} {parseFilter : String → Except String FilterNode}

/-! ## Candidates -/

variable {g : EntityGraph N C} {row : HDict}

theorem Indexed.mem_allIds (indexed : g.Indexed) (alive : g.rowOf n = some row) :
    n ∈ g.allIds := by
  obtain ⟨refVal, mapped, _⟩ := indexed.rows.live_eq_some_iff.mp alive
  simp only [allIds, List.mem_toFinset, List.mem_map, Prod.exists,
    ExtTreeMap.mem_toList_iff_getElem?_eq_some]
  exact ⟨refVal, n, mapped, rfl⟩

variable {bitmap : Finset Nat}

/-- The candidates of a filter contain every live id whose row matches. -/
theorem Indexed.mem_bitmapCandidates
    (indexed : g.Indexed) (alive : g.rowOf n = some row) {node : FilterNode}
    (narrowed : bitmapCandidates g.tagIndex g.valueIndex g.allIds node = some bitmap)
    (holds : matchesWithNs ontology g.context g.ns row node = true) : n ∈ bitmap := by
  have derived := indexed.derived
  induction node generalizing bitmap with
  | has path =>
    obtain ⟨segments⟩ := path
    match segments with
    | [] | _ :: _ :: _ => cases narrowed
    | [tag] =>
      rw [derived.tagged tag bitmap narrowed |>.2 n]
      refine ⟨row, alive, ?_⟩
      exact HDict.has_iff.mpr (Option.isSome_iff_exists.mp holds)
  | missing path =>
    obtain ⟨segments⟩ := path
    match segments with
    | [] | _ :: _ :: _ => cases narrowed
    | [tag] =>
      obtain ⟨tagged, found, rfl⟩ := Option.map_eq_some_iff.mp narrowed
      rw [TagBitmapIndex.negate, Finset.mem_sdiff]
      refine ⟨indexed.mem_allIds alive, ?_⟩
      rw [derived.tagged tag tagged found |>.2 n]
      rintro ⟨other, otherAlive, present⟩
      obtain rfl := Option.some.inj (alive.symm.trans otherAlive)
      obtain ⟨_, found⟩ := HDict.has_iff.mp present
      have absent : (row.get tag).isNone = true := holds
      simp [found] at absent
  | cmp path =>
    obtain ⟨segments⟩ := path
    match segments with
    | [] | _ :: _ :: _ => cases narrowed
    | [field] =>
      simp only [bitmapCandidates] at narrowed
      split at narrowed
      · rename_i registered
        obtain ⟨_, given, rfl⟩ := Option.map_eq_some_iff.mp narrowed
        simp only [matchesWithNs, resolvePath_single] at holds
        cases found : row.get field with
        | none => simp [found] at holds
        | some actual =>
          rw [found] at holds
          rw [List.mem_toFinset]
          refine mem_cmpCandidates given holds fun key keyed => ?_
          rw [derived.values field key registered |>.2 n]
          exact ⟨row, actual, alive, found, keyed⟩
      · cases narrowed
  | and left right leftHypothesis rightHypothesis =>
    obtain ⟨leftHolds, rightHolds⟩ := Bool.and_eq_true_iff.mp holds
    simp only [bitmapCandidates] at narrowed
    split at narrowed <;> cases narrowed
    · rename_i leftNarrowed rightNarrowed
      exact Finset.mem_inter.mpr ⟨leftHypothesis leftNarrowed leftHolds,
        rightHypothesis rightNarrowed rightHolds⟩
    · rename_i leftNarrowed
      exact leftHypothesis leftNarrowed leftHolds
    · rename_i _ rightNarrowed
      exact rightHypothesis rightNarrowed rightHolds
  | or left right leftHypothesis rightHypothesis =>
    simp only [bitmapCandidates] at narrowed
    split at narrowed <;> cases narrowed
    rename_i leftNarrowed rightNarrowed
    rw [Finset.mem_union]
    exact (Bool.or_eq_true_iff.mp holds).imp (leftHypothesis leftNarrowed)
      (rightHypothesis rightNarrowed)
  | specMatch => cases narrowed

/-! ## Rows of a result -/

theorem resultRef_eq {refVal : String} (identified : IdentifiedBy refVal row) :
    resultRef row = some refVal := by
  obtain ⟨r, found, rfl⟩ := identified
  rw [resultRef, found]

theorem Indexed.resultRef_eq_iff (indexed : g.Indexed) {refVal other : String}
    (found : g.entities[refVal]? = some row) : resultRef row = some other ↔ refVal = other := by
  rw [resultRef_eq (indexed.rows.identified refVal row found), Option.some.injEq]

/-- Two live ids of one row are the same. -/
theorem Indexed.rowOf_injective (indexed : g.Indexed) {m : Nat} (alive : g.rowOf n = some row)
    (otherAlive : g.rowOf m = some row) : n = m := by
  obtain ⟨_, mapped, leftFound⟩ := indexed.rows.live_eq_some_iff.mp alive
  obtain ⟨_, otherMapped, rightFound⟩ := indexed.rows.live_eq_some_iff.mp otherAlive
  obtain rfl := (indexed.resultRef_eq_iff leftFound).mp
    ((indexed.resultRef_eq_iff rightFound).mpr rfl)
  exact Option.some.inj (mapped.symm.trans otherMapped)

/-- No more rows than numeric ids. -/
theorem Indexed.size_le (indexed : g.Indexed) : g.entities.toList.length ≤ u32Max + 1 := by
  have mapped (refVal : String) (row : HDict) (found : g.entities[refVal]? = some row) :
      ∃ n, g.idMap[refVal]? = some n ∧ n < g.nextId := by
    obtain ⟨n, mapped⟩ := (indexed.derived.covered refVal).mpr ⟨row, found⟩
    refine ⟨n, mapped, indexed.derived.below n (.inl ⟨row, ?_⟩)⟩
    exact indexed.rows.live_eq_some_iff.mpr ⟨refVal, mapped, found⟩
  let ids := g.entities.toList.map fun entry => g.idMap[entry.1]?.getD 0
  have distinct : ids.Nodup := by
    rw [List.Nodup, List.pairwise_map]
    refine List.Pairwise.imp_of_mem ?_ (pairwise_toList g.entities)
    rintro ⟨left, leftRow⟩ ⟨right, rightRow⟩ leftMember rightMember different same
    obtain ⟨n, leftMapped, _⟩ := mapped left leftRow
      (ExtTreeMap.mem_toList_iff_getElem?_eq_some.mp leftMember)
    obtain ⟨m, rightMapped, _⟩ := mapped right rightRow
      (ExtTreeMap.mem_toList_iff_getElem?_eq_some.mp rightMember)
    simp only [leftMapped, rightMapped] at same
    subst same
    have owner := (indexed.rows.inverse left n).mp leftMapped
    have otherOwner := (indexed.rows.inverse right n).mp rightMapped
    exact different (Option.some.inj (owner.symm.trans otherOwner))
  have below : ids ⊆ List.range g.nextId := by
    intro n member
    obtain ⟨⟨refVal, row⟩, found, rfl⟩ := List.mem_map.mp member
    obtain ⟨n, given, bounded⟩ := mapped refVal row
      (ExtTreeMap.mem_toList_iff_getElem?_eq_some.mp found)
    simpa [given] using bounded
  have counted := (List.subperm_of_subset distinct below).length_le
  simp only [ids, List.length_map, List.length_range] at counted
  exact counted.trans indexed.rows.bounded

variable {ast : FilterNode}

theorem mem_scan :
    row ∈ g.scan ontology ast ↔ ∃ refVal : String, g.entities[refVal]? = some row ∧
        matchesWithNs ontology g.context g.ns row ast = true := by
  simp [scan]

theorem Indexed.nodup_scan (indexed : g.Indexed) (ast : FilterNode) :
    (g.scan ontology ast).Nodup := by
  refine List.Nodup.filter _ ?_
  rw [List.Nodup, List.pairwise_map]
  refine List.Pairwise.imp_of_mem ?_ (pairwise_toList g.entities)
  rintro ⟨left, row⟩ ⟨right, _⟩ leftMember rightMember different rfl
  have leftFound := ExtTreeMap.mem_toList_iff_getElem?_eq_some.mp leftMember
  have rightFound := ExtTreeMap.mem_toList_iff_getElem?_eq_some.mp rightMember
  exact different ((indexed.resultRef_eq_iff leftFound).mp
    ((indexed.resultRef_eq_iff rightFound).mpr rfl))

theorem mem_scanCandidates :
    row ∈ g.scanCandidates ontology ast bitmap ↔ ∃ n ∈ bitmap, g.rowOf n = some row ∧
        matchesWithNs ontology g.context g.ns row ast = true := by
  simp only [scanCandidates, List.mem_filterMap, Finset.mem_sort, Option.filter_eq_some_iff]
  rfl

theorem Indexed.nodup_scanCandidates
    (indexed : g.Indexed) (ast : FilterNode) (bitmap : Finset Nat) :
    (g.scanCandidates ontology ast bitmap).Nodup := by
  refine List.Nodup.filterMap ?_ (bitmap.sort_nodup (· ≤ ·))
  intro n m row found otherFound
  exact indexed.rowOf_injective (Option.filter_eq_some_iff.mp found).1
    (Option.filter_eq_some_iff.mp otherFound).1

theorem Indexed.length_scan (indexed : g.Indexed) (ast : FilterNode) :
    (g.scan ontology ast).length ≤ usizeMax := by
  refine (List.length_filter_le _ _).trans ?_
  rw [List.length_map]
  exact indexed.size_le.trans (by decide)

/-- The accelerated evaluation finds the rows of the scan. -/
theorem Indexed.evaluate_perm (indexed : g.Indexed) (ast : FilterNode) :
    (g.evaluate ontology ast usizeMax).Perm (g.scan ontology ast) := by
  have short : (g.scan ontology ast).length ≤ usizeMax := indexed.length_scan ast
  unfold evaluate
  cases narrowed : bitmapCandidates g.tagIndex g.valueIndex g.allIds ast with
  | none => rw [List.take_of_length_le short]
  | some bitmap =>
    have same : (g.scanCandidates ontology ast bitmap).Perm (g.scan ontology ast) := by
      refine (List.perm_ext_iff_of_nodup (indexed.nodup_scanCandidates ast bitmap)
        (indexed.nodup_scan ast)).mpr ?_
      intro row
      rw [mem_scanCandidates, mem_scan]
      constructor
      · rintro ⟨n, _, alive, holds⟩
        obtain ⟨refVal, _, found⟩ := indexed.rows.live_eq_some_iff.mp alive
        exact ⟨refVal, found, holds⟩
      · rintro ⟨refVal, found, holds⟩
        obtain ⟨n, mapped⟩ := (indexed.derived.covered refVal).mpr ⟨row, found⟩
        have alive : g.rowOf n = some row :=
          indexed.rows.live_eq_some_iff.mpr ⟨refVal, mapped, found⟩
        exact ⟨n, indexed.mem_bitmapCandidates alive narrowed holds, alive, holds⟩
    simp only
    rwa [List.take_of_length_le (same.length_eq.trans_le short)]

/-- The rows of the refs of a scan are the rows of the scan. -/
theorem Indexed.rows_of_refs (indexed : g.Indexed) (ast : FilterNode) :
    ((g.scan ontology ast).filterMap resultRef).filterMap (g.entities[·]?) =
      g.scan ontology ast := by
  rw [List.filterMap_filterMap]
  refine (List.filterMap_congr fun row member => ?_).trans List.filterMap_some
  obtain ⟨_, found, _⟩ := mem_scan.mp member
  rw [(indexed.resultRef_eq_iff found).mpr rfl, Option.bind_some, found]

/-! ## Caches -/

/-- The filter that a query evaluates: it parses, and its spec terms resolve. -/
def checkedFilter (ontology : Ontology N C) (parseFilter : String → Except String FilterNode)
    (g : EntityGraph N C)
    (filterExpr : String) : Except GraphError FilterNode :=
  match parseFilter filterExpr with
  | .error message => .error (.filter message)
  | .ok ast => (g.rejectUnresolvedSpecs ontology ast).map fun _ => ast

/-- A list of refs is the answer to a filter. -/
def Answers (ontology : Ontology N C) (parseFilter : String → Except String FilterNode)
    (g : EntityGraph N C) (filterExpr : String)
    (refVals : List String) : Prop :=
  ∃ ast, g.checkedFilter ontology parseFilter filterExpr = .ok ast ∧
    refVals.Perm ((g.scan ontology ast).filterMap resultRef)

/-- Parsed filters are those of the parser, and results of the current version
are answers. -/
structure Cached (ontology : Ontology N C) (parseFilter : String → Except String FilterNode)
    (g : EntityGraph N C) : Prop where
  parsed : ∀ filterExpr ast, g.astCache[filterExpr]? = some ast → parseFilter filterExpr = .ok ast
  results : ∀ entry ∈ g.queryCache.entries, entry.1.2 ≤ g.version ∧
    (entry.1.2 = g.version → Answers ontology parseFilter g entry.1.1 entry.2)

end EntityGraph

namespace QueryCache

variable {cache : QueryCache} {refVals : List String} {filter : String} {version : Nat}

theorem mem_get {after : QueryCache} (found : cache.get filter version = some (refVals, after)) :
    ((filter, version), refVals) ∈ cache.entries ∧
      ∀ entry ∈ after.entries, entry ∈ cache.entries := by
  obtain ⟨⟨key, _⟩, present, same⟩ := Option.map_eq_some_iff.mp found
  obtain ⟨rfl, rfl⟩ := Prod.mk.inj same
  have member := List.mem_of_find?_eq_some present
  obtain rfl : key = (filter, version) := by
    simpa using List.find?_some present
  refine ⟨member, fun entry given => ?_⟩
  rcases List.mem_append.mp given with kept | moved
  · exact List.mem_of_mem_filter kept
  · rwa [List.mem_singleton.mp moved]

variable {entry : (String × Nat) × List String}

theorem mem_store {key : String × Nat} (member : entry ∈ (cache.store key refVals).entries) :
    entry ∈ cache.entries ∨ entry = (key, refVals) := by
  unfold store at member
  split at member
  · obtain ⟨_, present, same⟩ := List.mem_map.mp member
    split at same
    · exact .inr same.symm
    · exact .inl (same ▸ present)
  · simpa using member

theorem mem_insert (member : entry ∈ (cache.insert filter version refVals).entries) :
    entry ∈ cache.entries ∨ entry = ((filter, version), refVals) := by
  have kept (full : Prop) [Decidable full] {smaller other : QueryCache}
      (fewer : ∀ entry ∈ smaller.entries, entry ∈ other.entries)
      (given : entry ∈ (if full then smaller else other).entries) :
      entry ∈ other.entries := by
    split at given
    · exact fewer entry given
    · exact given
  refine (mem_store member).imp_left fun given => ?_
  exact kept _ (fun _ => List.mem_of_mem_filter) (kept _ (fun _ => List.mem_of_mem_drop) given)

end QueryCache

namespace EntityGraph

variable {N C : Type} {ontology : Ontology N C} {parseFilter : String → Except String FilterNode}

variable {g : EntityGraph N C}

theorem Cached.parsed_eq (cached : Cached ontology parseFilter g) (filterExpr : String) :
    (∃ message, parseFilter filterExpr = .error message ∧
      g.parsed parseFilter filterExpr = .error (.filter message)) ∨
    ∃ ast astCache, parseFilter filterExpr = .ok ast ∧ g.parsed parseFilter filterExpr =
        .ok (ast, { g with astCache := astCache }) ∧
      Cached ontology parseFilter { g with astCache := astCache } := by
  unfold EntityGraph.parsed
  cases stored : g.astCache[filterExpr]? with
  | some ast =>
    exact .inr ⟨ast, _, cached.parsed filterExpr ast stored, rfl, cached⟩
  | none =>
    cases parsed : parseFilter filterExpr with
    | error message => exact .inl ⟨message, rfl, rfl⟩
    | ok ast =>
      refine .inr ⟨ast, _, rfl, rfl, ⟨?_, cached.results⟩⟩
      intro other otherAst found
      rw [ExtTreeMap.getElem?_insert] at found
      split at found
      · rename_i same
        obtain rfl := Std.LawfulEqCmp.eq_of_compare same
        exact parsed.trans (congrArg Except.ok (Option.some.inj found))
      · split at found
        · simp at found
        · exact cached.parsed other otherAst found

variable {filterExpr : String} {ast : FilterNode}

theorem checkedFilter_eq_ok (parses : parseFilter filterExpr = .ok ast)
    (resolved : unresolvedSpecs ontology g.ns ast = []) :
    g.checkedFilter ontology parseFilter filterExpr = .ok ast := by
  simp [checkedFilter, parses, rejectUnresolvedSpecs, resolved, Except.map]

/-- A query is answered from the cache, refused, or evaluated. -/
inductive Queried (ontology : Ontology N C) (parseFilter : String → Except String FilterNode)
    (g : EntityGraph N C) (filterExpr : String)
    (limit : Nat) : Except GraphError (List HDict) × EntityGraph N C → Prop
  | hit (refVals : List String) (queryCache : QueryCache)
      (found : g.queryCache.get filterExpr g.version = some (refVals, queryCache)) :
      Queried ontology parseFilter g filterExpr limit
        (.ok ((refVals.filterMap (g.entities[·]?)).take (if limit = 0 then usizeMax else limit)),
          { g with queryCache })
  | refused (failure : GraphError) (astCache : ExtTreeMap String FilterNode)
      (cached : Cached ontology parseFilter { g with astCache })
      (reason : g.checkedFilter ontology parseFilter filterExpr = .error failure) :
      Queried ontology parseFilter g filterExpr limit (.error failure, { g with astCache })
  | evaluated (ast : FilterNode) (astCache : ExtTreeMap String FilterNode)
      (cached : Cached ontology parseFilter { g with astCache })
      (checked : g.checkedFilter ontology parseFilter filterExpr = .ok ast)
      (queryCache : QueryCache)
      (stored : queryCache = g.queryCache ∨ limit = 0 ∧
        queryCache = g.queryCache.insert filterExpr g.version
          ((g.evaluate ontology ast usizeMax).filterMap resultRef)) :
      Queried ontology parseFilter g filterExpr limit (.ok (g.evaluate ontology ast
            (if limit = 0 then usizeMax else limit)),
          { g with astCache, queryCache })

variable (cached : Cached ontology parseFilter g)

include cached

theorem Cached.queried (filterExpr : String) (limit : Nat) :
    Queried ontology parseFilter g filterExpr limit
      (g.readAll ontology parseFilter filterExpr limit) := by
  unfold readAll
  cases found : g.queryCache.get filterExpr g.version with
  | some hit => exact .hit hit.1 hit.2 found
  | none =>
    rcases cached.parsed_eq filterExpr with
      ⟨message, rejected, parsed⟩ | ⟨ast, astCache, parses, parsed, kept⟩
    · rw [parsed]
      refine .refused _ g.astCache cached ?_
      rw [checkedFilter, rejected]
    · rw [parsed]
      have checked : g.checkedFilter ontology parseFilter filterExpr =
          (rejectUnresolvedSpecs ontology { g with astCache := astCache }
            ast).map fun _ => ast := by
        rw [checkedFilter, parses]
        rfl
      cases outcome : rejectUnresolvedSpecs ontology { g with astCache := astCache } ast with
      | error failure =>
        rw [outcome] at checked
        simp only [outcome]
        exact .refused failure astCache kept checked
      | ok =>
        rw [outcome] at checked
        simp only [outcome]
        split
        · subst limit
          exact .evaluated ast astCache kept checked _ (.inr ⟨rfl, rfl⟩)
        · rename_i bounded
          have answer : Queried ontology parseFilter g filterExpr limit _ :=
            .evaluated ast astCache kept checked _ (.inl rfl)
          rw [if_neg bounded] at answer
          exact answer

theorem Cached.moved {g' : EntityGraph N C}
    (indexed : g.Indexed) (moved : Moved ontology parseFilter g g') :
    Cached ontology parseFilter g' := by
  cases moved with
  | stay => exact cached
  | grown => exact ⟨cached.parsed, cached.results⟩
  | commit changes diffs committed =>
    have version := committed.version
    have positive := List.length_pos_iff.mpr committed.complete.1
    refine ⟨?_, ?_⟩
    · rw [committed.framed.astCache]
      exact cached.parsed
    · rw [committed.framed.cached]
      intro entry member
      have older := (cached.results entry member).1
      exact ⟨by omega, fun current => by omega⟩
  | reindexed =>
    exact ⟨cached.parsed, cached.results⟩
  | republished =>
    refine ⟨cached.parsed, ?_⟩
    intro entry member
    cases member
  | queried filterExpr limit =>
    have query := cached.queried filterExpr limit
    generalize g.readAll ontology parseFilter filterExpr limit = after at query
    cases query with
    | hit refVals queryCache found =>
      refine ⟨cached.parsed, fun entry member => ?_⟩
      exact cached.results entry ((QueryCache.mem_get found).2 entry member)
    | refused failure astCache kept => exact kept
    | evaluated ast astCache kept checked queryCache stored =>
      rcases stored with rfl | ⟨_, rfl⟩
      · exact kept
      refine ⟨kept.parsed, fun entry member => ?_⟩
      rcases QueryCache.mem_insert member with earlier | rfl
      · exact kept.results entry earlier
      · refine ⟨le_rfl, fun _ => ⟨ast, checked, ?_⟩⟩
        exact (indexed.evaluate_perm ast).filterMap _

/-- A query returns the rows of the scan. -/
theorem Cached.readAll_perm (indexed : g.Indexed)
    (checked : g.checkedFilter ontology parseFilter filterExpr = .ok ast) :
    ∃ rows, (g.readAll ontology parseFilter filterExpr 0).1 = .ok rows ∧
      rows.Perm (g.scan ontology ast) := by
  have query := cached.queried filterExpr 0
  generalize g.readAll ontology parseFilter filterExpr 0 = after at query
  cases query with
  | hit refVals queryCache found =>
    refine ⟨_, rfl, ?_⟩
    obtain ⟨other, same, answer⟩ := (cached.results _ (QueryCache.mem_get found).1).2 rfl
    obtain rfl := Except.ok.inj (checked.symm.trans same)
    have rows := answer.filterMap (g.entities[·]?)
    rw [indexed.rows_of_refs ast] at rows
    have short := rows.length_eq.trans_le (indexed.length_scan ast)
    rwa [if_pos rfl, List.take_of_length_le short]
  | refused failure astCache kept reason => cases checked.symm.trans reason
  | evaluated other astCache kept same =>
    obtain rfl := Except.ok.inj (checked.symm.trans same)
    exact ⟨_, rfl, indexed.evaluate_perm ast⟩

/-- A query of a refused filter fails. -/
theorem Cached.readAll_refused {failure : GraphError}
    (refused : g.checkedFilter ontology parseFilter filterExpr = .error failure) :
    (g.readAll ontology parseFilter filterExpr 0).1 = .error failure := by
  have query := cached.queried filterExpr 0
  generalize g.readAll ontology parseFilter filterExpr 0 = after at query
  cases query with
  | hit refVals queryCache found =>
    obtain ⟨other, same, _⟩ := (cached.results _ (QueryCache.mem_get found).1).2 rfl
    cases refused.symm.trans same
  | refused other astCache kept reason =>
    exact congrArg Except.error (Except.error.inj (reason.symm.trans refused))
  | evaluated other astCache kept same =>
    cases refused.symm.trans same

end EntityGraph

namespace Session

open EntityGraph (Cached)

variable {N C : Type} {ontology : Ontology N C} {parseFilter : String → Except String FilterNode}

theorem Reachable.cached {s : Session N C} (reachable : Reachable ontology parseFilter s) :
    Cached ontology parseFilter s.graph := by
  refine reachable.keeps ?_ ?_
  · intro capacity bytes incarnation base
    refine ⟨?_, ?_⟩
    · intro filterExpr ast found
      simp [initial, EntityGraph.withChangelogLimits, EntityGraph.withChangelogCapacity] at found
    · intro entry member
      cases member
  · intro s g' sound moved cached
    exact cached.moved sound.indexed moved

/-- A query of a reachable graph returns exactly the rows that match by a plain
scan, each once, and the candidates of every filter contain the matching ids. -/
theorem readAll_eq_scan {s : Session N C} (reachable : Reachable ontology parseFilter s)
    {filterExpr : String} {ast : FilterNode} (parses : parseFilter filterExpr = .ok ast)
    (resolved : unresolvedSpecs ontology s.graph.ns ast = []) :
    (∃ rows, (s.graph.readAll ontology parseFilter filterExpr 0).1 = .ok rows ∧
        rows.Nodup ∧ ∀ row, row ∈ rows ↔ ∃ refVal : String, s.graph.entities[refVal]? = some row ∧
            matchesWithNs ontology s.graph.context s.graph.ns row ast = true) ∧
      ∀ node bitmap, bitmapCandidates s.graph.tagIndex s.graph.valueIndex s.graph.allIds
            node = some bitmap →
          ∀ n row, s.graph.rowOf n = some row →
            matchesWithNs ontology s.graph.context s.graph.ns row node = true → n ∈ bitmap := by
  have indexed := reachable.sound.indexed
  refine ⟨?_, ?_⟩
  · obtain ⟨rows, answered, same⟩ :=
      reachable.cached.readAll_perm indexed (EntityGraph.checkedFilter_eq_ok parses resolved)
    refine ⟨rows, answered, same.nodup_iff.mpr (indexed.nodup_scan ast), ?_⟩
    intro row
    rw [same.mem_iff, EntityGraph.mem_scan]
  · intro node bitmap narrowed n row alive holds
    exact indexed.mem_bitmapCandidates alive narrowed holds

/-- A comparison of an indexed field is answered from the value index and, asked
again, from the cache. -/
theorem readAll_eq_scan_range : let row (name : String) (area : UInt64) : HDict :=
      (HDict.new.set "id" (.ref ⟨name, none⟩)).set "area" (.number ⟨⟨area⟩, none⟩)
    let above : FilterNode := .cmp ⟨["area"]⟩ .gt (.number ⟨⟨1⟩, none⟩)
    let parse : String → Except String FilterNode := fun _ => .ok above
    let s := run Ontology.blank parse (initial 3 3000 1 none)
      [.add 0 (row "a" 1), .add 0 (row "b" 2), .readAll "area > 1" 0]
    s.graph.queryCache.entries = [(("area > 1", 2), ["b"])] ∧
      ∃ rows, (s.graph.readAll Ontology.blank parse "area > 1" 0).1 =
          .ok rows ∧ rows.Nodup ∧ ∀ row, row ∈ rows ↔
            ∃ refVal : String, s.graph.entities[refVal]? = some row ∧
              matchesWithNs Ontology.blank s.graph.context s.graph.ns row above = true :=
  ⟨by decide +kernel, (readAll_eq_scan ⟨_, _, _, _, _, rfl⟩ rfl rfl).1⟩

end Session
end Graph
end Haystack
