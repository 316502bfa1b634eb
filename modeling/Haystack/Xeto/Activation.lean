import Haystack.App.Sanitize
import Haystack.Graph.Run
import Haystack.Xeto.Catalog

/-!
# Catalog activation

An activation captures the graph, prepares its candidate without a lock, validates
the associated records in chunks, each under its own read lock, and publishes under
the write lock.  Any number of activations run at once, interleaved with arbitrary
commands on the graph.  A step is one critical section; a limit of the caller may
end an activation at every point before its publication.
-/

namespace Haystack
namespace Xeto

open Std (ExtTreeMap)
open Haystack.Collections
open Haystack.Filter (FilterNode Ontology Arc)
open Haystack.Graph (EntityGraph GraphState Session)

/-! ## Associations -/

/-- The library of a qualified name. -/
def libraryOf (qname : String) : Option String :=
  (App.splitColons qname.toList).map fun parts => String.ofList parts.1

/-- The structural spec of a record, if it names one of the libraries. -/
def associatedSpec (libraries : List String) (row : HDict) : List String :=
  match row.get "spec" with
  | some (.ref spec) =>
    if (libraryOf spec.val).any libraries.contains then [spec.val] else []
  | _ => []

def associatedMarkers (bindings : List (String × String)) (row : HDict) : List String :=
  (bindings.filter fun binding => row.has binding.1).map Prod.snd

/-- A set of names, in their order. -/
def nameSet (names : List String) : List String :=
  (names.foldl (fun set name => set.insert name ())
    (∅ : ExtTreeMap String Unit)).toList.map Prod.fst

/-- The declarations that some catalogs associate with a record. -/
def associations (catalogs : List Catalog) (row : HDict) : List String :=
  nameSet (associatedSpec (catalogs.flatMap fun catalog => catalog.libraries) row ++
      associatedMarkers (catalogs.flatMap fun catalog => catalog.markerBindings.toList) row)

/-! ## Validation -/

inductive ProfileError
  | source (path message : String)
  | resolve (path declaration message : String)
  | fit (cause : FitError)
  deriving DecidableEq

structure ActivationRejection where
  entity : String
  association : String
  cause : ProfileError
  deriving DecidableEq

/-- `E` is what the limits of a caller report. -/
inductive ActivationError (E : Type)
  | catalog (cause : ProfileError)
  | unsupported (declaration reason : String)
  | rejected (rejection : ActivationRejection)
  | conflict
  | unmanaged
  | control (cause : E)

/-- Declarations that stay under an admitted origin keep their bytes. -/
def checkDeclaration (new : Catalog) (before : String × AdmittedSpec) :
    Except ProfileError Unit :=
  if before.2.source.role = "project" then .ok ()
  else
    match new.specs[before.1]? with
    | none => .ok ()
    | some after =>
      if after.source.role = "project" ∨ after.source.path ≠ before.2.source.path ∨
          after.source.sha256 ≠ before.2.source.sha256 ∨
          after.spec ≠ before.2.spec then
        .error (.resolve after.source.path before.1
          "declaration differs from the admitted bytes at the same origin")
      else .ok ()

def checkProvenance (new old : Catalog) : Except ProfileError Unit :=
  if old.provenance ≠ new.provenance then
    .error (.source "catalog" "candidate changes the admitted source origin")
  else old.specs.toList.forM (checkDeclaration new)

/-- A record fits one declaration of the candidate. -/
def validateAssociation (candidate : Catalog) (record : HRef → Option HDict) (id : String)
    (row : HDict)
    (qname : String) : Except ActivationRejection Unit :=
  if (candidate.declaration qname).isNone then
    .error ⟨id, qname, .resolve "catalog" qname
      "affected association is not admitted by the candidate"⟩
  else
    match candidate.fitEntity record qname row with
    | .ok () => .ok ()
    | .error cause => .error ⟨id, qname, .fit cause⟩

def validateRecord (candidate previous : Catalog) (record : HRef → Option HDict)
    (entity : String × HDict) : Except ActivationRejection Unit :=
  (associations [candidate, previous] entity.2).forM
    (validateAssociation candidate record entity.1 entity.2)

/-- The loop of `validate_chunk`, with `limit` records left in the chunk. -/
def validateRecords (candidate previous : Catalog) (record : HRef → Option HDict) :
    Nat → Option String → List (String × HDict) → Except ActivationRejection (Option String)
  | _, _, [] => .ok none
  | 0, last, _ :: _ => .ok last
  | limit + 1, _, entity :: rest => do
    validateRecord candidate previous record entity
    validateRecords candidate previous record limit (some entity.1) rest

def validateChunk
    {N C : Type} (candidate previous : Catalog) (g : EntityGraph N C)
    (after : Option String)
    (limit : Nat) : Except ActivationRejection (Option String) :=
  validateRecords candidate previous (fun reference => g.get reference.val)
    (max limit 1) none (entriesAfter after g.entities.toList)

/-! ## Operations -/

/-- What activation asks of catalogs: the observation derived from a catalog over
a base namespace, with the identity of its namespace, and the catalog of an
observation. -/
structure Activator (N C : Type) where
  activate : Catalog → Option N → Nat → Except ProfileError C
  strict : C → Catalog

inductive Stage (N C E : Type)
  | capturing
  | preparing (origin : GraphState) (base : Option (Arc N))
  | opening (origin : GraphState) (candidate : Arc C) (restarts : Nat)
  | validating (origin : GraphState) (candidate : Arc C) (restarts : Nat)
      (observed : Option GraphState)
      (after : Option String)
  | publishing (origin : GraphState) (candidate : Arc C) (restarts : Nat) (validated : GraphState)
  | returned (result : Except (ActivationError E) (Arc C × GraphState))

/-- One call of `activate_catalog`.  No step reads `visited`; it lists the records
of the current attempt. -/
structure Operation (N C E : Type) where
  expected : Arc C
  catalog : Catalog
  chunkRecords : Nat
  maxRevalidations : Nat
  stage : Stage N C E
  visited : List String

structure State (N C E : Type) where
  session : Session N C
  operations : List (Operation N C E)

inductive Event (N C E : Type)
  | write (command : Graph.Command N C)
  | activate (expected : Arc C) (catalog : Catalog) (chunkRecords maxRevalidations : Nat)
  | capture (operation : Nat)
  | prepare (operation : Nat) (ptr nsPtr : Nat) (admission : Option (ActivationError E))
  | work (operation : Nat)
  | chunk (operation : Nat) (stopped : Option E)
  | publish (operation : Nat) (stopped : Option E)
  | stop (operation : Nat) (cause : E)

section

variable {N C E : Type}

/-- The graph still has the observation that is to be replaced. -/
def checkCurrent (g : EntityGraph N C) (expected : Arc C) : Except (ActivationError E) Unit :=
  match g.activated with
  | none => .error .unmanaged
  | some current =>
    if current.ptrEq expected then .ok () else .error .conflict

def sameCatalog (origin state : GraphState) : Bool :=
  state.incarnation = origin.incarnation && state.catalogGeneration = origin.catalogGeneration

/-- The checks that every critical section after the capture starts with. -/
def checkObserved (g : EntityGraph N C) (origin : GraphState) (expected : Arc C) :
    Except (ActivationError E) Unit :=
  if sameCatalog origin g.state then checkCurrent g expected
  else .error .conflict

namespace Operation

def fail (operation : Operation N C E) (failure : ActivationError E) : Operation N C E :=
  { operation with stage := .returned (.error failure) }

/-- Validate again, unless the entities have moved too often. -/
def restart (operation : Operation N C E) (origin : GraphState) (candidate : Arc C)
    (restarts : Nat) : Operation N C E :=
  if restarts + 1 > operation.maxRevalidations then operation.fail .conflict
  else { operation with stage := .opening origin candidate (restarts + 1) }

def capture (operation : Operation N C E) (g : EntityGraph N C) : Operation N C E :=
  match operation.stage with
  | .capturing =>
    match checkCurrent g operation.expected with
    | .error failure => operation.fail failure
    | .ok () => { operation with stage := .preparing g.state g.namespaceArc }
  | _ => operation

section

variable (activator : Activator N C)

/-- The candidate of a call, admitted by its provenance and by the caller. -/
def candidate (operation : Operation N C E) (base : Option (Arc N)) (nsPtr : Nat)
    (admission : Option (ActivationError E)) : Except (ActivationError E) C := do
  let candidate ← (activator.activate operation.catalog (base.map Arc.val)
    nsPtr).mapError .catalog
  (checkProvenance (activator.strict candidate)
    (activator.strict operation.expected.val)).mapError .catalog
  match admission with
  | some failure => .error failure
  | none => .ok candidate

/-- The new handle is allocated while the expected one is held, so it is another
one. -/
def prepare (operation : Operation N C E) (ptr nsPtr : Nat)
    (admission : Option (ActivationError E)) : Operation N C E :=
  match operation.stage with
  | .preparing origin base =>
    if ptr = operation.expected.ptr then operation
    else
      match operation.candidate activator base nsPtr admission with
      | .error failure => operation.fail failure
      | .ok candidate =>
        { operation with stage := .opening origin ⟨ptr, candidate⟩ 0 }
  | _ => operation

def work (operation : Operation N C E) : Operation N C E :=
  match operation.stage with
  | .opening origin candidate restarts =>
    { operation with
      stage := .validating origin candidate restarts none none
      visited := [] }
  | _ => operation

/-- The ids of the next chunk. -/
def chunkIds (operation : Operation N C E) (g : EntityGraph N C)
    (after : Option String) : List String :=
  ((entriesAfter after g.entities.toList).take (max operation.chunkRecords 1)).map Prod.fst

/-- A chunk that is not stopped: it ends the validation, continues it, or
rejects the candidate. -/
def validate (operation : Operation N C E) (g : EntityGraph N C) (origin : GraphState)
    (candidate : Arc C) (restarts : Nat)
    (after : Option String) : Operation N C E :=
  match validateChunk (activator.strict candidate.val)
    (activator.strict operation.expected.val) g after
    (max operation.chunkRecords 1) with
  | .error rejection => operation.fail (.rejected rejection)
  | .ok (some last) =>
    { operation with
      stage := .validating origin candidate restarts (some g.state) (some last)
      visited := operation.visited ++ operation.chunkIds g after }
  | .ok none =>
    { operation with
      stage := .publishing origin candidate restarts g.state
      visited := operation.visited ++ operation.chunkIds g after }

def chunk (operation : Operation N C E) (g : EntityGraph N C)
    (stopped : Option E) : Operation N C E :=
  match operation.stage with
  | .validating origin candidate restarts observed after =>
    match checkObserved g origin operation.expected with
    | .error failure => operation.fail failure
    | .ok () =>
      if observed.any fun observed => observed ≠ g.state then
        operation.restart origin candidate restarts
      else
        match stopped with
        | some cause => operation.fail (.control cause)
        | none =>
          operation.validate activator g origin candidate restarts after
  | _ => operation

end

def stop (operation : Operation N C E) (cause : E) : Operation N C E :=
  match operation.stage with
  | .returned _ => operation
  | _ => operation.fail (.control cause)

variable (ontology : Ontology N C)

/-- The replacement, once the commit point has been passed. -/
def replace (operation : Operation N C E) (g : EntityGraph N C) (candidate : Arc C)
    (validated : GraphState) : EntityGraph N C × Operation N C E :=
  match g.compareActivateCatalog ontology validated operation.expected candidate with
  | .error _ => (g, operation.fail .conflict)
  | .ok (_, g') =>
    (g', { operation with stage := .returned (.ok (candidate, g'.state)) })

/-- The critical section of a publication, with what it leaves of the graph. -/
def publish (operation : Operation N C E) (g : EntityGraph N C)
    (stopped : Option E) : EntityGraph N C × Operation N C E :=
  match operation.stage with
  | .publishing origin candidate restarts validated =>
    match checkObserved g origin operation.expected with
    | .error failure => (g, operation.fail failure)
    | .ok () =>
      if g.state ≠ validated then
        (g, operation.restart origin candidate restarts)
      else
        match stopped with
        | some cause => (g, operation.fail (.control cause))
        | none => operation.replace ontology g candidate validated
  | _ => (g, operation)

end Operation

/-! ## The system -/

namespace State

variable (ontology : Ontology N C) (parseFilter : String → Except String FilterNode)
variable (activator : Activator N C)

def initial (session : Session N C) : State N C E := ⟨session, []⟩

/-- A step of one operation that leaves the graph alone. -/
def update (s : State N C E) (operation : Nat)
    (change : Operation N C E → Operation N C E) : State N C E :=
  match s.operations[operation]? with
  | some before =>
    { s with operations := s.operations.set operation (change before) }
  | none => s

def publish (s : State N C E) (operation : Nat) (stopped : Option E) : State N C E :=
  match s.operations[operation]? with
  | some before =>
    let published := before.publish ontology s.session.graph stopped
    { s with
      session := { s.session with graph := published.1 }
      operations := s.operations.set operation published.2 }
  | none => s

def step (s : State N C E) : Event N C E → State N C E
  | .write command =>
    { s with session := s.session.step ontology parseFilter command }
  | .activate expected catalog chunkRecords maxRevalidations =>
    { s with
      operations := s.operations ++
        [⟨expected, catalog, chunkRecords, maxRevalidations, .capturing, []⟩] }
  | .capture operation => s.update operation (·.capture s.session.graph)
  | .prepare operation ptr nsPtr admission =>
    s.update operation (·.prepare activator ptr nsPtr admission)
  | .work operation => s.update operation Operation.work
  | .chunk operation stopped =>
    s.update operation (·.chunk activator s.session.graph stopped)
  | .publish operation stopped => s.publish ontology operation stopped
  | .stop operation cause => s.update operation (·.stop cause)

def run (s : State N C E) (events : List (Event N C E)) : State N C E :=
  events.foldl (step ontology parseFilter activator) s

end State

end

end Xeto
end Haystack
