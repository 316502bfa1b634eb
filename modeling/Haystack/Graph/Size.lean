import Haystack.Kinds

/-!
# Bounded accounting of retained values

`ValueBudget` meters work and bytes before records are cloned.  Every function
here walks a value and charges the budget as it goes; a walk stops at the first
charge that does not fit or at the first value below the depth limit.

A walk is a list of charges that does not depend on the budget (`Charge.run`),
so its outcome is decided by three numbers: the total work, the total bytes and
the largest depth.
-/

namespace Haystack
namespace Graph

/-- Remaining work and bytes, and the depth limit. -/
structure ValueBudget where
  workLeft : Nat
  bytesLeft : Nat
  initialBytes : Nat
  depth : Nat
  deriving DecidableEq, Repr

namespace ValueBudget

def new (work bytes depth : Nat) : ValueBudget := ⟨work, bytes, bytes, depth⟩

/-- Take work and bytes from the budget, or fail. -/
def charge (budget : ValueBudget) (work bytes : Nat) : Option ValueBudget :=
  if work > budget.workLeft ∨ bytes > budget.bytesLeft then none
  else some { budget with
    workLeft := budget.workLeft - work
    bytesLeft := budget.bytesLeft - bytes }

def usedBytes (budget : ValueBudget) : Nat := budget.initialBytes - budget.bytesLeft

/-- The text bytes of a scalar. -/
def scalarBytes : Kind → Nat
  | .str v => v.utf8ByteSize
  | .number v => (v.unit.map String.utf8ByteSize).getD 0
  | .ref v => saturatingAdd v.val.utf8ByteSize ((v.dis.map String.utf8ByteSize).getD 0)
  | .uri v => v.utf8ByteSize
  | .symbol v => v.utf8ByteSize
  | .dateTime v => v.tzName.utf8ByteSize
  | .xstr v => saturatingAdd v.typeName.utf8ByteSize v.val.utf8ByteSize
  | .buf v => v.length
  | .nominal v => saturatingAdd (saturatingAdd (saturatingAdd
      v.spec.utf8ByteSize v.catalog.utf8ByteSize) v.revision.utf8ByteSize)
      v.text.utf8ByteSize
  | _ => 0

/-- Charge the name of a tag or column. -/
def chargeName (budget : ValueBudget) (name : String) : Option ValueBudget :=
  budget.charge (saturatingAdd name.utf8ByteSize 1) (saturatingAdd name.utf8ByteSize 64)

/-- Charge the head of a dictionary, below the depth limit. -/
def chargeDict (budget : ValueBudget) (depth : Nat) : Option ValueBudget :=
  if depth > budget.depth then none else budget.charge 1 128

/-- Charge the head of a value, below the depth limit. -/
def chargeValue (budget : ValueBudget) (depth : Nat) (value : Kind) : Option ValueBudget :=
  if depth > budget.depth then none
  else budget.charge (saturatingAdd (scalarBytes value) 1) (saturatingAdd (scalarBytes value) 512)

mutual

/-- Charge a value and everything nested in it. -/
def value (budget : ValueBudget) (depth : Nat) : Kind → Option ValueBudget
  | .list elements => do
    let budget ← budget.chargeValue depth (.list elements)
    budget.items (depth + 1) elements
  | .dict tags => do
    let budget ← budget.chargeValue depth (.dict tags)
    let budget ← budget.chargeDict (depth + 1)
    budget.entries (depth + 1) tags
  | .grid gridMeta cols rows => do
    let budget ← budget.chargeValue depth (.grid gridMeta cols rows)
    let budget ← budget.chargeDict (depth + 1)
    let budget ← budget.entries (depth + 1) gridMeta
    let budget ← budget.columns (depth + 1) cols
    budget.rows (depth + 1) rows
  | scalar => budget.chargeValue depth scalar

/-- Charge the items of a list. -/
def items (budget : ValueBudget) (depth : Nat) : List Kind → Option ValueBudget
  | [] => some budget
  | item :: rest => do
    let budget ← budget.value depth item
    budget.items depth rest

/-- Charge the entries of a dictionary. -/
def entries (budget : ValueBudget) (depth : Nat) : List (String × Kind) → Option ValueBudget
  | [] => some budget
  | (name, tagValue) :: rest => do
    let budget ← budget.chargeName name
    let budget ← budget.value (depth + 1) tagValue
    budget.entries depth rest

/-- Charge the columns of a grid. -/
def columns (budget : ValueBudget) (depth : Nat) :
    List (String × List (String × Kind)) → Option ValueBudget
  | [] => some budget
  | (name, colMeta) :: rest => do
    let budget ← budget.chargeName name
    let budget ← budget.chargeDict depth
    let budget ← budget.entries depth colMeta
    budget.columns depth rest

/-- Charge the rows of a grid. -/
def rows (budget : ValueBudget) (depth : Nat) : List (List (String × Kind)) → Option ValueBudget
  | [] => some budget
  | row :: rest => do
    let budget ← budget.chargeDict depth
    let budget ← budget.entries depth row
    budget.rows depth rest

end

/-- Charge a dictionary and everything nested in it. -/
def dict (budget : ValueBudget) (row : HDict) (depth : Nat) : Option ValueBudget := do
  let budget ← budget.chargeDict depth
  budget.entries depth row.iter

/-- Charge a list of dictionaries. -/
def dicts (budget : ValueBudget) (depth : Nat) : List HDict → Option ValueBudget
  | [] => some budget
  | row :: rest => do
    let budget ← budget.dict row depth
    budget.dicts depth rest

end ValueBudget

/-- Bytes retained by a diff that stores complete rows. -/
def diffBytes (id : String) (rows : List HDict) (limit : Nat) : Option Nat := do
  let budget := ValueBudget.new usizeMax limit 64
  let budget ← budget.charge 1 (saturatingAdd id.utf8ByteSize 256)
  let budget ← budget.dicts 1 rows
  return budget.usedBytes

/-- Charge the previous values of the patched tags. -/
def previousBytes (old : HDict) (budget : ValueBudget) : List (String × Kind) → Option ValueBudget
  | [] => some budget
  | (name, _) :: rest =>
    match old.get name with
    | some value => do
      let budget ← budget.chargeName name
      let budget ← budget.value 2 value
      previousBytes old budget rest
    | none => previousBytes old budget rest

/-- Bytes retained by a diff that stores a patch and the values it replaced. -/
def patchDiffBytes (id : String) (old changes : HDict) (limit : Nat) : Option Nat := do
  let budget := ValueBudget.new usizeMax limit 64
  let budget ← budget.charge 1 (saturatingAdd id.utf8ByteSize 384)
  let budget ← budget.dict changes 1
  let budget ← previousBytes old budget changes.iter
  return budget.usedBytes

/-! ## Walks as lists of charges -/

/-- One charge of a walk: the depth it requires, its work and its bytes. -/
structure Charge where
  depth : Nat
  work : Nat
  bytes : Nat
  deriving DecidableEq, Repr

namespace Charge

/-- Apply one charge to a budget. -/
def step (budget : ValueBudget) (charge : Charge) : Option ValueBudget :=
  if charge.depth > budget.depth then none
  else budget.charge charge.work charge.bytes

/-- Apply a list of charges in order. -/
def run (budget : ValueBudget) (charges : List Charge) : Option ValueBudget :=
  charges.foldlM step budget

@[simp] theorem run_nil (budget : ValueBudget) : run budget [] = some budget := rfl

@[simp] theorem run_cons (budget : ValueBudget) (charge : Charge) (charges : List Charge) :
    run budget (charge :: charges) = (step budget charge).bind (run · charges) := rfl

theorem run_append (budget : ValueBudget) (first second : List Charge) :
    run budget (first ++ second) = (run budget first).bind (run · second) := by
  simp [run]

/-- Total work of a walk. -/
def totalWork (charges : List Charge) : Nat := (charges.map work).sum

/-- Total bytes of a walk. -/
def totalBytes (charges : List Charge) : Nat := (charges.map bytes).sum

@[simp] theorem totalBytes_nil : totalBytes [] = 0 := rfl

@[simp] theorem totalBytes_cons (charge : Charge) (charges : List Charge) :
    totalBytes (charge :: charges) = charge.bytes + totalBytes charges := rfl

@[simp] theorem totalWork_nil : totalWork [] = 0 := rfl

@[simp] theorem totalWork_cons (charge : Charge) (charges : List Charge) :
    totalWork (charge :: charges) = charge.work + totalWork charges := rfl

@[simp] theorem totalBytes_append (first second : List Charge) :
    totalBytes (first ++ second) = totalBytes first + totalBytes second := by
  simp [totalBytes]

/-- A walk fits a budget when each of its totals does. -/
structure Fits (budget : ValueBudget) (charges : List Charge) : Prop where
  depth : ∀ charge ∈ charges, charge.depth ≤ budget.depth
  work : totalWork charges ≤ budget.workLeft
  bytes : totalBytes charges ≤ budget.bytesLeft

/-- The budget after a walk. -/
def spend (budget : ValueBudget) (charges : List Charge) : ValueBudget :=
  { budget with
    workLeft := budget.workLeft - totalWork charges
    bytesLeft := budget.bytesLeft - totalBytes charges }

/-- A walk succeeds exactly when it fits, and then it spends its totals. -/
theorem run_eq_some_iff {budget after : ValueBudget} {charges : List Charge} :
    run budget charges = some after ↔ Fits budget charges ∧ after = spend budget charges := by
  induction charges generalizing budget with
  | nil =>
    constructor
    · rintro ⟨⟩
      exact ⟨⟨by simp, by simp, by simp⟩, rfl⟩
    · rintro ⟨_, rfl⟩
      rfl
  | cons charge charges ih =>
    rw [run_cons, step]
    by_cases deep : charge.depth > budget.depth
    · simp only [deep, if_true, Option.bind_none, reduceCtorEq, false_iff]
      rintro ⟨fits, _⟩
      have bound := fits.depth charge (by simp)
      omega
    rw [if_neg deep, ValueBudget.charge]
    by_cases exceeds : charge.work > budget.workLeft ∨ charge.bytes > budget.bytesLeft
    · simp only [exceeds, if_true, Option.bind_none, reduceCtorEq, false_iff]
      rintro ⟨fits, _⟩
      have work := fits.work
      have bytes := fits.bytes
      simp only [totalWork_cons, totalBytes_cons] at work bytes
      omega
    rw [if_neg exceeds, Option.bind_some, ih]
    constructor
    · rintro ⟨fits, rfl⟩
      refine ⟨⟨?_, ?_, ?_⟩, ?_⟩
      · intro other member
        rcases List.mem_cons.mp member with rfl | member
        · omega
        · exact fits.depth other member
      · have work := fits.work
        simp only [totalWork_cons] at work ⊢
        omega
      · have bytes := fits.bytes
        simp only [totalBytes_cons] at bytes ⊢
        omega
      · simp [spend, Nat.sub_sub]
    · rintro ⟨fits, rfl⟩
      have work := fits.work
      have bytes := fits.bytes
      simp only [totalWork_cons, totalBytes_cons] at work bytes
      refine ⟨⟨?_, ?_, ?_⟩, ?_⟩
      · exact fun other member =>
          fits.depth other (List.mem_cons_of_mem _ member)
      · simp only
        omega
      · simp only
        omega
      · simp [spend, Nat.sub_sub]

end Charge

/-- The charge of a tag or column name. -/
def nameCharge (name : String) : Charge :=
  ⟨0, saturatingAdd name.utf8ByteSize 1, saturatingAdd name.utf8ByteSize 64⟩

/-- The charge of the head of a dictionary. -/
def dictCharge (depth : Nat) : Charge := ⟨depth, 1, 128⟩

/-- The charge of the head of a value. -/
def valueCharge (depth : Nat) (value : Kind) : Charge :=
  ⟨depth, saturatingAdd (ValueBudget.scalarBytes value) 1,
    saturatingAdd (ValueBudget.scalarBytes value) 512⟩

mutual

/-- The charges of a value. -/
def valueCharges (depth : Nat) : Kind → List Charge
  | .list elements =>
    valueCharge depth (.list elements) :: itemsCharges (depth + 1) elements
  | .dict tags =>
    valueCharge depth (.dict tags) :: dictCharge (depth + 1) :: entriesCharges (depth + 1) tags
  | .grid gridMeta cols rows =>
    valueCharge depth (.grid gridMeta cols rows) ::
      dictCharge (depth + 1) :: (entriesCharges (depth + 1) gridMeta ++
        (columnsCharges (depth + 1) cols ++ rowsCharges (depth + 1) rows))
  | scalar => [valueCharge depth scalar]

/-- The charges of the items of a list. -/
def itemsCharges (depth : Nat) : List Kind → List Charge
  | [] => []
  | item :: rest => valueCharges depth item ++ itemsCharges depth rest

/-- The charges of the entries of a dictionary. -/
def entriesCharges (depth : Nat) : List (String × Kind) → List Charge
  | [] => []
  | (name, value) :: rest =>
    nameCharge name :: (valueCharges (depth + 1) value ++ entriesCharges depth rest)

/-- The charges of the columns of a grid. -/
def columnsCharges (depth : Nat) : List (String × List (String × Kind)) → List Charge
  | [] => []
  | (name, colMeta) :: rest =>
    nameCharge name :: dictCharge depth ::
      (entriesCharges depth colMeta ++ columnsCharges depth rest)

/-- The charges of the rows of a grid. -/
def rowsCharges (depth : Nat) : List (List (String × Kind)) → List Charge
  | [] => []
  | row :: rest =>
    dictCharge depth :: (entriesCharges depth row ++ rowsCharges depth rest)

end

/-- The charges of a dictionary. -/
def dictCharges (depth : Nat) (row : HDict) : List Charge :=
  dictCharge depth :: entriesCharges depth row.iter

namespace ValueBudget

theorem chargeName_eq_step (budget : ValueBudget) (name : String) :
    budget.chargeName name = Charge.step budget (nameCharge name) := by
  simp [chargeName, Charge.step, nameCharge]

theorem chargeDict_eq_step (budget : ValueBudget) (depth : Nat) :
    budget.chargeDict depth = Charge.step budget (dictCharge depth) := rfl

theorem chargeValue_eq_step (budget : ValueBudget) (depth : Nat) (value : Kind) :
    budget.chargeValue depth value = Charge.step budget (valueCharge depth value) := rfl

mutual

/-- Charging a value is the run of its charges. -/
theorem value_eq_run (budget : ValueBudget) (depth : Nat) (value : Kind) :
    budget.value depth value = Charge.run budget (valueCharges depth value) := by
  cases value with
  | list elements =>
    simp only [ValueBudget.value, valueCharges, Charge.run_cons, chargeValue_eq_step, bind,
      items_eq_run _ (depth + 1) elements]
  | dict tags =>
    simp only [ValueBudget.value, valueCharges, Charge.run_cons, chargeValue_eq_step,
      chargeDict_eq_step, bind, entries_eq_run _ (depth + 1) tags]
  | grid gridMeta cols rows =>
    simp only [ValueBudget.value, valueCharges, Charge.run_cons, Charge.run_append,
      chargeValue_eq_step, chargeDict_eq_step, bind, entries_eq_run _ (depth + 1) gridMeta,
      columns_eq_run _ (depth + 1) cols, rows_eq_run _ (depth + 1) rows]
  | _ =>
    simp [ValueBudget.value, valueCharges, chargeValue_eq_step]

theorem items_eq_run (budget : ValueBudget) (depth : Nat) (elements : List Kind) :
    budget.items depth elements = Charge.run budget (itemsCharges depth elements) := by
  cases elements with
  | nil => rfl
  | cons item rest =>
    simp only [items, itemsCharges, Charge.run_append, bind, value_eq_run _ depth item,
      items_eq_run _ depth rest]

theorem entries_eq_run (budget : ValueBudget) (depth : Nat) (tags : List (String × Kind)) :
    budget.entries depth tags = Charge.run budget (entriesCharges depth tags) := by
  match tags with
  | [] => rfl
  | (name, tagValue) :: rest =>
    simp only [entries, entriesCharges, Charge.run_cons, Charge.run_append, chargeName_eq_step,
      bind, value_eq_run _ (depth + 1) tagValue, entries_eq_run _ depth rest]

theorem columns_eq_run (budget : ValueBudget) (depth : Nat)
    (cols : List (String × List (String × Kind))) :
    budget.columns depth cols = Charge.run budget (columnsCharges depth cols) := by
  match cols with
  | [] => rfl
  | (name, colMeta) :: rest =>
    simp only [columns, columnsCharges, Charge.run_cons, Charge.run_append, chargeName_eq_step,
      chargeDict_eq_step, bind, entries_eq_run _ depth colMeta, columns_eq_run _ depth rest]

theorem rows_eq_run (budget : ValueBudget) (depth : Nat)
    (gridRows : List (List (String × Kind))) :
    budget.rows depth gridRows = Charge.run budget (rowsCharges depth gridRows) := by
  match gridRows with
  | [] => rfl
  | row :: rest =>
    simp only [rows, rowsCharges, Charge.run_cons, Charge.run_append, chargeDict_eq_step, bind,
      entries_eq_run _ depth row, rows_eq_run _ depth rest]

end

/-- Charging a dictionary is the run of its charges. -/
theorem dict_eq_run (budget : ValueBudget) (row : HDict) (depth : Nat) :
    budget.dict row depth = Charge.run budget (dictCharges depth row) := by
  simp [dict, dictCharges, chargeDict_eq_step, entries_eq_run]

/-- Charging a list of dictionaries is the run of all their charges. -/
theorem dicts_eq_run (budget : ValueBudget) (depth : Nat) (rows : List HDict) :
    budget.dicts depth rows = Charge.run budget (rows.flatMap (dictCharges depth)) := by
  induction rows generalizing budget with
  | nil => rfl
  | cons row rest ih =>
    simp [dicts, Charge.run_append, dict_eq_run, ih]

end ValueBudget

/-! ## Retained bytes of a diff -/

/-- The charges of a diff that stores complete rows. -/
def diffCharges (id : String) (rows : List HDict) : List Charge :=
  ⟨0, 1, saturatingAdd id.utf8ByteSize 256⟩ :: rows.flatMap (dictCharges 1)

/-- The charges of the previous values of the patched tags. -/
def previousCharges (old : HDict) (tags : List (String × Kind)) : List Charge :=
  tags.flatMap fun tag =>
    match old.get tag.1 with
    | some value => nameCharge tag.1 :: valueCharges 2 value
    | none => []

/-- The charges of a diff that stores a patch. -/
def patchCharges (id : String) (old changes : HDict) : List Charge :=
  ⟨0, 1, saturatingAdd id.utf8ByteSize 384⟩ ::
    (dictCharges 1 changes ++ previousCharges old changes.iter)

theorem previousBytes_eq_run (old : HDict) (budget : ValueBudget) (tags : List (String × Kind)) :
    previousBytes old budget tags = Charge.run budget (previousCharges old tags) := by
  induction tags generalizing budget with
  | nil => rfl
  | cons tag rest ih =>
    obtain ⟨name, _⟩ := tag
    simp only [previousBytes, previousCharges, List.flatMap_cons]
    cases old.get name with
    | none => exact ih budget
    | some =>
      simp only [ValueBudget.value_eq_run, List.cons_append, Charge.run_cons, Charge.run_append,
        ih]
      rfl

variable {bytes : Nat} {limit : Nat} {charges : List Charge}

/-- A fresh budget with an initial charge is the run of all charges. -/
private theorem run_usedBytes_eq_some_iff :
    (Charge.run (ValueBudget.new usizeMax limit 64) charges).map
        ValueBudget.usedBytes = some bytes ↔
      Charge.Fits (ValueBudget.new usizeMax limit 64) charges ∧
        bytes = Charge.totalBytes charges := by
  rw [Option.map_eq_some_iff]
  constructor
  · rintro ⟨after, ran, rfl⟩
    obtain ⟨fits, rfl⟩ := Charge.run_eq_some_iff.mp ran
    refine ⟨fits, ?_⟩
    have bound := fits.bytes
    simp only [ValueBudget.usedBytes, Charge.spend, ValueBudget.new] at *
    omega
  · rintro ⟨fits, rfl⟩
    refine ⟨_, Charge.run_eq_some_iff.mpr ⟨fits, rfl⟩, ?_⟩
    have bound := fits.bytes
    simp only [ValueBudget.usedBytes, Charge.spend, ValueBudget.new] at *
    omega

variable {id : String} {rows : List HDict}

/-- A diff of complete rows is retained when its charges fit. -/
theorem diffBytes_eq_some_iff : diffBytes id rows limit = some bytes ↔
      Charge.Fits (ValueBudget.new usizeMax limit 64) (diffCharges id rows) ∧
        bytes = Charge.totalBytes (diffCharges id rows) := by
  rw [← run_usedBytes_eq_some_iff]
  have walk : diffBytes id rows limit =
      (Charge.run (ValueBudget.new usizeMax limit 64) (diffCharges id rows)).map
        ValueBudget.usedBytes := by
    simp [diffBytes, diffCharges, ValueBudget.dicts_eq_run, Charge.step,
      Option.map_eq_bind, Option.bind_assoc]
  rw [walk]

/-- A patch is retained when its charges fit. -/
theorem patchDiffBytes_eq_some_iff {old changes : HDict} :
    patchDiffBytes id old changes limit = some bytes ↔
      Charge.Fits (ValueBudget.new usizeMax limit 64) (patchCharges id old changes) ∧
        bytes = Charge.totalBytes (patchCharges id old changes) := by
  rw [← run_usedBytes_eq_some_iff]
  have walk : patchDiffBytes id old changes limit =
      (Charge.run (ValueBudget.new usizeMax limit 64)
        (patchCharges id old changes)).map ValueBudget.usedBytes := by
    simp [patchDiffBytes, patchCharges, ValueBudget.dict_eq_run,
      previousBytes_eq_run, Charge.step, Charge.run_append,
      Option.map_eq_bind, Option.bind_assoc]
  rw [walk]

/-! ## Accounting that does not depend on the limit -/

/-- The work of a charge never exceeds its bytes. -/
def Charge.Light (charge : Charge) : Prop := charge.work ≤ charge.bytes

theorem saturatingAdd_mono (a : Nat) {b c : Nat} (le : b ≤ c) :
    saturatingAdd a b ≤ saturatingAdd a c := by
  unfold saturatingAdd
  omega

theorem nameCharge_light (name : String) : (nameCharge name).Light :=
  saturatingAdd_mono _ (by decide)

theorem dictCharge_light (depth : Nat) : (dictCharge depth).Light := by
  simp [Charge.Light, dictCharge]

theorem valueCharge_light (depth : Nat) (value : Kind) : (valueCharge depth value).Light :=
  saturatingAdd_mono _ (by decide)

mutual

theorem valueCharges_light (depth : Nat) (value : Kind) :
    ∀ charge ∈ valueCharges depth value, charge.Light := by
  cases value with
  | list elements =>
    rw [valueCharges, List.forall_mem_cons]
    exact ⟨valueCharge_light _ _, itemsCharges_light (depth + 1) elements⟩
  | dict tags =>
    rw [valueCharges, List.forall_mem_cons, List.forall_mem_cons]
    exact ⟨valueCharge_light _ _, dictCharge_light _, entriesCharges_light (depth + 1) tags⟩
  | grid gridMeta cols rows =>
    rw [valueCharges, List.forall_mem_cons, List.forall_mem_cons, List.forall_mem_append,
      List.forall_mem_append]
    exact ⟨valueCharge_light _ _, dictCharge_light _, entriesCharges_light (depth + 1) gridMeta,
      columnsCharges_light (depth + 1) cols, rowsCharges_light (depth + 1) rows⟩
  | _ => simp [valueCharges, valueCharge_light]

theorem itemsCharges_light (depth : Nat) (elements : List Kind) :
    ∀ charge ∈ itemsCharges depth elements, charge.Light := by
  cases elements with
  | nil => simp [itemsCharges]
  | cons item rest =>
    rw [itemsCharges, List.forall_mem_append]
    exact ⟨valueCharges_light depth item, itemsCharges_light depth rest⟩

theorem entriesCharges_light (depth : Nat) (tags : List (String × Kind)) :
    ∀ charge ∈ entriesCharges depth tags, charge.Light := by
  match tags with
  | [] => simp [entriesCharges]
  | (name, value) :: rest =>
    rw [entriesCharges, List.forall_mem_cons, List.forall_mem_append]
    exact ⟨nameCharge_light name, valueCharges_light (depth + 1) value,
      entriesCharges_light depth rest⟩

theorem columnsCharges_light (depth : Nat) (cols : List (String × List (String × Kind))) :
    ∀ charge ∈ columnsCharges depth cols, charge.Light := by
  match cols with
  | [] => simp [columnsCharges]
  | (name, colMeta) :: rest =>
    rw [columnsCharges, List.forall_mem_cons, List.forall_mem_cons, List.forall_mem_append]
    exact ⟨nameCharge_light name, dictCharge_light depth, entriesCharges_light depth colMeta,
      columnsCharges_light depth rest⟩

theorem rowsCharges_light (depth : Nat) (gridRows : List (List (String × Kind))) :
    ∀ charge ∈ rowsCharges depth gridRows, charge.Light := by
  match gridRows with
  | [] => simp [rowsCharges]
  | row :: rest =>
    rw [rowsCharges, List.forall_mem_cons, List.forall_mem_append]
    exact ⟨dictCharge_light depth, entriesCharges_light depth row, rowsCharges_light depth rest⟩

end

theorem diffCharges_light (id : String) (rows : List HDict) :
    ∀ charge ∈ diffCharges id rows, charge.Light := by
  simp only [diffCharges, List.mem_cons, List.mem_flatMap, dictCharges]
  rintro charge (rfl | ⟨row, _, rfl | member⟩)
  · change 1 ≤ saturatingAdd id.utf8ByteSize 256
    unfold saturatingAdd usizeMax
    omega
  · exact dictCharge_light 1
  · exact entriesCharges_light 1 _ charge member

theorem Charge.totalWork_le_totalBytes (light : ∀ charge ∈ charges, charge.Light) :
    totalWork charges ≤ totalBytes charges := by
  induction charges with
  | nil => simp
  | cons charge charges ih =>
    have head := light charge (by simp)
    have tail := ih fun other member =>
      light other (List.mem_cons_of_mem _ member)
    simp only [totalWork_cons, totalBytes_cons]
    unfold Charge.Light at head
    omega

/-- The bytes of a diff of complete rows, whatever the limit. -/
structure Accounts (id : String) (rows : List HDict) (bytes : Nat) : Prop where
  depth : ∀ charge ∈ diffCharges id rows, charge.depth ≤ 64
  bytes : bytes = Charge.totalBytes (diffCharges id rows)

theorem accounts_of_diffBytes (retained : diffBytes id rows limit = some bytes) :
    Accounts id rows bytes := by
  obtain ⟨fits, same⟩ := diffBytes_eq_some_iff.mp retained
  exact ⟨fits.depth, same⟩

/-- Bytes that were accounted once are accounted again under every limit that
they do not exceed. -/
theorem Accounts.diffBytes_eq (accounts : Accounts id rows bytes) (within : bytes ≤ limit)
    (machine : limit ≤ usizeMax) : diffBytes id rows limit = some bytes := by
  have light := Charge.totalWork_le_totalBytes (diffCharges_light id rows)
  have total := accounts.bytes
  refine diffBytes_eq_some_iff.mpr ⟨⟨accounts.depth, ?_, ?_⟩, total⟩
  · simp only [ValueBudget.new]
    omega
  · simp only [ValueBudget.new]
    omega

/-! ## Patches as pairs of dictionaries -/

theorem entriesCharges_eq_flatMap (depth : Nat) (tags : List (String × Kind)) :
    entriesCharges depth tags = tags.flatMap fun tag =>
        nameCharge tag.1 :: valueCharges (depth + 1) tag.2 := by
  induction tags with
  | nil => simp [entriesCharges]
  | cons tag rest ih =>
    simp [entriesCharges, ih]

theorem previousCharges_eq_flatMap (old : HDict) (tags : List (String × Kind)) :
    previousCharges old tags = (tags.filterMap fun tag =>
        (old.get tag.1).map fun value => (tag.1, value)).flatMap
        fun tag => nameCharge tag.1 :: valueCharges 2 tag.2 := by
  induction tags with
  | nil => rfl
  | cons tag rest ih =>
    rw [previousCharges] at ih ⊢
    rw [List.flatMap_cons, List.filterMap_cons, ih]
    cases old.get tag.1 <;> simp

/-- The previous values are charged as the entries of the dictionary that
holds them. -/
theorem previousCharges_perm {old previous : HDict} {tags : List (String × Kind)}
    (values : previous.iter.Perm (tags.filterMap fun tag =>
      (old.get tag.1).map fun value => (tag.1, value))) :
    (previousCharges old tags).Perm (entriesCharges 1 previous.iter) := by
  rw [previousCharges_eq_flatMap, entriesCharges_eq_flatMap]
  exact (values.flatMap_right _).symm

/-- A patch costs as much as a diff of the patch and the values it replaced, as
long as the length of the id does not saturate. -/
theorem accounts_of_patchDiffBytes {old changes previous : HDict}
    (short : id.utf8ByteSize + 384 ≤ usizeMax)
    (values : previous.iter.Perm (changes.iter.filterMap fun tag =>
      (old.get tag.1).map fun value => (tag.1, value)))
    (retained : patchDiffBytes id old changes limit = some bytes) :
    Accounts id [changes, previous] bytes := by
  obtain ⟨fits, rfl⟩ := patchDiffBytes_eq_some_iff.mp retained
  have perm := previousCharges_perm values
  have total : Charge.totalBytes (previousCharges old changes.iter) =
      Charge.totalBytes (entriesCharges 1 previous.iter) :=
    (perm.map Charge.bytes).sum_eq
  constructor
  · intro charge member
    simp only [diffCharges, dictCharges, List.flatMap_cons, List.flatMap_nil,
      List.mem_cons, List.mem_append, List.append_nil] at member
    have depth := fits.depth
    simp only [patchCharges, dictCharges, List.mem_cons, List.mem_append] at depth
    rcases member with rfl | (rfl | member) | rfl | member
    · simp
    · simp [dictCharge]
    · exact depth charge (.inr (.inl (.inr member)))
    · simp [dictCharge]
    · exact depth charge (.inr (.inr (perm.mem_iff.mpr member)))
  · simp only [patchCharges, diffCharges, dictCharges, Charge.totalBytes_cons,
      Charge.totalBytes_append, List.flatMap_cons, List.flatMap_nil, List.append_nil, dictCharge,
      saturatingAdd]
    omega

end Graph
end Haystack
