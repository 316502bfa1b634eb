import Haystack.Characters
import Haystack.Collections.Assoc
import Haystack.Formats

/-!
# Nested values

What occurs in a value: the items of a list, and the tags of a dictionary, of the
meta of a grid, of its columns and of its rows.
-/

namespace Haystack
namespace Kind

/-- A value occurs directly in another one, under a tag or as an item. -/
inductive Contains : Kind → Option String → Kind → Prop
  | item {items : List Kind} {value : Kind} (member : value ∈ items) :
      Contains (.list items) .none value
  | entry {tags : List (String × Kind)} {tag : String} {value : Kind}
      (member : (tag, value) ∈ tags) :
      Contains (.dict tags) (some tag) value
  | gridMeta {gridMeta : List (String × Kind)} {cols : List (String × List (String × Kind))}
      {rows : List (List (String × Kind))} {tag : String} {value : Kind}
      (member : (tag, value) ∈ gridMeta) :
      Contains (.grid gridMeta cols rows) (some tag) value
  | column {gridMeta : List (String × Kind)} {cols : List (String × List (String × Kind))}
      {rows : List (List (String × Kind))} {name : String}
      {colMeta : List (String × Kind)} {tag : String} {value : Kind}
      (column : (name, colMeta) ∈ cols)
      (member : (tag, value) ∈ colMeta) :
      Contains (.grid gridMeta cols rows) (some tag) value
  | row {gridMeta : List (String × Kind)} {cols : List (String × List (String × Kind))}
      {rows : List (List (String × Kind))} {tags : List (String × Kind)}
      {tag : String} {value : Kind}
      (row : tags ∈ rows)
      (member : (tag, value) ∈ tags) :
      Contains (.grid gridMeta cols rows) (some tag) value

/-- A name occurs directly in a value, as a tag or as a column. -/
inductive Names : Kind → String → Prop
  | tag {value inner : Kind} {name : String} (contains : Contains value (some name) inner) :
      Names value name
  | column {gridMeta : List (String × Kind)} {cols : List (String × List (String × Kind))}
      {rows : List (List (String × Kind))} {name : String}
      {colMeta : List (String × Kind)}
      (member : (name, colMeta) ∈ cols) :
      Names (.grid gridMeta cols rows) name

/-- A value occurs at any depth in the value of a tag. -/
inductive Nested : Option String → Kind → Option String → Kind → Prop
  | refl (tag : Option String) (value : Kind) : Nested tag value tag value
  | step {tag next last : Option String} {value middle inner : Kind}
      (contains : Contains value next middle)
      (rest : Nested next middle last inner) :
      Nested tag value last inner

variable {value : Kind} {tags : List (String × Kind)}

private theorem sizeOf_entry_lt {tag : String} (member : (tag, value) ∈ tags) :
    sizeOf value < sizeOf tags := by
  have := List.sizeOf_lt_of_mem member
  simp only [Prod.mk.sizeOf_spec] at this
  omega

variable {inner : Kind} {tag : Option String}

theorem Contains.sizeOf_lt (contains : Contains value tag inner) :
    sizeOf inner < sizeOf value := by
  cases contains with
  | item member =>
    have := List.sizeOf_lt_of_mem member
    simp only [list.sizeOf_spec]
    omega
  | entry member =>
    have := sizeOf_entry_lt member
    simp only [dict.sizeOf_spec]
    omega
  | gridMeta member =>
    have := sizeOf_entry_lt member
    simp only [grid.sizeOf_spec]
    omega
  | column column member =>
    have inside := sizeOf_entry_lt member
    have listed := List.sizeOf_lt_of_mem column
    simp only [Prod.mk.sizeOf_spec] at listed
    simp only [grid.sizeOf_spec]
    omega
  | row row member =>
    have inside := sizeOf_entry_lt member
    have listed := List.sizeOf_lt_of_mem row
    simp only [grid.sizeOf_spec]
    omega

/-- Induction over the values that occur in a value. -/
@[elab_as_elim]
theorem nestingInduction {motive : Kind → Prop}
    (step : ∀ value, (∀ tag inner, Contains value tag inner → motive inner) → motive value)
    (value : Kind) : motive value := by
  refine (measure (sizeOf (α := Kind))).wf.induction value ?_
  intro value ih
  exact step value fun _ inner contains =>
    ih inner contains.sizeOf_lt

/-- The first tag does not matter for what occurs in a value. -/
theorem Nested.of_tag {last : Option String} (nested : Nested tag value last inner)
    (other : Option String) : Nested other value last inner ∨ (inner = value ∧ last = tag) := by
  cases nested with
  | refl => exact .inr ⟨rfl, rfl⟩
  | step contains rest => exact .inl (.step contains rest)

/-- A property of the value and of every value that occurs in it. -/
def Everywhere (holds : Kind → Prop) (value : Kind) : Prop :=
  ∀ tag inner, Nested .none value tag inner → holds inner

variable {holds : Kind → Prop}

theorem Everywhere.self (everywhere : Everywhere holds value) : holds value :=
  everywhere _ _ (.refl _ _)

theorem Everywhere.inside (everywhere : Everywhere holds value)
    (contains : Contains value tag inner) : Everywhere holds inner := by
  intro last deep nested
  rcases nested.of_tag tag with nested | ⟨rfl, -⟩
  · exact everywhere last deep (.step contains nested)
  · exact everywhere tag deep (.step contains (.refl _ _))

/-- A property holds everywhere when it holds of the value and everywhere in what
occurs in it. -/
theorem everywhere_of_contains (self : holds value)
    (inside : ∀ tag inner, Contains value tag inner → Everywhere holds inner) :
    Everywhere holds value := by
  intro tag inner nested
  cases nested with
  | refl => exact self
  | step contains rest =>
    rcases rest.of_tag .none with nested | ⟨rfl, -⟩
    · exact inside _ _ contains tag inner nested
    · exact (inside _ _ contains).self

/-- Neither a list nor a dictionary nor a grid. -/
def isScalar : Kind → Bool
  | .list _ | .dict _ | .grid _ _ _ => false
  | _ => true

/-- A property of a scalar holds everywhere in it. -/
theorem everywhere_of_isScalar (scalar : value.isScalar = true) (self : holds value) :
    Everywhere holds value := by
  refine everywhere_of_contains self fun _ _ contains => ?_
  cases contains with
  | _ => cases scalar

/-! ## Levels -/

section Levels

variable (own : Kind → Nat)

mutual

/-- The levels of a value, where every value takes some levels of its own above
those of what occurs in it. -/
def levels : Kind → Nat
  | .list items => own (.list items) + levelsItems items
  | .dict tags => own (.dict tags) + levelsEntries tags
  | .grid gridMeta cols rows =>
    own (.grid gridMeta cols rows) +
      max (levelsEntries gridMeta) (max (levelsColumns cols) (levelsRows rows))
  | scalar => own scalar

/-- The levels of a list of values. -/
def levelsItems : List Kind → Nat
  | [] => 0
  | value :: rest => max (levels value) (levelsItems rest)

/-- The levels of the entries of a dictionary. -/
def levelsEntries : List (String × Kind) → Nat
  | [] => 0
  | (_, value) :: rest => max (levels value) (levelsEntries rest)

/-- The levels of the columns of a grid. -/
def levelsColumns : List (String × List (String × Kind)) → Nat
  | [] => 0
  | (_, colMeta) :: rest => max (levelsEntries colMeta) (levelsColumns rest)

/-- The levels of the rows of a grid. -/
def levelsRows : List (List (String × Kind)) → Nat
  | [] => 0
  | row :: rest => max (levelsEntries row) (levelsRows rest)

end

variable {own}

variable (own)

end Levels
end Kind

/-! ## Well-formed values

What the value types of the source guarantee by construction: the entries of a
dictionary are a map, dates and times are in the range of the calendar library, and
a nominal scalar has passed its constructor. -/

open Collections

/-- A qualified name `library::Spec`, with no other colon and no white space. -/
def isQualified (spec : List Char) : Bool :=
  match splitOnce [':', ':'] spec with
  | none => false
  | some (lib, name) =>
    !lib.isEmpty && !name.isEmpty && !name.contains ':' &&
      !lib.contains ':' && !spec.any isWhitespace

/-- The constructor of nominal scalars. -/
def NominalScalar.new (spec catalog revision text : String) : Option NominalScalar :=
  if !isQualified spec.toList || catalog.isEmpty || revision.isEmpty then none
  else some ⟨spec, catalog, revision, text⟩

namespace Kind

/-- What a value guarantees by itself. -/
def OwnForm : Kind → Prop
  | .nominal value =>
    NominalScalar.new value.spec value.catalog value.revision value.text = some value
  | .date day => day.Valid
  | .time clock => clock.Valid
  | .dateTime value => value.dt.Valid
  | .dict tags => Assoc.Sorted tags
  | .grid gridMeta cols rows =>
    Assoc.Sorted gridMeta ∧ (∀ col ∈ cols, Assoc.Sorted col.2) ∧ ∀ row ∈ rows, Assoc.Sorted row
  | _ => True

/-- A value of the source. -/
def WellFormed (value : Kind) : Prop := Everywhere OwnForm value

end Kind

/-! ## Grids -/

/-- A grid. -/
@[ext] structure HGrid where
  gridMeta : List (String × Kind)
  cols : List (String × List (String × Kind))
  rows : List (List (String × Kind))

namespace HGrid

/-- A grid as a value. -/
def kind (grid : HGrid) : Kind := .grid grid.gridMeta grid.cols grid.rows

/-- A grid of the source. -/
def WellFormed (grid : HGrid) : Prop := grid.kind.WellFormed

end HGrid
end Haystack
