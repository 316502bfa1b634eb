import Haystack.App.Sanitize
import Haystack.Nesting

/-!
# What a policy shows

Every identity that occurs in an authorized row is one that the policy shows, and
no name occurs that it hides from the owner.  A row that was authorized once is
unchanged by the same policy.
-/

namespace Haystack
namespace App
namespace PolicySnapshot

open Kind (Contains Names Nested)

variable (policy : PolicySnapshot)

/-! ## The recursions as operations on lists -/

theorem visibleItems_eq (items : List Kind) :
    policy.visibleItems items = items.all (policy.visible false) := by
  induction items with
  | nil => rfl
  | cons item items ih =>
    rw [visibleItems, ih, List.all_cons]

/-- A value is shown under a tag or as an item. -/
def shows (tag : Option String) (value : Kind) : Bool :=
  match tag with
  | some tag => policy.memberVisible tag value (policy.visible false value)
  | none => policy.visible false value

theorem visitDict_eq (tags : List (String × Kind)) :
    policy.visitDict tags = tags.all fun entry => policy.shows (some entry.1) entry.2 := by
  induction tags with
  | nil => rfl
  | cons entry tags ih =>
    rw [visitDict, ih]
    rfl

theorem visitColumns_eq (cols : List (String × List (String × Kind))) :
    policy.visitColumns cols = cols.all fun col => policy.visitDict col.2 := by
  induction cols with
  | nil => rfl
  | cons col cols ih =>
    rw [visitColumns, ih, List.all_cons]

theorem visitRows_eq (rows : List (List (String × Kind))) :
    policy.visitRows rows = rows.all policy.visitDict := by
  induction rows with
  | nil => rfl
  | cons row rows ih =>
    rw [visitRows, ih, List.all_cons]

variable (owner : String)

theorem copyItems_eq (items : List Kind) :
    policy.copyItems owner items = items.map (policy.copyValue owner) := by
  induction items with
  | nil => rfl
  | cons item items ih =>
    rw [copyItems, ih, List.map_cons]

theorem copyDict_eq (tags : List (String × Kind)) :
    policy.copyDict owner tags = (tags.filter fun entry => policy.tag owner entry.1).map
        fun entry => (entry.1, policy.copyValue owner entry.2) := by
  induction tags with
  | nil => rfl
  | cons entry tags ih =>
    rw [copyDict, ih, List.filter_cons]
    split <;> rfl

theorem copyColumns_eq (cols : List (String × List (String × Kind))) :
    policy.copyColumns owner cols = (cols.filter fun col => policy.tag owner col.1).map
        fun col => (col.1, policy.copyDict owner col.2) := by
  induction cols with
  | nil => rfl
  | cons col cols ih =>
    rw [copyColumns, ih, List.filter_cons]
    split <;> rfl

theorem copyRows_eq (rows : List (List (String × Kind))) :
    policy.copyRows owner rows = rows.map (policy.copyDict owner) := by
  induction rows with
  | nil => rfl
  | cons row rows ih =>
    rw [copyRows, ih, List.map_cons]

variable {policy owner} {value : Kind} {tags : List (String × Kind)}

theorem mem_copyDict {tag : String} :
    (tag, value) ∈ policy.copyDict owner tags ↔ policy.tag owner tag = true ∧
        ∃ original, (tag, original) ∈ tags ∧ value = policy.copyValue owner original := by
  rw [copyDict_eq]
  simp only [List.mem_map, Prod.exists]
  grind

variable {name : String}

theorem mem_copyColumns {cols : List (String × List (String × Kind))}
    {colMeta : List (String × Kind)} :
    (name, colMeta) ∈ policy.copyColumns owner cols ↔ policy.tag owner name = true ∧
        ∃ original, (name, original) ∈ cols ∧ colMeta = policy.copyDict owner original := by
  rw [copyColumns_eq]
  simp only [List.mem_map, Prod.exists]
  grind

/-! ## Values -/

variable {tag : Option String} {inner : Kind} {next : Option String}

/-- A reference in a catalog position is the value itself, so what contains other
values is shown as a value. -/
theorem shows_eq_visible (contains : Contains value next inner) :
    policy.shows tag value = policy.visible false value := by
  cases tag with
  | none => rfl
  | some tag =>
    have plain : catalogReference tag value = none := by
      unfold catalogReference
      cases contains <;> split <;> rfl
    rw [shows, memberVisible, plain]

/-- What occurs in a shown value is shown. -/
theorem shows_of_contains (shown : policy.shows tag value = true)
    (contains : Contains value next inner) : policy.shows next inner = true := by
  rw [shows_eq_visible contains] at shown
  cases contains with
  | item member =>
    rw [visible, visibleItems_eq, List.all_eq_true] at shown
    exact shown inner member
  | entry member =>
    rw [visible, visitDict_eq, List.all_eq_true] at shown
    exact shown _ member
  | gridMeta member =>
    rw [visible, Bool.and_eq_true, Bool.and_eq_true] at shown
    rw [visitDict_eq, List.all_eq_true] at shown
    exact shown.1.1 _ member
  | column column member =>
    rw [visible, Bool.and_eq_true, Bool.and_eq_true, visitColumns_eq] at shown
    have listed := List.all_eq_true.mp shown.1.2 _ column
    rw [visitDict_eq, List.all_eq_true] at listed
    exact listed _ member
  | row row member =>
    rw [visible, Bool.and_eq_true, visitRows_eq] at shown
    have listed := List.all_eq_true.mp shown.2 _ row
    rw [visitDict_eq, List.all_eq_true] at listed
    exact listed _ member

/-- What occurs in a copy is a copy, and its tag is allowed. -/
theorem contains_copyValue (contains : Contains (policy.copyValue owner value) tag inner) :
    (∀ name, tag = some name → policy.tag owner name = true) ∧
      ∃ original, Contains value tag original ∧ inner = policy.copyValue owner original := by
  cases value with
  | list =>
    rw [copyValue, copyItems_eq] at contains
    cases contains with
    | item member =>
      obtain ⟨original, listed, rfl⟩ := List.mem_map.mp member
      exact ⟨nofun, original, .item listed, rfl⟩
  | dict =>
    cases contains with
    | entry member =>
      obtain ⟨allowed, original, listed, rfl⟩ := mem_copyDict.mp member
      exact ⟨fun _ same => Option.some.inj same ▸ allowed, original, .entry listed, rfl⟩
  | grid gridMeta =>
    cases contains with
    | gridMeta member =>
      obtain ⟨allowed, original, listed, rfl⟩ := mem_copyDict.mp member
      exact ⟨fun _ same => Option.some.inj same ▸ allowed, original, .gridMeta listed, rfl⟩
    | column column member =>
      obtain ⟨_, _, listed, rfl⟩ := mem_copyColumns.mp column
      obtain ⟨allowed, original, inside, rfl⟩ := mem_copyDict.mp member
      exact ⟨fun _ same => Option.some.inj same ▸ allowed, original, .column listed inside, rfl⟩
    | row row member =>
      rw [copyRows_eq] at row
      obtain ⟨_, listed, rfl⟩ := List.mem_map.mp row
      obtain ⟨allowed, original, inside, rfl⟩ := mem_copyDict.mp member
      exact ⟨fun _ same => Option.some.inj same ▸ allowed, original, .row listed inside, rfl⟩
  | _ => cases contains

/-- Every name in a copy is allowed. -/
theorem tag_of_names_copyValue (names : Names (policy.copyValue owner value) name) :
    policy.tag owner name = true := by
  generalize copied : policy.copyValue owner value = copy at names
  cases names with
  | tag contains =>
    subst copied
    exact (contains_copyValue contains).1 name rfl
  | column member =>
    cases value with
    | grid =>
      cases copied
      exact (mem_copyColumns.mp member).1
    | _ => cases copied

variable {last : Option String}

/-- What is nested in a copy is the copy of a nested value. -/
theorem nested_copyValue (nested : Nested tag (policy.copyValue owner value) last inner) :
    ∃ original, Nested tag value last original ∧ inner = policy.copyValue owner original := by
  generalize copied : policy.copyValue owner value = copy at nested
  induction nested generalizing value with
  | refl tag => exact ⟨value, .refl tag value, copied.symm⟩
  | step contains rest ih =>
    subst copied
    obtain ⟨_, _, inside, rfl⟩ := contains_copyValue contains
    obtain ⟨original, nested, same⟩ := ih rfl
    exact ⟨original, .step inside nested, same⟩

theorem shows_of_nested (shown : policy.shows tag value = true)
    (nested : Nested tag value last inner) : policy.shows last inner = true := by
  induction nested with
  | refl => exact shown
  | step contains rest ih =>
    exact ih (shows_of_contains shown contains)

/-! ## A second pass changes nothing -/

@[simp] theorem catalogReference_copyValue (tag : String) (value : Kind) :
    catalogReference tag (policy.copyValue owner value) = catalogReference tag value := by
  cases value <;> rfl

@[simp] theorem isOwnId_copyValue (id tag : String) (value : Kind) :
    isOwnId id tag (policy.copyValue owner value) = isOwnId id tag value := by
  cases value <;> rfl

/-- A value in which other values can occur. -/
def isContainer : Kind → Bool
  | .list _ | .dict _ | .grid .. => true
  | _ => false

theorem visitDict_of_shows
    (shown : ∀ tag value, (tag, value) ∈ tags → policy.shows (some tag) value = true) :
    policy.visitDict tags = true := by
  rw [visitDict_eq, List.all_eq_true]
  rintro ⟨tag, value⟩ member
  exact shown tag value member

/-- A container is visible when everything that occurs in it is shown. -/
theorem visible_of_contains {ownId : Bool} (container : isContainer value = true)
    (shown : ∀ tag inner, Contains value tag inner → policy.shows tag inner = true) :
    policy.visible ownId value = true := by
  cases value with
  | list =>
    rw [visible, visibleItems_eq, List.all_eq_true]
    exact fun item member => shown none item (.item member)
  | dict =>
    exact visitDict_of_shows fun tag value member =>
      shown (some tag) value (.entry member)
  | grid gridMeta =>
    rw [visible, Bool.and_eq_true, Bool.and_eq_true, visitColumns_eq,
      visitRows_eq, List.all_eq_true, List.all_eq_true]
    refine ⟨⟨?_, ?_⟩, ?_⟩
    · exact visitDict_of_shows fun tag value member =>
        shown (some tag) value (.gridMeta member)
    · rintro ⟨name, colMeta⟩ column
      exact visitDict_of_shows fun tag value member =>
        shown (some tag) value (.column column member)
    · intro row listed
      exact visitDict_of_shows fun tag value member =>
        shown (some tag) value (.row listed member)
  | _ => cases container

@[simp] theorem isContainer_copyValue (value : Kind) :
    isContainer (policy.copyValue owner value) = isContainer value := by
  cases value <;> rfl

/-- A copy shows no more than the original. -/
theorem visible_copyValue {ownId : Bool} (shown : policy.visible ownId value = true) :
    policy.visible ownId (policy.copyValue owner value) = true := by
  induction value using Kind.nestingInduction generalizing ownId with
  | step value ih =>
    by_cases container : isContainer value = true
    · refine visible_of_contains (by rwa [isContainer_copyValue]) ?_
      intro tag inner contains
      obtain ⟨_, original, inside, rfl⟩ := contains_copyValue contains
      have plain : policy.shows none value = true := by
        cases value <;> first | exact shown | cases container
      have before := shows_of_contains plain inside
      cases tag with
      | none => exact ih _ original inside before
      | some =>
        simp only [shows, memberVisible, catalogReference_copyValue] at before ⊢
        split at before
        · exact before
        · exact ih _ original inside before
    · cases value <;> first | exact shown | exact absurd rfl container

theorem copyDict_copyDict (twice : ∀ tag value, (tag, value) ∈ tags →
      policy.copyValue owner (policy.copyValue owner value) = policy.copyValue owner value) :
    policy.copyDict owner (policy.copyDict owner tags) = policy.copyDict owner tags := by
  rw [copyDict_eq policy owner (policy.copyDict owner tags), copyDict_eq,
    List.filter_map, List.filter_filter, List.map_map]
  simp only [Function.comp_apply, Bool.and_self]
  refine List.map_congr_left fun entry member => ?_
  simp only [Function.comp_apply]
  rw [twice entry.1 entry.2 (List.mem_of_mem_filter member)]

/-- Copying twice is copying once. -/
theorem copyValue_copyValue (value : Kind) :
    policy.copyValue owner (policy.copyValue owner value) = policy.copyValue owner value := by
  induction value using Kind.nestingInduction with
  | step value twice =>
    cases value with
    | ref =>
      simp only [copyValue]
      split <;> rfl
    | list =>
      simp only [copyValue, copyItems_eq, List.map_map]
      congr 1
      exact List.map_congr_left fun item member =>
        twice none item (.item member)
    | dict =>
      simp only [copyValue]
      rw [copyDict_copyDict fun tag value member =>
        twice (some tag) value (.entry member)]
    | grid gridMeta =>
      simp only [copyValue, copyRows_eq, List.map_map]
      congr 1
      · exact copyDict_copyDict fun tag value member =>
          twice (some tag) value (.gridMeta member)
      · rw [copyColumns_eq, copyColumns_eq, List.filter_map, List.filter_filter, List.map_map]
        simp only [Function.comp_apply, Bool.and_self]
        refine List.map_congr_left fun col member => ?_
        simp only [Function.comp_apply]
        rw [copyDict_copyDict fun tag value inside =>
          twice (some tag) value (.column (List.mem_of_mem_filter member) inside)]
      · refine List.map_congr_left fun row listed => ?_
        exact copyDict_copyDict fun tag value member =>
          twice (some tag) value (.row listed member)
    | _ => rfl

/-! ## Records -/

theorem showsTag_copyValue {tag : String} (shown : policy.showsTag owner tag value = true) :
    policy.showsTag owner tag (policy.copyValue owner value) = true := by
  rw [showsTag, Bool.and_eq_true] at shown ⊢
  refine ⟨shown.1, ?_⟩
  have visible := shown.2
  simp only [memberVisible, catalogReference_copyValue, isOwnId_copyValue] at visible ⊢
  split at visible
  · exact visible
  · exact visible_copyValue visible

theorem record_eq_none_iff {raw : HDict} :
    policy.record owner raw = none ↔ policy.entity owner = false := by
  unfold record
  cases policy.entity owner <;> simp

variable {raw row : HDict}

theorem get_record (recorded : policy.record owner raw = some row) (tag : String) :
    row.get tag = (raw.get tag).bind fun value =>
      if policy.showsTag owner tag value then
        some (policy.copyValue owner value)
      else none := by
  unfold record at recorded
  split at recorded
  · cases recorded
  · cases recorded
    unfold HDict.iter
    rw [Collections.observe_foldl_toList (HDict.get · tag) fun entry slot =>
        if policy.showsTag owner entry.1 entry.2 then
          some (policy.copyValue owner entry.2)
        else slot]
    · change (raw.get tag).elim _ _ = _
      cases raw.get tag <;> simp
    · rintro out ⟨name, value⟩
      simp only
      split <;> split <;> simp_all

/-- A row that was authorized is unchanged by the same policy. -/
theorem record_record (recorded : policy.record owner raw = some row) :
    policy.record owner row = some row := by
  cases again : policy.record owner row with
  | none =>
    rw [record_eq_none_iff] at again
    rw [record_eq_none_iff.mpr again] at recorded
    cases recorded
  | some =>
    congr 1
    refine HDict.ext_get fun tag => ?_
    rw [get_record again, get_record recorded]
    cases raw.get tag with
    | none => rfl
    | some =>
      simp only [Option.bind_some]
      split
      · next shown =>
        rw [Option.bind_some, if_pos (showsTag_copyValue shown), copyValue_copyValue]
      · rfl

/-! ## Disclosure -/

theorem splitColons_eq_some {text left right : List Char}
    (found : splitColons text = some (left, right)) : text = left ++ "::".toList ++ right := by
  induction text using splitColons.induct generalizing left with
  | case1 => cases found
  | case2 =>
    cases found
    rfl
  | case3 c rest other ih =>
    rw [splitColons] at found
    · obtain ⟨⟨_, _⟩, inner, same⟩ := Option.map_eq_some_iff.mp found
      cases same
      rw [ih inner]
      rfl
    · exact other

/-- A reference that may occur under a tag: its entity and the reference are
visible, or it names a visible declaration of a visible library. -/
def ShowsRef (policy : PolicySnapshot) (tag : Option String) (r : HRef) : Prop :=
  (policy.entity r.val = true ∧ policy.reference r.val = true) ∨
    ∃ library name, (tag = some "spec" ∨ tag = some "of") ∧
      r.val = library ++ "::" ++ name ∧ library ≠ "" ∧ name ≠ "" ∧
      policy.catalog .spec r.val = true ∧ policy.catalog .library library = true

/-- What may be read directly off a value of an owner. -/
structure Discloses (policy : PolicySnapshot) (owner : String) (value : Kind) : Prop where
  names : ∀ name, Names value name → policy.tag owner name = true
  display : ∀ r, value = .ref r → r.dis.isSome = true → policy.referenceDisplay r.val = true
  nominal : ∀ scalar, value = .nominal scalar → policy.catalog .spec scalar.spec = true ∧
      (∃ library name, scalar.spec = library ++ "::" ++ name ∧
        policy.catalog .library library = true) ∧
      policy.nominalProvenance scalar = true

/-- A member is shown as a value or as a catalog reference. -/
theorem showsRef_of_memberVisible {tag : String} {r : HRef} {plain : Bool}
    (shown : policy.memberVisible tag (.ref r) plain = true) :
    plain = true ∨ policy.ShowsRef (some tag) r := by
  unfold memberVisible catalogReference at shown
  by_cases position : tag = "spec" ∨ tag = "of"
  · rw [if_pos position] at shown
    simp only at shown
    split at shown
    · next qname library found =>
      split at found
      · next left right split =>
        split at found
        · cases found
        · next given =>
          cases found
          rw [Bool.and_eq_true] at shown
          simp only [Bool.or_eq_true, not_or] at given
          refine .inr (.inr ⟨String.ofList left, String.ofList right, ?_, ?_, ?_, ?_, shown⟩)
          · simpa using position
          · rw [← String.toList_inj, splitColons_eq_some split]
            simp
          · simpa using given.1
          · simpa using given.2
      · cases found
    · exact .inl shown
  · rw [if_neg position] at shown
    exact .inl shown

theorem showsRef_of_shows {r : HRef} (shown : policy.shows tag (.ref r) = true) :
    policy.ShowsRef tag r := by
  cases tag with
  | none =>
    rw [shows, visible, Bool.false_or, Bool.and_eq_true] at shown
    exact .inl shown
  | some =>
    rcases showsRef_of_memberVisible shown with plain | catalog
    · rw [visible, Bool.false_or, Bool.and_eq_true] at plain
      exact .inl plain
    · exact catalog

theorem nominalVisible_of_shows {scalar : NominalScalar}
    (shown : policy.shows tag (.nominal scalar) = true) :
    policy.nominalVisible scalar = true := by
  cases tag with
  | none => exact shown
  | some tag =>
    have plain : catalogReference tag (.nominal scalar) = none := by
      unfold catalogReference
      split <;> rfl
    rwa [shows, memberVisible, plain] at shown

theorem discloses_copyValue
    (shown : ∀ scalar, value = .nominal scalar → policy.nominalVisible scalar = true) :
    policy.Discloses owner (policy.copyValue owner value) where
  names name := tag_of_names_copyValue
  display r copied display := by
    cases value with
    | ref =>
      cases copied
      by_contra hidden
      rw [if_neg hidden] at display
      cases display
    | _ => cases copied
  nominal scalar copied := by
    cases value with
    | nominal =>
      cases copied
      have visible := shown scalar rfl
      rw [nominalVisible, Bool.and_eq_true, Bool.and_eq_true] at visible
      obtain ⟨⟨spec, library⟩, provenance⟩ := visible
      refine ⟨spec, ?_, provenance⟩
      split at library
      · next left right split =>
        refine ⟨String.ofList left, String.ofList right, ?_, library⟩
        rw [← String.toList_inj, splitColons_eq_some split]
        simp
      · cases library
    | _ => cases copied

/-- A row shows its caller what the policy allows, at every depth, and to show it
again changes nothing. -/
theorem record_discloses (policy : PolicySnapshot) (owner : String) (raw : HDict) :
    (policy.record owner raw = none ↔ policy.entity owner = false) ∧
    ∀ row, policy.record owner raw = some row → (∀ top value, row.get top = some value →
        policy.tag owner top = true ∧
        ∀ tag inner, Nested (some top) value tag inner → policy.Discloses owner inner ∧
          ∀ r, inner = .ref r → (top = "id" ∧ value = .ref r ∧ r.val = owner) ∨
              policy.ShowsRef tag r) ∧
      policy.record owner row = some row := by
  refine ⟨record_eq_none_iff, fun row recorded =>
    ⟨fun top value found => ?_, record_record recorded⟩⟩
  rw [get_record recorded] at found
  obtain ⟨original, _, shown⟩ := Option.bind_eq_some_iff.mp found
  split at shown
  · next allowed =>
    cases shown
    rw [showsTag, Bool.and_eq_true] at allowed
    refine ⟨allowed.1, fun tag inner nested => ?_⟩
    obtain ⟨inside, within, rfl⟩ := nested_copyValue nested
    cases own : isOwnId owner top original with
    | true =>
      -- nothing is nested in the reference of a record to itself
      cases original with
      | ref r =>
        simp only [isOwnId, Bool.and_eq_true, decide_eq_true_eq] at own
        cases within with
        | refl =>
          refine ⟨discloses_copyValue nofun, fun r copied => .inl ?_⟩
          refine ⟨own.1, copied, ?_⟩
          cases copied
          exact own.2
        | step contains => cases contains
      | _ => cases own
    | false =>
      rw [own] at allowed
      have outer : policy.shows (some top) original = true := allowed.2
      have shown := shows_of_nested outer within
      refine ⟨discloses_copyValue fun scalar same => ?_, fun r copied => .inr ?_⟩
      · subst same
        exact nominalVisible_of_shows shown
      · cases inside with
        | ref =>
          cases copied
          exact showsRef_of_shows shown
        | _ => cases copied
  · cases shown

end PolicySnapshot
end App
end Haystack
