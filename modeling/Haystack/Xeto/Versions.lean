import Haystack.Characters
import Haystack.Collections.Loop
import Haystack.Kinds

/-!
# Dependency version ranges

A range is two bounds of three segments, any of which may be a wildcard.  A range
is refused when its bounds are reversed, with 0 for the wildcards of the lower one
and the greatest number for those of the upper one.  A segment that is a wildcard
in both then hides the segments after it.
-/

namespace Haystack
namespace Xeto

open Collections

/-- What `RepositoryError::InvalidInput` says. -/
structure InvalidInput where
  reason : String
  deriving DecidableEq

/-- A library version has three numbers. -/
structure LibraryVersion where
  segments : List Nat
  three : segments.length = 3
  small : ∀ segment ∈ segments, segment ≤ u64Max

abbrev Bound := List (Option Nat)

structure DependencyVersions where
  text : List Char
  low : Bound
  high : Bound
  deriving DecidableEq

namespace DependencyVersions

def parseSegment (part : List Char) : Except InvalidInput (Option Nat) :=
  if part = ['x'] then .ok none
  else
    match parseDecimal part with
    | none => .error ⟨"dependency versions"⟩
    | some n => if n > u64Max then .error ⟨"dependency version overflow"⟩ else .ok (some n)

def parse (text : List Char) : Except InvalidInput Bound :=
  if (text.splitOn '.').length ≠ 3 then .error ⟨"dependency versions"⟩
  else (text.splitOn '.').mapM parseSegment

/-- The texts of the two bounds. -/
def ends (text : List Char) : List Char × List Char :=
  match splitOnce ['-'] text with
  | none => (text, text)
  | some (left, right) => (trim left, trim right)

def fromStr (text : List Char) : Except InvalidInput DependencyVersions :=
  if utf8Length text > 256 then .error ⟨"dependency versions"⟩
  else do
    let (lo, hi) := ends text
    let low ← parse lo
    let high ← parse hi
    if high.map (·.getD u64Max) < low.map (·.getD 0) then
      .error ⟨"reversed dependency range"⟩
    else .ok ⟨if lo = hi then lo else lo ++ '-' :: hi, low, high⟩

/-- Wildcards are skipped. -/
def compareBound : Bound → List Nat → Ordering
  | some bound :: bounds, actual :: version =>
    (compare actual bound).then (compareBound bounds version)
  | none :: bounds, _ :: version => compareBound bounds version
  | _, _ => .eq

def contains (range : DependencyVersions) (version : LibraryVersion) : Bool :=
  compareBound range.low version.segments != .lt && compareBound range.high version.segments != .gt

/-! ## Ranges that contain a version -/

/-- The segments that are not a wildcard in both bounds. -/
def pairs (low high : Bound) : List (Option Nat × Option Nat) :=
  (low.zip high).filter (· ≠ (none, none))

/-- The bounds are reversed in the segments that are not a wildcard in both. -/
def Reversed (range : DependencyVersions) : Prop :=
  (pairs range.low range.high).map (·.2.getD u64Max) <
    (pairs range.low range.high).map (·.1.getD 0)

/-- The bounds contain a version of their length. -/
def Holds (low high : Bound) : Prop :=
  ∃ version : List Nat, version.length = low.length ∧ (∀ n ∈ version, n ≤ u64Max) ∧
    compareBound low version ≠ .lt ∧ compareBound high version ≠ .gt

def Small (bound : Bound) : Prop := ∀ n, some n ∈ bound → n ≤ u64Max

variable {low high bound : Bound} {n actual : Nat} {version : List Nat}

theorem compareBound_ne_lt : compareBound (some n :: bound) (actual :: version) ≠ .lt ↔
    n < actual ∨ n = actual ∧ compareBound bound version ≠ .lt := by
  rw [compareBound]
  rcases lt_trichotomy n actual with less | rfl | more
  · simp [compare_gt_iff_gt.mpr less, less]
  · simp
  · simp [compare_lt_iff_lt.mpr more, more.not_gt, more.ne']

theorem compareBound_ne_gt : compareBound (some n :: bound) (actual :: version) ≠ .gt ↔
    actual < n ∨ n = actual ∧ compareBound bound version ≠ .gt := by
  rw [compareBound]
  rcases lt_trichotomy n actual with less | rfl | more
  · simp [compare_gt_iff_gt.mpr less, less.not_gt, less.ne]
  · simp
  · simp [compare_lt_iff_lt.mpr more, more]

theorem compareBound_replicate_max (small : Small bound) (count : Nat) :
    compareBound bound (List.replicate count u64Max) ≠ .lt := by
  induction bound generalizing count with
  | nil => simp [compareBound]
  | cons first rest ih =>
    have others := ih fun n member => small n (List.mem_cons_of_mem _ member)
    cases count with
    | zero => cases first <;> simp [compareBound]
    | succ count =>
      cases first with
      | none => exact others count
      | some n =>
        rw [List.replicate_succ, compareBound_ne_lt]
        exact (small n List.mem_cons_self).lt_or_eq.imp_right (⟨·, others count⟩)

theorem compareBound_replicate_zero (bound : Bound) (count : Nat) :
    compareBound bound (List.replicate count 0) ≠ .gt := by
  induction bound generalizing count with
  | nil => simp [compareBound]
  | cons first rest ih =>
    cases count with
    | zero => cases first <;> simp [compareBound]
    | succ count =>
      cases first with
      | none => exact ih count
      | some n =>
        rw [List.replicate_succ, compareBound_ne_gt]
        exact n.eq_zero_or_pos.symm.imp_right (⟨·, ih count⟩)

/-- A segment decides unless its bounds agree; common wildcards never do. -/
theorem holds_cons {l h : Option Nat} (lowSmall : Small (l :: low))
    (highSmall : Small (h :: high)) :
    Holds (l :: low) (h :: high) ↔ (l, h) ≠ (none, none) ∧ l.getD 0 < h.getD u64Max ∨
      ((l, h) = (none, none) ∨ l.getD 0 = h.getD u64Max) ∧ Holds low high := by
  constructor
  · rintro ⟨_ | ⟨actual, version⟩, long, small, above, below⟩
    · cases long
    have fits : actual ≤ u64Max := small actual List.mem_cons_self
    have rest (above : compareBound low version ≠ .lt) (below : compareBound high version ≠ .gt) :
        Holds low high :=
      ⟨version, by simpa using long, fun n member => small n (List.mem_cons_of_mem _ member),
        above, below⟩
    cases l with
    | none =>
      cases h with
      | none => exact .inr ⟨.inl rfl, rest above below⟩
      | some => grind [compareBound_ne_gt, compareBound]
    | some =>
      cases h with
      | none => grind [compareBound_ne_lt, compareBound]
      | some => grind [compareBound_ne_lt, compareBound_ne_gt]
  · have build (actual : Nat) {version : List Nat} (fits : actual ≤ u64Max)
        (long : version.length = low.length) (small : ∀ n ∈ version, n ≤ u64Max)
        (above : compareBound (l :: low) (actual :: version) ≠ .lt)
        (below : compareBound (h :: high) (actual :: version) ≠ .gt) :
        Holds (l :: low) (h :: high) :=
      ⟨actual :: version, by simp [long], List.forall_mem_cons.mpr ⟨fits, small⟩, above, below⟩
    have most := compareBound_replicate_max
      (fun n member => lowSmall n (List.mem_cons_of_mem _ member)) low.length
    have least := compareBound_replicate_zero high low.length
    rintro (⟨decides, less⟩ | ⟨agree, version, long, small, above, below⟩)
    · cases l with
      | none =>
        cases h with
        | none => exact absurd rfl decides
        | some m =>
          have fits := highSmall m List.mem_cons_self
          refine build (m - 1) (by omega) (List.length_replicate ..) (by simp) most ?_
          exact compareBound_ne_gt.mpr (.inl (Nat.sub_lt less Nat.one_pos))
      | some n =>
        cases h with
        | none =>
          refine build (n + 1) less (List.length_replicate ..) (by simp) ?_ least
          exact compareBound_ne_lt.mpr (.inl n.lt_succ_self)
        | some =>
          refine build n (lowSmall n List.mem_cons_self)
            (List.length_replicate (a := u64Max)) (by simp) ?_ ?_
          · exact compareBound_ne_lt.mpr (.inr ⟨rfl, most⟩)
          · exact compareBound_ne_gt.mpr (.inl less)
    · refine build (l.getD 0) ?_ long small ?_ ?_
      · cases l with
        | none => exact Nat.zero_le _
        | some n => exact lowSmall n List.mem_cons_self
      · cases l with
        | none => exact above
        | some => exact compareBound_ne_lt.mpr (.inr ⟨rfl, above⟩)
      · cases h with
        | none => exact below
        | some => exact compareBound_ne_gt.mpr (.inr ⟨by grind, below⟩)

theorem pairs_cons (l h : Option Nat) (low high : Bound) : pairs (l :: low) (h :: high) =
    if (l, h) = (none, none) then pairs low high else (l, h) :: pairs low high := by
  by_cases wild : (l, h) = (none, none)
  · simp [pairs, wild]
  · simp [pairs, wild]

theorem holds_iff (same : low.length = high.length) (lowSmall : Small low)
    (highSmall : Small high) :
    Holds low high ↔ ¬ (pairs low high).map (·.2.getD u64Max) <
      (pairs low high).map (·.1.getD 0) := by
  induction low generalizing high with
  | nil =>
    refine iff_of_true ⟨[], rfl, by simp, by simp [compareBound], ?_⟩ (by simp [pairs])
    cases high <;> simp [compareBound]
  | cons l low ih =>
    obtain _ | ⟨h, high⟩ := high
    · cases same
    have rest := ih (by simpa using same)
      (fun n member => lowSmall n (List.mem_cons_of_mem _ member))
      (fun n member => highSmall n (List.mem_cons_of_mem _ member))
    rw [holds_cons lowSmall highSmall, pairs_cons]
    split
    · simp_all
    · simp only [List.map_cons, List.cons_lt_cons_iff]
      grind

/-! ## Accepted texts -/

variable {text : List Char} {range : DependencyVersions}

theorem isDigit_of_parseDecimal (read : parseDecimal text = some n) :
    ∀ c ∈ text, 48 ≤ c.toNat ∧ c.toNat ≤ 57 := by
  unfold parseDecimal at read
  split at read
  · cases read
  rename_i filled
  clear filled
  generalize 0 = start at read
  induction text generalizing start with
  | nil => simp
  | cons first rest ih =>
    obtain ⟨next, digit, read⟩ := Option.bind_eq_some_iff.mp read
    obtain ⟨_, digit, -⟩ := Option.map_eq_some_iff.mp digit
    rw [digitValue] at digit
    split at digit
    · rename_i within
      exact List.forall_mem_cons.mpr ⟨within, ih next read⟩
    · cases digit

theorem parseSegment_eq_ok {part : List Char} {segment : Option Nat}
    (read : parseSegment part = .ok segment) : (∀ n ∈ segment, n ≤ u64Max) ∧
      ∀ c ∈ part, isWhitespace c = false ∧ c ≠ '-' := by
  unfold parseSegment at read
  split at read
  · rename_i wild
    subst wild
    cases read
    exact ⟨by simp, List.forall_mem_singleton.mpr (by decide)⟩
  split at read
  · cases read
  rename_i n number
  split at read
  · cases read
  rename_i small
  cases read
  refine ⟨fun m same => ?_, fun c member => ?_⟩
  · obtain rfl := Option.some.inj same
    exact not_lt.mp small
  have digit := isDigit_of_parseDecimal number c member
  have plain : isAsciiAlphanumeric c = true := by
    simp only [isAsciiAlphanumeric, Char.isDigit, Bool.or_eq_true, Bool.and_eq_true,
      decide_eq_true_eq]
    exact .inr digit
  refine ⟨isWhitespace_of_isAsciiAlphanumeric plain, ?_⟩
  rintro rfl
  simp at digit

theorem parse_eq_ok (read : parse text = .ok bound) : bound.length = 3 ∧ Small bound ∧
    ∀ c ∈ text, isWhitespace c = false ∧ c ≠ '-' := by
  unfold parse at read
  split at read
  · cases read
  rename_i three
  rw [not_not] at three
  have parts := mapM_eq_ok.mp read
  refine ⟨parts.length_eq ▸ three, fun n member => ?_, fun c member => ?_⟩
  · obtain ⟨part, -, segment⟩ := exists_of_mem_right parts member
    exact (parseSegment_eq_ok segment).1 n rfl
  · have plain : ∀ part ∈ text.splitOn '.', ∀ c ∈ part, isWhitespace c = false ∧ c ≠ '-' := by
      intro part listed
      obtain ⟨_, segmented⟩ := exists_of_mem_left parts listed
      exact (parseSegment_eq_ok segmented).2
    rw [← joined_splitOn '.' text] at member
    obtain ⟨_, _, _, fields⟩ := List.length_eq_three.mp three
    simp only [fields, List.forall_mem_cons] at plain
    simp only [fields, joined_cons_cons, joined_singleton, List.mem_append, List.mem_cons] at member
    rcases member with held | rfl | held | rfl | held
    · exact plain.1 c held
    · decide
    · exact plain.2.1 c held
    · decide
    · exact plain.2.2.1 c held

theorem trim_of_parse (read : parse text = .ok bound) : trim text = text := by
  have plain := (parse_eq_ok read).2.2
  refine trim_eq_self (fun c first => ?_) (fun c last => ?_)
  · exact (plain c (List.mem_of_head? first)).1
  · exact (plain c (List.mem_of_getLast? last)).1

theorem utf8Length_trim_le (text : List Char) : utf8Length (trim text) ≤ utf8Length text := by
  have shorter : (trim text).Sublist text := by
    have front : (trimStart isWhitespace text).Sublist text := List.dropWhile_sublist _
    refine List.Sublist.trans (List.reverse_sublist.mp ?_) front
    rw [trim, trimEnd, List.reverse_reverse]
    exact List.dropWhile_sublist _
  exact (shorter.map Char.utf8Size).sum_le_sum (by simp)

theorem utf8Length_ends (text : List Char) :
    utf8Length (if (ends text).1 = (ends text).2 then (ends text).1
      else (ends text).1 ++ '-' :: (ends text).2) ≤ utf8Length text := by
  cases found : splitOnce ['-'] text with
  | none => simp [ends, found]
  | some parts =>
    obtain ⟨left, right⟩ := parts
    have first := utf8Length_trim_le left
    have second := utf8Length_trim_le right
    simp only [ends, found]
    rw [splitOnce_eq_some found]
    split <;> simp only [utf8Length_append, utf8Length_cons, utf8Length_nil] <;> omega

theorem fromStr_eq_ok (accepted : fromStr text = .ok range) :
    ∃ lo hi, parse lo = .ok range.low ∧ parse hi = .ok range.high ∧
      range.text = (if lo = hi then lo else lo ++ '-' :: hi) ∧
      utf8Length range.text ≤ 256 ∧
      ¬range.high.map (·.getD u64Max) < range.low.map (·.getD 0) := by
  unfold fromStr at accepted
  split at accepted
  · cases accepted
  rename_i short
  obtain ⟨_, left, accepted⟩ := except_bind_eq_ok.mp accepted
  obtain ⟨_, right, accepted⟩ := except_bind_eq_ok.mp accepted
  split at accepted
  · cases accepted
  rename_i ordered
  cases accepted
  exact ⟨_, _, left, right, rfl, (utf8Length_ends text).trans (not_lt.mp short), ordered⟩

theorem ends_text {lo hi : List Char} (left : parse lo = .ok low) (right : parse hi = .ok high) :
    ends (if lo = hi then lo else lo ++ '-' :: hi) = (lo, hi) := by
  have absent : '-' ∉ lo := fun member => ((parse_eq_ok left).2.2 _ member).2 rfl
  split
  · rename_i same
    rw [ends, splitOnce_eq_none absent, ← same]
  · simp [ends, splitOnce_singleton hi absent, trim_of_parse left, trim_of_parse right]

/-- The text of an accepted range is read as the same range. -/
theorem fromStr_text (accepted : fromStr text = .ok range) : fromStr range.text = .ok range := by
  obtain ⟨lo, hi, left, right, spelled, short, ordered⟩ := fromStr_eq_ok accepted
  have parts : ends range.text = (lo, hi) := spelled ▸ ends_text left right
  rw [fromStr, if_neg (not_lt.mpr short), parts]
  simp [left, right, bind, Except.bind, if_neg ordered, ← spelled]

/-- Numbers compare in lexicographic order. -/
theorem compareBound_map_some {numbers : List Nat} (same : numbers.length = version.length) :
    (compareBound (numbers.map some) version ≠ .lt ↔ numbers ≤ version) ∧
      (compareBound (numbers.map some) version ≠ .gt ↔ version ≤ numbers) := by
  induction numbers generalizing version with
  | nil =>
    obtain rfl := List.length_eq_zero_iff.mp same.symm
    simp [compareBound]
  | cons n numbers ih =>
    obtain _ | ⟨actual, version⟩ := version
    · cases same
    obtain ⟨above, below⟩ := ih (Nat.succ.inj same)
    simp only [← not_lt] at above below ⊢
    rw [List.map_cons, compareBound_ne_lt, compareBound_ne_gt]
    simp only [List.cons_lt_cons_iff]
    grind

/-- An accepted range contains a version exactly when its bounds are not reversed
in the segments that are not a wildcard in both.  Without wildcards it is an
interval, and its text is read as the same range. -/
theorem contains_of_fromStr (accepted : fromStr text = .ok range) :
    ((∃ version, range.contains version = true) ↔ ¬range.Reversed) ∧
      (∀ l h : List Nat, range.low = l.map some → range.high = h.map some → ∀ version,
        range.contains version = true ↔ l ≤ version.segments ∧ version.segments ≤ h) ∧
      fromStr range.text = .ok range := by
  obtain ⟨lo, hi, left, right, -⟩ := fromStr_eq_ok accepted
  obtain ⟨lowThree, lowSmall, -⟩ := parse_eq_ok left
  obtain ⟨highThree, highSmall, -⟩ := parse_eq_ok right
  refine ⟨?_, fun l h lower upper version => ?_, fromStr_text accepted⟩
  · rw [Reversed, ← holds_iff (lowThree.trans highThree.symm) lowSmall highSmall]
    simp only [contains, Bool.and_eq_true, bne_iff_ne]
    constructor
    · rintro ⟨⟨segments, three, small⟩, inside⟩
      exact ⟨segments, three.trans lowThree.symm, small, inside⟩
    · rintro ⟨segments, long, small, inside⟩
      exact ⟨⟨segments, long.trans lowThree, small⟩, inside⟩
  · rw [lower, List.length_map] at lowThree
    rw [upper, List.length_map] at highThree
    simp only [contains, Bool.and_eq_true, bne_iff_ne, lower, upper]
    rw [(compareBound_map_some (lowThree.trans version.three.symm)).1,
      (compareBound_map_some (highThree.trans version.three.symm)).2]

theorem contains_of_fromStr_sample :
    ∃ range, fromStr "1.2.x - 1.4.0".toList = .ok range ∧ ¬range.Reversed ∧
      ∃ version, range.contains version = true := by
  have accepted : fromStr "1.2.x - 1.4.0".toList =
      .ok ⟨"1.2.x-1.4.0".toList, [some 1, some 2, none], [some 1, some 4, some 0]⟩ := by
    decide +kernel
  have forward : ¬Reversed
      ⟨"1.2.x-1.4.0".toList, [some 1, some 2, none], [some 1, some 4, some 0]⟩ := by
    unfold Reversed
    decide
  exact ⟨_, accepted, forward, (contains_of_fromStr accepted).1.mpr forward⟩

/-- Reversed bounds behind a common wildcard are accepted. -/
theorem reversed_range_accepted : ∃ range, fromStr "x.5.0-x.2.0".toList = .ok range ∧
      ∀ version, range.contains version = false := by
  refine ⟨⟨"x.5.0-x.2.0".toList, [none, some 5, some 0], [none, some 2, some 0]⟩, ?_, ?_⟩
  · decide +kernel
  · rintro ⟨segments, three, small⟩
    obtain ⟨_, _, _, rfl⟩ := List.length_eq_three.mp three
    refine Bool.eq_false_iff.mpr fun inside => ?_
    simp only [contains, Bool.and_eq_true, bne_iff_ne] at inside
    have above := compareBound_ne_lt.mp inside.1
    have below := compareBound_ne_gt.mp inside.2
    omega

end DependencyVersions
end Xeto
end Haystack
