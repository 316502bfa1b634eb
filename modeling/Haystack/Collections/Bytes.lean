import Mathlib

/-!
# Byte encodings

Big-endian numbers of a fixed width, and the URL-safe base64 alphabet without
padding.  What is encoded is decoded again.
-/

namespace Haystack
namespace Collections

/-! ## Numbers of a fixed width -/

/-- The big-endian bytes of a number. -/
def beBytes : Nat → Nat → List UInt8
  | 0, _ => []
  | width + 1, number => beBytes width (number / 256) ++ [UInt8.ofNat number]

/-- The number that bytes stand for. -/
def beValue (bytes : List UInt8) : Nat :=
  bytes.foldl (fun number byte => number * 256 + byte.toNat) 0

@[simp] theorem length_beBytes (width number : Nat) : (beBytes width number).length = width := by
  induction width generalizing number with
  | zero => rfl
  | succ width ih => simp [beBytes, ih]

theorem beValue_beBytes {width number : Nat} (fits : number < 256 ^ width) :
    beValue (beBytes width number) = number := by
  induction width generalizing number with
  | zero =>
    rw [pow_zero, Nat.lt_one_iff] at fits
    exact fits.symm
  | succ width ih =>
    have smaller : number / 256 < 256 ^ width := by
      omega
    have rest := ih smaller
    unfold beValue at rest ⊢
    rw [beBytes, List.foldl_append]
    simp only [List.foldl_cons, List.foldl_nil, UInt8.toNat_ofNat']
    omega

/-- Numbers that fit are determined by their bytes. -/
theorem beBytes_injective {width left right : Nat} (leftFits : left < 256 ^ width)
    (rightFits : right < 256 ^ width) (same : beBytes width left = beBytes width right) :
    left = right := by
  rw [← beValue_beBytes leftFits, same, beValue_beBytes rightFits]

/-! ## Base64 -/

/-- The symbol of six bits. -/
def base64Symbol (index : Nat) : Char :=
  if index < 26 then Char.ofNat (65 + index)
  else if index < 52 then Char.ofNat (71 + index)
  else if index < 62 then Char.ofNat (index - 4)
  else if index = 62 then '-'
  else '_'

/-- The six bits of a symbol. -/
def base64Index (symbol : Char) : Option Nat :=
  let code := symbol.toNat
  if 65 ≤ code ∧ code ≤ 90 then some (code - 65)
  else if 97 ≤ code ∧ code ≤ 122 then some (code - 71)
  else if 48 ≤ code ∧ code ≤ 57 then some (code + 4)
  else if symbol = '-' then some 62
  else if symbol = '_' then some 63
  else none

theorem base64Index_symbol : ∀ index < 64, base64Index (base64Symbol index) = some index := by
  decide

theorem utf8Size_base64Symbol : ∀ index < 64, (base64Symbol index).utf8Size = 1 := by
  decide

/-- The symbols of three bytes, or of the one or two that are left. -/
def base64Encode : List UInt8 → List Char
  | [] => []
  | [a] => [base64Symbol (a.toNat / 4), base64Symbol (a.toNat % 4 * 16)]
  | [a, b] =>
    [base64Symbol (a.toNat / 4), base64Symbol (a.toNat % 4 * 16 + b.toNat / 16),
      base64Symbol (b.toNat % 16 * 4)]
  | a :: b :: c :: rest =>
    base64Symbol (a.toNat / 4) :: base64Symbol (a.toNat % 4 * 16 + b.toNat / 16) ::
      base64Symbol (b.toNat % 16 * 4 + c.toNat / 64) ::
      base64Symbol (c.toNat % 64) :: base64Encode rest

/-- The bytes of symbols.  Left-over bits must be zero. -/
def base64Decode : List Char → Option (List UInt8)
  | [] => some []
  | [_] => none
  | [w, x] => do
    let w ← base64Index w
    let x ← base64Index x
    if x % 16 = 0 then some [UInt8.ofNat (w * 4 + x / 16)] else none
  | [w, x, y] => do
    let w ← base64Index w
    let x ← base64Index x
    let y ← base64Index y
    if y % 4 = 0 then
      some [UInt8.ofNat (w * 4 + x / 16), UInt8.ofNat (x % 16 * 16 + y / 4)]
    else none
  | w :: x :: y :: z :: rest => do
    let w ← base64Index w
    let x ← base64Index x
    let y ← base64Index y
    let z ← base64Index z
    let rest ← base64Decode rest
    some (UInt8.ofNat (w * 4 + x / 16) :: UInt8.ofNat (x % 16 * 16 + y / 4) ::
      UInt8.ofNat (y % 4 * 64 + z) :: rest)

private theorem ofNat_eq_of_toNat {byte : UInt8} {number : Nat} (same : number = byte.toNat) :
    UInt8.ofNat number = byte := by
  rw [same, UInt8.ofNat_toNat]

variable (bytes : List UInt8)

theorem base64Decode_encode : base64Decode (base64Encode bytes) = some bytes := by
  induction bytes using base64Encode.induct with
  | case1 => rfl
  | case2 a =>
    have aBound := a.toNat_lt
    have first : UInt8.ofNat (a.toNat / 4 * 4 + a.toNat % 4 * 16 / 16) = a :=
      ofNat_eq_of_toNat (by omega)
    simp only [base64Encode, base64Decode, base64Index_symbol (a.toNat / 4) (by omega),
      base64Index_symbol (a.toNat % 4 * 16) (by omega), Option.bind_eq_bind,
      Option.bind_some]
    rw [if_pos (by omega), first]
  | case3 a b =>
    have aBound := a.toNat_lt
    have bBound := b.toNat_lt
    have first : UInt8.ofNat (a.toNat / 4 * 4 + (a.toNat % 4 * 16 + b.toNat / 16) / 16) = a :=
      ofNat_eq_of_toNat (by omega)
    have second : UInt8.ofNat ((a.toNat % 4 * 16 + b.toNat / 16) % 16 * 16 +
        b.toNat % 16 * 4 / 4) = b :=
      ofNat_eq_of_toNat (by omega)
    simp only [base64Encode, base64Decode, base64Index_symbol (a.toNat / 4) (by omega),
      base64Index_symbol (a.toNat % 4 * 16 + b.toNat / 16) (by omega),
      base64Index_symbol (b.toNat % 16 * 4) (by omega), Option.bind_eq_bind,
      Option.bind_some]
    rw [if_pos (by omega), first, second]
  | case4 a b c rest ih =>
    have aBound := a.toNat_lt
    have bBound := b.toNat_lt
    have cBound := c.toNat_lt
    have first : UInt8.ofNat (a.toNat / 4 * 4 + (a.toNat % 4 * 16 + b.toNat / 16) / 16) = a :=
      ofNat_eq_of_toNat (by omega)
    have second : UInt8.ofNat ((a.toNat % 4 * 16 + b.toNat / 16) % 16 * 16 +
        (b.toNat % 16 * 4 + c.toNat / 64) / 4) = b :=
      ofNat_eq_of_toNat (by omega)
    have third : UInt8.ofNat ((b.toNat % 16 * 4 + c.toNat / 64) % 4 * 64 + c.toNat % 64) = c :=
      ofNat_eq_of_toNat (by omega)
    simp only [base64Encode, base64Decode, base64Index_symbol (a.toNat / 4) (by omega),
      base64Index_symbol (a.toNat % 4 * 16 + b.toNat / 16) (by omega),
      base64Index_symbol (b.toNat % 16 * 4 + c.toNat / 64) (by omega),
      base64Index_symbol (c.toNat % 64) (by omega), ih,
      Option.bind_eq_bind, Option.bind_some]
    rw [first, second, third]

/-- What is encoded consists of symbols. -/
theorem exists_index_of_mem_base64Encode :
    ∀ symbol ∈ base64Encode bytes, ∃ index < 64, symbol = base64Symbol index := by
  induction bytes using base64Encode.induct with
  | case1 => nofun
  | case2 a =>
    have aBound := a.toNat_lt
    intro symbol member
    simp only [base64Encode, List.mem_cons, List.not_mem_nil, or_false] at member
    rcases member with rfl | rfl <;> exact ⟨_, by omega, rfl⟩
  | case3 a b =>
    have aBound := a.toNat_lt
    have bBound := b.toNat_lt
    intro symbol member
    simp only [base64Encode, List.mem_cons, List.not_mem_nil, or_false] at member
    rcases member with rfl | rfl | rfl <;> exact ⟨_, by omega, rfl⟩
  | case4 a b c rest ih =>
    have aBound := a.toNat_lt
    have bBound := b.toNat_lt
    have cBound := c.toNat_lt
    intro symbol member
    simp only [base64Encode, List.mem_cons] at member
    rcases member with rfl | rfl | rfl | rfl | later
    · exact ⟨_, by omega, rfl⟩
    · exact ⟨_, by omega, rfl⟩
    · exact ⟨_, by omega, rfl⟩
    · exact ⟨_, by omega, rfl⟩
    · exact ih symbol later

/-- Every symbol takes one byte of text. -/
theorem utf8Size_base64Encode : ∀ symbol ∈ base64Encode bytes, symbol.utf8Size = 1 := by
  intro symbol member
  obtain ⟨index, bound, rfl⟩ := exists_index_of_mem_base64Encode bytes symbol member
  exact utf8Size_base64Symbol index bound

theorem length_base64Encode : (base64Encode bytes).length = (bytes.length * 4 + 2) / 3 := by
  induction bytes using base64Encode.induct with
  | case1 => rfl
  | case2 a | case3 a b => simp [base64Encode]
  | case4 =>
    simp only [base64Encode, List.length_cons]
    omega

/-- The text of bytes is as long as it has symbols. -/
theorem utf8ByteSize_base64Encode :
    (String.ofList (base64Encode bytes)).utf8ByteSize = (bytes.length * 4 + 2) / 3 := by
  have sizes : ∀ symbols : List Char, (∀ symbol ∈ symbols, symbol.utf8Size = 1) →
      (String.ofList symbols).utf8ByteSize = symbols.length := by
    intro symbols single
    induction symbols with
    | nil => rfl
    | cons symbol rest ih =>
      rw [String.ofList_cons, String.utf8ByteSize_append,
        String.utf8ByteSize_singleton, single symbol List.mem_cons_self,
        ih fun other member =>
          single other (List.mem_cons_of_mem _ member), List.length_cons,
        Nat.add_comm]
  rw [sizes _ (utf8Size_base64Encode bytes), length_base64Encode]

end Collections
end Haystack
