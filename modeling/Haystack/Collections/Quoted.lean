import Mathlib.Data.Nat.Digits.Defs

/-!
# Quoted text

The text of strings and of lists of strings between delimiters, in which a
character that is not printable, a quote and a backslash are escaped.  A quoted
text determines what it quotes, whatever follows it.
-/

namespace Haystack
namespace Collections

/-! ## Hexadecimal digits -/

/-- The lower-case hexadecimal digits of a number, most significant first. -/
def hexDigits (n : Nat) : List Char := ((Nat.digits 16 n).map Nat.digitChar).reverse

/-- The value of a hexadecimal digit. -/
def hexValue (c : Char) : Nat :=
  if c.toNat < 58 then c.toNat - 48 else c.toNat - 87

theorem hexValue_digitChar : ∀ digit < 16, hexValue (Nat.digitChar digit) = digit := by
  decide

theorem digitChar_ne_closing : ∀ digit < 16, Nat.digitChar digit ≠ '\x7d' := by
  decide

theorem closing_notMem_hexDigits (n : Nat) : '\x7d' ∉ hexDigits n := by
  intro member
  obtain ⟨digit, digit_mem, same⟩ := List.mem_map.mp (List.mem_reverse.mp member)
  exact digitChar_ne_closing digit (Nat.digits_lt_base (by decide) digit_mem) same

theorem map_hexValue_hexDigits (n : Nat) :
    (hexDigits n).map hexValue = (Nat.digits 16 n).reverse := by
  rw [hexDigits, List.map_reverse, List.map_map]
  congr 1
  refine (List.map_congr_left fun digit member => ?_).trans (List.map_id _)
  exact hexValue_digitChar digit (Nat.digits_lt_base (by decide) member)

theorem hexDigits_injective : Function.Injective hexDigits := by
  intro left right same
  have digits := congrArg (List.map hexValue) same
  rw [map_hexValue_hexDigits, map_hexValue_hexDigits, List.reverse_inj] at digits
  exact Nat.digits_inj_iff.mp digits

variable {left right : List Char}

/-- A text ends at the first character that it does not contain. -/
theorem append_cons_inj_of_notMem
    {stop : Char} {after after' : List Char} (left_free : stop ∉ left) (right_free : stop ∉ right)
    (same : left ++ stop :: after = right ++ stop :: after') : left = right ∧ after = after' := by
  induction left generalizing right with
  | nil =>
    cases right with
    | nil => exact ⟨rfl, (List.cons.inj same).2⟩
    | cons =>
      exact absurd (List.cons.inj same).1 (List.ne_of_not_mem_cons right_free)
  | cons c left ih =>
    cases right with
    | nil =>
      exact absurd (List.cons.inj same).1.symm (List.ne_of_not_mem_cons left_free)
    | cons =>
      obtain ⟨rfl, tails⟩ := List.cons.inj same
      obtain ⟨rfl, rest⟩ := ih (List.not_mem_of_not_mem_cons left_free)
        (List.not_mem_of_not_mem_cons right_free) tails
      exact ⟨rfl, rest⟩

/-! ## Escaped characters -/

section

variable (printable : Char → Bool)

/-- A character of a quoted text. -/
def escapeChar (c : Char) : List Char :=
  if c = '\x00' then ['\\', '0']
  else if c = '\t' then ['\\', 't']
  else if c = '\r' then ['\\', 'r']
  else if c = '\n' then ['\\', 'n']
  else if c = '"' then ['\\', '"']
  else if c = '\\' then ['\\', '\\']
  else if printable c then [c]
  else ['\\', 'u', '\x7b'] ++ hexDigits c.toNat ++ ['\x7d']

/-- The three ways in which a character is escaped. -/
inductive Escaped (c : Char) : List Char → Prop
  | short (letter : Char) (unlike : letter ≠ 'u') (decoded : c = match letter with
        | '0' => '\x00'
        | 't' => '\t'
        | 'r' => '\r'
        | 'n' => '\n'
        | letter => letter) :
      Escaped c ['\\', letter]
  | plain (unquoted : c ≠ '"') (unescaped : c ≠ '\\') : Escaped c [c]
  | code : Escaped c ('\\' :: 'u' :: '\x7b' :: (hexDigits c.toNat ++ ['\x7d']))

theorem escaped_escapeChar (c : Char) : Escaped c (escapeChar printable c) := by
  rw [escapeChar]
  split_ifs with nul tab carriage newline quote backslash shown
  · exact .short '0' (by decide) nul
  · exact .short 't' (by decide) tab
  · exact .short 'r' (by decide) carriage
  · exact .short 'n' (by decide) newline
  · exact .short '"' (by decide) quote
  · exact .short '\\' (by decide) backslash
  · exact .plain quote backslash
  · exact .code

variable {after after' : List Char}

/-- No escaped character starts with a quote. -/
theorem Escaped.ne_quote {c : Char} {text : List Char} (escaped : Escaped c text) :
    text ++ after ≠ '"' :: after' := by
  intro same
  cases escaped with
  | short | code => exact absurd (List.cons.inj same).1 (by decide)
  | plain unquoted => exact unquoted (List.cons.inj same).1

theorem Escaped.append_inj {c d : Char} (escaped : Escaped c left) (escaped' : Escaped d right)
    (same : left ++ after = right ++ after') : c = d ∧ after = after' := by
  cases escaped with
  | short letter unlike decoded =>
    cases escaped' with
    | short letter' unlike' decoded' =>
      simp only [List.cons_append, List.cons.injEq, true_and] at same
      obtain ⟨rfl, rest⟩ := same
      exact ⟨decoded.trans decoded'.symm, rest⟩
    | plain unquoted unescaped =>
      exact absurd (List.cons.inj same).1.symm unescaped
    | code =>
      simp only [List.cons_append, List.cons.injEq, true_and] at same
      exact absurd same.1 unlike
  | plain unquoted unescaped =>
    cases escaped' with
    | short =>
      exact absurd (List.cons.inj same).1 unescaped
    | plain => exact List.cons.inj same
    | code => exact absurd (List.cons.inj same).1 unescaped
  | code =>
    cases escaped' with
    | short letter' unlike' =>
      simp only [List.cons_append, List.cons.injEq, true_and] at same
      exact absurd same.1.symm unlike'
    | plain unquoted unescaped =>
      exact absurd (List.cons.inj same).1.symm unescaped
    | code =>
      simp only [List.cons_append, List.cons.injEq, true_and, List.append_assoc] at same
      obtain ⟨digits, rest⟩ := append_cons_inj_of_notMem
        (closing_notMem_hexDigits _) (closing_notMem_hexDigits _) same
      exact ⟨Char.toNat_inj.mp (hexDigits_injective digits), rest⟩

/-! ## Quoted strings -/

/-- A text between quotes. -/
def quoted (text : List Char) : List Char := '"' :: (text.flatMap (escapeChar printable) ++ ['"'])

theorem quoted_append_inj
    (same : quoted printable left ++ after = quoted printable right ++ after') :
    left = right ∧ after = after' := by
  simp only [quoted, List.cons_append, List.cons.injEq, true_and, List.append_assoc] at same
  induction left generalizing right with
  | nil =>
    cases right with
    | nil => exact ⟨rfl, (List.cons.inj same).2⟩
    | cons d =>
      rw [List.flatMap_cons, List.append_assoc] at same
      exact absurd same.symm (escaped_escapeChar printable d).ne_quote
  | cons c left ih =>
    cases right with
    | nil =>
      rw [List.flatMap_cons, List.append_assoc] at same
      exact absurd same (escaped_escapeChar printable c).ne_quote
    | cons d =>
      simp only [List.flatMap_cons, List.append_assoc] at same
      obtain ⟨rfl, rest⟩ := (escaped_escapeChar printable c).append_inj
        (escaped_escapeChar printable d) same
      obtain ⟨rfl, ends⟩ := ih rest
      exact ⟨rfl, ends⟩

/-- The rest of a list of quoted texts, after one of them. -/
def quotedRest : List (List Char) → List Char
  | [] => [']']
  | text :: rest => [',', ' '] ++ quoted printable text ++ quotedRest rest

/-- A list of quoted texts between brackets. -/
def quotedList : List (List Char) → List Char
  | [] => ['[', ']']
  | text :: rest => '[' :: (quoted printable text ++ quotedRest printable rest)

variable {left right : List (List Char)}

theorem quotedRest_append_inj
    (same : quotedRest printable left ++ after = quotedRest printable right ++ after') :
    left = right ∧ after = after' := by
  induction left generalizing right with
  | nil =>
    cases right with
    | nil => exact ⟨rfl, (List.cons.inj same).2⟩
    | cons => exact absurd (List.cons.inj same).1 (by decide)
  | cons text rest ih =>
    cases right with
    | nil => exact absurd (List.cons.inj same).1 (by decide)
    | cons =>
      simp only [quotedRest, List.append_assoc, List.append_cancel_left_eq] at same
      obtain ⟨rfl, tails⟩ := quoted_append_inj printable same
      obtain ⟨rfl, ends⟩ := ih tails
      exact ⟨rfl, ends⟩

theorem quotedList_append_inj
    (same : quotedList printable left ++ after = quotedList printable right ++ after') :
    left = right ∧ after = after' := by
  cases left with
  | nil =>
    cases right with
    | nil => exact ⟨rfl, by simpa [quotedList] using same⟩
    | cons => simp [quotedList, quoted] at same
  | cons =>
    cases right with
    | nil => simp [quotedList, quoted] at same
    | cons =>
      simp only [quotedList, List.cons_append, List.cons.injEq, true_and,
        List.append_assoc] at same
      obtain ⟨rfl, tails⟩ := quoted_append_inj printable same
      obtain ⟨rfl, ends⟩ := quotedRest_append_inj printable tails
      exact ⟨rfl, ends⟩

end

end Collections
end Haystack
