import Haystack.Collections.Text

/-!
# Character classes

The white space, control and ASCII classes of the standard library, and trimming.
-/

namespace Haystack

/-- The characters of Unicode white space. -/
def isWhitespace (c : Char) : Bool :=
  let code := c.toNat
  (0x9 ≤ code && code ≤ 0xD) || code = 0x20 || code = 0x85 || code = 0xA0 ||
    code = 0x1680 || (0x2000 ≤ code && code ≤ 0x200A) || code = 0x2028 ||
    code = 0x2029 || code = 0x202F || code = 0x205F || code = 0x3000

/-- The ASCII letters and digits. -/
def isAsciiAlphanumeric (c : Char) : Bool := c.isAlpha || c.isDigit

/-- The characters of a time zone name. -/
def isTzChar (c : Char) : Bool :=
  isAsciiAlphanumeric c || c = '_' || c = '-' || c = '/' || c = '+'

/-- Remove characters at the start. -/
def trimStart (drop : Char → Bool) (text : List Char) : List Char := text.dropWhile drop

/-- Remove characters at the end. -/
def trimEnd (drop : Char → Bool) (text : List Char) : List Char :=
  (text.reverse.dropWhile drop).reverse

/-- Remove white space at both ends. -/
def trim (text : List Char) : List Char := trimEnd isWhitespace (trimStart isWhitespace text)

variable {text : List Char} {drop : Char → Bool}

theorem trimEnd_eq_self (last : ∀ c, text.getLast? = some c → drop c = false) :
    trimEnd drop text = text := by
  unfold trimEnd
  cases back : text.reverse with
  | nil => simpa using back
  | cons c =>
    have kept : drop c = false := last c (by
      rw [← List.head?_reverse, back]
      rfl)
    rw [List.dropWhile_cons_of_neg (by simp [kept]), ← back, List.reverse_reverse]

theorem trimStart_eq_self (first : ∀ c, text.head? = some c → drop c = false) :
    trimStart drop text = text := by
  cases text with
  | nil => rfl
  | cons c =>
    exact List.dropWhile_cons_of_neg (by simp [first c rfl])

/-- A text that neither starts nor ends with white space is kept. -/
theorem trim_eq_self (first : ∀ c, text.head? = some c → isWhitespace c = false)
    (last : ∀ c, text.getLast? = some c → isWhitespace c = false) : trim text = text := by
  rw [trim, trimStart_eq_self first, trimEnd_eq_self last]

/-- An ASCII letter or digit is no white space. -/
theorem isWhitespace_of_isAsciiAlphanumeric {c : Char} (plain : isAsciiAlphanumeric c = true) :
    isWhitespace c = false := by
  have code : (65 ≤ c.toNat ∧ c.toNat ≤ 90) ∨ (97 ≤ c.toNat ∧ c.toNat ≤ 122) ∨
      (48 ≤ c.toNat ∧ c.toNat ≤ 57) := by
    simp only [isAsciiAlphanumeric, Char.isAlpha, Char.isUpper, Char.isLower, Char.isDigit,
      Bool.or_eq_true, Bool.and_eq_true, decide_eq_true_eq] at plain
    rcases plain with (upper | lower) | digit
    · exact .inl upper
    · exact .inr (.inl lower)
    · exact .inr (.inr digit)
  simp only [isWhitespace, Bool.or_eq_false_iff, Bool.and_eq_false_iff, decide_eq_false_iff_not]
  omega

/-- A character of a time zone name is no white space. -/
theorem isWhitespace_of_isTzChar {c : Char} (named : isTzChar c = true) :
    isWhitespace c = false := by
  simp only [isTzChar, Bool.or_eq_true, decide_eq_true_eq] at named
  rcases named with (((plain | rfl) | rfl) | rfl) | rfl
  · exact isWhitespace_of_isAsciiAlphanumeric plain
  all_goals decide

end Haystack
