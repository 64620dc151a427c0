/-
# Numerals of fixed width

`hexFixed width n` writes the last `width` digits of `n` in base sixteen;
`decimalFixed` does the same in base ten. A number below the power of the base
is written without loss (`hexValue_hexFixed`).

Key definitions: `hexFixed`, `decimalFixed`, `hexValue`.
-/

namespace CachedViews.Text

/-- The digit of value `d` in base sixteen, in small letters. -/
def hexDigit (d : Nat) : Char :=
  if d < 10 then Char.ofNat ('0'.toNat + d) else Char.ofNat ('a'.toNat + (d - 10))

/-- The last `width` digits of `n` in base sixteen. -/
def hexFixed : Nat → Nat → List Char
  | 0, _ => []
  | width + 1, n => hexFixed width (n / 16) ++ [hexDigit (n % 16)]

/-- The last `width` digits of `n` in base ten. -/
def decimalFixed : Nat → Nat → List Char
  | 0, _ => []
  | width + 1, n => decimalFixed width (n / 10) ++ [hexDigit (n % 10)]

/-- The value of one digit, zero for a character that is none. -/
def hexDigitValue (c : Char) : Nat :=
  if '0' ≤ c ∧ c ≤ '9' then c.toNat - '0'.toNat
  else if 'a' ≤ c ∧ c ≤ 'f' then c.toNat - 'a'.toNat + 10
  else if 'A' ≤ c ∧ c ≤ 'F' then c.toNat - 'A'.toNat + 10
  else 0

/-- The number written by digits in base sixteen. -/
def hexValue (s : List Char) : Nat := s.foldl (fun n c => 16 * n + hexDigitValue c) 0

theorem hexDigitValue_hexDigit : ∀ d : Fin 16, hexDigitValue (hexDigit d) = d := by decide

theorem hexFixed_length (width n : Nat) : (hexFixed width n).length = width := by
  induction width generalizing n with
  | zero => rfl
  | succ w ih => simp [hexFixed, ih]

/-- Writing and reading keeps the last digits. -/
theorem hexValue_hexFixed (width n : Nat) : hexValue (hexFixed width n) = n % Nat.pow 16 width := by
  induction width generalizing n with
  | zero => simp [hexFixed, hexValue, Nat.mod_one]
  | succ w ih =>
    have hd := hexDigitValue_hexDigit ⟨n % 16, Nat.mod_lt _ (by decide)⟩
    have ih' := ih (n / 16)
    simp only [hexValue] at ih' ⊢
    simp only [hexFixed, List.foldl_append, List.foldl_cons, List.foldl_nil, ih'] at hd ⊢
    rw [hd, show Nat.pow 16 (w + 1) = 16 * Nat.pow 16 w from Nat.mul_comm _ _, Nat.mod_mul]
    omega

end CachedViews.Text
