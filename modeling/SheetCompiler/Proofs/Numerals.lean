import SheetCompiler.Grid.Address
import SheetCompiler.Number.Layout

/-!
# Decimal numerals

Writing a number and reading it again gives the number, so different numbers are written
differently. What is written are digits, also where zeros fill up a number.
-/

namespace SheetCompiler

/-- Different numbers have different digits. -/
theorem toDigits_inj {m n : Nat} : Nat.toDigits 10 m = Nat.toDigits 10 n ↔ m = n := by
  refine ⟨fun h => ?_, fun h => h ▸ rfl⟩
  rw [← Nat.ofDigitChars_ten_toDigits (n := m), h, Nat.ofDigitChars_ten_toDigits]

namespace Number

theorem isDigit_toDigits (n : Nat) : ∀ c ∈ Nat.toDigits 10 n, c.isDigit := fun _ mem =>
  Nat.isDigit_of_mem_toDigits (by decide) (by decide) mem

theorem isDigit_zeros (n : Nat) : ∀ c ∈ zeros n, c.isDigit := fun _ mem =>
  List.eq_of_mem_replicate mem ▸ by decide

end Number

end SheetCompiler
