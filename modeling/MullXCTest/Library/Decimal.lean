import Mathlib.Data.List.Basic

/-!
# Decimal texts of natural numbers

What a number is printed as, and what is read from it.
-/

namespace Decimal

/-- The number that some digits stand for. -/
def value (digits : List Char) : Nat := Nat.ofDigitChars 10 digits 0

@[simp] theorem value_repr (n : Nat) : value n.repr.toList = n := by
  simp [value]

theorem repr_injective {m n : Nat} (h : m.repr = n.repr) : m = n := by
  calc
    m = value m.repr.toList := (value_repr m).symm
    _ = value n.repr.toList := by rw [h]
    _ = n := value_repr n

theorem isDigit_of_mem_repr {n : Nat} {c : Char} (h : c ∈ n.repr.toList) : c.isDigit = true := by
  rw [Nat.toList_repr] at h
  exact Nat.isDigit_of_mem_toDigits (by decide) (by decide) h

theorem notMem_repr {c : Char} (h : c.isDigit = false) (n : Nat) : c ∉ n.repr.toList := by
  intro hmem
  rw [isDigit_of_mem_repr hmem] at h
  cases h

theorem repr_ne_nil (n : Nat) : n.repr.toList ≠ [] := by
  rw [Nat.toList_repr]
  exact Nat.toDigits_ne_nil

end Decimal
