import Bracketdown.Json.Basic
import Bracketdown.Json.Scan

/-!
# How characters and numbers are spelled

Inside a string a character is written in one of three ways: as a backslash and a letter, as a
backslash and its number, or as itself. What is proved about written strings is proved for these
three, and not for each letter. A number is written in digits and nothing else.
-/

namespace Bracketdown.Json

theorem escaped_cases (c : Char) :
    (∃ letter, simpleEscape? letter = some c ∧ escaped c = ['\\', letter])
    ∨ (c.toNat < 0x20
      ∧ escaped c = ['\\', 'u', '0', '0', hexDigit (c.toNat / 16), hexDigit (c.toNat % 16)])
    ∨ (c ≠ '"' ∧ c ≠ '\\' ∧ ¬ c.toNat < 0x20 ∧ escaped c = [c]) := by
  unfold escaped
  by_cases hquote : c = '"'
  · subst hquote
    exact .inl ⟨'"', rfl, rfl⟩
  · rw [if_neg hquote]
    by_cases hback : c = '\\'
    · subst hback
      exact .inl ⟨'\\', rfl, rfl⟩
    · rw [if_neg hback]
      -- The five letters left stand for control characters.
      split
      next h => exact .inl ⟨'b', h ▸ rfl, rfl⟩
      split
      next h => exact .inl ⟨'t', h ▸ rfl, rfl⟩
      split
      next h => exact .inl ⟨'n', h ▸ rfl, rfl⟩
      split
      next h => exact .inl ⟨'f', h ▸ rfl, rfl⟩
      split
      next h => exact .inl ⟨'r', h ▸ rfl, rfl⟩
      split
      next h => exact .inr (.inl ⟨h, rfl⟩)
      next h => exact .inr (.inr ⟨hquote, hback, h, rfl⟩)

theorem hexDigit_ne {n : Nat} (h : n < 16) : hexDigit n ≠ '"' ∧ hexDigit n ≠ '\\' := by
  have all : ∀ n < 16, hexDigit n ≠ '"' ∧ hexDigit n ≠ '\\' := by decide
  exact all n h

theorem hexValue_hexDigit {n : Nat} (h : n < 16) : hexValue? (hexDigit n) = some n := by
  have all : ∀ n < 16, hexValue? (hexDigit n) = some n := by decide
  exact all n h

theorem digits_eq_toDigits (n : Nat) : digits n = Nat.toDigits 10 n := by
  rw [digits, Nat.toString_eq_repr, Nat.toList_repr]

theorem isDigit_of_mem_digits {n : Nat} {c : Char} (h : c ∈ digits n) : c.isDigit = true := by
  rw [digits_eq_toDigits] at h
  exact Nat.isDigit_of_mem_toDigits (by decide) (by decide) h

end Bracketdown.Json
