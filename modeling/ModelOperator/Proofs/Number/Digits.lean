import Mathlib.Algebra.Group.Nat.Defs
import ModelOperator.Duration
import ModelOperator.Json.Parser

/-!
# Decimal digits read back

    The digits of a number, with or without zeros in front, name that number, and a span
    of digits ends where the text goes on with something else. -/

namespace ModelOperator

namespace Json

theorem digitValue?_digitChar {d : Nat} (h : d < 10) : digitValue? d.digitChar = some d := by
  have hall : ∀ d, d < 10 → digitValue? d.digitChar = some d := by decide
  exact hall d h

/-- One more digit on the right. -/
theorem digitsValue_concat (cs : List Char) {d : Nat} (h : d < 10) :
    digitsValue (cs ++ [d.digitChar]) = digitsValue cs * 10 + d := by
  simp [digitsValue, List.foldl_append, digitValue?_digitChar h]

theorem digitsValue_decimalDigits (n : Nat) : digitsValue (decimalDigits n) = n := by
  induction n using Nat.strongRecOn with
  | ind n ih =>
      rw [decimalDigits]
      by_cases hsmall : n < 10
      · rw [Nat.toDigits_of_lt_base hsmall]
        exact (digitsValue_concat [] hsmall).trans (Nat.zero_add n)
      · rw [Nat.toDigits_of_base_le (by decide) (Nat.le_of_not_lt hsmall),
          digitsValue_concat _ (Nat.mod_lt n (by decide))]
        have hfront : digitsValue (Nat.toDigits 10 (n / 10)) = n / 10 := ih (n / 10) (by omega)
        omega

/-- Zeros in front count for nothing. -/
theorem digitsValue_zeros (k : Nat) (cs : List Char) :
    digitsValue (List.replicate k '0' ++ cs) = digitsValue cs := by
  induction k with
  | zero => rfl
  | succ k ih => exact ih

theorem digitsValue_padded (width n : Nat) : digitsValue (Duration.padded width n) = n :=
  (digitsValue_zeros _ _).trans (digitsValue_decimalDigits n)

/-- A number of digits names a number below that power of ten. -/
theorem digitsValue_lt (cs : List Char) : digitsValue cs < 10 ^ cs.length := by
  have hdigit : ∀ c, (digitValue? c).getD 0 < 10 := by
    intro c
    rw [digitValue?]
    by_cases hc : '0' ≤ c ∧ c ≤ '9'
    · rw [if_pos hc]
      have htop : c.toNat ≤ 57 := hc.2
      show c.toNat - 48 < 10
      omega
    · rw [if_neg hc]
      decide
  -- digits are taken in one by one, so the induction is over the number so far
  have hfold : ∀ n k, n < 10 ^ k →
      cs.foldl (fun n c => n * 10 + (digitValue? c).getD 0) n < 10 ^ (k + cs.length) := by
    induction cs with
    | nil => exact fun _ _ h => h
    | cons c rest ih =>
        intro n k hn
        have hstep : n * 10 + (digitValue? c).getD 0 < 10 ^ (k + 1) := by
          have hc := hdigit c
          rw [Nat.pow_succ]
          omega
        have hlength : k + (c :: rest).length = k + 1 + rest.length := by
          rw [List.length_cons]
          omega
        rw [hlength]
        exact ih _ _ hstep
  have hzero := hfold 0 0 (by decide)
  rwa [Nat.zero_add] at hzero

theorem isDigit_of_mem_decimalDigits {c : Char} {n : Nat} (h : c ∈ decimalDigits n) :
    (digitValue? c).isSome = true := by
  have hdigit : c.isDigit = true := Nat.isDigit_of_mem_toDigits (by decide) (by decide) h
  obtain ⟨hlow, hhigh⟩ := Bool.and_eq_true_iff.mp hdigit
  have hrange : '0' ≤ c ∧ c ≤ '9' := ⟨of_decide_eq_true hlow, of_decide_eq_true hhigh⟩
  rw [digitValue?]
  rw [if_pos hrange]
  rfl

end Json

namespace Duration

open Json

theorem length_padded {width n : Nat} (hpos : 0 < width) (h : n < 10 ^ width) :
    (padded width n).length = width := by
  have hlength : (decimalDigits n).length ≤ width :=
    (Nat.length_toDigits_le_iff (by decide) hpos).mpr h
  simp only [padded, List.length_append, List.length_replicate]
  omega

theorem isDigit_of_mem_padded {c : Char} {width n : Nat} (h : c ∈ padded width n) :
    (digitValue? c).isSome = true := by
  rcases List.mem_append.mp h with h | h
  · rw [List.eq_of_mem_replicate h]
    rfl
  · exact isDigit_of_mem_decimalDigits h

theorem padded_ne_nil (width n : Nat) : padded width n ≠ [] := by
  intro h
  exact Nat.toDigits_ne_nil (List.append_eq_nil_iff.mp h).2

end Duration

end ModelOperator
