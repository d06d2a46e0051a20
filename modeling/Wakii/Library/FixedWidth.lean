import Mathlib.Data.String.Basic
import Mathlib.Data.Nat.Digits.Defs

/-!
# Fixed-width decimal numerals

Decimal numerals padded with zeros to one width compare as strings exactly as
the numbers they write compare.
-/

namespace FixedWidth

open List

/-- The decimal digits of a number, padded with zeros on the left. -/
def padded (width number : ℕ) : List Char :=
  (Nat.toDigits 10 number).leftpad width '0'

theorem lt_append_of_lt {left right : List Char}
    (hlength : left.length = right.length) (hlt : left < right)
    (leftTail rightTail : List Char) :
    left ++ leftTail < right ++ rightTail := by
  induction left generalizing right with
  | nil =>
    cases right with
    | nil => exact absurd hlt (List.lt_irrefl [])
    | cons head tail => simp at hlength
  | cons head tail ih =>
    cases right with
    | nil => simp at hlength
    | cons head' tail' =>
      rw [cons_lt_cons_iff] at hlt
      rw [cons_append, cons_append, cons_lt_cons_iff]
      cases hlt with
      | inl hhead => exact Or.inl hhead
      | inr htail =>
        exact Or.inr ⟨htail.1, ih (by simpa using hlength) htail.2⟩

theorem padded_of_lt_ten (width : ℕ) {number : ℕ} (hnumber : number < 10) :
    padded (width + 1) number = List.replicate width '0' ++ [number.digitChar] := by
  rw [padded, Nat.toDigits_of_lt_base hnumber, List.leftpad]
  simp

theorem padded_succ (width number : ℕ) : padded (width + 2) number =
      padded (width + 1) (number / 10) ++ [(number % 10).digitChar] := by
  by_cases hnumber : number < 10
  · rw [padded_of_lt_ten (width + 1) hnumber, Nat.div_eq_of_lt hnumber,
      padded_of_lt_ten width (by decide), Nat.mod_eq_of_lt hnumber]
    rw [replicate_succ', append_assoc, append_assoc]
    rfl
  · have hbase : 10 ≤ number := Nat.le_of_not_lt hnumber
    have hpad (length : ℕ) : width + 2 - (length + 1) = width + 1 - length :=
      Nat.add_sub_add_right (width + 1) 1 length
    rw [padded, Nat.toDigits_of_base_le (by decide) hbase, padded,
      List.leftpad, List.leftpad, length_append, length_singleton,
      hpad, append_assoc]

theorem length_padded (width : ℕ) {number : ℕ} (hnumber : number < 10 ^ (width + 1)) :
    (padded (width + 1) number).length = width + 1 := by
  induction width generalizing number with
  | zero =>
    rw [padded_of_lt_ten 0 (by simpa using hnumber)]
    rfl
  | succ width ih =>
    have hdiv : number / 10 < 10 ^ (width + 1) := by
      rw [Nat.div_lt_iff_lt_mul (by decide)]
      simpa [pow_succ] using hnumber
    rw [padded_succ, length_append, ih hdiv, length_singleton]

private theorem digitChar_lt {left right : ℕ} (hlt : left < right)
    (hright : right < 10) : left.digitChar < right.digitChar := by
  have hdigits : ∀ right < 10, ∀ left < right, left.digitChar < right.digitChar := by decide
  exact hdigits right hright left hlt

theorem padded_lt (width : ℕ) {left right : ℕ} (hlt : left < right)
    (hright : right < 10 ^ (width + 1)) :
    padded (width + 1) left < padded (width + 1) right := by
  induction width generalizing left right with
  | zero =>
    have hten : right < 10 := by simpa using hright
    rw [padded_of_lt_ten 0 hten, padded_of_lt_ten 0 (hlt.trans hten)]
    exact cons_lt_cons_iff.mpr (Or.inl (digitChar_lt hlt hten))
  | succ width ih =>
    have hdiv : right / 10 < 10 ^ (width + 1) := by
      rw [Nat.div_lt_iff_lt_mul (by decide)]
      simpa [pow_succ] using hright
    rw [padded_succ, padded_succ]
    cases Nat.lt_or_eq_of_le (Nat.div_le_div_right (c := 10) hlt.le) with
    | inl hquotient =>
      apply lt_append_of_lt _ (ih hquotient hdiv)
      rw [length_padded width hdiv, length_padded width (hquotient.trans hdiv)]
    | inr hquotient =>
      have hdigit : left % 10 < right % 10 := by omega
      rw [hquotient]
      apply append_left_lt
      exact cons_lt_cons_iff.mpr (Or.inl (digitChar_lt hdigit (Nat.mod_lt _ (by decide))))

end FixedWidth
