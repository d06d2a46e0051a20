import Mathlib.Data.List.DropRight

/-!
# The last items of a list

What is kept of a list that grows at its end, where only so many items are kept.
-/

namespace LastItems

open List

variable {A : Type*}

theorem rtake_append_of_le {count : ℕ} (front : List A) {back : List A}
    (hcount : count ≤ back.length) : (front ++ back).rtake count = back.rtake count := by
  have hplace : (front ++ back).length - count = front.length + (back.length - count) := by
    rw [length_append]
    omega
  rw [List.rtake, hplace, drop_append, drop_eq_nil_of_le (Nat.le_add_right _ _),
    nil_append, Nat.add_sub_cancel_left, List.rtake]

theorem rtake_append_rtake (count : ℕ) (front back : List A) :
    (front.rtake count ++ back).rtake count = (front ++ back).rtake count := by
  have hsplit : front = front.rdrop count ++ front.rtake count := (take_append_drop _ front).symm
  by_cases hall : front.length ≤ count
  · have hwhole : front.rtake count = front := by
      rw [List.rtake, Nat.sub_eq_zero_of_le hall, drop_zero]
    rw [hwhole]
  · have hlength : count ≤ (front.rtake count ++ back).length := by
      rw [length_append, List.rtake, length_drop]
      omega
    calc
      (front.rtake count ++ back).rtake count =
          (front.rdrop count ++ (front.rtake count ++ back)).rtake count :=
        (rtake_append_of_le _ hlength).symm
      _ = (front ++ back).rtake count := by rw [← append_assoc, ← hsplit]

theorem suffix_rtake {items list : List A} {count : ℕ} (hcount : items.length ≤ count) :
    items <:+ list.rtake count ↔ items <:+ list := by
  constructor
  · exact fun hsuffix => hsuffix.trans (drop_suffix _ _)
  · intro hsuffix
    refine suffix_of_suffix_length_le hsuffix (drop_suffix _ _) ?_
    have hlength := hsuffix.length_le
    rw [List.rtake, length_drop]
    omega

theorem rtake_of_length_le {list : List A} {count : ℕ} (hlength : list.length ≤ count) :
    list.rtake count = list := by
  rw [List.rtake, Nat.sub_eq_zero_of_le hlength, drop_zero]

end LastItems
