import Mathlib.Data.List.Infix

/-!
# Where a pattern stands in a list

The first place and the last place of a pattern, as JavaScript's `indexOf` and
`lastIndexOf` find them.  A first place stays the first when the list goes on.
-/

namespace TextSearch

open Option List

variable {A : Type*} [DecidableEq A]

/-- The first place at which the pattern stands. -/
@[simp] def indexOf? (pattern : List A) : List A → Option ℕ
  | [] => if pattern = [] then some 0 else none
  | item :: rest =>
    if pattern.isPrefixOf (item :: rest) then some 0 else (indexOf? pattern rest).map (· + 1)

/-- `text.indexOf(pattern, offset)` -/
def indexOfFrom? (pattern text : List A) (offset : ℕ) : Option ℕ :=
  (indexOf? pattern (text.drop offset)).map (· + offset)

/-- `text.lastIndexOf(pattern, place)`: the last place up to the given one. -/
@[simp] def lastIndexOf? (pattern text : List A) : ℕ → Option ℕ
  | 0 => if pattern.isPrefixOf text then some 0 else none
  | place + 1 =>
    if pattern.isPrefixOf (text.drop (place + 1)) then some (place + 1)
    else lastIndexOf? pattern text place

def includes (pattern text : List A) : Bool := (indexOf? pattern text).isSome

section First

variable {pattern text : List A} {index : ℕ}

theorem prefix_of_indexOf? (hindex : indexOf? pattern text = some index) :
    pattern <+: text.drop index := by
  induction text generalizing index with
  | nil =>
    rw [indexOf?] at hindex
    split_ifs at hindex with hnil
    rw [hnil]
    exact nil_prefix
  | cons item rest ih =>
    rw [indexOf?] at hindex
    split_ifs at hindex with hprefix
    · cases hindex
      exact isPrefixOf_iff_prefix.mp hprefix
    · obtain ⟨place, hplace, rfl⟩ := map_eq_some_iff.mp hindex
      exact ih hplace

theorem not_prefix_of_lt_indexOf? (hindex : indexOf? pattern text = some index) {place : ℕ}
    (hplace : place < index) : ¬ pattern <+: text.drop place := by
  induction text generalizing index place with
  | nil =>
    rw [indexOf?] at hindex
    split_ifs at hindex
    cases hindex
    exact absurd hplace (Nat.not_lt_zero place)
  | cons item rest ih =>
    rw [indexOf?] at hindex
    split_ifs at hindex with hprefix
    · cases hindex
      exact absurd hplace (Nat.not_lt_zero place)
    · obtain ⟨found, hfound, rfl⟩ := map_eq_some_iff.mp hindex
      cases place with
      | zero => exact fun hstands => hprefix (List.isPrefixOf_iff_prefix.mpr hstands)
      | succ place => exact ih hfound (Nat.lt_of_succ_lt_succ hplace)

theorem indexOf?_eq_none : indexOf? pattern text = none ↔
    ∀ place ≤ text.length, ¬ pattern <+: text.drop place := by
  induction text with
  | nil =>
    rw [indexOf?]
    constructor
    · intro hnone place _ hprefix
      rw [drop_nil, prefix_nil] at hprefix
      rw [if_pos hprefix] at hnone
      cases hnone
    · intro hnowhere
      exact if_neg fun hnil => hnowhere 0 (Nat.le_refl 0) (by rw [hnil]; exact nil_prefix)
  | cons item rest ih =>
    rw [indexOf?]
    constructor
    · intro hnone place hplace
      split_ifs at hnone with hprefix
      rw [map_eq_none_iff] at hnone
      cases place with
      | zero => exact fun hstands => hprefix (List.isPrefixOf_iff_prefix.mpr hstands)
      | succ place => exact ih.mp hnone place (Nat.le_of_succ_le_succ hplace)
    · intro hnowhere
      have hfirst : ¬ pattern <+: item :: rest := hnowhere 0 (Nat.zero_le _)
      rw [if_neg fun hprefix => hfirst (List.isPrefixOf_iff_prefix.mp hprefix), map_eq_none_iff, ih]
      exact fun place hplace => hnowhere (place + 1) (Nat.succ_le_succ hplace)

theorem indexOf?_eq_some (hstart : pattern <+: text.drop index)
    (hfirst : ∀ place < index, ¬ pattern <+: text.drop place) (hindex : index ≤ text.length) :
    indexOf? pattern text = some index := by
  cases hfound : indexOf? pattern text with
  | none => exact absurd hstart (indexOf?_eq_none.mp hfound index hindex)
  | some place =>
    rcases Nat.lt_trichotomy place index with hbefore | rfl | hafter
    · exact absurd (prefix_of_indexOf? hfound) (hfirst place hbefore)
    · rfl
    · exact absurd hstart (not_prefix_of_lt_indexOf? hfound hafter)

theorem add_length_le_of_indexOf? (hindex : indexOf? pattern text = some index) :
    index + pattern.length ≤ text.length ∨ pattern = [] := by
  have hlength := (prefix_of_indexOf? hindex).length_le
  rw [length_drop] at hlength
  by_cases hnil : pattern = []
  · exact Or.inr hnil
  · have hpattern := length_pos_iff.mpr hnil
    omega

omit [DecidableEq A] in
theorem prefix_drop_of_append {more : List A} {place : ℕ}
    (hstart : pattern <+: (text ++ more).drop place)
    (hlength : place + pattern.length ≤ text.length) : pattern <+: text.drop place := by
  rw [drop_append_of_le_length (by omega)] at hstart
  refine prefix_of_prefix_length_le hstart (prefix_append _ more) ?_
  rw [length_drop]
  omega

/-- The first place stays the first when the list goes on. -/
theorem indexOf?_append (hpattern : pattern ≠ []) (hindex : indexOf? pattern text = some index)
    (more : List A) : indexOf? pattern (text ++ more) = some index := by
  have hlength := (add_length_le_of_indexOf? hindex).resolve_right hpattern
  have hprefix := prefix_of_indexOf? hindex
  refine indexOf?_eq_some ?_ (fun place hplace hstands => ?_) ?_
  · rw [drop_append_of_le_length (by omega)]
    exact hprefix.trans (prefix_append _ more)
  · exact not_prefix_of_lt_indexOf? hindex hplace (prefix_drop_of_append hstands (by omega))
  · rw [length_append]
    omega

/-- A pattern that appears when the list goes on ends in what was appended. -/
theorem lt_of_indexOf?_append {more : List A} (hnone : indexOf? pattern text = none)
    (hindex : indexOf? pattern (text ++ more) = some index) :
    text.length < index + pattern.length := by
  by_contra hwithin
  exact indexOf?_eq_none.mp hnone index (by omega)
    (prefix_drop_of_append (prefix_of_indexOf? hindex) (by omega))

theorem indexOfFrom?_eq_some {offset : ℕ} (hindex : indexOfFrom? pattern text offset = some index) :
    offset ≤ index ∧ pattern <+: text.drop index ∧
      ∀ place, offset ≤ place → place < index → ¬ pattern <+: text.drop place := by
  obtain ⟨found, hfound, rfl⟩ := map_eq_some_iff.mp hindex
  refine ⟨Nat.le_add_left _ _, ?_, fun place hoffset hplace hstands => ?_⟩
  · rw [Nat.add_comm, ← drop_drop]
    exact prefix_of_indexOf? hfound
  · refine @not_prefix_of_lt_indexOf? _ _ _ _ _ hfound (place - offset) (by omega) ?_
    rw [drop_drop, Nat.add_sub_cancel' hoffset]
    exact hstands

theorem indexOfFrom?_eq_none (hpattern : pattern ≠ []) {offset : ℕ} :
    indexOfFrom? pattern text offset = none ↔
      ∀ place, offset ≤ place → ¬ pattern <+: text.drop place := by
  rw [indexOfFrom?, map_eq_none_iff, indexOf?_eq_none]
  constructor
  · intro hnowhere place hoffset hstands
    have hlength := hstands.length_le
    have hpositive := length_pos_iff.mpr hpattern
    rw [length_drop] at hlength
    refine hnowhere (place - offset) (by rw [length_drop]; omega) ?_
    rw [drop_drop, Nat.add_sub_cancel' hoffset]
    exact hstands
  · intro hnowhere place _ hstands
    rw [drop_drop] at hstands
    exact hnowhere _ (Nat.le_add_right _ _) hstands

/-- A search may start later where the pattern does not stand earlier. -/
theorem indexOfFrom?_skip (hpattern : pattern ≠ []) {offset later : ℕ} (hlater : offset ≤ later)
    (hbetween : ∀ place, offset ≤ place → place < later → ¬ pattern <+: text.drop place) :
    indexOfFrom? pattern text offset = indexOfFrom? pattern text later := by
  cases hfound : indexOfFrom? pattern text later with
  | none =>
    rw [indexOfFrom?_eq_none hpattern] at hfound ⊢
    intro place hoffset
    by_cases hplace : place < later
    · exact hbetween place hoffset hplace
    · exact hfound place (Nat.le_of_not_lt hplace)
  | some index =>
    obtain ⟨hle, hstands, hfirst⟩ := indexOfFrom?_eq_some hfound
    cases hearlier : indexOfFrom? pattern text offset with
    | none =>
      exact absurd hstands ((indexOfFrom?_eq_none hpattern).mp hearlier index (by omega))
    | some other =>
      obtain ⟨hoffset, hother, hnone⟩ := indexOfFrom?_eq_some hearlier
      rcases Nat.lt_trichotomy other index with hbefore | rfl | hafter
      · by_cases hplace : other < later
        · exact absurd hother (hbetween other hoffset hplace)
        · exact absurd hother (hfirst other (Nat.le_of_not_lt hplace) hbefore)
      · rfl
      · exact absurd hstands (hnone index (by omega) hafter)

theorem includes_eq_false : includes pattern text = false ↔
    ∀ place ≤ text.length, ¬ pattern <+: text.drop place := by
  rw [includes, ← indexOf?_eq_none, isSome_eq_false_iff, isNone_iff_eq_none]

theorem includes_cons_of_false {item : A} (hincludes : includes pattern (item :: text) = false) :
    ¬ pattern <+: item :: text ∧ includes pattern text = false := by
  rw [includes_eq_false] at hincludes ⊢
  exact ⟨hincludes 0 (Nat.zero_le _), fun place hplace =>
    hincludes (place + 1) (Nat.succ_le_succ hplace)⟩

end First

section Last

variable {pattern text : List A} {place index : ℕ}

theorem lastIndexOf?_eq_none : lastIndexOf? pattern text place = none ↔
    ∀ other ≤ place, ¬ pattern <+: text.drop other := by
  induction place with
  | zero =>
    rw [lastIndexOf?]
    constructor
    · intro hnone other hother hprefix
      rw [Nat.le_zero.mp hother, drop_zero] at hprefix
      rw [if_pos (List.isPrefixOf_iff_prefix.mpr hprefix)] at hnone
      cases hnone
    · exact fun hnowhere => if_neg fun hprefix =>
        hnowhere 0 (Nat.le_refl 0) (List.isPrefixOf_iff_prefix.mp hprefix)
  | succ place ih =>
    rw [lastIndexOf?]
    constructor
    · intro hnone other hother
      split_ifs at hnone with hprefix
      rcases Nat.of_le_succ hother with hbefore | rfl
      · exact ih.mp hnone other hbefore
      · exact fun hstands => hprefix (List.isPrefixOf_iff_prefix.mpr hstands)
    · intro hnowhere
      rw [if_neg fun hprefix => hnowhere (place + 1) (Nat.le_refl _)
        (List.isPrefixOf_iff_prefix.mp hprefix), ih]
      exact fun other hother => hnowhere other (Nat.le_succ_of_le hother)

theorem lastIndexOf?_eq_some (hindex : lastIndexOf? pattern text place = some index) :
    index ≤ place ∧ pattern <+: text.drop index ∧
      ∀ other, index < other → other ≤ place → ¬ pattern <+: text.drop other := by
  induction place with
  | zero =>
    rw [lastIndexOf?] at hindex
    split_ifs at hindex with hprefix
    cases hindex
    exact ⟨Nat.le_refl 0, isPrefixOf_iff_prefix.mp hprefix, fun other hafter hother =>
      absurd hafter (Nat.not_lt.mpr hother)⟩
  | succ place ih =>
    rw [lastIndexOf?] at hindex
    split_ifs at hindex with hprefix
    · cases hindex
      exact ⟨Nat.le_refl _, isPrefixOf_iff_prefix.mp hprefix, fun other hafter hother =>
        absurd hafter (Nat.not_lt.mpr hother)⟩
    · obtain ⟨hle, hstands, hlast⟩ := ih hindex
      refine ⟨Nat.le_succ_of_le hle, hstands, fun other hafter hother => ?_⟩
      rcases Nat.of_le_succ hother with hbefore | rfl
      · exact hlast other hafter hbefore
      · exact fun hlater => hprefix (List.isPrefixOf_iff_prefix.mpr hlater)

end Last

end TextSearch
