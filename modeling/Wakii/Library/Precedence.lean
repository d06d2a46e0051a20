import Mathlib.Data.List.Basic

/-!
# What comes before what in a history

That some entries come up in a history in a given order, others between them or
not, is that they are a sublist of it.  A history grows at its end.
-/

namespace Precedence

variable {A : Type*} {history order : List A} {first second last entry : A}

open List

/-- Some entries in their order end in the newest one, or came up before it. -/
theorem order_concat : order ++ [last] <+ history ++ [entry] ↔
    order ++ [last] <+ history ∨ (order <+ history ∧ last = entry) := by
  rw [← reverse_sublist, reverse_append, reverse_append, reverse_singleton, reverse_singleton,
    singleton_append, singleton_append]
  constructor
  · intro hsublist
    cases hsublist with
    | cons _ hearlier =>
      refine Or.inl ?_
      rw [← reverse_sublist, reverse_append]
      exact hearlier
    | cons_cons _ hearlier => exact Or.inr ⟨reverse_sublist.mp hearlier, rfl⟩
  · rintro (hearlier | ⟨hearlier, rfl⟩)
    · rw [← reverse_sublist, reverse_append] at hearlier
      exact hearlier.cons _
    · exact (reverse_sublist.mpr hearlier).cons_cons _

theorem two_concat : [first, last] <+ history ++ [entry] ↔
    [first, last] <+ history ∨ (first ∈ history ∧ last = entry) := by
  rw [← singleton_sublist]
  exact @order_concat A history [first] last entry

theorem three_concat : [first, second, last] <+ history ++ [entry] ↔
    [first, second, last] <+ history ∨ ([first, second] <+ history ∧ last = entry) :=
  @order_concat A history [first, second] last entry

theorem two_of_mem (hfirst : first ∈ history) : [first, last] <+ history ++ [last] :=
  two_concat.mpr (Or.inr ⟨hfirst, rfl⟩)

theorem three_of_two (htwo : [first, second] <+ history) :
    [first, second, last] <+ history ++ [last] := three_concat.mpr (Or.inr ⟨htwo, rfl⟩)

theorem order_later (horder : order <+ history) : order <+ history ++ [entry] :=
  horder.trans (sublist_append_left history [entry])

theorem first_mem (htwo : [first, last] <+ history) : first ∈ history := htwo.subset mem_cons_self

theorem last_mem (htwo : [first, last] <+ history) : last ∈ history :=
  htwo.subset (mem_cons_of_mem _ mem_cons_self)

end Precedence
