import Mathlib.Order.WithBot

/-!
# Revision registers

A register is vacant, holds a value written at some revision, or holds the mark
of a removal made at some revision.  Writes at a revision it has already seen
are ignored.  What follows from that alone is proved here for any linear order
of revisions.
-/

inductive Register (R : Type*) where
  | vacant
  | live (revision : R)
  | removed (revision : R)

namespace Register

variable {R : Type*} [LinearOrder R]

def revision : Register R → WithBot R
  | vacant => ⊥
  | live revision => revision
  | removed revision => revision

/-- One register follows from another by writes and removals. -/
def Advances (old new : Register R) : Prop :=
  new = old ∨ old.revision < new.revision

theorem Advances.refl (register : Register R) : register.Advances register := Or.inl rfl

theorem Advances.revision_le {old new : Register R} (hadvances : old.Advances new) :
    old.revision ≤ new.revision := by
  rcases hadvances with hsame | hlater
  · rw [hsame]
  · exact hlater.le

theorem Advances.trans {first second third : Register R}
    (hfirst : first.Advances second) (hsecond : second.Advances third) :
    first.Advances third := by
  rcases hsecond with hsame | hlater
  · rw [hsame]
    exact hfirst
  · exact Or.inr (lt_of_le_of_lt hfirst.revision_le hlater)

theorem Advances.lt_of_removed_of_live {removal write : R}
    (hadvances : (removed removal).Advances (live write)) : removal < write := by
  rcases hadvances with hsame | hlater
  · cases hsame
  · exact WithBot.coe_lt_coe.mp hlater

theorem advances_live {old : Register R} {write : R} (hlater : old.revision < write) :
    old.Advances (live write) :=
  Or.inr hlater

theorem advances_removed {old : Register R} {removal : R} (hlater : old.revision < removal) :
    old.Advances (removed removal) :=
  Or.inr hlater

end Register
