import Mathlib.Data.List.Nodup
import Mathlib.Data.List.Count

/-!
# Counting the numbered things that have a property

Things are numbered from zero on as they are made; one step changes one of them
or makes the next.
-/

namespace CountBelow

def count (has : ℕ → Bool) : ℕ → ℕ
  | 0 => 0
  | bound + 1 => count has bound + if has bound then 1 else 0

variable {before after : ℕ → Bool} {bound changed : ℕ}

theorem count_congr (hsame : ∀ index < bound, before index = after index) :
    count before bound = count after bound := by
  induction bound with
  | zero => rfl
  | succ bound ih =>
    rw [count, count, ih fun index hindex => hsame index (Nat.lt_succ_of_lt hindex),
      hsame bound (Nat.lt_succ_self bound)]

section

variable (hsame : ∀ index, index ≠ changed → before index = after index)
  (hchanged : changed < bound)
include hsame hchanged

/-- The one thing that changed is gained or lost, or neither. -/
theorem count_change : count before bound + (if after changed then 1 else 0) =
      count after bound + if before changed then 1 else 0 := by
  induction bound with
  | zero => omega
  | succ bound ih =>
    rw [count, count]
    by_cases hlast : changed = bound
    · subst hlast
      have hbelow : count before changed = count after changed :=
        count_congr fun index hindex => hsame index (Nat.ne_of_lt hindex)
      omega
    · have hrest := ih (by omega)
      rw [hsame bound (Ne.symm hlast)]
      omega

theorem count_gain (hbefore : before changed = false)
    (hafter : after changed = true) : count after bound = count before bound + 1 := by
  have hcount := count_change hsame hchanged
  rw [hbefore, hafter] at hcount
  simpa using hcount.symm

theorem count_loss (hbefore : before changed = true)
    (hafter : after changed = false) : count after bound + 1 = count before bound :=
  (count_gain (fun index hindex => (hsame index hindex).symm) hchanged hafter hbefore).symm

end

theorem exists_of_count_ne_zero (hcount : count before bound ≠ 0) :
    ∃ index < bound, before index = true := by
  induction bound with
  | zero => exact absurd rfl hcount
  | succ bound ih =>
    cases hlast : before bound with
    | true => exact ⟨bound, Nat.lt_succ_self bound, hlast⟩
    | false =>
      rw [count, hlast] at hcount
      obtain ⟨index, hindex, hhas⟩ := ih hcount
      exact ⟨index, Nat.lt_succ_of_lt hindex, hhas⟩

theorem countP_loss {items : List ℕ} (hnodup : items.Nodup) (hmem : changed ∈ items)
    (hsame : ∀ index, index ≠ changed → before index = after index)
    (hbefore : before changed = true) (hafter : after changed = false) :
    items.countP after + 1 = items.countP before := by
  induction items with
  | nil => cases hmem
  | cons first rest ih =>
    obtain ⟨hfirst, hrest⟩ := List.nodup_cons.mp hnodup
    rw [List.countP_cons, List.countP_cons]
    cases hmem with
    | head =>
      have hothers : rest.countP after = rest.countP before := by
        refine List.countP_congr fun index hindex => ?_
        rw [hsame index (fun heq => hfirst (heq ▸ hindex))]
      rw [hothers, hbefore, hafter]
      rfl
    | tail _ htail =>
      have hcount := ih hrest htail
      have hne : first ≠ changed := fun heq => hfirst (heq ▸ htail)
      rw [hsame first hne]
      omega

end CountBelow
