import Mathlib.Data.List.Nodup

/-!
# Logs numbered in a row

A log whose entries carry their own sequence numbers, each one above the one
before it.  A page read from such a log is numbered in a row as well.
-/

namespace Numbered

open List

variable {A B : Type*} {number : A → ℕ} {start : ℕ} {log : List A}

/-- The entries carry the numbers from `start` on, in a row. -/
def Run (number : A → ℕ) : ℕ → List A → Prop
  | _, [] => True
  | start, entry :: rest => number entry = start ∧ Run number (start + 1) rest

@[simp] theorem run_nil : Run number start [] := trivial

@[simp] theorem run_cons {entry : A} :
    Run number start (entry :: log) ↔ number entry = start ∧ Run number (start + 1) log :=
  Iff.rfl

theorem run_append {more : List A} : Run number start (log ++ more) ↔
      Run number start log ∧ Run number (start + log.length) more := by
  induction log generalizing start with
  | nil => simp
  | cons entry rest ih =>
    have hlength : start + 1 + rest.length = start + (rest.length + 1) := by omega
    simp only [cons_append, run_cons, ih, length_cons, hlength, and_assoc]

theorem run_concat {entry : A} (hlog : Run number start log)
    (hentry : number entry = start + log.length) : Run number start (log ++ [entry]) :=
  run_append.mpr ⟨hlog, by simpa using hentry⟩

theorem run_map {other : B → ℕ} {f : A → B} (hf : ∀ entry, other (f entry) = number entry) :
    Run other start (log.map f) ↔ Run number start log := by
  induction log generalizing start with
  | nil => simp
  | cons entry rest ih => simp [hf, ih]

section

variable (hlog : Run number start log)
include hlog

theorem bounds_of_mem {entry : A} (hentry : entry ∈ log) :
    start ≤ number entry ∧ number entry < start + log.length := by
  induction log generalizing start with
  | nil => cases hentry
  | cons head rest ih =>
    obtain ⟨hhead, hrest⟩ := hlog
    rw [length_cons]
    cases hentry with
    | head => omega
    | tail _ hmem =>
      have hbounds := ih hrest hmem
      omega

theorem exists_of_bounds {wanted : ℕ} (hlow : start ≤ wanted)
    (hhigh : wanted < start + log.length) : ∃ entry ∈ log, number entry = wanted := by
  induction log generalizing start with
  | nil =>
    rw [length_nil] at hhigh
    omega
  | cons head rest ih =>
    obtain ⟨hhead, hrest⟩ := hlog
    rw [length_cons] at hhigh
    by_cases hfirst : wanted = start
    · exact ⟨head, mem_cons_self, hhead.trans hfirst.symm⟩
    · obtain ⟨entry, hentry, hnumber⟩ := ih hrest (by omega) (by omega)
      exact ⟨entry, mem_cons_of_mem head hentry, hnumber⟩

theorem eq_of_number {left right : A} (hleft : left ∈ log)
    (hright : right ∈ log) (hnumber : number left = number right) : left = right := by
  induction log generalizing start with
  | nil => cases hleft
  | cons head rest ih =>
    obtain ⟨hhead, hrest⟩ := hlog
    cases hleft with
    | head =>
      cases hright with
      | head => rfl
      | tail _ hmem =>
        have hbounds := bounds_of_mem hrest hmem
        omega
    | tail _ hleft =>
      cases hright with
      | head =>
        have hbounds := bounds_of_mem hrest hleft
        omega
      | tail _ hright => exact ih hrest hleft hright

theorem map_number : log.map number = List.range' start log.length := by
  induction log generalizing start with
  | nil => rfl
  | cons head rest ih =>
    rw [map_cons, length_cons, range'_succ, hlog.1, ih hlog.2]

end

end Numbered
