import Wakii.Library.Utf16

/-!
# Values behind their lengths

An encoding delimits itself where what follows it never changes where it ends.
Numbers of 32 bits do, and so does whatever stands behind its own length; pairs and
lists of such values are told apart again.
-/

namespace LengthPrefixed

open List

/-- `setUint32`, the highest byte first. -/
def uint32 (value : ℕ) : List Byte :=
  [Fin.ofNat 256 (value / 0x1000000), Fin.ofNat 256 (value / 0x10000),
    Fin.ofNat 256 (value / 0x100), Fin.ofNat 256 value]

def block (bytes : List Byte) : List Byte := uint32 bytes.length ++ bytes

def counted {A : Type*} (write : A → List Byte) (items : List A) : List Byte :=
  uint32 items.length ++ items.flatMap write

/-- Among the values that fit, an encoding shows where it ends and what it encodes. -/
structure SelfDelimiting {A : Type*} (write : A → List Byte) (fits : A → Prop) : Prop where
  apart : ∀ {left right : A} {rest other : List Byte}, fits left → fits right →
    write left ++ rest = write right ++ other → left = right ∧ rest = other

def BelowWord (value : ℕ) : Prop := value < 0x100000000

instance (value : ℕ) : Decidable (BelowWord value) :=
  inferInstanceAs (Decidable (value < 0x100000000))

theorem uint32_injective {left right : ℕ} (hleft : BelowWord left) (hright : BelowWord right)
    (heq : uint32 left = uint32 right) : left = right := by
  rw [BelowWord] at hleft hright
  simp only [uint32, List.cons.injEq, and_true, Fin.ext_iff, Fin.val_ofNat] at heq
  omega

theorem selfDelimiting_uint32 : SelfDelimiting uint32 BelowWord := by
  constructor
  intro left right rest other hleft hright heq
  obtain ⟨hvalue, hrest⟩ := append_inj heq rfl
  exact ⟨uint32_injective hleft hright hvalue, hrest⟩

theorem selfDelimiting_block : SelfDelimiting block fun bytes => BelowWord bytes.length := by
  constructor
  intro left right rest other hleft hright heq
  rw [block, block, append_assoc, append_assoc] at heq
  obtain ⟨hlength, hbytes⟩ := selfDelimiting_uint32.apart hleft hright heq
  exact append_inj hbytes hlength

section Composition

variable {A B : Type*} {write : A → List Byte} {fits : A → Prop}

section

variable (hwrite : SelfDelimiting write fits)
include hwrite

theorem SelfDelimiting.eq {left right : A}
    (hleft : fits left) (hright : fits right) (heq : write left = write right) : left = right := by
  have happend : write left ++ [] = write right ++ [] := by rw [heq]
  exact (hwrite.apart hleft hright happend).1

/-- What is told apart before it is encoded is told apart after. -/
theorem SelfDelimiting.comp {before : B → A}
    {admits : B → Prop} (hfits : ∀ {value}, admits value → fits (before value))
    (hbefore : ∀ {left right}, admits left → admits right → before left = before right →
      left = right) : SelfDelimiting (fun value => write (before value)) admits := by
  constructor
  intro left right rest other hleft hright heq
  obtain ⟨hvalue, hrest⟩ := hwrite.apart (hfits hleft) (hfits hright) heq
  exact ⟨hbefore hleft hright hvalue, hrest⟩

theorem SelfDelimiting.pair {later : B → List Byte}
    {fitsLater : B → Prop} (hlater : SelfDelimiting later fitsLater) :
    SelfDelimiting (fun values : A × B => write values.1 ++ later values.2)
      fun values => fits values.1 ∧ fitsLater values.2 := by
  constructor
  intro left right rest other hleft hright heq
  rw [append_assoc, append_assoc] at heq
  obtain ⟨hfirst, hbehind⟩ := hwrite.apart hleft.1 hright.1 heq
  obtain ⟨hsecond, hrest⟩ := hlater.apart hleft.2 hright.2 hbehind
  exact ⟨Prod.ext hfirst hsecond, hrest⟩

theorem SelfDelimiting.flatMap {left right : List A}
    {rest other : List Byte} (hlength : left.length = right.length)
    (hleft : ∀ item ∈ left, fits item) (hright : ∀ item ∈ right, fits item)
    (heq : left.flatMap write ++ rest = right.flatMap write ++ other) :
    left = right ∧ rest = other := by
  induction left generalizing right with
  | nil =>
    rw [length_nil, eq_comm, length_eq_zero_iff] at hlength
    rw [hlength] at heq ⊢
    exact ⟨rfl, heq⟩
  | cons item left ih =>
    cases right with
    | nil => cases hlength
    | cons second right =>
      rw [flatMap_cons, flatMap_cons, append_assoc, append_assoc] at heq
      obtain ⟨hitem, hbehind⟩ :=
        hwrite.apart (hleft item mem_cons_self) (hright second mem_cons_self) heq
      obtain ⟨hitems, hrest⟩ := ih (Nat.succ.inj hlength)
        (fun other hother => hleft other (mem_cons_of_mem _ hother))
        (fun other hother => hright other (mem_cons_of_mem _ hother)) hbehind
      rw [hitem, hitems]
      exact ⟨rfl, hrest⟩

theorem SelfDelimiting.counted : SelfDelimiting (counted write) fun items =>
      BelowWord items.length ∧ ∀ item ∈ items, fits item := by
  constructor
  intro left right rest other hleft hright heq
  rw [LengthPrefixed.counted, LengthPrefixed.counted, append_assoc, append_assoc] at heq
  obtain ⟨hlength, hitems⟩ := selfDelimiting_uint32.apart hleft.1 hright.1 heq
  exact hwrite.flatMap hlength hleft.2 hright.2 hitems

end

end Composition

end LengthPrefixed
