import Wakii.Library.Utf16

/-!
# Base64

Three bytes become four units, and one or two last bytes are padded.  The decoder
drops what bits the padding leaves over, so several texts decode alike, but each
list of bytes has one encoding.
-/

namespace Base64

open Option

def padding : CodeUnit := 0x3D

def digit (bits : ℕ) : CodeUnit :=
  if bits < 26 then Fin.ofNat 65536 (0x41 + bits)
  else if bits < 52 then Fin.ofNat 65536 (0x61 + (bits - 26))
  else if bits < 62 then Fin.ofNat 65536 (0x30 + (bits - 52))
  else if bits = 62 then 0x2B
  else 0x2F

def digitValue? (unit : CodeUnit) : Option ℕ :=
  if 0x41 ≤ unit.val ∧ unit.val ≤ 0x5A then some (unit.val - 0x41)
  else if 0x61 ≤ unit.val ∧ unit.val ≤ 0x7A then some (unit.val - 0x61 + 26)
  else if 0x30 ≤ unit.val ∧ unit.val ≤ 0x39 then some (unit.val - 0x30 + 52)
  else if unit = 0x2B then some 62
  else if unit = 0x2F then some 63
  else none

def encode : List Byte → Text
  | [] => []
  | [first] => [digit (first / 4), digit (first % 4 * 16), padding, padding]
  | [first, second] =>
    [digit (first / 4), digit (first % 4 * 16 + second / 16), digit (second % 16 * 4), padding]
  | first :: second :: third :: rest =>
    digit (first / 4) :: digit (first % 4 * 16 + second / 16) ::
      digit (second % 16 * 4 + third / 64) :: digit (third % 64) :: encode rest

/-- Whole groups of digits, the last of which may be padded. -/
def isBase64 : Text → Bool
  | [] => true
  | first :: second :: third :: fourth :: rest =>
    (digitValue? first).isSome && (digitValue? second).isSome &&
      (((digitValue? third).isSome && (digitValue? fourth).isSome && isBase64 rest) ||
        (((digitValue? third).isSome || third = padding) && fourth = padding && rest = []))
  | _ => false

def decode? : Text → Option (List Byte)
  | [] => some []
  | first :: second :: third :: fourth :: rest => do
    let one ← digitValue? first
    let two ← digitValue? second
    if fourth = padding ∧ rest = [] then
      if third = padding then some [Fin.ofNat 256 (one * 4 + two / 16)]
      else
        let three ← digitValue? third
        some [Fin.ofNat 256 (one * 4 + two / 16), Fin.ofNat 256 (two % 16 * 16 + three / 4)]
    else
      let three ← digitValue? third
      let four ← digitValue? fourth
      let bytes ← decode? rest
      some (Fin.ofNat 256 (one * 4 + two / 16) :: Fin.ofNat 256 (two % 16 * 16 + three / 4) ::
        Fin.ofNat 256 (three % 4 * 64 + four) :: bytes)
  | _ => none

theorem digitValue?_digit_of_fin : ∀ bits : Fin 64, digitValue? (digit bits) = some bits.val := by
  decide

theorem digitValue?_digit {bits : ℕ} (hbits : bits < 64) : digitValue? (digit bits) = some bits :=
  digitValue?_digit_of_fin ⟨bits, hbits⟩

theorem digit_ne_padding {bits : ℕ} (hbits : bits < 64) : digit bits ≠ padding := by
  intro heq
  have hvalue := digitValue?_digit hbits
  rw [heq] at hvalue
  cases hvalue

theorem ofNat_eq (byte : Byte) {value : ℕ} (hvalue : value = byte.val) :
    Fin.ofNat 256 value = byte := by
  rw [hvalue]
  exact Fin.ofNat_val_eq_self byte

theorem decode?_encode (bytes : List Byte) : decode? (encode bytes) = some bytes := by
  induction bytes using encode.induct with
  | case1 => rfl
  | case2 first =>
    have hfirst := first.isLt
    rw [encode, decode?, digitValue?_digit (by omega), digitValue?_digit (by omega)]
    simp only [bind_eq_bind, bind_some, and_self, if_true]
    rw [ofNat_eq first (by omega)]
  | case3 first second =>
    have hfirst := first.isLt
    have hsecond := second.isLt
    rw [encode, decode?, digitValue?_digit (by omega), digitValue?_digit (by omega),
      digitValue?_digit (by omega)]
    simp only [bind_eq_bind, bind_some, and_self, if_true,
      digit_ne_padding (show second.val % 16 * 4 < 64 by omega), if_false]
    rw [ofNat_eq first (by omega), ofNat_eq second (by omega)]
  | case4 first second third rest ih =>
    have hfirst := first.isLt
    have hsecond := second.isLt
    have hthird := third.isLt
    rw [encode, decode?, digitValue?_digit (by omega), digitValue?_digit (by omega),
      digitValue?_digit (by omega), digitValue?_digit (by omega), ih]
    simp only [bind_eq_bind, bind_some,
      digit_ne_padding (show third.val % 64 < 64 by omega), false_and, if_false]
    rw [ofNat_eq first (by omega), ofNat_eq second (by omega), ofNat_eq third (by omega)]

theorem encode_injective : Function.Injective encode := by
  intro left right heq
  have hdecoded := congrArg decode? heq
  rw [decode?_encode, decode?_encode] at hdecoded
  exact Option.some.inj hdecoded

/-- An encoding has the shape the decoder reads. -/
theorem isBase64_encode (bytes : List Byte) : isBase64 (encode bytes) = true := by
  induction bytes using encode.induct with
  | case1 => rfl
  | case2 first =>
    have hfirst := first.isLt
    simp only [encode, isBase64, digitValue?_digit (show first.val / 4 < 64 by omega),
      digitValue?_digit (show first.val % 4 * 16 < 64 by omega), isSome_some,
      decide_true, Bool.or_true, Bool.and_self]
  | case3 first second =>
    have hfirst := first.isLt
    have hsecond := second.isLt
    simp only [encode, isBase64, digitValue?_digit (show first.val / 4 < 64 by omega),
      digitValue?_digit (show first.val % 4 * 16 + second.val / 16 < 64 by omega),
      digitValue?_digit (show second.val % 16 * 4 < 64 by omega), isSome_some,
      decide_true, Bool.true_or, Bool.or_true, Bool.and_self]
  | case4 first second third rest ih =>
    have hfirst := first.isLt
    have hsecond := second.isLt
    have hthird := third.isLt
    simp only [encode, isBase64, digitValue?_digit (show first.val / 4 < 64 by omega),
      digitValue?_digit (show first.val % 4 * 16 + second.val / 16 < 64 by omega),
      digitValue?_digit (show second.val % 16 * 4 + third.val / 64 < 64 by omega),
      digitValue?_digit (show third.val % 64 < 64 by omega), ih]
    rfl

/-- Each three bytes, the last ones perhaps fewer, take four units. -/
theorem length_encode (bytes : List Byte) : (encode bytes).length = (bytes.length + 2) / 3 * 4 := by
  induction bytes using encode.induct with
  | case1 => rfl
  | case2 first => simp [encode]
  | case3 first second => simp [encode]
  | case4 first second third rest ih =>
    rw [encode]
    simp only [List.length_cons, ih]
    omega

theorem encode_ascii (bytes : List Byte) : ∀ unit ∈ encode bytes, unit.val < 128 := by
  have hdigit (bits : ℕ) : (digit bits).val < 128 := by
    unfold digit
    split_ifs <;> first | decide | exact lt_of_le_of_lt (Nat.mod_le _ _) (by omega)
  induction bytes using encode.induct with
  | case1 => simp [encode]
  | case2 first => simp [encode, hdigit, padding]
  | case3 first second => simp [encode, hdigit, padding]
  | case4 first second third rest ih => simpa [encode, hdigit] using ih

end Base64
