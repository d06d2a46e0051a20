import Wakii.Library.Utf8

/-!
# URI components

`encodeURIComponent` writes the UTF-8 bytes of a text, most of them as `%XX`,
and has no result for a lone surrogate.  `decodeURIComponent` reads the bytes
back strictly: an ill-formed sequence has no result.
-/

namespace UriComponent

open List Text

def percent : CodeUnit := 0x25

def isUnescaped (byte : ℕ) : Bool :=
  (0x30 ≤ byte && byte ≤ 0x39) || (0x41 ≤ byte && byte ≤ 0x5A) ||
    (0x61 ≤ byte && byte ≤ 0x7A) || ("-_.!~*'()".toList.map Char.toNat).contains byte

def hexDigit (digit : ℕ) : CodeUnit :=
  if digit < 10 then Fin.ofNat 65536 (0x30 + digit) else Fin.ofNat 65536 (0x37 + digit)

def percentEncode (byte : Byte) : Text :=
  if isUnescaped byte.val then [Fin.ofNat 65536 byte.val]
  else [percent, hexDigit (byte.val / 16), hexDigit (byte.val % 16)]

def encodeURIComponent (text : Text) : Option Text :=
  if isWellFormed text then some ((encodeUtf8 text).flatMap percentEncode) else none

def hexValue? (unit : CodeUnit) : Option ℕ :=
  if 0x30 ≤ unit.val ∧ unit.val ≤ 0x39 then some (unit.val - 0x30)
  else if 0x41 ≤ unit.val ∧ unit.val ≤ 0x46 then some (unit.val - 0x37)
  else if 0x61 ≤ unit.val ∧ unit.val ≤ 0x66 then some (unit.val - 0x57)
  else none

/-- The byte two hexadecimal digits write. -/
def byte? (high low : CodeUnit) : Option ℕ :=
  (hexValue? high).bind fun highValue =>
    (hexValue? low).map fun lowValue => 16 * highValue + lowValue

/-- The code point a byte ends, if it ends one, and what is then owed. -/
def strictByte : Option Utf8Tail → ℕ → Option (List ℕ × Option Utf8Tail)
  | none, byte =>
    if byte < 0x80 then some ([byte], none)
    else (leadTail byte).map fun tail => ([], some tail)
  | some tail, byte =>
    if tail.lower ≤ byte ∧ byte ≤ tail.upper then
      let value := tail.value * 0x40 + (byte - 0x80)
      match tail.further with
      | 0 => some ([value], none)
      | further + 1 => some ([], some ⟨further, value, 0x80, 0xBF⟩)
    else none

def decodeUnits : Option Utf8Tail → Text → Option Text
  | none, [] => some []
  | some _, [] => none
  | state, unit :: rest =>
    if unit = percent then
      match rest with
      | high :: low :: after =>
        (byte? high low).bind fun byte =>
          (strictByte state byte).bind fun next =>
            (decodeUnits next.2 after).map fun value => next.1.flatMap unitsOf ++ value
      | _ => none
    else
      match state with
      | none => (decodeUnits none rest).map fun value => unit :: value
      | some _ => none

def decodeURIComponent (text : Text) : Option Text := decodeUnits none text

/-! ## Bytes -/

theorem byte?_hexDigit : ∀ byte : Byte,
    byte? (hexDigit (byte.val / 16)) (hexDigit (byte.val % 16)) = some byte.val := by
  decide +kernel

theorem unescaped_lt : ∀ byte : Byte, isUnescaped byte.val = true →
    byte.val < 0x80 ∧ byte.val ≠ 0x25 ∧ byte.val ≠ 0x3A := by
  decide +kernel

theorem decodeUnits_escaped (state : Option Utf8Tail) (byte : Byte) (rest : Text) :
    decodeUnits state (percent :: hexDigit (byte.val / 16) :: hexDigit (byte.val % 16) :: rest) =
      (strictByte state byte.val).bind fun next =>
        (decodeUnits next.2 rest).map fun value => next.1.flatMap unitsOf ++ value := by
  cases state with
  | none => simp [decodeUnits, byte?_hexDigit]
  | some tail => simp [decodeUnits, byte?_hexDigit]

theorem decodeUnits_plain {unit : CodeUnit} (hunit : unit ≠ percent) (rest : Text) :
    decodeUnits none (unit :: rest) = (decodeUnits none rest).map fun value => unit :: value := by
  conv_lhs => unfold decodeUnits
  exact if_neg hunit

/-- A byte that is not ASCII is always escaped. -/
theorem decodeUnits_percentEncode (state : Option Utf8Tail) {byte : Byte} (hbyte : 0x80 ≤ byte.val)
    (rest : Text) : decodeUnits state (percentEncode byte ++ rest) =
      (strictByte state byte.val).bind fun next =>
        (decodeUnits next.2 rest).map fun value => next.1.flatMap unitsOf ++ value := by
  have hescaped : isUnescaped byte.val = false := by
    by_contra hunescaped
    have hlt := (unescaped_lt byte (Bool.not_eq_false _ ▸ hunescaped)).1
    omega
  rw [percentEncode, hescaped]
  exact decodeUnits_escaped state byte rest

theorem decodeUnits_ascii {byte : Byte} (hbyte : byte.val < 0x80) (rest : Text) :
    decodeUnits none (percentEncode byte ++ rest) =
      (decodeUnits none rest).map fun value => Fin.ofNat 65536 byte.val :: value := by
  have hunits : unitsOf byte.val = [Fin.ofNat 65536 byte.val] := by
    rw [unitsOf, if_pos (by omega)]
  rw [percentEncode]
  split_ifs with hunescaped
  · have hnot : (Fin.ofNat 65536 byte.val : CodeUnit) ≠ percent := fun heq => by
      have hval := congrArg Fin.val heq
      have hsame : (Fin.ofNat 65536 byte.val).val = byte.val := Nat.mod_eq_of_lt (by omega)
      exact (unescaped_lt byte hunescaped).2.1 (hsame.symm.trans hval)
    exact decodeUnits_plain hnot rest
  · have hread := decodeUnits_escaped none byte rest
    rw [strictByte, if_pos hbyte] at hread
    refine hread.trans ?_
    simp [hunits]

/-! ## Code points -/

section CodePoints

variable {rest : Text}

theorem decodeUnits_lead {byte : ℕ} {tail : Utf8Tail} (hlow : 0x80 ≤ byte) (hhigh : byte < 0x100)
    (htail : leadTail byte = some tail) :
    decodeUnits none (percentEncode (Fin.ofNat 256 byte) ++ rest) =
      decodeUnits (some tail) rest := by
  have hbyte : (Fin.ofNat 256 byte).val = byte := Nat.mod_eq_of_lt hhigh
  rw [decodeUnits_percentEncode none (by rwa [hbyte]), hbyte, strictByte, if_neg (by omega), htail]
  simp

theorem decodeUnits_ends {tail : Utf8Tail} {bytes : List Byte} {point : ℕ}
    (hends : Ends tail bytes point) :
    decodeUnits (some tail) (bytes.flatMap percentEncode ++ rest) =
      (decodeUnits none rest).map fun text => unitsOf point ++ text := by
  induction hends with
  | @last byte _ _ _ hlow hhigh hlower hupper =>
    have hbyte : (Fin.ofNat 256 byte).val = byte := Nat.mod_eq_of_lt hhigh
    rw [flatMap_singleton, decodeUnits_percentEncode _ (by rwa [hbyte]), hbyte, strictByte,
      if_pos ⟨hlower, hupper⟩]
    simp
  | @middle byte _ _ _ _ _ _ hlow hhigh hlower hupper _ ih =>
    have hbyte : (Fin.ofNat 256 byte).val = byte := Nat.mod_eq_of_lt hhigh
    rw [flatMap_cons, append_assoc, decodeUnits_percentEncode _ (by rwa [hbyte]), hbyte,
      strictByte, if_pos ⟨hlower, hupper⟩]
    simpa using ih

theorem decodeUnits_encodePoint {point : ℕ} (hbound : point < 0x110000)
    (hscalar : isSurrogate point = false) :
    decodeUnits none ((encodePoint point).flatMap percentEncode ++ rest) =
      (decodeUnits none rest).map fun text => unitsOf point ++ text := by
  by_cases hascii : point < 0x80
  · have hbyte : (Fin.ofNat 256 point).val = point := Nat.mod_eq_of_lt (by omega)
    rw [encodePoint, if_pos hascii, flatMap_singleton, decodeUnits_ascii (by rwa [hbyte]),
      hbyte, unitsOf, if_pos (by omega)]
    rfl
  · obtain ⟨byte, tail, bytes, hencoded, hlow, hhigh, htail, hends⟩ :=
      ends_encodePoint (Nat.le_of_not_lt hascii) hbound hscalar
    rw [hencoded, flatMap_cons, append_assoc, decodeUnits_lead hlow hhigh htail,
      decodeUnits_ends hends]

end CodePoints

/-! ## Components -/

theorem decodeUnits_encoded {points : List ℕ} (hbound : ∀ point ∈ points, point < 0x110000)
    (hscalar : ∀ point ∈ points, isSurrogate point = false) :
    decodeUnits none ((points.flatMap encodePoint).flatMap percentEncode) =
      some (points.flatMap unitsOf) := by
  induction points with
  | nil => rfl
  | cons point points ih =>
    rw [flatMap_cons, flatMap_append, decodeUnits_encodePoint (hbound point mem_cons_self)
        (hscalar point mem_cons_self),
      ih (fun other hother => hbound other (mem_cons_of_mem _ hother))
        (fun other hother => hscalar other (mem_cons_of_mem _ hother))]
    rfl

theorem decodeURIComponent_encoded {text encoded : Text}
    (hencoded : encodeURIComponent text = some encoded) :
    decodeURIComponent encoded = some text := by
  rw [encodeURIComponent] at hencoded
  split_ifs at hencoded with hwell
  have hscalar : ∀ point ∈ codePoints text, isSurrogate point = false := by
    simpa [isWellFormed] using hwell
  rw [← Option.some.inj hencoded, decodeURIComponent, encodeUtf8,
    decodeUnits_encoded (fun _ hpoint => codePoints_lt hpoint) hscalar, flatMap_unitsOf_codePoints]

theorem encodeURIComponent_of_wellFormed {text : Text} (hwell : isWellFormed text) :
    encodeURIComponent text = some ((encodeUtf8 text).flatMap percentEncode) :=
  if_pos hwell

theorem colon_not_mem_percentEncode : ∀ byte : Byte, (0x3A : CodeUnit) ∉ percentEncode byte := by
  decide +kernel

theorem colon_not_mem_encoded {text encoded : Text}
    (hencoded : encodeURIComponent text = some encoded) : (0x3A : CodeUnit) ∉ encoded := by
  rw [encodeURIComponent] at hencoded
  split_ifs at hencoded with hwell
  rw [← Option.some.inj hencoded, mem_flatMap]
  rintro ⟨byte, -, hcolon⟩
  exact colon_not_mem_percentEncode byte hcolon

/-- `%FF` begins no component. -/
theorem decodeUnits_invalid (rest : Text) :
    decodeUnits none (percent :: 0x46 :: 0x46 :: rest) = none := by
  have hread := decodeUnits_escaped none (0xFF : Byte) rest
  have hbyte : strictByte none (0xFF : Byte).val = none := by decide +kernel
  rw [hbyte] at hread
  exact hread

end UriComponent
