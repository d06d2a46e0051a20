import Mathlib.Data.List.Forall2
import Wakii.Journal.JournalItemKeys

/-!
# A key addresses one item

The bounded form of a component is well formed, short and reads like one, so a
component is bounded once.  An encoded component gives back its bounded form, and
tells whether it was the component itself; hence keys tell items apart as far as
their bounded forms do, and read back to the same key.
-/

namespace Wakii.JournalItemKeys

open Json (decimalFormat isDigit decimalDigits digitUnit)
open List UriComponent

/-! ## Lone surrogates -/

theorem isWellFormed_pair {high low : CodeUnit} (hhigh : Text.isHigh high.val = true)
    (hlow : Text.isLow low.val = true) (rest : Text) :
    Text.isWellFormed (high :: low :: rest) = Text.isWellFormed rest := by
  have hpair : Text.isSurrogate
      (0x10000 + (high.val - 0xD800) * 0x400 + (low.val - 0xDC00)) = false := by
    simp only [Text.isSurrogate, Bool.and_eq_false_iff, decide_eq_false_iff_not]
    omega
  rw [Text.isWellFormed, Text.codePoints, hhigh, hlow, Bool.and_self, if_pos rfl, all_cons, hpair]
  rfl

theorem isWellFormed_lone {high : CodeUnit} (hhigh : Text.isHigh high.val = true) {rest : Text}
    (hrest : ∀ low after, rest = low :: after → Text.isLow low.val = false) :
    Text.isWellFormed (high :: rest) = false := by
  have hsurrogate : Text.isSurrogate high.val = true := by
    simp only [Text.isHigh, Text.isSurrogate, Bool.and_eq_true, decide_eq_true_eq] at hhigh ⊢
    omega
  cases rest with
  | nil => simp [Text.isWellFormed, Text.codePoints, hsurrogate]
  | cons low after =>
    simp [Text.isWellFormed, Text.codePoints, hsurrogate, hrest low after rfl]

variable {unit : CodeUnit}

theorem isWellFormed_single (hhigh : Text.isHigh unit.val = false)
    (rest : Text) : Text.isWellFormed (unit :: rest) =
      (!Text.isLow unit.val && Text.isWellFormed rest) := by
  have hlow : Text.isSurrogate unit.val = Text.isLow unit.val := by
    rw [Bool.eq_iff_iff]
    simp only [Text.isHigh, Text.isSurrogate, Text.isLow, Bool.and_eq_false_iff,
      decide_eq_false_iff_not, Bool.and_eq_true, decide_eq_true_eq] at hhigh ⊢
    omega
  cases rest with
  | nil => simp [Text.isWellFormed, Text.codePoints, hlow]
  | cons next after => simp [Text.isWellFormed, Text.codePoints, hhigh, hlow]

theorem hasLoneSurrogate_eq (text : Text) : hasLoneSurrogate text = !Text.isWellFormed text := by
  fun_induction hasLoneSurrogate text with
  | case1 => rfl
  | case2 unit hhigh =>
    have hlone := @isWellFormed_lone unit hhigh [] fun _ _ h => by cases h
    rw [hlone, Bool.not_false]
  | case3 unit hhigh next after hlow ih => rw [isWellFormed_pair hhigh hlow, ih]
  | case4 unit hhigh next after hlow =>
    rw [isWellFormed_lone hhigh, Bool.not_false]
    rintro low rest ⟨⟩
    exact Bool.eq_false_iff.mpr hlow
  | case5 unit rest hhigh hlow =>
    rw [isWellFormed_single (Bool.eq_false_iff.mpr hhigh), hlow, Bool.not_true, Bool.false_and,
      Bool.not_false]
  | case6 unit rest hhigh hlow ih =>
    rw [isWellFormed_single (Bool.eq_false_iff.mpr hhigh), Bool.eq_false_iff.mpr hlow,
      Bool.not_false, Bool.true_and, ih]

/-! ## The bounded form -/

theorem isWellFormed_replacement (rest : Text) :
    Text.isWellFormed (replacement :: rest) = Text.isWellFormed rest :=
  isWellFormed_single (by decide) rest

theorem isWellFormed_wellFormedBoundedHead (text : Text) (maxUnits : ℕ) :
    Text.isWellFormed (wellFormedBoundedHead text maxUnits) = true := by
  fun_induction wellFormedBoundedHead text maxUnits with
  | case1 => rfl
  | case2 => rfl
  | case3 => decide
  | case4 => rfl
  | case5 unit hhigh next after hlow further ih => rw [isWellFormed_pair hhigh hlow, ih]
  | case6 unit maxUnits hhigh next after hlow ih => rw [isWellFormed_replacement, ih]
  | case7 unit rest maxUnits hhigh ih =>
    split_ifs with hlow
    · rw [isWellFormed_replacement, ih]
    · rw [isWellFormed_single (Bool.eq_false_iff.mpr hhigh), Bool.eq_false_iff.mpr hlow, ih]
      rfl

theorem length_wellFormedBoundedHead_le (text : Text) (maxUnits : ℕ) :
    (wellFormedBoundedHead text maxUnits).length ≤ maxUnits := by
  fun_induction wellFormedBoundedHead text maxUnits <;> simp_all

theorem length_decimalDigits_le {places natural width : ℕ} (hwidth : 0 < width)
    (hnatural : natural < 10 ^ width) : (decimalDigits places natural).length ≤ width := by
  induction places generalizing natural width with
  | zero => exact Nat.zero_le _
  | succ places ih =>
    rw [decimalDigits]
    split_ifs with hsmall
    · exact hwidth
    · obtain ⟨width, rfl⟩ := Nat.exists_eq_succ_of_ne_zero hwidth.ne'
      rw [length_append, length_singleton]
      have hpos : 0 < width := by
        by_contra hzero
        obtain rfl : width = 0 := by omega
        exact hsmall hnatural
      have htenth : natural / 10 < 10 ^ width := by
        rw [Nat.pow_succ] at hnatural
        exact Nat.div_lt_of_lt_mul (by rwa [Nat.mul_comm])
      exact Nat.succ_le_succ (ih hpos htenth)

theorem isLowerHex_hexDigit : ∀ digit < 16, isLowerHex (Json.hexDigit digit) = true ∧
    Text.isSurrogate (Json.hexDigit digit).val = false := by
  decide

theorem mem_hex32 {value : ℕ} (hunit : unit ∈ hex32 value) :
    isLowerHex unit = true ∧ Text.isSurrogate unit.val = false := by
  obtain ⟨place, -, rfl⟩ := mem_map.mp hunit
  exact isLowerHex_hexDigit _ (Nat.mod_lt _ (by decide))

@[simp]
theorem length_hex32 (value : ℕ) : (hex32 value).length = 8 := by
  rw [hex32, length_map, length_reverse, length_range]

variable {value : Text}

theorem mem_hashes
    (hunit : unit ∈ hex32 (fnv1a32 value 0x811c9dc5) ++ hex32 (fnv1a32 value 0x01000193)) :
    isLowerHex unit = true ∧ Text.isSurrogate unit.val = false := by
  rcases mem_append.mp hunit with hunit | hunit
  · exact mem_hex32 hunit
  · exact mem_hex32 hunit

theorem isSurrogate_of_isDigit (hdigit : isDigit unit = true) :
    Text.isSurrogate unit.val = false := by
  simp only [isDigit, Bool.and_eq_true, decide_eq_true_eq] at hdigit
  simp only [Text.isSurrogate, Bool.and_eq_false_iff, decide_eq_false_iff_not]
  omega

variable {natural : ℕ}

theorem isDigit_of_mem_decimal (hunit : unit ∈ decimalFormat.text natural) : isDigit unit = true :=
  (Json.decimalDigits_spec (Nat.lt_succ_self natural)).1 unit hunit

theorem isWellFormed_decimal (natural : ℕ) : Text.isWellFormed (decimalFormat.text natural) :=
  Text.isWellFormed_units fun _ hunit => isSurrogate_of_isDigit (isDigit_of_mem_decimal hunit)

theorem isWellFormed_boundedForm (value : Text) : Text.isWellFormed (boundedForm value) := by
  rw [boundedForm]
  refine Text.isWellFormed_of_append (isWellFormed_wellFormedBoundedHead value 40)
    (Text.isWellFormed_of_append (by decide) (Text.isWellFormed_of_append (isWellFormed_decimal _)
      (Text.isWellFormed_units fun unit hunit => ?_)))
  rcases mem_cons.mp hunit with rfl | hunit
  · decide
  · exact (mem_hashes hunit).2

/-- The longest string has fewer units than this. -/
def stringLengthBound : ℕ := 2 ^ 53

theorem length_decimal_le (hnatural : natural < stringLengthBound) :
    (decimalFormat.text natural).length ≤ 16 :=
  length_decimalDigits_le (by decide) (hnatural.trans (by decide))

theorem length_boundedForm_le (hvalue : value.length < stringLengthBound) :
    (boundedForm value).length ≤ maxJournalKeyComponentChars := by
  have hhead := length_wellFormedBoundedHead_le value 40
  have hdigits := length_decimal_le hvalue
  have htag : oversizedTag.length = 16 := by decide
  rw [boundedForm, length_append, length_append, length_append, length_cons,
    length_append, length_hex32, length_hex32, htag, maxJournalKeyComponentChars]
  omega

theorem isOversizedEnd_append (hnatural : natural ≠ 0) {hashes : Text}
    (hlength : hashes.length = 16) (hhex : ∀ unit ∈ hashes, isLowerHex unit = true) :
    isOversizedEnd (decimalFormat.text natural ++ tilde :: hashes) = true := by
  have hdigits : ∀ unit ∈ decimalFormat.text natural, isDigit unit = true :=
    fun _ => isDigit_of_mem_decimal
  obtain ⟨-, -, first, rest, htext, -, hfirst⟩ := Json.decimalDigits_spec (Nat.lt_succ_self natural)
  have htake : (decimalFormat.text natural ++ tilde :: hashes).takeWhile isDigit =
      decimalFormat.text natural := by
    rw [takeWhile_append_of_pos hdigits, takeWhile_cons_of_neg (by decide), append_nil]
  have hdrop : (decimalFormat.text natural ++ tilde :: hashes).dropWhile isDigit =
      tilde :: hashes := by
    rw [dropWhile_append_of_pos hdigits, dropWhile_cons_of_neg (by decide)]
  have hhead : decimalFormat.text natural = first :: rest := htext
  rw [isOversizedEnd, htake, hdrop, hhead]
  simp [hfirst hnatural, hlength, all_eq_true.mpr hhex]

theorem isBounded_boundedForm (hvalue : value ≠ []) :
    isBoundedComponentRepresentation (boundedForm value) = true := by
  have hhead := length_wellFormedBoundedHead_le value 40
  rw [isBoundedComponentRepresentation, any_eq_true]
  refine ⟨(wellFormedBoundedHead value 40).length, mem_range.mpr (by omega), ?_⟩
  have hprefix (rest : Text) : oversizedTag.isPrefixOf (oversizedTag ++ rest) = true :=
    isPrefixOf_iff_prefix.mpr (prefix_append _ _)
  have hend := @isOversizedEnd_append _ (length_pos_iff.mpr hvalue).ne'
    (hex32 (fnv1a32 value 0x811c9dc5) ++ hex32 (fnv1a32 value 0x01000193))
    (by rw [length_append, length_hex32, length_hex32]) fun unit hunit => (mem_hashes hunit).1
  rw [boundedForm, drop_left, hprefix, drop_left, hend, length_append]
  simp

theorem boundJournalKeyComponent_eq (value : Text) :
    boundJournalKeyComponent value = if value.length ≤ maxJournalKeyComponentChars ∧
      Text.isWellFormed value = true then value else boundedForm value := by
  rw [boundJournalKeyComponent, hasLoneSurrogate_eq]
  congr 2
  rw [Bool.not_eq_false']

def IsVerbatim (value : Text) : Prop :=
  value.length ≤ maxJournalKeyComponentChars ∧ Text.isWellFormed value = true

instance (value : Text) : Decidable (IsVerbatim value) :=
  inferInstanceAs (Decidable (_ ∧ _))

theorem bound_of_verbatim (hvalue : IsVerbatim value) : boundJournalKeyComponent value = value := by
  rw [boundJournalKeyComponent_eq]
  exact if_pos hvalue

theorem bound_of_not_verbatim (hvalue : ¬ IsVerbatim value) :
    boundJournalKeyComponent value = boundedForm value := by
  rw [boundJournalKeyComponent_eq]
  exact if_neg hvalue

theorem ne_nil_of_not_verbatim (hvalue : ¬ IsVerbatim value) : value ≠ [] := by
  rintro rfl
  exact hvalue (by decide)

theorem isBounded_bound (hvalue : ¬ IsVerbatim value) :
    isBoundedComponentRepresentation (boundJournalKeyComponent value) = true := by
  rw [bound_of_not_verbatim hvalue]
  exact isBounded_boundedForm (ne_nil_of_not_verbatim hvalue)

theorem isWellFormed_bound (value : Text) :
    Text.isWellFormed (boundJournalKeyComponent value) = true := by
  by_cases hvalue : IsVerbatim value
  · rw [bound_of_verbatim hvalue]
    exact hvalue.2
  · rw [bound_of_not_verbatim hvalue]
    exact isWellFormed_boundedForm value

theorem isVerbatim_bound (hlength : value.length < stringLengthBound) :
    IsVerbatim (boundJournalKeyComponent value) := by
  refine ⟨?_, isWellFormed_bound value⟩
  by_cases hvalue : IsVerbatim value
  · rw [bound_of_verbatim hvalue]
    exact hvalue.1
  · rw [bound_of_not_verbatim hvalue]
    exact length_boundedForm_le hlength

theorem ne_bound_of_not_verbatim (hlength : value.length < stringLengthBound)
    (hvalue : ¬ IsVerbatim value) : value ≠ boundJournalKeyComponent value := fun hsame =>
  hvalue (hsame ▸ isVerbatim_bound hlength)

/-! ## Parts -/

def isTagged (raw : Text) : Bool :=
  raw = boundJournalKeyComponent raw && isBoundedComponentRepresentation raw

theorem exists_encodePart (raw : Text) : ∃ encoded,
    encodeURIComponent (boundJournalKeyComponent raw) = some encoded ∧
      encodePart raw = some (if isTagged raw then verbatimBoundedComponentTag ++ encoded
        else encoded) := by
  refine ⟨_, encodeURIComponent_of_wellFormed (isWellFormed_bound raw), ?_⟩
  rw [encodePart, encodeURIComponent_of_wellFormed (isWellFormed_bound raw), isTagged]
  simp

theorem not_tag_isPrefixOf {text encoded : Text}
    (hencoded : encodeURIComponent text = some encoded) :
    verbatimBoundedComponentTag.isPrefixOf encoded = false := by
  by_contra hprefix
  rw [Bool.not_eq_false, isPrefixOf_iff_prefix] at hprefix
  obtain ⟨rest, hrest⟩ := hprefix
  have hread := decodeURIComponent_encoded hencoded
  have htag : verbatimBoundedComponentTag ++ rest = percent :: 0x46 :: 0x46 :: rest := rfl
  rw [← hrest, htag, decodeURIComponent, decodeUnits_invalid] at hread
  cases hread

theorem decodePart_encodePart (raw : Text) :
    (encodePart raw).bind decodePart = some (boundJournalKeyComponent raw, isTagged raw) := by
  obtain ⟨encoded, hencoded, hpart⟩ := exists_encodePart raw
  have hread := decodeURIComponent_encoded hencoded
  rw [hpart, Option.bind_some, decodePart]
  cases htagged : isTagged raw with
  | false =>
    rw [if_neg Bool.false_ne_true]
    simp [not_tag_isPrefixOf hencoded, hread]
  | true =>
    have hstarts : verbatimBoundedComponentTag.isPrefixOf
        (verbatimBoundedComponentTag ++ encoded) = true :=
      isPrefixOf_iff_prefix.mpr (prefix_append _ _)
    rw [isTagged, Bool.and_eq_true, decide_eq_true_eq] at htagged
    have hbounded : isBoundedComponentRepresentation (boundJournalKeyComponent raw) = true :=
      htagged.1 ▸ htagged.2
    rw [if_pos rfl]
    simp [hstarts, hread, hbounded]

theorem colon_not_mem_encodePart {raw part : Text} (hpart : encodePart raw = some part) :
    keyDelimiter ∉ part := by
  obtain ⟨encoded, hencoded, hsome⟩ := exists_encodePart raw
  rw [hsome] at hpart
  rw [← Option.some.inj hpart]
  split_ifs
  · rw [mem_append, not_or]
    exact ⟨by decide, colon_not_mem_encoded hencoded⟩
  · exact colon_not_mem_encoded hencoded

/-- Components that one part may stand for: only ones with one bounded form are mixed up. -/
def SameComponent (left right : Text) : Prop :=
  left = right ∨ ¬ IsVerbatim left ∧ ¬ IsVerbatim right ∧
    boundJournalKeyComponent left = boundJournalKeyComponent right

theorem isTagged_of_verbatim {raw : Text} (hraw : IsVerbatim raw) :
    isTagged raw = isBoundedComponentRepresentation raw := by
  rw [isTagged, bound_of_verbatim hraw]
  simp

theorem sameComponent_of_encodePart {left right : Text}
    (hleft : left.length < stringLengthBound) (hright : right.length < stringLengthBound)
    (hsame : encodePart left = encodePart right) : SameComponent left right := by
  have hread := congrArg (·.bind decodePart) hsame
  simp only [decodePart_encodePart, Option.some.injEq, Prod.mk.injEq] at hread
  obtain ⟨hbound, htagged⟩ := hread
  have hnever {value : Text} (hlength : value.length < stringLengthBound)
      (hvalue : ¬ IsVerbatim value) : isTagged value = false := by
    rw [isTagged, decide_eq_false (ne_bound_of_not_verbatim hlength hvalue), Bool.false_and]
  by_cases hverbatim : IsVerbatim left
  · by_cases hother : IsVerbatim right
    · rw [bound_of_verbatim hverbatim, bound_of_verbatim hother] at hbound
      exact Or.inl hbound
    · -- the left one would read like a bounded form, and be tagged
      rw [hnever hright hother, isTagged_of_verbatim hverbatim] at htagged
      have hreads := isBounded_bound hother
      rw [← hbound, bound_of_verbatim hverbatim, htagged] at hreads
      exact absurd hreads Bool.false_ne_true
  · by_cases hother : IsVerbatim right
    · rw [hnever hleft hverbatim, isTagged_of_verbatim hother] at htagged
      have hreads := isBounded_bound hverbatim
      rw [hbound, bound_of_verbatim hother, ← htagged] at hreads
      exact absurd hreads Bool.false_ne_true
    · exact Or.inr ⟨hverbatim, hother, hbound⟩

/-! ## Keys -/

theorem mapM_eq_some {A B : Type*} {f : A → Option B} {values : List A} {results : List B} :
    values.mapM f = some results ↔ List.Forall₂ (fun value result => f value = some result)
      values results := by
  induction values generalizing results with
  | nil =>
    rw [mapM_nil, forall₂_nil_left_iff]
    exact ⟨fun h => (Option.some.inj h).symm, fun h => congrArg some h.symm⟩
  | cons value values ih =>
    rw [mapM_cons, forall₂_cons_left_iff]
    constructor
    · intro hsome
      obtain ⟨result, hresult, hrest⟩ := Option.bind_eq_some_iff.mp hsome
      obtain ⟨rest, hvalues, hpure⟩ := Option.bind_eq_some_iff.mp hrest
      exact ⟨result, rest, hresult, ih.mp hvalues, (Option.some.inj hpure).symm⟩
    · rintro ⟨result, rest, hresult, hvalues, rfl⟩
      rw [hresult, ih.mpr hvalues]
      rfl

theorem splitOn_of_joinKey {provider key : Text} {parts : List Text}
    (hprovider : keyDelimiter ∉ provider) (hkey : joinKey provider parts = some key) :
    ∃ encoded, List.Forall₂ (fun part result => encodePart part = some result) parts encoded ∧
      key.splitOn keyDelimiter = provider :: encoded := by
  obtain ⟨encoded, hencoded, rfl⟩ := Option.map_eq_some_iff.mp hkey
  have hparts := mapM_eq_some.mp hencoded
  refine ⟨encoded, hparts, splitOn_intercalate keyDelimiter (fun part hpart => ?_)
    (cons_ne_nil _ _)⟩
  rcases mem_cons.mp hpart with rfl | hpart
  · exact hprovider
  · obtain ⟨index, hindex, rfl⟩ := getElem_of_mem hpart
    have hlength := hparts.length_eq
    exact colon_not_mem_encodePart (hparts.get (by rw [hlength]; exact hindex) hindex)

theorem exists_joinKey (provider : Text) (parts : List Text) :
    ∃ key, joinKey provider parts = some key := by
  have hencoded : ∃ encoded, parts.mapM encodePart = some encoded := by
    induction parts with
    | nil => exact ⟨[], rfl⟩
    | cons part parts ih =>
      obtain ⟨encoded, -, hpart⟩ := exists_encodePart part
      obtain ⟨rest, hrest⟩ := ih
      rw [mapM_cons, hpart, hrest]
      exact ⟨_, rfl⟩
  obtain ⟨encoded, hencoded⟩ := hencoded
  rw [joinKey, hencoded]
  exact ⟨_, rfl⟩

theorem sameComponents_of_joinKey {provider provider' key : Text} {parts parts' : List Text}
    (hprovider : keyDelimiter ∉ provider) (hprovider' : keyDelimiter ∉ provider')
    (hlength : ∀ part ∈ parts, part.length < stringLengthBound)
    (hlength' : ∀ part ∈ parts', part.length < stringLengthBound)
    (hkey : joinKey provider parts = some key) (hkey' : joinKey provider' parts' = some key) :
    provider = provider' ∧ List.Forall₂ SameComponent parts parts' := by
  obtain ⟨encoded, hencoded, hsplit⟩ := splitOn_of_joinKey hprovider hkey
  obtain ⟨encoded', hencoded', hsplit'⟩ := splitOn_of_joinKey hprovider' hkey'
  obtain ⟨rfl, rfl⟩ := List.cons.inj (hsplit.symm.trans hsplit')
  refine ⟨rfl, ?_⟩
  rw [forall₂_iff_get] at hencoded hencoded' ⊢
  refine ⟨hencoded.1.trans hencoded'.1.symm, fun index hindex hindex' => ?_⟩
  have hresult := hencoded.1 ▸ hindex
  exact sameComponent_of_encodePart (hlength _ (get_mem _ _)) (hlength' _ (get_mem _ _))
    ((hencoded.2 index hindex hresult).trans (hencoded'.2 index hindex' hresult).symm)

def AgentJournalItemIdentity.provider : AgentJournalItemIdentity → Text
  | .codex _ _ _ => codexProvider
  | .claude _ _ => claudeProvider
  | .orca _ => orcaProvider
  | .legacy _ _ _ => legacyProvider

def AgentJournalItemIdentity.components : AgentJournalItemIdentity → List Text
  | .codex threadId turnId _ => [threadId, turnId]
  | .claude sessionId uuid => [sessionId, uuid]
  | .orca clientMessageId => [clientMessageId]
  | .legacy agent sessionId recordId => [agent, sessionId, recordId]

def AgentJournalItemIdentity.ordinal? : AgentJournalItemIdentity → Option ℕ
  | .codex _ _ ordinal => some ordinal
  | _ => none

structure IsIdentity (identity : AgentJournalItemIdentity) : Prop where
  components : ∀ component ∈ identity.components, component.length < stringLengthBound
  ordinal : ∀ ordinal, identity.ordinal? = some ordinal → ordinal ≤ maxSafeInteger

/-- The parts of an identity's key, its ordinal among them. -/
def AgentJournalItemIdentity.parts (identity : AgentJournalItemIdentity) : List Text :=
  identity.components ++ (identity.ordinal?.map decimalFormat.text).toList

theorem agentJournalItemKey_eq (identity : AgentJournalItemIdentity) :
    agentJournalItemKey ⟨identity, none⟩ = joinKey identity.provider identity.parts := by
  cases identity <;> rfl

theorem colon_not_mem_provider (identity : AgentJournalItemIdentity) :
    keyDelimiter ∉ identity.provider := by
  cases identity with
  | codex => exact (by decide : keyDelimiter ∉ codexProvider)
  | claude => exact (by decide : keyDelimiter ∉ claudeProvider)
  | orca => exact (by decide : keyDelimiter ∉ orcaProvider)
  | legacy => exact (by decide : keyDelimiter ∉ legacyProvider)

theorem isVerbatim_decimal {ordinal : ℕ} (hordinal : ordinal ≤ maxSafeInteger) :
    IsVerbatim (decimalFormat.text ordinal) := by
  refine ⟨?_, isWellFormed_decimal ordinal⟩
  have hlength := length_decimal_le (lt_of_le_of_lt hordinal (by decide))
  rw [maxJournalKeyComponentChars]
  omega

variable (reader : OrdinalReader) {identity : AgentJournalItemIdentity}

theorem length_parts (hidentity : IsIdentity identity) :
    ∀ part ∈ identity.parts, part.length < stringLengthBound := by
  intro part hpart
  rcases mem_append.mp hpart with hpart | hpart
  · exact hidentity.components part hpart
  · obtain ⟨ordinal, hordinal, rfl⟩ := Option.map_eq_some_iff.mp (Option.mem_toList.mp hpart)
    have hlength := (isVerbatim_decimal (hidentity.ordinal ordinal hordinal)).1
    exact lt_of_le_of_lt hlength (by decide)

def AgentJournalItemIdentity.bounded : AgentJournalItemIdentity → AgentJournalItemIdentity
  | .codex threadId turnId ordinal =>
    .codex (boundJournalKeyComponent threadId) (boundJournalKeyComponent turnId) ordinal
  | .claude sessionId uuid =>
    .claude (boundJournalKeyComponent sessionId) (boundJournalKeyComponent uuid)
  | .orca clientMessageId => .orca (boundJournalKeyComponent clientMessageId)
  | .legacy agent sessionId recordId =>
    .legacy (boundJournalKeyComponent agent) (boundJournalKeyComponent sessionId)
      (boundJournalKeyComponent recordId)

theorem identityOf_bounded (hidentity : IsIdentity identity) :
    identityOf reader identity.provider (identity.parts.map boundJournalKeyComponent) =
      some identity.bounded := by
  cases identity with
  | codex threadId turnId ordinal =>
    have hordinal := hidentity.ordinal ordinal rfl
    have hread := reader.read_decimal ordinal hordinal
    rw [← bound_of_verbatim (isVerbatim_decimal hordinal)] at hread
    change (reader.read (boundJournalKeyComponent (decimalFormat.text ordinal))).map _ = _
    rw [hread]
    rfl
  | claude sessionId uuid => rfl
  | orca clientMessageId => rfl
  | legacy agent sessionId recordId => rfl

/-- A key is kept where a component would not be written as it is read. -/
def keepsKey (identity : AgentJournalItemIdentity) : Bool :=
  identity.parts.any fun part => isTagged part ||
    isBoundedComponentRepresentation (boundJournalKeyComponent part)

theorem decodePart_provider (identity : AgentJournalItemIdentity) :
    decodePart identity.provider = some (identity.provider, false) ∧
      isBoundedComponentRepresentation identity.provider = false := by
  cases identity with
  | codex => exact (by decide +kernel : decodePart codexProvider = some (codexProvider, false) ∧
      isBoundedComponentRepresentation codexProvider = false)
  | claude => exact (by decide +kernel : decodePart claudeProvider = some (claudeProvider, false) ∧
      isBoundedComponentRepresentation claudeProvider = false)
  | orca => exact (by decide +kernel : decodePart orcaProvider = some (orcaProvider, false) ∧
      isBoundedComponentRepresentation orcaProvider = false)
  | legacy => exact (by decide +kernel : decodePart legacyProvider = some (legacyProvider, false) ∧
      isBoundedComponentRepresentation legacyProvider = false)

/-- A key reads back to the identity with its components bounded. -/
theorem parse_joinKey (hidentity : IsIdentity identity) {key : Text}
    (hkey : joinKey identity.provider identity.parts = some key) :
    parseAgentJournalItemKey reader key =
      some ⟨identity.bounded, if keepsKey identity then some key else none⟩ := by
  obtain ⟨encoded, hencoded, hsplit⟩ := splitOn_of_joinKey (colon_not_mem_provider identity) hkey
  obtain ⟨hprovider, hplain⟩ := decodePart_provider identity
  have hparts : encoded.mapM decodePart =
      some (identity.parts.map fun part => (boundJournalKeyComponent part, isTagged part)) := by
    rw [mapM_eq_some, forall₂_map_right_iff]
    refine List.Forall₂.flip (hencoded.imp fun part result hpart => ?_)
    have hread := decodePart_encodePart part
    rw [hpart] at hread
    exact hread
  have hdecoded : (key.splitOn keyDelimiter).mapM decodePart = some ((identity.provider, false) ::
      identity.parts.map fun part => (boundJournalKeyComponent part, isTagged part)) := by
    rw [hsplit, mapM_cons, hprovider, hparts]
    rfl
  have hkeeps : ((identity.provider, false) ::
      identity.parts.map fun part => (boundJournalKeyComponent part, isTagged part)).any
        (fun part => part.2 || isBoundedComponentRepresentation part.1) = keepsKey identity := by
    rw [any_cons, hplain, any_map, keepsKey]
    rfl
  have hfirst : ((identity.provider, false) :: identity.parts.map fun part =>
      (boundJournalKeyComponent part, isTagged part)).map Prod.fst =
        identity.provider :: identity.parts.map boundJournalKeyComponent := by
    rw [map_cons, map_map]
    rfl
  rw [parseAgentJournalItemKey, hdecoded, Option.bind_some]
  dsimp only
  rw [hkeeps, hfirst]
  dsimp only
  rw [identityOf_bounded reader hidentity]
  rfl

theorem bounded_of_not_keepsKey
    (hkeeps : keepsKey identity = false) : identity.bounded = identity := by
  have hverbatim : ∀ component ∈ identity.components,
      boundJournalKeyComponent component = component := by
    intro component hcomponent
    by_cases hvalue : IsVerbatim component
    · exact bound_of_verbatim hvalue
    · have hkept : keepsKey identity = true := any_eq_true.mpr ⟨component,
        mem_append_left _ hcomponent, by rw [isBounded_bound hvalue, Bool.or_true]⟩
      exact absurd (hkeeps.symm.trans hkept) Bool.false_ne_true
  cases identity with
  | codex threadId turnId ordinal =>
    rw [AgentJournalItemIdentity.bounded,
      hverbatim threadId (by simp [AgentJournalItemIdentity.components]),
      hverbatim turnId (by simp [AgentJournalItemIdentity.components])]
  | claude sessionId uuid =>
    rw [AgentJournalItemIdentity.bounded,
      hverbatim sessionId (by simp [AgentJournalItemIdentity.components]),
      hverbatim uuid (by simp [AgentJournalItemIdentity.components])]
  | orca clientMessageId =>
    rw [AgentJournalItemIdentity.bounded,
      hverbatim clientMessageId (by simp [AgentJournalItemIdentity.components])]
  | legacy agent sessionId recordId =>
    rw [AgentJournalItemIdentity.bounded,
      hverbatim agent (by simp [AgentJournalItemIdentity.components]),
      hverbatim sessionId (by simp [AgentJournalItemIdentity.components]),
      hverbatim recordId (by simp [AgentJournalItemIdentity.components])]

/-- Every identity has a key, which reads back to its provider, its ordinal and its verbatim
components, and to the same key. -/
theorem parse_agentJournalItemKey (hidentity : IsIdentity identity) :
    ∃ key parsed, agentJournalItemKey ⟨identity, none⟩ = some key ∧
      parseAgentJournalItemKey reader key = some parsed ∧
      parsed.identity.provider = identity.provider ∧
      parsed.identity.ordinal? = identity.ordinal? ∧
      List.Forall₂ (fun component read => IsVerbatim component → read = component)
        identity.components parsed.identity.components ∧
      agentJournalItemKey parsed = some key := by
  obtain ⟨key, hkey⟩ := exists_joinKey identity.provider identity.parts
  refine ⟨key, _, (agentJournalItemKey_eq identity).trans hkey,
    parse_joinKey reader hidentity hkey, ?_, ?_, ?_, ?_⟩
  · cases identity <;> rfl
  · cases identity <;> rfl
  · have hcomponents : identity.bounded.components =
        identity.components.map boundJournalKeyComponent := by
      cases identity <;> rfl
    rw [hcomponents, forall₂_map_right_iff, forall₂_same]
    exact fun component _ hvalue => bound_of_verbatim hvalue
  · cases hkeeps : keepsKey identity with
    | true => rfl
    | false =>
      rw [bounded_of_not_keepsKey hkeeps]
      exact (agentJournalItemKey_eq identity).trans hkey

/-- Identities with one key are of one provider and ordinal, and differ at most in components
that are not verbatim and have one bounded form. -/
theorem sameComponents_of_agentJournalItemKey {identity identity' : AgentJournalItemIdentity}
    (hidentity : IsIdentity identity) (hidentity' : IsIdentity identity')
    (hsame : agentJournalItemKey ⟨identity, none⟩ = agentJournalItemKey ⟨identity', none⟩) :
    identity.provider = identity'.provider ∧ identity.ordinal? = identity'.ordinal? ∧
      List.Forall₂ SameComponent identity.components identity'.components := by
  obtain ⟨key, hkey⟩ := exists_joinKey identity.provider identity.parts
  rw [agentJournalItemKey_eq, agentJournalItemKey_eq, hkey] at hsame
  obtain ⟨hprovider, hparts⟩ := sameComponents_of_joinKey (colon_not_mem_provider identity)
    (colon_not_mem_provider identity') (length_parts hidentity) (length_parts hidentity') hkey
    hsame.symm
  refine ⟨hprovider, ?_⟩
  cases identity with
  | codex threadId turnId ordinal =>
    cases identity' with
    | codex threadId' turnId' ordinal' =>
      cases hparts with
      | cons hthread hrest =>
        cases hrest with
        | cons hturn hrest =>
          cases hrest with
          | cons hordinal hrest =>
            have htexts : decimalFormat.text ordinal = decimalFormat.text ordinal' :=
              hordinal.resolve_right fun hnot =>
                hnot.1 (isVerbatim_decimal (hidentity.ordinal ordinal rfl))
            have hvalues := congrArg decimalFormat.value htexts
            rw [decimalFormat.value_text, decimalFormat.value_text] at hvalues
            exact ⟨congrArg some hvalues, .cons hthread (.cons hturn .nil)⟩
    | claude => exact absurd hprovider (by decide : codexProvider ≠ claudeProvider)
    | orca => exact absurd hprovider (by decide : codexProvider ≠ orcaProvider)
    | legacy => exact absurd hprovider (by decide : codexProvider ≠ legacyProvider)
  | claude sessionId uuid =>
    cases identity' with
    | codex => exact absurd hprovider (by decide : claudeProvider ≠ codexProvider)
    | claude => exact ⟨rfl, hparts⟩
    | orca => exact absurd hprovider (by decide : claudeProvider ≠ orcaProvider)
    | legacy => exact absurd hprovider (by decide : claudeProvider ≠ legacyProvider)
  | orca clientMessageId =>
    cases identity' with
    | codex => exact absurd hprovider (by decide : orcaProvider ≠ codexProvider)
    | claude => exact absurd hprovider (by decide : orcaProvider ≠ claudeProvider)
    | orca => exact ⟨rfl, hparts⟩
    | legacy => exact absurd hprovider (by decide : orcaProvider ≠ legacyProvider)
  | legacy agent sessionId recordId =>
    cases identity' with
    | codex => exact absurd hprovider (by decide : legacyProvider ≠ codexProvider)
    | claude => exact absurd hprovider (by decide : legacyProvider ≠ claudeProvider)
    | orca => exact absurd hprovider (by decide : legacyProvider ≠ orcaProvider)
    | legacy => exact ⟨rfl, hparts⟩

/-- Keys address items: they read back, tell items apart up to bounded forms, and components
are bounded once and never mistaken for bounded ones. -/
theorem agentJournalItemKey_spec (reader : OrdinalReader) :
    (∀ identity, IsIdentity identity → ∃ key parsed,
      agentJournalItemKey ⟨identity, none⟩ = some key ∧
        parseAgentJournalItemKey reader key = some parsed ∧
        parsed.identity.provider = identity.provider ∧
        parsed.identity.ordinal? = identity.ordinal? ∧
        List.Forall₂ (fun component read => IsVerbatim component → read = component)
          identity.components parsed.identity.components ∧
        agentJournalItemKey parsed = some key) ∧
      (∀ identity identity', IsIdentity identity → IsIdentity identity' →
        agentJournalItemKey ⟨identity, none⟩ = agentJournalItemKey ⟨identity', none⟩ →
          identity.provider = identity'.provider ∧ identity.ordinal? = identity'.ordinal? ∧
            List.Forall₂ SameComponent identity.components identity'.components) ∧
      (∀ value, value.length < stringLengthBound →
        boundJournalKeyComponent (boundJournalKeyComponent value) =
          boundJournalKeyComponent value) ∧
      ∀ value other, value.length < stringLengthBound → other.length < stringLengthBound →
        IsVerbatim value → ¬ IsVerbatim other → encodePart value ≠ encodePart other := by
  refine ⟨fun identity hidentity => parse_agentJournalItemKey reader hidentity,
    fun identity identity' hidentity hidentity' hsame =>
      sameComponents_of_agentJournalItemKey hidentity hidentity' hsame,
    fun value hvalue => bound_of_verbatim (isVerbatim_bound hvalue),
    fun value other hvalue hother hverbatim hnot hsame => ?_⟩
  rcases sameComponent_of_encodePart hvalue hother hsame with heq | hboth
  · exact hnot (heq ▸ hverbatim)
  · exact hboth.1 hverbatim

def decimalReader : OrdinalReader where
  read text :=
    if decimalFormat.text (decimalFormat.value text) = text then some (decimalFormat.value text)
    else none
  read_decimal ordinal _ := by
    rw [decimalFormat.value_text, if_pos rfl]

/-- An item whose thread is a lone surrogate and whose turn has a delimiter. -/
def loneThread : AgentJournalItemIdentity := .codex [0xD800] (Text.ofString "turn:1%") 7

theorem agentJournalItemKey_spec_loneThread :
    ∃ key parsed, agentJournalItemKey ⟨loneThread, none⟩ = some key ∧
      parseAgentJournalItemKey decimalReader key = some parsed ∧
      agentJournalItemKey parsed = some key := by
  obtain ⟨key, parsed, hkey, hparsed, -, -, -, hagain⟩ :=
    (agentJournalItemKey_spec decimalReader).1 loneThread
      ⟨by decide, by rintro ordinal ⟨⟩; decide⟩
  exact ⟨key, parsed, hkey, hparsed, hagain⟩

end Wakii.JournalItemKeys
