import Mathlib.Algebra.BigOperators.Group.List.Basic
import Mathlib.Data.Nat.Log
import Wakii.Library.JsonRoundTrip
import Wakii.Library.Utf8

/-!
# How many bytes JSON takes

The UTF-8 length of a text, of a quoted text and of a written value.  The length
of an object or an array is the sum over its members, so replacing one member
changes it by the difference; integers are written in decimal digits.
-/

namespace Text

/-- `Buffer.byteLength(text, 'utf8')` -/
def byteLength (text : Text) : ℕ := (encodeUtf8 text).length

@[simp]
theorem byteLength_nil : byteLength [] = 0 := rfl

theorem byteLength_append {text : Text} (hwell : isWellFormed text) (rest : Text) :
    byteLength (text ++ rest) = byteLength text + byteLength rest := by
  rw [byteLength, encodeUtf8, codePoints_append hwell, List.flatMap_append, List.length_append]
  rfl

theorem byteLength_cons {unit : CodeUnit} (hunit : isSurrogate unit.val = false) (rest : Text) :
    byteLength (unit :: rest) = (encodePoint unit.val).length + byteLength rest := by
  rw [← List.singleton_append, byteLength_append (isWellFormed_unit hunit)]
  simp [byteLength, encodeUtf8, codePoints]

theorem byteLength_ascii {text : Text} (hascii : ∀ unit ∈ text, unit.val < 0x80) :
    byteLength text = text.length := by
  induction text with
  | nil => rfl
  | cons unit rest ih =>
    have hunit := hascii unit List.mem_cons_self
    have hscalar : isSurrogate unit.val = false := by
      simp only [isSurrogate, Bool.and_eq_false_iff, decide_eq_false_iff_not]
      omega
    rw [byteLength_cons hscalar, ih fun other hother =>
      hascii other (List.mem_cons_of_mem _ hother), encodePoint, if_pos hunit,
      List.length_singleton, List.length_cons, Nat.add_comm]

theorem length_encodePoint_le (point : ℕ) :
    (encodePoint point).length ≤ 4 ∧ (point < 0x10000 → (encodePoint point).length ≤ 3) := by
  rw [encodePoint]
  split_ifs <;> simp
  omega

theorem byteLength_le (text : Text) : byteLength text ≤ 3 * text.length := by
  rw [byteLength, encodeUtf8]
  fun_induction codePoints text with
  | case1 => exact Nat.le_refl 0
  | case2 unit =>
    have hunit := (length_encodePoint_le unit.val).2 unit.isLt
    simpa using hunit
  | case3 high low rest hpair ih =>
    have hpoint := (length_encodePoint_le
      (0x10000 + (high.val - 0xD800) * 0x400 + (low.val - 0xDC00))).1
    rw [List.flatMap_cons, List.length_append]
    simp only [List.length_cons]
    omega
  | case4 high low rest hpair ih =>
    have hhigh := (length_encodePoint_le high.val).2 high.isLt
    rw [List.flatMap_cons, List.length_append]
    simp only [List.length_cons] at ih ⊢
    omega

end Text

namespace Json

section Quoted

theorem byteLength_quote (text : Text) : Text.byteLength (quote text) =
    2 + ((Text.codePoints text).map fun point => Text.byteLength (quotePoint point)).sum := by
  have hpoints : ∀ points : List ℕ, (∀ point ∈ points, point < 0x110000) →
      Text.byteLength (points.flatMap quotePoint) =
        (points.map fun point => Text.byteLength (quotePoint point)).sum := by
    intro points hbound
    induction points with
    | nil => rfl
    | cons point rest ih =>
      rw [List.flatMap_cons, List.map_cons, List.sum_cons,
        Text.byteLength_append (isWellFormed_quotePoint (hbound point List.mem_cons_self)),
        ih fun other hother => hbound other (List.mem_cons_of_mem _ hother)]
  have hwell : Text.isWellFormed ((Text.codePoints text).flatMap quotePoint) :=
    Text.isWellFormed_flatMap fun point hpoint =>
      isWellFormed_quotePoint (Text.codePoints_lt hpoint)
  have hmark : Text.byteLength [quotationMark] = 1 := rfl
  rw [quote, List.cons_append, Text.byteLength_cons (by rfl), Text.byteLength_append hwell,
    hpoints _ fun point hpoint => Text.codePoints_lt hpoint, hmark]
  change 1 + (_ + 1) = _
  omega

theorem byteLength_unicodeEscape (point : ℕ) : Text.byteLength (unicodeEscape point) = 6 := by
  have hhex (digit : ℕ) : (hexDigit (digit % 16)).val < 0x80 := by
    have hdigit := Nat.mod_lt digit (by decide : 16 > 0)
    revert hdigit
    generalize digit % 16 = least
    revert least
    decide
  refine Text.byteLength_ascii fun unit hunit => ?_
  simp only [unicodeEscape, List.mem_cons, List.not_mem_nil, or_false] at hunit
  rcases hunit with rfl | rfl | rfl | rfl | rfl | rfl
  · decide
  · decide
  all_goals exact hhex _

theorem byteLength_unitsOf {point : ℕ} (hbound : point < 0x110000) :
    Text.byteLength (Text.unitsOf point) = (Text.encodePoint point).length := by
  rw [Text.byteLength, Text.encodeUtf8, Text.codePoints_unitsOf hbound, List.flatMap_singleton]

theorem length_encodePoint_le_quotePoint {point : ℕ} (hbound : point < 0x110000) :
    (Text.encodePoint point).length ≤ Text.byteLength (quotePoint point) := by
  rw [quotePoint]
  split_ifs with hb ht hn hf hr hq hs hlow
  all_goals try (subst point; decide)
  · rw [byteLength_unicodeEscape]
    exact (Text.length_encodePoint_le point).1.trans (by decide)
  · rw [byteLength_unitsOf hbound]

theorem byteLength_le_quote (text : Text) :
    Text.byteLength text + 2 ≤ Text.byteLength (quote text) := by
  have hpoints : ∀ points : List ℕ, (∀ point ∈ points, point < 0x110000) →
      (points.flatMap Text.encodePoint).length ≤
        (points.map fun point => Text.byteLength (quotePoint point)).sum := by
    intro points hbound
    induction points with
    | nil => exact Nat.le_refl 0
    | cons point rest ih =>
      have hrest := ih fun other hother => hbound other (List.mem_cons_of_mem _ hother)
      have hpoint := length_encodePoint_le_quotePoint (hbound point List.mem_cons_self)
      rw [List.flatMap_cons, List.length_append, List.map_cons, List.sum_cons]
      omega
  have htext := hpoints (Text.codePoints text) fun point hpoint => Text.codePoints_lt hpoint
  rw [byteLength_quote, Text.byteLength, Text.encodeUtf8]
  omega

def isPlain (unit : CodeUnit) : Bool :=
  0x20 ≤ unit.val && unit.val < 0x80 && unit.val ≠ 0x22 && unit.val ≠ 0x5C

/-- Plain text at the end adds its own length. -/
theorem byteLength_quote_append (text : Text) {rest : Text}
    (hplain : ∀ unit ∈ rest, isPlain unit = true) :
    Text.byteLength (quote (text ++ rest)) = Text.byteLength (quote text) + rest.length := by
  have hunit {unit : CodeUnit} (hunit : isPlain unit = true) :
      Text.isLow unit.val = false ∧ Text.isHigh unit.val = false ∧
        quotePoint unit.val = [unit] := by
    simp only [isPlain, Bool.and_eq_true, decide_eq_true_eq] at hunit
    obtain ⟨⟨⟨hlow, hhigh⟩, hmark⟩, hsolidus⟩ := hunit
    refine ⟨?_, ?_, ?_⟩
    · simp only [Text.isLow, Bool.and_eq_false_iff, decide_eq_false_iff_not]
      omega
    · simp only [Text.isHigh, Bool.and_eq_false_iff, decide_eq_false_iff_not]
      omega
    · have hscalar : Text.isSurrogate unit.val = false := by
        simp only [Text.isSurrogate, Bool.and_eq_false_iff, decide_eq_false_iff_not]
        omega
      rw [quotePoint, if_neg (by omega), if_neg (by omega), if_neg (by omega), if_neg (by omega),
        if_neg (by omega), if_neg hmark, if_neg hsolidus,
        if_neg (by rw [hscalar, Bool.or_false, decide_eq_true_eq]; omega), Text.unitsOf_val]
  have hpoints : ∀ rest : Text, (∀ unit ∈ rest, isPlain unit = true) →
      ((Text.codePoints rest).map fun point => Text.byteLength (quotePoint point)).sum =
        rest.length := by
    intro rest hrest
    induction rest with
    | nil => rfl
    | cons unit rest ih =>
      obtain ⟨hfirst, hlater⟩ := List.forall_mem_cons.mp hrest
      obtain ⟨-, hhigh, hquoted⟩ := hunit hfirst
      have hsplit : Text.codePoints ([unit] ++ rest) = [unit.val] ++ Text.codePoints rest :=
        Text.codePoints_append_of_apart fun high hmem low _ => by
          have hsame : unit = high := by simpa using hmem
          rw [← hsame, hhigh, Bool.false_and]
      have hone : Text.byteLength [unit] = 1 := by
        rw [Text.byteLength_ascii]
        · rfl
        · intro other hother
          rw [List.mem_singleton.mp hother]
          simp only [isPlain, Bool.and_eq_true, decide_eq_true_eq] at hfirst
          exact hfirst.1.1.2
      rw [List.singleton_append] at hsplit
      rw [hsplit, List.map_append, List.sum_append, ih hlater, List.map_singleton,
        List.sum_singleton, hquoted, hone, List.length_cons, Nat.add_comm]
  have hapart : Text.codePoints (text ++ rest) = Text.codePoints text ++ Text.codePoints rest :=
    Text.codePoints_append_of_apart fun high _ low hlow => by
      rw [(hunit (hplain low (List.mem_of_head? hlow))).1, Bool.and_false]
  rw [byteLength_quote, byteLength_quote, hapart, List.map_append, List.sum_append,
    hpoints rest hplain]
  omega

end Quoted

section Numerals

theorem length_decimalDigits {places natural : ℕ} (hplaces : natural < places) :
    (decimalDigits places natural).length = Nat.log 10 natural + 1 := by
  induction places generalizing natural with
  | zero => omega
  | succ places ih =>
    rw [decimalDigits]
    split
    next hsmall => rw [Nat.log_of_lt hsmall, List.length_singleton]
    next hlarge =>
      rw [List.length_append, ih (by omega), List.length_singleton,
        Nat.log_of_one_lt_of_le (by decide : 1 < 10) (by omega : 10 ≤ natural)]

def maxSafeInteger : ℕ := 2 ^ 53 - 1

def integerText : ℤ → Text
  | .ofNat natural => decimalFormat.text natural
  | .negSucc natural => minus :: decimalFormat.text (natural + 1)

theorem length_decimal (natural : ℕ) :
    (decimalFormat.text natural).length = Nat.log 10 natural + 1 :=
  length_decimalDigits (Nat.lt_succ_self natural)

theorem isPlain_decimal (natural : ℕ) :
    ∀ unit ∈ decimalFormat.text natural, isPlain unit = true := by
  intro unit hunit
  have hdigit := (decimalDigits_spec (Nat.lt_succ_self natural)).1 unit hunit
  simp only [isDigit, Bool.and_eq_true, decide_eq_true_eq] at hdigit
  simp only [isPlain, Bool.and_eq_true, decide_eq_true_eq]
  omega

theorem length_decimal_mono {small large : ℕ} (hle : small ≤ large) :
    (decimalFormat.text small).length ≤ (decimalFormat.text large).length := by
  rw [length_decimal, length_decimal]
  exact Nat.succ_le_succ (Nat.log_mono_right hle)

theorem length_decimal_le {natural places : ℕ} (hplaces : places ≠ 0)
    (hbound : natural < 10 ^ places) : (decimalFormat.text natural).length ≤ places := by
  rw [length_decimal]
  exact Nat.log_lt_of_lt_pow' hplaces hbound

theorem length_integerText_natCast (natural : ℕ) :
    (integerText natural).length = (decimalFormat.text natural).length := rfl

theorem length_integerText_le {integer : ℤ} {places : ℕ} (hplaces : places ≠ 0)
    (hbelow : -10 ^ places < integer) (habove : integer < 10 ^ (places + 1)) :
    (integerText integer).length ≤ places + 1 := by
  cases integer with
  | ofNat natural =>
    have hsize : ((natural : ℕ) : ℤ) < ((10 ^ (places + 1) : ℕ) : ℤ) := by
      push_cast
      exact habove
    exact length_decimal_le (Nat.succ_ne_zero places) (by exact_mod_cast hsize)
  | negSucc natural =>
    have hdigits : (decimalFormat.text (natural + 1)).length ≤ places := by
      refine length_decimal_le hplaces ?_
      have hsize : ((natural + 1 : ℕ) : ℤ) < ((10 ^ places : ℕ) : ℤ) := by
        push_cast
        rw [Int.negSucc_eq] at hbelow
        omega
      exact_mod_cast hsize
    rw [integerText, List.length_cons]
    omega

/-- Numbers whose format writes the safe integers in decimal digits. -/
structure IntegerFormat (N : Type) [IntCast N] extends NumberFormat N where
  text_intCast : ∀ integer : ℤ, integer.natAbs ≤ maxSafeInteger → text integer = integerText integer

theorem head?_decimal_ne_minus (natural : ℕ) : (decimalFormat.text natural).head? ≠ some minus := by
  obtain ⟨hdigits, -, first, rest, htext, -, -⟩ := decimalDigits_spec (Nat.lt_succ_self natural)
  change (decimalDigits (natural + 1) natural).head? ≠ some minus
  rw [htext, List.head?_cons]
  intro hsame
  have hfirst := hdigits first (by rw [htext]; exact List.mem_cons_self)
  rw [Option.some.inj hsame] at hfirst
  cases hfirst

theorem isNumeral_integerText (integer : ℤ) : isNumeral (integerText integer) = true := by
  cases integer with
  | ofNat natural => exact decimalFormat.isNumeral_text natural
  | negSucc natural =>
    have hunsigned := decimalFormat.isNumeral_text (natural + 1)
    rw [isNumeral, if_neg (head?_decimal_ne_minus (natural + 1))] at hunsigned
    rw [integerText, isNumeral, List.head?_cons, if_pos rfl, List.tail_cons]
    exact hunsigned

def integerValue (text : Text) : ℤ :=
  if text.head? = some minus then -(decimalFormat.value text.tail : ℤ)
  else decimalFormat.value text

theorem integerValue_integerText (integer : ℤ) : integerValue (integerText integer) = integer := by
  cases integer with
  | ofNat natural =>
    rw [integerText, integerValue, if_neg (head?_decimal_ne_minus natural),
      decimalFormat.value_text]
    rfl
  | negSucc natural =>
    rw [integerText, integerValue, List.head?_cons, if_pos rfl, List.tail_cons,
      decimalFormat.value_text]
    rfl

def integerFormat : IntegerFormat ℤ where
  text := integerText
  value := integerValue
  isNumeral_text := isNumeral_integerText
  value_text := integerValue_integerText
  text_intCast _ _ := rfl

end Numerals

section Written

variable {N : Type} (format : NumberFormat N)

def byteLength (value : Json N) : ℕ := Text.byteLength (stringify format value)

theorem byteLength_string (text : Text) :
    byteLength format (.string text) = Text.byteLength (quote text) := by
  rw [byteLength, stringify]

theorem byteLength_number (number : N) :
    byteLength format (.number number) = (format.text number).length := by
  rw [byteLength, stringify]
  refine Text.byteLength_ascii fun unit hunit => ?_
  obtain ⟨first, rest, htext, hfirst, -, hrest⟩ := units_of_isNumeral (format.isNumeral_text number)
  have hnumeral : isNumeralUnit unit = true := by
    rw [htext] at hunit
    rcases List.mem_cons.mp hunit with rfl | hmem
    · exact hfirst
    · exact hrest unit hmem
  simp only [isNumeralUnit, isDigit, isExponentMark, Bool.or_eq_true, Bool.and_eq_true,
    decide_eq_true_eq] at hnumeral
  rcases hnumeral with (((hdigit | rfl) | rfl) | rfl) | rfl | rfl
  · omega
  all_goals decide

/-- The bytes of a member of an object, its colon and a comma counted in. -/
def fieldBytes (field : Text × Json N) : ℕ :=
  Text.byteLength (quote field.1) + byteLength format field.2 + 2

def fieldsBytes (fields : List (Text × Json N)) : ℕ := (fields.map (fieldBytes format)).sum

@[simp]
theorem fieldsBytes_nil : fieldsBytes format [] = 0 := rfl

@[simp]
theorem fieldsBytes_cons (field : Text × Json N) (rest : List (Text × Json N)) :
    fieldsBytes format (field :: rest) = fieldBytes format field + fieldsBytes format rest := by
  rw [fieldsBytes, List.map_cons, List.sum_cons, fieldsBytes]

@[simp]
theorem fieldsBytes_append (first second : List (Text × Json N)) :
    fieldsBytes format (first ++ second) =
      fieldsBytes format first + fieldsBytes format second := by
  rw [fieldsBytes, List.map_append, List.sum_append, fieldsBytes, fieldsBytes]

theorem byteLength_commaSeparated {texts : List Text}
    (hwell : ∀ text ∈ texts, Text.isWellFormed text) (hsome : texts ≠ []) :
    Text.byteLength (commaSeparated texts) + 1 =
      (texts.map fun text => Text.byteLength text + 1).sum := by
  induction texts with
  | nil => exact absurd rfl hsome
  | cons text rest ih =>
    cases rest with
    | nil => rfl
    | cons next rest =>
      have hrest := ih (fun other hother => hwell other (List.mem_cons_of_mem _ hother))
        (List.cons_ne_nil _ _)
      have hcomma : Text.byteLength (comma :: commaSeparated (next :: rest)) =
          1 + Text.byteLength (commaSeparated (next :: rest)) :=
        Text.byteLength_cons (by rfl) _
      rw [commaSeparated, Text.byteLength_append (hwell text List.mem_cons_self), hcomma,
        List.map_cons, List.sum_cons, ← hrest]
      omega

theorem byteLength_enclosed {opening closing : CodeUnit} (hopening : opening.val < 0x80)
    (hclosing : closing.val < 0x80) {text : Text} (hwell : Text.isWellFormed text) :
    Text.byteLength (opening :: text ++ [closing]) = Text.byteLength text + 2 := by
  have hplain {mark : CodeUnit} (hmark : mark.val < 0x80) : Text.isSurrogate mark.val = false := by
    simp only [Text.isSurrogate, Bool.and_eq_false_iff, decide_eq_false_iff_not]
    omega
  rw [List.cons_append, Text.byteLength_cons (hplain hopening), Text.byteLength_append hwell,
    Text.byteLength_cons (hplain hclosing), Text.encodePoint, if_pos hopening, Text.encodePoint,
    if_pos hclosing, Text.byteLength_nil, List.length_singleton, List.length_singleton]
  omega

theorem byteLength_object_nil : byteLength format (.object []) = 2 := rfl

theorem byteLength_object {fields : List (Text × Json N)} (hsome : fields ≠ []) :
    byteLength format (.object fields) = fieldsBytes format fields + 1 := by
  have hfield (field : Text × Json N) : Text.byteLength
      (quote field.1 ++ colon :: stringify format field.2) + 1 = fieldBytes format field := by
    have hcolon : Text.byteLength (colon :: stringify format field.2) =
        1 + byteLength format field.2 := Text.byteLength_cons (by rfl) _
    rw [Text.byteLength_append (isWellFormed_quote field.1), hcolon, fieldBytes]
    omega
  have hwritten : stringifyFields format fields = fields.map fun field =>
      quote field.1 ++ colon :: stringify format field.2 := by
    clear hsome
    induction fields with
    | nil => rw [stringifyFields, List.map_nil]
    | cons field rest ih =>
      obtain ⟨key, value⟩ := field
      rw [stringifyFields, ih, List.map_cons]
  have hwell : ∀ text ∈ stringifyFields format fields, Text.isWellFormed text :=
    isWellFormed_fields format fun field _ => isWellFormed_stringify format field.2
  have hsum := byteLength_commaSeparated hwell (by rw [hwritten]; simpa using hsome)
  have hparts : Text.byteLength (commaSeparated (stringifyFields format fields)) + 1 =
      fieldsBytes format fields := by
    rw [hsum, hwritten, List.map_map, fieldsBytes]
    exact congrArg List.sum (List.map_congr_left fun field _ => hfield field)
  rw [byteLength, stringify, byteLength_enclosed (by decide) (by decide)
    (isWellFormed_commaSeparated hwell), ← hparts]

theorem byteLength_array_nil : byteLength format (.array []) = 2 := rfl

theorem byteLength_array {items : List (Json N)} (hsome : items ≠ []) :
    byteLength format (.array items) =
      (items.map fun item => byteLength format item + 1).sum + 1 := by
  have hwritten : stringifyItems format items = items.map (stringify format) := by
    clear hsome
    induction items with
    | nil => rw [stringifyItems, List.map_nil]
    | cons item rest ih => rw [stringifyItems, ih, List.map_cons]
  have hwell : ∀ text ∈ stringifyItems format items, Text.isWellFormed text :=
    isWellFormed_items format fun item _ => isWellFormed_stringify format item
  have hsum := byteLength_commaSeparated hwell (by rw [hwritten]; simpa using hsome)
  have hparts : Text.byteLength (commaSeparated (stringifyItems format items)) + 1 =
      (items.map fun item => byteLength format item + 1).sum := by
    rw [hsum, hwritten, List.map_map]
    rfl
  rw [byteLength, stringify, byteLength_enclosed (by decide) (by decide)
    (isWellFormed_commaSeparated hwell), ← hparts]

end Written

end Json
