import Mathlib.Data.List.Lex
import Mathlib.Data.List.TakeWhile
import Mathlib.Order.Fin.Basic
import Wakii.Library.Json

/-!
# What is written as JSON reads back

The lexer gives the tokens of a written value one at a time, and the parser is
followed through them with any stack of open arrays and objects under it.
-/

namespace Json

open List Text

variable {N : Type} (format : NumberFormat N)

section Lexing

variable {state next : LexState} {unit : CodeUnit} {rest : Text}

theorem lex_silent (hstep : lexStep format state unit = some ([], next)) :
    lex format state (unit :: rest) = lex format next rest := by
  rw [lex, hstep]
  simp

theorem lex_token {token : Token N} (hstep : lexStep format state unit = some ([token], next)) :
    lex format state (unit :: rest) = (lex format next rest).map (token :: ·) := by
  rw [lex, hstep]
  rfl

variable {done : Text}

theorem lex_plain (hquote : unit ≠ quotationMark) (hescape : unit ≠ reverseSolidus)
    (hcontrol : 0x20 ≤ unit.val) :
    lex format (.inString done) (unit :: rest) = lex format (.inString (done ++ [unit])) rest := by
  apply lex_silent
  rw [lexStep, lexString, if_neg hquote, if_neg hescape, if_neg (by omega)]

theorem lex_escape {value : CodeUnit} (hunit : unit ≠ 0x75) (hvalue : escaped? unit = some value) :
    lex format (.inString done) (reverseSolidus :: unit :: rest) =
      lex format (.inString (done ++ [value])) rest := by
  have hopen : lexStep format (.inString done) reverseSolidus = some ([], .escape done) := rfl
  have hclose : lexStep format (.escape done) unit = some ([], .inString (done ++ [value])) := by
    rw [lexStep, lexEscape, if_neg hunit, hvalue]
    rfl
  rw [lex_silent format hopen, lex_silent format hclose]

theorem hexValue?_hexDigit {digit : ℕ} (hdigit : digit < 16) :
    hexValue? (hexDigit digit) = some digit := by
  revert digit
  decide

theorem lex_hexDigit {further value digit : ℕ} (hdigit : digit < 16) :
    lex format (.hex done (further + 1) value) (hexDigit digit :: rest) =
      lex format (.hex done further (value * 16 + digit)) rest := by
  apply lex_silent
  rw [lexStep, lexHex, hexValue?_hexDigit hdigit]
  rfl

theorem lex_lastHexDigit {value digit : ℕ} (hdigit : digit < 16) :
    lex format (.hex done 0 value) (hexDigit digit :: rest) =
      lex format (.inString (done ++ [Fin.ofNat 65536 (value * 16 + digit)])) rest := by
  apply lex_silent
  rw [lexStep, lexHex, hexValue?_hexDigit hdigit]
  rfl

theorem lex_unicodeEscape {point : ℕ} (hpoint : point < 0x10000) :
    lex format (.inString done) (unicodeEscape point ++ rest) =
      lex format (.inString (done ++ unitsOf point)) rest := by
  have hopen : lexStep format (.inString done) reverseSolidus = some ([], .escape done) := rfl
  have hmark : lexStep format (.escape done) 0x75 = some ([], .hex done 3 0) := rfl
  have hvalue : (((0 * 16 + point / 0x1000 % 16) * 16 + point / 0x100 % 16) * 16 +
      point / 0x10 % 16) * 16 + point % 16 = point := by
    omega
  simp only [unicodeEscape, cons_append, nil_append]
  rw [lex_silent format hopen, lex_silent format hmark,
    lex_hexDigit format (by omega), lex_hexDigit format (by omega),
    lex_hexDigit format (by omega), lex_lastHexDigit format (by omega), hvalue,
    unitsOf, if_pos hpoint]

theorem lex_unitsOf {point : ℕ} (hbound : point < 0x110000)
    (hquote : point ≠ 0x22) (hescape : point ≠ 0x5C) (hcontrol : 0x20 ≤ point) :
    lex format (.inString done) (unitsOf point ++ rest) =
      lex format (.inString (done ++ unitsOf point)) rest := by
  have hplain (value : ℕ) (hvalue : value < 0x10000) (hnotQuote : value ≠ 0x22)
      (hnotEscape : value ≠ 0x5C) (hnotControl : 0x20 ≤ value) (done rest : Text) :
      lex format (.inString done) (Fin.ofNat 65536 value :: rest) =
        lex format (.inString (done ++ [Fin.ofNat 65536 value])) rest := by
    have hval : (Fin.ofNat 65536 value).val = value := Nat.mod_eq_of_lt hvalue
    apply lex_plain
    · intro hsame
      exact hnotQuote (hval.symm.trans (congrArg Fin.val hsame))
    · intro hsame
      exact hnotEscape (hval.symm.trans (congrArg Fin.val hsame))
    · omega
  rw [unitsOf]
  split
  · exact hplain point (by omega) hquote hescape hcontrol done rest
  · rw [cons_append, hplain _ (by omega) (by omega) (by omega) (by omega),
      cons_append, hplain _ (by omega) (by omega) (by omega) (by omega),
      append_assoc]
    rfl

theorem lex_quotePoint {point : ℕ} (hbound : point < 0x110000) :
    lex format (.inString done) (quotePoint point ++ rest) =
      lex format (.inString (done ++ unitsOf point)) rest := by
  unfold quotePoint
  split_ifs with h8 h9 hA hC hD hquote hescape hhex
  · subst h8
    exact lex_escape format (by decide) rfl
  · subst h9
    exact lex_escape format (by decide) rfl
  · subst hA
    exact lex_escape format (by decide) rfl
  · subst hC
    exact lex_escape format (by decide) rfl
  · subst hD
    exact lex_escape format (by decide) rfl
  · subst hquote
    exact lex_escape format (by decide) rfl
  · subst hescape
    exact lex_escape format (by decide) rfl
  · apply lex_unicodeEscape
    simp only [isSurrogate, Bool.or_eq_true, Bool.and_eq_true, decide_eq_true_eq] at hhex
    omega
  · simp only [Bool.or_eq_true, decide_eq_true_eq, not_or] at hhex
    exact lex_unitsOf format hbound hquote hescape (by omega)

theorem lex_quotePoints {points : List ℕ} (hbound : ∀ point ∈ points, point < 0x110000)
    (done : Text) :
    lex format (.inString done) (points.flatMap quotePoint ++ quotationMark :: rest) =
      (lex format .between rest).map
        (.scalar (string (done ++ points.flatMap unitsOf)) :: ·) := by
  induction points generalizing done with
  | nil =>
    have hclose : lexStep format (.inString done) quotationMark =
        some ([.scalar (string done)], .between) := rfl
    simp only [flatMap_nil, nil_append, append_nil]
    rw [lex_token format hclose]
  | cons point points ih =>
    rw [flatMap_cons, append_assoc, lex_quotePoint format (hbound point mem_cons_self),
      ih (fun other hother => hbound other (mem_cons_of_mem _ hother)), flatMap_cons,
      append_assoc]

theorem lex_quote (text : Text) : lex format .between (quote text ++ rest) =
      (lex format .between rest).map (.scalar (string text) :: ·) := by
  have hopen : lexStep format .between quotationMark = some ([], .inString []) := rfl
  have hpoints := @lex_quotePoints _ format rest (codePoints text)
    (fun point hpoint => codePoints_lt hpoint) []
  rw [flatMap_unitsOf_codePoints, nil_append] at hpoints
  rw [quote, cons_append, cons_append, append_assoc, lex_silent format hopen]
  exact hpoints

/-- What follows cannot be read as part of a numeral or a word. -/
def Delimited (rest : Text) : Prop :=
  ∀ unit ∈ rest.head?, isNumeralUnit unit = false ∧ isLetter unit = false

theorem lex_after {token : Token N} {rest : Text} (hend : lexEnd format state = some [token])
    (hstep : ∀ unit ∈ rest.head?, lexStep format state unit = lexAfter (some token) unit) :
    lex format state rest = (lex format .between rest).map (token :: ·) := by
  cases rest with
  | nil =>
    rw [lex, hend, lex]
    rfl
  | cons unit tail =>
    rw [lex, hstep unit rfl, lex, lexStep, lexAfter]
    cases lexStart unit with
    | none => rfl
    | some started =>
      simp only [Option.bind_some, Option.map_some, Option.map_map, cons_append]
      rfl

/-- A state that takes each unit of a text in silence takes the text. -/
theorem lex_taken {taking : Text → LexState} {units : Text}
    (hstep : ∀ done, ∀ unit ∈ units,
      lexStep format (taking done) unit = some ([], taking (done ++ [unit]))) (done : Text) :
    lex format (taking done) (units ++ rest) = lex format (taking (done ++ units)) rest := by
  induction units generalizing done with
  | nil => simp
  | cons unit units ih =>
    rw [cons_append, lex_silent format (hstep done unit mem_cons_self),
      ih (fun done other hother => hstep done other (mem_cons_of_mem _ hother)), append_assoc]
    rfl

theorem isNumeralUnit_of_isDigit (hdigit : isDigit unit) : isNumeralUnit unit := by
  simp [isNumeralUnit, hdigit]

variable {text : Text}

theorem isNumeralUnit_of_isExponent (hexponent : isExponent text) :
    ∀ unit ∈ text, isNumeralUnit unit := by
  cases text with
  | nil => simp
  | cons mark rest =>
    simp only [isExponent, Bool.and_eq_true, all_eq_true] at hexponent
    obtain ⟨⟨hmark, -⟩, hdigits⟩ := hexponent
    intro unit hunit
    rcases mem_cons.mp hunit with rfl | hrest
    · simp [isNumeralUnit, hmark]
    cases rest with
    | nil => simp at hrest
    | cons first tail =>
      by_cases hsign : isSign first
      · simp only [head?_cons, Option.map_some, Option.getD_some, hsign, if_true,
          tail_cons] at hdigits
        rcases mem_cons.mp hrest with rfl | htail
        · simp only [isSign, Bool.or_eq_true, decide_eq_true_eq] at hsign
          rcases hsign with rfl | rfl <;> rfl
        · exact isNumeralUnit_of_isDigit (hdigits unit htail)
      · simp only [head?_cons, Option.map_some, Option.getD_some, hsign, if_false,
          Bool.false_eq_true] at hdigits
        exact isNumeralUnit_of_isDigit (hdigits unit hrest)

theorem isNumeralUnit_of_mem_digits {unit : CodeUnit}
    (hrest : ∀ unit ∈ text.dropWhile isDigit, isNumeralUnit unit) (hunit : unit ∈ text) :
    isNumeralUnit unit := by
  rw [← takeWhile_append_dropWhile (p := isDigit) (l := text)] at hunit
  rcases mem_append.mp hunit with hdigit | hother
  · exact isNumeralUnit_of_isDigit (mem_takeWhile_imp hdigit)
  · exact hrest unit hother

theorem isNumeralUnit_of_isFractionAndExponent
    (htext : isFractionAndExponent text) : ∀ unit ∈ text, isNumeralUnit unit := by
  cases text with
  | nil => simp
  | cons first rest =>
    rw [isFractionAndExponent] at htext
    by_cases hpoint : first = point
    · rw [if_pos hpoint, Bool.and_eq_true] at htext
      intro unit hunit
      rcases mem_cons.mp hunit with rfl | hrest
      · rw [hpoint]
        rfl
      · exact isNumeralUnit_of_mem_digits (isNumeralUnit_of_isExponent htext.2) hrest
    · rw [if_neg hpoint] at htext
      exact isNumeralUnit_of_isExponent htext

/-- A numeral starts with a sign or a digit and holds numeral units only. -/
theorem units_of_isNumeral (hnumeral : isNumeral text) :
    ∃ first rest, text = first :: rest ∧ isNumeralUnit first ∧ isLetter first = false ∧
      ∀ unit ∈ rest, isNumeralUnit unit := by
  cases text with
  | nil => simp [isNumeral] at hnumeral
  | cons first rest =>
    refine ⟨first, rest, rfl, ?_⟩
    simp only [isNumeral, Bool.and_eq_true, head?_cons, Option.some.injEq, tail_cons] at hnumeral
    obtain ⟨⟨hwhole, -⟩, hfraction⟩ := hnumeral
    by_cases hminus : first = minus
    · rw [if_pos hminus] at hfraction
      rw [hminus]
      exact ⟨rfl, rfl, fun unit hunit =>
        isNumeralUnit_of_mem_digits (isNumeralUnit_of_isFractionAndExponent hfraction) hunit⟩
    · rw [if_neg hminus] at hfraction hwhole
      have hdigit : isDigit first := by
        by_contra hnot
        simp [hnot] at hwhole
      have hletter : isLetter first = false := by
        simp only [isDigit, Bool.and_eq_true, decide_eq_true_eq] at hdigit
        simp only [isLetter, Bool.and_eq_false_iff, decide_eq_false_iff_not]
        omega
      exact ⟨isNumeralUnit_of_isDigit hdigit, hletter, fun unit hunit =>
        isNumeralUnit_of_mem_digits (isNumeralUnit_of_isFractionAndExponent hfraction)
          (mem_cons_of_mem _ hunit)⟩

section

variable (hunit : isNumeralUnit unit ∨ isLetter unit)
include hunit

theorem ne_mark {mark : CodeUnit}
    (hnumeral : isNumeralUnit mark = false) (hletter : isLetter mark = false) : unit ≠ mark := by
  rintro rfl
  rw [hnumeral, hletter] at hunit
  simp at hunit

theorem punctuation?_eq_none : (punctuation? unit : Option (Token N)) = none := by
  rw [punctuation?, if_neg (ne_mark hunit rfl rfl), if_neg (ne_mark hunit rfl rfl),
    if_neg (ne_mark hunit rfl rfl), if_neg (ne_mark hunit rfl rfl),
    if_neg (ne_mark hunit rfl rfl), if_neg (ne_mark hunit rfl rfl)]

theorem isWhitespace_eq_false : isWhitespace unit = false := by
  simp only [isWhitespace, Bool.or_eq_false_iff, decide_eq_false_iff_not]
  exact ⟨⟨⟨ne_mark hunit rfl rfl, ne_mark hunit rfl rfl⟩, ne_mark hunit rfl rfl⟩,
    ne_mark hunit rfl rfl⟩

end

theorem lexStart_numeral (hunit : isNumeralUnit unit) (hletter : isLetter unit = false) :
    (lexStart unit : Option (List (Token N) × LexState)) = some ([], .numeral [unit]) := by
  have hquote : unit ≠ quotationMark := ne_mark (Or.inl hunit) rfl rfl
  simp [lexStart, isWhitespace_eq_false (Or.inl hunit), punctuation?_eq_none (Or.inl hunit),
    hquote, hunit, hletter]

theorem lexStart_letter (hletter : isLetter unit) :
    (lexStart unit : Option (List (Token N) × LexState)) = some ([], .word [unit]) := by
  have hquote : unit ≠ quotationMark := ne_mark (Or.inr hletter) rfl rfl
  simp [lexStart, isWhitespace_eq_false (Or.inr hletter), punctuation?_eq_none (Or.inr hletter),
    hquote, hletter]

theorem lex_number (value : N) (hrest : Delimited rest) :
    lex format .between (format.text value ++ rest) =
      (lex format .between rest).map (.scalar (number value) :: ·) := by
  have hnumeral := format.isNumeral_text value
  obtain ⟨first, units, htext, hfirst, hletter, hunits⟩ := units_of_isNumeral hnumeral
  have hopen : lexStep format .between first = some ([], .numeral [first]) :=
    lexStart_numeral hfirst hletter
  have htoken : numeralToken? format (first :: units) = some (.scalar (number value)) := by
    rw [← htext, numeralToken?, if_pos hnumeral, format.value_text]
  have htaken := @lex_taken _ format rest .numeral units fun done unit hunit => by
    rw [lexStep, if_pos (hunits unit hunit)]
  rw [htext, cons_append, lex_silent format hopen, htaken, singleton_append]
  apply lex_after
  · rw [lexEnd, htoken]
    rfl
  · intro unit hunit
    rw [lexStep, (hrest unit hunit).1, htoken, if_neg Bool.false_ne_true]

theorem lex_word {word : Text} {value : Json N} (hword : word.all isLetter)
    (htoken : wordToken? word = some (.scalar value)) (hrest : Delimited rest) :
    lex format .between (word ++ rest) = (lex format .between rest).map (.scalar value :: ·) := by
  have hletters := all_eq_true.mp hword
  cases word with
  | nil => cases htoken
  | cons first word =>
    have hopen : lexStep format .between first = some ([], .word [first]) :=
      lexStart_letter (hletters first mem_cons_self)
    have htaken := @lex_taken _ format rest .word word fun done unit hunit => by
      rw [lexStep, if_pos (hletters unit (mem_cons_of_mem _ hunit))]
    rw [cons_append, lex_silent format hopen, htaken, singleton_append]
    apply lex_after
    · rw [lexEnd, htoken]
      rfl
    · intro unit hunit
      rw [lexStep, (hrest unit hunit).2, htoken, if_neg Bool.false_ne_true]

end Lexing

section Parsing

variable {rest : Text}

def parseFrom (state : ParseState N) (text : Text) : Option (Json N) :=
  (lex format .between text).bind (parseTokens state)

theorem parseFrom_token {state next : ParseState N} {token : Token N} {text : Text}
    (hlex : lex format .between text = (lex format .between rest).map (token :: ·))
    (hstep : parseStep state token = some next) :
    parseFrom format state text = parseFrom format next rest := by
  rw [parseFrom, hlex, parseFrom]
  cases lex format .between rest with
  | none => rfl
  | some tokens => simp [parseTokens, hstep]

theorem parseFrom_mark {state next : ParseState N} {token : Token N} {mark : CodeUnit}
    (hlex : (lexStart mark : Option (List (Token N) × LexState)) = some ([token], .between))
    (hstep : parseStep state token = some next) :
    parseFrom format state (mark :: rest) = parseFrom format next rest :=
  parseFrom_token format (lex_token format hlex) hstep

/-- A state in which any token but a closing bracket starts a value. -/
def Opens (state : ParseState N) (stack : List (Frame N)) : Prop :=
  ∀ token, token ≠ .closeBracket → parseStep state token = startValue stack token

theorem opens_value (stack : List (Frame N)) : Opens (.value stack) stack := fun _ _ => rfl

theorem opens_itemOrClose (stack : List (Frame N)) :
    Opens (.itemOrClose stack) (.array [] :: stack) := by
  intro token htoken
  cases token with
  | closeBracket => exact absurd rfl htoken
  | openBracket => rfl
  | openBrace => rfl
  | closeBrace => rfl
  | comma => rfl
  | colon => rfl
  | scalar value => rfl

variable {fields : List (Text × Json N)} {value : Json N}

theorem setField_of_notMem {key : Text}
    (hfresh : key ∉ fields.map Prod.fst) :
    setField key value fields = fields ++ [(key, value)] := by
  induction fields with
  | nil => rfl
  | cons field rest ih =>
    simp only [map_cons, mem_cons, not_or] at hfresh
    rw [setField, if_neg (Ne.symm hfresh.1), ih hfresh.2]
    rfl

theorem delimited_nil : Delimited [] := by
  intro unit hunit
  cases hunit

theorem delimited_cons {mark : CodeUnit}
    (hmark : isNumeralUnit mark = false ∧ isLetter mark = false) : Delimited (mark :: rest) := by
  intro unit hunit
  simp only [head?_cons, Option.mem_def, Option.some.injEq] at hunit
  rw [← hunit]
  exact hmark

variable {state : ParseState N} {stack : List (Frame N)}

theorem parseFrom_scalar {text : Text} (hopens : Opens state stack)
    (hlex : lex format .between text = (lex format .between rest).map (.scalar value :: ·)) :
    parseFrom format state text = parseFrom format (.after stack value) rest :=
  parseFrom_token format hlex (hopens _ (by rintro ⟨⟩))

/-- A written value is read back, whatever is open around it. -/
def ReadsBack (value : Json N) : Prop :=
  isProper value → ∀ (state : ParseState N) (stack : List (Frame N)) (rest : Text),
    Opens state stack → Delimited rest → parseFrom format state (stringify format value ++ rest) =
        parseFrom format (.after stack value) rest

theorem parseFrom_items {items : List (Json N)} (hread : ∀ item ∈ items, ReadsBack format item)
    (hsome : items ≠ []) (hproper : areProper items) {done : List (Json N)}
    (hopens : Opens state (.array done :: stack)) :
    parseFrom format state
        (commaSeparated (stringifyItems format items) ++ closeBracket :: rest) =
      parseFrom format (.after stack (array (done ++ items))) rest := by
  induction items generalizing state done with
  | nil => exact absurd rfl hsome
  | cons item items ih =>
    rw [areProper, Bool.and_eq_true] at hproper
    have hitem := hread item mem_cons_self hproper.1
    cases items with
    | nil =>
      rw [stringifyItems, stringifyItems, commaSeparated,
        hitem _ _ _ hopens (delimited_cons ⟨rfl, rfl⟩)]
      exact parseFrom_mark format rfl rfl
    | cons next items =>
      have hnext := ih (fun other hother => hread other (mem_cons_of_mem _ hother))
        (cons_ne_nil _ _) hproper.2 (opens_value (.array (done ++ [item]) :: stack))
      rw [stringifyItems] at hnext
      rw [stringifyItems, stringifyItems, commaSeparated, append_assoc,
        cons_append, hitem _ _ _ hopens (delimited_cons ⟨rfl, rfl⟩),
        parseFrom_mark format rfl rfl, hnext, append_assoc]
      rfl

theorem parseFrom_fields (hread : ∀ field ∈ fields, ReadsBack format field.2) (hsome : fields ≠ [])
    (hproper : areFieldsProper fields) {done : List (Text × Json N)}
    (hkeys : ((done ++ fields).map Prod.fst).Nodup)
    (hkey : ∀ key, parseStep state (.scalar (string key)) = some (.colon stack done key)) :
    parseFrom format state
        (commaSeparated (stringifyFields format fields) ++ closeBrace :: rest) =
      parseFrom format (.after stack (object (done ++ fields))) rest := by
  induction fields generalizing state done with
  | nil => exact absurd rfl hsome
  | cons field fields ih =>
    obtain ⟨key, value⟩ := field
    rw [areFieldsProper, Bool.and_eq_true] at hproper
    have hvalue := hread (key, value) mem_cons_self hproper.1
    have hfresh : key ∉ done.map Prod.fst := by
      rw [map_append, nodup_append] at hkeys
      intro hmem
      exact hkeys.2.2 key hmem key (by simp) rfl
    have hset : setField key value done = done ++ [(key, value)] := setField_of_notMem hfresh
    cases fields with
    | nil =>
      rw [stringifyFields, stringifyFields, commaSeparated, append_assoc,
        cons_append, parseFrom_token format (lex_quote format key) (hkey key),
        parseFrom_mark format rfl rfl,
        hvalue _ _ _ (opens_value _) (delimited_cons ⟨rfl, rfl⟩),
        parseFrom_mark format rfl rfl, hset]
    | cons next fields =>
      have hnextKey (name : Text) :
          parseStep (.key stack (done ++ [(key, value)])) (.scalar (string name)) =
            some (.colon stack (done ++ [(key, value)]) name) := rfl
      have hnext := ih (fun other hother => hread other (mem_cons_of_mem _ hother))
        (cons_ne_nil _ _) hproper.2 (by rwa [append_assoc]) hnextKey
      rw [stringifyFields] at hnext
      rw [stringifyFields, stringifyFields, commaSeparated, append_assoc,
        append_assoc, cons_append, cons_append,
        parseFrom_token format (lex_quote format key) (hkey key),
        parseFrom_mark format rfl rfl,
        hvalue _ _ _ (opens_value _) (delimited_cons ⟨rfl, rfl⟩),
        parseFrom_mark format rfl rfl, hset, hnext, append_assoc]
      rfl

theorem readsBack_array {items : List (Json N)} (hread : ∀ item ∈ items, ReadsBack format item) :
    ReadsBack format (array items) := by
  intro hproper state stack rest hopens _
  have hopen : parseStep state .openBracket = some (.itemOrClose stack) := hopens _ (by rintro ⟨⟩)
  rw [stringify, cons_append, cons_append, parseFrom_mark format rfl hopen, append_assoc]
  by_cases hsome : items = []
  · subst hsome
    exact parseFrom_mark format rfl rfl
  · exact parseFrom_items format hread hsome hproper (opens_itemOrClose stack)

theorem readsBack_object
    (hread : ∀ field ∈ fields, ReadsBack format field.2) : ReadsBack format (object fields) := by
  intro hproper state stack rest hopens _
  have hopen : parseStep state .openBrace = some (.keyOrClose stack) := hopens _ (by rintro ⟨⟩)
  rw [isProper, Bool.and_eq_true, decide_eq_true_eq] at hproper
  rw [stringify, cons_append, cons_append, parseFrom_mark format rfl hopen, append_assoc]
  by_cases hsome : fields = []
  · subst hsome
    exact parseFrom_mark format rfl rfl
  · have hkeys : (([] ++ fields).map Prod.fst).Nodup := hproper.1
    exact parseFrom_fields format hread hsome hproper.2 hkeys fun _ => rfl

theorem readsBack (value : Json N) : ReadsBack format value := by
  induction value using elementInduction with
  | null => exact fun _ _ _ _ hopens hrest =>
    parseFrom_scalar format hopens (lex_word format rfl rfl hrest)
  | bool value =>
    intro _ state stack rest hopens hrest
    cases value with
    | true => exact parseFrom_scalar format hopens (lex_word format rfl rfl hrest)
    | false => exact parseFrom_scalar format hopens (lex_word format rfl rfl hrest)
  | number value => exact fun _ _ _ _ hopens hrest =>
    parseFrom_scalar format hopens (lex_number format value hrest)
  | string value => exact fun _ _ _ _ hopens _ =>
    parseFrom_scalar format hopens (lex_quote format value)
  | array items hread => exact readsBack_array format hread
  | object fields hread => exact readsBack_object format hread

/-- Reading what was written gives the value back. -/
theorem parse_stringify (hproper : isProper value) :
    parse format (stringify format value) = some value := by
  have hread := readsBack format value hproper (.value []) [] [] (opens_value []) delimited_nil
  rw [append_nil] at hread
  exact hread

end Parsing

section WellFormed

theorem isSurrogate_numeralUnit {unit : CodeUnit} (hunit : isNumeralUnit unit) :
    isSurrogate unit.val = false := by
  simp only [isNumeralUnit, isExponentMark, isDigit, Bool.or_eq_true, Bool.and_eq_true,
    decide_eq_true_eq] at hunit
  rcases hunit with (((hdigit | rfl) | rfl) | rfl) | rfl | rfl
  · simp only [isSurrogate, Bool.and_eq_false_iff, decide_eq_false_iff_not]
    omega
  all_goals rfl

theorem isWellFormed_number (value : N) : isWellFormed (format.text value) := by
  obtain ⟨first, rest, htext, hfirst, -, hrest⟩ := units_of_isNumeral (format.isNumeral_text value)
  rw [htext]
  apply isWellFormed_units
  intro unit hunit
  rcases mem_cons.mp hunit with rfl | hmem
  · exact isSurrogate_numeralUnit hfirst
  · exact isSurrogate_numeralUnit (hrest unit hmem)

theorem isSurrogate_hexDigit {digit : ℕ} (hdigit : digit < 16) :
    isSurrogate (hexDigit digit).val = false := by
  revert digit
  decide

theorem isWellFormed_unicodeEscape (point : ℕ) : isWellFormed (unicodeEscape point) := by
  apply isWellFormed_units
  intro unit hunit
  simp only [unicodeEscape, mem_cons, not_mem_nil, or_false] at hunit
  rcases hunit with rfl | rfl | rfl | rfl | rfl | rfl
  · rfl
  · rfl
  all_goals exact isSurrogate_hexDigit (Nat.mod_lt _ (by decide))

theorem isWellFormed_quotePoint {point : ℕ} (hpoint : point < 0x110000) :
    isWellFormed (quotePoint point) := by
  unfold quotePoint
  split_ifs with h8 h9 hA hC hD hquote hescape hhex
  iterate 7 rfl
  · exact isWellFormed_unicodeEscape point
  · simp only [Bool.or_eq_true, not_or, Bool.not_eq_true] at hhex
    exact isWellFormed_unitsOf hpoint hhex.2

theorem isWellFormed_quote (text : Text) : isWellFormed (quote text) := by
  have hpoints : isWellFormed ((codePoints text).flatMap quotePoint) :=
    isWellFormed_flatMap fun _ hpoint => isWellFormed_quotePoint (codePoints_lt hpoint)
  have hopen : isWellFormed [quotationMark] := rfl
  exact isWellFormed_of_append (isWellFormed_of_append hopen hpoints) hopen

theorem isWellFormed_commaSeparated {texts : List Text}
    (htexts : ∀ text ∈ texts, isWellFormed text) : isWellFormed (commaSeparated texts) := by
  induction texts with
  | nil => rfl
  | cons text rest ih =>
    have htext := htexts text mem_cons_self
    cases rest with
    | nil => exact htext
    | cons next rest =>
      have hcomma : isWellFormed [comma] := rfl
      exact isWellFormed_of_append htext (isWellFormed_of_append hcomma
        (ih fun other hother => htexts other (mem_cons_of_mem _ hother)))

theorem isWellFormed_items {items : List (Json N)}
    (hitems : ∀ item ∈ items, isWellFormed (stringify format item)) :
    ∀ text ∈ stringifyItems format items, isWellFormed text := by
  induction items with
  | nil => exact fun _ htext => absurd htext not_mem_nil
  | cons item rest ih =>
    rw [stringifyItems, forall_mem_cons]
    exact ⟨hitems item mem_cons_self,
      ih fun other hother => hitems other (mem_cons_of_mem _ hother)⟩

theorem isWellFormed_fields {fields : List (Text × Json N)}
    (hfields : ∀ field ∈ fields, isWellFormed (stringify format field.2)) :
    ∀ text ∈ stringifyFields format fields, isWellFormed text := by
  induction fields with
  | nil => exact fun _ htext => absurd htext not_mem_nil
  | cons field rest ih =>
    obtain ⟨key, value⟩ := field
    have hcolon : isWellFormed [colon] := rfl
    rw [stringifyFields, forall_mem_cons]
    exact ⟨isWellFormed_of_append (isWellFormed_quote key)
        (isWellFormed_of_append hcolon (hfields (key, value) mem_cons_self)),
      ih fun other hother => hfields other (mem_cons_of_mem _ hother)⟩

theorem isWellFormed_enclosed {opening closing : CodeUnit} {texts : List Text}
    (hopening : isWellFormed [opening]) (hclosing : isWellFormed [closing])
    (htexts : ∀ text ∈ texts, isWellFormed text) :
    isWellFormed (opening :: commaSeparated texts ++ [closing]) :=
  isWellFormed_of_append
    (isWellFormed_of_append hopening (isWellFormed_commaSeparated htexts)) hclosing

theorem isWellFormed_stringify (value : Json N) : isWellFormed (stringify format value) := by
  induction value using elementInduction with
  | null => rfl
  | bool value => cases value <;> rfl
  | number value => exact isWellFormed_number format value
  | string value => exact isWellFormed_quote value
  | array items hitems => exact isWellFormed_enclosed rfl rfl (isWellFormed_items format hitems)
  | object fields hfields =>
    exact isWellFormed_enclosed rfl rfl (isWellFormed_fields format hfields)

end WellFormed

section Naturals

def digitUnit (digit : ℕ) : CodeUnit := Fin.ofNat 65536 (0x30 + digit)

def decimalDigits : ℕ → ℕ → Text
  | 0, _ => []
  | places + 1, natural =>
    if natural < 10 then [digitUnit natural]
    else decimalDigits places (natural / 10) ++ [digitUnit (natural % 10)]

def decimalValue (text : Text) : ℕ :=
  text.foldl (fun value unit => value * 10 + (unit.val - 0x30)) 0

theorem isDigit_digitUnit {digit : ℕ} (hdigit : digit < 10) :
    isDigit (digitUnit digit) ∧ (digitUnit digit).val - 0x30 = digit := by
  revert digit
  decide

theorem decimalDigits_spec {places natural : ℕ} (hplaces : natural < places) :
    (∀ unit ∈ decimalDigits places natural, isDigit unit) ∧
      decimalValue (decimalDigits places natural) = natural ∧
      ∃ first rest, decimalDigits places natural = first :: rest ∧
        (natural < 10 → rest = []) ∧ (natural ≠ 0 → first ≠ 0x30) := by
  induction places generalizing natural with
  | zero => omega
  | succ places ih =>
    rw [decimalDigits]
    split
    next hsmall =>
      obtain ⟨hdigit, hvalue⟩ := isDigit_digitUnit hsmall
      refine ⟨by simpa using hdigit, by simpa [decimalValue] using hvalue,
        _, _, rfl, fun _ => rfl, ?_⟩
      rintro hpos hzero
      rw [hzero] at hvalue
      exact hpos hvalue.symm
    next hlarge =>
      obtain ⟨hdigits, hvalue, first, rest, hfirst, -, hnonzero⟩ := @ih (natural / 10) (by omega)
      obtain ⟨hdigit, hlast⟩ := isDigit_digitUnit (Nat.mod_lt natural (by decide : 10 > 0))
      refine ⟨?_, ?_, first, rest ++ [digitUnit (natural % 10)], ?_, ?_, ?_⟩
      · intro unit hunit
        rcases mem_append.mp hunit with hmem | hmem
        · exact hdigits unit hmem
        · rw [mem_singleton.mp hmem]
          exact hdigit
      · rw [decimalValue, foldl_append, ← decimalValue, hvalue]
        simp only [foldl_cons, foldl_nil, hlast]
        omega
      · rw [hfirst]
        rfl
      · intro hsmall
        exact absurd hsmall hlarge
      · intro _
        exact hnonzero (by omega)

theorem isNumeral_digits {text : Text} (hdigits : ∀ unit ∈ text, isDigit unit)
    {first : CodeUnit} {rest : Text} (htext : text = first :: rest)
    (hzero : rest = [] ∨ first ≠ 0x30) : isNumeral text := by
  have htake : text.takeWhile isDigit = text := takeWhile_eq_self_iff.mpr hdigits
  have hdrop : text.dropWhile isDigit = [] := dropWhile_eq_nil_iff.mpr hdigits
  have hminus : text.head? ≠ some minus := by
    rw [htext]
    intro hsame
    have hfirst := hdigits first (by rw [htext]; exact mem_cons_self)
    rw [head?_cons, Option.some.injEq] at hsame
    rw [hsame] at hfirst
    cases hfirst
  rw [isNumeral, if_neg hminus, htake, hdrop, htext]
  rcases hzero with rfl | hfirst
  · rfl
  · simp [hfirst, isFractionAndExponent]

/-- Natural numbers with their decimal numerals. -/
def decimalFormat : NumberFormat ℕ where
  text number := decimalDigits (number + 1) number
  value := decimalValue
  isNumeral_text number := by
    obtain ⟨hdigits, -, first, rest, htext, hsmall, hnonzero⟩ :=
      decimalDigits_spec (Nat.lt_succ_self number)
    apply isNumeral_digits hdigits htext
    by_cases hnumber : number < 10
    · exact Or.inl (hsmall hnumber)
    · exact Or.inr (hnonzero (by omega))
  value_text number := (decimalDigits_spec (Nat.lt_succ_self number)).2.1

end Naturals

section Fields

variable {N : Type}

theorem keys_setField (key : Text) (value : Json N) (fields : List (Text × Json N)) :
    (setField key value fields).map Prod.fst =
      if key ∈ fields.map Prod.fst then fields.map Prod.fst else fields.map Prod.fst ++ [key] := by
  induction fields with
  | nil => rfl
  | cons field rest ih =>
    rw [setField]
    by_cases hkey : field.1 = key
    · rw [if_pos hkey]
      simp [hkey]
    · rw [if_neg hkey, map_cons, ih, map_cons]
      by_cases hmem : key ∈ rest.map Prod.fst
      · rw [if_pos hmem, if_pos (mem_cons_of_mem _ hmem)]
      · rw [if_neg hmem, if_neg (by simp [Ne.symm hkey, hmem])]
        rfl

section

variable {key : Text} {value : Json N} {fields : List (Text × Json N)} (hvalue : isProper value)
include hvalue

theorem areFieldsProper_setField (hfields : areFieldsProper fields) :
    areFieldsProper (setField key value fields) := by
  induction fields with
  | nil => simpa [setField, areFieldsProper] using hvalue
  | cons field rest ih =>
    rw [areFieldsProper, Bool.and_eq_true] at hfields
    rw [setField]
    split
    · rw [areFieldsProper, hvalue, hfields.2]
      rfl
    · rw [areFieldsProper, hfields.1, ih hfields.2]
      rfl

/-- Setting a property keeps an object's keys apart. -/
theorem isProper_setField (hfields : isProper (.object fields)) :
    isProper (.object (setField key value fields)) := by
  rw [isProper, Bool.and_eq_true, decide_eq_true_eq] at hfields ⊢
  refine ⟨?_, areFieldsProper_setField hvalue hfields.2⟩
  rw [keys_setField]
  split
  · exact hfields.1
  next hfresh =>
    rw [nodup_append]
    refine ⟨hfields.1, by simp, ?_⟩
    intro other hother _ hkey
    rw [mem_singleton.mp hkey]
    rintro rfl
    exact hfresh hother

end

theorem field?_setField (key : Text) (value : Json N) (fields : List (Text × Json N)) :
    field? key (setField key value fields) = some value := by
  induction fields with
  | nil => simp [setField, field?]
  | cons field rest ih =>
    rw [setField]
    split_ifs with hkey
    · simp [field?]
    · simp only [field?] at ih ⊢
      rw [find?_cons_of_neg (by simpa using hkey), ih]

theorem setField_setField (key : Text) (first second : Json N) (fields : List (Text × Json N)) :
    setField key second (setField key first fields) = setField key second fields := by
  induction fields with
  | nil => simp [setField]
  | cons field rest ih =>
    by_cases hkey : field.1 = key
    · simp [setField, hkey]
    · simp [setField, hkey, ih]

end Fields

end Json
