import Wakii.Library.Utf16

/-!
# JSON values, written and read

`stringify` writes a value as `JSON.stringify` does, lone surrogates escaped;
`parse` reads any JSON text, one unit at a time.  Numbers are of any type whose
numerals read back.
-/

inductive Json (N : Type) where
  | null
  | bool (value : Bool)
  | number (value : N)
  | string (value : Text)
  | array (items : List (Json N))
  | object (fields : List (Text × Json N))

namespace Json

section Induction

variable {N : Type} {motive : Json N → Prop} (null : motive null)
  (bool : ∀ value, motive (bool value)) (number : ∀ value, motive (number value))
  (string : ∀ value, motive (string value))
  (array : ∀ items, (∀ item ∈ items, motive item) → motive (array items))
  (object : ∀ fields, (∀ field ∈ fields, motive field.2) → motive (object fields))

include null bool number string array object

/-- What holds of a value whenever it holds of its elements holds of every value. -/
@[elab_as_elim]
theorem elementInduction (value : Json N) : motive value :=
  @Json.rec N motive (fun items => ∀ item ∈ items, motive item)
    (fun fields => ∀ field ∈ fields, motive field.2) (fun field => motive field.2)
    null bool number string array object (fun _ hitem => absurd hitem List.not_mem_nil)
    (fun _ _ hfirst hrest item hitem =>
      (List.mem_cons.mp hitem).elim (fun heq => heq ▸ hfirst) (hrest item))
    (fun _ hfield => absurd hfield List.not_mem_nil)
    (fun _ _ hfirst hrest field hfield =>
      (List.mem_cons.mp hfield).elim (fun heq => heq ▸ hfirst) (hrest field))
    (fun _ _ hvalue => hvalue) value

end Induction

def isDigit (unit : CodeUnit) : Bool := 0x30 ≤ unit.val && unit.val ≤ 0x39

def minus : CodeUnit := 0x2D
def plus : CodeUnit := 0x2B
def point : CodeUnit := 0x2E
def quotationMark : CodeUnit := 0x22
def reverseSolidus : CodeUnit := 0x5C
def comma : CodeUnit := 0x2C
def colon : CodeUnit := 0x3A
def openBracket : CodeUnit := 0x5B
def closeBracket : CodeUnit := 0x5D
def openBrace : CodeUnit := 0x7B
def closeBrace : CodeUnit := 0x7D

def isExponentMark (unit : CodeUnit) : Bool := unit = 0x65 || unit = 0x45

def isNumeralUnit (unit : CodeUnit) : Bool :=
  isDigit unit || unit = minus || unit = plus || unit = point || isExponentMark unit

def isSign (unit : CodeUnit) : Bool := unit = minus || unit = plus

def isExponent : Text → Bool
  | [] => true
  | mark :: rest =>
    let digits := if (rest.head?.map isSign).getD false then rest.tail else rest
    isExponentMark mark && digits ≠ [] && digits.all isDigit

def isFractionAndExponent : Text → Bool
  | [] => true
  | unit :: rest =>
    if unit = point then
      rest.takeWhile isDigit ≠ [] && isExponent (rest.dropWhile isDigit)
    else isExponent (unit :: rest)

def isNumeral (text : Text) : Bool :=
  let unsigned := if text.head? = some minus then text.tail else text
  let whole := unsigned.takeWhile isDigit
  whole ≠ [] && (whole.tail = [] || whole.head? ≠ some 0x30) &&
    isFractionAndExponent (unsigned.dropWhile isDigit)

/-- Numbers with their JSON numerals, as `Number::toString` writes them and
`StringToNumber` reads them. -/
structure NumberFormat (N : Type) where
  text : N → Text
  value : Text → N
  isNumeral_text : ∀ number, isNumeral (text number) = true
  value_text : ∀ number, value (text number) = number

def nullText : Text := [0x6E, 0x75, 0x6C, 0x6C]
def trueText : Text := [0x74, 0x72, 0x75, 0x65]
def falseText : Text := [0x66, 0x61, 0x6C, 0x73, 0x65]

def hexDigit (digit : ℕ) : CodeUnit :=
  if digit < 10 then Fin.ofNat 65536 (0x30 + digit) else Fin.ofNat 65536 (0x57 + digit)

def unicodeEscape (point : ℕ) : Text :=
  [reverseSolidus, 0x75, hexDigit (point / 0x1000 % 16), hexDigit (point / 0x100 % 16),
    hexDigit (point / 0x10 % 16), hexDigit (point % 16)]

def quotePoint (point : ℕ) : Text :=
  if point = 0x08 then [reverseSolidus, 0x62]
  else if point = 0x09 then [reverseSolidus, 0x74]
  else if point = 0x0A then [reverseSolidus, 0x6E]
  else if point = 0x0C then [reverseSolidus, 0x66]
  else if point = 0x0D then [reverseSolidus, 0x72]
  else if point = 0x22 then [reverseSolidus, 0x22]
  else if point = 0x5C then [reverseSolidus, 0x5C]
  else if point < 0x20 || Text.isSurrogate point then unicodeEscape point
  else Text.unitsOf point

def quote (text : Text) : Text :=
  quotationMark :: (Text.codePoints text).flatMap quotePoint ++ [quotationMark]

def commaSeparated : List Text → Text
  | [] => []
  | [text] => text
  | text :: next :: rest => text ++ comma :: commaSeparated (next :: rest)

section Writing

variable {N : Type} (format : NumberFormat N)

mutual
def stringify : Json N → Text
  | null => nullText
  | bool true => trueText
  | bool false => falseText
  | number value => format.text value
  | string value => quote value
  | array items => openBracket :: commaSeparated (stringifyItems items) ++ [closeBracket]
  | object fields => openBrace :: commaSeparated (stringifyFields fields) ++ [closeBrace]

def stringifyItems : List (Json N) → List Text
  | [] => []
  | item :: rest => stringify item :: stringifyItems rest

def stringifyFields : List (Text × Json N) → List Text
  | [] => []
  | (key, value) :: rest =>
    (quote key ++ colon :: stringify value) :: stringifyFields rest
end

end Writing

section Fields

variable {N : Type}

def field? (key : Text) (fields : List (Text × Json N)) : Option (Json N) :=
  (fields.find? fun field => field.1 = key).map Prod.snd

def setField (key : Text) (value : Json N) : List (Text × Json N) → List (Text × Json N)
  | [] => [(key, value)]
  | field :: rest =>
    if field.1 = key then (key, value) :: rest else field :: setField key value rest

mutual
def isProper : Json N → Bool
  | array items => areProper items
  | object fields => decide (fields.map Prod.fst).Nodup && areFieldsProper fields
  | _ => true

def areProper : List (Json N) → Bool
  | [] => true
  | item :: rest => isProper item && areProper rest

def areFieldsProper : List (Text × Json N) → Bool
  | [] => true
  | (_, value) :: rest => isProper value && areFieldsProper rest
end

end Fields

inductive Token (N : Type) where
  | openBracket
  | closeBracket
  | openBrace
  | closeBrace
  | comma
  | colon
  | scalar (value : Json N)

/-- What the lexer is inside of, with the units read so far. -/
inductive LexState where
  | between
  | inString (done : Text)
  | escape (done : Text)
  | hex (done : Text) (further value : ℕ)
  | numeral (done : Text)
  | word (done : Text)

def isWhitespace (unit : CodeUnit) : Bool :=
  unit = 0x20 || unit = 0x09 || unit = 0x0A || unit = 0x0D

def isLetter (unit : CodeUnit) : Bool := 0x61 ≤ unit.val && unit.val ≤ 0x7A

def hexValue? (unit : CodeUnit) : Option ℕ :=
  if isDigit unit then some (unit.val - 0x30)
  else if 0x61 ≤ unit.val ∧ unit.val ≤ 0x66 then some (unit.val - 0x57)
  else if 0x41 ≤ unit.val ∧ unit.val ≤ 0x46 then some (unit.val - 0x37)
  else none

def escaped? (unit : CodeUnit) : Option CodeUnit :=
  if unit = quotationMark || unit = reverseSolidus || unit = 0x2F then some unit
  else if unit = 0x62 then some 0x08
  else if unit = 0x66 then some 0x0C
  else if unit = 0x6E then some 0x0A
  else if unit = 0x72 then some 0x0D
  else if unit = 0x74 then some 0x09
  else none

section Reading

variable {N : Type}

def punctuation? (unit : CodeUnit) : Option (Token N) :=
  if unit = openBracket then some .openBracket
  else if unit = closeBracket then some .closeBracket
  else if unit = openBrace then some .openBrace
  else if unit = closeBrace then some .closeBrace
  else if unit = comma then some .comma
  else if unit = colon then some .colon
  else none

def lexStart (unit : CodeUnit) : Option (List (Token N) × LexState) :=
  if isWhitespace unit then some ([], .between)
  else
    match punctuation? unit with
    | some token => some ([token], .between)
    | none =>
      if unit = quotationMark then some ([], .inString [])
      else if isNumeralUnit unit && !isLetter unit then some ([], .numeral [unit])
      else if isLetter unit then some ([], .word [unit])
      else none

def wordToken? (word : Text) : Option (Token N) :=
  if word = nullText then some (.scalar null)
  else if word = trueText then some (.scalar (bool true))
  else if word = falseText then some (.scalar (bool false))
  else none

def lexString (done : Text) (unit : CodeUnit) : Option (List (Token N) × LexState) :=
  if unit = quotationMark then some ([.scalar (string done)], .between)
  else if unit = reverseSolidus then some ([], .escape done)
  else if unit.val < 0x20 then none
  else some ([], .inString (done ++ [unit]))

def lexEscape (done : Text) (unit : CodeUnit) : Option (List (Token N) × LexState) :=
  if unit = 0x75 then some ([], .hex done 3 0)
  else (escaped? unit).map fun value => ([], .inString (done ++ [value]))

def lexHex (done : Text) (further value : ℕ) (unit : CodeUnit) :
    Option (List (Token N) × LexState) :=
  (hexValue? unit).map fun digit =>
    match further with
    | 0 => ([], .inString (done ++ [Fin.ofNat 65536 (value * 16 + digit)]))
    | further + 1 => ([], .hex done further (value * 16 + digit))

variable (format : NumberFormat N)

def numeralToken? (done : Text) : Option (Token N) :=
  if isNumeral done then some (.scalar (number (format.value done))) else none

/-- The token before a unit that is not part of it, then the unit itself. -/
def lexAfter (token : Option (Token N)) (unit : CodeUnit) : Option (List (Token N) × LexState) :=
  token.bind fun token => (lexStart unit).map fun next => (token :: next.1, next.2)

def lexStep : LexState → CodeUnit → Option (List (Token N) × LexState)
  | .between, unit => lexStart unit
  | .inString done, unit => lexString done unit
  | .escape done, unit => lexEscape done unit
  | .hex done further value, unit => lexHex done further value unit
  | .numeral done, unit =>
    if isNumeralUnit unit then some ([], .numeral (done ++ [unit]))
    else lexAfter (numeralToken? format done) unit
  | .word done, unit =>
    if isLetter unit then some ([], .word (done ++ [unit]))
    else lexAfter (wordToken? done) unit

def lexEnd : LexState → Option (List (Token N))
  | .between => some []
  | .numeral done => (numeralToken? format done).map fun token => [token]
  | .word done => (wordToken? done).map fun token => [token]
  | _ => none

def lex : LexState → Text → Option (List (Token N))
  | state, [] => lexEnd format state
  | state, unit :: rest =>
    (lexStep format state unit).bind fun next =>
      (lex next.2 rest).map fun tokens => next.1 ++ tokens

/-- A value under construction. -/
inductive Frame (N : Type) where
  | array (done : List (Json N))
  | object (done : List (Text × Json N)) (key : Text)

inductive ParseState (N : Type) where
  | value (stack : List (Frame N))
  | itemOrClose (stack : List (Frame N))
  | keyOrClose (stack : List (Frame N))
  | key (stack : List (Frame N)) (done : List (Text × Json N))
  | colon (stack : List (Frame N)) (done : List (Text × Json N)) (key : Text)
  | after (stack : List (Frame N)) (value : Json N)

def startValue (stack : List (Frame N)) : Token N → Option (ParseState N)
  | .scalar value => some (.after stack value)
  | .openBracket => some (.itemOrClose stack)
  | .openBrace => some (.keyOrClose stack)
  | _ => none

def parseStep : ParseState N → Token N → Option (ParseState N)
  | .value stack, token => startValue stack token
  | .itemOrClose stack, .closeBracket => some (.after stack (array []))
  | .itemOrClose stack, token => startValue (.array [] :: stack) token
  | .keyOrClose stack, .closeBrace => some (.after stack (object []))
  | .keyOrClose stack, .scalar (string key) => some (.colon stack [] key)
  | .key stack done, .scalar (string key) => some (.colon stack done key)
  | .colon stack done key, .colon => some (.value (.object done key :: stack))
  | .after (.array done :: stack) value, .comma => some (.value (.array (done ++ [value]) :: stack))
  | .after (.array done :: stack) value, .closeBracket =>
    some (.after stack (array (done ++ [value])))
  | .after (.object done key :: stack) value, .comma =>
    some (.key stack (setField key value done))
  | .after (.object done key :: stack) value, .closeBrace =>
    some (.after stack (object (setField key value done)))
  | _, _ => none

def parseEnd : ParseState N → Option (Json N)
  | .after [] value => some value
  | _ => none

def parseTokens : ParseState N → List (Token N) → Option (Json N)
  | state, [] => parseEnd state
  | state, token :: rest => (parseStep state token).bind fun next => parseTokens next rest

def parse (text : Text) : Option (Json N) :=
  (lex format .between text).bind (parseTokens (.value []))

end Reading

end Json
