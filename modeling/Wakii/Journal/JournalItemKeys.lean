import Wakii.Library.JsonRoundTrip
import Wakii.Library.UriComponent

/-!
# Keys of journal items, over all strings

An item is addressed by its percent-encoded components.  An oversized or
ill-formed one is replaced by a bounded form, and one that only reads like a
bounded form is tagged.  A key read back keeps what it was read from where its
components do not tell.
-/

namespace Wakii.JournalItemKeys

open Json (decimalFormat isDigit)
open UriComponent

inductive AgentJournalItemIdentity where
  | codex (threadId turnId : Text) (ordinal : ℕ)
  | claude (sessionId uuid : Text)
  | orca (clientMessageId : Text)
  | legacy (agent sessionId recordId : Text)
deriving DecidableEq

/-- An identity, with the key it was read from where it keeps it. -/
structure ParsedJournalItemIdentity where
  identity : AgentJournalItemIdentity
  parsedJournalItemKey : Option Text
deriving DecidableEq

def keyDelimiter : CodeUnit := 0x3A
def tilde : CodeUnit := 0x7E
def replacement : CodeUnit := 0xFFFD

def maxJournalKeyComponentChars : ℕ := 1024

def hasLoneSurrogate : Text → Bool
  | [] => false
  | unit :: rest =>
    if Text.isHigh unit.val then
      match rest with
      | [] => true
      | next :: after => if Text.isLow next.val then hasLoneSurrogate after else true
    else if Text.isLow unit.val then true
    else hasLoneSurrogate rest

def fnv1a32 (value : Text) (seed : ℕ) : ℕ :=
  value.foldl (fun hash unit => (hash ^^^ unit.val) * 0x01000193 % 2 ^ 32) seed

def hex32 (value : ℕ) : Text :=
  (List.range 8).reverse.map fun place => Json.hexDigit (value / 16 ^ place % 16)

/-- A head of so many units, without a cut pair and with lone surrogates replaced. -/
def wellFormedBoundedHead : Text → ℕ → Text
  | [], _ => []
  | _, 0 => []
  | unit :: rest, maxUnits + 1 =>
    if Text.isHigh unit.val then
      match rest with
      | [] => [replacement]
      | next :: after =>
        if Text.isLow next.val then
          match maxUnits with
          | 0 => []
          | further + 1 => unit :: next :: wellFormedBoundedHead after further
        else replacement :: wellFormedBoundedHead rest maxUnits
    else
      (if Text.isLow unit.val then replacement else unit) :: wellFormedBoundedHead rest maxUnits

def oversizedTag : Text := Text.ofString "~orca-oversized~"

/-- What stands for a component that is not kept as it is. -/
def boundedForm (value : Text) : Text :=
  wellFormedBoundedHead value 40 ++ (oversizedTag ++ (decimalFormat.text value.length ++
    tilde :: (hex32 (fnv1a32 value 0x811c9dc5) ++ hex32 (fnv1a32 value 0x01000193))))

def boundJournalKeyComponent (value : Text) : Text :=
  if value.length ≤ maxJournalKeyComponentChars ∧ hasLoneSurrogate value = false then value
  else boundedForm value

def isLowerHex (unit : CodeUnit) : Bool :=
  isDigit unit || (0x61 ≤ unit.val && unit.val ≤ 0x66)

/-- `(?:[1-9]\d*)~[0-9a-f]{16}$` -/
def isOversizedEnd (text : Text) : Bool :=
  let digits := text.takeWhile isDigit
  let rest := text.dropWhile isDigit
  digits ≠ [] && digits.head? ≠ some 0x30 && rest.head? = some tilde &&
    rest.tail.length = 16 && rest.tail.all isLowerHex

def isBoundedComponentRepresentation (value : Text) : Bool :=
  (List.range 41).any fun place =>
    place ≤ value.length && oversizedTag.isPrefixOf (value.drop place) &&
      isOversizedEnd ((value.drop place).drop oversizedTag.length)

/-- `%FF` is not valid UTF-8, so no encoded component starts with it. -/
def verbatimBoundedComponentTag : Text := Text.ofString "%FF"

def encodePart (raw : Text) : Option Text :=
  let bounded := boundJournalKeyComponent raw
  (encodeURIComponent bounded).map fun encoded =>
    if raw = bounded ∧ isBoundedComponentRepresentation raw then
      verbatimBoundedComponentTag ++ encoded
    else encoded

def joinKey (provider : Text) (parts : List Text) : Option Text :=
  (parts.mapM encodePart).map fun encoded => [keyDelimiter].intercalate (provider :: encoded)

def codexProvider : Text := Text.ofString "codex"
def claudeProvider : Text := Text.ofString "claude"
def orcaProvider : Text := Text.ofString "orca"
def legacyProvider : Text := Text.ofString "legacy"

/-- Keys of parsed identities keep addressing what they addressed. -/
def agentJournalItemKey (parsed : ParsedJournalItemIdentity) : Option Text :=
  match parsed.parsedJournalItemKey, parsed.identity with
  | some key, _ => some key
  | none, .codex threadId turnId ordinal =>
    joinKey codexProvider [threadId, turnId, decimalFormat.text ordinal]
  | none, .claude sessionId uuid => joinKey claudeProvider [sessionId, uuid]
  | none, .orca clientMessageId => joinKey orcaProvider [clientMessageId]
  | none, .legacy agent sessionId recordId => joinKey legacyProvider [agent, sessionId, recordId]

def decodePart (part : Text) : Option (Text × Bool) :=
  let tagged := verbatimBoundedComponentTag.isPrefixOf part
  (decodeURIComponent (if tagged then part.drop verbatimBoundedComponentTag.length else part)).bind
    fun value =>
      if tagged = false ∨ isBoundedComponentRepresentation value then some (value, tagged) else none

def maxSafeInteger : ℕ := 2 ^ 53 - 1

/-- `Number(text)`, where that is a safe integer that is not negative. -/
structure OrdinalReader where
  read : Text → Option ℕ
  read_decimal : ∀ ordinal ≤ maxSafeInteger, read (decimalFormat.text ordinal) = some ordinal

def identityOf (reader : OrdinalReader) (provider : Text) (rest : List Text) :
    Option AgentJournalItemIdentity :=
  if provider = codexProvider then
    match rest with
    | [threadId, turnId, ordinal] => (reader.read ordinal).map (.codex threadId turnId)
    | _ => none
  else if provider = claudeProvider then
    match rest with
    | [sessionId, uuid] => some (.claude sessionId uuid)
    | _ => none
  else if provider = orcaProvider then
    match rest with
    | [clientMessageId] => some (.orca clientMessageId)
    | _ => none
  else if provider = legacyProvider then
    match rest with
    | [agent, sessionId, recordId] => some (.legacy agent sessionId recordId)
    | _ => none
  else none

def parseAgentJournalItemKey (reader : OrdinalReader) (key : Text) :
    Option ParsedJournalItemIdentity :=
  ((key.splitOn keyDelimiter).mapM decodePart).bind fun parts =>
    let preserveExactKey := parts.any fun part => part.2 || isBoundedComponentRepresentation part.1
    match parts.map Prod.fst with
    | [] => none
    | provider :: rest =>
      (identityOf reader provider rest).map fun identity =>
        ⟨identity, if preserveExactKey then some key else none⟩

end Wakii.JournalItemKeys
