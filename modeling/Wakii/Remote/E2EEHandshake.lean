import Mathlib.Data.List.Sort
import Wakii.Library.Base64
import Wakii.Library.JsonFields

/-!
# The handshake of the v2 end-to-end encryption

A hello and a ready are any JSON values until they are validated.  An accepted pair
has exactly the fields it must have, one context, one client nonce, and keys and
nonces of 32 bytes, each written in the one way base64 writes it.
-/

namespace Wakii.E2EE

open Json (field?)

def MOBILE_E2EE_V2_PROTOCOL : Text := Text.ofString "orca-mobile-e2ee"
def MOBILE_E2EE_V2_TRANSCRIPT_DOMAIN : Text := Text.ofString "orca-mobile-e2ee/v2/transcript"

@[ext]
structure MobileE2EEV2Context where
  protocol : Text
  initiator : Text
  responder : Text
  transport : Text
  relayHostId : Option Text
deriving DecidableEq

@[ext]
structure MobileE2EEV2Capabilities where
  framing : List ℕ
  payloadKinds : List Text
deriving DecidableEq

@[ext]
structure MobileE2EEV2Selection where
  framing : ℕ
  payloadKinds : List Text
deriving DecidableEq

@[ext]
structure MobileE2EEV2Hello where
  type : Text
  v : ℕ
  clientPublicKeyB64 : Text
  clientNonceB64 : Text
  capabilities : MobileE2EEV2Capabilities
  context : MobileE2EEV2Context
deriving DecidableEq

@[ext]
structure MobileE2EEV2Ready where
  type : Text
  v : ℕ
  desktopPublicKeyB64 : Text
  clientNonceB64 : Text
  desktopNonceB64 : Text
  selection : MobileE2EEV2Selection
  context : MobileE2EEV2Context
deriving DecidableEq

@[ext]
structure MobileE2EEV2Handshake where
  hello : MobileE2EEV2Hello
  ready : MobileE2EEV2Ready
  clientPublicKey : List Byte
  desktopPublicKey : List Byte
  clientNonce : List Byte
  desktopNonce : List Byte
deriving DecidableEq

section Checks

variable {N : Type}

def isText (value : Option (Json N)) (text : Text) : Bool :=
  match value with
  | some (.string other) => other = text
  | _ => false

def isNumber [DecidableEq N] [NatCast N] (value : Option (Json N)) (number : ℕ) : Bool :=
  match value with
  | some (.number other) => other = (number : N)
  | _ => false

def textOf (value : Option (Json N)) : Text :=
  match value with
  | some (.string text) => text
  | _ => []

/-- `===`; objects and arrays that were parsed apart are not the same. -/
def strictEquals [DecidableEq N] : Option (Json N) → Option (Json N) → Bool
  | none, none => true
  | some .null, some .null => true
  | some (.bool left), some (.bool right) => left = right
  | some (.number left), some (.number right) => left = right
  | some (.string left), some (.string right) => left = right
  | _, _ => false

/-- The fields of a record with exactly these keys. -/
def exactRecord? (value : Option (Json N)) (keys : List Text) : Option (List (Text × Json N)) :=
  match value with
  | some (.object fields) =>
    if (fields.map Prod.fst).insertionSort (· ≤ ·) = keys.insertionSort (· ≤ ·) then some fields
    else none
  | _ => none

def CONTEXT_KEYS : List Text :=
  ["protocol", "initiator", "responder", "transport"].map Text.ofString

def HELLO_KEYS : List Text :=
  ["type", "v", "clientPublicKeyB64", "clientNonceB64", "capabilities", "context"].map
    Text.ofString

def READY_KEYS : List Text :=
  ["type", "v", "desktopPublicKeyB64", "clientNonceB64", "desktopNonceB64", "selection",
    "context"].map Text.ofString

def FRAMING_KEYS : List Text := ["framing", "payloadKinds"].map Text.ofString

def isBase64UrlUnit (unit : CodeUnit) : Bool :=
  (0x41 ≤ unit.val && unit.val ≤ 0x5A) || (0x61 ≤ unit.val && unit.val ≤ 0x7A) ||
    (0x30 ≤ unit.val && unit.val ≤ 0x39) || unit = 0x5F || unit = 0x2D

/-- `BASE64URL_16_PATTERN` -/
def isBase64Url16 (text : Text) : Bool := text.length = 16 && text.all isBase64UrlUnit

def PAYLOAD_KINDS : List Text := ["text", "binary"].map Text.ofString

def isPayloadKinds (value : Option (Json N)) : Bool :=
  match value with
  | some (.array [first, second]) =>
    isText (some first) (Text.ofString "text") && isText (some second) (Text.ofString "binary")
  | _ => false

def hasExactCapabilities [DecidableEq N] [NatCast N] (value : Option (Json N)) : Bool :=
  match exactRecord? value FRAMING_KEYS with
  | none => false
  | some fields =>
    (match field? (Text.ofString "framing") fields with
      | some (.array [only]) => isNumber (some only) 2
      | _ => false) &&
    isPayloadKinds (field? (Text.ofString "payloadKinds") fields)

def hasExactSelection [DecidableEq N] [NatCast N] (value : Option (Json N)) : Bool :=
  match exactRecord? value FRAMING_KEYS with
  | none => false
  | some fields =>
    isNumber (field? (Text.ofString "framing") fields) 2 &&
    isPayloadKinds (field? (Text.ofString "payloadKinds") fields)

def transportOf (value : Option (Json N)) : Option (Json N) :=
  match value with
  | some (.object fields) => field? (Text.ofString "transport") fields
  | _ => none

def parseContext (value : Option (Json N)) : Option MobileE2EEV2Context := do
  let transport := transportOf value
  let relayed := isText transport (Text.ofString "relay")
  let keys := if relayed then CONTEXT_KEYS ++ [Text.ofString "relayHostId"] else CONTEXT_KEYS
  let fields ← exactRecord? value keys
  guard (isText (field? (Text.ofString "protocol") fields) MOBILE_E2EE_V2_PROTOCOL)
  guard (isText (field? (Text.ofString "initiator") fields) (Text.ofString "mobile"))
  guard (isText (field? (Text.ofString "responder") fields) (Text.ofString "desktop"))
  guard (isText transport (Text.ofString "direct") || relayed)
  let relayHostId := field? (Text.ofString "relayHostId") fields
  guard (!relayed || isBase64Url16 (textOf relayHostId))
  some
    { protocol := textOf (field? (Text.ofString "protocol") fields)
      initiator := textOf (field? (Text.ofString "initiator") fields)
      responder := textOf (field? (Text.ofString "responder") fields)
      transport := textOf transport
      relayHostId := relayHostId.map fun value => textOf (some value) }

def contextsEqual (left right : MobileE2EEV2Context) : Bool :=
  left.protocol = right.protocol && left.initiator = right.initiator &&
    left.responder = right.responder && left.transport = right.transport &&
    left.relayHostId = right.relayHostId

def decodeCanonicalBase64Bytes (value : Option (Json N)) (length : ℕ) : Option (List Byte) :=
  match value with
  | some (.string text) => do
    guard (text.length = (length + 2) / 3 * 4 && Base64.isBase64 text)
    let bytes ← Base64.decode? text
    if bytes.length = length ∧ Base64.encode bytes = text then some bytes else none
  | _ => none

def validateMobileE2EEV2Handshake [DecidableEq N] [NatCast N]
    (helloValue readyValue : Json N) : Option MobileE2EEV2Handshake := do
  let hello ← exactRecord? (some helloValue) HELLO_KEYS
  let ready ← exactRecord? (some readyValue) READY_KEYS
  guard (isText (field? (Text.ofString "type") hello) (Text.ofString "e2ee_hello") &&
    isNumber (field? (Text.ofString "v") hello) 2)
  guard (isText (field? (Text.ofString "type") ready) (Text.ofString "e2ee_ready") &&
    isNumber (field? (Text.ofString "v") ready) 2)
  guard (hasExactCapabilities (field? (Text.ofString "capabilities") hello) &&
    hasExactSelection (field? (Text.ofString "selection") ready))
  let helloContext ← parseContext (field? (Text.ofString "context") hello)
  let readyContext ← parseContext (field? (Text.ofString "context") ready)
  guard (contextsEqual helloContext readyContext)
  guard (strictEquals (field? (Text.ofString "clientNonceB64") ready)
    (field? (Text.ofString "clientNonceB64") hello))
  let clientPublicKey ← decodeCanonicalBase64Bytes
    (field? (Text.ofString "clientPublicKeyB64") hello) 32
  let desktopPublicKey ← decodeCanonicalBase64Bytes
    (field? (Text.ofString "desktopPublicKeyB64") ready) 32
  let clientNonce ← decodeCanonicalBase64Bytes
    (field? (Text.ofString "clientNonceB64") hello) 32
  let desktopNonce ← decodeCanonicalBase64Bytes
    (field? (Text.ofString "desktopNonceB64") ready) 32
  -- The checks leave one value for a version and for a list of literals.
  some
    { hello :=
        { type := textOf (field? (Text.ofString "type") hello)
          v := 2
          clientPublicKeyB64 := textOf (field? (Text.ofString "clientPublicKeyB64") hello)
          clientNonceB64 := textOf (field? (Text.ofString "clientNonceB64") hello)
          capabilities := ⟨[2], PAYLOAD_KINDS⟩
          context := helloContext }
      ready :=
        { type := textOf (field? (Text.ofString "type") ready)
          v := 2
          desktopPublicKeyB64 := textOf (field? (Text.ofString "desktopPublicKeyB64") ready)
          clientNonceB64 := textOf (field? (Text.ofString "clientNonceB64") ready)
          desktopNonceB64 := textOf (field? (Text.ofString "desktopNonceB64") ready)
          selection := ⟨2, PAYLOAD_KINDS⟩
          context := readyContext }
      clientPublicKey
      desktopPublicKey
      clientNonce
      desktopNonce }

variable {value : Option (Json N)}

theorem textOf_of_isText {text : Text}
    (htext : isText value text = true) : textOf value = text := by
  simp only [isText] at htext
  split at htext
  · exact of_decide_eq_true htext
  · cases htext

section

variable {keys : List Text} {fields : List (Text × Json N)}
  (hexact : exactRecord? value keys = some fields)
include hexact

theorem keys_of_exactRecord? : value = some (.object fields) ∧ (fields.map Prod.fst).Perm keys := by
  simp only [exactRecord?] at hexact
  split at hexact
  · split_ifs at hexact with hsorted
    cases hexact
    refine ⟨rfl, ?_⟩
    have hkeys := (List.perm_insertionSort (· ≤ ·) (fields.map Prod.fst)).symm
    rw [hsorted] at hkeys
    exact hkeys.trans (List.perm_insertionSort _ _)
  · cases hexact

theorem field?_of_not_key {key : Text} (hkey : key ∉ keys) : field? key fields = none :=
  Json.field?_eq_none.mpr fun hmem => hkey ((keys_of_exactRecord? hexact).2.mem_iff.mp hmem)

end

theorem decodeCanonicalBase64Bytes_eq_some {length : ℕ}
    {bytes : List Byte} : decodeCanonicalBase64Bytes value length = some bytes ↔
      bytes.length = length ∧ value = some (.string (Base64.encode bytes)) := by
  constructor
  · intro hdecoded
    simp only [decodeCanonicalBase64Bytes] at hdecoded
    split at hdecoded
    · simp only [Option.bind_eq_bind, Option.bind_eq_some_iff] at hdecoded
      obtain ⟨_, _, decoded, _, hcanonical⟩ := hdecoded
      split_ifs at hcanonical with hexact
      cases hcanonical
      rw [hexact.2]
      exact ⟨hexact.1, rfl⟩
    · cases hdecoded
  · rintro ⟨rfl, rfl⟩
    simp only [decodeCanonicalBase64Bytes, Base64.length_encode, Base64.isBase64_encode,
      Base64.decode?_encode, decide_true, Bool.and_self, guard_true, Option.bind_eq_bind,
      Option.pure_def, Option.bind_some, and_self, if_true]

/-- A context that is accepted: its parts are fixed but for the transport and the host. -/
structure AcceptedContext (context : MobileE2EEV2Context) : Prop where
  protocol : context.protocol = MOBILE_E2EE_V2_PROTOCOL
  initiator : context.initiator = Text.ofString "mobile"
  responder : context.responder = Text.ofString "desktop"
  transport : context.transport = Text.ofString "direct" ∧ context.relayHostId = none ∨
    context.transport = Text.ofString "relay" ∧
      ∃ relayHostId, context.relayHostId = some relayHostId ∧ isBase64Url16 relayHostId = true

theorem accepted_of_parseContext {context : MobileE2EEV2Context}
    (hparsed : parseContext value = some context) : AcceptedContext context := by
  simp only [parseContext, Option.bind_eq_bind, Option.bind_eq_some_iff,
    Option.guard_eq_some'] at hparsed
  obtain ⟨fields, hexact, _, hprotocol, _, hinitiator, _, hresponder, _, htransport, _, hhost,
    hcontext⟩ := hparsed
  cases hcontext
  refine ⟨textOf_of_isText hprotocol, textOf_of_isText hinitiator, textOf_of_isText hresponder, ?_⟩
  cases hrelayed : isText (transportOf value) (Text.ofString "relay") with
  | true =>
    rw [hrelayed] at hhost hexact
    refine Or.inr ⟨textOf_of_isText hrelayed, ?_⟩
    have hkey : Text.ofString "relayHostId" ∈ fields.map Prod.fst :=
      (keys_of_exactRecord? hexact).2.mem_iff.mpr (by decide)
    obtain ⟨host, hfound⟩ := Option.isSome_iff_exists.mp (Json.field?_isSome.mpr hkey)
    rw [hfound] at hhost ⊢
    exact ⟨_, rfl, hhost⟩
  | false =>
    rw [hrelayed] at htransport hexact
    refine Or.inl ⟨textOf_of_isText (by simpa using htransport), ?_⟩
    have hnone : field? (Text.ofString "relayHostId") fields = none :=
      field?_of_not_key hexact (by decide)
    rw [hnone]
    rfl

structure Accepted (handshake : MobileE2EEV2Handshake) : Prop where
  hello_type : handshake.hello.type = Text.ofString "e2ee_hello"
  hello_v : handshake.hello.v = 2
  hello_capabilities : handshake.hello.capabilities = ⟨[2], PAYLOAD_KINDS⟩
  ready_type : handshake.ready.type = Text.ofString "e2ee_ready"
  ready_v : handshake.ready.v = 2
  ready_selection : handshake.ready.selection = ⟨2, PAYLOAD_KINDS⟩
  context : AcceptedContext handshake.hello.context
  same_context : handshake.ready.context = handshake.hello.context
  same_clientNonce : handshake.ready.clientNonceB64 = handshake.hello.clientNonceB64
  clientPublicKey : handshake.clientPublicKey.length = 32 ∧
    handshake.hello.clientPublicKeyB64 = Base64.encode handshake.clientPublicKey
  desktopPublicKey : handshake.desktopPublicKey.length = 32 ∧
    handshake.ready.desktopPublicKeyB64 = Base64.encode handshake.desktopPublicKey
  clientNonce : handshake.clientNonce.length = 32 ∧
    handshake.hello.clientNonceB64 = Base64.encode handshake.clientNonce
  desktopNonce : handshake.desktopNonce.length = 32 ∧
    handshake.ready.desktopNonceB64 = Base64.encode handshake.desktopNonce

theorem contextsEqual_iff {left right : MobileE2EEV2Context} :
    contextsEqual left right = true ↔ left = right := by
  simp only [contextsEqual, Bool.and_eq_true, decide_eq_true_eq, MobileE2EEV2Context.ext_iff,
    and_assoc]

theorem textOf_of_strictEquals [DecidableEq N] {left right : Option (Json N)}
    (hequal : strictEquals left right = true) : textOf left = textOf right := by
  simp only [strictEquals] at hequal
  split at hequal
  case h_5 left right => exact of_decide_eq_true hequal
  all_goals first | rfl | cases hequal

theorem encoded_of_decoded {bytes : List Byte}
    (hdecoded : decodeCanonicalBase64Bytes value 32 = some bytes) :
    bytes.length = 32 ∧ textOf value = Base64.encode bytes := by
  obtain ⟨hlength, rfl⟩ := decodeCanonicalBase64Bytes_eq_some.mp hdecoded
  exact ⟨hlength, rfl⟩

theorem accepted_of_validate [DecidableEq N] [NatCast N] {hello ready : Json N}
    {handshake : MobileE2EEV2Handshake}
    (hvalid : validateMobileE2EEV2Handshake hello ready = some handshake) :
    Accepted handshake := by
  simp only [validateMobileE2EEV2Handshake, Option.bind_eq_bind, Option.bind_eq_some_iff,
    Option.guard_eq_some', Bool.and_eq_true] at hvalid
  obtain ⟨helloFields, _, readyFields, _, _, hhello, _, hready, _, _, helloContext, hcontext,
    readyContext, _, _, hcontexts, _, hnonces, clientPublicKey, hclientKey, desktopPublicKey,
    hdesktopKey, clientNonce, hclientNonce, desktopNonce, hdesktopNonce, hhandshake⟩ := hvalid
  cases hhandshake
  exact
    { hello_type := textOf_of_isText hhello.1
      hello_v := rfl
      hello_capabilities := rfl
      ready_type := textOf_of_isText hready.1
      ready_v := rfl
      ready_selection := rfl
      context := accepted_of_parseContext hcontext
      same_context := (contextsEqual_iff.mp hcontexts).symm
      same_clientNonce := textOf_of_strictEquals hnonces
      clientPublicKey := encoded_of_decoded hclientKey
      desktopPublicKey := encoded_of_decoded hdesktopKey
      clientNonce := encoded_of_decoded hclientNonce
      desktopNonce := encoded_of_decoded hdesktopNonce }

end Checks

end Wakii.E2EE
