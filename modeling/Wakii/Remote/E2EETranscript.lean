import Wakii.Library.JsonBytes
import Wakii.Library.LengthPrefixed
import Wakii.Remote.E2EEHandshake

/-!
# The transcript of a handshake

The keys are derived from a transcript of both messages.  Every field of it stands
behind its name and its length, and so does every item of a list, so that two
handshakes with one transcript are one handshake.
-/

namespace Wakii.E2EE

open LengthPrefixed (BelowWord SelfDelimiting block counted selfDelimiting_block
  selfDelimiting_uint32 uint32)
open Text (encodeUtf8)

def encodeNumberList (values : List ℕ) : List Byte := counted uint32 values

def encodeStringList (values : List Text) : List Byte :=
  counted (fun value => block (encodeUtf8 value)) values

def transcriptFields (handshake : MobileE2EEV2Handshake) : List (Text × List Byte) :=
  let hello := handshake.hello
  let ready := handshake.ready
  [(Text.ofString "domain", encodeUtf8 MOBILE_E2EE_V2_TRANSCRIPT_DOMAIN),
    (Text.ofString "mobile-to-desktop.type", encodeUtf8 hello.type),
    (Text.ofString "mobile-to-desktop.version", uint32 hello.v),
    (Text.ofString "mobile-to-desktop.client-public-key", handshake.clientPublicKey),
    (Text.ofString "mobile-to-desktop.client-nonce", handshake.clientNonce),
    (Text.ofString "mobile-to-desktop.capabilities.framing",
      encodeNumberList hello.capabilities.framing),
    (Text.ofString "mobile-to-desktop.capabilities.payload-kinds",
      encodeStringList hello.capabilities.payloadKinds),
    (Text.ofString "mobile-to-desktop.context.protocol", encodeUtf8 hello.context.protocol),
    (Text.ofString "mobile-to-desktop.context.initiator", encodeUtf8 hello.context.initiator),
    (Text.ofString "mobile-to-desktop.context.responder", encodeUtf8 hello.context.responder),
    (Text.ofString "mobile-to-desktop.context.transport", encodeUtf8 hello.context.transport),
    (Text.ofString "mobile-to-desktop.context.relay-host-id",
      encodeUtf8 (hello.context.relayHostId.getD [])),
    (Text.ofString "desktop-to-mobile.type", encodeUtf8 ready.type),
    (Text.ofString "desktop-to-mobile.version", uint32 ready.v),
    (Text.ofString "desktop-to-mobile.desktop-public-key", handshake.desktopPublicKey),
    (Text.ofString "desktop-to-mobile.client-nonce-echo", handshake.clientNonce),
    (Text.ofString "desktop-to-mobile.desktop-nonce", handshake.desktopNonce),
    (Text.ofString "desktop-to-mobile.selection.framing", uint32 ready.selection.framing),
    (Text.ofString "desktop-to-mobile.selection.payload-kinds",
      encodeStringList ready.selection.payloadKinds),
    (Text.ofString "desktop-to-mobile.context.protocol", encodeUtf8 ready.context.protocol),
    (Text.ofString "desktop-to-mobile.context.initiator", encodeUtf8 ready.context.initiator),
    (Text.ofString "desktop-to-mobile.context.responder", encodeUtf8 ready.context.responder),
    (Text.ofString "desktop-to-mobile.context.transport", encodeUtf8 ready.context.transport),
    (Text.ofString "desktop-to-mobile.context.relay-host-id",
      encodeUtf8 (ready.context.relayHostId.getD []))]

def encodeMobileE2EEV2Transcript (handshake : MobileE2EEV2Handshake) : List Byte :=
  (transcriptFields handshake).flatMap fun field =>
    block (encodeUtf8 field.1) ++ block field.2

/-- A text that comes back from its bytes, and that a 32-bit length can count. -/
def Writable (text : Text) : Prop :=
  Text.isWellFormed text = true ∧ BelowWord (encodeUtf8 text).length

theorem encodeUtf8_injective {left right : Text} (hleft : Writable left) (hright : Writable right)
    (heq : encodeUtf8 left = encodeUtf8 right) : left = right := by
  rw [← Text.decodeUtf8_encodeUtf8 hleft.1, heq, Text.decodeUtf8_encodeUtf8 hright.1]

theorem selfDelimiting_text : SelfDelimiting (fun value => block (encodeUtf8 value)) Writable :=
  selfDelimiting_block.comp And.right encodeUtf8_injective

theorem selfDelimiting_field :
    SelfDelimiting (fun field : Text × List Byte => block (encodeUtf8 field.1) ++ block field.2)
      fun field => Writable field.1 ∧ BelowWord field.2.length :=
  selfDelimiting_text.pair selfDelimiting_block

def isShortAscii (text : Text) : Bool :=
  text.all (fun unit => decide (unit.val < 0x80)) && decide (text.length < 0x10000)

theorem writable_of_ascii {text : Text} (htext : isShortAscii text = true) : Writable text := by
  rw [isShortAscii, Bool.and_eq_true, List.all_eq_true, decide_eq_true_eq] at htext
  obtain ⟨hunits, hshort⟩ := htext
  have hascii : ∀ unit ∈ text, unit.val < 0x80 := fun unit hunit =>
    of_decide_eq_true (hunits unit hunit)
  have hlength := Text.byteLength_ascii hascii
  rw [Text.byteLength] at hlength
  refine ⟨Text.isWellFormed_units fun unit hunit => ?_, ?_⟩
  · have hlow := hascii unit hunit
    simp only [Text.isSurrogate, Bool.and_eq_false_iff, decide_eq_false_iff_not]
    omega
  · rw [hlength, BelowWord]
    omega

structure WritableContext (context : MobileE2EEV2Context) : Prop where
  protocol : Writable context.protocol
  initiator : Writable context.initiator
  responder : Writable context.responder
  transport : Writable context.transport
  relayHostId : Writable (context.relayHostId.getD [])
  host_ne_nil : context.relayHostId ≠ some []

/-- A handshake whose texts, numbers and lists are within what the lengths can count,
and whose keys and nonces are written as they are. -/
structure WritableHandshake (handshake : MobileE2EEV2Handshake) : Prop where
  hello_type : Writable handshake.hello.type
  hello_v : BelowWord handshake.hello.v
  framing : BelowWord handshake.hello.capabilities.framing.length ∧
    ∀ version ∈ handshake.hello.capabilities.framing, BelowWord version
  hello_kinds : BelowWord handshake.hello.capabilities.payloadKinds.length ∧
    ∀ kind ∈ handshake.hello.capabilities.payloadKinds, Writable kind
  hello_context : WritableContext handshake.hello.context
  ready_type : Writable handshake.ready.type
  ready_v : BelowWord handshake.ready.v
  selected : BelowWord handshake.ready.selection.framing
  ready_kinds : BelowWord handshake.ready.selection.payloadKinds.length ∧
    ∀ kind ∈ handshake.ready.selection.payloadKinds, Writable kind
  ready_context : WritableContext handshake.ready.context
  clientPublicKey : handshake.hello.clientPublicKeyB64 = Base64.encode handshake.clientPublicKey
  desktopPublicKey : handshake.ready.desktopPublicKeyB64 = Base64.encode handshake.desktopPublicKey
  clientNonce : handshake.hello.clientNonceB64 = Base64.encode handshake.clientNonce
  clientNonceEcho : handshake.ready.clientNonceB64 = Base64.encode handshake.clientNonce
  desktopNonce : handshake.ready.desktopNonceB64 = Base64.encode handshake.desktopNonce
  values : ∀ field ∈ transcriptFields handshake, BelowWord field.2.length

theorem WritableContext.eq {left right : MobileE2EEV2Context} (hleft : WritableContext left)
    (hright : WritableContext right)
      (hprotocol : encodeUtf8 left.protocol = encodeUtf8 right.protocol)
    (hinitiator : encodeUtf8 left.initiator = encodeUtf8 right.initiator)
    (hresponder : encodeUtf8 left.responder = encodeUtf8 right.responder)
    (htransport : encodeUtf8 left.transport = encodeUtf8 right.transport)
    (hhost : encodeUtf8 (left.relayHostId.getD []) = encodeUtf8 (right.relayHostId.getD [])) :
    left = right := by
  refine MobileE2EEV2Context.ext (encodeUtf8_injective hleft.protocol hright.protocol hprotocol)
    (encodeUtf8_injective hleft.initiator hright.initiator hinitiator)
    (encodeUtf8_injective hleft.responder hright.responder hresponder)
    (encodeUtf8_injective hleft.transport hright.transport htransport) ?_
  have hread := encodeUtf8_injective hleft.relayHostId hright.relayHostId hhost
  have hleftHost := hleft.host_ne_nil
  have hrightHost := hright.host_ne_nil
  cases hl : left.relayHostId <;> cases hr : right.relayHostId <;> simp_all

theorem names_ascii (handshake : MobileE2EEV2Handshake) :
    (transcriptFields handshake).all (fun field => isShortAscii field.1) = true := by
  simp only [transcriptFields, List.all_cons, List.all_nil, Bool.and_eq_true]
  -- name by name
  and_intros <;> decide +kernel

theorem writable_names (handshake : MobileE2EEV2Handshake) :
    ∀ field ∈ transcriptFields handshake, Writable field.1 := fun field hfield =>
  writable_of_ascii (List.all_eq_true.mp (names_ascii handshake) field hfield)

section

variable {first second : MobileE2EEV2Handshake} (hfirst : WritableHandshake first)
  (hsecond : WritableHandshake second)
  (heq : encodeMobileE2EEV2Transcript first = encodeMobileE2EEV2Transcript second)
include hfirst hsecond heq

theorem transcriptFields_injective : transcriptFields first = transcriptFields second := by
  have happend : encodeMobileE2EEV2Transcript first ++ [] =
      encodeMobileE2EEV2Transcript second ++ [] := by rw [heq]
  have hlength : (transcriptFields first).length = (transcriptFields second).length := rfl
  exact (selfDelimiting_field.flatMap hlength
    (fun field hfield => ⟨writable_names first field hfield, hfirst.values field hfield⟩)
    (fun field hfield => ⟨writable_names second field hfield, hsecond.values field hfield⟩)
    happend).1

/-- The transcript binds whatever is written in it. -/
theorem transcript_injective : first = second := by
  have hfields := transcriptFields_injective hfirst hsecond heq
  simp only [transcriptFields, List.cons.injEq, Prod.mk.injEq, true_and, and_true] at hfields
  obtain ⟨hhelloType, hhelloV, hclientKey, hclientNonce, hframing, hhelloKinds, hprotocol,
    hinitiator, hresponder, htransport, hhost, hreadyType, hreadyV, hdesktopKey, -, hdesktopNonce,
    hselected, hreadyKinds, hreadyProtocol, hreadyInitiator, hreadyResponder, hreadyTransport,
    hreadyHost⟩ := hfields
  have hcapabilities : first.hello.capabilities = second.hello.capabilities :=
    MobileE2EEV2Capabilities.ext
      (selfDelimiting_uint32.counted.eq hfirst.framing hsecond.framing hframing)
      (selfDelimiting_text.counted.eq hfirst.hello_kinds hsecond.hello_kinds hhelloKinds)
  have hselection : first.ready.selection = second.ready.selection := MobileE2EEV2Selection.ext
      (LengthPrefixed.uint32_injective hfirst.selected hsecond.selected hselected)
      (selfDelimiting_text.counted.eq hfirst.ready_kinds hsecond.ready_kinds hreadyKinds)
  have hhello : first.hello = second.hello := by
    refine MobileE2EEV2Hello.ext
      (encodeUtf8_injective hfirst.hello_type hsecond.hello_type hhelloType)
      (LengthPrefixed.uint32_injective hfirst.hello_v hsecond.hello_v hhelloV) ?_ ?_ hcapabilities
      (hfirst.hello_context.eq hsecond.hello_context hprotocol hinitiator hresponder htransport
        hhost)
    · rw [hfirst.clientPublicKey, hsecond.clientPublicKey, hclientKey]
    · rw [hfirst.clientNonce, hsecond.clientNonce, hclientNonce]
  have hready : first.ready = second.ready := by
    refine MobileE2EEV2Ready.ext
      (encodeUtf8_injective hfirst.ready_type hsecond.ready_type hreadyType)
      (LengthPrefixed.uint32_injective hfirst.ready_v hsecond.ready_v hreadyV) ?_ ?_ ?_ hselection
      (hfirst.ready_context.eq hsecond.ready_context hreadyProtocol hreadyInitiator
        hreadyResponder hreadyTransport hreadyHost)
    · rw [hfirst.desktopPublicKey, hsecond.desktopPublicKey, hdesktopKey]
    · rw [hfirst.clientNonceEcho, hsecond.clientNonceEcho, hclientNonce]
    · rw [hfirst.desktopNonce, hsecond.desktopNonce, hdesktopNonce]
  exact MobileE2EEV2Handshake.ext hhello hready hclientKey hdesktopKey hclientNonce hdesktopNonce

end

theorem ascii_of_base64Url {text : Text} (htext : isBase64Url16 text = true) :
    Writable text ∧ text ≠ [] := by
  rw [isBase64Url16, Bool.and_eq_true, decide_eq_true_eq, List.all_eq_true] at htext
  constructor
  · apply writable_of_ascii
    rw [isShortAscii, Bool.and_eq_true, List.all_eq_true, decide_eq_true_eq]
    refine ⟨fun unit hunit => decide_eq_true ?_, by omega⟩
    have hclass := htext.2 unit hunit
    simp only [isBase64UrlUnit, Bool.or_eq_true, Bool.and_eq_true, decide_eq_true_eq,
      Fin.ext_iff] at hclass
    change _ ∨ unit.val = 0x2D at hclass
    omega
  · intro hnil
    rw [hnil] at htext
    exact absurd htext.1 (by decide)

theorem writable_context {context : MobileE2EEV2Context} (haccepted : AcceptedContext context) :
    WritableContext context := by
  obtain ⟨hprotocol, hinitiator, hresponder, htransport⟩ := haccepted
  have hnone : Writable [] := writable_of_ascii rfl
  refine ⟨?_, ?_, ?_, ?_, ?_, ?_⟩
  · rw [hprotocol]
    exact writable_of_ascii rfl
  · rw [hinitiator]
    exact writable_of_ascii rfl
  · rw [hresponder]
    exact writable_of_ascii rfl
  · rcases htransport with ⟨hdirect, -⟩ | ⟨hrelay, -⟩
    · rw [hdirect]
      exact writable_of_ascii rfl
    · rw [hrelay]
      exact writable_of_ascii rfl
  · rcases htransport with ⟨-, hhost⟩ | ⟨-, host, hhost, hclass⟩
    · rw [hhost]
      exact hnone
    · rw [hhost]
      exact (ascii_of_base64Url hclass).1
  · rcases htransport with ⟨-, hhost⟩ | ⟨-, host, hhost, hclass⟩
    · rw [hhost]
      exact (by rintro ⟨⟩)
    · rw [hhost]
      exact fun heq => (ascii_of_base64Url hclass).2 (Option.some.inj heq)

theorem writable_kinds : BelowWord PAYLOAD_KINDS.length ∧
    ∀ kind ∈ PAYLOAD_KINDS, Writable kind := by
  have hascii : PAYLOAD_KINDS.all isShortAscii = true := rfl
  exact ⟨by decide, fun kind hkind => writable_of_ascii (List.all_eq_true.mp hascii kind hkind)⟩

theorem values_belowWord {handshake : MobileE2EEV2Handshake} (haccepted : Accepted handshake) :
    ∀ field ∈ transcriptFields handshake, BelowWord field.2.length := by
  have hhello := writable_context haccepted.context
  have hready : WritableContext handshake.ready.context := by
    rw [haccepted.same_context]
    exact hhello
  have hkey : BelowWord 32 := by decide
  have hword (value : ℕ) : BelowWord (uint32 value).length := by
    change BelowWord 4
    decide
  simp only [transcriptFields, List.forall_mem_cons, haccepted.hello_type,
    haccepted.hello_capabilities, haccepted.ready_type, haccepted.ready_selection,
    haccepted.clientPublicKey.1, haccepted.desktopPublicKey.1, haccepted.clientNonce.1,
    haccepted.desktopNonce.1]
  refine ⟨by decide, by decide, hword _, hkey, hkey, by decide, by decide, hhello.protocol.2,
    hhello.initiator.2, hhello.responder.2, hhello.transport.2, hhello.relayHostId.2, by decide,
    hword _, hkey, hkey, hkey, hword _, by decide, hready.protocol.2, hready.initiator.2,
    hready.responder.2, hready.transport.2, hready.relayHostId.2, ?_⟩
  exact fun field hfield => absurd hfield List.not_mem_nil

/-- What is accepted is within what the transcript can tell apart. -/
theorem writable_of_accepted {handshake : MobileE2EEV2Handshake}
    (haccepted : Accepted handshake) : WritableHandshake handshake where
  hello_type := by
    rw [haccepted.hello_type]
    exact writable_of_ascii rfl
  hello_v := by
    rw [haccepted.hello_v]
    decide
  framing := by
    rw [haccepted.hello_capabilities]
    decide
  hello_kinds := by
    rw [haccepted.hello_capabilities]
    exact writable_kinds
  hello_context := writable_context haccepted.context
  ready_type := by
    rw [haccepted.ready_type]
    exact writable_of_ascii rfl
  ready_v := by
    rw [haccepted.ready_v]
    decide
  selected := by
    rw [haccepted.ready_selection]
    decide
  ready_kinds := by
    rw [haccepted.ready_selection]
    exact writable_kinds
  ready_context := by
    rw [haccepted.same_context]
    exact writable_context haccepted.context
  clientPublicKey := haccepted.clientPublicKey.2
  desktopPublicKey := haccepted.desktopPublicKey.2
  clientNonce := haccepted.clientNonce.2
  clientNonceEcho := haccepted.same_clientNonce.trans haccepted.clientNonce.2
  desktopNonce := haccepted.desktopNonce.2
  values := values_belowWord haccepted

/-- A text is the one encoding of bytes that are 32, and no other bytes have it. -/
def EncodesKey (text : Text) (bytes : List Byte) : Prop :=
  bytes.length = 32 ∧ Base64.encode bytes = text ∧
    ∀ other : List Byte, other.length = 32 → Base64.encode other = text → other = bytes

theorem encodesKey_of_encode {text : Text} {bytes : List Byte}
    (hencoded : bytes.length = 32 ∧ text = Base64.encode bytes) : EncodesKey text bytes := by
  refine ⟨hencoded.1, hencoded.2.symm, fun other _ hother => ?_⟩
  exact Base64.encode_injective (hother.trans hencoded.2)

/-- The transcript of an accepted handshake determines both of its messages. -/
theorem transcript_binds_handshake {N : Type} [DecidableEq N] [NatCast N] :
    (∀ (hello₁ ready₁ hello₂ ready₂ : Json N) (first second : MobileE2EEV2Handshake),
      validateMobileE2EEV2Handshake hello₁ ready₁ = some first →
      validateMobileE2EEV2Handshake hello₂ ready₂ = some second →
      encodeMobileE2EEV2Transcript first = encodeMobileE2EEV2Transcript second →
      first.hello = second.hello ∧ first.ready = second.ready) ∧
    ∀ (hello ready : Json N) (handshake : MobileE2EEV2Handshake),
      validateMobileE2EEV2Handshake hello ready = some handshake →
      handshake.hello.context = handshake.ready.context ∧
      handshake.hello.clientNonceB64 = handshake.ready.clientNonceB64 ∧
      EncodesKey handshake.hello.clientPublicKeyB64 handshake.clientPublicKey ∧
      EncodesKey handshake.hello.clientNonceB64 handshake.clientNonce ∧
      EncodesKey handshake.ready.desktopPublicKeyB64 handshake.desktopPublicKey ∧
      EncodesKey handshake.ready.clientNonceB64 handshake.clientNonce ∧
      EncodesKey handshake.ready.desktopNonceB64 handshake.desktopNonce := by
  constructor
  · intro hello₁ ready₁ hello₂ ready₂ first second hfirst hsecond heq
    have hboth := transcript_injective (writable_of_accepted (accepted_of_validate hfirst))
      (writable_of_accepted (accepted_of_validate hsecond)) heq
    rw [hboth]
    exact ⟨rfl, rfl⟩
  · intro hello ready handshake hvalid
    have haccepted := accepted_of_validate hvalid
    refine ⟨haccepted.same_context.symm, haccepted.same_clientNonce.symm,
      encodesKey_of_encode haccepted.clientPublicKey, encodesKey_of_encode haccepted.clientNonce,
      encodesKey_of_encode haccepted.desktopPublicKey, ?_,
      encodesKey_of_encode haccepted.desktopNonce⟩
    rw [haccepted.same_clientNonce]
    exact encodesKey_of_encode haccepted.clientNonce

section Fixture

def contextFixture : Json ℕ := .object [(Text.ofString "protocol", .string MOBILE_E2EE_V2_PROTOCOL),
    (Text.ofString "initiator", .string (Text.ofString "mobile")),
    (Text.ofString "responder", .string (Text.ofString "desktop")),
    (Text.ofString "transport", .string (Text.ofString "relay")),
    (Text.ofString "relayHostId", .string (Text.ofString "AbCdEf0123_-xyZ9"))]

def repeatedByteBase64 (byte : Byte) : Json ℕ := .string (Base64.encode (List.replicate 32 byte))

def helloFixture : List (Text × Json ℕ) :=
  [(Text.ofString "type", .string (Text.ofString "e2ee_hello")), (Text.ofString "v", .number 2),
    (Text.ofString "clientPublicKeyB64", repeatedByteBase64 1),
    (Text.ofString "clientNonceB64", repeatedByteBase64 2),
    (Text.ofString "capabilities", .object [(Text.ofString "framing", .array [.number 2]),
        (Text.ofString "payloadKinds", .array (PAYLOAD_KINDS.map .string))]),
    (Text.ofString "context", contextFixture)]

def readyFixture : List (Text × Json ℕ) :=
  [(Text.ofString "type", .string (Text.ofString "e2ee_ready")), (Text.ofString "v", .number 2),
    (Text.ofString "desktopPublicKeyB64", repeatedByteBase64 3),
    (Text.ofString "clientNonceB64", repeatedByteBase64 2),
    (Text.ofString "desktopNonceB64", repeatedByteBase64 4),
    (Text.ofString "selection", .object [(Text.ofString "framing", .number 2),
        (Text.ofString "payloadKinds", .array (PAYLOAD_KINDS.map .string))]),
    (Text.ofString "context", contextFixture)]

/-- The fields of a message may come in another order. -/
theorem transcript_binds_reordered : ∃ first second : MobileE2EEV2Handshake,
    (validateMobileE2EEV2Handshake (.object helloFixture) (.object readyFixture) = some first ∧
      validateMobileE2EEV2Handshake (.object helloFixture.reverse) (.object readyFixture.reverse) =
        some second) ∧
    (first.hello = second.hello ∧ first.ready = second.ready) ∧
    EncodesKey first.hello.clientNonceB64 first.clientNonce := by
  have hfirst : ∃ handshake, validateMobileE2EEV2Handshake (.object helloFixture)
      (.object readyFixture) = some handshake := Option.isSome_iff_exists.mp (by decide +kernel)
  have hsecond : ∃ handshake, validateMobileE2EEV2Handshake (.object helloFixture.reverse)
      (.object readyFixture.reverse) = some handshake :=
    Option.isSome_iff_exists.mp (by decide +kernel)
  obtain ⟨first, hfirst⟩ := hfirst
  obtain ⟨second, hsecond⟩ := hsecond
  have hboth : validateMobileE2EEV2Handshake (.object helloFixture) (.object readyFixture) =
      validateMobileE2EEV2Handshake (.object helloFixture.reverse)
        (.object readyFixture.reverse) := by
    decide +kernel
  have hsame : first = second := by
    rw [hfirst, hsecond] at hboth
    exact Option.some.inj hboth
  exact ⟨first, second, ⟨hfirst, hsecond⟩,
    transcript_binds_handshake.1 _ _ _ _ first second hfirst hsecond (by rw [hsame]),
    (transcript_binds_handshake.2 _ _ first hfirst).2.2.2.1⟩

end Fixture

end Wakii.E2EE
