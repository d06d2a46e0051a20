import Wakii.Library.Utf8
import Wakii.Remote.E2EEFraming

/-!
# The two sessions of a v2 connection

The paired client and the desktop hold the same key schedule, count their
outbound and inbound frames, and expect the peer's next frame only.  Text frames
travel as base64.  An adversary between them delivers whatever it likes.
-/

namespace Wakii.E2EE

inductive SessionRole where
  | mobile
  | desktop
deriving DecidableEq

namespace SessionRole

def peer : SessionRole → SessionRole
  | mobile => desktop
  | desktop => mobile

def direction : SessionRole → MobileE2EEDirection
  | mobile => .mobileToDesktop
  | desktop => .desktopToMobile

theorem direction_injective {first second : SessionRole}
    (hsame : first.direction = second.direction) : first = second := by
  cases first <;> cases second <;> first | rfl | cases hsame

end SessionRole

structure KeySchedule where
  mobileToDesktopKey : List Byte
  desktopToMobileKey : List Byte
  sessionId : List Byte
deriving DecidableEq

def KeySchedule.key (schedule : KeySchedule) : MobileE2EEDirection → List Byte
  | .mobileToDesktop => schedule.mobileToDesktopKey
  | .desktopToMobile => schedule.desktopToMobileKey

/-- `null` stands for a schedule before `e2ee_ready` was accepted. -/
structure Session where
  role : SessionRole
  schedule : Option KeySchedule
  inboundCounter : ℕ
  outboundCounter : ℕ
deriving DecidableEq

/-- The platform's base64, of which only canonical padded text decodes. -/
structure Base64Codec where
  encode : List Byte → List Char
  decodeCanonical : List Char → Option (List Byte)
  decodeCanonical_encode : ∀ bytes, decodeCanonical (encode bytes) = some bytes

structure Primitives where
  base64 : Base64Codec
  decodeUtf8 : Option (List Byte → Text)

def REMOTE_RUNTIME_MAX_OUTBOUND_JSON_BYTES : ℕ := 4 * 1024 * 1024
def MOBILE_E2EE_V2_FRAME_OVERHEAD_BYTES : ℕ := 82

/-- `Math.ceil((bytes + overhead) / 3) * 4` -/
def MAX_MOBILE_E2EE_V2_TEXT_FRAME_BASE64_CHARACTERS : ℕ :=
  (REMOTE_RUNTIME_MAX_OUTBOUND_JSON_BYTES + MOBILE_E2EE_V2_FRAME_OVERHEAD_BYTES + 2) / 3 * 4

/-- `new TextDecoder().decode(bytes)`, which drops a byte order mark. -/
def textDecoder (bytes : List Byte) : Text :=
  Text.decodeUtf8 (if bytes.take 3 = [0xEF, 0xBB, 0xBF] then bytes.drop 3 else bytes)

def frameContext (schedule : KeySchedule) (direction : MobileE2EEDirection)
    (payloadKind : MobileE2EEPayloadKind) (counter : ℕ) : FrameContext :=
  ⟨schedule.sessionId, direction, payloadKind, counter⟩

namespace Session

def countOutbound (session : Session) : Session :=
  { session with outboundCounter := session.outboundCounter + 1 }

def countInbound (session : Session) : Session :=
  { session with inboundCounter := session.inboundCounter + 1 }

variable (secretbox : Secretbox) (primitives : Primitives)

def sealPayload (session : Session) (plaintext : List Byte) (payloadKind : MobileE2EEPayloadKind) :
    Except E2EEError (List Byte × Session) :=
  match session.schedule with
  | none => .error .notReady
  | some schedule =>
    (sealMobileE2EEV2Frame secretbox plaintext (schedule.key session.role.direction)
      (frameContext schedule session.role.direction payloadKind session.outboundCounter)).map
        fun frame => (frame, session.countOutbound)

def openFrame (session : Session) (frame : List Byte) (payloadKind : MobileE2EEPayloadKind) :
    Except E2EEError (Option (List Byte) × Session) :=
  match session.schedule with
  | none => .ok (none, session)
  | some schedule =>
    (openMobileE2EEV2Frame secretbox frame (schedule.key session.role.peer.direction)
      (frameContext schedule session.role.peer.direction payloadKind
        session.inboundCounter)).map fun plaintext =>
          (plaintext, if plaintext.isSome then session.countInbound else session)

/-- The desktop also bounds the encoded length. -/
def decodeCanonicalBase64 (session : Session) (frameB64 : List Char) : Option (List Byte) :=
  match session.role with
  | .mobile => primitives.base64.decodeCanonical frameB64
  | .desktop =>
    if MAX_MOBILE_E2EE_V2_TEXT_FRAME_BASE64_CHARACTERS < frameB64.length then none
    else primitives.base64.decodeCanonical frameB64

/-- The desktop has no override of `TextDecoder`. -/
def decodeText (session : Session) (plaintext : List Byte) : Text :=
  match session.role, primitives.decodeUtf8 with
  | .mobile, some decodeUtf8 => decodeUtf8 plaintext
  | _, _ => textDecoder plaintext

def openText (session : Session) (frameB64 : List Char) :
    Except E2EEError (Option Text × Session) :=
  match session.decodeCanonicalBase64 primitives frameB64 with
  | none => .ok (none, session)
  | some frame =>
    (session.openFrame secretbox frame .text).map fun result =>
      (result.1.map (session.decodeText primitives), result.2)

def openBinary (session : Session) (frame : List Byte) :
    Except E2EEError (Option (List Byte) × Session) :=
  session.openFrame secretbox frame .binary

def sealText (session : Session) (plaintext : Text) : Except E2EEError (List Char × Session) :=
  (session.sealPayload secretbox (Text.encodeUtf8 plaintext) .text).map fun result =>
    (primitives.base64.encode result.1, result.2)

def sealBinary (session : Session) (plaintext : List Byte) :
    Except E2EEError (List Byte × Session) :=
  session.sealPayload secretbox plaintext .binary

end Session

structure SealCall where
  plaintext : List Byte
  nonce : List Byte
  key : List Byte
deriving DecidableEq

abbrev Payload := MobileE2EEPayloadKind × List Byte

structure Connection where
  session : SessionRole → Session
  sealCalls : List SealCall
  sent : SessionRole → List Payload
  frames : SessionRole → List (MobileE2EEPayloadKind × List Byte)
  accepted : SessionRole → List Payload

/-- Calls of the two sessions; what is opened comes from the adversary. -/
inductive ConnectionStep where
  | sealText (role : SessionRole) (plaintext : Text)
  | sealBinary (role : SessionRole) (plaintext : List Byte)
  | openText (role : SessionRole) (frameB64 : List Char)
  | openBinary (role : SessionRole) (frame : List Byte)

namespace Connection

variable (secretbox : Secretbox) (primitives : Primitives)

def start (schedule : KeySchedule) : Connection where
  session role := ⟨role, some schedule, 0, 0⟩
  sealCalls := []
  sent _ := []
  frames _ := []
  accepted _ := []

def sealCall (schedule : KeySchedule) (role : SessionRole) (counter : ℕ) (payload : Payload) :
    SealCall :=
  let context := frameContext schedule role.direction payload.1 counter
  ⟨encodeHeader context ++ payload.2, encodeNonce context, schedule.key role.direction⟩

def sealPayload (connection : Connection) (role : SessionRole) (payload : Payload) : Connection :=
  let session := connection.session role
  match session.schedule, session.sealPayload secretbox payload.2 payload.1 with
  | some schedule, .ok (frame, next) =>
    { connection with
      session := Function.update connection.session role next
      sealCalls := connection.sealCalls ++ [sealCall schedule role session.outboundCounter payload]
      sent := Function.update connection.sent role (connection.sent role ++ [payload])
      frames := Function.update connection.frames role
        (connection.frames role ++ [(payload.1, frame)]) }
  | _, _ => connection

def openFrame (connection : Connection) (role : SessionRole) (payloadKind : MobileE2EEPayloadKind)
    (frame : List Byte) : Connection :=
  match (connection.session role).openFrame secretbox frame payloadKind with
  | .ok (some payload, next) =>
    { connection with
      session := Function.update connection.session role next
      accepted := Function.update connection.accepted role
        (connection.accepted role ++ [(payloadKind, payload)]) }
  | .ok (none, next) =>
    { connection with session := Function.update connection.session role next }
  | .error _ => connection

def opened (connection : Connection) :
    ConnectionStep → Option (SessionRole × MobileE2EEPayloadKind × List Byte)
  | .openText role frameB64 =>
    ((connection.session role).decodeCanonicalBase64 primitives frameB64).map
      fun frame => (role, .text, frame)
  | .openBinary role frame => some (role, .binary, frame)
  | _ => none

def step (connection : Connection) : ConnectionStep → Connection
  | .sealText role plaintext =>
    connection.sealPayload secretbox role (.text, Text.encodeUtf8 plaintext)
  | .sealBinary role plaintext => connection.sealPayload secretbox role (.binary, plaintext)
  | received =>
    match connection.opened primitives received with
    | some (role, payloadKind, frame) => connection.openFrame secretbox role payloadKind frame
    | none => connection

/-- A sealed frame comes in as its kind. -/
def arrival (role : SessionRole) : MobileE2EEPayloadKind × List Byte → ConnectionStep
  | (.text, frame) => .openText role (primitives.base64.encode frame)
  | (.binary, frame) => .openBinary role frame

/-- The desktop takes a text frame only within its bound. -/
def Fits (role : SessionRole) (frame : MobileE2EEPayloadKind × List Byte) : Prop :=
  role = .desktop → frame.1 = .text → (primitives.base64.encode frame.2).length ≤
    MAX_MOBILE_E2EE_V2_TEXT_FRAME_BASE64_CHARACTERS

/-- A box that opens for the receiver was sealed under that key and nonce. -/
def Authentic (connection : Connection) (role : SessionRole)
    (payloadKind : MobileE2EEPayloadKind) (frame : List Byte) : Prop :=
  ∀ schedule ∈ (connection.session role).schedule,
    ∀ plaintext ∈ secretbox.openBox (frame.drop NONCE_LENGTH)
        (encodeNonce (frameContext schedule role.peer.direction payloadKind
          (connection.session role).inboundCounter))
        (schedule.key role.peer.direction),
      (⟨plaintext, encodeNonce (frameContext schedule role.peer.direction payloadKind
        (connection.session role).inboundCounter), schedule.key role.peer.direction⟩ : SealCall) ∈
          connection.sealCalls

instance (connection : Connection) (role : SessionRole) (payloadKind : MobileE2EEPayloadKind)
    (frame : List Byte) : Decidable (connection.Authentic secretbox role payloadKind frame) :=
  inferInstanceAs (Decidable (∀ schedule ∈ (connection.session role).schedule, _))

/-- In every step of a run the secretbox opens sealed boxes only. -/
def AuthenticRun (connection : Connection) : List ConnectionStep → Prop
  | [] => True
  | next :: rest =>
    (∀ opened ∈ connection.opened primitives next,
      connection.Authentic secretbox opened.1 opened.2.1 opened.2.2) ∧
    AuthenticRun (connection.step secretbox primitives next) rest

instance decidableAuthenticRun (connection : Connection) :
    (steps : List ConnectionStep) → Decidable (connection.AuthenticRun secretbox primitives steps)
  | [] => isTrue trivial
  | next :: rest =>
    have := decidableAuthenticRun (connection.step secretbox primitives next) rest
    inferInstanceAs (Decidable (_ ∧ _))

def run (connection : Connection) : List ConnectionStep → Connection
  | [] => connection
  | next :: rest => run (connection.step secretbox primitives next) rest

end Connection

end Wakii.E2EE
