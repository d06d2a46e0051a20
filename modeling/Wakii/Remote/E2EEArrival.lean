import Wakii.Library.Base64
import Wakii.Remote.E2EEDelivery

/-!
# What was sealed arrives

Nothing that came before keeps a side from accepting the frames it has not
accepted yet, in their order, and a text comes out of its frame as it was written.
-/

namespace Wakii.E2EE

open Function List

section Outstanding

variable {secretbox : Secretbox} {primitives : Primitives} {schedule : KeySchedule}
  {role : SessionRole} {session next : Session} {text : Text} {frameB64 : List Char}

/-- The frames that a side has not accepted yet come in, in their order and each as its kind. -/
def Connection.deliver (secretbox : Secretbox) (primitives : Primitives) (role : SessionRole)
    (connection : Connection) : Connection :=
  connection.run secretbox primitives
    (((connection.frames role.peer).drop (connection.accepted role).length).map
      (Connection.arrival primitives role))

theorem Consistent.session_eq {connection : Connection}
    (hconsistent : Consistent secretbox schedule connection) (role : SessionRole) :
    connection.session role = ⟨role, some schedule, (connection.session role).inboundCounter,
      (connection.session role).outboundCounter⟩ := by
  have hrole := hconsistent.roles role
  have hkeyed := hconsistent.keyed role
  generalize connection.session role = session at *
  cases session
  cases hrole
  cases hkeyed
  rfl

theorem openFrame_frameOf (hkey : (schedule.key role.peer.direction).length = KEY_LENGTH)
    (hsession : schedule.sessionId.length = SESSION_ID_LENGTH) {counter outbound : ℕ}
    (hcounter : counter ≤ MAX_COUNTER) (payload : Payload) :
    Session.openFrame secretbox ⟨role, some schedule, counter, outbound⟩
        (frameOf secretbox schedule role.peer counter payload) payload.1 =
      .ok (some payload.2, ⟨role, some schedule, counter + 1, outbound⟩) := by
  have hopened : openExpected secretbox (frameOf secretbox schedule role.peer counter payload)
      (schedule.key role.peer.direction)
      (frameContext schedule role.peer.direction payload.1 counter) = some payload.2 :=
    openExpected_sealed hsession
  change Except.map _ (Except.map _ (validateFrameInputs (schedule.key role.peer.direction)
    schedule.sessionId counter)) = _
  rw [validateFrameInputs_eq_ok hkey hsession hcounter]
  simp only [Except.map, hopened]
  rfl

theorem length_frameOf (hsession : schedule.sessionId.length = SESSION_ID_LENGTH) (counter : ℕ)
    (payload : Payload) : (frameOf secretbox schedule role counter payload).length =
      payload.2.length + MOBILE_E2EE_V2_FRAME_OVERHEAD_BYTES := by
  let context := frameContext schedule role.direction payload.1 counter
  have hnonce : (encodeNonce context).length = NONCE_LENGTH := length_encodeNonce hsession
  have hheader : (encodeHeader context).length = HEADER_LENGTH := length_encodeHeader hsession
  change (encodeNonce context ++ secretbox.sealBox (encodeHeader context ++ payload.2) _ _).length
    = _
  rw [length_append, secretbox.length_sealBox, length_append, hnonce, hheader, NONCE_LENGTH,
    OVERHEAD_LENGTH, HEADER_LENGTH, SESSION_ID_LENGTH, MOBILE_E2EE_V2_FRAME_OVERHEAD_BYTES]
  omega

theorem accepted_run_arrival (hkey : (schedule.key role.peer.direction).length = KEY_LENGTH)
    (hsession : schedule.sessionId.length = SESSION_ID_LENGTH) {payloads : List Payload}
    {connection : Connection} {counter outbound : ℕ}
    (hrole : connection.session role = ⟨role, some schedule, counter, outbound⟩)
    (hcounter : counter + payloads.length ≤ MAX_COUNTER + 1)
    (hfits : ∀ payload ∈ payloads, ∀ sealedAt, Connection.Fits primitives role
      (payload.1, frameOf secretbox schedule role.peer sealedAt payload)) :
    (connection.run secretbox primitives ((payloads.mapIdx fun index payload => (payload.1,
        frameOf secretbox schedule role.peer (index + counter) payload)).map
      (Connection.arrival primitives role))).accepted role =
        connection.accepted role ++ payloads := by
  induction payloads generalizing connection counter with
  | nil => exact (append_nil _).symm
  | cons payload later ih =>
    rw [length_cons] at hcounter
    have hopened := @openFrame_frameOf secretbox _ _ hkey hsession counter outbound (by omega)
      payload
    rw [mapIdx_cons, map_cons, Nat.zero_add, Connection.run,
      step_arrival primitives (by rw [hrole]) (hfits payload mem_cons_self counter),
        Connection.openFrame,
      hrole, hopened]
    simp only [Nat.add_assoc, Nat.add_comm 1]
    rw [ih (update_self _ _ _) (by omega) fun other hother =>
      hfits other (mem_cons_of_mem _ hother)]
    simp

/-- Within the limit of what is sent a text's frame is within the desktop's bound. -/
theorem length_encode_frameOf (hsession : schedule.sessionId.length = SESSION_ID_LENGTH)
    (hencode : ∀ bytes, (primitives.base64.encode bytes).length ≤ (bytes.length + 2) / 3 * 4)
    {payload : Payload} (hlimit : payload.2.length ≤ REMOTE_RUNTIME_MAX_OUTBOUND_JSON_BYTES)
    (counter : ℕ) :
    (primitives.base64.encode (frameOf secretbox schedule role counter payload)).length ≤
      MAX_MOBILE_E2EE_V2_TEXT_FRAME_BASE64_CHARACTERS := by
  refine (hencode _).trans ?_
  rw [length_frameOf hsession]
  unfold MAX_MOBILE_E2EE_V2_TEXT_FRAME_BASE64_CHARACTERS
  omega

/-- Whatever was tried before, a side accepts all that its peer sealed once the outstanding
frames come in, the desktop where no text was too long to be sent. -/
theorem outstanding_frames_arrive (secretbox : Secretbox) (primitives : Primitives)
    (schedule : KeySchedule) {steps : List ConnectionStep}
    (hauthentic : (Connection.start schedule).AuthenticRun secretbox primitives steps)
    (hencode : ∀ bytes, (primitives.base64.encode bytes).length ≤ (bytes.length + 2) / 3 * 4)
    (role : SessionRole) :
    let connection := (Connection.start schedule).run secretbox primitives steps
    (role = .desktop → ∀ payload ∈ connection.sent role.peer, payload.1 = .text →
      payload.2.length ≤ REMOTE_RUNTIME_MAX_OUTBOUND_JSON_BYTES) →
    (connection.deliver secretbox primitives role).accepted role = connection.sent role.peer := by
  intro connection hlimit
  have hconsistent : Consistent secretbox schedule connection :=
    consistent_run primitives (consistent_start secretbox schedule) hauthentic
  have haccepted := hconsistent.accepted role
  have hinbound := hconsistent.inbound role
  have hframes : (connection.frames role.peer).drop (connection.accepted role).length =
      ((connection.sent role.peer).drop (connection.session role).inboundCounter).mapIdx
        fun index payload => (payload.1, frameOf secretbox schedule role.peer
          (index + (connection.session role).inboundCounter) payload) := by
    rw [hconsistent.frames role.peer, haccepted, length_take_of_le hinbound]
    apply List.ext_getElem?
    intro index
    simp [Nat.add_comm index]
  rw [Connection.deliver, hframes]
  by_cases hsent : connection.sent role.peer = []
  · rw [hsent, take_nil] at haccepted
    rw [hsent, drop_nil]
    exact haccepted
  · obtain ⟨hkey, hsession, hlength⟩ := hconsistent.valid role.peer hsent
    have hfits : ∀ payload ∈ (connection.sent role.peer).drop
        (connection.session role).inboundCounter, ∀ sealedAt, Connection.Fits primitives role
          (payload.1, frameOf secretbox schedule role.peer sealedAt payload) :=
      fun payload hpayload sealedAt hdesktop htext => length_encode_frameOf hsession hencode
        (hlimit hdesktop payload (mem_of_mem_drop hpayload) htext) sealedAt
    rw [accepted_run_arrival hkey hsession (hconsistent.session_eq role)
      (by rw [length_drop]; omega) hfits, haccepted, take_append_drop]

theorem sealText_ok (hschedule : session.schedule = some schedule)
    (hseal : session.sealText secretbox primitives text = .ok (frameB64, next)) :
    (schedule.key session.role.direction).length = KEY_LENGTH ∧
      schedule.sessionId.length = SESSION_ID_LENGTH ∧ session.outboundCounter ≤ MAX_COUNTER ∧
      frameB64 = primitives.base64.encode (frameOf secretbox schedule session.role
        session.outboundCounter (.text, Text.encodeUtf8 text)) := by
  rw [Session.sealText] at hseal
  cases hpayload : session.sealPayload secretbox (Text.encodeUtf8 text) .text with
  | error reason =>
    rw [hpayload] at hseal
    cases hseal
  | ok result =>
    rw [hpayload] at hseal
    cases hseal
    obtain ⟨hkey, hsession, hcounter, hframe, -⟩ := sealPayload_ok hschedule hpayload
    exact ⟨hkey, hsession, hcounter, congrArg primitives.base64.encode hframe⟩

/-- A side that has caught up reads the text its peer seals next, if the text is well
formed, starts with no byte order mark and is within the limit of what is sent. -/
theorem openText_genuine (secretbox : Secretbox) (primitives : Primitives)
    (schedule : KeySchedule) {steps : List ConnectionStep}
    (hauthentic : (Connection.start schedule).AuthenticRun secretbox primitives steps)
    (hencode : ∀ bytes, (primitives.base64.encode bytes).length ≤ (bytes.length + 2) / 3 * 4)
    (hnative : ∀ decodeUtf8 ∈ primitives.decodeUtf8, decodeUtf8 = textDecoder)
    (role : SessionRole) {text : Text} (hwell : Text.isWellFormed text)
    (hmark : (Text.encodeUtf8 text).take 3 ≠ [0xEF, 0xBB, 0xBF])
    (hlimit : (Text.encodeUtf8 text).length ≤ REMOTE_RUNTIME_MAX_OUTBOUND_JSON_BYTES) :
    let connection := (Connection.start schedule).run secretbox primitives steps
    connection.accepted role = connection.sent role.peer →
    ∀ frameB64 next, (connection.session role.peer).sealText secretbox primitives text =
        .ok (frameB64, next) →
      (connection.session role).openText secretbox primitives frameB64 =
        .ok (some text, (connection.session role).countInbound) := by
  intro connection hcaught frameB64 next hseal
  have hconsistent : Consistent secretbox schedule connection :=
    consistent_run primitives (consistent_start secretbox schedule) hauthentic
  obtain ⟨hkey, hsession, hcounter, hframe⟩ := sealText_ok (hconsistent.keyed role.peer) hseal
  have hcount : (connection.session role).inboundCounter =
      (connection.session role.peer).outboundCounter := by
    rw [hconsistent.outbound role.peer, ← hcaught, hconsistent.accepted role,
      length_take_of_le (hconsistent.inbound role)]
  rw [hconsistent.roles role.peer] at hkey hframe
  rw [← hcount] at hcounter hframe
  set bytes := Text.encodeUtf8 text
  set frame := frameOf secretbox schedule role.peer (connection.session role).inboundCounter
    (.text, bytes)
  have hopened : (connection.session role).openFrame secretbox frame .text =
      .ok (some bytes, (connection.session role).countInbound) := by
    rw [hconsistent.session_eq role]
    exact openFrame_frameOf hkey hsession hcounter (.text, bytes)
  have hread :
      (connection.session role).decodeCanonicalBase64 primitives frameB64 = some frame := by
    rw [hframe]
    exact Session.decodeCanonicalBase64_encode primitives fun _ =>
      length_encode_frameOf hsession hencode hlimit _
  have hdecoded : textDecoder bytes = text := by
    rw [textDecoder, if_neg hmark, Text.decodeUtf8_encodeUtf8 hwell]
  have htext : (connection.session role).decodeText primitives bytes = text := by
    rw [Session.decodeText]
    split
    · next decodeUtf8 _ hdecode => rw [hnative decodeUtf8 hdecode, hdecoded]
    · exact hdecoded
  rw [Session.openText, hread]
  simp only [hopened, Except.map, Option.map_some, htext]

def sampleBase64 : Base64Codec where
  encode bytes := (Base64.encode bytes).map fun unit => Char.ofNat unit.val
  decodeCanonical text := Base64.decode? (text.map fun letter => Fin.ofNat 65536 letter.toNat)
  decodeCanonical_encode bytes := by
    have hletter : ∀ code : Fin 128, (Char.ofNat code.val).toNat = code.val := by decide
    rw [map_map, (map_congr_left fun unit hunit => ?_).trans (map_id _), Base64.decode?_encode]
    have hcode := hletter ⟨unit.val, Base64.encode_ascii bytes unit hunit⟩
    exact (congrArg (Fin.ofNat 65536) hcode).trans (Fin.ofNat_val_eq_self unit)

def samplePlatform : Primitives := ⟨sampleBase64, none⟩

theorem length_encode_samplePlatform (bytes : List Byte) :
    (samplePlatform.base64.encode bytes).length ≤ (bytes.length + 2) / 3 * 4 := by
  simp [samplePlatform, sampleBase64, Base64.length_encode]

/-- Both sides seal, and the desktop reads the first text it is sent only at the third try. -/
def samplePast : List ConnectionStep :=
  [.sealText .mobile (Text.ofString "naïve"), .sealBinary .mobile [5], .sealBinary .desktop [6],
    .openBinary .desktop (frameOf sampleSecretbox sampleSchedule .mobile 0
      (.text, Text.encodeUtf8 (Text.ofString "naïve"))),
    .openText .desktop (sampleBase64.encode (frameOf sampleSecretbox sampleSchedule .desktop 0
      (.binary, [6]))),
    .openText .desktop (sampleBase64.encode (frameOf sampleSecretbox sampleSchedule .mobile 0
      (.text, Text.encodeUtf8 (Text.ofString "naïve"))))]

/-- The frame that was not accepted yet, and a text sealed after it, come in. -/
theorem outstanding_frames_arrive_sample :
    (((Connection.start sampleSchedule).run sampleSecretbox samplePlatform
      (samplePast ++ [.sealText .mobile (Text.ofString "é")])).deliver sampleSecretbox
        samplePlatform .desktop).accepted .desktop =
      [(.text, Text.encodeUtf8 (Text.ofString "naïve")), (.binary, [5]),
        (.text, Text.encodeUtf8 (Text.ofString "é"))] := by
  rw [outstanding_frames_arrive sampleSecretbox samplePlatform sampleSchedule
    (by decide +kernel) length_encode_samplePlatform .desktop (by decide +kernel)]
  decide +kernel

def sampleTextFrame : List Char :=
  sampleBase64.encode (frameOf sampleSecretbox sampleSchedule .mobile 2
    (.text, Text.encodeUtf8 (Text.ofString "Grüße, 世界 𝒲")))

/-- A longer text, sealed and read once the desktop has caught up. -/
theorem openText_genuine_letter :
    (((Connection.start sampleSchedule).run sampleSecretbox samplePlatform (samplePast ++
      [.openBinary .desktop (frameOf sampleSecretbox sampleSchedule .mobile 1
        (.binary, [5]))])).session .desktop).openText sampleSecretbox samplePlatform
          sampleTextFrame =
      .ok (some (Text.ofString "Grüße, 世界 𝒲"), ⟨.desktop, some sampleSchedule, 3, 1⟩) := by
  have hsession := openText_genuine sampleSecretbox samplePlatform sampleSchedule
    (show (Connection.start sampleSchedule).AuthenticRun _ _ (samplePast ++ [.openBinary .desktop
      (frameOf sampleSecretbox sampleSchedule .mobile 1 (.binary, [5]))]) by decide +kernel)
    length_encode_samplePlatform nofun .desktop
    (show Text.isWellFormed (Text.ofString "Grüße, 世界 𝒲") by decide +kernel) (by decide +kernel)
    (by decide +kernel) (by decide +kernel) sampleTextFrame ⟨.mobile, some sampleSchedule, 0, 3⟩
    (by decide +kernel)
  rw [hsession]
  decide +kernel

end Outstanding

end Wakii.E2EE
