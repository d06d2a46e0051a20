import Mathlib.Data.List.TakeDrop
import Wakii.Remote.E2EESession

/-!
# The adversary can only delay or cut the stream

What a session accepts is always what its peer sealed first, as many payloads as
it counted.  The counters of both kinds and both directions keep the nonces of a
connection apart, so a box that opens is the one expected next.
-/

namespace Wakii.E2EE

open Function List

open Connection (sealCall)

section Sessions

variable {secretbox : Secretbox} {session next : Session} {schedule : KeySchedule}
  {payloadKind : MobileE2EEPayloadKind} {frame payload : List Byte}

def frameOf (secretbox : Secretbox) (schedule : KeySchedule) (role : SessionRole) (counter : ℕ)
    (payload : Payload) : List Byte :=
  let call := sealCall schedule role counter payload
  call.nonce ++ secretbox.sealBox call.plaintext call.nonce call.key

theorem sealPayload_ok (hschedule : session.schedule = some schedule)
    (hseal : session.sealPayload secretbox payload payloadKind = .ok (frame, next)) :
    (schedule.key session.role.direction).length = KEY_LENGTH ∧
      schedule.sessionId.length = SESSION_ID_LENGTH ∧
      session.outboundCounter ≤ MAX_COUNTER ∧
      frame = frameOf secretbox schedule session.role session.outboundCounter
        (payloadKind, payload) ∧
      next = session.countOutbound := by
  rw [Session.sealPayload, hschedule] at hseal
  dsimp only at hseal
  rw [sealMobileE2EEV2Frame] at hseal
  cases hvalid : validateFrameInputs (schedule.key session.role.direction)
      (frameContext schedule session.role.direction payloadKind session.outboundCounter).sessionId
      (frameContext schedule session.role.direction payloadKind
        session.outboundCounter).counter with
  | error reason =>
    rw [hvalid] at hseal
    cases hseal
  | ok valid =>
    rw [hvalid] at hseal
    cases hseal
    obtain ⟨hkey, hsession, hcounter⟩ := validateFrameInputs_ok hvalid
    exact ⟨hkey, hsession, hcounter, rfl, rfl⟩

theorem openFrame_ok {result : Option (List Byte)} (hschedule : session.schedule = some schedule)
    (hopen : session.openFrame secretbox frame payloadKind = .ok (result, next)) :
    schedule.sessionId.length = SESSION_ID_LENGTH ∧ session.inboundCounter ≤ MAX_COUNTER ∧
      result = openExpected secretbox frame (schedule.key session.role.peer.direction)
        (frameContext schedule session.role.peer.direction payloadKind session.inboundCounter) ∧
      next = if result.isSome then session.countInbound else session := by
  rw [Session.openFrame, hschedule] at hopen
  dsimp only at hopen
  rw [openMobileE2EEV2Frame] at hopen
  cases hvalid : validateFrameInputs (schedule.key session.role.peer.direction)
      (frameContext schedule session.role.peer.direction payloadKind
        session.inboundCounter).sessionId
      (frameContext schedule session.role.peer.direction payloadKind
        session.inboundCounter).counter with
  | error reason =>
    rw [hvalid] at hopen
    cases hopen
  | ok valid =>
    rw [hvalid] at hopen
    cases hopen
    obtain ⟨-, hsession, hcounter⟩ := validateFrameInputs_ok hvalid
    exact ⟨hsession, hcounter, rfl, rfl⟩

theorem openFrame_refused
    (hopen : session.openFrame secretbox frame payloadKind = .ok (none, next)) :
    next = session := by
  cases hschedule : session.schedule with
  | none =>
    rw [Session.openFrame, hschedule] at hopen
    cases hopen
    rfl
  | some schedule => exact (openFrame_ok hschedule hopen).2.2.2

end Sessions

section Nonces

variable {schedule : KeySchedule}

theorem sealCall_nonce_injective {firstRole secondRole : SessionRole}
    {firstCounter secondCounter : ℕ}
    {first second : Payload} (hsession : schedule.sessionId.length = SESSION_ID_LENGTH)
    (hfirst : firstCounter ≤ MAX_COUNTER) (hsecond : secondCounter ≤ MAX_COUNTER)
    (hsame : (sealCall schedule firstRole firstCounter first).nonce =
      (sealCall schedule secondRole secondCounter second).nonce) :
    firstRole = secondRole ∧ firstCounter = secondCounter ∧ first.1 = second.1 := by
  have hnonce : encodeNonce (frameContext schedule firstRole.direction first.1 firstCounter) =
      encodeNonce (frameContext schedule secondRole.direction second.1 secondCounter) := hsame
  have hcontext := encodeNonce_injective hnonce hsession rfl hfirst hsecond
  simp only [frameContext, FrameContext.mk.injEq, true_and] at hcontext
  exact ⟨SessionRole.direction_injective hcontext.1, hcontext.2.2, hcontext.2.1⟩

end Nonces

structure Consistent (secretbox : Secretbox) (schedule : KeySchedule) (connection : Connection) :
    Prop where
  roles : ∀ role, (connection.session role).role = role
  keyed : ∀ role, (connection.session role).schedule = some schedule
  outbound : ∀ role, (connection.session role).outboundCounter = (connection.sent role).length
  /-- Only valid inputs were sealed. -/
  valid : ∀ role, connection.sent role ≠ [] → (schedule.key role.direction).length = KEY_LENGTH ∧
    schedule.sessionId.length = SESSION_ID_LENGTH ∧ (connection.sent role).length ≤ MAX_COUNTER + 1
  frames : ∀ role, connection.frames role = (connection.sent role).mapIdx fun counter payload =>
    (payload.1, frameOf secretbox schedule role counter payload)
  sealCalls : ∀ call ∈ connection.sealCalls, ∃ role counter payload,
    (connection.sent role)[counter]? = some payload ∧ call = sealCall schedule role counter payload
  nonces : (connection.sealCalls.map SealCall.nonce).Nodup
  accepted : ∀ role, connection.accepted role =
    (connection.sent role.peer).take (connection.session role).inboundCounter
  inbound : ∀ role, (connection.session role).inboundCounter ≤ (connection.sent role.peer).length

section Steps

variable {secretbox : Secretbox} {schedule : KeySchedule} {connection : Connection}

theorem consistent_start (secretbox : Secretbox) (schedule : KeySchedule) :
    Consistent secretbox schedule (Connection.start schedule) where
  roles _ := rfl
  keyed _ := rfl
  outbound _ := rfl
  valid _ hsent := absurd rfl hsent
  frames _ := rfl
  sealCalls _ hcall := absurd hcall not_mem_nil
  nonces := nodup_nil
  accepted _ := rfl
  inbound _ := le_rfl

section

variable (hconsistent : Consistent secretbox schedule connection)
include hconsistent

variable {role : SessionRole}

theorem Consistent.counter_le {counter : ℕ} {payload : Payload}
    (hsent : (connection.sent role)[counter]? = some payload) :
    schedule.sessionId.length = SESSION_ID_LENGTH ∧ counter ≤ MAX_COUNTER := by
  obtain ⟨hcounter, -⟩ := List.getElem?_eq_some_iff.mp hsent
  have hnonempty : connection.sent role ≠ [] := List.ne_nil_of_length_pos (by omega)
  obtain ⟨-, hsession, hlength⟩ := hconsistent.valid role hnonempty
  exact ⟨hsession, by omega⟩

theorem nonce_fresh (hsession : schedule.sessionId.length = SESSION_ID_LENGTH)
    (hcounter : (connection.sent role).length ≤ MAX_COUNTER) (payload : Payload) :
    (sealCall schedule role (connection.sent role).length payload).nonce ∉
      connection.sealCalls.map SealCall.nonce := by
  intro hmem
  obtain ⟨call, hcall, hnonce⟩ := mem_map.mp hmem
  obtain ⟨sender, counter, sealed, hsent, rfl⟩ := hconsistent.sealCalls call hcall
  obtain ⟨rfl, rfl, -⟩ := sealCall_nonce_injective hsession
    (hconsistent.counter_le hsent).2 hcounter hnonce
  rw [getElem?_eq_none le_rfl] at hsent
  cases hsent

/-- Sealing takes the next counter of its direction. -/
theorem consistent_sealPayload (role : SessionRole) (payload : Payload) :
    Consistent secretbox schedule (connection.sealPayload secretbox role payload) := by
  rw [Connection.sealPayload, hconsistent.keyed role]
  cases hseal : (connection.session role).sealPayload secretbox payload.2 payload.1 with
  | error reason => exact hconsistent
  | ok result =>
    obtain ⟨frame, next⟩ := result
    obtain ⟨hkey, hsession, hcounter, rfl, rfl⟩ := sealPayload_ok (hconsistent.keyed role) hseal
    rw [hconsistent.roles role] at hkey
    rw [hconsistent.outbound role] at hcounter
    have hfresh := nonce_fresh hconsistent hsession hcounter payload
    have hinbound (other : SessionRole) :
        (Function.update connection.session role (connection.session role).countOutbound
          other).inboundCounter = (connection.session other).inboundCounter := by
      by_cases hother : other = role
      · rw [hother, update_self]
        rfl
      · rw [update_of_ne hother]
    have hgrows (other : SessionRole) :
        ∃ extra, Function.update connection.sent role (connection.sent role ++ [payload]) other =
          connection.sent other ++ extra := by
      by_cases hother : other = role
      · rw [hother, update_self]
        exact ⟨[payload], rfl⟩
      · rw [update_of_ne hother]
        exact ⟨[], (append_nil _).symm⟩
    dsimp only
    rw [hconsistent.roles role, hconsistent.outbound role]
    refine ⟨?_, ?_, ?_, ?_, ?_, ?_, ?_, ?_, ?_⟩
    · intro other
      dsimp only
      by_cases hother : other = role
      · rw [hother, update_self]
        exact hconsistent.roles role
      · rw [update_of_ne hother]
        exact hconsistent.roles other
    · intro other
      dsimp only
      by_cases hother : other = role
      · rw [hother, update_self]
        exact hconsistent.keyed role
      · rw [update_of_ne hother]
        exact hconsistent.keyed other
    · intro other
      dsimp only
      by_cases hother : other = role
      · rw [hother, update_self, update_self, length_append, ← hconsistent.outbound role]
        rfl
      · rw [update_of_ne hother, update_of_ne hother]
        exact hconsistent.outbound other
    · intro other hsent
      dsimp only at hsent ⊢
      by_cases hother : other = role
      · rw [hother, update_self, length_append]
        exact ⟨hkey, hsession, Nat.add_le_add_right hcounter 1⟩
      · rw [update_of_ne hother] at hsent ⊢
        exact hconsistent.valid other hsent
    · intro other
      dsimp only
      by_cases hother : other = role
      · rw [hother, update_self, update_self, mapIdx_append, hconsistent.frames role]
        simp
      · rw [update_of_ne hother, update_of_ne hother]
        exact hconsistent.frames other
    · intro call hcall
      dsimp only at hcall ⊢
      rcases mem_append.mp hcall with hearlier | hnew
      · obtain ⟨sender, counter, sealed, hsent, hsealed⟩ := hconsistent.sealCalls call hearlier
        refine ⟨sender, counter, sealed, ?_, hsealed⟩
        by_cases hsender : sender = role
        · rw [hsender] at hsent ⊢
          rw [update_self]
          rw [List.getElem?_append_left (List.getElem?_eq_some_iff.mp hsent).1]
          exact hsent
        · rw [update_of_ne hsender]
          exact hsent
      · refine ⟨role, (connection.sent role).length, payload, ?_, mem_singleton.mp hnew⟩
        rw [update_self, getElem?_concat_length]
    · rw [map_append, nodup_append]
      refine ⟨hconsistent.nonces, nodup_cons.mpr ⟨not_mem_nil, nodup_nil⟩, ?_⟩
      intro nonce hnonce other hother
      rw [map_singleton, mem_singleton] at hother
      rw [hother]
      rintro rfl
      exact hfresh hnonce
    · intro other
      dsimp only
      obtain ⟨extra, hextra⟩ := hgrows other.peer
      rw [hextra, hinbound other, take_append_of_le_length (hconsistent.inbound other)]
      exact hconsistent.accepted other
    · intro other
      dsimp only
      obtain ⟨extra, hextra⟩ := hgrows other.peer
      rw [hextra, hinbound other, length_append]
      exact Nat.le_add_right_of_le (hconsistent.inbound other)

variable {payloadKind : MobileE2EEPayloadKind}

/-- What a session accepts is what its peer sealed at the expected counter. -/
theorem accepted_payload {frame payload : List Byte} {next : Session}
    (hauthentic : connection.Authentic secretbox role payloadKind frame)
    (hopen : (connection.session role).openFrame secretbox frame payloadKind =
      .ok (some payload, next)) :
    (connection.sent role.peer)[(connection.session role).inboundCounter]? =
        some (payloadKind, payload) ∧
      next = (connection.session role).countInbound := by
  obtain ⟨hsession, hinbound, hexpected, hnext⟩ := openFrame_ok (hconsistent.keyed role) hopen
  refine ⟨?_, hnext⟩
  rw [hconsistent.roles role] at hexpected
  obtain ⟨-, plaintext, hbox, rfl⟩ := openExpected_eq_some hexpected.symm
  have hsealed := hauthentic schedule (hconsistent.keyed role) plaintext hbox
  obtain ⟨sender, counter, sealed, hsent, hcall⟩ := hconsistent.sealCalls _ hsealed
  have hnonce : encodeNonce (frameContext schedule role.peer.direction payloadKind
      (connection.session role).inboundCounter) =
        encodeNonce (frameContext schedule sender.direction sealed.1 counter) :=
    congrArg SealCall.nonce hcall
  have hplaintext : plaintext =
      encodeHeader (frameContext schedule sender.direction sealed.1 counter) ++ sealed.2 :=
    congrArg SealCall.plaintext hcall
  have hcontext := encodeNonce_injective hnonce hsession rfl hinbound
    (hconsistent.counter_le hsent).2
  simp only [frameContext, FrameContext.mk.injEq, true_and] at hcontext
  obtain ⟨hdirection, rfl, rfl⟩ := hcontext
  rw [SessionRole.direction_injective hdirection, hsent, hplaintext]
  have hheader : (encodeHeader (frameContext schedule sender.direction sealed.1
      (connection.session role).inboundCounter)).length = HEADER_LENGTH :=
    length_encodeHeader hsession
  rw [← hheader, drop_left]

/-- An opened frame is the next one its peer sealed. -/
theorem consistent_openFrame {frame : List Byte}
    (hauthentic : connection.Authentic secretbox role payloadKind frame) :
    Consistent secretbox schedule (connection.openFrame secretbox role payloadKind frame) := by
  rw [Connection.openFrame]
  cases hopen : (connection.session role).openFrame secretbox frame payloadKind with
  | error reason => exact hconsistent
  | ok result =>
    obtain ⟨opened, next⟩ := result
    cases opened with
    | none =>
      cases openFrame_refused hopen
      dsimp only
      rw [update_eq_self]
      exact hconsistent
    | some payload =>
      obtain ⟨hsent, rfl⟩ := accepted_payload hconsistent hauthentic hopen
      have hsame (other : SessionRole) : ∃ inbound,
          Function.update connection.session role (connection.session role).countInbound other =
            { connection.session other with inboundCounter := inbound } := by
        by_cases hother : other = role
        · rw [hother, update_self]
          exact ⟨_, rfl⟩
        · rw [update_of_ne hother]
          exact ⟨_, rfl⟩
      refine ⟨?_, ?_, ?_, hconsistent.valid, hconsistent.frames, hconsistent.sealCalls,
        hconsistent.nonces, ?_, ?_⟩
      · intro other
        obtain ⟨inbound, hsession⟩ := hsame other
        exact (congrArg Session.role hsession).trans (hconsistent.roles other)
      · intro other
        obtain ⟨inbound, hsession⟩ := hsame other
        exact (congrArg Session.schedule hsession).trans (hconsistent.keyed other)
      · intro other
        obtain ⟨inbound, hsession⟩ := hsame other
        exact (congrArg Session.outboundCounter hsession).trans (hconsistent.outbound other)
      · intro other
        dsimp only
        by_cases hother : other = role
        · rw [hother, update_self, update_self, hconsistent.accepted role,
            Session.countInbound, take_add_one, hsent]
          rfl
        · rw [update_of_ne hother, update_of_ne hother]
          exact hconsistent.accepted other
      · intro other
        dsimp only
        by_cases hother : other = role
        · rw [hother, update_self]
          exact (List.getElem?_eq_some_iff.mp hsent).1
        · rw [update_of_ne hother]
          exact hconsistent.inbound other

end

variable (primitives : Primitives)

theorem consistent_step (hconsistent : Consistent secretbox schedule connection)
    {next : ConnectionStep}
    (hauthentic : ∀ opened ∈ connection.opened primitives next,
      connection.Authentic secretbox opened.1 opened.2.1 opened.2.2) :
    Consistent secretbox schedule (connection.step secretbox primitives next) := by
  cases next with
  | sealText role plaintext => exact consistent_sealPayload hconsistent role _
  | sealBinary role plaintext => exact consistent_sealPayload hconsistent role _
  | openText _ _ | openBinary _ _ =>
    unfold Connection.step
    dsimp only
    split
    next hopened => exact consistent_openFrame hconsistent (hauthentic _ hopened)
    next => exact hconsistent

theorem consistent_run (hconsistent : Consistent secretbox schedule connection)
    {steps : List ConnectionStep}
    (hauthentic : connection.AuthenticRun secretbox primitives steps) :
    Consistent secretbox schedule (connection.run secretbox primitives steps) := by
  induction steps generalizing connection with
  | nil => exact hconsistent
  | cons next rest ih =>
    exact ih (consistent_step primitives hconsistent hauthentic.1) hauthentic.2

theorem validateFrameInputs_eq_ok {key sessionId : List Byte} {counter : ℕ}
    (hkey : key.length = KEY_LENGTH) (hsession : sessionId.length = SESSION_ID_LENGTH)
    (hcounter : counter ≤ MAX_COUNTER) : validateFrameInputs key sessionId counter = .ok () := by
  rw [validateFrameInputs, if_neg (not_not.mpr hkey), if_neg (not_not.mpr hsession),
    if_neg (Nat.not_lt.mpr hcounter)]

variable {payloadKind : MobileE2EEPayloadKind}

/-- The next frame of the peer is accepted with its payload. -/
theorem openFrame_genuine (hconsistent : Consistent secretbox schedule connection)
    {role : SessionRole} {frame : List Byte}
    (hframe : (connection.frames role.peer)[(connection.session role).inboundCounter]? =
      some (payloadKind, frame)) :
    ∃ payload, (connection.sent role.peer)[(connection.session role).inboundCounter]? =
        some (payloadKind, payload) ∧
      (connection.session role).openFrame secretbox frame payloadKind =
        .ok (some payload, (connection.session role).countInbound) := by
  rw [hconsistent.frames role.peer, List.getElem?_mapIdx] at hframe
  obtain ⟨⟨sentKind, payload⟩, hsent, hpair⟩ := Option.map_eq_some_iff.mp hframe
  simp only [Prod.mk.injEq] at hpair
  obtain ⟨rfl, rfl⟩ := hpair
  have hnonempty : connection.sent role.peer ≠ [] := List.ne_nil_of_length_pos
      (Nat.zero_lt_of_lt (List.getElem?_eq_some_iff.mp hsent).1)
  obtain ⟨hkey, hsession, -⟩ := hconsistent.valid role.peer hnonempty
  have hcounter := (hconsistent.counter_le hsent).2
  have hopened : openExpected secretbox
      (frameOf secretbox schedule role.peer (connection.session role).inboundCounter
        (sentKind, payload)) (schedule.key role.peer.direction)
      (frameContext schedule role.peer.direction sentKind
        (connection.session role).inboundCounter) = some payload :=
    openExpected_sealed hsession
  have hvalid : validateFrameInputs (schedule.key role.peer.direction)
      (frameContext schedule role.peer.direction sentKind
        (connection.session role).inboundCounter).sessionId
      (frameContext schedule role.peer.direction sentKind
        (connection.session role).inboundCounter).counter = .ok () :=
    validateFrameInputs_eq_ok hkey hsession hcounter
  refine ⟨payload, hsent, ?_⟩
  rw [Session.openFrame, hconsistent.keyed role]
  dsimp only
  rw [openMobileE2EEV2Frame, hconsistent.roles role, hvalid, Except.map, hopened]
  rfl

theorem openFrame_unchanged {role : SessionRole} {frame : List Byte}
    (hrefused : ∀ payload next, (connection.session role).openFrame secretbox frame payloadKind ≠
      .ok (some payload, next)) :
    connection.openFrame secretbox role payloadKind frame = connection := by
  rw [Connection.openFrame]
  cases hopen : (connection.session role).openFrame secretbox frame payloadKind with
  | error reason => rfl
  | ok result =>
    obtain ⟨opened, next⟩ := result
    cases opened with
    | some payload => exact absurd hopen (hrefused payload next)
    | none =>
      cases openFrame_refused hopen
      dsimp only
      rw [update_eq_self]

theorem Session.decodeCanonicalBase64_encode {session : Session} {frame : List Byte}
    (hfits : session.role = .desktop → (primitives.base64.encode frame).length ≤
      MAX_MOBILE_E2EE_V2_TEXT_FRAME_BASE64_CHARACTERS) :
    session.decodeCanonicalBase64 primitives (primitives.base64.encode frame) = some frame := by
  unfold Session.decodeCanonicalBase64
  cases hrole : session.role with
  | mobile => exact primitives.base64.decodeCanonical_encode frame
  | desktop =>
    dsimp only
    rw [if_neg (Nat.not_lt.mpr (hfits hrole)), primitives.base64.decodeCanonical_encode]

theorem step_arrival {connection : Connection} {role : SessionRole}
    {frame : MobileE2EEPayloadKind × List Byte} (hrole : (connection.session role).role = role)
    (hfits : Connection.Fits primitives role frame) :
    connection.step secretbox primitives (Connection.arrival primitives role frame) =
      connection.openFrame secretbox role frame.1 frame.2 := by
  obtain ⟨payloadKind, frame⟩ := frame
  cases payloadKind with
  | binary => rfl
  | text =>
    rw [Connection.arrival, Connection.step.eq_def]
    dsimp only
    rw [Connection.opened, Session.decodeCanonicalBase64_encode primitives fun hdesktop =>
      hfits (hrole.symm.trans hdesktop) rfl]
    rfl

/-- For any adversary, a session accepts a prefix of what its peer sealed with the same kinds;
a refused frame changes nothing, and the next frame of the peer is still accepted, on the
desktop within its bound on texts; and no key seals twice under one nonce. -/
theorem session_accepts_prefix (secretbox : Secretbox) (primitives : Primitives)
    (schedule : KeySchedule) {steps : List ConnectionStep}
    (hauthentic : (Connection.start schedule).AuthenticRun secretbox primitives steps) :
    let connection := (Connection.start schedule).run secretbox primitives steps
    (∀ role, connection.accepted role <+: connection.sent role.peer) ∧
    (∀ role payloadKind frame,
      (∀ payload next, (connection.session role).openFrame secretbox frame payloadKind ≠
          .ok (some payload, next)) →
        connection.openFrame secretbox role payloadKind frame = connection) ∧
    (∀ role payloadKind frame, (connection.frames role.peer)[(connection.accepted role).length]? =
          some (payloadKind, frame) →
        ∃ payload, (connection.sent role.peer)[(connection.accepted role).length]? =
            some (payloadKind, payload) ∧
          (connection.session role).openFrame secretbox frame payloadKind =
            .ok (some payload, (connection.session role).countInbound) ∧
          (Connection.Fits primitives role (payloadKind, frame) →
            (connection.step secretbox primitives
              (Connection.arrival primitives role (payloadKind, frame))).accepted role =
                connection.accepted role ++ [(payloadKind, payload)])) ∧
    (connection.sealCalls.map fun call => (call.key, call.nonce)).Nodup := by
  intro connection
  have hconsistent : Consistent secretbox schedule connection :=
    consistent_run primitives (consistent_start secretbox schedule) hauthentic
  have hcount (role : SessionRole) : (connection.accepted role).length =
      (connection.session role).inboundCounter := by
    rw [hconsistent.accepted role, length_take_of_le (hconsistent.inbound role)]
  refine ⟨?_, ?_, ?_, ?_⟩
  · intro role
    rw [hconsistent.accepted role]
    exact take_prefix _ _
  · intro role payloadKind frame hrefused
    exact openFrame_unchanged hrefused
  · intro role payloadKind frame hframe
    rw [hcount role] at hframe ⊢
    obtain ⟨payload, hsent, hopened⟩ := openFrame_genuine hconsistent hframe
    refine ⟨payload, hsent, hopened, fun hfits => ?_⟩
    rw [step_arrival primitives (hconsistent.roles role) hfits, Connection.openFrame, hopened]
    exact update_self _ _ _
  · have hnonces := hconsistent.nonces
    rw [List.Nodup, pairwise_map] at hnonces ⊢
    exact hnonces.imp fun hdiffers hsame => hdiffers (congrArg Prod.snd hsame)

end Steps

section Sample

def sampleTag (nonce key : List Byte) : List Byte :=
  (List.zipWith (· + ·) (nonce.drop 8) key).takeD OVERHEAD_LENGTH 0

def sampleSecretbox : Secretbox where
  sealBox plaintext nonce key := sampleTag nonce key ++ plaintext
  openBox box nonce key :=
    if box.take OVERHEAD_LENGTH = sampleTag nonce key then some (box.drop OVERHEAD_LENGTH) else none
  openBox_sealBox plaintext nonce key := by
    have htag : (sampleTag nonce key).length = OVERHEAD_LENGTH := takeD_length _ _ _
    rw [← htag, take_left, drop_left, if_pos rfl]
  length_sealBox plaintext nonce key := by
    rw [length_append, sampleTag, takeD_length]

def samplePrimitives : Primitives where
  base64 :=
    { encode := fun bytes => bytes.map fun byte => Char.ofNat byte.val
      decodeCanonical := fun text => some (text.map fun letter => Fin.ofNat 256 letter.toNat)
      decodeCanonical_encode := by
        intro bytes
        have hletter : ∀ byte : Byte, Fin.ofNat 256 (Char.ofNat byte.val).toNat = byte := by
          decide +kernel
        rw [map_map, Option.some.injEq]
        exact (map_congr_left fun byte _ => hletter byte).trans (map_id bytes) }
  decodeUtf8 := none

def sampleSchedule : KeySchedule :=
  ⟨List.replicate 32 7, List.replicate 32 9, List.replicate 32 8⟩

def sampleFrame : List Byte :=
  frameOf sampleSecretbox sampleSchedule .mobile 0 (.binary, [5])

def sampleSteps : List ConnectionStep :=
  [.sealBinary .mobile [5], .openBinary .mobile sampleFrame,
    .openText .desktop (samplePrimitives.base64.encode sampleFrame),
    .openBinary .desktop sampleFrame, .openBinary .desktop sampleFrame]

theorem session_accepts_prefix_sample :
    let connection :=
      (Connection.start sampleSchedule).run sampleSecretbox samplePrimitives sampleSteps
    connection.accepted .desktop = [(.binary, [5])] ∧
      connection.accepted .desktop <+: connection.sent .mobile := by
  have hauthentic : (Connection.start sampleSchedule).AuthenticRun sampleSecretbox samplePrimitives
      sampleSteps := by
    decide +kernel
  exact ⟨by decide +kernel, ( session_accepts_prefix sampleSecretbox samplePrimitives sampleSchedule
    hauthentic).1 .desktop⟩

end Sample

end Wakii.E2EE
