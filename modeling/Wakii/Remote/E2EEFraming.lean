import Mathlib.Data.Nat.Bitwise
import Wakii.Library.Utf16

/-!
# Frames of the v2 end-to-end encryption

A frame is a nonce followed by a secretbox of a header and the payload.  Nonce
and header repeat the direction, the payload kind and the counter, and the
opener recomputes both from what it expects.
-/

namespace Wakii.E2EE

open List

inductive MobileE2EEDirection where
  | mobileToDesktop
  | desktopToMobile
deriving DecidableEq

inductive MobileE2EEPayloadKind where
  | text
  | binary
deriving DecidableEq

inductive E2EEError where
  | notReady
  | invalidKeyLength (length : ℕ)
  | invalidSessionIdLength (length : ℕ)
  | invalidCounter (counter : ℕ)
deriving DecidableEq

def E2EEError.message : E2EEError → String
  | notReady => "E2EE v2 ready has not been accepted"
  | invalidKeyLength length => "Invalid E2EE v2 key length: " ++ toString length
  | invalidSessionIdLength length => "Invalid E2EE v2 session ID length: " ++ toString length
  | invalidCounter counter => "Invalid E2EE v2 counter: " ++ toString counter

def OVERHEAD_LENGTH : ℕ := 16
def KEY_LENGTH : ℕ := 32

/-- The authenticated encryption the frames rest on: a box opens under the key
and nonce that sealed it and gives back what was sealed. -/
structure Secretbox where
  sealBox : List Byte → List Byte → List Byte → List Byte
  openBox : List Byte → List Byte → List Byte → Option (List Byte)
  openBox_sealBox : ∀ plaintext nonce key,
    openBox (sealBox plaintext nonce key) nonce key = some plaintext
  length_sealBox : ∀ plaintext nonce key,
    (sealBox plaintext nonce key).length = OVERHEAD_LENGTH + plaintext.length

def NONCE_LENGTH : ℕ := 24
def SESSION_ID_LENGTH : ℕ := 32
def HEADER_LENGTH : ℕ := SESSION_ID_LENGTH + 1 + 1 + 8
def FRAME_VERSION : Byte := 2
def MAX_COUNTER : ℕ := 2 ^ 64 - 1

def directionByte : MobileE2EEDirection → Byte
  | .mobileToDesktop => 0
  | .desktopToMobile => 1

def payloadKindByte : MobileE2EEPayloadKind → Byte
  | .text => 0
  | .binary => 1

/-- `target.set(source, offset)` of a typed array. -/
def setBytes (target : List Byte) (offset : ℕ) (source : List Byte) : List Byte :=
  target.take offset ++ (source ++ target.drop (offset + source.length))

/-- Writes `places` bytes of a number, the last one first. -/
def writeBytes (target : List Byte) (offset : ℕ) : ℕ → ℕ → List Byte
  | 0, _ => target
  | places + 1, remaining =>
    writeBytes (target.set (offset + places) (Fin.ofNat 256 (remaining &&& 0xFF))) offset places
      (remaining >>> 8)

def writeUint64 (target : List Byte) (offset value : ℕ) : List Byte :=
  writeBytes target offset 8 value

structure FrameContext where
  sessionId : List Byte
  direction : MobileE2EEDirection
  payloadKind : MobileE2EEPayloadKind
  counter : ℕ
deriving DecidableEq

def encodeHeader (context : FrameContext) : List Byte :=
  let header := setBytes (List.replicate HEADER_LENGTH 0) 0 context.sessionId
  let header := header.set SESSION_ID_LENGTH (directionByte context.direction)
  let header := header.set (SESSION_ID_LENGTH + 1) (payloadKindByte context.payloadKind)
  writeUint64 header (SESSION_ID_LENGTH + 2) context.counter

def encodeNonce (context : FrameContext) : List Byte :=
  let nonce := setBytes (List.replicate NONCE_LENGTH 0) 0 (context.sessionId.take 12)
  let nonce := nonce.set 12 FRAME_VERSION
  let nonce := nonce.set 13 (directionByte context.direction)
  let nonce := nonce.set 14 (payloadKindByte context.payloadKind)
  let nonce := nonce.set 15 0
  writeUint64 nonce 16 context.counter

def equalBytes (left right : List Byte) : Bool :=
  left.length = right.length &&
    (List.zipWith (fun first second => first.val ^^^ second.val) left right).foldl (· ||| ·) 0 = 0

def validateFrameInputs (key sessionId : List Byte) (counter : ℕ) : Except E2EEError Unit :=
  if key.length ≠ KEY_LENGTH then .error (.invalidKeyLength key.length)
  else if sessionId.length ≠ SESSION_ID_LENGTH then
    .error (.invalidSessionIdLength sessionId.length)
  else if MAX_COUNTER < counter then .error (.invalidCounter counter)
  else .ok ()

section Frames

variable (secretbox : Secretbox)

def sealMobileE2EEV2Frame (payload key : List Byte) (context : FrameContext) :
    Except E2EEError (List Byte) :=
  (validateFrameInputs key context.sessionId context.counter).map fun _ =>
    let nonce := encodeNonce context
    nonce ++ secretbox.sealBox (encodeHeader context ++ payload) nonce key

/-- The checks of `openMobileE2EEV2Frame` once its inputs are validated. -/
def openExpected (frame key : List Byte) (expected : FrameContext) : Option (List Byte) :=
  if frame.length < NONCE_LENGTH + OVERHEAD_LENGTH + HEADER_LENGTH then none
  else
    let nonce := encodeNonce expected
    if !equalBytes (frame.take NONCE_LENGTH) nonce then none
    else
      (secretbox.openBox (frame.drop NONCE_LENGTH) nonce key).bind fun plaintext =>
        if !equalBytes (plaintext.take HEADER_LENGTH) (encodeHeader expected) then none
        else some (plaintext.drop HEADER_LENGTH)

def openMobileE2EEV2Frame (frame key : List Byte) (expected : FrameContext) :
    Except E2EEError (Option (List Byte)) :=
  (validateFrameInputs key expected.sessionId expected.counter).map fun _ =>
    openExpected secretbox frame key expected

end Frames

section Layout

theorem setBytes_zero {target source : List Byte} :
    setBytes target 0 source = source ++ target.drop source.length := by
  rw [setBytes, take_zero, nil_append, Nat.zero_add]

def bigEndian : ℕ → ℕ → List Byte
  | 0, _ => []
  | places + 1, value => bigEndian places (value >>> 8) ++ [Fin.ofNat 256 (value &&& 0xFF)]

theorem length_bigEndian (places value : ℕ) : (bigEndian places value).length = places := by
  induction places generalizing value with
  | zero => rfl
  | succ places ih => rw [bigEndian, length_append, ih, length_singleton]

theorem writeBytes_eq (front rest : List Byte) (places value : ℕ) (room : List Byte)
    (hroom : room.length = places) :
    writeBytes (front ++ (room ++ rest)) front.length places value =
      front ++ (bigEndian places value ++ rest) := by
  induction places generalizing value room rest with
  | zero =>
    rw [length_eq_zero_iff.mp hroom]
    rfl
  | succ places ih =>
    obtain ⟨start, last, rfl⟩ : ∃ start last, room = start ++ [last] :=
      ⟨room.dropLast, room.getLast (by rintro rfl; simp at hroom), (dropLast_append_getLast _).symm⟩
    have hstart : start.length = places := by simpa using hroom
    have hset (byte : Byte) : (front ++ ((start ++ [last]) ++ rest)).set (front.length + places)
        byte = front ++ (start ++ ([byte] ++ rest)) := by
      rw [set_append_right _ _ (Nat.le_add_right _ _), Nat.add_sub_cancel_left,
        append_assoc, set_append_right _ _ hstart.le, hstart, Nat.sub_self]
      rfl
    rw [writeBytes, hset, ih _ _ _ hstart, bigEndian, append_assoc]

theorem bigEndian_injective {places first second : ℕ} (hfirst : first < 256 ^ places)
    (hsecond : second < 256 ^ places) (hsame : bigEndian places first = bigEndian places second) :
    first = second := by
  induction places generalizing first second with
  | zero => omega
  | succ places ih =>
    have hshift (value : ℕ) : value >>> 8 = value / 256 := Nat.shiftRight_eq_div_pow value 8
    have hmask (value : ℕ) : value &&& 0xFF = value % 256 := Nat.and_two_pow_sub_one_eq_mod value 8
    rw [bigEndian, bigEndian] at hsame
    obtain ⟨hhigh, hlow⟩ := append_inj' hsame rfl
    rw [hshift, hshift] at hhigh
    rw [Nat.pow_succ] at hfirst hsecond
    have hquotient : first / 256 = second / 256 :=
      ih (Nat.div_lt_of_lt_mul (by omega)) (Nat.div_lt_of_lt_mul (by omega)) hhigh
    have hbyte := congrArg Fin.val (singleton_inj.mp hlow)
    rw [hmask, hmask, Fin.val_ofNat, Fin.val_ofNat] at hbyte
    omega

theorem set_after {front : List Byte} {offset : ℕ} (hfront : front.length = offset)
    (rest : List Byte) (index : ℕ) (byte : Byte) :
    (front ++ rest).set (offset + index) byte = front ++ rest.set index byte := by
  rw [← hfront, set_append_right _ _ (Nat.le_add_right _ _), Nat.add_sub_cancel_left]

section

variable {context : FrameContext} (hsession : context.sessionId.length = SESSION_ID_LENGTH)
include hsession

theorem encodeNonce_eq : encodeNonce context =
      context.sessionId.take 12 ++ ([FRAME_VERSION, directionByte context.direction,
        payloadKindByte context.payloadKind, 0] ++ bigEndian 8 context.counter) := by
  have hfront : (context.sessionId.take 12).length = 12 := by
    rw [length_take, hsession]
    rfl
  have hset (rest : List Byte) (index : ℕ) (byte : Byte) :
      (context.sessionId.take 12 ++ rest).set (12 + index) byte =
        context.sessionId.take 12 ++ rest.set index byte :=
    set_after hfront rest index byte
  have hstart : setBytes (List.replicate NONCE_LENGTH 0) 0 (context.sessionId.take 12) =
      context.sessionId.take 12 ++ List.replicate 12 0 := by
    rw [setBytes_zero, hfront]
    rfl
  have hcounter (fields : List Byte) (hfields : fields.length = 4) :
      writeUint64 (context.sessionId.take 12 ++ (fields ++ List.replicate 8 0)) 16
          context.counter =
        context.sessionId.take 12 ++ (fields ++ bigEndian 8 context.counter) := by
    have hwrite := writeBytes_eq (context.sessionId.take 12 ++ fields) [] 8 context.counter
      (List.replicate 8 0) rfl
    rw [length_append, hfront, hfields, append_nil, append_nil,
      append_assoc, append_assoc] at hwrite
    exact hwrite
  rw [encodeNonce, hstart]
  rw [hset _ 0, hset _ 1, hset _ 2, hset _ 3]
  exact hcounter [FRAME_VERSION, directionByte context.direction,
    payloadKindByte context.payloadKind, 0] rfl

theorem encodeHeader_eq : encodeHeader context =
      context.sessionId ++ ([directionByte context.direction,
        payloadKindByte context.payloadKind] ++ bigEndian 8 context.counter) := by
  have hset (rest : List Byte) (index : ℕ) (byte : Byte) :
      (context.sessionId ++ rest).set (SESSION_ID_LENGTH + index) byte =
        context.sessionId ++ rest.set index byte :=
    set_after hsession rest index byte
  have hstart : setBytes (List.replicate HEADER_LENGTH 0) 0 context.sessionId =
      context.sessionId ++ List.replicate 10 0 := by
    rw [setBytes_zero, hsession]
    rfl
  have hwrite := writeBytes_eq
    (context.sessionId ++ [directionByte context.direction, payloadKindByte context.payloadKind])
    [] 8 context.counter (List.replicate 8 0) rfl
  rw [length_append, hsession, append_nil, append_nil, append_assoc, append_assoc] at hwrite
  rw [encodeHeader, hstart]
  rw [← Nat.add_zero SESSION_ID_LENGTH, hset _ 0, Nat.add_zero, hset _ 1]
  exact hwrite

end

theorem directionByte_injective {first second : MobileE2EEDirection}
    (hsame : directionByte first = directionByte second) : first = second := by
  cases first <;> cases second <;> first | rfl | cases hsame

theorem payloadKindByte_injective {first second : MobileE2EEPayloadKind}
    (hsame : payloadKindByte first = payloadKindByte second) : first = second := by
  cases first <;> cases second <;> first | rfl | cases hsame

theorem encodeNonce_injective {first second : FrameContext}
    (hsame : encodeNonce first = encodeNonce second)
    (hlength : first.sessionId.length = SESSION_ID_LENGTH)
    (hsession : first.sessionId = second.sessionId)
    (hfirst : first.counter ≤ MAX_COUNTER) (hsecond : second.counter ≤ MAX_COUNTER) :
    first = second := by
  rw [encodeNonce_eq hlength, encodeNonce_eq (hsession ▸ hlength), hsession] at hsame
  obtain ⟨hfields, hcounter⟩ := append_inj (append_cancel_left hsame) rfl
  simp only [List.cons.injEq, and_true, true_and] at hfields
  rw [MAX_COUNTER] at hfirst hsecond
  have hbytes := @bigEndian_injective 8 _ _ (by omega) (by omega) hcounter
  cases first
  cases second
  simp only [FrameContext.mk.injEq]
  exact ⟨hsession, directionByte_injective hfields.1, payloadKindByte_injective hfields.2, hbytes⟩

section

variable {context : FrameContext} (hsession : context.sessionId.length = SESSION_ID_LENGTH)
include hsession

theorem length_encodeNonce : (encodeNonce context).length = NONCE_LENGTH := by
  rw [encodeNonce_eq hsession, length_append, length_append, length_bigEndian,
    length_take, hsession]
  rfl

theorem length_encodeHeader : (encodeHeader context).length = HEADER_LENGTH := by
  rw [encodeHeader_eq hsession, length_append, length_append, length_bigEndian, hsession]
  rfl

end

end Layout

section Comparison

theorem foldl_or_eq_zero (values : List ℕ) (start : ℕ) :
    values.foldl (· ||| ·) start = 0 ↔ start = 0 ∧ ∀ value ∈ values, value = 0 := by
  induction values generalizing start with
  | nil => simp
  | cons value rest ih => rw [foldl_cons, ih, Nat.or_eq_zero_iff, forall_mem_cons, and_assoc]

theorem zipWith_xor_eq_zero {left right : List Byte} (hlength : left.length = right.length) :
    (∀ value ∈ List.zipWith (fun first second => first.val ^^^ second.val) left right,
      value = 0) ↔ left = right := by
  induction left generalizing right with
  | nil =>
    rw [length_eq_zero_iff.mp hlength.symm]
    simp
  | cons first left ih =>
    cases right with
    | nil => simp at hlength
    | cons second right =>
      rw [zipWith_cons_cons, forall_mem_cons, ih (by simpa using hlength),
        Nat.xor_eq_zero_iff, List.cons.injEq, Fin.val_inj]

theorem equalBytes_iff (left right : List Byte) : equalBytes left right = true ↔ left = right := by
  rw [equalBytes, Bool.and_eq_true, decide_eq_true_eq, decide_eq_true_eq, foldl_or_eq_zero]
  constructor
  · rintro ⟨hlength, -, hzero⟩
    exact (zipWith_xor_eq_zero hlength).mp hzero
  · rintro rfl
    exact ⟨rfl, rfl, (zipWith_xor_eq_zero rfl).mpr rfl⟩

end Comparison

section Opening

variable {secretbox : Secretbox} {frame key payload : List Byte} {context : FrameContext}

theorem validateFrameInputs_ok {sessionId : List Byte} {counter : ℕ}
    (hvalid : validateFrameInputs key sessionId counter = .ok ()) :
    key.length = KEY_LENGTH ∧ sessionId.length = SESSION_ID_LENGTH ∧ counter ≤ MAX_COUNTER := by
  unfold validateFrameInputs at hvalid
  split_ifs at hvalid with hkey hsession hcounter
  exact ⟨not_not.mp hkey, not_not.mp hsession, Nat.le_of_not_lt hcounter⟩

theorem openExpected_eq_some (hopen : openExpected secretbox frame key context = some payload) :
    frame.take NONCE_LENGTH = encodeNonce context ∧ ∃ plaintext,
        secretbox.openBox (frame.drop NONCE_LENGTH) (encodeNonce context) key = some plaintext ∧
          payload = plaintext.drop HEADER_LENGTH := by
  unfold openExpected at hopen
  dsimp only at hopen
  split_ifs at hopen with hshort hnonce
  rw [Bool.not_eq_true, Bool.not_eq_false', equalBytes_iff] at hnonce
  obtain ⟨plaintext, hbox, hheader⟩ := Option.bind_eq_some_iff.mp hopen
  split_ifs at hheader with hdiffers
  exact ⟨hnonce, plaintext, hbox, (Option.some.inj hheader).symm⟩

theorem openExpected_sealed (hsession : context.sessionId.length = SESSION_ID_LENGTH) :
    openExpected secretbox
        (encodeNonce context ++
          secretbox.sealBox (encodeHeader context ++ payload) (encodeNonce context) key)
        key context = some payload := by
  have hnonce := length_encodeNonce hsession
  have hheader := length_encodeHeader hsession
  have hlong : ¬ (encodeNonce context ++
      secretbox.sealBox (encodeHeader context ++ payload) (encodeNonce context) key).length <
        NONCE_LENGTH + OVERHEAD_LENGTH + HEADER_LENGTH := by
    rw [length_append, secretbox.length_sealBox, length_append, hnonce, hheader]
    omega
  have hequal (bytes : List Byte) : equalBytes bytes bytes = true :=
    (equalBytes_iff bytes bytes).mpr rfl
  rw [openExpected, if_neg hlong]
  simp only [← hnonce, take_left, drop_left, hequal, secretbox.openBox_sealBox, Option.bind_some]
  rw [← hheader]
  simp [hequal]

end Opening

attribute [irreducible] encodeNonce encodeHeader

end Wakii.E2EE
