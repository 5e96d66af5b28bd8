import Lispmob.WireBounds

/-!
# The authentication field in the bytes of a message

`complete_auth_fields` and `check_auth_field` work on the message in place: the authentication data
is zeroed, the HMAC of the whole message is computed, and the result is written over the zeros. The
check keeps a copy of the data it found and compares the result with the copy, as C strings. It does
not put the copy back, so the data it found is lost unless it was the HMAC.

`lispMsgCheckAuthFieldBytes_good_iff` says that the record-level check of the message handlers,
`lispMsgCheckAuthField`, decides what the bytes decide.
-/

namespace Lispmob

open List

/-- Where the authentication record stands, `sizeof(map_notify_hdr_t)` in every message. -/
def AUTH_RECORD_POS : Nat := 12

/-- Where the authentication data stands, after the key type and the length. -/
def AUTH_DATA_POS : Nat := 16

section Hmac

variable (hmac : Hmac)

/-- The message with its authentication data zeroed. -/
def zeroedMsg (msg : List UInt8) : List UInt8 :=
  poke msg AUTH_DATA_POS (List.replicate SHA1_AUTH_DATA_LEN 0)

/-- `complete_auth_fields` on the authentication data of a message. -/
def completeAuthFields (keyId : UInt8) (key : CString) (msg : List UInt8) :
    Except Fault (Ret × List UInt8) := do
  if keyId ≠ 1 then return (.BAD, msg)
  else
    let _ ← bytesAt msg AUTH_DATA_POS SHA1_AUTH_DATA_LEN
    return (.GOOD, poke (zeroedMsg msg) AUTH_DATA_POS (hmac key.bytes (zeroedMsg msg)))

/-- `check_auth_field` on the authentication data of a message. -/
def checkAuthField (keyId : UInt8) (key : CString) (msg : List UInt8) :
    Except Fault (Ret × List UInt8) := do
  if keyId ≠ 1 then return (.BAD, msg)
  else
    let authDataCopy ← bytesAt msg AUTH_DATA_POS SHA1_AUTH_DATA_LEN
    let digest := hmac key.bytes (zeroedMsg msg)
    let msg' := poke (zeroedMsg msg) AUTH_DATA_POS digest
    if strncmpEq SHA1_AUTH_DATA_LEN digest authDataCopy then return (.GOOD, msg')
    else return (.BAD, msg')

/-- `lisp_msg_fill_auth_data`. -/
def lispMsgFillAuthData (keyId : UInt8) (key : CString) (msg : List UInt8) :
    Except Fault (Ret × List UInt8) :=
  completeAuthFields hmac keyId key msg

/-- `lisp_msg_check_auth_field`, with the message it leaves. -/
def lispMsgCheckAuthFieldBytes (key : CString) (msg : List UInt8) :
    Except Fault (Ret × List UInt8) := do
  let keyId ← uint16At msg AUTH_RECORD_POS
  let adLen ← uint16At msg (AUTH_RECORD_POS + 2)
  if SHA1_AUTH_DATA_LEN ≠ adLen then return (.BAD, msg)
  else checkAuthField hmac (UInt8.ofNat keyId) key msg

end Hmac

/-- The authentication data of a message. -/
def authData (msg : List UInt8) : List UInt8 :=
  (msg.drop AUTH_DATA_POS).take SHA1_AUTH_DATA_LEN

/-- The message has an authentication record with the given key type and length of data, and all
of its data. -/
structure HasAuthRecord (msg : List UInt8) (keyId adLen : Nat) : Prop where
  room : AUTH_DATA_POS + SHA1_AUTH_DATA_LEN ≤ msg.length
  keyId : uint16At msg AUTH_RECORD_POS = .ok keyId
  adLen : uint16At msg (AUTH_RECORD_POS + 2) = .ok adLen

/-- The message has a SHA-1 authentication record. -/
abbrev Sha1Record (msg : List UInt8) : Prop :=
  HasAuthRecord msg 1 20

section Checks

variable {hmac : Hmac} {msg : List UInt8}

/-- The parts of a message with an authentication record. -/
theorem exists_authData (h : AUTH_DATA_POS + SHA1_AUTH_DATA_LEN ≤ msg.length) :
    ∃ pre post, msg = pre ++ (authData msg ++ post) ∧ pre.length = AUTH_DATA_POS ∧
      (authData msg).length = SHA1_AUTH_DATA_LEN := by
  refine ⟨msg.take AUTH_DATA_POS, msg.drop (AUTH_DATA_POS + SHA1_AUTH_DATA_LEN), ?_, ?_, ?_⟩
  · rw [authData, ← drop_drop, take_append_drop, take_append_drop]
  · exact length_take_of_le (by omega)
  · rw [authData, length_take_of_le]
    rw [length_drop]
    omega

/-- Writing over the authentication data of a zeroed message. -/
theorem poke_zeroedMsg {pre data l : List UInt8} (post : List UInt8)
    (hpre : pre.length = AUTH_DATA_POS)
    (hdata : data.length = SHA1_AUTH_DATA_LEN) (hl : l.length = SHA1_AUTH_DATA_LEN) :
    poke (zeroedMsg (pre ++ (data ++ post))) AUTH_DATA_POS l = pre ++ (l ++ post) := by
  have hzeros : (replicate SHA1_AUTH_DATA_LEN (0 : UInt8)).length = data.length := by
    rw [length_replicate, hdata]
  rw [zeroedMsg, ← hpre, poke_append pre post hzeros, poke_append pre post (by rw [hl, hzeros,
    hdata])]

/-- The check of a record with the right length of data, of the type SHA-1 up to a byte. -/
theorem lispMsgCheckAuthFieldBytes_eq (hmac : Hmac) (key : CString)
    {keyId : Nat} (h : HasAuthRecord msg keyId SHA1_AUTH_DATA_LEN) (htype : UInt8.ofNat keyId = 1) :
    lispMsgCheckAuthFieldBytes hmac key msg =
      .ok (if strncmpEq SHA1_AUTH_DATA_LEN (hmac key.bytes (zeroedMsg msg)) (authData msg)
          then .GOOD else .BAD,
        poke (zeroedMsg msg) AUTH_DATA_POS (hmac key.bytes (zeroedMsg msg))) := by
  have hcopy : bytesAt msg AUTH_DATA_POS SHA1_AUTH_DATA_LEN = .ok (authData msg) := by
    rw [bytesAt, slice, if_pos h.room]
    rfl
  simp only [lispMsgCheckAuthFieldBytes, h.keyId, h.adLen, bind, Except.bind, checkAuthField, hcopy,
    htype, ne_eq, not_true, if_false]
  split_ifs
  · rfl
  · rfl

/-- The check of the message handlers accepts what the check of the bytes accepts. -/
theorem lispMsgCheckAuthFieldBytes_good_iff (hmac : Hmac)
    (key : CString) {keyId adLen : Nat} (h : HasAuthRecord msg keyId adLen) :
    (∃ msg', lispMsgCheckAuthFieldBytes hmac key msg = .ok (.GOOD, msg')) ↔
      lispMsgCheckAuthField hmac ⟨UInt16.ofNat keyId, UInt16.ofNat adLen, authData msg,
        zeroedMsg msg⟩ key.bytes = true := by
  have hfits : adLen < 65536 := by
    obtain ⟨l, hl, rfl⟩ := Option.map_eq_some_iff.mp (uint16At_ok.mp h.adLen)
    have hlt := beNat_lt l
    rw [slice_length hl] at hlt
    exact hlt
  have hadLen : UInt16.ofNat adLen = 20 ↔ adLen = SHA1_AUTH_DATA_LEN := by
    rw [← UInt16.toNat_inj, UInt16.toNat_ofNat', Nat.mod_eq_of_lt hfits]
    rfl
  have htype : (UInt16.ofNat keyId).toUInt8 = UInt8.ofNat keyId := by simp
  simp only [lispMsgCheckAuthField, Bool.and_eq_true, decide_eq_true_eq, hadLen, htype]
  by_cases hlen : adLen = SHA1_AUTH_DATA_LEN
  · subst hlen
    by_cases hid : UInt8.ofNat keyId = 1
    · rw [lispMsgCheckAuthFieldBytes_eq hmac key h hid]
      split_ifs with hcmp
      · simp [hid, hcmp]
      · simp [hcmp]
    · simp [lispMsgCheckAuthFieldBytes, h.keyId, h.adLen, bind, Except.bind, checkAuthField, hid,
        pure, Except.pure]
  · simp [lispMsgCheckAuthFieldBytes, h.keyId, h.adLen, bind, Except.bind, Ne.symm hlen, hlen, pure,
      Except.pure]

/-- The bytes after a check, or after the data was filled in, are those before exactly when the
authentication data was the HMAC. -/
theorem patched_eq_iff (hlen : ∀ k m, (hmac k m).length = SHA1_AUTH_DATA_LEN) (key : CString)
    (h : AUTH_DATA_POS + SHA1_AUTH_DATA_LEN ≤ msg.length) :
    poke (zeroedMsg msg) AUTH_DATA_POS (hmac key.bytes (zeroedMsg msg)) = msg ↔
      authData msg = hmac key.bytes (zeroedMsg msg) := by
  obtain ⟨pre, post, hmsg, hpre, hdata⟩ := exists_authData h
  generalize hd : hmac key.bytes (zeroedMsg msg) = digest
  have hdigest : digest.length = SHA1_AUTH_DATA_LEN := hd ▸ hlen _ _
  generalize authData msg = data at hmsg hdata ⊢
  rw [hmsg, poke_zeroedMsg post hpre hdata hdigest, append_cancel_left_eq]
  constructor
  · intro heq
    exact (append_inj_left heq (by rw [hdigest, hdata])).symm
  · rintro rfl
    rfl

end Checks

/-- The check of a message is as it should be: it succeeds exactly when the authentication data is
the HMAC of the message with that data zeroed, and leaves the message as it is. -/
def ChecksHmac (hmac : Hmac) (key : CString) (msg : List UInt8) :
    Prop :=
  ∃ ret msg', lispMsgCheckAuthFieldBytes hmac key msg = .ok (ret, msg') ∧
    (ret = .GOOD ↔ authData msg = hmac key.bytes (zeroedMsg msg)) ∧ msg' = msg

/-- Completing the message gives one that is accepted and left as it is. -/
def AcceptsCompleted (hmac : Hmac) (key : CString)
    (msg : List UInt8) : Prop :=
  ∃ msg', lispMsgFillAuthData hmac 1 key msg = .ok (.GOOD, msg') ∧
    lispMsgCheckAuthFieldBytes hmac key msg' = .ok (.GOOD, msg')

theorem acceptsCompleted {hmac : Hmac}
    (hlen : ∀ k m, (hmac k m).length = SHA1_AUTH_DATA_LEN) (key : CString) {msg : List UInt8}
    (h : Sha1Record msg) : AcceptsCompleted hmac key msg := by
  obtain ⟨pre, post, hmsg, hpre, hdata⟩ := exists_authData h.room
  generalize authData msg = data at hmsg hdata
  subst hmsg
  generalize hd : hmac key.bytes (zeroedMsg (pre ++ (data ++ post))) = digest
  have hdigest : digest.length = SHA1_AUTH_DATA_LEN := hd ▸ hlen _ _
  have hfill := poke_zeroedMsg post hpre hdata hdigest
  have hrecord : Sha1Record (pre ++ (digest ++ post)) := by
    refine ⟨?_, ?_, ?_⟩
    · simp only [length_append, hpre, hdigest]
      omega
    · have hkey := h.keyId
      rwa [uint16At, bytesAt, slice_append_left (by rw [hpre]; decide)] at hkey ⊢
    · have hlen' := h.adLen
      rwa [uint16At, bytesAt, slice_append_left (by rw [hpre]; decide)] at hlen' ⊢
  have hzeroed : zeroedMsg (pre ++ (digest ++ post)) = zeroedMsg (pre ++ (data ++ post)) := by
    have hzeros : ∀ l : List UInt8, l.length = SHA1_AUTH_DATA_LEN →
        (replicate SHA1_AUTH_DATA_LEN (0 : UInt8)).length = l.length := by
      intro l hl
      rw [length_replicate, hl]
    rw [zeroedMsg, zeroedMsg, ← hpre, poke_append pre post (hzeros _ hdigest),
      poke_append pre post (hzeros _ hdata)]
  have hauth : authData (pre ++ (digest ++ post)) = digest := by
    rw [authData, ← hpre, drop_left, ← hdigest, take_left]
  refine ⟨pre ++ (digest ++ post), ?_, ?_⟩
  · have hbytes : bytesAt (pre ++ (data ++ post)) AUTH_DATA_POS SHA1_AUTH_DATA_LEN = .ok data := by
      rw [bytesAt, ← hpre, ← hdata, slice_append]
    simp only [lispMsgFillAuthData, completeAuthFields, hbytes, hd, hfill, bind, Except.bind, pure,
      Except.pure, ne_eq, not_true, if_false]
  · rw [lispMsgCheckAuthFieldBytes_eq hmac key hrecord (by decide), hauth, hzeroed, hd, hfill,
      strncmpEq_self, if_pos rfl]

/-- For a message with a SHA-1 record the check is as it should be exactly when the data is the
HMAC: any other data is overwritten by the HMAC, and is accepted too when it agrees with it up to a
zero byte. A completed message is always accepted. -/
theorem auth_field_checked_iff {hmac : Hmac}
    (hlen : ∀ k m, (hmac k m).length = SHA1_AUTH_DATA_LEN) (key : CString) {msg : List UInt8}
    (h : Sha1Record msg) :
    (ChecksHmac hmac key msg ↔ authData msg = hmac key.bytes (zeroedMsg msg)) ∧
      AcceptsCompleted hmac key msg := by
  refine ⟨⟨?_, ?_⟩, acceptsCompleted hlen key h⟩
  · rintro ⟨ret, msg', hcheck, -, rfl⟩
    rw [lispMsgCheckAuthFieldBytes_eq hmac key h (by decide), Except.ok.injEq,
      Prod.mk.injEq] at hcheck
    exact (patched_eq_iff hlen key h.room).mp hcheck.2
  · intro hdata
    refine ⟨_, _, lispMsgCheckAuthFieldBytes_eq hmac key h (by decide), ?_,
      (patched_eq_iff hlen key h.room).mpr hdata⟩
    rw [← hdata, strncmpEq_self]
    simp

/-- A Map-Notify without records, with the given authentication data. -/
def labNotifyBytes (data : List UInt8) : List UInt8 :=
  [0x40, 0, 0, 0, 0, 0, 0, 0, 0, 0, 0, 0, 0, 1, 0, 20] ++ data

theorem lispMsgCheckAuthFieldBytes_good_zeros : ∃ msg',
    lispMsgCheckAuthFieldBytes (fun _ _ => replicate 20 0) ⟨[0x61], by simp⟩
      (labNotifyBytes (replicate 20 0)) = .ok (.GOOD, msg') :=
  (lispMsgCheckAuthFieldBytes_good_iff _ _ ⟨by decide, rfl, rfl⟩).mpr rfl

theorem auth_field_checked_zeros :
    (∀ k m : List UInt8, ((fun _ _ => replicate 20 0 : Hmac)
        k m).length = SHA1_AUTH_DATA_LEN) ∧
      Sha1Record (labNotifyBytes (replicate 20 0)) ∧
      ChecksHmac (fun _ _ => replicate 20 0) ⟨[0x61], by simp⟩
        (labNotifyBytes (replicate 20 0)) :=
  ⟨fun _ _ => rfl, ⟨by decide, rfl, rfl⟩,
    (auth_field_checked_iff (fun _ _ => rfl) ⟨[0x61], by simp⟩ ⟨by decide, rfl, rfl⟩).1.mpr
      (by decide)⟩

/-- With an HMAC that begins with a zero byte, data that differs after it is accepted; with data
that is refused, the message is left with the HMAC in its place. -/
theorem auth_field_cut_short :
    lispMsgCheckAuthFieldBytes (fun _ _ => replicate 20 0) ⟨[0x61], by simp⟩
        (labNotifyBytes (0 :: replicate 19 7)) =
      .ok (.GOOD, labNotifyBytes (replicate 20 0)) ∧
    lispMsgCheckAuthFieldBytes (fun _ _ => replicate 20 0) ⟨[0x61], by simp⟩
        (labNotifyBytes (replicate 20 7)) =
      .ok (.BAD, labNotifyBytes (replicate 20 0)) :=
  ⟨rfl, rfl⟩

end Lispmob
