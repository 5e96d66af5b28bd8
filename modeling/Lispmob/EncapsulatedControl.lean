import Lispmob.ChecksumFields
import Lispmob.RequestRoundTrips

/-!
# Encapsulated control messages

`lisp_msg_encap` puts the headers of an inner packet and of an Encapsulated Control Message in front
of a control message, and `lisp_msg_ecm_decap` takes them off again.

The receiver computes the checksum of the inner UDP packet as the sender did, but with the checksum
in place. So what the receiver computes is `0` (`ecm_decap_encap`).
-/

namespace Lispmob

open List

/-! ## The code -/

/-- `lisp_msg_encap`. Whether the inner headers could be pushed is not checked. The offsets of the
message and of its header in the buffer are set again by the receiver. -/
def lispMsgEncap (malloc : Malloc) (ipId : UInt16) (b : Lbuf) (lp rp : UInt16) (la ra : IpAddr) :
    Except Fault (Lbuf × UInt16) := do
  let (_, b, ipId) ← pktPushUdpAndIp malloc ipId b lp rp la ra
  let b ← b.pushUninit malloc 4
  return (b.store b.dataPtr [0x80, 0, 0, 0], ipId)

/-- The addresses that `udp_checksum` reads from an IP header of this version. -/
def ipHdrAddrs (v : UInt8) (iph : List UInt8) : Except Fault (IpAddr × IpAddr) :=
  if v = 4 then
    match Iphdr.ofBytes iph with
    | none => .error .outOfRange
    | some (h, _) => .ok (.v4 h.saddr, .v4 h.daddr)
  else
    match Ip6Hdr.ofBytes iph with
    | none => .error .outOfRange
    | some (h, _) => .ok (.v6 h.src, .v6 h.dst)

/-- What `lisp_msg_ecm_decap` returns and changes: `lisp` is the offset of the LISP message. -/
structure EcmDecap where
  ret : Ret
  buf : Lbuf
  lisp : Option Nat
  srcPort : UInt16

/-- `lisp_msg_ecm_decap`. None of the headers is checked to be there, and a wrong checksum of the
IPv4 header is only logged. -/
def lispMsgEcmDecap (b : Lbuf) : Except Fault EcmDecap := do
  let b := ((b.pull 4).getD b).resetL3
  let iph := b.dataPtr
  let pulled ← pktPullIp b
  let b := pulled.getD b
  let udph := b.dataPtr
  let b := (b.pull 8).getD b
  match Udphdr.ofBytes (b.deref udph) with
  | none => throw .outOfRange
  | some (uh, _) =>
    if pulled.isNone then throw .nullDeref
    else
      let v ← byteAt (b.deref iph) 0
      if uh.check ≠ 0 then
        let (src, dst) ← ipHdrAddrs (v >>> 4) (b.deref iph)
        let udpsum ← udpChecksum (b.deref udph) uh.len src dst
        return ⟨if udpsum ≠ 0 then .BAD else .GOOD, b, lbufOffset b.dataPtr, uh.source⟩
      else return ⟨.GOOD, b, lbufOffset b.dataPtr, uh.source⟩

/-- A UDP packet that carries its checksum is found to be intact, whatever follows it in memory. -/
theorem udpChecksum_verifies {uh : Udphdr} {msg tail : List UInt8} {src dst : IpAddr}
    {sum : UInt16} (hcheck : uh.check = 0) (hlen : uh.len.toNat = 8 + msg.length)
    (hsum : udpChecksum (uh.toBytes ++ (msg ++ tail)) uh.len src dst = .ok sum)
    (tail' : List UInt8) :
    udpChecksum ({ uh with check := ntohs sum }.toBytes ++ (msg ++ tail')) uh.len src dst =
      .ok 0 := by
  -- the length in the header covers the header and the message
  have hle : ∀ h : Udphdr, (h.toBytes ++ msg).length ≤ 65535 := by
    intro h
    have hlt : uh.len.toNat < 2 ^ 16 := uh.len.toNat_lt
    rw [length_append, Udphdr.toBytes_length]
    omega
  have hcover : ∀ (h : Udphdr) (t : List UInt8),
      udpChecksum (h.toBytes ++ (msg ++ t)) uh.len src dst =
        udpChecksum (h.toBytes ++ msg) (.ofNat (h.toBytes ++ msg).length) src dst := by
    intro h t
    rw [← append_assoc, ← udpChecksum_append (hle h) t, length_append,
      Udphdr.toBytes_length, ← hlen,
      UInt16.ofNat_toNat]
  rw [hcover] at hsum ⊢
  obtain ⟨sum', heq, -, hfield⟩ := udpChecksum_checksumOf (hle uh) src dst
  cases hsum.symm.trans heq
  have hzero := hfield (beBytes 2 uh.source.toNat ++ (beBytes 2 uh.dest.toNat ++
    beBytes 2 uh.len.toNat)) msg (by simp [Udphdr.toBytes, hcheck, beBytes]) (by simp)
  simpa [Udphdr.toBytes] using hzero

/-! ## The round trip -/

/-- The headers that are in front of an encapsulated message. -/
theorem lispMsgEncap_eq (malloc : Malloc) (ipId lp rp : UInt16) {la ra : IpAddr} {b : Lbuf}
    (hfam : ipAddrAfi la = ipAddrAfi ra) (hhead : 52 ≤ b.head.length)
    (hoff : b.head.length < UINT16_MAX) :
    ∃ (hdr : IpHdr) (uh : Udphdr) (sum ipId' : UInt16) (b' : Lbuf) (tail : List UInt8),
      hdr.Versioned ∧ hdr.src = la ∧ hdr.dst = ra ∧
      uh = ⟨lp, rp, .ofNat (8 + b.data.length), 0⟩ ∧
      udpChecksum (uh.toBytes ++ (b.data ++ tail)) uh.len la ra = .ok sum ∧
      b'.data = [0x80, 0, 0, 0] ++
        (hdr.toBytes ++ ({ uh with check := ntohs sum }.toBytes ++ b.data)) ∧
      b.head.length = b'.head.length + 4 + hdr.toBytes.length + 8 ∧
      lispMsgEncap malloc ipId b lp rp la ra = .ok (b', ipId') := by
  obtain ⟨hdr, uh, sum, ipId', b1, hver, -, hsrc, hdst, hdata, huh, hroom, hsum, hpush⟩ :=
    pktPushUdpAndIp_eq malloc ipId (by omega : 48 ≤ b.head.length) hoff lp rp hfam
  have hle := hdr.toBytes_length_le
  obtain ⟨old, -, hold, hecm⟩ := Lbuf.pushUninit_eq malloc (by omega : 4 ≤ b1.head.length)
  refine ⟨hdr, uh, sum, ipId', b1.push [0x80, 0, 0, 0], b1.tail, hver, hsrc, hdst,
    huh, hsum, ?_, ?_,
    ?_⟩
  · rw [Lbuf.push, hdata]
  · simp only [Lbuf.push_head_length, length_cons, length_nil]
    omega
  · simp only [lispMsgEncap, hpush, bind, Except.bind, hecm]
    rw [Lbuf.store_push b1 (by rw [hold]; rfl)]
    rfl

theorem ipHdrAddrs_eq {hdr : IpHdr} (rest : List UInt8) :
    ipHdrAddrs hdr.version (hdr.toBytes ++ rest) = .ok (hdr.src, hdr.dst) := by
  cases hdr with
  | v4 h => rw [ipHdrAddrs, IpHdr.version, if_pos rfl, IpHdr.toBytes, Iphdr.ofBytes_toBytes]; rfl
  | v6 h =>
    rw [ipHdrAddrs, IpHdr.version, if_neg (by decide), IpHdr.toBytes, Ip6Hdr.ofBytes_toBytes]
    rfl

/-- The three headers come off when the checksum of the UDP packet is right. -/
theorem lispMsgEcmDecap_eq {b : Lbuf} {hdr : IpHdr} {uh : Udphdr} {ecm msg : List UInt8}
    (hecm : ecm.length = 4) (hver : hdr.Versioned)
    (hdata : b.data = ecm ++ (hdr.toBytes ++ (uh.toBytes ++ msg)))
    (hsum : ∀ tail, udpChecksum (uh.toBytes ++ (msg ++ tail)) uh.len hdr.src hdr.dst = .ok 0) :
    ∃ b' : Lbuf, lispMsgEcmDecap b = .ok ⟨.GOOD, b', lbufOffset b'.dataPtr, uh.source⟩ ∧
      b'.data = msg ∧ b'.head.length = b.head.length + 4 + hdr.toBytes.length + 8 := by
  have hpull := hecm ▸ Lbuf.pull_eq b hdata
  generalize hb1 : Lbuf.resetL3 { b with
    head := b.head ++ ecm, data := hdr.toBytes ++ (uh.toBytes ++ msg) } = b1
  have hip := pktPullIp_eq (b := b1) hver (by rw [← hb1]; rfl)
  generalize hb2 : ({ b1 with
    head := b1.head ++ hdr.toBytes, data := uh.toBytes ++ msg } : Lbuf) = b2 at hip
  have hudp : b2.pull 8 = some { b2 with head := b2.head ++ uh.toBytes, data := msg } :=
    uh.toBytes_length ▸ Lbuf.pull_eq b2 (by rw [← hb2])
  generalize hb3 : ({ b2 with head := b2.head ++ uh.toBytes, data := msg } : Lbuf) = b3 at hudp
  have hderef : b3.deref b2.dataPtr = uh.toBytes ++ (msg ++ b3.tail) := by
    rw [Lbuf.dataPtr, Lbuf.deref_head b3 (by rw [← hb3]), ← hb3]
  have hiph : b3.deref b1.dataPtr = hdr.toBytes ++ (uh.toBytes ++ (msg ++ b3.tail)) := by
    rw [Lbuf.dataPtr, Lbuf.deref_head b3 (show b3.head = b1.head ++ _ by
      rw [← hb3, ← hb2, append_assoc]), ← hb3, append_assoc]
  obtain ⟨v, hbyte, hv⟩ := hver.byteAt (uh.toBytes ++ (msg ++ b3.tail))
  refine ⟨b3, ?_, by rw [← hb3], ?_⟩
  · simp only [lispMsgEcmDecap, hpull, Option.getD_some, hb1, hip, bind, Except.bind, hudp, hderef,
      Udphdr.ofBytes_toBytes, Option.isNone_some, Bool.false_eq_true, if_false, hiph, hbyte, hv,
      ipHdrAddrs_eq, hsum, ne_eq, not_true_eq_false]
    split_ifs <;> rfl
  · rw [← hb3, ← hb2, ← hb1]
    simp [Lbuf.resetL3, hecm, Nat.add_assoc]

/-- Every control message whose UDP length has 16 bits, in a buffer with at least the headroom that
`lisp_msg_create_buf` leaves and no more than its offsets can say, every pair of ports and two
addresses of one family: the message comes out as it was, marked as the LISP message, with the port
that the inner packet came from. -/
theorem ecm_decap_encap (malloc : Malloc) (ipId lp rp : UInt16) {la ra : IpAddr}
    (hfam : ipAddrAfi la = ipAddrAfi ra) {b : Lbuf}
    (hhead : MAX_LISP_MSG_ENCAP_LEN ≤ b.head.length) (hoff : b.head.length < UINT16_MAX)
    (hfits : 8 + b.data.length < 2 ^ 16) :
    ∃ b' ipId' b'', lispMsgEncap malloc ipId b lp rp la ra = .ok (b', ipId') ∧
      lispMsgEcmDecap b' = .ok ⟨.GOOD, b'', some b''.dataPtr, lp⟩ ∧ b''.data = b.data := by
  simp only [MAX_LISP_MSG_ENCAP_LEN] at hhead
  obtain ⟨hdr, uh, sum, ipId', b', tail, hver, rfl, rfl, huh, hsum, hdata, hlen', hencap⟩ :=
    lispMsgEncap_eq malloc ipId lp rp hfam (by omega : 52 ≤ b.head.length) hoff
  have hlen : uh.len.toNat = 8 + b.data.length := by
    rw [huh, UInt16.toNat_ofNat_of_lt' hfits]
  have hverifies := udpChecksum_verifies (by rw [huh]) hlen hsum
  obtain ⟨b'', hdecap, hmsg, hlen''⟩ := lispMsgEcmDecap_eq (by rfl) hver hdata hverifies
  rw [lbufOffset_of_lt (by rwa [Lbuf.dataPtr, hlen'', ← hlen'])] at hdecap
  have hport : uh.source = lp := by rw [huh]
  exact ⟨b', ipId', b'', hencap, hport ▸ hdecap, hmsg⟩

/-- A message of three bytes, with the headers of IPv6. -/
theorem ecm_decap_encap_lab : ∃ b' ipId' b'',
    lispMsgEncap labMalloc 0 { lispMsgCreateBuf.toLbuf with data := [1, 2, 3] } 4342 4342 (.v6 1)
        (.v6 2) = .ok (b', ipId') ∧
      lispMsgEcmDecap b' = .ok ⟨.GOOD, b'', some b''.dataPtr, 4342⟩ ∧ b''.data = [1, 2, 3] :=
  ecm_decap_encap labMalloc 0 4342 4342 (show ipAddrAfi (.v6 1) = ipAddrAfi (.v6 2) from rfl)
    (b := { lispMsgCreateBuf.toLbuf with data := [1, 2, 3] }) (by decide +kernel)
    (by decide +kernel) (by decide)

end Lispmob
