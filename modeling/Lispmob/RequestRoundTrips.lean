import Lispmob.MessageBounds
import Lispmob.RecordWriting

/-!
# Map-Requests that are read back

`lisp_msg_mreq_create` builds a Map-Request with a source EID, the addresses of the ITR and a first
EID, and `lisp_msg_put_eid_rec` appends further ones. The counts go into the header after the bytes
are appended, through a pointer taken then, so they are in place however large the message gets.

A receiver reads the source EID and the addresses of the ITR back, and the first EID too
(`startReadsBack`). But the addresses of the ITR come in the opposite order, since each is put in
front of those before it. And `lisp_msg_parse_eid_rec` steps over the address of a record without
its header, so it is two bytes behind after each of them: a second EID is read from the wrong place,
and a Map-Request is never consumed to its end.
-/

namespace Lispmob

open Prog List Option

/-! ## The code -/

/-- `MAX_LISP_MSG_ENCAP_LEN`. -/
def MAX_LISP_MSG_ENCAP_LEN : Nat := 2 * (40 + 8) + 4

/-- The size of a buffer without its headroom, in `lisp_msg_create_buf`. -/
def MSG_ROOM : Nat := 4096

/-- `lisp_msg_create_buf`. -/
def lispMsgCreateBuf : MsgBuf :=
  { source := .MALLOC, head := List.replicate MAX_LISP_MSG_ENCAP_LEN 0, data := [],
    tail := List.replicate MSG_ROOM 0, ip := none, udp := none, l3 := none, block := 0,
    lisp := MAX_LISP_MSG_ENCAP_LEN, lisp_lt := by decide, heap := rfl }

/-- `map_request_hdr_init`. -/
def mapRequestHdrInit : List UInt8 :=
  0x10 :: List.replicate 11 0

section Code

variable (malloc : Malloc)

/-- `lisp_msg_create`, for a Map-Request. -/
def lispMsgCreateMapRequest : Except Fault MsgBuf :=
  let (hdr, b) := lispMsgCreateBuf.putUninit malloc MSG_HDR_LEN
  b.write hdr [(hdr.off, mapRequestHdrInit)]

/-- The loop of `lisp_msg_put_itr_rlocs`. -/
def putItrRlocs : List LispAddr → MsgBuf → Except Fault (Option MsgBuf)
  | [], b => .ok (some b)
  | rloc :: rest, b => do
    match ← lispMsgPutAddr malloc b rloc with
    | (none, _) => return none
    | (some _, b) => putItrRlocs rest b

/-- `lisp_msg_put_itr_rlocs`; the count has five bits. -/
def lispMsgPutItrRlocs (b : MsgBuf) (rlocs : List LispAddr) : Except Fault (Option MsgBuf) := do
  if rlocs.length = 0 then return none
  else
    match ← putItrRlocs malloc rlocs b with
    | none => return none
    | some b => some <$> b.modifyByte b.lispPtr 2 fun x =>
        (x &&& 0xe0) ||| UInt8.ofNat ((rlocs.length - 1) % 32)

/-- `lisp_msg_put_eid_rec`. The result of writing the EID is ignored. -/
def lispMsgPutEidRec (b : MsgBuf) (eid : LispAddr) : Except Fault MsgBuf := do
  let (hdr, b) := b.putUninit malloc 2
  let b ← b.write hdr [(hdr.off, [0, 0])]
  let b ← b.write hdr [(hdr.off + 1, [lispAddrGetPlen eid])]
  let (_, b) ← lispMsgPutAddr malloc b eid
  incrementRecordCount b

/-- `lisp_msg_mreq_create`; `none` is the null pointer. -/
def lispMsgMreqCreateBytes (seid : LispAddr) (itrRlocs : List LispAddr) (deid : LispAddr) :
    Except Fault (Option MsgBuf) := do
  let b ← lispMsgCreateMapRequest malloc
  match ← lispMsgPutAddr malloc b seid with
  | (none, _) => return none
  | (some _, b) =>
    match ← lispMsgPutItrRlocs malloc b itrRlocs with
    | none => return none
    | some b => some <$> lispMsgPutEidRec malloc b deid

/-- Further EID records. -/
def putEidRecs : List LispAddr → MsgBuf → Except Fault MsgBuf
  | [], b => .ok b
  | eid :: rest, b => do putEidRecs rest (← lispMsgPutEidRec malloc b eid)

end Code

/-- What is read of a Map-Request. -/
structure RequestRead where
  seid : AddrField
  itrRlocs : List LispAddr
  eids : List EidRead
  /-- The data pointer after the last record. -/
  stop : Nat

/-- Read a Map-Request at the start of a message: the header is pulled, and the source EID, the
addresses of the ITR and the announced records are parsed. -/
def readRequest (b : List UInt8) : Except Fault RequestRead := do
  let (seid, data) ← lispMsgParseAddr b (lbufPull b 0 MSG_HDR_LEN)
  let hdr ← readHdr b 0
  let (itrRlocs, data) ← lispMsgParseItrRlocs b (hdr.flags2.toNat % 32 + 1) data
  let (eids, stop) ← readEidRecs b hdr.recCount.toNat .new data
  return ⟨seid, itrRlocs, eids, stop⟩

/-- An IP prefix. -/
structure EidPrefix where
  ip : IpAddr
  plen : UInt8

namespace EidPrefix

def addr (p : EidPrefix) : LispAddr :=
  .ippref p.ip p.plen

/-- The prefix as a record of it is read. -/
def read (p : EidPrefix) : EidRead :=
  ⟨.set (.ip p.ip), p.plen⟩

/-- The bytes of its record. -/
def bytes (p : EidPrefix) : List UInt8 :=
  [0, p.plen] ++ ipAddrEncoding p.ip

end EidPrefix

/-! ## Building a Map-Request -/

/-- The header of a Map-Request with its two counts. -/
def requestHdr (rlocs n : UInt8) : List UInt8 :=
  [0x10, 0, rlocs, n] ++ List.replicate 8 0

/-- A Map-Request under construction. -/
structure IsRequest (b : MsgBuf) (rlocs n : UInt8) (body : List UInt8) : Prop where
  start : b.lisp = b.head.length
  data : b.data = requestHdr rlocs n ++ body

variable {rlocs n : UInt8}

theorem IsRequest.append {b b' : MsgBuf} {body y : List UInt8}
    (h : IsRequest b rlocs n body) (happ : Appended b b' y) : IsRequest b' rlocs n (body ++ y) :=
  ⟨by rw [happ.lisp, happ.head, h.start], by rw [happ.data, h.data, append_assoc]⟩

theorem lispMsgCreateMapRequest_spec (malloc : Malloc) :
    ∃ b, lispMsgCreateMapRequest malloc = .ok b ∧ IsRequest b 0 0 [] := by
  obtain ⟨y, b, hput, hlen, happ, -⟩ := putUninit_spec malloc lispMsgCreateBuf MSG_HDR_LEN
  have happ' : Appended lispMsgCreateBuf b ([] ++ (y ++ [])) := by simpa using happ
  obtain ⟨b', hwrite, happ'', -⟩ := happ'.write_at (l := mapRequestHdrInit)
    (p := ⟨b.block, lispMsgCreateBuf.head.length + lispMsgCreateBuf.data.length⟩)
    (by rw [hlen]; rfl) rfl rfl
  refine ⟨b', ?_, ?_, ?_⟩
  · rw [lispMsgCreateMapRequest, hput]
    exact hwrite
  · rw [happ''.lisp, happ''.head]
    rfl
  · rw [happ''.data]
    rfl

/-- The addresses are appended one after the other, up to one that cannot be written. -/
theorem putItrRlocs_spec (malloc : Malloc) : ∀ (rlocs : List LispAddr) (b : MsgBuf),
    ∃ r, putItrRlocs malloc rlocs b = .ok r ∧ r.isSome = rlocs.all lispAddrWritable ∧
      ∀ b' ∈ r, ∃ es, List.Forall₂ AddrBytes rlocs es ∧ Appended b b' es.flatten
  | [], b => by
    refine ⟨some b, rfl, rfl, ?_⟩
    rintro _ ⟨⟩
    exact ⟨[], .nil, .refl b⟩
  | rloc :: rest, b => by
    obtain ⟨ptr, e, b1, hput, he, happ, -, hptr⟩ := lispMsgPutAddr_bytes malloc b rloc
    rw [putItrRlocs, hput, all_cons, ← Bool.eq_iff_iff.mpr hptr]
    cases ptr with
    | none => exact ⟨none, rfl, rfl, by simp⟩
    | some ptr =>
      obtain ⟨r, hrest, hall, happ'⟩ := putItrRlocs_spec malloc rest b1
      refine ⟨r, hrest, hall, fun b' hb' => ?_⟩
      obtain ⟨es, hes, happ2⟩ := happ' b' hb'
      exact ⟨e :: es, .cons he hes, happ.trans happ2⟩

variable {body : List UInt8} {itrRlocs : List IpAddr} {seid : LispAddr} {e : List UInt8}
  {p : EidPrefix} {b : MsgBuf}

theorem lispMsgPutItrRlocs_spec (malloc : Malloc)
    (h : IsRequest b 0 0 body) (rlocs : List LispAddr) :
    ∃ r, lispMsgPutItrRlocs malloc b rlocs = .ok r ∧
      r.isSome = (!rlocs.isEmpty && rlocs.all lispAddrWritable) ∧
      ∀ b' ∈ r, ∃ es, List.Forall₂ AddrBytes rlocs es ∧
        IsRequest b' (UInt8.ofNat ((rlocs.length - 1) % 32)) 0 (body ++ es.flatten) := by
  obtain ⟨r, hput, hall, happ⟩ := putItrRlocs_spec malloc rlocs b
  by_cases hnil : rlocs = []
  · subst hnil
    exact ⟨none, rfl, rfl, by simp⟩
  rw [lispMsgPutItrRlocs, if_neg (mt length_eq_zero_iff.mp hnil), hput, ← hall,
    isEmpty_eq_false_iff.mpr hnil]
  cases r with
  | none => exact ⟨none, rfl, rfl, by simp⟩
  | some b1 =>
    obtain ⟨es, hes, happ⟩ := happ b1 rfl
    have h1 := h.append happ
    have hdata : b1.data = [0x10, 0] ++
      (0 :: (0 :: List.replicate 8 0 ++ (body ++ es.flatten))) := by
      rw [h1.data]
      rfl
    have hcount := modifyByte_at hdata (p := b1.lispPtr) (i := 2) rfl
      (by simp [MsgBuf.lispPtr, h1.start])
      fun x => (x &&& 0xe0) ||| UInt8.ofNat ((rlocs.length - 1) % 32)
    refine ⟨some { b1 with data := requestHdr (UInt8.ofNat ((rlocs.length - 1) % 32)) 0 ++
      (body ++ es.flatten) }, ?_, rfl, ?_⟩
    · simp only [hcount, bind, Except.bind]
      simp [requestHdr, Functor.map, Except.map]
    · rintro _ ⟨⟩
      exact ⟨es, hes, h1.start, rfl⟩

theorem lispMsgPutEidRec_spec (malloc : Malloc) (h : IsRequest b rlocs n body) (eid : LispAddr) :
    ∃ e b', lispMsgPutEidRec malloc b eid = .ok b' ∧ AddrBytes eid e ∧
      IsRequest b' rlocs (n + 1) (body ++ ([0, lispAddrGetPlen eid] ++ e)) := by
  obtain ⟨y, b1, hput, hlen, happ, -⟩ := putUninit_spec malloc b 2
  have happ' : Appended b b1 ([] ++ (y ++ [])) := by simpa using happ
  obtain ⟨b2, hinit, happ2, hblock2, -⟩ := happ'.write_at (l := [0, 0])
    (p := ⟨b1.block, b.head.length + b.data.length⟩) hlen
    (show b.head.length + b.data.length = _ from rfl) rfl
  have happ2' : Appended b b2 ([0] ++ ([0] ++ [])) := happ2
  obtain ⟨b3, hplen, happ3, -⟩ := happ2'.write_at (l := [lispAddrGetPlen eid])
    (p := ⟨b1.block, b.head.length + b.data.length⟩) rfl
    (show b.head.length + b.data.length + 1 = _ from rfl) hblock2.symm
  obtain ⟨ptr, e, b4, haddr, he, happ4, -⟩ := lispMsgPutAddr_bytes malloc b3 eid
  have h4 := h.append (happ3.trans happ4)
  obtain ⟨b', hcount, hhead, hlisp, hdata, -⟩ :=
    incrementRecordCount_spec h4.data h4.start (by simp [requestHdr])
  refine ⟨e, b', ?_, he, ?_, ?_⟩
  · simp only [lispMsgPutEidRec, hput, hinit, hplen, haddr, hcount, bind, Except.bind]
  · rw [hlisp, hhead, h4.start]
  · rw [hdata]
    rfl

/-- `lisp_msg_mreq_create` returns a message when the source EID and the addresses of the ITR can be
written and there is one of these. -/
theorem lispMsgMreqCreateBytes_spec (malloc : Malloc) (seid : LispAddr) (rlocs : List LispAddr)
    (deid : LispAddr) :
    ∃ r, lispMsgMreqCreateBytes malloc seid rlocs deid = .ok r ∧
      r.isSome = lispMsgMreqCreate seid rlocs ∧
      ∀ b ∈ r, ∃ e es e', AddrBytes seid e ∧ List.Forall₂ AddrBytes rlocs es ∧ AddrBytes deid e' ∧
        IsRequest b (UInt8.ofNat ((rlocs.length - 1) % 32)) (UInt8.ofNat 1)
          (e ++ (es.flatten ++ ([0, lispAddrGetPlen deid] ++ e'))) := by
  obtain ⟨b0, hcreate, h0⟩ := lispMsgCreateMapRequest_spec malloc
  obtain ⟨ptr, e, b1, hseid, he, happ, -, hptr⟩ := lispMsgPutAddr_bytes malloc b0 seid
  obtain ⟨r, hrlocs, hsome, hes⟩ := lispMsgPutItrRlocs_spec malloc (h0.append happ) rlocs
  rw [lispMsgMreqCreateBytes, hcreate, lispMsgMreqCreate, Bool.and_assoc, ← hsome,
    ← Bool.eq_iff_iff.mpr hptr]
  simp only [hseid, bind, Except.bind]
  cases ptr with
  | none => exact ⟨none, rfl, rfl, by simp⟩
  | some ptr =>
    simp only [hrlocs]
    cases r with
    | none => exact ⟨none, rfl, rfl, by simp⟩
    | some b2 =>
      obtain ⟨es, hes, h2⟩ := hes b2 rfl
      obtain ⟨e', b3, heid, he', h3⟩ := lispMsgPutEidRec_spec malloc h2 deid
      refine ⟨some b3, by simp only [heid, Functor.map, Except.map], rfl, ?_⟩
      rintro _ ⟨⟩
      rw [show (0 : UInt8) + 1 = UInt8.ofNat 1 by decide, nil_append, append_assoc] at h3
      exact ⟨e, es, e', he, hes, he', h3⟩

/-! ## IP addresses -/

theorem addrBytes_ip {a : IpAddr} (h : AddrBytes (.ip a) e) : e = ipAddrEncoding a :=
  (some.inj (h.2 rfl)).symm

theorem addrBytes_prefix (h : AddrBytes p.addr e) : [0, lispAddrGetPlen p.addr] ++ e = p.bytes := by
  rw [show e = ipAddrEncoding p.ip from (some.inj (h.2 rfl)).symm]
  rfl

theorem addrBytes_ips : ∀ {rlocs : List IpAddr} {es : List (List UInt8)},
    List.Forall₂ AddrBytes (rlocs.map .ip) es → es.flatten = rlocs.flatMap ipAddrEncoding
  | [], _, .nil => rfl
  | _ :: _, _, .cons h hes => by
    rw [flatten_cons, flatMap_cons, addrBytes_ip h, addrBytes_ips hes]

theorem putEidRecs_spec (malloc : Malloc) {rlocs : UInt8} : ∀ (eids : List EidPrefix) {b : MsgBuf}
    {n : Nat} {body : List UInt8}, IsRequest b rlocs (UInt8.ofNat n) body →
      ∃ b', putEidRecs malloc (eids.map EidPrefix.addr) b = .ok b' ∧
        IsRequest b' rlocs (UInt8.ofNat (n + eids.length)) (body ++ eids.flatMap EidPrefix.bytes)
  | [], b, n, body, h => ⟨b, rfl, by simpa using h⟩
  | p :: eids, b, n, body, h => by
    obtain ⟨e, b1, hput, he, h1⟩ := lispMsgPutEidRec_spec malloc h p.addr
    have hn : UInt8.ofNat n + 1 = UInt8.ofNat (n + 1) := by simp
    rw [hn, addrBytes_prefix he] at h1
    obtain ⟨b', hrest, h'⟩ := putEidRecs_spec malloc eids h1
    refine ⟨b', ?_, ?_⟩
    · simp only [map_cons, putEidRecs, hput, bind, Except.bind, hrest]
    · rw [append_assoc, Nat.add_assoc, Nat.add_comm 1] at h'
      exact h'

/-- The Map-Request with all its records. -/
def buildRequest (malloc : Malloc) (seid : LispAddr) (itrRlocs : List IpAddr) (eid : EidPrefix)
    (eids : List EidPrefix) : Except Fault (Option MsgBuf) := do
  match ← lispMsgMreqCreateBytes malloc seid (itrRlocs.map .ip) eid.addr with
  | none => return none
  | some b => some <$> putEidRecs malloc (eids.map EidPrefix.addr) b

theorem regular_writable {a : LispAddr} (h : a.regular true = true) :
    lispAddrWritable a = true := by
  obtain ⟨e, he, -⟩ := LispAddr.regular_fills h
  have hsized := LispAddr.encoding_sized he
  have hlen := hsized.len 0
  have hpos := hsized.pos
  exact (lispAddrWrite_len_ne_zero a 0).mp (by omega)

theorem buildRequest_spec (malloc : Malloc)
    (hseid : lispAddrWritable seid = true) (hne : itrRlocs ≠ []) (eid : EidPrefix)
    (eids : List EidPrefix) :
    ∃ e b, AddrBytes seid e ∧ buildRequest malloc seid itrRlocs eid eids = .ok (some b) ∧
      b.data = requestHdr (UInt8.ofNat ((itrRlocs.length - 1) % 32))
        (UInt8.ofNat (1 + eids.length)) ++
        (e ++
          (itrRlocs.flatMap ipAddrEncoding ++ (eid.bytes ++ eids.flatMap EidPrefix.bytes))) := by
  obtain ⟨r, hcreate, hsome, hr⟩ :=
    lispMsgMreqCreateBytes_spec malloc seid (itrRlocs.map .ip) eid.addr
  have hmreq : lispMsgMreqCreate seid (itrRlocs.map .ip) = true := by
    simp [lispMsgMreqCreate, hseid, hne, lispAddrWritable]
  obtain ⟨b1, rfl⟩ := isSome_iff_exists.mp (hsome.trans hmreq)
  obtain ⟨e, es, e', he, hes, he', h1⟩ := hr b1 rfl
  rw [length_map, addrBytes_ips hes, addrBytes_prefix he'] at h1
  obtain ⟨b, heids, h⟩ := putEidRecs_spec malloc eids h1
  refine ⟨e, b, he, ?_, by simpa only [append_assoc] using h.data⟩
  rw [buildRequest, hcreate]
  simp only [heids, bind, Except.bind, Functor.map, Except.map]

/-! ## Reading it -/

section Reading

variable {b : List UInt8}

/-- An IP address is parsed into any other address. -/
theorem parse_ip (o : AddrObj) {off : Nat} {a : IpAddr} (h : Holds b off (ipAddrEncoding a)) :
    ∃ o', o.parse b off = .ok (o', ⟨(ipAddrEncoding a).length, .set (.ip a)⟩) ∧
      o'.addr = some (.ip a) := by
  have hparse : lispAddrParse b off = .ok ⟨(ipAddrEncoding a).length, .set (.ip a)⟩ :=
    lispAddrParseBody_ip _ h
  cases a with
  | v4 a =>
    have hafi : uint16At b off = .ok 1 := h.left.readUint16 (by simp)
    refine ⟨{ o with addr := some (.ip (.v4 a)), type := AF_INET }, ?_, rfl⟩
    simp only [AddrObj.parse, hafi, hparse, bind, Except.bind, LISP_AFI_LCAF, Nat.reduceEqDiff,
      if_false]
    rfl
  | v6 a =>
    have hafi : uint16At b off = .ok 2 := h.left.readUint16 (by simp)
    have hle := h.le
    rw [ipAddrEncoding_length] at hle
    simp only [ipAddrGetSizeToWrite, IpAddr.bytes, beBytes_length] at hle
    obtain ⟨ptr, hptr⟩ := bytesAt_of_le (b := b) (i := off + 6) (n := 8) (by omega)
    refine ⟨⟨some (.ip (.v6 a)), AF_INET6, if ptr = List.replicate 8 0 then .bare else .freed⟩,
      ?_, rfl⟩
    simp only [AddrObj.parse, hafi, hparse, hptr, bind, Except.bind, LISP_AFI_LCAF,
      Nat.reduceEqDiff, if_false]
    rfl

/-- Each address of the ITR is put in front of those before it. -/
theorem itrRlocsLoop_bytes : ∀ {rlocs : List IpAddr} {data : Nat} (tloc : AddrObj)
    (acc : List LispAddr), tloc.addr.isSome → Holds b data (rlocs.flatMap ipAddrEncoding) →
      itrRlocsLoop b rlocs.length data tloc acc =
        .ok ((rlocs.map .ip).reverse ++ acc, data + (rlocs.flatMap ipAddrEncoding).length)
  | [], _, tloc, acc, htloc, _ => by
    rw [length_nil, itrRlocsLoop, AddrObj.del, if_pos htloc]
    rfl
  | a :: rlocs, data, tloc, acc, _, h => by
    obtain ⟨tloc', hparse, haddr⟩ := parse_ip tloc h.left
    have hclone : tloc'.clone = .ok (.ip a) := by rw [AddrObj.clone, haddr]
    have hrest := itrRlocsLoop_bytes tloc' (.ip a :: acc) (by rw [haddr]; rfl) h.right
    simp only [length_cons, itrRlocsLoop, hparse, hclone, lbufPull_of_le h.left.le, hrest, bind,
      Except.bind, map_cons, reverse_cons, append_assoc, singleton_append, flatMap_cons,
      length_append, Nat.add_assoc]

/-- The addresses of the ITR are read back in the opposite order. -/
theorem lispMsgParseItrRlocs_bytes {rlocs : List IpAddr} {data : Nat}
    (h : Holds b data (rlocs.flatMap ipAddrEncoding)) :
    lispMsgParseItrRlocs b rlocs.length data =
      .ok ((rlocs.map .ip).reverse, data + (rlocs.flatMap ipAddrEncoding).length) := by
  rw [lispMsgParseItrRlocs, itrRlocsLoop_bytes .new [] rfl h, append_nil]

theorem readHdr_request (h : b = requestHdr rlocs n ++ body) :
    ∃ hdr, readHdr b 0 = .ok hdr ∧ hdr.flags = 0x10 ∧ hdr.flags2 = rlocs ∧ hdr.recCount = n := by
  have hslice : slice b 0 MSG_HDR_LEN = some (requestHdr rlocs n) := by
    rw [h]
    exact slice_append [] (requestHdr rlocs n) body
  exact ⟨_, by rw [readHdr, hslice], rfl, rfl, rfl⟩

/-- A record is read back, but not left behind. -/
theorem lispMsgParseEidRec_bytes (deid : AddrObj) {data : Nat} (h : Holds b data p.bytes) :
    ∃ deid', lispMsgParseEidRec b deid data =
      .ok (p.read, deid', data + (ipAddrEncoding p.ip).length) := by
  obtain ⟨deid', hparse, -⟩ := parse_ip deid h.right
  have hplen := (Holds.right (l := [0]) h.left).readByte
  have hle := h.le
  simp only [EidPrefix.bytes, length_append, length_cons, length_nil] at hle
  have hpull : lbufPull b data (ipAddrEncoding p.ip).length = _ := lbufPull_of_le (by omega)
  simp only [length_cons, length_nil, Nat.zero_add] at hplen hparse
  refine ⟨deid', ?_⟩
  simp only [lispMsgParseEidRec, hparse, hplen, hpull, bind, Except.bind, pure, Except.pure]
  rfl

theorem lispMsgParseEidRec_stop {r : EidRead} {deid deid' : AddrObj} {data e : Nat}
    (h : lispMsgParseEidRec b deid data = .ok (r, deid', e)) : e + 2 ≤ b.length := by
  simp only [lispMsgParseEidRec, except_bind_ok, except_pure_ok, Prod.mk.injEq] at h
  obtain ⟨⟨o, a⟩, ha, mlen, -, -, -, rfl⟩ := h
  have hle := (addrAt_of_parse (addrParse_of_parse ha)).le
  rw [lbufPull_of_le (n := a.len) (by omega)]
  omega

/-- So records are not consumed to the end of the message. -/
theorem readEidRecs_stop : ∀ {n data e : Nat} {deid : AddrObj} {l : List EidRead},
    readEidRecs b (n + 1) deid data = .ok (l, e) → e + 2 ≤ b.length
  | 0, data, e, deid, l, h => by
    simp only [readEidRecs, except_bind_ok, except_pure_ok, Prod.mk.injEq] at h
    obtain ⟨⟨r, deid', data'⟩, hr, rest, hrest, -, rfl⟩ := h
    cases hrest
    exact lispMsgParseEidRec_stop hr
  | n + 1, data, e, deid, l, h => by
    rw [readEidRecs] at h
    simp only [except_bind_ok, except_pure_ok, Prod.mk.injEq] at h
    obtain ⟨_, _, rest, hrest, -, rfl⟩ := h
    exact readEidRecs_stop hrest

/-- `tr_recv_map_request` reads a Map-Request without flags like this. -/
theorem readMapRequest_of_readRequest {r : RequestRead} {hdr : MsgHdr} (h : readRequest b = .ok r)
    (hhdr : readHdr b 0 = .ok hdr) (hflags : hdr.flags = 0x10) :
    readMapRequest b 0 = .ok (.mapRequest hdr r.seid r.itrRlocs r.eids) := by
  simp only [readRequest, except_bind_ok, except_pure_ok] at h
  obtain ⟨seid, hseid, _, hhdr', rlocs, hrlocs, eids, heids, rfl⟩ := h
  cases hhdr.symm.trans hhdr'
  simp only [readMapRequest, except_bind_ok]
  refine ⟨seid, hseid, hdr, hhdr, ?_⟩
  rw [hflags, if_neg (by rintro ⟨⟩)]
  simp [hrlocs, heids, bind, Except.bind]

end Reading

/-- A Map-Request is read back as it was built, to its end. -/
def RequestReadsBack (malloc : Malloc) (seid : LispAddr) (itrRlocs : List IpAddr) (eid : EidPrefix)
    (eids : List EidPrefix) : Prop :=
  ∃ b, buildRequest malloc seid itrRlocs eid eids = .ok (some b) ∧
    readRequest b.data = .ok ⟨.set seid, itrRlocs.map .ip, (eid :: eids).map EidPrefix.read,
      b.data.length⟩

/-- What is read back: the source EID, the addresses of the ITR in the opposite order, the number of
records and the first of them. The next record is then expected two bytes before it starts. -/
def StartReadsBack (malloc : Malloc) (seid : LispAddr) (itrRlocs : List IpAddr) (eid : EidPrefix)
    (eids : List EidPrefix) : Prop :=
  ∃ b hdr data1 data2 deid data3, buildRequest malloc seid itrRlocs eid eids = .ok (some b) ∧
    lispMsgParseAddr b.data (lbufPull b.data 0 MSG_HDR_LEN) = .ok (.set seid, data1) ∧
    readHdr b.data 0 = .ok hdr ∧ hdr.recCount.toNat = 1 + eids.length ∧
    lispMsgParseItrRlocs b.data (hdr.flags2.toNat % 32 + 1) data1 =
      .ok ((itrRlocs.map .ip).reverse, data2) ∧
    lispMsgParseEidRec b.data .new data2 = .ok (eid.read, deid, data3) ∧
    data3 + 2 + (eids.flatMap EidPrefix.bytes).length = b.data.length

theorem startReadsBack (malloc : Malloc) {eids : List EidPrefix} (hform : seid.regular false = true)
    (hfit : lispAddrSizeToWrite seid ≤ 65535 + 8) (hne : itrRlocs ≠ [])
    (hrlocs : itrRlocs.length ≤ 32) (eid : EidPrefix) (heids : 1 + eids.length ≤ 255) :
    StartReadsBack malloc seid itrRlocs eid eids := by
  have hreg := LispAddr.regular_of_noPrefix hform
  obtain ⟨e, b, he, hbuild, hdata⟩ := buildRequest_spec malloc (regular_writable hreg) hne eid eids
  replace he := he.2 hreg
  have hlen : (requestHdr (UInt8.ofNat ((itrRlocs.length - 1) % 32))
      (UInt8.ofNat (1 + eids.length))).length = MSG_HDR_LEN := rfl
  have hbody := Holds.intro (requestHdr (UInt8.ofNat ((itrRlocs.length - 1) % 32))
      (UInt8.ofNat (1 + eids.length)))
    (e ++ (itrRlocs.flatMap ipAddrEncoding ++ (eid.bytes ++ eids.flatMap EidPrefix.bytes))) []
  rw [append_nil, ← hdata, hlen] at hbody
  have hle := hbody.le
  simp only [length_append] at hle
  have hpull : lbufPull b.data 0 MSG_HDR_LEN = MSG_HDR_LEN :=
    (lbufPull_of_le (by omega)).trans (Nat.zero_add _)
  have hparse : lispAddrParse b.data MSG_HDR_LEN = .ok ⟨e.length, .set seid⟩ := by
    rw [(LispAddr.encoding_sized he).size] at hfit
    exact LispAddr.parse_encoding hform he hfit hbody.left (by omega)
  obtain ⟨hdr, hhdr, -, hflags2, hrec⟩ := readHdr_request hdata
  have hcount : (UInt8.ofNat ((itrRlocs.length - 1) % 32)).toNat % 32 + 1 = itrRlocs.length := by
    have hpos := length_pos_iff.mpr hne
    rw [UInt8.toNat_ofNat']
    omega
  obtain ⟨deid, heid⟩ := lispMsgParseEidRec_bytes .new hbody.right.right.left
  refine ⟨b, hdr, MSG_HDR_LEN + e.length, _, deid, _, hbuild, ?_, hhdr, ?_, ?_, heid, ?_⟩
  · simp only [hpull, lispMsgParseAddr, hparse, bind, Except.bind, pure, Except.pure,
      lbufPull_of_le hbody.left.le]
  · rw [hrec, UInt8.toNat_ofNat']
    omega
  · rw [hflags2, hcount]
    exact lispMsgParseItrRlocs_bytes hbody.right.left
  · rw [hdata]
    simp only [length_append, hlen, EidPrefix.bytes, length_cons, length_nil]
    omega

theorem not_requestReadsBack (malloc : Malloc) (seid : LispAddr) (itrRlocs : List IpAddr)
    (eid : EidPrefix) (eids : List EidPrefix) :
    ¬ RequestReadsBack malloc seid itrRlocs eid eids := by
  rintro ⟨b, -, hread⟩
  simp only [readRequest, except_bind_ok, except_pure_ok, RequestRead.mk.injEq] at hread
  obtain ⟨_, -, hdr, -, r, -, ⟨l, e⟩, heids, -, -, rfl, rfl⟩ := hread
  cases hn : hdr.recCount.toNat with
  | zero =>
    rw [hn] at heids
    cases heids
  | succ n =>
    rw [hn] at heids
    have hstop := readEidRecs_stop heids
    omega

/-- A Map-Request is never consumed to its end. With a source EID of a form that is read back the
start of it is read back, up to the first of its EIDs. -/
theorem request_never_read_back (malloc : Malloc) (seid : LispAddr) (itrRlocs : List IpAddr)
    (eid : EidPrefix) (eids : List EidPrefix) :
    ¬ RequestReadsBack malloc seid itrRlocs eid eids ∧
      (seid.regular false = true → lispAddrSizeToWrite seid ≤ 65535 + 8 →
        1 ≤ itrRlocs.length → itrRlocs.length ≤ 32 → 1 + eids.length ≤ 255 →
          StartReadsBack malloc seid itrRlocs eid eids) :=
  ⟨not_requestReadsBack malloc seid itrRlocs eid eids, fun hform hfit hne hrlocs heids =>
    startReadsBack malloc hform hfit (length_pos_iff.mp hne) hrlocs eid heids⟩

/-- The start of a Map-Request with two addresses of the ITR and two EIDs. -/
theorem request_never_read_back_pair :
    StartReadsBack zeroMalloc .noAddr [.v4 0xc0000201, .v4 0xc0000202] ⟨.v4 0x0a000000, 8⟩
      [⟨.v4 0x0a010000, 16⟩] :=
  (request_never_read_back zeroMalloc .noAddr [.v4 0xc0000201, .v4 0xc0000202] ⟨.v4 0x0a000000, 8⟩
    [⟨.v4 0x0a010000, 16⟩]).2 rfl (by decide) (by decide) (by decide) (by decide)

/-- The addresses change places, and the second EID is lost: its prefix length is taken for an
address family. -/
theorem request_second_eid_lost : ∃ b, buildRequest zeroMalloc .noAddr
      [.v4 0xc0000201, .v4 0xc0000202] ⟨.v4 0x0a000000, 8⟩ [⟨.v4 0x0a010000, 16⟩] = .ok (some b) ∧
    b.data.length = 42 ∧
    readRequest b.data = .ok ⟨.set .noAddr, [.ip (.v4 0xc0000202), .ip (.v4 0xc0000201)],
      [⟨.set (.ip (.v4 0x0a000000)), 8⟩, ⟨.kept, 0⟩], 32⟩ := by
  obtain ⟨e, b, he, hbuild, hdata⟩ := buildRequest_spec zeroMalloc
    (show lispAddrWritable .noAddr = true from rfl)
    (cons_ne_nil (.v4 0xc0000201) [.v4 0xc0000202])
    ⟨.v4 0x0a000000, 8⟩ [⟨.v4 0x0a010000, 16⟩]
  cases he.2 rfl
  refine ⟨b, hbuild, ?_, ?_⟩
  · rw [hdata]
    rfl
  · rw [hdata]
    rfl

end Lispmob
