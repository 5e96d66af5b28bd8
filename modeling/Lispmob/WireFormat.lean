import Lispmob.Bytes
import Lispmob.Messages
import Lispmob.Timers

/-!
# Control messages as bytes

The parsing functions of `liblisp`, `lisp_address.c` and `lisp_lcaf.c` over the bytes of a received
message. They get a pointer into the message and no length, so nothing tells them where the message
ends: a read past its last byte is the fault `outOfRange`, and so is an index past the end of the
tables of LCAF functions. `lbuf_pull` is the only check of the length. It leaves the buffer as it
is when there is less to pull than asked for, and no caller looks at what it returns.

An address is parsed in place. `AddrField` is what a parser leaves there, and the length `0` stands
for an address that was not recognised; the functions for Map-Requests go on all the same. Most
addresses are new when they are parsed into. The one for the ITR-RLOCs and the one for the EIDs of a
Map-Request are used again for every record (`AddrObj`), and parsing an LCAF first releases what the
pointer in the object leads to.

Debug messages are off.
-/

namespace Lispmob

/-! ## Reading -/

/-- Read `n` bytes of a message. -/
def bytesAt (b : List UInt8) (i n : Nat) : Except Fault (List UInt8) :=
  match slice b i n with
  | some l => .ok l
  | none => .error .outOfRange

/-- Read one byte of a message. -/
def byteAt (b : List UInt8) (i : Nat) : Except Fault UInt8 :=
  match b[i]? with
  | some x => .ok x
  | none => .error .outOfRange

/-- Read two bytes in network order. -/
def uint16At (b : List UInt8) (i : Nat) : Except Fault Nat :=
  (bytesAt b i 2).map beNat

/-- A number the code does not convert from network order, on a little-endian host. -/
def hostNat (l : List UInt8) : Nat :=
  beNat l.reverse

/-- `lbuf_pull`, as the new position of the data pointer. -/
def lbufPull (b : List UInt8) (data size : Nat) : Nat :=
  if b.length - data < size then data else data + size

/-! ## Addresses -/

/-- What can be done with an address that was parsed into: a whole one can be copied and released.
-/
inductive Shape where
  | whole
  /-- An LCAF of which only the type is set. -/
  | bare
  /-- An LCAF with a bare one inside, which can be released only. -/
  | hollow
  /-- An LCAF whose list of nodes was released, or with such an LCAF inside. -/
  | freed
deriving DecidableEq

/-- The shape of an LCAF with addresses inside. -/
def Shape.over (parts : List Shape) : Shape :=
  if .freed ∈ parts then .freed else if ∀ s ∈ parts, s = .whole then .whole else .hollow

/-- What a parser leaves in the address it was given. -/
inductive AddrField where
  /-- The address is as it was before. -/
  | kept
  | set (a : LispAddr)
  | bare
  /-- A hollow LCAF; `a` has no address where it has a bare one. -/
  | hollow (a : LispAddr)
  | freed

/-- The result of `lisp_addr_parse`: the number of bytes, and what is left in the address. -/
structure AddrRead where
  len : Nat
  field : AddrField

namespace AddrField

/-- A new address after it was parsed into. -/
def fresh : AddrField → Option LispAddr
  | .kept => some .noAddr
  | .set a => some a
  | _ => none

def shape : AddrField → Shape
  | .kept | .set _ => .whole
  | .bare => .bare
  | .hollow _ => .hollow
  | .freed => .freed

/-- The address, without the LCAFs that are missing. -/
def outline : AddrField → LispAddr
  | .set a | .hollow a => a
  | _ => .noAddr

/-- An LCAF with the outline `a`, from the addresses inside that were parsed into new ones. -/
def lcaf (parts : List AddrField) (a : LispAddr) : AddrField :=
  match Shape.over (parts.map shape) with
  | .whole => .set a
  | .freed => .freed
  | _ => .hollow a

end AddrField

/-- `LISP_AFI_LCAF`. -/
def LISP_AFI_LCAF : Nat := 16387

/-- `MAX_LCAFS`, the size of the tables of LCAF functions. -/
def MAX_LCAFS : Nat := 16

section Lcaf

variable (b : List UInt8) (parse : Nat → Except Fault AddrRead)

/-- The loop over the nodes of an LCAF: a header of `hdrLen` bytes and an address each. `none` when
an address is not recognised, otherwise the position after the last node. An iteration takes at
least one byte of `len`. When it fails the nodes before are released, and with `early` the address
that was not recognised is one of them. -/
def nodesParse {α : Type} (early : Bool) (hdrLen : Nat) (header : Nat → Except Fault α) :
    Nat → Nat → Nat → Except Fault (Option (Nat × List (α × AddrField)))
  | 0, cur, _ => .ok (some (cur, []))
  | fuel + 1, cur, len => do
    if len = 0 then return some (cur, [])
    else
      let h ← header cur
      let r ← parse (cur + hdrLen)
      if r.len = 0 then
        if early ∧ r.field.shape = .freed then throw .useAfterFree else return none
      else
        match ← nodesParse early hdrLen header fuel (cur + hdrLen + r.len)
          (len - hdrLen - r.len) with
        | none => if r.field.shape = .freed then throw .useAfterFree else return none
        | some (e, nodes) => return some (e, (h, r.field) :: nodes)

/-- An LCAF that is a list of nodes, from the position of its header. -/
def lcafNodes {α : Type} (early : Bool) (hdrLen : Nat) (header : Nat → Except Fault α)
    (mk : Option (List (α × AddrField)) → AddrField) (off : Nat) : Except Fault AddrRead := do
  let len ← uint16At b (off + 6)
  match ← nodesParse parse early hdrLen header len (off + 8) len with
  | none => return ⟨0, mk none⟩
  | some (e, nodes) => return ⟨e - off, mk (some nodes)⟩

/-- `afi_list_type_parse`, for an LCAF without content. The list it builds is never stored in the
address. -/
def afiListTypeParse (off : Nat) : Except Fault AddrRead :=
  lcafNodes b parse true 0 (fun _ => .ok ()) (fun _ => .bare) off

/-- An LCAF of nodes. The content is in place before they are parsed; when this fails its list is
gone. -/
def AddrField.ofNodes {α β : Type} (mk : α → LispAddr → β) (list : List β → LispAddr) :
    Option (List (α × AddrField)) → AddrField
  | none => .freed
  | some nodes => .lcaf (nodes.map Prod.snd) (list (nodes.map fun n => mk n.1 n.2.outline))

/-- `elp_type_parse`. -/
def elpTypeParse (off : Nat) : Except Fault AddrRead :=
  lcafNodes b parse false 2 (fun cur => byteAt b (cur + 1)) (.ofNodes (fun (flags : UInt8) a =>
    .mk (flags.toNat.testBit 2) (flags.toNat.testBit 1) (flags.toNat.testBit 0) a) .elp) off

/-- `rle_type_parse`. -/
def rleTypeParse (off : Nat) : Except Fault AddrRead :=
  lcafNodes b parse false 4 (fun cur => byteAt b (cur + 3)) (.ofNodes .mk .rle) off

/-- `iid_type_parse`. The instance is not converted from network order. -/
def iidTypeParse (off : Nat) : Except Fault AddrRead := do
  let mlen ← byteAt b (off + 5)
  let iid ← bytesAt b (off + 8) 4
  let r ← parse (off + 12)
  return ⟨r.len + 12, .lcaf [r.field] (.iid (UInt32.ofNat (hostNat iid)) mlen r.field.outline)⟩

/-- A coordinate of a Geo LCAF. -/
def geoCoordinate (l : List UInt8) : GeoCoordinates :=
  let w := hostNat (l.take 2)
  ⟨UInt8.ofNat (w / 32768), UInt16.ofNat (w % 32768), l.getD 2 0, l.getD 3 0⟩

/-- `geo_type_parse`. -/
def geoTypeParse (off : Nat) : Except Fault AddrRead := do
  let latitude ← bytesAt b (off + 8) 4
  let longitude ← bytesAt b (off + 12) 4
  let altitude ← bytesAt b (off + 16) 4
  let r ← parse (off + 20)
  return ⟨20 + r.len, .lcaf [r.field] (.geo (geoCoordinate latitude) (geoCoordinate longitude)
    (UInt32.ofNat (hostNat altitude)) r.field.outline)⟩

/-- `mc_type_parse`. A source that is not recognised is read again as the group. -/
def mcTypeParse (off : Nat) : Except Fault AddrRead := do
  let iid ← bytesAt b (off + 8) 4
  let srcPlen ← byteAt b (off + 14)
  let grpPlen ← byteAt b (off + 15)
  let src ← parse (off + 16)
  let grp ← parse (off + 16 + src.len)
  return ⟨16 + src.len + grp.len, .lcaf [src.field, grp.field] (.mc srcPlen grpPlen
    (UInt32.ofNat (beNat iid)) src.field.outline grp.field.outline)⟩

/-- `parse_fcts`. The function for Geo addresses stands at position 6. -/
def parseFcts (off type : Nat) : Option (Except Fault AddrRead) :=
  match type with
  | 1 => some (afiListTypeParse b parse off)
  | 2 => some (iidTypeParse b parse off)
  | 6 => some (geoTypeParse b parse off)
  | 9 => some (mcTypeParse b parse off)
  | 10 => some (elpTypeParse b parse off)
  | 13 => some (rleTypeParse b parse off)
  | _ => none

/-- `lcaf_addr_parse`, for an LCAF without content. The length field has to agree with the bytes
read; where it does not, what was read stays. -/
def lcafAddrParse (off : Nat) : Except Fault AddrRead := do
  let type ← byteAt b (off + 4)
  if MAX_LCAFS ≤ type.toNat then throw .outOfRange
  else
    match parseFcts b parse off type.toNat with
    | none => return ⟨0, .bare⟩
    | some result =>
      let r ← result
      let len ← uint16At b (off + 6)
      return ⟨if r.len = len + 8 then r.len else 0, r.field⟩

/-- The body of `lisp_addr_parse`, for a parser of the addresses inside an LCAF. -/
def lispAddrParseBody (off : Nat) : Except Fault AddrRead := do
  let afi ← uint16At b off
  if afi = 1 then
    let a ← bytesAt b (off + 2) 4
    return ⟨6, .set (.ip (.v4 (BitVec.ofNat 32 (beNat a))))⟩
  else if afi = 2 then
    let a ← bytesAt b (off + 2) 16
    return ⟨18, .set (.ip (.v6 (BitVec.ofNat 128 (beNat a))))⟩
  else if afi = LISP_AFI_LCAF then lcafAddrParse b parse off
  else if afi = 0 then return ⟨2, .set .noAddr⟩
  else return ⟨0, .kept⟩

end Lcaf

/-- `lisp_addr_parse`, with a bound on the nesting. -/
def lispAddrParseFuel (b : List UInt8) : Nat → Nat → Except Fault AddrRead
  | 0, _ => .error .outOfRange
  | fuel + 1, off => lispAddrParseBody b (lispAddrParseFuel b fuel) off

/-- `lisp_addr_parse`, for a new address. An address inside an LCAF starts at a later byte, so the
nesting cannot be deeper than the message is long. -/
def lispAddrParse (b : List UInt8) (off : Nat) : Except Fault AddrRead :=
  lispAddrParseFuel b (b.length + 1) off

/-! ## Addresses that are parsed into again -/

/-- A `lisp_addr_t`. The type of an LCAF and the pointer to its content lie over the family of an IP
address and the bytes 4 to 11 of an IPv6 address, and outlast the LCAF. -/
structure AddrObj where
  /-- The address, `none` for an LCAF. -/
  addr : Option LispAddr
  type : Nat
  /-- What the pointer leads to; `bare` for a null pointer, `freed` for one that is not valid. -/
  content : AddrField

/-- `AF_INET`. -/
def AF_INET : Nat := 2

/-- `AF_INET6`. -/
def AF_INET6 : Nat := 10

/-- The types with a function in `del_fcts`, which are those of `parse_fcts` and `copy_fcts`. -/
def delFcts : List Nat :=
  [1, 2, 6, 9, 10, 13]

/-- `iid_type_del` finds a pointer in the content of an LCAF of another type: the source of a
multicast LCAF, or zeros in a Geo LCAF. An ELP or RLE is smaller. -/
def LispAddr.overIid : LispAddr → Bool
  | .mc _ _ _ _ _ => true
  | .geo _ longitude altitude _ =>
    longitude.deg = 0 && longitude.min = 0 && longitude.sec = 0 && altitude = 0
  | _ => false

namespace AddrObj

/-- `lisp_addr_new`. -/
def new : AddrObj :=
  ⟨some .noAddr, 0, .bare⟩

/-- `lcaf_addr_del_addr`. The pointer is not reset. -/
def delAddr (o : AddrObj) : Except Fault Unit :=
  if o.content.shape = .bare ∨ o.type ∉ delFcts then .ok ()
  else if o.content.shape = .freed then .error .badRelease
  else if lispAddrLcafType o.content.outline = o.type ∨
      o.type = AF_INET ∧ o.content.outline.overIid then .ok ()
  else .error .typeConfusion

/-- `lisp_addr_parse`. `afi_list_type_parse` uses the content that is there, which is released by
then. -/
def parse (o : AddrObj) (b : List UInt8) (off : Nat) : Except Fault (AddrObj × AddrRead) := do
  let afi ← uint16At b off
  if afi = LISP_AFI_LCAF then
    o.delAddr
    let type ← byteAt b (off + 4)
    if type = 1 ∧ o.content.shape ≠ .bare then throw .useAfterFree
    else
      let r ← lispAddrParse b off
      let stays := r.field.shape = .bare ∧ o.content.shape ≠ .bare
      return (⟨none, type.toNat, if stays then .freed else r.field⟩, r)
  else
    let r ← lispAddrParse b off
    match r.field with
    | .set (.ip (.v4 a)) => return ({ o with addr := some (.ip (.v4 a)), type := AF_INET }, r)
    | .set (.ip (.v6 a)) =>
      let ptr ← bytesAt b (off + 6) 8
      let null := ptr = List.replicate 8 0
      return (⟨some (.ip (.v6 a)), AF_INET6, if null then .bare else .freed⟩, r)
    | .set a => return ({ o with addr := some a }, r)
    | _ => return (o, r)

/-- `lisp_addr_clone`. A null pointer to an AFI list is read, and the type of an LCAF that has no
function to copy it is printed as a string. -/
def clone (o : AddrObj) : Except Fault LispAddr :=
  match o.addr, o.content.fresh with
  | some a, _ | none, some a => .ok a
  | none, none => .error (if o.content.shape = .freed then .useAfterFree else .nullDeref)

/-- `lisp_addr_del`. -/
def del (o : AddrObj) : Except Fault Unit :=
  if o.addr.isSome then .ok () else o.delAddr

end AddrObj

/-! ## Fields of messages -/

/-- `lisp_msg_parse_addr` for a new address, which fails for a negative length only, and the new
data pointer. -/
def lispMsgParseAddr (b : List UInt8) (data : Nat) : Except Fault (AddrField × Nat) := do
  let r ← lispAddrParse b data
  return (r.field, lbufPull b data r.len)

/-- The loop of `lisp_msg_parse_itr_rlocs` with one address `tloc`. `glist_add` puts a copy of it in
front of the others. -/
def itrRlocsLoop (b : List UInt8) :
    Nat → Nat → AddrObj → List LispAddr → Except Fault (List LispAddr × Nat)
  | 0, data, tloc, rlocs => do
    tloc.del
    return (rlocs, data)
  | n + 1, data, tloc, rlocs => do
    let (tloc, r) ← tloc.parse b data
    let rloc ← tloc.clone
    itrRlocsLoop b n (lbufPull b data r.len) tloc (rloc :: rlocs)

/-- `lisp_msg_parse_itr_rlocs`, for `n` addresses. -/
def lispMsgParseItrRlocs (b : List UInt8) (n data : Nat) : Except Fault (List LispAddr × Nat) :=
  itrRlocsLoop b n data .new []

/-- An EID record of a Map-Request. -/
structure EidRead where
  eid : AddrField
  mlen : UInt8

/-- `lisp_msg_parse_eid_rec`. It pulls the length of the address without that of the header. -/
def lispMsgParseEidRec (b : List UInt8) (eid : AddrObj) (data : Nat) :
    Except Fault (EidRead × AddrObj × Nat) := do
  let (eid, r) ← eid.parse b (data + 2)
  let mlen ← byteAt b (data + 1)
  return (⟨r.field, mlen⟩, eid, lbufPull b data r.len)

/-- The EID records of a Map-Request, with one address for all of them, and the position after
them. -/
def readEidRecs (b : List UInt8) : Nat → AddrObj → Nat → Except Fault (List EidRead × Nat)
  | 0, _, data => .ok ([], data)
  | n + 1, deid, data => do
    let (eid, deid, data) ← lispMsgParseEidRec b deid data
    let (rest, e) ← readEidRecs b n deid data
    return (eid :: rest, e)

/-- A locator of a mapping record. -/
structure LocatorRead where
  addr : AddrField
  reachable : Bool
  isLocal : Bool
  probed : Bool
  priority : UInt8
  weight : UInt8
  mpriority : UInt8
  mweight : UInt8

/-- `lisp_msg_parse_loc` with `locator_parse`; `none` is the return code `BAD`. -/
def lispMsgParseLoc (b : List UInt8) (data : Nat) :
    Except Fault (Option (LocatorRead × Nat)) := do
  let flags ← byteAt b (data + 5)
  let r ← lispAddrParse b (data + 6)
  if r.len = 0 then return none
  else
    let priority ← byteAt b data
    let weight ← byteAt b (data + 1)
    let mpriority ← byteAt b (data + 2)
    let mweight ← byteAt b (data + 3)
    return some (⟨r.field, flags.toNat.testBit 0, flags.toNat.testBit 2, flags.toNat.testBit 1,
      priority, weight, mpriority, mweight⟩, lbufPull b data (6 + r.len))

/-- The loop of `lisp_msg_parse_mapping_record_split` over the locators. -/
def readLocators (b : List UInt8) :
    Nat → Nat → Except Fault (Option (List LocatorRead × Nat))
  | 0, data => .ok (some ([], data))
  | n + 1, data => do
    match ← lispMsgParseLoc b data with
    | none => return none
    | some (loc, data') =>
      let rest ← readLocators b n data'
      return rest.map fun (locs, e) => (loc :: locs, e)

/-- A mapping record. -/
structure RecordRead where
  ttl : UInt32
  action : UInt8
  authoritative : UInt8
  eid : AddrField
  eidPlen : UInt8
  locators : List LocatorRead

/-- The bytes of `lisp_msg_parse_mapping_record` and `lisp_msg_parse_mapping_record_split`; `none`
is the return code `BAD`. -/
def readMappingRecord (b : List UInt8) (data : Nat) :
    Except Fault (Option (RecordRead × Nat)) := do
  let ttl ← bytesAt b data 4
  let flags ← byteAt b (data + 6)
  let r ← lispAddrParse b (lbufPull b data 10)
  if r.len = 0 then return none
  else
    let eidPlen ← byteAt b (data + 5)
    let count ← byteAt b (data + 4)
    match ← readLocators b count.toNat (lbufPull b (lbufPull b data 10) r.len) with
    | none => return none
    | some (locs, e) =>
      return some (⟨UInt32.ofNat (beNat ttl), UInt8.ofNat (flags.toNat / 32),
        UInt8.ofNat (flags.toNat / 16 % 2), r.field, eidPlen, locs⟩, e)

/-- A locator record, if its address is whole. -/
def LocatorRead.record (l : LocatorRead) : Option LocatorRecord :=
  l.addr.fresh.map fun a =>
    ⟨a, l.reachable, l.isLocal, l.probed, l.priority, l.weight, l.mpriority, l.mweight⟩

/-- A mapping record, if all its addresses are whole. -/
def RecordRead.record (r : RecordRead) : Option MappingRecord := do
  let eid ← r.eid.fresh
  let locators ← r.locators.mapM LocatorRead.record
  return ⟨r.ttl, r.action, r.authoritative, eid, r.eidPlen, locators⟩

/-- The length of the fixed part of every message. -/
def MSG_HDR_LEN : Nat := 12

/-- The fixed part of a message. The meaning of the flags depends on the type. -/
structure MsgHdr where
  type : Nat
  flags : UInt8
  flags2 : UInt8
  recCount : UInt8
  nonce : Nonce

/-- `lisp_msg_pull_hdr` and the reads of the fields, for a message that starts at `start`. The
pointer is null when the message is shorter. -/
def readHdr (b : List UInt8) (start : Nat) : Except Fault MsgHdr :=
  match slice b start MSG_HDR_LEN with
  | none => .error .nullDeref
  | some l => .ok ⟨(l.getD 0 0).toNat / 16, l.getD 0 0, l.getD 2 0, l.getD 3 0,
      UInt64.ofNat (beNat (l.drop 4))⟩

/-- A control message as its bytes say. -/
inductive ControlMsg where
  /-- A Map-Request; the EID records are not read when a probe or an SMR has more than one. -/
  | mapRequest (hdr : MsgHdr) (seid : AddrField) (itrRlocs : List LispAddr)
      (eids : List EidRead)
  | mapReply (hdr : MsgHdr) (records : List RecordRead)
  /-- A Map-Register or a Map-Notify. -/
  | authenticated (hdr : MsgHdr) (keyId dataLen : Nat) (records : List RecordRead)
  | other

/-- The parsing done by `tr_recv_map_request`. -/
def readMapRequest (b : List UInt8) (start : Nat) : Except Fault ControlMsg := do
  let (seid, data) ← lispMsgParseAddr b (lbufPull b start MSG_HDR_LEN)
  let hdr ← readHdr b start
  if (hdr.flags.toNat.testBit 1 || hdr.flags.toNat.testBit 0) && 1 < hdr.recCount.toNat then
    return .mapRequest hdr seid [] []
  else
    let (rlocs, data') ← lispMsgParseItrRlocs b (hdr.flags2.toNat % 32 + 1) data
    let (eids, _) ← readEidRecs b hdr.recCount.toNat .new data'
    return .mapRequest hdr seid rlocs eids

end Lispmob
