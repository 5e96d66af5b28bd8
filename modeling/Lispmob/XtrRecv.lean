import Lispmob.XtrLocal

/-!
# Messages and packets

The handlers of `lisp_xtr.c` for Map-Replies, Map-Requests, Map-Notifies and data packets.

A Map-Reply and a Map-Notify are matched to a timer by their nonce alone. The argument of that
timer is then read as the argument of the kind of timer the handler expects: a probing argument
starts with the entry, as a Map-Request argument does, and can be read as one; the other
combinations are faults.
-/

namespace Lispmob

/-! ## Message contents -/

/-- A Map-Reply. Records past the end of the message do not parse. -/
structure MapReplyMsg where
  nonce : Nonce
  rlocProbe : Bool
  recCount : UInt8
  records : List RawRecord

/-- A Map-Request. -/
structure MapRequestMsg where
  nonce : Nonce
  rlocProbe : Bool
  smr : Bool
  seid : LispAddr
  itrRlocs : List LispAddr
  /-- The requested EIDs, with their prefix lengths; as many as the record count says. -/
  eids : List LispAddr

/-- A Map-Notify. -/
structure MapNotifyMsg where
  nonce : Nonce
  recCount : UInt8
  records : List RawRecord
  auth : AuthField

/-- A record of an outgoing Map-Reply. -/
inductive ReplyRecord where
  | mapping (m : Mapping) (probedLoc : Option LispAddr)
  | negative (eid : LispAddr)

/-- An outgoing Map-Reply. -/
structure SentMapReply where
  rlocProbe : Bool
  nonce : Nonce
  records : List ReplyRecord
  dst : LispAddr

section Recv

variable {R F : Type} (W : World R F) (env : CtrlEnv)

/-! ## Map-Replies -/

/-- The entry a timer's argument starts with, when it is read as a Map-Request argument. -/
def TimerArg.asMapReqMce : TimerArg → Except Fault Nat
  | .mapReq e _ => .ok e
  | .rlocProbe e _ => .ok e
  | _ => .error .typeConfusion

/-- Parse the next record of a message. -/
def parseRecord (probed : Probed) (raw : RawRecord) : XtrM R ParsedRecord := do
  let p ← Prog.lift (lispMsgParseMappingRecord (← get).nextLoct probed raw)
  modify fun s => { s with nextLoct := p.next }
  return p

/-- Parse the next record of a Map-Reply and discard it if it has a path with the L bit. The error
path releases the locator `probed` points to; `none` stands for the return code `BAD`. -/
def parseReplyRecord (probed : Probed) (raw : RawRecord) : XtrM R (Option ParsedRecord) := do
  let p ← parseRecord probed raw
  if p.ret = .GOOD then
    let lBit ← Prog.lift (mappingHasElpWithLBit p.m)
    if lBit then
      Prog.lift (locatorDelProbed p.probed)
      return none
    else return some p
  else
    Prog.lift (locatorDelProbed p.probed)
    return none

/-- Install a record for a placeholder that was removed. -/
def installRecord (m : Mapping) : XtrM R Unit := do
  let mce := (← get).mces.next
  let ret ← trMcacheAddMapping W env m
  if ret = .GOOD then noteAccepted mce m.ttl else pure ()

/-- The loop of `tr_recv_map_reply` over the records of an answer for a placeholder. -/
def installRecords (probed : Probed) : List RawRecord → XtrM R Ret
  | [] => return .GOOD
  | raw :: rest => do
    match ← parseReplyRecord probed raw with
    | none => return .BAD
    | some p =>
      installRecord W env p.m
      installRecords p.probed rest

/-- The answer for an active entry: only the first record is used. -/
def refreshRecord (raw : RawRecord) : XtrM R Ret := do
  match ← parseReplyRecord .uninit raw with
  | none => return .BAD
  | some p =>
    let _ ← updateMcacheEntry W env p.m
    return .GOOD

/-- The branch of `tr_recv_map_reply` for a message without the probe bit. -/
def recvMapReplyNonProbe (timer : Nat) (msg : MapReplyMsg) : XtrM R Ret := do
  let tm ← derefTimer timer
  let mce ← Prog.lift tm.cbArgument.asMapReqMce
  let e ← derefMce mce
  match e.active with
  | .NOT_ACTIVE =>
    let _ ← trMcacheRemoveEntry mce
    installRecords W env .uninit (readRecords msg.records msg.recCount.toNat)
  | .ACTIVE =>
    let ret ← refreshRecord W env (msg.records.getD 0 .malformed)
    if ret = .GOOD then
      onTimers (stopTimerFromObj · (.mce mce) timer)
      return .GOOD
    else return .BAD

/-- `handle_locator_probe_reply`. -/
def handleLocatorProbeReply (mce : Nat) (probedAddr : LispAddr) : XtrM R Ret := do
  let e ← derefMce mce
  match ← Prog.lift (mappingGetLoctWithAddr e.mapping probedAddr) with
  | none => return .ERR_NO_EXIST
  | some loct =>
    if loct.state = .DOWN then
      setLocatorState mce loct.ptr .UP
      let e' ← derefMce mce
      updatedMapCacheInf W env mce e'.mapping
    else pure ()
    programRlocProbing mce (← get).probeInterval loct.ptr
    return .GOOD

/-- The address a probe answer is about: that of the probed locator, or the sender's. -/
def probedAddress (p : ParsedRecord) (ra : LispAddr) : Except Fault LispAddr :=
  match p.probed with
  | .null => .ok ra
  | .live ptr =>
    match p.m.locators.find? (·.ptr = ptr) with
    | some loct => .ok loct.addr
    | none => .error .useAfterFree
  | _ => .error .useAfterFree

/-- The entry a probe answer is taken to be about: the one stored under the EID of the record, or
that of the Proxy-ETRs if the EID compares as equal to its EID. -/
def probeReplyEntry (eid : LispAddr) : XtrM R (Option Nat) := do
  match ← mcacheLookupExact eid with
  | some mce => return some mce
  | none =>
    let petrs := (← get).petrs
    let e ← derefMce petrs
    return if lispAddrCmp eid e.mapping.eidPrefix = 0 then some petrs else none

/-- The branch of `tr_recv_map_reply` for a message with the probe bit. -/
def recvMapReplyProbe (timer : Nat) (msg : MapReplyMsg) (ra : LispAddr) : XtrM R Ret := do
  match ← parseReplyRecord .uninit (msg.records.getD 0 .malformed) with
  | none => return .BAD
  | some p =>
    let probedAddr ← Prog.lift (probedAddress p ra)
    match ← probeReplyEntry p.m.eidPrefix with
    | none => return .BAD
    | some mce =>
      let _ ← handleLocatorProbeReply W env mce probedAddr
      onTimers (stopTimerFromObj · (.mce mce) timer)
      return .GOOD

/-- `tr_recv_map_reply`, for a message from `ra`. -/
def trRecvMapReply (msg : MapReplyMsg) (ra : LispAddr) : XtrM R Ret := do
  match htableNoncesLookup (← get).ts msg.nonce with
  | none => return .BAD
  | some timer =>
    if msg.rlocProbe then recvMapReplyProbe W env timer msg ra
    else recvMapReplyNonProbe W env timer msg

/-! ## Map-Requests -/

/-- `tr_reply_to_smr`: an SMR-invoked Map-Request for the entry that covers the source EID. -/
def trReplyToSmr (srcEid reqEid : LispAddr) : XtrM R Ret := do
  match ← mcacheLookup reqEid with
  | none => return .BAD
  | some mce =>
    let timer ← newTimer .SMR_INV_RETRY_TIMER (.mapReq mce srcEid) (.mce mce) (some [])
    let _ ← smrInvokedMapRequestCb W env timer mce srcEid
    return .GOOD

/-- `lisp_msg_put_mapping`: the first locator of every list is read. -/
def lispMsgPutMapping (m : Mapping) (probedLoc : Option LispAddr) :
    Except Fault (List ReplyRecord) :=
  if !lispAddrWritable m.eidPrefix then .ok []
  else if m.locatorsLists.any List.isEmpty then .error .nullDeref
  else .ok [.mapping m probedLoc]

/-- The record put into the reply for a requested EID; `none` when the EID is skipped. -/
def replyRecord (msg : MapRequestMsg) (la : LispAddr) (deid : LispAddr) :
    XtrM R (Option (List ReplyRecord)) := do
  let s ← get
  match s.mode with
  | .RTR_MODE => return if msg.smr || msg.rlocProbe then some [.negative deid] else none
  | _ =>
    match ← Prog.lift (mdbLookupEntry s.localMdb deid) with
    | none => return none
    | some mle =>
      let e ← derefMle mle
      let recs ← Prog.lift (lispMsgPutMapping e.mapping (if msg.rlocProbe then some la else none))
      return some recs

/-- How the loop of `tr_recv_map_request` ends. -/
inductive RequestLoop where
  | err
  | done
  | reply (records : List ReplyRecord)

/-- The loop of `tr_recv_map_request` over the requested EIDs. -/
def mapRequestLoop (msg : MapRequestMsg) (la : LispAddr) (acc : List ReplyRecord) :
    List LispAddr → XtrM R RequestLoop
  | [] => return .reply acc
  | deid :: rest => do
    match ← replyRecord msg la deid with
    | none => mapRequestLoop msg la acc rest
    | some recs =>
      if lispAddrLafi msg.seid ≠ .NO_ADDR ∧ msg.smr then
        let ret ← trReplyToSmr W env deid msg.seid
        if ret ≠ .GOOD then return .err
        else if !msg.rlocProbe then return .done
        else mapRequestLoop msg la (acc ++ recs) rest
      else mapRequestLoop msg la (acc ++ recs) rest

/-- `map_reply_fill_uconn`: the first ITR-RLOC of the family of the local address, or of the other
family if the router has an address of it. -/
def mapReplyFillUconn (itrRlocs : List LispAddr) (la : LispAddr) : Option LispAddr :=
  match itrRlocs.find? fun r => lispAddrIpAfi r = lispAddrIpAfi la ∧ (lispAddrIpAfi r).isSome with
  | some dst => some dst
  | none =>
    let afi := if lispAddrIpAfi la = some .INET then Af.INET6 else Af.INET
    if (env.defaultAddr afi).isSome then itrRlocs.find? (lispAddrIpAfi · = some afi) else none

/-- `tr_recv_map_request`, with the Map-Reply it sends, for a message received at `la`. -/
def trRecvMapRequest (msg : MapRequestMsg) (la : LispAddr) :
    XtrM R (Ret × Option SentMapReply) := do
  if (msg.rlocProbe || msg.smr) && 1 < msg.eids.length then return (.BAD, none)
  else
    match ← mapRequestLoop W env msg la [] msg.eids with
    | .err => return (.BAD, none)
    | .done => return (.GOOD, none)
    | .reply records =>
      match mapReplyFillUconn env msg.itrRlocs la with
      | none => return (.BAD, none)
      | some dst => return (.GOOD, some ⟨msg.rlocProbe, msg.nonce, records, dst⟩)

/-! ## Map-Notifies -/

/-- A timer's argument read as a Map-Register argument. -/
def TimerArg.asMapReg : TimerArg → Except Fault (Nat × Nat)
  | .mapReg l m => .ok (l, m)
  | _ => .error .typeConfusion

/-- `handle_merge_semantics`. On the first registration the new entry owns the mapping, and the
caller releases it afterwards. -/
def handleMergeSemantics (recMap : Mapping) : XtrM R Unit := do
  match ← mcacheLookup recMap.eidPrefix with
  | none =>
    let _ ← trMcacheAddMapping W env recMap
    throw .badRelease
  | some mce =>
    let e ← derefMce mce
    if mappingCmp e.mapping recMap then return ()
    else
      let m ← mceUpdateLocators mce recMap.locatorsLists
      updatedMapCacheInf W env mce m
      programMceRlocProbing mce

/-- The loop of `tr_recv_map_notify` over the records. -/
def mapNotifyLoop (timer : Nat) : List RawRecord → XtrM R Ret
  | [] => return .GOOD
  | raw :: rest => do
    let p ← parseRecord .uninit raw
    if p.ret = .GOOD then
      match ← Prog.lift (mdbLookupEntryExact (← get).localMdb p.m.eidPrefix) with
      | none => throw .missingEntry
      | some mle =>
        let e ← derefMle mle
        if lispAddrIsMc p.m.eidPrefix && !mappingCmp e.mapping p.m then
          handleMergeSemantics W env p.m
        else pure ()
        onTimers (htableNoncesResetNoncesLst · timer)
        onTimers (lmtimerStart · timer MAP_REGISTER_INTERVAL)
        mapNotifyLoop timer rest
    else return .BAD

/-- `tr_recv_map_notify`. -/
def trRecvMapNotify (msg : MapNotifyMsg) : XtrM R Ret := do
  match htableNoncesLookup (← get).ts msg.nonce with
  | none => return .BAD
  | some timer =>
    let tm ← derefTimer timer
    let (_, ms) ← Prog.lift tm.cbArgument.asMapReg
    let elt ← derefMs ms
    if lispMsgCheckAuthField W.hmac msg.auth elt.key then
      mapNotifyLoop W env timer (readRecords msg.records msg.recCount.toNat)
    else return .BAD

/-! ## Data packets -/

/-- `fwd_info_t`. -/
structure FwdInfo (F : Type) where
  fwdInfo : Option F
  temporal : Bool

/-- `mcache_has_locators` on the entry of the Proxy-ETRs. -/
def petrsHasLocators : XtrM R Bool := do
  let e ← derefMce (← get).petrs
  return decide (0 < e.mapping.locatorCount)

/-- The locator with an identity, in the mappings of a heap of entries. -/
def heapLocator {α : Type} (h : Heap α) (mapping : α → Mapping) (loc : Nat) : Option Locator :=
  ((List.range h.next).filterMap h.cell).flatMap (fun e => (mapping e).locators)
    |>.find? (·.ptr = loc)

/-- The locators of the router, by identity. -/
def Xtr.locatorsAt (s : Xtr R) : LocatorsAt :=
  ⟨heapLocator s.mles (·.mapping), heapLocator s.mces (·.mapping)⟩

/-- The forwarding decision for an entry, with the second attempt of `tr_get_fwd_entry` through the
Proxy-ETRs, which is made when they have no locators. -/
def fwdInfoFor (mle : Option Nat) (mce : Nat) (tuple : PacketTuple) : XtrM R (Option F) := do
  let src ← derefMle (← Prog.ofOption .missingEntry mle)
  let dst ← derefMce mce
  let s ← get
  match ← Prog.lift
    (W.fwdPolicy.policyGetFwdInfo env.rlocs s.locatorsAt src.fwdInfo dst.routingInfo tuple) with
  | some f => return some f
  | none =>
    let hasLocators ← petrsHasLocators
    if mce ≠ s.petrs ∧ !hasLocators then
      let petr ← derefMce s.petrs
      Prog.lift
        (W.fwdPolicy.policyGetFwdInfo env.rlocs s.locatorsAt src.fwdInfo petr.routingInfo tuple)
    else return none

/-- The entry a packet is forwarded by, and whether that is temporary: `none` when there is none. -/
def fwdEntry (tuple : PacketTuple) : XtrM R (Option Nat × Bool) := do
  let petrs := (← get).petrs
  match ← mcacheLookup (.ip tuple.dstAddr) with
  | none =>
    let _ ← handleMapCacheMiss W env (.ip tuple.dstAddr) (.ip tuple.srcAddr)
    let hasLocators ← petrsHasLocators
    return (if hasLocators then some petrs else none, true)
  | some mce =>
    let e ← derefMce mce
    let hasLocators ← petrsHasLocators
    match e.active with
    | .NOT_ACTIVE => return (if hasLocators then some petrs else none, true)
    | .ACTIVE =>
      if e.mapping.locatorCount = 0 then return (if hasLocators then some petrs else none, false)
      else return (some mce, false)

/-- `tr_get_fwd_entry`. -/
def trGetFwdEntry (tuple : PacketTuple) : XtrM R (FwdInfo F) := do
  let s ← get
  let mle ← (match s.mode with
    | .RTR_MODE => pure s.allLocsMap
    | _ => Prog.lift (mdbLookupEntry s.localMdb (.ip tuple.srcAddr)))
  if s.mode ≠ .RTR_MODE ∧ mle.isNone then return ⟨none, false⟩
  else
    match ← fwdEntry W env tuple with
    | (none, temporal) => return ⟨none, temporal⟩
    | (some mce, temporal) =>
      let info ← fwdInfoFor W env mle mce tuple
      return ⟨info, temporal⟩

end Recv

end Lispmob
