import Lispmob.XtrState

/-!
# The map cache and the timers of its entries

The functions of `lisp_xtr.c` that install, refresh and remove map-cache entries, and the callbacks
of the timers that belong to an entry: expiration, Map-Request retries, SMR-invoked Map-Requests
and RLOC probing.

A Map-Request that cannot be built or sent makes the callback return before the timer is started
again.
-/

namespace Lispmob

/-- `LISPD_INITIAL_MRQ_TIMEOUT`. -/
def LISPD_INITIAL_MRQ_TIMEOUT : BitVec 32 := 2

/-- `LISPD_INITIAL_SMR_TIMEOUT`. -/
def LISPD_INITIAL_SMR_TIMEOUT : BitVec 32 := 3

/-- `LISPD_MAX_SMR_RETRANSMIT`. -/
def LISPD_MAX_SMR_RETRANSMIT : Int := 2

/-! ## Sending -/

mutual

/-- `lisp_addr_write` returns a positive length; `write_fcts` has no function for the Geo type. -/
def lispAddrWritable : LispAddr → Bool
  | .geo _ _ _ _ => false
  | .afiList l => lispAddrsWritable l
  | .elp l => elpWritable l
  | .rle l => rleWritable l
  | _ => true
termination_by structural a => a

/-- All the addresses of an AFI list can be written. -/
def lispAddrsWritable : List LispAddr → Bool
  | [] => true
  | a :: l => lispAddrWritable a && lispAddrsWritable l
termination_by structural a => a

/-- All the hops of a path can be written. -/
def elpWritable : List ElpNode → Bool
  | [] => true
  | .mk _ _ _ a :: l => lispAddrWritable a && elpWritable l
termination_by structural a => a

/-- All the nodes of a replication list can be written. -/
def rleWritable : List RleNode → Bool
  | [] => true
  | .mk _ a :: l => lispAddrWritable a && rleWritable l
termination_by structural a => a

end

/-- `ctrl_default_rlocs`, a list built by insertion at the front. -/
def ctrlDefaultRlocs (env : CtrlEnv) : List LispAddr :=
  (env.defaultAddr .INET6).toList ++ (env.defaultAddr .INET).toList

/-- `lisp_msg_mreq_create` does not return null: the source EID and the ITR-RLOCs can be written,
and there is at least one ITR-RLOC. -/
def lispMsgMreqCreate (seid : LispAddr) (itrRlocs : List LispAddr) : Bool :=
  lispAddrWritable seid && !itrRlocs.isEmpty && itrRlocs.all lispAddrWritable

/-- `send_msg` returns `GOOD`. -/
def sendMsg (env : CtrlEnv) (dst : Option LispAddr) : Bool :=
  match dst with
  | some (.ip _) => env.sendOk
  | _ => false

/-- `get_map_resolver`: an IPv6 resolver if IPv6 is supported, then an IPv4 one. -/
def getMapResolver (env : CtrlEnv) (mapResolvers : List LispAddr) : Option LispAddr :=
  match if env.ipv6Support then mapResolvers.find? (lispAddrIpAfi · = some .INET6) else none with
  | some addr => some addr
  | none => if env.ipv4Support then mapResolvers.find? (lispAddrIpAfi · = some .INET) else none

/-- The values stored in a trie. -/
def Patricia.values {β : Type} (pt : Patricia β) : List β :=
  pt.nodes.entries.map (·.2)

/-- `mdb_foreach_ip_entry`. -/
def mdbForeachIpEntry {β : Type} (db : Mdb β) : List β :=
  (db.af4IpDb.values ++ db.af6IpDb.values).flatMap Patricia.values

/-- `mdb_foreach_entry`. -/
def mdbForeachEntry {β : Type} (db : Mdb β) : List β :=
  (db.af4IpDb.values ++ db.af6IpDb.values ++ db.af4McDb.values ++ db.af6McDb.values).flatMap
    Patricia.values

section Cache

variable {R F : Type} (W : World R F) (env : CtrlEnv)

/-! ## Removing and installing entries -/

/-- `mcache_entry_del`: stop the timers of the entry and release it. -/
def mcacheEntryDel : Option Nat → XtrM R Unit
  | none => pure ()
  | some mce => do
    onTimers (stopTimersFromObj · (.mce mce))
    let _ ← derefMce mce
    modify fun s => { s with mces := s.mces.free mce }

/-- `tr_mcache_remove_entry`: what is stored under the EID of `mce` is removed and released. -/
def trMcacheRemoveEntry (mce : Nat) : XtrM R Ret := do
  let e ← derefMce mce
  let (data, db) ← Prog.lift (mdbRemoveEntry (← get).mapCache e.mapping.eidPrefix)
  modify fun s => { s with mapCache := db }
  mcacheEntryDel data
  return .GOOD

/-- `mcache_entry_new` with `mcache_entry_init` or `mcache_entry_init_static`. -/
def mcacheEntryNew (howLearned : HowLearned) (active : Activity) (m : Mapping) : XtrM R Nat := do
  let s ← get
  set { s with mces := s.mces.alloc ⟨howLearned, active, m, none⟩ }
  return s.mces.next

/-- `mcache_add_entry`. -/
def mcacheAddEntry (key : LispAddr) (mce : Nat) : XtrM R Ret := do
  let (ret, db) ← Prog.lift (mdbAddEntry (← get).mapCache key mce)
  modify fun s => { s with mapCache := db }
  return ret

/-- `mcache_lookup`. -/
def mcacheLookup (laddr : LispAddr) : XtrM R (Option Nat) := do
  Prog.lift (mdbLookupEntry (← get).mapCache laddr)

/-- `mcache_lookup_exact`. -/
def mcacheLookupExact (laddr : LispAddr) : XtrM R (Option Nat) := do
  Prog.lift (mdbLookupEntryExact (← get).mapCache laddr)

/-- `mc_entry_start_expiration_timer`: a new timer, for `ttl * 60` in 32-bit arithmetic. -/
def mcEntryStartExpirationTimer (mce : Nat) : XtrM R Unit := do
  let timer ← newTimer .EXPIRE_MAP_CACHE_TIMER (.mce mce) (.mce mce) none
  let e ← derefMce mce
  onTimers (lmtimerStart · timer (e.mapping.ttl * 60).toBitVec)

/-- `program_rloc_probing`: a new timer for one locator. -/
def programRlocProbing (mce : Nat) (time : Int) (loc : Nat) : XtrM R Unit := do
  let timer ← newTimer .RLOC_PROBING_TIMER (.rlocProbe mce loc) (.mce mce) (some [])
  onTimers (lmtimerStart · timer (BitVec.ofInt 32 time))

/-- `program_mce_rloc_probing`: stop the probing timers of the entry and start one for each of its
locators. -/
def programMceRlocProbing (mce : Nat) : XtrM R Unit := do
  let s ← get
  if s.probeInterval = 0 then
    return ()
  else
    onTimers (stopTimersOfTypeFromObj · (.mce mce) .RLOC_PROBING_TIMER)
    let e ← derefMce mce
    (e.mapping.locators.map (·.ptr)).forM (programRlocProbing mce s.probeInterval)

/-- `new_map_cache_policy_inf` for a new entry. -/
def newMapCachePolicyInf (mce : Nat) (m : Mapping) : XtrM R Bool := do
  let info ← Prog.lift (W.fwdPolicy.newMapCachePolicyInf env.rlocs m)
  setMceRoutingInfo mce info
  return info.isSome

/-- The part `tr_mcache_add_mapping` and `handle_map_cache_miss` share: forwarding data for the new
entry, then the entry into the map cache. -/
def installMce (mce : Nat) (m : Mapping) : XtrM R Bool := do
  let hasInfo ← newMapCachePolicyInf W env mce m
  if hasInfo then
    let ret ← mcacheAddEntry m.eidPrefix mce
    return ret = .GOOD
  else return false

/-- `updated_map_cache_inf` on the forwarding data of an entry. -/
def updatedMapCacheInf (mce : Nat) (m : Mapping) : XtrM R Unit := do
  let e ← derefMce mce
  let info ← Prog.lift (W.fwdPolicy.updatedMapCacheInf env.rlocs e.routingInfo m)
  setMceRoutingInfo mce info

/-- `mcache_entry_set_active`. -/
def mcacheEntrySetActive (mce : Nat) : XtrM R Unit :=
  modify fun s => { s with mces := s.mces.modify mce fun e => { e with active := .ACTIVE } }

/-- `tr_mcache_add_mapping`. The result of `mcache_add_entry` is also `GOOD` when the prefix is
taken; the new entry is then in no database, and gets its timers all the same. -/
def trMcacheAddMapping (m : Mapping) : XtrM R Ret := do
  let mce ← mcacheEntryNew .MCE_DYNAMIC .NOT_ACTIVE m
  let installed ← installMce W env mce m
  if installed then
    mcacheEntrySetActive mce
    mcEntryStartExpirationTimer mce
    programMceRlocProbing mce
    return .GOOD
  else
    mcacheEntryDel (some mce)
    return .BAD

/-- `tr_mcache_add_static_mapping`. -/
def trMcacheAddStaticMapping (m : Mapping) : XtrM R Ret := do
  let mce ← mcacheEntryNew .MCE_STATIC .ACTIVE m
  let hasInfo ← newMapCachePolicyInf W env mce m
  if hasInfo then
    let ret ← mcacheAddEntry m.eidPrefix mce
    if ret = .GOOD then
      programMceRlocProbing mce
      return .GOOD
    else return .BAD
  else
    mcacheEntryDel (some mce)
    return .BAD

/-- `mapping_update_locators` on the mapping of an entry. -/
def mceUpdateLocators (mce : Nat) (loctsLists : List (List Locator)) : XtrM R Mapping := do
  let e ← derefMce mce
  let (next, m) ← Prog.lift (mappingUpdateLocators (← get).nextLoct e.mapping loctsLists)
  modify fun s => { s with nextLoct := next }
  setMceMapping mce m
  return m

/-- `update_mcache_entry`: the entry stored under the EID of the record, not the one the request
was sent for. Only the locators are taken over; the expiration timer is an additional one. -/
def updateMcacheEntry (recvMap : Mapping) : XtrM R Ret := do
  match ← mcacheLookupExact recvMap.eidPrefix with
  | none => return .BAD
  | some mce =>
    let m ← mceUpdateLocators mce recvMap.locatorsLists
    updatedMapCacheInf W env mce m
    mcEntryStartExpirationTimer mce
    programMceRlocProbing mce
    noteAccepted mce recvMap.ttl
    return .GOOD

/-! ## Callbacks -/

/-- `mc_entry_expiration_timer_cb`. -/
def mcEntryExpirationTimerCb (mce : Nat) : XtrM R Ret := do
  let _ ← trMcacheRemoveEntry mce
  return .GOOD

/-- `build_and_send_map_request`. The result of `send_msg` is not looked at. -/
def buildAndSendMapRequest (seid : LispAddr) (mce : Nat) : XtrM R Bool := do
  let s ← get
  let _ ← derefMce mce
  return !s.mapResolvers.isEmpty && lispMsgMreqCreate seid (ctrlDefaultRlocs env) &&
    (getMapResolver env s.mapResolvers).isSome

/-- The end of the callbacks that send a message: remember its nonce and start the timer again. -/
def rearmWithNonce (timer : Nat) (nonce : Nonce) (timeout : BitVec 32) : XtrM R Unit := do
  onTimers (htableNoncesInsert · nonce timer)
  onTimers (lmtimerStart · timer timeout)

/-- The number of nonces of a timer, `nonces_list_size`. -/
def noncesListSize (tm : Timer TimerArg) : XtrM R Int := do
  let l ← Prog.ofOption .nullDeref tm.noncesLst
  return l.length

/-- `send_map_request_retry_cb`. -/
def sendMapRequestRetryCb (timer : Nat) (mce : Nat) (srcEid : LispAddr) : XtrM R Ret := do
  let retries ← noncesListSize (← derefTimer timer)
  let _ ← derefMce mce
  if retries - 1 < (← get).mapRequestRetries then
    let nonce ← nonceNew W
    let sent ← buildAndSendMapRequest env srcEid mce
    if sent then
      rearmWithNonce timer nonce LISPD_INITIAL_MRQ_TIMEOUT
      return .GOOD
    else return .BAD
  else
    let _ ← trMcacheRemoveEntry mce
    return .BAD

/-- `local_map_db_get_main_eid`. -/
def localMapDbGetMainEid (afi : Option Af) : XtrM R (Option LispAddr) := do
  let s ← get
  return ((mdbForeachIpEntry s.localMdb).filterMap fun mle =>
    (s.mles.cell mle).map (·.mapping.eidPrefix)).find? (lispAddrIpAfi · = afi)

/-- `send_smr_invoked_map_request`. -/
def sendSmrInvokedMapRequest (srcEid : LispAddr) (mce : Nat) : XtrM R Bool := do
  let s ← get
  let e ← derefMce mce
  let afi := lispAddrIpAfi e.mapping.eidPrefix
  let mainEid ← localMapDbGetMainEid afi
  return lispMsgMreqCreate srcEid (ctrlDefaultRlocs env) &&
    (mainEid.isSome || (afi.bind env.defaultAddr).isSome) &&
    sendMsg env (getMapResolver env s.mapResolvers)

/-- `smr_invoked_map_request_cb`. -/
def smrInvokedMapRequestCb (timer : Nat) (mce : Nat) (srcEid : LispAddr) : XtrM R Ret := do
  let size ← noncesListSize (← derefTimer timer)
  if size - 1 < LISPD_MAX_SMR_RETRANSMIT then
    let nonce ← nonceNew W
    let sent ← sendSmrInvokedMapRequest env srcEid mce
    if sent then
      rearmWithNonce timer nonce LISPD_INITIAL_SMR_TIMEOUT
      return .GOOD
    else return .BAD
  else
    let _ ← trMcacheRemoveEntry mce
    return .BAD

/-- Read a locator of an entry through a pointer. -/
def derefLocator (mce : Nat) (loc : Nat) : XtrM R Locator := do
  let e ← derefMce mce
  Prog.ofOption .useAfterFree (e.mapping.locators.find? (·.ptr = loc))

/-- Write the state of a locator of an entry. -/
def setLocatorState (mce : Nat) (loc : Nat) (state : LinkState) : XtrM R Unit := do
  let e ← derefMce mce
  setMceMapping mce { e.mapping with
    locatorsLists := e.mapping.locatorsLists.map fun l =>
      l.map fun loct => if loct.ptr = loc then { loct with state := state } else loct }

/-- `rloc_probing`. -/
def rlocProbing (loct : Locator) : Bool :=
  lispMsgMreqCreate .noAddr (ctrlDefaultRlocs env) &&
    sendMsg env (W.fwdPolicy.getFwdIpAddr loct.addr env.rlocs)

/-- The change of state of a locator that did not answer. `false` stands for the early return when
the entry is found nowhere. -/
def locatorDown (mce : Nat) (loc : Nat) : XtrM R Bool := do
  setLocatorState mce loc .DOWN
  let e ← derefMce mce
  match ← mcacheLookupExact e.mapping.eidPrefix with
  | some found =>
    updatedMapCacheInf W env found e.mapping
    return true
  | none =>
    let s ← get
    if mce ≠ s.petrs then return false
    else
      updatedMapCacheInf W env s.petrs e.mapping
      return true

/-- `rloc_probing_cb`. -/
def rlocProbingCb (timer : Nat) (mce : Nat) (loc : Nat) : XtrM R Ret := do
  let size ← noncesListSize (← derefTimer timer)
  let loct ← derefLocator mce loc
  let s ← get
  if size - 1 < s.probeRetries then
    let nonce ← nonceNew W
    if rlocProbing W env loct then
      rearmWithNonce timer nonce (BitVec.ofInt 32 s.probeRetriesInterval)
      return .GOOD
    else return .BAD
  else
    let found ← (if loct.state = .UP then locatorDown W env mce loc else pure true)
    if found then
      onTimers (htableNoncesResetNoncesLst · timer)
      onTimers (lmtimerStart · timer (BitVec.ofInt 32 s.probeInterval))
      return .BAD
    else return .BAD

/-! ## Misses -/

/-- `handle_map_cache_miss`: a placeholder for the address, and its first Map-Request. -/
def handleMapCacheMiss (requestedEid srcEid : LispAddr) : XtrM R Ret := do
  let m := mappingNewInit requestedEid
  let mce ← mcacheEntryNew .MCE_DYNAMIC .NOT_ACTIVE m
  let installed ← installMce W env mce m
  if installed then
    let timer ← newTimer .MAP_REQUEST_RETRY_TIMER (.mapReq mce srcEid) (.mce mce) (some [])
    sendMapRequestRetryCb W env timer mce srcEid
  else
    mcacheEntryDel (some mce)
    return .BAD

end Cache

end Lispmob
