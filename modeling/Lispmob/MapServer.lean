import Lispmob.Messages
import Lispmob.Prefixes
import Lispmob.TimerTables

/-!
# The Map-Server

The state of `lisp_ms_t`: the configured site prefixes, the registered sites with their mappings,
and the timers. Site prefixes and registered sites are objects with an identity; the two databases
and the timers hold pointers to them. Nothing holds a pointer to a locator, so the locators of each
mapping are numbered from zero.

`msRecvMapRegister` processes a Map-Register record by record. The first record that matches a site
prefix decides the key the message is checked with; the key of a later site prefix is only compared
with that one, by `strncmp` over the length of the first. A record is then stored, or refreshes the
registration that is there.

`msStep` is the server as a machine: Map-Registers, ticks of the timer wheel and iterations of its
loop. `MsReach` are the states of its runs.
-/

namespace Lispmob

/-! ## Objects -/

/-- `MS_SITE_EXPIRATION`, in seconds. -/
def MS_SITE_EXPIRATION : Nat := 180

/-- A `lisp_site_prefix_t`. -/
structure LispSitePrefix where
  eidPrefix : LispAddr
  proxyReply : Bool
  acceptMoreSpecifics : Bool
  key : CString
  merge : Bool
deriving DecidableEq

/-- A `lisp_reg_site_t`. -/
structure LispRegSite where
  siteMap : Mapping
deriving DecidableEq

/-- A Map-Register. -/
structure MapRegisterMsg where
  nonce : Nonce
  proxyReply : Bool
  wantMapNotify : Bool
  recCount : UInt8
  records : List RawRecord
  auth : AuthField

/-- A Map-Notify that is sent: the mappings put into it and the key it is authenticated with. -/
structure SentMapNotify where
  nonce : Nonce
  records : List Mapping
  key : CString

/-- History: a record that was stored or refreshed a registration. -/
structure Registration where
  /-- The site prefix the record matched. -/
  site : Nat
  /-- The mapping built from the record, with its network prefix. -/
  record : Mapping
  /-- The proxy-reply bit of the message. -/
  proxyReply : Bool
  /-- The tick it was accepted at. -/
  tick : Nat
deriving DecidableEq

/-- A `lisp_ms_t` with the tables of the process. -/
structure MapServer where
  lispSitesDb : Mdb Nat
  /-- The site prefixes. -/
  sites : Heap LispSitePrefix
  regSitesDb : Mdb Nat
  /-- The registered sites. -/
  rsites : Heap LispRegSite
  ts : Timers Nat Nat
  /-- `handle_timers` is in its loop. -/
  inTick : Bool
  /-- History: the number of ticks of the wheel so far. -/
  now : Nat
  /-- History: the accepted records, the last one first. -/
  accepted : List Registration

/-- A program of the Map-Server. -/
abbrev MsM (α : Type) : Type :=
  Prog Fault MapServer α

/-! ## Access -/

/-- Read a site prefix. -/
def derefSite (sp : Nat) : MsM LispSitePrefix := do
  Prog.ofOption .useAfterFree ((← get).sites.cell sp)

/-- Read a registered site. -/
def derefRsite (rsite : Nat) : MsM LispRegSite := do
  Prog.ofOption .useAfterFree ((← get).rsites.cell rsite)

/-- Write the proxy-reply setting of a site prefix. -/
def setProxyReply (sp : Nat) (proxyReply : Bool) : MsM Unit :=
  modify fun s =>
    { s with sites := s.sites.modify sp fun site => { site with proxyReply := proxyReply } }

/-- Run an operation on the timers. -/
def onMsTimers (f : Timers Nat Nat → Except Fault (Timers Nat Nat)) : MsM Unit := do
  let s ← get
  let ts ← Prog.lift (f s.ts)
  set { s with ts := ts }

/-- History: the record was accepted. -/
def noteRegistered (sp : Nat) (m : Mapping) (proxyReply : Bool) : MsM Unit :=
  modify fun s => { s with accepted := ⟨sp, m, proxyReply, s.now⟩ :: s.accepted }

/-! ## Expiration timers -/

/-- `lisp_reg_site_del`. -/
def lispRegSiteDel (rsite : Nat) : MsM Unit := do
  onMsTimers (stopTimersFromObj · rsite)
  modify fun s => { s with rsites := s.rsites.free rsite }

/-- `lsite_entry_expiration_timer_cb`. -/
def lsiteEntryExpirationTimerCb (rsite : Nat) : MsM Unit := do
  let rs ← derefRsite rsite
  let s ← get
  let (_, db) ← Prog.lift (mdbRemoveEntry s.regSitesDb rs.siteMap.eidPrefix)
  set { s with regSitesDb := db }
  lispRegSiteDel rsite

/-- `lsite_entry_start_expiration_timer`. -/
def lsiteEntryStartExpirationTimer (ts : Timers Nat Nat) (rsite : Nat) :
    Except Fault (Timers Nat Nat) :=
  let (ts', timer) := lmtimerCreate ts .REG_SITE_EXPRY_TIMER rsite none
  lmtimerStart (htablePtrsTimersAdd ts' rsite timer) timer
    (BitVec.ofNat 32 (MS_SITE_EXPIRATION + 2))

/-- `lsite_entry_update_expiration_timer`. A site without a list of timers has a null list, whose
size is read. -/
def lsiteEntryUpdateExpirationTimer (ts : Timers Nat Nat) (rsite : Nat) :
    Except Fault (Timers Nat Nat) := do
  match ← htablePtrsTimersGetTimersOfType ts rsite .REG_SITE_EXPRY_TIMER with
  | none => throw .nullDeref
  | some [timer] => lmtimerStart ts timer (BitVec.ofNat 32 (MS_SITE_EXPIRATION + 2))
  | some _ => return ts

/-! ## Map-Registers -/

/-- What the check of a record's key says. -/
inductive KeyCheck where
  /-- The message does not verify: the whole message is refused. -/
  | refused
  /-- The key is not the one the message was checked with: the record is skipped. -/
  | other
  /-- The record goes on, with the key of the message. -/
  | good (key : CString)

/-- The key check of `ms_recv_map_register`. The message is verified once, with the key of the first
record; later keys are compared over the length of that one. -/
def checkKey (hmac : Hmac) (auth : AuthField)
    (key : Option CString) (siteKey : CString) : KeyCheck :=
  match key with
  | none => if lispMsgCheckAuthField hmac auth siteKey.bytes then .good siteKey else .refused
  | some key =>
    if strncmpEq key.bytes.length key.bytes siteKey.bytes then .good key else .other

/-- The check for more specifics. Without them the addresses are compared, not the lengths. -/
def acceptsEid (regPref : LispSitePrefix) (eid : LispAddr) : Except Fault Bool :=
  if regPref.acceptMoreSpecifics then prefIsPrefixBPartOfA regPref.eidPrefix eid
  else .ok (lispAddrCmp regPref.eidPrefix eid = 0)

/-- Replace the locators of a registered site, unless its site prefix has merge semantics. -/
def updateSiteLocators (regPref : LispSitePrefix) (rsite : Nat) (siteMap m : Mapping) : MsM Unit :=
  if regPref.merge then pure ()
  else do
    let (_, siteMap') ← Prog.lift (mappingUpdateLocators 0 siteMap m.locatorsLists)
    modify fun s => { s with rsites := s.rsites.modify rsite fun _ => ⟨siteMap'⟩ }

/-- The update of a registered site by a record. Nothing happens when the mapping compares as equal,
also not to the proxy-reply setting. -/
def updateRegSite (sp : Nat) (rsite : Nat) (siteMap m : Mapping) (proxyReply : Bool) : MsM Unit :=
  if mappingCmp siteMap m then pure ()
  else do
    let regPref ← derefSite sp
    updateSiteLocators regPref rsite siteMap m
    setProxyReply sp proxyReply

/-- A record for a prefix that is registered: its timer starts anew. -/
def refreshRegSite (sp : Nat) (rsite : Nat) (m : Mapping) (proxyReply : Bool) : MsM Unit := do
  let rs ← derefRsite rsite
  updateRegSite sp rsite rs.siteMap m proxyReply
  onMsTimers (lsiteEntryUpdateExpirationTimer · rsite)

/-- A record for a prefix that is not registered. The result of the insertion is not looked at. -/
def addRegSite (sp : Nat) (m : Mapping) (proxyReply : Bool) : MsM Unit := do
  let s ← get
  let newRsite := s.rsites.next
  let (_, db) ← Prog.lift (mdbAddEntry s.regSitesDb m.eidPrefix newRsite)
  set { s with rsites := s.rsites.alloc ⟨m⟩, regSitesDb := db }
  onMsTimers (lsiteEntryStartExpirationTimer · newRsite)
  setProxyReply sp proxyReply

/-- Store an accepted record, or refresh the registration of its prefix if there is one. -/
def storeOrRefresh (sp : Nat) (m : Mapping) (proxyReply : Bool) : Option Nat → MsM Unit
  | some rsite => refreshRegSite sp rsite m proxyReply
  | none => addRegSite sp m proxyReply

/-- What is done with an accepted record. -/
def registerMapping (sp : Nat) (m : Mapping) (proxyReply : Bool) : MsM Unit := do
  let rsite ← Prog.lift (mdbLookupEntryExact (← get).regSitesDb m.eidPrefix)
  storeOrRefresh sp m proxyReply rsite
  noteRegistered sp m proxyReply

/-- The variables of `ms_recv_map_register` that live across records. -/
structure RegisterVars where
  key : Option CString
  /-- The mappings put into the Map-Notify. -/
  mntf : List Mapping
  validRecords : Bool

/-- How the processing of a record ends. -/
inductive RecordExit where
  | next (v : RegisterVars)
  /-- The handler returns `BAD`. -/
  | bad

/-- Put an accepted record into the Map-Notify, if one is wanted. -/
def RegisterVars.notify (v : RegisterVars) (msg : MapRegisterMsg) (key : CString) (m : Mapping) :
    RegisterVars :=
  if msg.wantMapNotify then ⟨some key, v.mntf ++ [m], true⟩ else { v with key := some key }

/-- The mapping of a record, with its network prefix; `none` when the record does not parse. An EID
that is no IP prefix has no network prefix, and the null pointer is copied from. -/
def parseRegisterRecord (raw : RawRecord) : Except Fault (Option Mapping) := do
  let p ← lispMsgParseMappingRecord 0 .null raw
  if p.ret ≠ .GOOD then return none
  else
    match ← prefGetNetworkPrefix p.m.eidPrefix with
    | none => throw .missingAddress
    | some eidPref => return some { p.m with eidPrefix := eidPref }

section Register

variable (hmac : Hmac)

/-- One iteration of the loop of `ms_recv_map_register`. -/
def registerRecord (msg : MapRegisterMsg) (v : RegisterVars) (raw : RawRecord) :
    MsM RecordExit := do
  match ← Prog.lift (parseRegisterRecord raw) with
  | none => return .bad
  | some m =>
    match ← Prog.lift (mdbLookupEntry (← get).lispSitesDb m.eidPrefix) with
    | none => return .next v
    | some sp =>
      let regPref ← derefSite sp
      match checkKey hmac msg.auth v.key regPref.key with
      | .refused => return .bad
      | .other => return .next v
      | .good key =>
        if ← Prog.lift (acceptsEid regPref m.eidPrefix) then
          registerMapping sp m msg.proxyReply
          return .next (v.notify msg key m)
        else return .next { v with key := some key }

/-- The loop of `ms_recv_map_register`; `none` when the handler returns `BAD`. -/
def registerRecords (msg : MapRegisterMsg) (v : RegisterVars) :
    List RawRecord → MsM (Option RegisterVars)
  | [] => return some v
  | raw :: rest => do
    match ← registerRecord hmac msg v raw with
    | .bad => return none
    | .next v' => registerRecords msg v' rest

/-- `ms_recv_map_register`, with the Map-Notify it sends. -/
def msRecvMapRegister (msg : MapRegisterMsg) : MsM (Ret × Option SentMapNotify) := do
  match ← registerRecords hmac msg ⟨none, [], false⟩
      (readRecords msg.records msg.recCount.toNat) with
  | none => return (.BAD, none)
  | some v =>
    match v.key with
    | some key =>
      if msg.wantMapNotify && v.validRecords then
        return (.GOOD, some ⟨msg.nonce, v.mntf, key⟩)
      else return (.GOOD, none)
    | none => return (.GOOD, none)

/-! ## The machine -/

/-- An event of the Map-Server. -/
inductive MsEvent where
  | mapRegister (msg : MapRegisterMsg)
  /-- `handle_timers` is called: the wheel advances by one spoke. -/
  | tick
  /-- One iteration of the loop of `handle_timers`. -/
  | wheel

/-- What processing an event returns. -/
inductive MsOut where
  | nothing
  | ret (r : Ret) (mntf : Option SentMapNotify)

/-- The callback of a timer, by its type. -/
def msTimerCb (timer : Nat) : MsM Unit := do
  let tm ← Prog.lift ((← get).ts.deref timer)
  match tm.type with
  | .REG_SITE_EXPRY_TIMER => lsiteEntryExpirationTimerCb tm.cbArgument
  | _ => throw .typeConfusion

/-- One iteration of the loop of `handle_timers`. -/
def msWheelIteration : MsM Unit := do
  let s ← get
  match handleTimersVisit s.ts with
  | .done => set { s with inTick := false }
  | .rotated ts => set { s with ts := ts }
  | .expired timer ts =>
    set { s with ts := ts }
    msTimerCb timer

/-- Process an event that is due. -/
def msProcessEvent : MsEvent → MsM MsOut
  | .mapRegister msg => do
    let (r, mntf) ← msRecvMapRegister hmac msg
    return .ret r mntf
  | .tick => do
    modify fun s => { s with ts := advanceSpoke s.ts, inTick := true, now := s.now + 1 }
    return .nothing
  | .wheel => do
    msWheelIteration
    return .nothing

/-- An iteration of the wheel is due while the loop of a tick runs, everything else when it does
not. -/
def MsEvent.due (inTick : Bool) : MsEvent → Bool
  | .wheel => inTick
  | _ => !inTick

/-- One step of the Map-Server. -/
def msStep (e : MsEvent) : MsM MsOut := do
  if e.due (← get).inTick then msProcessEvent hmac e else return .nothing

/-! ## Starting -/

/-- What the configuration file gives the Map-Server. -/
structure MsConf where
  lispSites : List LispSitePrefix
  /-- The static registered sites. -/
  staticSites : List Mapping

/-- `ms_ctrl_construct`: both databases are empty. -/
def msCtrlConstruct : MapServer :=
  { lispSitesDb := mdbNew
    sites := Heap.empty
    regSitesDb := mdbNew
    rsites := Heap.empty
    ts := Timers.init
    inTick := false
    now := 0
    accepted := [] }

/-- `ms_add_lisp_site_prefix`. Of two sites with one prefix the first stays in the database. -/
def msAddLispSitePrefix (site : LispSitePrefix) : MsM Unit := do
  let s ← get
  let (_, db) ← Prog.lift (mdbAddEntry s.lispSitesDb site.eidPrefix s.sites.next)
  set { s with sites := s.sites.alloc site, lispSitesDb := db }

/-- The configuration of a static registered site, with `ms_add_registered_site_prefix`: a prefix
that is already there is skipped. -/
def configureRegisteredSite (m : Mapping) : MsM Unit := do
  let s ← get
  match ← Prog.lift (mdbLookupEntryExact s.regSitesDb m.eidPrefix) with
  | some _ => return ()
  | none =>
    let (_, db) ← Prog.lift (mdbAddEntry s.regSitesDb m.eidPrefix s.rsites.next)
    set { s with rsites := s.rsites.alloc ⟨m⟩, regSitesDb := db }

/-- The configuration of the Map-Server. -/
def msBoot (conf : MsConf) : MsM Unit := do
  conf.lispSites.forM msAddLispSitePrefix
  conf.staticSites.forM configureRegisteredSite

/-- The state a Map-Server starts from. -/
def MsStartedWith (conf : MsConf) (s : MapServer) : Prop :=
  ∃ u, (msBoot conf).run msCtrlConstruct = .ok (u, s)

/-- The states of the runs of a Map-Server with this configuration, by steps that all meet `ok`. -/
def MsReach (conf : MsConf) (ok : MapServer → MsEvent → Prop) : MapServer → Prop :=
  Reach (msStep hmac) (MsStartedWith conf) ok

end Register

end Lispmob
