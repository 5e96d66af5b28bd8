import Lispmob.XtrRecv

/-!
# The router as a machine

`xtrStep` is the router's reaction to one event: a data packet, a control message, an interface
event, the start of a tick of the timer wheel, or one iteration of the wheel's loop. While the loop
of a tick runs nothing else is processed; an event that is not due changes nothing.

`boot` builds the state the router starts from: the configured static entries, then `xtr_ctrl_run`.
`XtrReach` are the states of its runs.
-/

namespace Lispmob

/-- An event of the router, with what the environment answers while it is processed. -/
inductive XtrEvent where
  | packet (tuple : PacketTuple) (env : CtrlEnv)
  | mapReply (msg : MapReplyMsg) (ra : LispAddr) (env : CtrlEnv)
  | mapRequest (msg : MapRequestMsg) (la : LispAddr) (env : CtrlEnv)
  | mapNotify (msg : MapNotifyMsg) (env : CtrlEnv)
  | ifEvent (ifaceName : String) (oldAddr newAddr : Option LispAddr) (status : LinkState)
      (env : CtrlEnv)
  /-- `handle_timers` is called: the wheel advances by one spoke. -/
  | tick
  /-- One iteration of the loop of `handle_timers`. -/
  | wheel (env : CtrlEnv)

/-- What processing an event returns. -/
inductive XtrOut (F : Type) where
  | nothing
  | ret (r : Ret)
  | fwd (info : FwdInfo F)

section Run

variable {R F : Type} (W : World R F)

/-- The callback of a timer, by its type. -/
def timerCb (env : CtrlEnv) (timer : Nat) : XtrM R Unit := do
  let tm ← derefTimer timer
  match tm.type, tm.cbArgument with
  | .EXPIRE_MAP_CACHE_TIMER, .mce e => let _ ← mcEntryExpirationTimerCb e
  | .MAP_REQUEST_RETRY_TIMER, .mapReq e src => let _ ← sendMapRequestRetryCb W env timer e src
  | .SMR_INV_RETRY_TIMER, .mapReq e src => let _ ← smrInvokedMapRequestCb W env timer e src
  | .RLOC_PROBING_TIMER, .rlocProbe e loc => let _ ← rlocProbingCb W env timer e loc
  | .MAP_REGISTER_TIMER, .mapReg mle ms => let _ ← mapRegisterCb W timer mle ms
  | .SMR_TIMER, .xtr => sendAllSmrAndReg W
  | _, _ => throw .typeConfusion

/-- One iteration of the loop of `handle_timers`. -/
def wheelIteration (env : CtrlEnv) : XtrM R Unit := do
  let s ← get
  match handleTimersVisit s.ts with
  | .done => set { s with inTick := false }
  | .rotated ts => set { s with ts := ts }
  | .expired timer ts =>
    set { s with ts := ts }
    timerCb W env timer

/-- Process an event that is due. -/
def processEvent : XtrEvent → XtrM R (XtrOut F)
  | .packet tuple env => return .fwd (← trGetFwdEntry W env tuple)
  | .mapReply msg ra env => return .ret (← trRecvMapReply W env msg ra)
  | .mapRequest msg la env => return .ret (← trRecvMapRequest W env msg la).1
  | .mapNotify msg env => return .ret (← trRecvMapNotify W env msg)
  | .ifEvent name old new status env => return .ret (← xtrIfEvent W env name old new status)
  | .tick => do
    modify fun s => { s with ts := advanceSpoke s.ts, inTick := true, now := s.now + 1 }
    return .nothing
  | .wheel env => do
    wheelIteration W env
    return .nothing

/-- An iteration of the wheel is due while the loop of a tick runs, everything else when it does
not. -/
def XtrEvent.due (inTick : Bool) : XtrEvent → Bool
  | .wheel _ => inTick
  | _ => !inTick

/-- One step of the router. -/
def xtrStep (e : XtrEvent) : XtrM R (XtrOut F) := do
  if e.due (← get).inTick then processEvent W e else return .nothing

/-! ## Starting -/

/-- What the configuration file and the system give the router. Every locator is an object of its
own. -/
structure XtrConf (R : Type) where
  mode : Mode
  mapRequestRetries : Int
  probeInterval : Int
  probeRetries : Int
  probeRetriesInterval : Int
  pitrs : List LispAddr
  /-- The locators of the Proxy-ETRs. -/
  petrs : List (List Locator)
  petrsInfo : Option R
  /-- The static map-cache entries. -/
  statics : List Mapping
  localMdb : Mdb Nat
  mles : Heap (MapLocalEntry R)
  allLocsMap : Option Nat
  mapResolvers : List LispAddr
  mapServers : List MapServerElt
  ifaceLocatorsTable : List IfaceLocators
  nextLoct : Nat
  locators_nodup : ((petrs.flatten ++ statics.flatMap Mapping.locators).map (·.ptr)).Nodup
  locators_lt : ∀ l ∈ petrs.flatten ++ statics.flatMap Mapping.locators, l.ptr < nextLoct

/-- The entry of the Proxy-ETRs, for `0.0.0.0`. -/
def petrsEntry (conf : XtrConf R) : Mce R :=
  { howLearned := .MCE_STATIC
    active := .ACTIVE
    mapping := { mappingNewInit (.ip (.v4 0)) with
      locatorsLists := conf.petrs
      locatorCount := conf.petrs.flatten.length }
    routingInfo := conf.petrsInfo }

/-- `xtr_ctrl_construct` and the configuration of everything but the map cache. -/
def xtrCtrlConstruct (conf : XtrConf R) : Xtr R :=
  { mode := conf.mode
    mapRequestRetries := conf.mapRequestRetries
    probeInterval := conf.probeInterval
    probeRetries := conf.probeRetries
    probeRetriesInterval := conf.probeRetriesInterval
    petrs := 0
    pitrs := conf.pitrs
    mapCache := mdbNew
    mces := Heap.empty.alloc (petrsEntry conf)
    localMdb := conf.localMdb
    mles := conf.mles
    allLocsMap := conf.allLocsMap
    mapResolvers := conf.mapResolvers
    mapServers := conf.mapServers
    ifaceLocatorsTable := conf.ifaceLocatorsTable
    smrTimer := none
    ts := Timers.init
    nextLoct := conf.nextLoct
    nonceCalls := 0
    inTick := false
    now := 0
    accepted := fun _ => none }

/-- The configuration of a static map-cache entry: a prefix that is already there is skipped. -/
def configureStatic (env : CtrlEnv) (m : Mapping) : XtrM R Unit := do
  match ← mcacheLookupExact m.eidPrefix with
  | some _ => return ()
  | none => let _ ← trMcacheAddStaticMapping W env m

/-- `xtr_run`. -/
def xtrRun (env : CtrlEnv) : XtrM R Unit := do
  let s ← get
  let petr ← derefMce s.petrs
  if 0 < petr.mapping.locatorCount then updatedMapCacheInf W env s.petrs petr.mapping else pure ()
  (mdbForeachEntry s.localMdb).forM (updatedMapLocInf W env)
  programMapRegister W
  programSmr 1
  programMceRlocProbing s.petrs

/-- `rtr_run`. -/
def rtrRun (env : CtrlEnv) : XtrM R Unit := do
  match (← get).allLocsMap with
  | some mle => updatedMapLocInf W env mle
  | none => pure ()

/-- The static entries, then `xtr_ctrl_run`. -/
def boot (env : CtrlEnv) (statics : List Mapping) : XtrM R Unit := do
  statics.forM (configureStatic W env)
  match (← get).mode with
  | .RTR_MODE => rtrRun W env
  | _ => xtrRun W env

/-- The states a router starts from, for the configurations that meet `P`. -/
def StartedWith (P : XtrConf R → Prop) (s : Xtr R) : Prop :=
  ∃ (conf : XtrConf R) (env : CtrlEnv) (u : Unit), P conf ∧
    (boot W env conf.statics).run (xtrCtrlConstruct conf) = .ok (u, s)

/-- The states of the runs of the router from a configuration that meets `P`, by steps that all
meet `ok`. -/
def XtrReach (P : XtrConf R → Prop) (ok : Xtr R → XtrEvent → Prop) : Xtr R → Prop :=
  Reach (xtrStep W) (StartedWith W P) ok

/-! ## Runs of a list of events -/

/-- Start the router and run a list of events, as long as each of them meets `ok`. -/
def xtrRunEvents (ok : Xtr R → XtrEvent → Prop) [∀ s ev, Decidable (ok s ev)] (conf : XtrConf R)
    (env : CtrlEnv) (evs : List XtrEvent) : Option (Xtr R) :=
  match (boot W env conf.statics).run (xtrCtrlConstruct conf) with
  | .ok (_, s) => runWhile (xtrStep W) ok evs s
  | .error _ => none

variable {W}

/-- What holds at the end of such a run holds in a reachable state. -/
theorem XtrReach.of_events {P : XtrConf R → Prop} {ok : Xtr R → XtrEvent → Prop}
    [∀ s ev, Decidable (ok s ev)] {Q : Xtr R → Prop} [DecidablePred Q] (conf : XtrConf R)
    (env : CtrlEnv) (evs : List XtrEvent) (hP : P conf)
    (h : (xtrRunEvents W ok conf env evs).any (fun s => decide (Q s)) = true) :
    ∃ s, XtrReach W P ok s ∧ Q s := by
  obtain ⟨s, hs, hQ⟩ := (Option.any_eq_true _ _).mp h
  refine ⟨s, ?_, of_decide_eq_true hQ⟩
  unfold xtrRunEvents at hs
  split at hs
  · rename_i hboot
    exact Reach.runWhile evs (.start ⟨conf, env, _, hP, hboot⟩) hs
  · cases hs

end Run

/-! ## A small network

A router with the local prefix `10.0.0.0/8`, one map resolver and no Proxy-ETRs, for the concrete
runs of the modules to come. -/

/-- A forwarding policy without data of its own. -/
def labPolicy : FwdPolicy Unit Unit where
  newMapCachePolicyInf _ _ := .ok (some ())
  updatedMapCacheInf _ info _ := .ok info
  updatedMapLocInf _ info _ := .ok info
  policyGetFwdInfo _ _ _ _ _ := .ok (some ())
  getFwdIpAddr a _ :=
    match a with
    | .ip ip => some (.ip ip)
    | _ => none

/-- The nonces are `0`, `1`, `2` and so on. -/
def labWorld : World Unit Unit :=
  ⟨labPolicy, fun n => UInt64.ofNat n, fun _ _ => []⟩

/-- The states of all runs in this world. -/
abbrev LabReach : Xtr Unit → Prop :=
  XtrReach labWorld (fun _ => True) fun _ _ => True

def labEnv : CtrlEnv where
  defaultAddr
    | .INET => some (.ip (.v4 1))
    | .INET6 => none
  ipv4Support := true
  ipv6Support := false
  rlocs := []
  sendOk := true

def labConf : XtrConf Unit where
  mode := .xTR_MODE
  mapRequestRetries := 3
  probeInterval := 30
  probeRetries := 1
  probeRetriesInterval := 5
  pitrs := []
  petrs := []
  petrsInfo := some ()
  statics := []
  localMdb :=
    match mdbAddEntry mdbNew (.ippref (.v4 0x0a000000#32) 8) 0 with
    | .ok (_, db) => db
    | .error _ => mdbNew
  mles := Heap.empty.alloc ⟨mappingNewInit (.ippref (.v4 0x0a000000#32) 8), some ()⟩
  allLocsMap := none
  mapResolvers := [.ip (.v4 2)]
  mapServers := []
  ifaceLocatorsTable := []
  nextLoct := 0
  locators_nodup := by simp
  locators_lt := by simp

/-- A packet from `10.0.0.1` to `192.0.2.1`. -/
def labPacket : XtrEvent :=
  .packet ⟨.v4 0x0a000001#32, .v4 0xc0000201#32, 1, 1, 6⟩ labEnv

/-- A record for the prefix of length 24 at `base`, with one locator. -/
def labRecord (base : BitVec 32) (ttl : UInt32) : RawRecord :=
  .wellFormed ⟨ttl, 0, 0, .ip (.v4 base), 24, [⟨.ip (.v4 77), true, false, false, 1, 100, 255, 0⟩]⟩

/-- A Map-Reply with these records. -/
def labReplyMsg (nonce : Nonce) (rlocProbe : Bool) (records : List RawRecord) : MapReplyMsg :=
  ⟨nonce, rlocProbe, UInt8.ofNat records.length, records⟩

/-- The arrival of a Map-Reply that is no answer to a probe. -/
def labReply (nonce : Nonce) (records : List RawRecord) : XtrEvent :=
  .mapReply (labReplyMsg nonce false records) (.ip (.v4 2)) labEnv

end Lispmob
