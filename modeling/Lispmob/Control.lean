import Lispmob.FlowBalancing
import Lispmob.XtrRun

/-!
# The controller and the management interface

A router with the flow-balancing policy as the process runs it. The controller keeps the list of the
addresses of the interfaces, `ctrl->rlocs`, which the policy reads. It is set when the configuration
is read, so that static entries are configured with an empty list, and again after every event of an
interface or a route. Its elements are the address objects of the interfaces themselves: an address
that changes is seen through it before the event is.

The management interface replaces the map resolvers, the map servers, the local mappings or the
Proxy-ETRs of a running tunnel router or mobile node. A request that does not parse changes nothing
and is left out. What the configuration code takes from the interfaces of the system is part of the
request.
-/

namespace Lispmob

open Prog

/-- The configuration of a router with the flow-balancing policy. -/
abbrev FbConf := XtrConf BalancingLocatorsVecs

/-- The world of a router with the flow-balancing policy. -/
def fbWorld (pktTupleHash : PacketTuple → UInt32) (nonces : Nat → Nonce)
    (hmac : Hmac) : FbWorld :=
  ⟨fwdPolicyFlowBalancing pktTupleHash, nonces, hmac⟩

/-- A router and the list of the RLOCs of its controller. -/
structure Device where
  xtr : FbXtr
  rlocs : List LispAddr

/-- A configured local mapping, with what its configuration takes from the system. -/
structure ConfMapping where
  mapping : Mapping
  /-- The interfaces, after the locators and the entry of the mapping were linked to them. -/
  ifaces : List IfaceLocators
  /-- The data plane accepts the EID prefix. -/
  registered : Bool
  /-- The EID prefix is an address. -/
  parsed : Bool := true

/-- A request of the management interface. -/
inductive ApiCall where
  | mrCreate (list : List LispAddr)
  | mrDelete
  | msCreate (mapServersList : List MapServerElt)
  | msDelete
  | mapdbCreate (confMappingList : List ConfMapping)
  | mapdbDelete
  | petrsCreate (addrList : List IpAddr)
  | petrsDelete

section Api

variable (W : FbWorld)

/-! ## Map resolvers and map servers -/

/-- `lmapi_xtr_mr_create`. -/
def lmapiXtrMrCreate (list : List LispAddr) : FbXtrM Ret := do
  modify fun s => { s with mapResolvers := list }
  return .GOOD

/-- `lmapi_xtr_mr_delete`. -/
def lmapiXtrMrDelete : FbXtrM Ret := do
  if (← get).mapResolvers.isEmpty then return .BAD
  else
    modify fun s => { s with mapResolvers := [] }
    return .GOOD

/-- `lmapi_xtr_ms_create`. -/
def lmapiXtrMsCreate (mapServersList : List MapServerElt) : FbXtrM Ret := do
  modify fun s => { s with mapServers := mapServersList }
  programMapRegister W
  return .GOOD

/-- `lmapi_xtr_ms_delete`. The Map-Register timers keep their pointers to the servers. -/
def lmapiXtrMsDelete : FbXtrM Ret := do
  if (← get).mapServers.isEmpty then return .BAD
  else
    modify fun s => { s with mapServers := [] }
    return .GOOD

/-! ## Local mappings -/

/-- `map_local_entry_del`. -/
def mapLocalEntryDel (mle : Nat) : FbXtrM Unit := do
  onTimers (stopTimersFromObj · (.mle mle))
  let _ ← derefMle mle
  modify fun s => { s with mles := s.mles.free mle }

/-- `local_map_db_del` and `local_map_db_new`. The interfaces keep their pointers to the entries. -/
def localMapDbReplace : FbXtrM Unit := do
  (mdbForeachEntry (← get).localMdb).forM mapLocalEntryDel
  modify fun s => { s with localMdb := mdbNew }

/-- `map_local_entry_new_init`, with the vectors of `new_map_loc_policy_inf` and the links to the
interfaces. -/
def mapLocalEntryNewInit (rlocs : List LispAddr) (conf : ConfMapping) :
    FbXtrM Nat := do
  let m := { conf.mapping with authoritative := 1 }
  let info ← Prog.lift (balancingVectorsCalculate rlocs m)
  let s ← get
  set { s with mles := s.mles.alloc ⟨m, some info⟩, ifaceLocatorsTable := conf.ifaces }
  return s.mles.next

/-- `add_local_db_map_local_entry`. -/
def addLocalDbMapLocalEntry (eid : LispAddr) (mle : Nat) : FbXtrM Ret := do
  match ← Prog.lift (mdbLookupEntryExact (← get).localMdb eid) with
  | some _ => return .BAD
  | none =>
    let (ret, db) ← Prog.lift (mdbAddEntry (← get).localMdb eid mle)
    modify fun s => { s with localMdb := db }
    return ret

/-- The mappings of each family after one more. -/
def countMapping (count : Nat × Nat) : Af → Nat × Nat
  | .INET => (count.1 + 1, count.2)
  | .INET6 => (count.1, count.2 + 1)

/-- The check for mobile nodes, which have one mapping of each family: the new counts, or `none` to
leave the loop. -/
def mnCount (mode : Mode) (count : Nat × Nat) (eid : LispAddr) :
    Except Fault (Option (Nat × Nat)) :=
  match mode with
  | .MN_MODE =>
    match lispAddrIpGetAddr eid with
    | none => .error .missingAddress
    | some a =>
      let count' := countMapping count (ipAddrAfi a)
      .ok (if 1 < count'.1 ∨ 1 < count'.2 then none else some count')
  | _ => .ok (some count)

/-- The loop of `lmapi_xtr_mapdb_create` over the configured mappings; `false` is the jump to the
error label. A mapping that a mobile node refuses has been linked to the interfaces already. -/
def addConfMappings (rlocs : List LispAddr) (count : Nat × Nat) :
    List ConfMapping → FbXtrM Bool
  | [] => return true
  | conf :: rest => do
    if !conf.parsed then return false
    else
      match ← Prog.lift (mnCount (← get).mode count conf.mapping.eidPrefix) with
      | none =>
        modify fun s => { s with ifaceLocatorsTable := conf.ifaces }
        return true
      | some count' =>
        let mle ← mapLocalEntryNewInit rlocs conf
        let ret ← addLocalDbMapLocalEntry conf.mapping.eidPrefix mle
        if ret = .GOOD ∧ conf.registered then addConfMappings rlocs count' rest
        else return false

/-- `lmapi_xtr_mapdb_create`. -/
def lmapiXtrMapdbCreate (rlocs : List LispAddr) (confMappingList : List ConfMapping) :
    FbXtrM Ret := do
  localMapDbReplace
  let good ← addConfMappings rlocs (0, 0) confMappingList
  if good then
    programMapRegister W
    return .GOOD
  else return .BAD

/-- `lmapi_xtr_mapdb_delete`. -/
def lmapiXtrMapdbDelete : FbXtrM Ret := do
  localMapDbReplace
  return .GOOD

/-! ## Proxy-ETRs -/

/-- `glist_remove_all` on the locator lists of the Proxy-ETRs. The count of the locators stays. -/
def petrsRemoveAll : FbXtrM Unit := do
  let petrs := (← get).petrs
  let e ← derefMce petrs
  setMceMapping petrs { e.mapping with locatorsLists := [] }

/-- `add_proxy_etr_entry`, with priority 1 and weight 100. A locator that is not added is
released. -/
def addProxyEtrEntry (addr : IpAddr) : FbXtrM Unit := do
  let s ← get
  let e ← derefMce s.petrs
  let (_, m) ← Prog.lift
    (mappingAddLocator e.mapping ⟨s.nextLoct, .ip addr, .UP, 1, 100, 255, 0⟩)
  modify fun s => { s with nextLoct := s.nextLoct + 1 }
  setMceMapping s.petrs m

/-- `lmapi_xtr_petrs_create`. -/
def lmapiXtrPetrsCreate (env : CtrlEnv) (addrList : List IpAddr) :
    FbXtrM Ret := do
  petrsRemoveAll
  addrList.forM addProxyEtrEntry
  let petrs := (← get).petrs
  let e ← derefMce petrs
  updatedMapCacheInf W env petrs e.mapping
  return .GOOD

/-- `lmapi_xtr_petrs_delete`. -/
def lmapiXtrPetrsDelete : FbXtrM Ret := do
  petrsRemoveAll
  return .GOOD

/-- Process a request. -/
def processCall (env : CtrlEnv) : ApiCall → FbXtrM Ret
  | .mrCreate list => lmapiXtrMrCreate list
  | .mrDelete => lmapiXtrMrDelete
  | .msCreate mapServersList => lmapiXtrMsCreate W mapServersList
  | .msDelete => lmapiXtrMsDelete
  | .mapdbCreate confMappingList => lmapiXtrMapdbCreate W env.rlocs confMappingList
  | .mapdbDelete => lmapiXtrMapdbDelete
  | .petrsCreate addrList => lmapiXtrPetrsCreate W env addrList
  | .petrsDelete => lmapiXtrPetrsDelete

end Api

/-! ## Inversion of the requests about the local mappings -/

section Mapdb

variable {s s' : FbXtr} {rlocs : List LispAddr} {mle : Nat}

/-- Deleting a local entry stops its timers and releases it. -/
theorem mapLocalEntryDel_eq {u : Unit} (h : (mapLocalEntryDel mle).run s = .ok (u, s')) :
    ∃ ts, stopTimersFromObj s.ts (.mle mle) = .ok ts ∧
      s' = { s with ts := ts, mles := s.mles.free mle } := by
  simp only [mapLocalEntryDel, bind_ok, onTimers_ok, derefMle_ok, modify_ok] at h
  obtain ⟨_, _, ⟨ts, hts, rfl⟩, ml, _, ⟨-, rfl⟩, -, rfl⟩ := h
  exact ⟨ts, hts, rfl⟩

/-- What deleting entries keeps still holds when the database is replaced. -/
theorem localMapDbReplace_keeps {I : FbXtr → Prop} {u : Unit}
    (hdel : ∀ {x ts mle}, I x → stopTimersFromObj x.ts (.mle mle) = .ok ts →
      I { x with ts := ts, mles := x.mles.free mle }) (h : I s)
    (hrun : localMapDbReplace.run s = .ok (u, s')) :
    ∃ x, I x ∧ s' = { x with localMdb := mdbNew } := by
  rw [localMapDbReplace, get_bind_ok, bind_ok] at hrun
  obtain ⟨_, x, hloop, hrun⟩ := hrun
  refine ⟨x, forM_keeps (fun mle _ u x x' hx hrun => ?_) h hloop, (modify_ok.mp hrun).2⟩
  obtain ⟨ts, hts, rfl⟩ := mapLocalEntryDel_eq hrun
  exact hdel hx hts

theorem mapLocalEntryNewInit_ok {conf : ConfMapping} :
    (mapLocalEntryNewInit rlocs conf).run s = .ok (mle, s') ↔
      ∃ info, balancingVectorsCalculate rlocs { conf.mapping with authoritative := 1 } = .ok info ∧
        mle = s.mles.next ∧ s' = { s with
          mles := s.mles.alloc ⟨{ conf.mapping with authoritative := 1 }, some info⟩
          ifaceLocatorsTable := conf.ifaces } := by
  simp only [mapLocalEntryNewInit, bind_ok, lift_ok, get_ok, set_ok, pure_ok]
  constructor
  · rintro ⟨info, _, ⟨hinfo, rfl⟩, _, _, ⟨rfl, rfl⟩, _, _, ⟨-, rfl⟩, rfl, rfl⟩
    exact ⟨info, hinfo, rfl, rfl⟩
  · rintro ⟨info, hinfo, rfl, rfl⟩
    exact ⟨info, s, ⟨hinfo, rfl⟩, s, s, ⟨rfl, rfl⟩, ⟨⟩, _, ⟨trivial, rfl⟩, rfl, rfl⟩

theorem addLocalDbMapLocalEntry_ok {eid : LispAddr} {ret : Ret} :
    (addLocalDbMapLocalEntry eid mle).run s = .ok (ret, s') ↔
      ((∃ l, mdbLookupEntryExact s.localMdb eid = .ok (some l)) ∧ ret = .BAD ∧ s' = s) ∨
      ∃ db, mdbLookupEntryExact s.localMdb eid = .ok none ∧
        mdbAddEntry s.localMdb eid mle = .ok (ret, db) ∧ s' = { s with localMdb := db } := by
  rw [addLocalDbMapLocalEntry, get_bind_ok, bind_ok]
  constructor
  · rintro ⟨o, s1, hlift, h⟩
    obtain ⟨hlook, rfl⟩ := lift_ok.mp hlift
    cases o with
    | some l =>
      obtain ⟨rfl, rfl⟩ := pure_ok.mp h
      exact .inl ⟨⟨l, hlook⟩, rfl, rfl⟩
    | none =>
      simp only [bind_ok, get_ok, lift_ok, modify_ok, pure_ok] at h
      obtain ⟨_, _, ⟨rfl, rfl⟩, ⟨_, db⟩, _, ⟨hadd, rfl⟩, _, _, ⟨-, rfl⟩, rfl, rfl⟩ := h
      exact .inr ⟨db, hlook, hadd, rfl⟩
  · rintro (⟨⟨l, hlook⟩, rfl, rfl⟩ | ⟨db, hlook, hadd, rfl⟩)
    · exact ⟨some l, s', lift_ok.mpr ⟨hlook, rfl⟩, rfl⟩
    · refine ⟨none, s, lift_ok.mpr ⟨hlook, rfl⟩, ?_⟩
      rw [get_bind_ok, bind_ok]
      exact ⟨(ret, db), s, lift_ok.mpr ⟨hadd, rfl⟩, rfl⟩

/-- The router with a new local entry. -/
def Xtr.withEntry (s : FbXtr) (conf : ConfMapping) (info : BalancingLocatorsVecs)
    (db : Mdb Nat) : FbXtr :=
  { s with
    mles := s.mles.alloc ⟨{ conf.mapping with authoritative := 1 }, some info⟩
    ifaceLocatorsTable := conf.ifaces
    localMdb := db }

/-- What the loop over the configured mappings can do. -/
inductive AddedMappings (rlocs : List LispAddr) : List ConfMapping →
    FbXtr → FbXtr → Prop where
  | stop {confs s} : AddedMappings rlocs confs s s
  | refused {conf rest s} :
      AddedMappings rlocs (conf :: rest) s { s with ifaceLocatorsTable := conf.ifaces }
  | entry {conf rest s s' info} (db : Mdb Nat)
      (hinfo : balancingVectorsCalculate rlocs { conf.mapping with authoritative := 1 } = .ok info)
      (hrest : AddedMappings rlocs rest (s.withEntry conf info db) s') :
      AddedMappings rlocs (conf :: rest) s s'

theorem addConfMappings_cases : ∀ {confs : List ConfMapping} {count : Nat × Nat} {good : Bool}
    {s s' : FbXtr},
    (addConfMappings rlocs count confs).run s = .ok (good, s') → AddedMappings rlocs confs s s'
  | [], _, _, _, _, h => by
    obtain ⟨-, rfl⟩ := pure_ok.mp h
    exact .stop
  | conf :: rest, count, good, s, s', h => by
    rw [addConfMappings] at h
    split_ifs at h
    · obtain ⟨-, rfl⟩ := pure_ok.mp h
      exact .stop
    rw [get_bind_ok, bind_ok] at h
    obtain ⟨o, s1, hlift, h⟩ := h
    obtain ⟨-, rfl⟩ := lift_ok.mp hlift
    cases o with
    | none =>
      obtain ⟨_, _, ⟨-, rfl⟩, -, rfl⟩ := h
      exact .refused
    | some count' =>
      simp only [bind_ok] at h
      obtain ⟨mle, s2, hnew, ret, s3, hadd, h⟩ := h
      obtain ⟨info, hinfo, rfl, rfl⟩ := mapLocalEntryNewInit_ok.mp hnew
      have hentry : ∃ db, s3 = s1.withEntry conf info db := by
        obtain ⟨-, -, rfl⟩ | ⟨db, -, -, rfl⟩ := addLocalDbMapLocalEntry_ok.mp hadd
        · exact ⟨s1.localMdb, rfl⟩
        · exact ⟨db, rfl⟩
      obtain ⟨db, rfl⟩ := hentry
      split_ifs at h
      · exact .entry db hinfo (addConfMappings_cases h)
      · obtain ⟨-, rfl⟩ := pure_ok.mp h
        exact .entry db hinfo .stop

/-- What the requests do. -/
inductive Requested (W : FbWorld) (env : CtrlEnv)
    (s : FbXtr) : ApiCall → FbXtr → Prop where
  | refused {call} : Requested W env s call s
  | resolvers {call list} : Requested W env s call { s with mapResolvers := list }
  | servers : Requested W env s .msDelete { s with mapServers := [] }
  | registered {list u s'}
      (run : (programMapRegister W).run { s with mapServers := list } = .ok (u, s')) :
      Requested W env s (.msCreate list) s'
  | replaced {u s'} (run : localMapDbReplace.run s = .ok (u, s')) :
    Requested W env s .mapdbDelete s'
  | created {confs u good s₁ s₂ s'} (replaced : localMapDbReplace.run s = .ok (u, s₁))
      (added : (addConfMappings env.rlocs (0, 0) confs).run s₁ = .ok (good, s₂))
      (done : s' = s₂ ∨ ∃ u, (programMapRegister W).run s₂ = .ok (u, s')) :
      Requested W env s (.mapdbCreate confs) s'
  | petrsCreated {addrs r s'} (run : (lmapiXtrPetrsCreate W env addrs).run s = .ok (r, s')) :
      Requested W env s (.petrsCreate addrs) s'
  | petrsDeleted {u s'} (run : petrsRemoveAll.run s = .ok (u, s')) :
      Requested W env s .petrsDelete s'

theorem processCall_cases {W : FbWorld} {env : CtrlEnv}
    {call : ApiCall} {r : Ret} (h : (processCall W env call).run s = .ok (r, s')) :
    Requested W env s call s' := by
  cases call with
  | mrCreate list =>
    obtain ⟨_, _, ⟨-, rfl⟩, -, rfl⟩ := h
    exact .resolvers
  | mrDelete =>
    rw [processCall, lmapiXtrMrDelete, get_bind_ok] at h
    split_ifs at h
    · obtain ⟨-, rfl⟩ := pure_ok.mp h
      exact .refused
    · obtain ⟨_, _, ⟨-, rfl⟩, -, rfl⟩ := h
      exact .resolvers
  | msCreate list =>
    simp only [processCall, lmapiXtrMsCreate, bind_ok, modify_ok, pure_ok] at h
    obtain ⟨_, _, ⟨-, rfl⟩, _, _, hprog, -, rfl⟩ := h
    exact .registered hprog
  | msDelete =>
    rw [processCall, lmapiXtrMsDelete, get_bind_ok] at h
    split_ifs at h
    · obtain ⟨-, rfl⟩ := pure_ok.mp h
      exact .refused
    · obtain ⟨_, _, ⟨-, rfl⟩, -, rfl⟩ := h
      exact .servers
  | mapdbCreate confs =>
    simp only [processCall, lmapiXtrMapdbCreate, bind_ok] at h
    obtain ⟨_, s₁, hreplace, good, s₂, hadd, h⟩ := h
    refine .created hreplace hadd ?_
    split_ifs at h
    · obtain ⟨u, s₃, hprog, h⟩ := bind_ok.mp h
      obtain ⟨-, rfl⟩ := pure_ok.mp h
      exact .inr ⟨u, hprog⟩
    · exact .inl (pure_ok.mp h).2
  | mapdbDelete =>
    simp only [processCall, lmapiXtrMapdbDelete, bind_ok, pure_ok] at h
    obtain ⟨_, _, hreplace, -, rfl⟩ := h
    exact .replaced hreplace
  | petrsCreate addrs => exact .petrsCreated h
  | petrsDelete =>
    simp only [processCall, lmapiXtrPetrsDelete, bind_ok, pure_ok] at h
    obtain ⟨_, _, hremove, -, rfl⟩ := h
    exact .petrsDeleted hremove

end Mapdb

/-! ## The device as a machine -/

/-- The environment of an event, with the list of RLOCs of the controller. -/
def CtrlEnv.withRlocs (env : CtrlEnv) (rlocs : List LispAddr) : CtrlEnv :=
  { env with rlocs := rlocs }

/-- An event that is processed with the list of RLOCs of the controller. -/
def XtrEvent.withRlocs (rlocs : List LispAddr) : XtrEvent → XtrEvent
  | .packet tuple env => .packet tuple (env.withRlocs rlocs)
  | .mapReply msg ra env => .mapReply msg ra (env.withRlocs rlocs)
  | .mapRequest msg la env => .mapRequest msg la (env.withRlocs rlocs)
  | .mapNotify msg env => .mapNotify msg (env.withRlocs rlocs)
  | .ifEvent name old new status env => .ifEvent name old new status (env.withRlocs rlocs)
  | .tick => .tick
  | .wheel env => .wheel (env.withRlocs rlocs)

/-- An event of the device. -/
inductive DevEvent where
  /-- An event of the router; the RLOCs of its environment are those of the controller. -/
  | xtr (ev : XtrEvent)
  /-- The list of RLOCs changes: `set_rlocs`, or the address of an interface in the list. -/
  | setRlocs (rlocs : List LispAddr)
  /-- A request of the management interface. -/
  | api (call : ApiCall) (env : CtrlEnv)

section Run

variable (W : FbWorld)

/-- Run a program of the router. -/
def onXtr {α : Type} (x : FbXtrM α) : Prog Fault Device Unit := do
  let d ← get
  let (_, s) ← Prog.lift (x.run d.xtr)
  set { d with xtr := s }

/-- One step of the device. While the loop of a tick runs only the wheel turns, and a
re-encapsulating router has no requests of this kind. -/
def devStep : DevEvent → Prog Fault Device Unit
  | .xtr ev => do
    onXtr (xtrStep W (ev.withRlocs (← get).rlocs))
  | .setRlocs rlocs => do
    if (← get).xtr.inTick then return () else modify fun d => { d with rlocs := rlocs }
  | .api call env => do
    let d ← get
    if d.xtr.inTick ∨ d.xtr.mode = .RTR_MODE then return ()
    else onXtr (processCall W (env.withRlocs d.rlocs) call)

/-- The configuration of the static entries, when the list of RLOCs is still empty, and the start of
the router. -/
def devBoot (env : CtrlEnv) (rlocs : List LispAddr) (statics : List Mapping) :
    FbXtrM Unit := do
  statics.forM (configureStatic W (env.withRlocs []))
  match (← get).mode with
  | .RTR_MODE => rtrRun W (env.withRlocs rlocs)
  | _ => xtrRun W (env.withRlocs rlocs)

/-- The states a device starts from, for the configurations that meet `P`. -/
def DevStartedWith (P : FbConf → Prop) (d : Device) : Prop :=
  ∃ (conf : FbConf) (env : CtrlEnv) (u : Unit), P conf ∧
    (devBoot W env d.rlocs conf.statics).run (xtrCtrlConstruct conf) = .ok (u, d.xtr)

/-- The states of the runs of a device from a configuration that meets `P`, by steps that all meet
`ok`. -/
def DevReach (P : FbConf → Prop) (ok : Device → DevEvent → Prop) :
    Device → Prop :=
  Reach (devStep W) (DevStartedWith W P) ok

/-- Start the device and run a list of events, as long as each of them meets `ok`. -/
def devRunEvents (ok : Device → DevEvent → Prop) [∀ d ev, Decidable (ok d ev)]
    (conf : FbConf) (env : CtrlEnv) (rlocs : List LispAddr)
    (evs : List DevEvent) : Option Device :=
  match (devBoot W env rlocs conf.statics).run (xtrCtrlConstruct conf) with
  | .ok (_, s) => runWhile (devStep W) ok evs ⟨s, rlocs⟩
  | .error _ => none

variable {W}

/-- What holds at the end of such a run holds in a reachable state. -/
theorem DevReach.of_events {P : FbConf → Prop}
    {ok : Device → DevEvent → Prop} [∀ d ev, Decidable (ok d ev)] {Q : Device → Prop}
    [DecidablePred Q] (conf : FbConf) (env : CtrlEnv)
    (rlocs : List LispAddr) (evs : List DevEvent) (hP : P conf)
    (h : (devRunEvents W ok conf env rlocs evs).any (fun d => decide (Q d)) = true) :
    ∃ d, DevReach W P ok d ∧ Q d := by
  obtain ⟨d, hd, hQ⟩ := (Option.any_eq_true _ _).mp h
  refine ⟨d, ?_, of_decide_eq_true hQ⟩
  unfold devRunEvents at hd
  split at hd
  · rename_i u s hboot
    have hstart : DevStartedWith W P ⟨s, rlocs⟩ := ⟨conf, env, u, hP, hboot⟩
    exact Reach.runWhile evs (.start hstart) hd
  · cases hd

/-! ## Inversion of the steps -/

variable {d d' : Device} {u : Unit}

theorem onXtr_ok {α : Type} {x : FbXtrM α} :
    (onXtr x).run d = .ok (u, d') ↔ ∃ a s, x.run d.xtr = .ok (a, s) ∧ d' = { d with xtr := s } := by
  simp only [onXtr, bind_ok, get_ok, set_ok]
  constructor
  · rintro ⟨_, _, ⟨rfl, rfl⟩, ⟨a, s⟩, _, h, -, rfl⟩
    obtain ⟨h, rfl⟩ := lift_ok.mp h
    exact ⟨a, s, h, rfl⟩
  · rintro ⟨a, s, h, rfl⟩
    exact ⟨d, d, ⟨rfl, rfl⟩, (a, s), d, lift_ok.mpr ⟨h, rfl⟩, trivial, rfl⟩

theorem devStep_cases {ev : DevEvent} (h : (devStep W ev).run d = .ok (u, d')) :
    d' = d ∨
      (∃ xev out s, ev = .xtr xev ∧ (xtrStep W (xev.withRlocs d.rlocs)).run d.xtr = .ok (out, s) ∧
        d' = { d with xtr := s }) ∨
      (∃ rlocs, ev = .setRlocs rlocs ∧ d' = { d with rlocs := rlocs }) ∨
      ∃ call env r s, ev = .api call env ∧ d.xtr.mode ≠ .RTR_MODE ∧
        (processCall W (env.withRlocs d.rlocs) call).run d.xtr = .ok (r, s) ∧
        d' = { d with xtr := s } := by
  cases ev with
  | xtr xev =>
    obtain ⟨out, s, hx, rfl⟩ := onXtr_ok.mp h
    exact .inr (.inl ⟨xev, out, s, rfl, hx, rfl⟩)
  | setRlocs rlocs =>
    rw [devStep, get_bind_ok] at h
    split_ifs at h
    · exact .inl (pure_ok.mp h).2
    · exact .inr (.inr (.inl ⟨rlocs, rfl, (modify_ok.mp h).2⟩))
  | api call env =>
    rw [devStep, get_bind_ok] at h
    split_ifs at h with hoff
    · exact .inl (pure_ok.mp h).2
    · obtain ⟨r, s, hx, rfl⟩ := onXtr_ok.mp h
      exact .inr (.inr (.inr ⟨call, env, r, s, rfl, fun hm => hoff (.inr hm), hx, rfl⟩))

end Run

end Lispmob
