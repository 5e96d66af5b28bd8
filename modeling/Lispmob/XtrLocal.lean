import Lispmob.XtrCache

/-!
# Local mappings: registration and interface events

The part of `lisp_xtr.c` that looks after the router's own mappings: the Map-Register timers, the
SMR timer, and what an interface event does to the locators of the local mappings. None of it
touches the map cache.

The interface table refers to locators of local mappings by pointer; `derefLocalLocator` follows
such a pointer.
-/

namespace Lispmob

/-- `LISPD_INITIAL_MREG_TIMEOUT`. -/
def LISPD_INITIAL_MREG_TIMEOUT : BitVec 32 := 3

/-- `MAP_REGISTER_INTERVAL`. -/
def MAP_REGISTER_INTERVAL : BitVec 32 := 60

/-- `LISPD_SMR_TIMEOUT`. -/
def LISPD_SMR_TIMEOUT : BitVec 32 := 5

/-- `HMAC_SHA_1_96`, the only key type `complete_auth_fields` knows. -/
def HMAC_SHA_1_96 : UInt8 := 1

section Local

variable {R F : Type} (W : World R F) (env : CtrlEnv)

/-! ## Map-Registers -/

/-- `build_and_send_map_reg` returns `GOOD`. Writing the mapping reads the first locator of every
list; the result of `send_msg` is not looked at. -/
def buildAndSendMapReg (m : Mapping) (ms : MapServerElt) : Except Fault Bool :=
  if !lispAddrWritable m.eidPrefix then .ok false
  else if m.locatorsLists.any List.isEmpty then .error .nullDeref
  else .ok (ms.keyType = HMAC_SHA_1_96)

/-- Read a map server through a pointer. -/
def derefMs (ms : Nat) : XtrM R MapServerElt := do
  Prog.ofOption .useAfterFree ((← get).mapServers.find? (·.ptr = ms))

/-- `map_register_cb`. The number of retries is that of RLOC probing. -/
def mapRegisterCb (timer : Nat) (mle : Nat) (ms : Nat) : XtrM R Ret := do
  let size ← noncesListSize (← derefTimer timer)
  let e ← derefMle mle
  let elt ← derefMs ms
  if size - 1 < (← get).probeRetries then
    let nonce ← nonceNew W
    let sent ← Prog.lift (buildAndSendMapReg e.mapping elt)
    if sent then
      rearmWithNonce timer nonce LISPD_INITIAL_MREG_TIMEOUT
      return .GOOD
    else return .BAD
  else
    onTimers (htableNoncesResetNoncesLst · timer)
    onTimers (lmtimerStart · timer MAP_REGISTER_INTERVAL)
    return .BAD

/-- A new Map-Register timer for a local entry and a server, and its first message. -/
def startMapRegister (mle : Nat) (ms : MapServerElt) : XtrM R Unit := do
  let timer ← newTimer .MAP_REGISTER_TIMER (.mapReg mle ms.ptr) (.mle mle) (some [])
  let _ ← mapRegisterCb W timer mle ms.ptr

/-- `program_map_register_for_mapping`. -/
def programMapRegisterForMapping (mle : Nat) : XtrM R Unit := do
  let servers := (← get).mapServers
  if servers.isEmpty then return ()
  else
    onTimers (stopTimersOfTypeFromObj · (.mle mle) .MAP_REGISTER_TIMER)
    servers.forM (startMapRegister W mle)

/-- `program_map_register`. -/
def programMapRegister : XtrM R Unit := do
  (mdbForeachEntry (← get).localMdb).forM (programMapRegisterForMapping W)

/-! ## Locators of the local mappings -/

/-- The local entries whose mapping holds a locator. -/
def mlesWithLocator (s : Xtr R) (loc : Nat) : List Nat :=
  (List.range s.mles.next).filter fun mle =>
    match s.mles.cell mle with
    | some e => e.mapping.locators.any (·.ptr = loc)
    | none => false

/-- Read a locator of a local mapping through a pointer, or one that has left its mapping. -/
def derefLocalLocator (loc : Nat) : XtrM R Locator := do
  let s ← get
  Prog.ofOption .useAfterFree (((mlesWithLocator s loc).filterMap fun mle =>
    (s.mles.cell mle).bind fun e => e.mapping.locators.find? (·.ptr = loc)).head?.or
      (s.lost.find? (·.ptr = loc)))

/-- Write the mapping of a local entry. -/
def setMleMapping (mle : Nat) (m : Mapping) : XtrM R Unit :=
  modify fun s => { s with mles := s.mles.modify mle fun e => { e with mapping := m } }

/-- Change a locator in place. -/
def updateLocalLocator (loc : Nat) (f : Locator → Locator) : XtrM R Unit := do
  let _ ← derefLocalLocator loc
  modify fun s => { s with lost := s.lost.map fun loct => if loct.ptr = loc then f loct else loct }
  (mlesWithLocator (← get) loc).forM fun mle => do
    let e ← derefMle mle
    setMleMapping mle { e.mapping with
      locatorsLists := e.mapping.locatorsLists.map fun l =>
        l.map fun loct => if loct.ptr = loc then f loct else loct }

/-- `mapping_has_locator`. -/
def mappingHasLocator (m : Mapping) (loct : Locator) : Except Fault Bool := do
  match ← mappingGetLoctLstWithAddrType m loct.addr with
  | none => return false
  | some i => return (m.locatorsLists.getD i []).any (·.ptr = loct.ptr)

/-- The loop of `get_map_loc_ent_containing_loct_ptr`. -/
def mleContaining (s : Xtr R) (loct : Locator) : List Nat → Except Fault (Option Nat)
  | [] => .ok none
  | mle :: rest =>
    match s.mles.cell mle with
    | none => .error .useAfterFree
    | some e => do
      let found ← mappingHasLocator e.mapping loct
      if found then return some mle else mleContaining s loct rest

/-- `get_map_loc_ent_containing_loct_ptr`. -/
def getMapLocEntContainingLoctPtr (loc : Nat) : XtrM R (Option Nat) := do
  let loct ← derefLocalLocator loc
  let s ← get
  Prog.lift (mleContaining s loct (mdbForeachEntry s.localMdb))

/-- `updated_map_loc_inf` on the forwarding data of a local entry. -/
def updatedMapLocInf (mle : Nat) : XtrM R Unit := do
  let e ← derefMle mle
  let info ← Prog.lift (W.fwdPolicy.updatedMapLocInf env.rlocs e.fwdInfo e.mapping)
  modify fun s => { s with mles := s.mles.modify mle fun e => { e with fwdInfo := info } }

/-- `glist_remove_obj_with_ptr` on one of the lists of a mapping; an emptied list stays. -/
def removeLocatorAt (m : Mapping) (i : Nat) (loc : Nat) : Mapping :=
  { m with
    locatorsLists := m.locatorsLists.set i ((m.locatorsLists.getD i []).eraseP (·.ptr = loc)) }

/-- `mapping_remove_locator`: an emptied list is dropped, and the count does not change. -/
def mappingRemoveLocator (m : Mapping) (loct : Locator) : Except Fault Mapping := do
  match ← mappingGetLoctLstWithAddrType m loct.addr with
  | none => return m
  | some i =>
    let rest := (m.locatorsLists.getD i []).eraseP (·.ptr = loct.ptr)
    if rest.isEmpty then return { m with locatorsLists := m.locatorsLists.eraseIdx i }
    else return { m with locatorsLists := m.locatorsLists.set i rest }

/-- `mapping_activate_locator`. A locator that cannot be inserted is released while the interface
table still refers to it. -/
def mappingActivateLocator (m : Mapping) (loct : Locator) (newAddr : LispAddr) :
    Except Fault Mapping := do
  match ← loctLstIndex .NO_ADDR none 0 m.locatorsLists with
  | none => return m
  | some _ =>
    let m' ← mappingRemoveLocator m loct
    let (_, m'') ← mappingAddLocator m' { loct with addr := newAddr }
    return m''

/-- `mapping_sort_locators`: take out the locator with this address and insert it again. -/
def mappingSortLocators (m : Mapping) (addr : LispAddr) : Except Fault Mapping := do
  match ← mappingGetLoctLstWithAddrType m addr with
  | none => return m
  | some i =>
    let loctList := m.locatorsLists.getD i []
    match locatorListGetLocatorWithAddr loctList addr with
    | none => return m
    | some loct =>
      let rest := loctList.eraseP (·.ptr = loct.ptr)
      return { m with
        locatorsLists := m.locatorsLists.set i ((glistAdd locatorCmpAddr loct rest).getD rest) }

/-! ## Interface events -/

/-- Change the record of an interface. -/
def modifyIface (name : String) (f : IfaceLocators → IfaceLocators) : XtrM R Unit :=
  modify fun s => { s with
    ifaceLocatorsTable := s.ifaceLocatorsTable.map fun i => if i.ifaceName = name then f i else i }

/-- `iface_locators_unattach_locator` for a locator without an address. -/
def ifaceLocatorsUnattachLocator (loc : Nat) : XtrM R Unit :=
  modify fun s =>
    match s.ifaceLocatorsTable.find? fun i => loc ∈ i.ipv4Locators ∨ loc ∈ i.ipv6Locators with
    | none => s
    | some found => { s with
        ifaceLocatorsTable := s.ifaceLocatorsTable.map fun i =>
          if i.ifaceName = found.ifaceName then
            if loc ∈ i.ipv4Locators then { i with ipv4Locators := i.ipv4Locators.erase loc }
            else { i with ipv6Locators := i.ipv6Locators.erase loc }
          else i }

/-- What a new address does to a locator that had none. -/
def activateOrDrop (loc : Nat) (loct : Locator) (newAddr : LispAddr) : XtrM R Unit := do
  match ← getMapLocEntContainingLoctPtr loc with
  | none => return ()
  | some mle =>
    let e ← derefMle mle
    match ← Prog.lift (mappingGetLoctWithAddr e.mapping newAddr) with
    | some _ =>
      match ← Prog.lift (loctLstIndex .NO_ADDR none 0 e.mapping.locatorsLists) with
      | none => ifaceLocatorsUnattachLocator loc
      | some i =>
        ifaceLocatorsUnattachLocator loc
        setMleMapping mle (removeLocatorAt e.mapping i loc)
    | none =>
      let m ← Prog.lift (mappingActivateLocator e.mapping loct newAddr)
      setMleMapping mle m
      updatedMapLocInf W env mle

/-- What a new address does to one locator of the interface. -/
def ifEventLocator (newAddr : LispAddr) (loc : Nat) : XtrM R Unit := do
  let loct ← derefLocalLocator loc
  if lispAddrLafi loct.addr = .NO_ADDR then activateOrDrop W env loc loct newAddr
  else updateLocalLocator loc fun l => { l with addr := newAddr }

/-- The transition check of an address: back at the address before the transition, or at the start
of one. -/
def prevAddrAfter (prev : Option LispAddr) (oldAddr : Option LispAddr) (newAddr : LispAddr) :
    Option LispAddr :=
  match prev with
  | some p => if lispAddrCmp p newAddr = 0 then none else some p
  | none => some (oldAddr.getD .noAddr)

/-- The branch of `xtr_if_event` for a new address of a family. -/
def ifEventAddress (ifl : IfaceLocators) (afi : Af) (oldAddr : Option LispAddr)
    (newAddr : LispAddr) : XtrM R Unit := do
  match afi with
  | .INET =>
    ifl.ipv4Locators.forM (ifEventLocator W env newAddr)
    modifyIface ifl.ifaceName fun i =>
      { i with ipv4PrevAddr := prevAddrAfter i.ipv4PrevAddr oldAddr newAddr }
  | .INET6 =>
    ifl.ipv6Locators.forM (ifEventLocator W env newAddr)
    modifyIface ifl.ifaceName fun i =>
      { i with ipv6PrevAddr := prevAddrAfter i.ipv6PrevAddr oldAddr newAddr }
  ifl.mapLocEntries.forM fun mle => do
    let e ← derefMle mle
    let m ← Prog.lift (mappingSortLocators e.mapping newAddr)
    modify fun s => { s with lost := s.lost ++ e.mapping.locators.filter (· ∉ m.locators) }
    setMleMapping mle m

/-- The branch of `xtr_if_event` for a new status. -/
def ifEventStatus (ifl : IfaceLocators) (status : LinkState) : XtrM R Unit := do
  (ifl.ipv4Locators ++ ifl.ipv6Locators).forM fun loc =>
    updateLocalLocator loc fun l => { l with state := status }
  modifyIface ifl.ifaceName fun i => { i with statusChanged := !i.statusChanged }
  ifl.mapLocEntries.forM (updatedMapLocInf W env)

/-- `program_smr`. -/
def programSmr (time : BitVec 32) : XtrM R Unit := do
  let s ← get
  match s.smrTimer with
  | some timer => onTimers (lmtimerStart · timer time)
  | none =>
    let (ts, timer) := lmtimerCreate s.ts .SMR_TIMER .xtr none
    set { s with ts := ts, smrTimer := some timer }
    onTimers (lmtimerStart · timer time)

/-- The end of `xtr_if_event`. -/
def ifEventEnd : XtrM R Ret := do
  let s ← get
  match s.mode, s.allLocsMap with
  | .RTR_MODE, some mle => updatedMapLocInf W env mle
  | _, _ => pure ()
  programSmr LISPD_SMR_TIMEOUT
  return .GOOD

/-- `xtr_if_event`. -/
def xtrIfEvent (ifaceName : String) (oldAddr newAddr : Option LispAddr) (status : LinkState) :
    XtrM R Ret := do
  match (← get).ifaceLocatorsTable.find? (·.ifaceName = ifaceName) with
  | none => return .BAD
  | some ifl =>
    match newAddr with
    | none =>
      ifEventStatus W env ifl status
      ifEventEnd W env
    | some addr =>
      if (oldAddr.map (lispAddrCmp · addr)) = some 0 then return .GOOD
      else
        match addr with
        | .ip a =>
          ifEventAddress W env ifl (ipAddrAfi a) oldAddr addr
          ifEventEnd W env
        | _ => return .BAD

/-! ## The SMR timer -/

/-- The lists of affected locators after one more interface. The variables are not reset between
interfaces. -/
def affectedLocators (acc : List Nat × List Nat) (i : IfaceLocators) : List Nat × List Nat :=
  if i.statusChanged then (i.ipv4Locators, i.ipv6Locators)
  else
    (if i.ipv4PrevAddr.isSome then i.ipv4Locators else acc.1,
      if i.ipv6PrevAddr.isSome then i.ipv6Locators else acc.2)

/-- The inner loop of `get_map_local_entry_to_smr`. -/
def addMlesToSmr (acc : List Nat) : List Nat → XtrM R (List Nat)
  | [] => return acc
  | loc :: rest => do
    match ← getMapLocEntContainingLoctPtr loc with
    | some mle => addMlesToSmr (if mle ∈ acc then acc else mle :: acc) rest
    | none => addMlesToSmr acc rest

/-- The loop of `get_map_local_entry_to_smr` over the interfaces. -/
def mlesToSmr (affected : List Nat × List Nat) (acc : List Nat) :
    List IfaceLocators → XtrM R (List Nat)
  | [] => return acc
  | i :: rest => do
    let affected' := affectedLocators affected i
    modifyIface i.ifaceName fun i =>
      { i with statusChanged := false, ipv4PrevAddr := none, ipv6PrevAddr := none }
    let acc' ← addMlesToSmr acc (affected'.1 ++ affected'.2)
    mlesToSmr affected' acc' rest

/-- `get_map_local_entry_to_smr`. -/
def getMapLocalEntryToSmr : XtrM R (List Nat) := do
  mlesToSmr ([], []) [] (← get).ifaceLocatorsTable

/-- `send_all_smr_and_reg`. The SMRs themselves change nothing. -/
def sendAllSmrAndReg : XtrM R Unit := do
  let mles ← getMapLocalEntryToSmr
  mles.forM (programMapRegisterForMapping W)

end Local

end Lispmob
