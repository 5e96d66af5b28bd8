import Lispmob.MappingDb
import Lispmob.Messages
import Lispmob.TimerTables

/-!
# The state of a tunnel router

The state of `lisp_xtr_t`: the map cache and its entries, the local mappings, the servers, the
interfaces, and the timers. Map-cache entries and local entries are objects with an identity, since
the databases, the timers and the interface table hold pointers to them. An entry owns its mapping
and its mapping owns its locators, so these are plain values inside it.

What the router gets from outside is a parameter: the forwarding policy is the table of functions
the source calls through, `CtrlEnv` is what the control data plane answers during one event, and
`World` holds the nonces `nonce_new` will return and the HMAC.
-/

namespace Lispmob

open Prog

/-! ## Objects -/

/-- How a map-cache entry was learned. -/
inductive HowLearned where
  | MCE_DYNAMIC
  | MCE_STATIC
deriving DecidableEq

/-- Whether a map-cache entry is a placeholder or holds a mapping. -/
inductive Activity where
  | NOT_ACTIVE
  | ACTIVE
deriving DecidableEq

/-- A `mcache_entry_t`; `R` is the type of the forwarding policy's data. -/
structure Mce (R : Type) where
  howLearned : HowLearned
  active : Activity
  mapping : Mapping
  routingInfo : Option R

/-- A `map_local_entry_t`. -/
structure MapLocalEntry (R : Type) where
  mapping : Mapping
  fwdInfo : Option R

/-- A `map_server_elt`, with its identity. -/
structure MapServerElt where
  ptr : Nat
  address : LispAddr
  keyType : UInt8
  key : List UInt8
  proxyReply : Bool

/-- The argument of a timer's callback. -/
inductive TimerArg where
  /-- The entry itself, for an expiration timer. -/
  | mce (mce : Nat)
  /-- `timer_map_req_argument`, for a Map-Request retry or an SMR-invoked Map-Request. -/
  | mapReq (mce : Nat) (srcEid : LispAddr)
  /-- `timer_rloc_probe_argument`. -/
  | rlocProbe (mce : Nat) (locator : Nat)
  /-- `timer_map_reg_argument`. -/
  | mapReg (mle : Nat) (ms : Nat)
  /-- The router, for the SMR timer. -/
  | xtr
deriving DecidableEq

/-- The objects `ptrs_to_timers_ht` lists timers under. -/
inductive TimerOwner where
  | mce (mce : Nat)
  | mle (mle : Nat)
deriving DecidableEq

/-- The object a timer belongs to, by its argument. -/
def TimerArg.owner : TimerArg → Option TimerOwner
  | .mce e => some (.mce e)
  | .mapReq e _ => some (.mce e)
  | .rlocProbe e _ => some (.mce e)
  | .mapReg l _ => some (.mle l)
  | .xtr => none

/-- The map-cache entry a timer belongs to. -/
def TimerArg.entry : TimerArg → Option Nat
  | .mce e => some e
  | .mapReq e _ => some e
  | .rlocProbe e _ => some e
  | _ => none

/-- An `iface_locators`: the locators and local entries that depend on an interface. -/
structure IfaceLocators where
  ifaceName : String
  mapLocEntries : List Nat
  ipv4Locators : List Nat
  ipv6Locators : List Nat
  ipv4PrevAddr : Option LispAddr
  ipv6PrevAddr : Option LispAddr
  statusChanged : Bool

/-- The mode of the device. -/
inductive Mode where
  | xTR_MODE
  | RTR_MODE
  | MN_MODE
deriving DecidableEq

/-! ## What comes from outside -/

/-- The addresses, ports and protocol of a data packet. -/
structure PacketTuple where
  srcAddr : IpAddr
  dstAddr : IpAddr
  srcPort : UInt16
  dstPort : UInt16
  protocol : UInt8

/-- The locators the data of a forwarding policy point to. -/
structure LocatorsAt where
  /-- The locators of the local mappings. -/
  loc : Nat → Option Locator
  /-- The locators of the map-cache entries. -/
  rmt : Nat → Option Locator

/-- `fwd_policy_class`: the functions of the forwarding policy. `R` is the policy's data for a
mapping and `F` a forwarding entry; the list of addresses is that of the router's RLOCs. The data
may hold pointers to locators, which `policyGetFwdInfo` follows. -/
structure FwdPolicy (R F : Type) where
  newMapCachePolicyInf : List LispAddr → Mapping → Except Fault (Option R)
  updatedMapCacheInf : List LispAddr → Option R → Mapping → Except Fault (Option R)
  updatedMapLocInf : List LispAddr → Option R → Mapping → Except Fault (Option R)
  policyGetFwdInfo : List LispAddr → LocatorsAt → Option R → Option R → PacketTuple →
    Except Fault (Option F)
  getFwdIpAddr : LispAddr → List LispAddr → Option LispAddr

/-- What does not change while the router runs but is not part of it. -/
structure World (R F : Type) where
  fwdPolicy : FwdPolicy R F
  /-- The values `nonce_new` returns, in the order of the calls. -/
  nonceNew : Nat → Nonce
  hmac : Hmac

/-- What the control data plane and the interfaces answer during one event. -/
structure CtrlEnv where
  /-- `control_dp_get_default_addr`. -/
  defaultAddr : Af → Option LispAddr
  ipv4Support : Bool
  ipv6Support : Bool
  /-- `ctrl_rlocs`. -/
  rlocs : List LispAddr
  /-- Whether a message to an IP address can be sent. -/
  sendOk : Bool

/-! ## The router -/

/-- A `lisp_xtr_t` with the tables of the process. -/
structure Xtr (R : Type) where
  mode : Mode
  mapRequestRetries : Int
  probeInterval : Int
  probeRetries : Int
  probeRetriesInterval : Int
  /-- The entry of the Proxy-ETRs, which is not in the map cache. -/
  petrs : Nat
  pitrs : List LispAddr
  mapCache : Mdb Nat
  /-- The map-cache entries. -/
  mces : Heap (Mce R)
  localMdb : Mdb Nat
  /-- The local entries. -/
  mles : Heap (MapLocalEntry R)
  allLocsMap : Option Nat
  mapResolvers : List LispAddr
  mapServers : List MapServerElt
  ifaceLocatorsTable : List IfaceLocators
  smrTimer : Option Nat
  ts : Timers TimerOwner TimerArg
  /-- The next free locator identity. -/
  nextLoct : Nat
  /-- The locators that `mapping_sort_locators` took out of a local mapping and could not insert
  again. Nothing releases them. -/
  lost : List Locator := []
  /-- How often `nonce_new` was called. -/
  nonceCalls : Nat
  /-- `handle_timers` is in its loop. -/
  inTick : Bool
  /-- History: the number of ticks of the wheel so far. -/
  now : Nat
  /-- History: tick and TTL of the last Map-Reply record installed in an entry. -/
  accepted : Nat → Option (Nat × UInt32)

/-- A program of the router. -/
abbrev XtrM (R α : Type) : Type :=
  Prog Fault (Xtr R) α

section Access

variable {R : Type} {e : Nat} {u : Unit}

/-- Read a map-cache entry. -/
def derefMce (mce : Nat) : XtrM R (Mce R) := do
  Prog.ofOption .useAfterFree ((← get).mces.cell mce)

/-- Read a local entry. -/
def derefMle (mle : Nat) : XtrM R (MapLocalEntry R) := do
  Prog.ofOption .useAfterFree ((← get).mles.cell mle)

/-- Read a timer. -/
def derefTimer (timer : Nat) : XtrM R (Timer TimerArg) := do
  Prog.lift ((← get).ts.deref timer)

/-- Run an operation on the timers. -/
def onTimers (f : Timers TimerOwner TimerArg → Except Fault (Timers TimerOwner TimerArg)) :
    XtrM R Unit := do
  let s ← get
  let ts ← Prog.lift (f s.ts)
  set { s with ts := ts }

/-- Create a timer and list it under an object. -/
def newTimer (type : TimerType) (arg : TimerArg) (obj : TimerOwner)
    (noncesLst : Option (List Nonce)) : XtrM R Nat := do
  let s ← get
  let (ts, timer) := lmtimerCreate s.ts type arg noncesLst
  set { s with ts := htablePtrsTimersAdd ts obj timer }
  return timer

/-- `nonce_new`. -/
def nonceNew {F : Type} (W : World R F) : XtrM R Nonce := do
  let s ← get
  set { s with nonceCalls := s.nonceCalls + 1 }
  return W.nonceNew s.nonceCalls

/-- Write the mapping of a map-cache entry. -/
def setMceMapping (mce : Nat) (m : Mapping) : XtrM R Unit :=
  modify fun s => { s with mces := s.mces.modify mce fun e => { e with mapping := m } }

/-- Write the forwarding data of a map-cache entry. -/
def setMceRoutingInfo (mce : Nat) (info : Option R) : XtrM R Unit :=
  modify fun s => { s with mces := s.mces.modify mce fun e => { e with routingInfo := info } }

/-- History: the entry was installed or updated from a record with this TTL. -/
def noteAccepted (mce : Nat) (ttl : UInt32) : XtrM R Unit :=
  modify fun s =>
    { s with accepted := fun e => if e = mce then some (s.now, ttl) else s.accepted e }

/-! ## Inversion of successful accesses -/

variable {F : Type} {s s' : Xtr R} {t : Nat}

@[simp] theorem derefMce_ok {me : Mce R} :
    (derefMce e).run s = .ok (me, s') ↔ s.mces.cell e = some me ∧ s' = s := by
  simp only [derefMce, bind_ok, get_ok, ofOption_ok]
  constructor
  · rintro ⟨_, _, ⟨rfl, rfl⟩, h⟩
    exact h
  · exact fun h => ⟨s, s, ⟨rfl, rfl⟩, h⟩

@[simp] theorem derefMle_ok {l : Nat} {ml : MapLocalEntry R} :
    (derefMle l).run s = .ok (ml, s') ↔ s.mles.cell l = some ml ∧ s' = s := by
  simp only [derefMle, bind_ok, get_ok, ofOption_ok]
  constructor
  · rintro ⟨_, _, ⟨rfl, rfl⟩, h⟩
    exact h
  · exact fun h => ⟨s, s, ⟨rfl, rfl⟩, h⟩

@[simp] theorem derefTimer_ok {tm : Timer TimerArg} :
    (derefTimer t : XtrM R _).run s = .ok (tm, s') ↔ s.ts.timers.cell t = some tm ∧ s' = s := by
  simp only [derefTimer, bind_ok, get_ok, lift_ok, deref_ok]
  constructor
  · rintro ⟨_, _, ⟨rfl, rfl⟩, h⟩
    exact h
  · exact fun h => ⟨s, s, ⟨rfl, rfl⟩, h⟩

@[simp] theorem onTimers_ok
    {f : Timers TimerOwner TimerArg → Except Fault (Timers TimerOwner TimerArg)} :
    (onTimers f).run s = .ok (u, s') ↔ ∃ ts, f s.ts = .ok ts ∧ s' = { s with ts := ts } := by
  simp only [onTimers, bind_ok, get_ok, lift_ok, set_ok]
  constructor
  · rintro ⟨_, _, ⟨rfl, rfl⟩, ts, _, ⟨h, rfl⟩, -, rfl⟩
    exact ⟨ts, h, rfl⟩
  · rintro ⟨ts, h, rfl⟩
    exact ⟨s, s, ⟨rfl, rfl⟩, ts, s, ⟨h, rfl⟩, trivial, rfl⟩

@[simp] theorem newTimer_ok {type : TimerType} {arg : TimerArg} {obj : TimerOwner}
    {nl : Option (List Nonce)} :
    (newTimer type arg obj nl).run s = .ok (t, s') ↔
      t = s.ts.timers.next ∧ s' = { s with
        ts := htablePtrsTimersAdd (lmtimerCreate s.ts type arg nl).1 obj s.ts.timers.next } := by
  simp only [newTimer, bind_ok, get_ok, set_ok, pure_ok, lmtimerCreate]
  constructor
  · rintro ⟨_, _, ⟨rfl, rfl⟩, _, _, ⟨-, rfl⟩, rfl, rfl⟩
    exact ⟨rfl, rfl⟩
  · rintro ⟨rfl, rfl⟩
    exact ⟨s, s, ⟨rfl, rfl⟩, ⟨⟩, _, ⟨trivial, rfl⟩, rfl, rfl⟩

@[simp] theorem nonceNew_ok {W : World R F} {n : Nonce} :
    (nonceNew W).run s = .ok (n, s') ↔
      n = W.nonceNew s.nonceCalls ∧ s' = { s with nonceCalls := s.nonceCalls + 1 } := by
  simp only [nonceNew, bind_ok, get_ok, set_ok, pure_ok]
  constructor
  · rintro ⟨_, _, ⟨rfl, rfl⟩, _, _, ⟨-, rfl⟩, rfl, rfl⟩
    exact ⟨rfl, rfl⟩
  · rintro ⟨rfl, rfl⟩
    exact ⟨s, s, ⟨rfl, rfl⟩, ⟨⟩, _, ⟨trivial, rfl⟩, rfl, rfl⟩

@[simp] theorem setMceMapping_ok {m : Mapping} :
    (setMceMapping e m).run s = .ok (u, s') ↔
      s' = { s with mces := s.mces.modify e fun me => { me with mapping := m } } := by
  simp [setMceMapping]

@[simp] theorem setMceRoutingInfo_ok {info : Option R} :
    (setMceRoutingInfo e info).run s = .ok (u, s') ↔
      s' = { s with mces := s.mces.modify e fun me => { me with routingInfo := info } } := by
  simp [setMceRoutingInfo]

@[simp] theorem noteAccepted_ok {ttl : UInt32} :
    (noteAccepted e ttl).run s = .ok (u, s') ↔
      s' = { s with accepted := fun i => if i = e then some (s.now, ttl) else s.accepted i } := by
  simp [noteAccepted]

end Access

end Lispmob
