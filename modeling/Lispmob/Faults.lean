import Lispmob.Vectors
import Lispmob.XtrRun

/-!
# What the parts of the router can fault with

A result about one kind of fault needs to know which operations cannot stop with it. `bad` is the
kind of fault, and the classes say what it does not include: faults about pointers
(`SparesPointers`), about timers that are stopped twice (`SparesStops`), the assertions of the tries
(`SparesLookups`), the array bounds of the forwarding policy (`SparesPolicy`). Under the classes it
needs, an operation on timers, mappings, records, databases or balancing vectors avoids `bad`
(`Avoids`).

The faults a prefix length can cause are one such kind: failing the assertion of
`pt_make_ip_prefix` or of the patricia library, and shifting or indexing out of range in
`pref_get_network_address`.
-/

set_option linter.unusedSectionVars false

namespace Lispmob

/-- The faults a prefix length can cause. -/
def Fault.ofLength : Fault → Prop
  | .assertion => True
  | .outOfRange => True
  | _ => False

/-- These faults are not about pointers to objects that are released, null or of another type. -/
class SparesPointers (bad : Fault → Prop) : Prop where
  useAfterFree : ¬ bad .useAfterFree
  nullDeref : ¬ bad .nullDeref
  typeConfusion : ¬ bad .typeConfusion
  badRelease : ¬ bad .badRelease

instance : SparesPointers Fault.ofLength :=
  ⟨id, id, id, id⟩

/-- These faults are not about timers that are stopped twice. -/
class SparesStops (bad : Fault → Prop) : Prop where
  stoppedTwice : ¬ bad .stoppedTwice

instance : SparesStops Fault.ofLength :=
  ⟨id⟩

/-- These faults are not the failed assertions of the tries either. -/
class SparesLookups (bad : Fault → Prop) : Prop extends SparesPointers bad where
  assertion : ¬ bad .assertion

/-- These faults are not those of the forwarding policy either. -/
class SparesPolicy (bad : Fault → Prop) : Prop extends SparesPointers bad where
  outOfRange : ¬ bad .outOfRange
  missingAddress : ¬ bad .missingAddress

instance : SparesPointers (fun _ => False) :=
  ⟨id, id, id, id⟩

instance : SparesLookups (fun _ => False) :=
  ⟨id⟩

instance : SparesPointers (· = .missingEntry) :=
  ⟨nofun, nofun, nofun, nofun⟩

instance : SparesStops (· = .missingEntry) :=
  ⟨nofun⟩

instance : SparesLookups (· = .missingEntry) :=
  ⟨nofun⟩

instance : SparesPolicy (· = .missingEntry) :=
  ⟨nofun, nofun⟩

instance : SparesPointers (· = .stoppedTwice) :=
  ⟨nofun, nofun, nofun, nofun⟩

instance : SparesLookups (· = .stoppedTwice) :=
  ⟨nofun⟩

instance : SparesPolicy (· = .stoppedTwice) :=
  ⟨nofun, nofun⟩

instance : SparesPointers (· = .assertion) :=
  ⟨nofun, nofun, nofun, nofun⟩

instance : SparesStops (· = .assertion) :=
  ⟨nofun⟩

instance : SparesPolicy (· = .assertion) :=
  ⟨nofun, nofun⟩

/-- The computation does not stop with one of these faults. -/
abbrev Avoids (bad : Fault → Prop) {α : Type} (x : Except Fault α) : Prop :=
  Prog.SafeResult bad (fun _ => True) x

/-- The computation does not stop with a fault that a prefix length can cause. -/
abbrev LengthSafe {α : Type} (x : Except Fault α) : Prop :=
  Prog.SafeResult Fault.ofLength (fun _ => True) x

open Prog (SafeResult)

/-! ## Timers -/

section Timers

variable {ο α : Type} [DecidableEq ο] (ts : Timers ο α) {bad : Fault → Prop} [SparesPointers bad]

theorem deref_safe (t : Nat) : Avoids bad (ts.deref t) := by
  unfold Timers.deref
  split
  · trivial
  · exact SparesPointers.useAfterFree

theorem lmtimerStart_safe (t : Nat) (n : BitVec 32) : Avoids bad (lmtimerStart ts t n) :=
  .bind (deref_safe ts t) fun _ _ => trivial

theorem htableNoncesInsert_safe (n : Nonce) (t : Nat) : Avoids bad (htableNoncesInsert ts n t) := by
  refine .bind (deref_safe ts t) fun tm _ => ?_
  split
  · exact SparesPointers.nullDeref
  · trivial

theorem htableNoncesResetNoncesLst_safe (t : Nat) :
    Avoids bad (htableNoncesResetNoncesLst ts t) := by
  refine .bind (deref_safe ts t) fun tm _ => ?_
  split
  · exact SparesPointers.nullDeref
  · trivial

theorem lmtimerStop_safe (t : Nat) : Avoids bad (lmtimerStop ts t) :=
  .bind (deref_safe ts t) fun _ _ => trivial

theorem timersOfType_safe (ty : TimerType) : ∀ l : List Nat, Avoids bad (timersOfType ts ty l)
  | [] => trivial
  | t :: rest => by
    refine .bind (deref_safe ts t) fun tm _ => ?_
    refine .bind (timersOfType_safe ty rest) fun r _ => ?_
    split_ifs <;> trivial

theorem htablePtrsTimersGetTimersOfType_safe (obj : ο) (ty : TimerType) :
    Avoids bad (htablePtrsTimersGetTimersOfType ts obj ty) := by
  unfold htablePtrsTimersGetTimersOfType
  split
  · trivial
  · exact .bind (timersOfType_safe ts ty _) fun _ _ => trivial

variable [SparesStops bad]

theorem stopTimer_safe (t : Nat) : Avoids bad (stopTimer ts t) := by
  unfold stopTimer
  split
  · exact SparesStops.stoppedTwice
  · split
    · exact lmtimerStop_safe ts t
    · exact .bind (htableNoncesResetNoncesLst_safe ts t) fun ts' _ =>
        lmtimerStop_safe ts' t

theorem stopTimerFromObj_safe (obj : ο) (t : Nat) : Avoids bad (stopTimerFromObj ts obj t) :=
  stopTimer_safe _ t

theorem stopEach_safe : ∀ (l : List Nat) (ts : Timers ο α), Avoids bad (stopEach ts l)
  | [], _ => trivial
  | t :: rest, ts => .bind (stopTimer_safe ts t) fun ts' _ => stopEach_safe rest ts'

theorem stopTimersFromObj_safe (obj : ο) : Avoids bad (stopTimersFromObj ts obj) := by
  unfold stopTimersFromObj
  split
  · trivial
  · exact stopEach_safe _ _

theorem stopTimersOfTypeFromObj_safe (obj : ο) (ty : TimerType) :
    Avoids bad (stopTimersOfTypeFromObj ts obj ty) := by
  unfold stopTimersOfTypeFromObj
  split
  · trivial
  · exact .bind (timersOfType_safe ts ty _) fun r _ => stopEach_safe _ _

end Timers

/-! ## Mappings -/

section Mappings

variable {bad : Fault → Prop} [SparesPointers bad]

theorem loctLstIndex_safe (lafi : LmAfi) (afi : Option Af) (ty : Nat) :
    ∀ lists : List (List Locator), Avoids bad (loctLstIndex lafi afi ty lists)
  | [] => trivial
  | [] :: _ => SparesPointers.nullDeref
  | (loct :: _) :: rest => by
    have hrest : Avoids bad ((loctLstIndex lafi afi ty rest).map (·.map (· + 1))) :=
      .map (loctLstIndex_safe lafi afi ty rest) fun _ _ => trivial
    rw [loctLstIndex.eq_def]
    simp only
    cases lafi <;> split_ifs
    all_goals first
      | exact hrest
      | trivial

theorem mappingGetLoctLstWithAddrType_safe (m : Mapping) (addr : LispAddr) :
    Avoids bad (mappingGetLoctLstWithAddrType m addr) :=
  loctLstIndex_safe _ _ _ _

theorem mappingGetLoctWithAddr_safe (m : Mapping) (addr : LispAddr) :
    Avoids bad (mappingGetLoctWithAddr m addr) := by
  refine .bind (mappingGetLoctLstWithAddrType_safe m addr) fun o _ => ?_
  cases o <;> trivial

theorem mappingAddLocator_safe (m : Mapping) (loct : Locator) :
    Avoids bad (mappingAddLocator m loct) := by
  refine .bind (mappingGetLoctLstWithAddrType_safe m loct.addr) fun o _ => ?_
  cases o with
  | none =>
    simp only
    split <;> trivial
  | some i =>
    simp only
    split_ifs
    · split
      · exact SparesPointers.nullDeref
      · split_ifs
        · split <;> trivial
        · trivial
    · split <;> trivial

theorem mappingUpdateLocatorsLoop_safe : ∀ (l : List (List Locator)) (next : Nat)
    (lists : List (List Locator)) (ctr : Nat),
      Avoids bad (mappingUpdateLocatorsLoop next lists ctr l)
  | [], _, _, _ => trivial
  | loctList :: rest, next, lists, ctr => by
    rw [mappingUpdateLocatorsLoop]
    split
    · exact SparesPointers.nullDeref
    · exact mappingUpdateLocatorsLoop_safe rest _ _ _

/-- The EID of a mapping stays when its locators are updated. -/
theorem mappingUpdateLocators_safe (next : Nat) (m : Mapping) (l : List (List Locator)) :
    SafeResult bad (fun r => r.2.eidPrefix = m.eidPrefix)
      (mappingUpdateLocators next m l) :=
  .bind (mappingUpdateLocatorsLoop_safe l next [] 0) fun _ _ => rfl

theorem mappingHasElpWithLBit_safe (m : Mapping) : Avoids bad (mappingHasElpWithLBit m) := by
  refine .bind (loctLstIndex_safe _ _ _ _) fun o _ => ?_
  cases o <;> trivial

theorem mappingHasLocator_safe (m : Mapping) (loct : Locator) :
    Avoids bad (mappingHasLocator m loct) := by
  refine .bind (mappingGetLoctLstWithAddrType_safe m loct.addr) fun o _ => ?_
  cases o <;> trivial

theorem mleContaining_safe {R : Type} (s : Xtr R) (loct : Locator) :
    ∀ l : List Nat, Avoids bad (mleContaining s loct l)
  | [] => trivial
  | mle :: rest => by
    rw [mleContaining]
    split
    · exact SparesPointers.useAfterFree
    · refine .bind (mappingHasLocator_safe _ loct) fun found _ => ?_
      split_ifs
      · trivial
      · exact mleContaining_safe s loct rest

theorem mappingRemoveLocator_safe (m : Mapping) (loct : Locator) :
    Avoids bad (mappingRemoveLocator m loct) := by
  refine .bind (mappingGetLoctLstWithAddrType_safe m loct.addr) fun o _ => ?_
  cases o with
  | none => trivial
  | some i =>
    simp only
    split_ifs <;> trivial

theorem mappingActivateLocator_safe (m : Mapping) (loct : Locator) (addr : LispAddr) :
    Avoids bad (mappingActivateLocator m loct addr) := by
  refine .bind (loctLstIndex_safe _ _ _ _) fun o _ => ?_
  cases o with
  | none => trivial
  | some i =>
    refine .bind (mappingRemoveLocator_safe m loct) fun m' _ => ?_
    exact .bind (mappingAddLocator_safe m' _) fun _ _ => trivial

theorem mappingSortLocators_safe (m : Mapping) (addr : LispAddr) :
    Avoids bad (mappingSortLocators m addr) := by
  refine .bind (mappingGetLoctLstWithAddrType_safe m addr) fun o _ => ?_
  cases o with
  | none => trivial
  | some i =>
    simp only
    split <;> trivial

end Mappings

/-! ## Records -/

section Records

variable {bad : Fault → Prop} [SparesPointers bad]

theorem addLocators_safe : ∀ (l : List Locator) (m : Mapping), Avoids bad (addLocators m l)
  | [], _ => trivial
  | loc :: rest, m => by
    refine .bind (mappingAddLocator_safe m loc) fun r _ => ?_
    split
    · exact addLocators_safe rest _
    · exact addLocators_safe rest _
    · trivial

/-- The EID of a record that parses is that of the record. -/
theorem lispMsgParseMappingRecord_safe (next : Nat) (probed : Probed) (raw : RawRecord) :
    SafeResult bad
      (fun p => p.ret = .GOOD → ∃ r, raw = .wellFormed r ∧ p.m.eidPrefix = r.eidPrefix)
      (lispMsgParseMappingRecord next probed raw) := by
  refine .of_ok (P := fun _ => True) ?_ fun p hp hret => ?_
  · cases raw with
    | malformed => trivial
    | wellFormed r => exact .bind (addLocators_safe _ _) fun _ _ => trivial
  · obtain ⟨r, hr, heid, -⟩ := lispMsgParseMappingRecord_good hp hret
    exact ⟨r, hr, heid⟩

theorem locatorDelProbed_safe (p : Probed) : Avoids bad (locatorDelProbed p) := by
  unfold locatorDelProbed
  split
  · trivial
  · trivial
  · exact SparesPointers.badRelease

theorem probedAddress_safe (p : ParsedRecord) (ra : LispAddr) :
    Avoids bad (probedAddress p ra) := by
  unfold probedAddress
  split
  · trivial
  · split
    · trivial
    · exact SparesPointers.useAfterFree
  · exact SparesPointers.useAfterFree

theorem lispMsgPutMapping_safe (m : Mapping) (loc : Option LispAddr) :
    Avoids bad (lispMsgPutMapping m loc) := by
  unfold lispMsgPutMapping
  split_ifs
  · trivial
  · exact SparesPointers.nullDeref
  · trivial

theorem buildAndSendMapReg_safe (m : Mapping) (ms : MapServerElt) :
    Avoids bad (buildAndSendMapReg m ms) := by
  unfold buildAndSendMapReg
  split_ifs
  · trivial
  · exact SparesPointers.nullDeref
  · trivial

theorem asMapReqMce_safe (arg : TimerArg) : Avoids bad arg.asMapReqMce := by
  unfold TimerArg.asMapReqMce
  split
  · trivial
  · trivial
  · exact SparesPointers.typeConfusion

theorem asMapReg_safe (arg : TimerArg) : Avoids bad arg.asMapReg := by
  unfold TimerArg.asMapReg
  split
  · trivial
  · exact SparesPointers.typeConfusion

end Records

/-! ## Databases -/

section Databases

variable {β : Type} {bad : Fault → Prop} [SparesLookups bad]

theorem ptMakeIpPrefix_avoids (a : IpAddr) (plen : UInt8) : Avoids bad (ptMakeIpPrefix a plen) := by
  unfold ptMakeIpPrefix
  split_ifs
  · trivial
  · exact SparesLookups.assertion

theorem accepts_avoids (pt : Patricia β) (key : List Bool) : Avoids bad (pt.accepts key) := by
  unfold Patricia.accepts
  split_ifs
  · trivial
  · exact SparesLookups.assertion

/-- Every access to a trie builds the key of an address and hands it to the library. -/
theorem withKey_avoids {γ : Type} (pt : Patricia β) (a : IpAddr) (plen : UInt8)
    {f : List Bool → Except Fault γ} (hf : ∀ key, Avoids bad (f key)) :
    Avoids bad (do
      let key ← ptMakeIpPrefix a plen
      pt.accepts key
      f key) :=
  .bind (ptMakeIpPrefix_avoids a plen) fun key _ =>
    .bind (accepts_avoids pt key) fun _ _ => hf key

theorem ptFindIpNode_avoids (pt : Patricia β) (a : IpAddr) : Avoids bad (ptFindIpNode pt a) :=
  withKey_avoids pt a _ fun _ => trivial

theorem ptFindIpNodeExact_avoids (pt : Patricia β) (a : IpAddr) (plen : UInt8) :
    Avoids bad (ptFindIpNodeExact pt a plen) :=
  withKey_avoids pt a plen fun _ => trivial

theorem ptAddNode_avoids (pt : Patricia β) (a : IpAddr) (plen : UInt8) (d : β) :
    Avoids bad (ptAddNode pt a plen d) :=
  withKey_avoids pt a plen fun key => by
    split <;> trivial

theorem getIpPtFromAfi_avoids (db : Mdb β) (afi : Af) : Avoids bad (getIpPtFromAfi db afi) := by
  unfold getIpPtFromAfi
  split
  · trivial
  · exact SparesPointers.nullDeref

theorem findNode_avoids (db : Mdb β) (addr : LispAddr) (exact : Bool) :
    Avoids bad (findNode db addr exact) := by
  unfold findNode
  split
  · refine .bind (getIpPtFromAfi_avoids db _) fun pt _ => ?_
    split_ifs
    · exact ptFindIpNodeExact_avoids pt _ _
    · exact ptFindIpNode_avoids pt _
  · refine .bind (getIpPtFromAfi_avoids db _) fun pt _ => ?_
    split_ifs
    · exact ptFindIpNodeExact_avoids pt _ _
    · exact ptFindIpNode_avoids pt _
  · rename_i srcPlen grpPlen iid src grp
    have hsnode : Avoids bad (if exact then
        ptFindIpNodeExact (getMcPtFromAfi db (ipAddrAfi grp)) src srcPlen
        else ptFindIpNode (getMcPtFromAfi db (ipAddrAfi grp)) src) := by
      split_ifs
      · exact ptFindIpNodeExact_avoids _ _ _
      · exact ptFindIpNode_avoids _ _
    refine .bind hsnode fun snode _ => ?_
    cases snode with
    | none => trivial
    | some gtrie => exact ptFindIpNode_avoids gtrie grp
  · trivial

theorem mdbAddEntry_avoids (db : Mdb β) (addr : LispAddr) (d : β) :
    Avoids bad (mdbAddEntry db addr d) := by
  unfold mdbAddEntry
  split
  · refine .bind (getIpPtFromAfi_avoids db _) fun pt _ => ?_
    exact .bind (ptAddNode_avoids pt _ _ d) fun _ _ => trivial
  · refine .bind (P := fun _ => True) ?_ fun _ _ => trivial
    refine withKey_avoids _ _ _ fun key => ?_
    exact .bind (ptAddNode_avoids _ _ _ d) fun _ _ => trivial
  · trivial

theorem ptRemoveIppref_avoids (pt : Patricia β) (a : IpAddr) (plen : UInt8) :
    Avoids bad (ptRemoveIppref pt a plen) :=
  withKey_avoids pt a plen fun _ => trivial

theorem ptRemoveMcAddr_avoids (strie : Patricia (Patricia β)) (src grp : IpAddr)
    (srcPlen grpPlen : UInt8) : Avoids bad (ptRemoveMcAddr strie src grp srcPlen grpPlen) := by
  refine withKey_avoids strie src srcPlen fun skey => ?_
  split
  · trivial
  · refine .bind (ptRemoveIppref_avoids _ grp grpPlen) fun ⟨data, gtrie'⟩ _ => ?_
    cases data with
    | none => trivial
    | some d =>
      dsimp only
      split_ifs <;> trivial

theorem mdbRemoveEntry_avoids (db : Mdb β) (addr : LispAddr) :
    Avoids bad (mdbRemoveEntry db addr) := by
  unfold mdbRemoveEntry
  split
  · refine .bind (getIpPtFromAfi_avoids db _) fun pt _ => ?_
    exact .bind (ptRemoveIppref_avoids pt _ _) fun _ _ => trivial
  · refine .bind (getIpPtFromAfi_avoids db _) fun pt _ => ?_
    exact .bind (ptRemoveIppref_avoids pt _ _) fun _ _ => trivial
  · exact .bind (ptRemoveMcAddr_avoids _ _ _ _ _) fun _ _ => trivial
  · trivial

end Databases

/-! ## The flow-balancing policy -/

section Policy

variable {bad : Fault → Prop} [SparesPolicy bad]

/-- An assertion is one of the faults a prefix length can cause. -/
theorem assertion_of_length {α : Type} {Q : α → Prop} {x : Except Fault α}
    (h : SafeResult Fault.ofLength Q x) : SafeResult (· = .assertion) Q x :=
  h.mono (fun e he => by rw [he]; trivial) fun _ hQ => hQ

mutual

theorem fbLispAddrGetFwdIpAddr_safe (rlocs : List LispAddr) :
    ∀ addr, Avoids bad (fbLispAddrGetFwdIpAddr rlocs addr)
  | .noAddr | .ip _ | .ippref _ _ | .afiList _ | .iid _ _ _ | .geo _ _ _ _ | .mc _ _ _ _ _
  | .rle _ => by simp [SafeResult, fbLispAddrGetFwdIpAddr]
  | .elp nodes => by
    have hloop := fbElpLoop_safe rlocs nodes
    rw [fbLispAddrGetFwdIpAddr.eq_def]
    simp only
    split
    · rename_i he
      rwa [he] at hloop
    · trivial
    · exact SparesPointers.nullDeref
    · trivial

theorem fbElpLoop_safe (rlocs : List LispAddr) : ∀ nodes, Avoids bad (fbElpLoop rlocs nodes)
  | [] => by simp [SafeResult, fbElpLoop]
  | .mk _ _ _ addr :: rest => by
    have haddr := fbLispAddrGetFwdIpAddr_safe rlocs addr
    have hrest := fbElpLoop_safe rlocs rest
    rw [fbElpLoop.eq_def]
    simp only
    split_ifs
    · split
      · rename_i he
        rwa [he] at haddr
      · trivial
      · exact hrest
    · split <;> trivial
    · exact hrest

end

theorem classifyLocators_safe (rlocs : List LispAddr) : ∀ (l : List Locator)
    (acc : List Locator × List Locator), Avoids bad (classifyLocators rlocs acc l)
  | [], _ => trivial
  | locator :: rest, acc => by
    refine .bind (fbLispAddrGetFwdIpAddr_safe rlocs locator.addr) fun o _ => ?_
    cases o with
    | none => exact classifyLocators_safe rlocs rest acc
    | some ipAddr =>
      simp only
      split_ifs
      · exact classifyLocators_safe rlocs rest _
      · exact classifyLocators_safe rlocs rest _

theorem balancingVectorsCalculate_safe (rlocs : List LispAddr) (m : Mapping) :
    Avoids bad (balancingVectorsCalculate rlocs m) := by
  have hsafe : Avoids bad _ := classifyLocators_safe rlocs (addressedLocators m) ([], [])
  cases hclass : fbLocatorsClassifyIn46 m rlocs with
  | error e =>
    rw [← fbLocatorsClassifyIn46, hclass] at hsafe
    rw [balancingVectorsCalculate, hclass]
    exact hsafe
  | ok r =>
    obtain ⟨-, h⟩ | ⟨-, h⟩ := balancingVectorsCalculate_cases hclass
    · rw [h]
      trivial
    · rw [h]
      exact SparesPolicy.outOfRange

theorem updatedVectors_safe (rlocs : List LispAddr) (blv : Option BalancingLocatorsVecs)
    (m : Mapping) : Avoids bad (updatedVectors rlocs blv m) := by
  unfold updatedVectors
  split
  · exact SparesPointers.nullDeref
  · exact .map (balancingVectorsCalculate_safe rlocs m) fun _ _ => trivial

theorem pickedAddr_safe (rlocs : List LispAddr) (locs : Nat → Option Locator) (hash : UInt32)
    (vec : Option (List Nat)) : Avoids bad (pickedAddr rlocs locs hash vec) := by
  unfold pickedAddr
  split
  · exact SparesPointers.nullDeref
  · split
    · exact SparesPolicy.outOfRange
    · split
      · exact SparesPointers.useAfterFree
      · exact fbLispAddrGetFwdIpAddr_safe rlocs _

theorem fbGetFwEntry_safe (hash : PacketTuple → UInt32) (rlocs : List LispAddr) (locs : LocatorsAt)
    (src dst : Option BalancingLocatorsVecs) (tuple : PacketTuple) :
    Avoids bad (fbGetFwEntry hash rlocs locs src dst tuple) := by
  unfold fbGetFwEntry
  split
  · split
    · trivial
    · refine .bind (pickedAddr_safe rlocs _ _ _) fun o _ => ?_
      split
      · exact SparesPolicy.missingAddress
      · split
        · trivial
        · refine .bind (pickedAddr_safe rlocs _ _ _) fun o _ => ?_
          split
          · exact SparesPolicy.missingAddress
          · trivial
  · exact SparesPointers.nullDeref

end Policy

end Lispmob
