import Lispmob.Conserved
import Lispmob.MapServerRequests
import Lispmob.UnicastMap

/-!
# Prefix lengths of received messages

The mask length of a record and the source and group lengths of a multicast EID are bytes of the
message. Nothing compares them with the length of the address before `mdb_add_entry`,
`mdb_lookup_entry_exact` or `pref_get_network_prefix` are called with them.

`KeyFits` says that the lengths of an EID fit. In a run in which the EIDs of all received messages
fit, those in the databases do (`XtrFits`, `MsFits`), and no step fails the assertion of
`pt_make_ip_prefix` or shifts or indexes out of range in `prefixes.c`.
-/

namespace Lispmob

open Heap

open Prog (SafeResult SafeFrom Keeps)

/-! ## Keys that fit -/

/-- The lengths of an EID are not over those of its addresses, and a multicast EID has two addresses
of one family. -/
def KeyFits : LispAddr → Prop
  | .ippref a plen => plen ≤ ipAddrAfiToDefaultMask a
  | .mc srcPlen grpPlen _ (.ip src) (.ip grp) => ipAddrAfi src = ipAddrAfi grp ∧
      srcPlen ≤ ipAddrAfiToDefaultMask src ∧ grpPlen ≤ ipAddrAfiToDefaultMask grp
  | _ => True

instance : DecidablePred KeyFits := fun a => by
  unfold KeyFits
  split <;> infer_instance

section Keys

variable {β : Type} {db : Mdb β} {addr : LispAddr} {a : IpAddr} {γ : Type}

theorem ptFindIpNode_ok {pt : Patricia γ}
    (hmax : pt.maxbits = (ipAddrAfi a).bits) :
      ptFindIpNode pt a = .ok (pt.nodes.best (ipBits a)) := by
  obtain ⟨hkey, hacc⟩ := prefix_accepted (UInt8.le_refl _) hmax
  rw [take_default_mask] at hkey hacc
  simp [ptFindIpNode, hkey, hacc, bind, Except.bind, pure, Except.pure]

theorem ptFindIpNodeExact_ok {pt : Patricia γ} {plen : UInt8}
    (hlen : plen ≤ ipAddrAfiToDefaultMask a) (hmax : pt.maxbits = (ipAddrAfi a).bits) :
    ptFindIpNodeExact pt a plen = .ok (pt.nodes.lookup ((ipBits a).take plen.toNat)) := by
  obtain ⟨hkey, hacc⟩ := prefix_accepted hlen hmax
  simp [ptFindIpNodeExact, hkey, hacc, bind, Except.bind, pure, Except.pure]

theorem findNode_fits (h : db.Sized) (hk : KeyFits addr) (exact : Bool) :
    LengthSafe (findNode db addr exact) := by
  unfold findNode
  split
  · rename_i a
    obtain ⟨pt, hpt, hmax⟩ := h.ip (ipAddrAfi a)
    simp only [getIpPtFromAfi_ok.mpr hpt, ptFindIpNode_ok hmax,
      ptFindIpNodeExact_ok (UInt8.le_refl _) hmax, bind, Except.bind]
    cases exact <;> trivial
  · rename_i a plen
    obtain ⟨pt, hpt, hmax⟩ := h.ip (ipAddrAfi a)
    simp only [getIpPtFromAfi_ok.mpr hpt, ptFindIpNode_ok hmax, ptFindIpNodeExact_ok hk hmax,
      bind, Except.bind]
    cases exact <;> trivial
  · rename_i srcPlen grpPlen iid src grp
    obtain ⟨hfam, hsrc, -⟩ := hk
    have hmax : (getMcPtFromAfi db (ipAddrAfi grp)).maxbits = (ipAddrAfi src).bits :=
      hfam ▸ h.mc (ipAddrAfi grp)
    have hgrp : ∀ key gtrie, (getMcPtFromAfi db (ipAddrAfi grp)).nodes.lookup key = some gtrie →
        LengthSafe (ptFindIpNode gtrie grp) := fun key gtrie hl => by
      rw [ptFindIpNode_ok (h.grp _ key gtrie hl)]
      trivial
    simp only [ptFindMcNode, ptFindIpNode_ok hmax, ptFindIpNodeExact_ok hsrc hmax, bind,
      Except.bind]
    cases exact with
    | true =>
      simp only [if_true]
      split
      · trivial
      · rename_i hl
        exact hgrp _ _ hl
    | false =>
      simp only [Bool.false_eq_true, if_false]
      split
      · trivial
      · rename_i hl
        obtain ⟨key, -, hl, -⟩ := PrefixMap.lookup_of_best_eq_some hl
        exact hgrp _ _ hl
  · trivial

/-- An addition with an EID that fits does not fault. -/
theorem mdbAddEntry_fits (h : db.Sized) (hk : KeyFits addr) (d : β) :
    SafeResult Fault.ofLength (fun r => r.2.Sized) (mdbAddEntry db addr d) := by
  have hvalid : ValidKey addr →
      SafeResult Fault.ofLength (fun r => r.2.Sized) (mdbAddEntry db addr d) := fun hv => by
    obtain ⟨db', hadd, hsized⟩ := mdbAddEntry_ok (d := d) h hv
    rw [hadd]
    exact hsized
  unfold KeyFits at hk
  split at hk
  · exact hvalid hk
  · exact hvalid hk
  · rename_i hpref hmc
    unfold mdbAddEntry
    split
    · exact absurd rfl (hpref _ _)
    · exact absurd rfl (hmc _ _ _ _ _)
    · exact h

theorem mdbRemoveEntry_fits (h : db.Sized) (hk : KeyFits addr) :
    SafeResult Fault.ofLength (fun r => r.2.Sized) (mdbRemoveEntry db addr) := by
  have hvalid : ∀ addr, ValidKey addr →
      SafeResult Fault.ofLength (fun r => r.2.Sized) (mdbRemoveEntry db addr) := fun addr hv => by
    obtain ⟨o, db', hrm, hsized⟩ := mdbRemoveEntry_ok h hv
    rw [hrm]
    exact hsized
  unfold KeyFits at hk
  split at hk
  · exact hvalid _ hk
  · exact hvalid _ hk
  · rename_i hpref hmc
    unfold mdbRemoveEntry
    split
    · rename_i a
      exact hvalid (.ippref a (ipAddrAfiToDefaultMask a)) (UInt8.le_refl _)
    · exact absurd rfl (hpref _ _)
    · exact absurd rfl (hmc _ _ _ _ _)
    · exact h

end Keys

/-! ## Messages whose EIDs fit -/

/-- The EID of a record fits, if the record parses. -/
def RawRecord.Fits : RawRecord → Prop
  | .malformed => True
  | .wellFormed r => KeyFits r.eidPrefix

instance : DecidablePred RawRecord.Fits := fun r => by
  unfold RawRecord.Fits
  split <;> infer_instance

/-- The EIDs of a received message fit. -/
def XtrEvent.EidsFit : XtrEvent → Prop
  | .mapReply msg _ _ => ∀ r ∈ msg.records, r.Fits
  | .mapNotify msg _ => ∀ r ∈ msg.records, r.Fits
  | .mapRequest msg _ _ => KeyFits msg.seid ∧ ∀ eid ∈ msg.eids, KeyFits eid
  | _ => True

/-- The EIDs of a received message fit. -/
def MsEvent.EidsFit : MsEvent → Prop
  | .mapRegister msg => ∀ r ∈ msg.records, r.Fits
  | _ => True

instance : DecidablePred XtrEvent.EidsFit := fun ev => by
  unfold XtrEvent.EidsFit
  split <;> infer_instance

instance : DecidablePred MsEvent.EidsFit := fun ev => by
  unfold MsEvent.EidsFit
  split <;> infer_instance

variable {l : List RawRecord}

theorem getD_fits (h : ∀ r ∈ l, r.Fits) (i : Nat) : (l.getD i .malformed).Fits := by
  rw [List.getD_eq_getElem?_getD]
  cases hi : l[i]? with
  | none => trivial
  | some r => exact h r (List.mem_of_getElem? hi)

theorem readRecords_fits (h : ∀ r ∈ l, r.Fits) (n : Nat) : ∀ r ∈ readRecords l n, r.Fits := by
  intro r hr
  obtain ⟨i, -, rfl⟩ := List.mem_map.mp hr
  exact getD_fits h i

theorem lispMsgParseMappingRecord_fits {raw : RawRecord} (h : raw.Fits) (next : Nat)
    (probed : Probed) :
    SafeResult Fault.ofLength (fun p => p.ret = .GOOD → KeyFits p.m.eidPrefix)
      (lispMsgParseMappingRecord next probed raw) :=
  (lispMsgParseMappingRecord_safe next probed raw).mono (fun _ he => he) fun p hp hret => by
    obtain ⟨r, rfl, heid⟩ := hp hret
    rw [heid]
    exact h

/-! ## The router -/

/-- The EIDs of the map-cache entries fit, and so do the tries. -/
structure XtrFits {R : Type} (s : Xtr R) : Prop where
  cache : s.mapCache.Sized
  localDb : s.localMdb.Sized
  eids : ∀ e me, s.mces.cell e = some me → KeyFits me.mapping.eidPrefix

section Router

variable {R F : Type} {W : World R F} {s : Xtr R}

theorem XtrFits.congr (h : XtrFits s) {s' : Xtr R} (hc : s'.mapCache = s.mapCache)
    (hl : s'.localMdb = s.localMdb) (hm : s'.mces = s.mces) : XtrFits s' :=
  ⟨hc ▸ h.cache, hl ▸ h.localDb, hm ▸ h.eids⟩

theorem XtrFits.modify (h : XtrFits s) (e : Nat) {f : Mce R → Mce R}
    (hf : ∀ me, KeyFits me.mapping.eidPrefix → KeyFits (f me).mapping.eidPrefix) :
    XtrFits { s with mces := s.mces.modify e f } := by
  refine ⟨h.cache, h.localDb, fun e' me hme => ?_⟩
  rw [modify_cell] at hme
  split_ifs at hme with heq
  · obtain ⟨me', hme', rfl⟩ := Option.map_eq_some_iff.mp hme
    exact hf me' (h.eids e me' hme')
  · exact h.eids e' me hme

theorem XtrFits.alloc (h : XtrFits s) {me : Mce R} (hme : KeyFits me.mapping.eidPrefix) :
    XtrFits { s with mces := s.mces.alloc me } := by
  refine ⟨h.cache, h.localDb, fun e me' hme' => ?_⟩
  rw [alloc_cell] at hme'
  split_ifs at hme'
  · rwa [← Option.some.inj hme']
  · exact h.eids e me' hme'

theorem XtrFits.free (h : XtrFits s) (e : Nat) : XtrFits { s with mces := s.mces.free e } := by
  refine ⟨h.cache, h.localDb, fun e' me hme => ?_⟩
  rw [free_cell] at hme
  split_ifs at hme
  exact h.eids e' me hme

theorem mappingNewInit_fits (a : IpAddr) : KeyFits (mappingNewInit (.ip a)).eidPrefix :=
  UInt8.le_refl _

/-- The EIDs of the router are kept fitting, and no assertion fails. -/
def conservedFits (hW : PolicyAvoids W (· = .assertion)) : Conserved W (· = .assertion) where
  inv := XtrFits
  key := KeyFits
  mapping m := KeyFits m.eidPrefix
  record := RawRecord.Fits
  policy := hW
  key_mapping hm := hm
  mapping_cell h hme := h.eids _ _ hme
  start h _ := h.congr rfl rfl rfl
  insert h _ := h.congr rfl rfl rfl
  reset h _ := h.congr rfl rfl rfl
  create h _ _ _ := h.congr rfl rfl rfl
  createSmr h := h.congr rfl rfl rfl
  stopAll obj h := (stopTimersFromObj_safe _ obj).of_ok fun _ _ => h.congr rfl rfl rfl
  stopType obj type h :=
    (stopTimersOfTypeFromObj_safe _ obj type).of_ok fun _ _ => h.congr rfl rfl rfl
  advance h := h.congr rfl rfl rfl
  rotated h _ := h.congr rfl rfl rfl
  expired h _ := h.congr rfl rfl rfl
  lookup exact h hk := assertion_of_length (findNode_fits h.cache hk exact)
  lookupLocal exact h hk := assertion_of_length (findNode_fits h.localDb hk exact)
  add e h hk := (assertion_of_length (mdbAddEntry_fits h.cache hk e)).mono (fun _ he => he)
    fun _ hr => ⟨hr, h.localDb, h.eids⟩
  remove h hk := (assertion_of_length (mdbRemoveEntry_fits h.cache hk)).mono (fun _ he => he)
    fun _ hr => ⟨hr, h.localDb, h.eids⟩
  alloc _ _ h hm := h.alloc hm
  write e h hm := h.modify e fun _ _ => hm
  compute h _ _ := h.modify _ fun _ hme => hme
  activate e h := h.modify e fun _ hme => hme
  free e h := h.free e
  iface h _ := h.congr rfl rfl rfl
  rest h := h.congr rfl rfl rfl
  placeholder := mappingNewInit_fits
  parse next probed hraw := assertion_of_length (lispMsgParseMappingRecord_fits hraw next probed)
  update next hm _ := (assertion_of_length (mappingUpdateLocators_safe next _ _)).mono
    (fun _ he => he) fun _ hr => by rwa [hr]
  state _ _ hm := hm

theorem writeRule_fits (hW : PolicyAvoids W (· = .assertion)) :
    WriteRule W (· = .assertion) XtrFits :=
  .of_frame (conservedFits hW).policy.loc (fun _ _ h => h.congr rfl rfl rfl)
    fun _ _ h => h.congr rfl rfl rfl

theorem xtrStep_fits (hW : PolicyAvoids W (· = .assertion)) (h : XtrFits s) {ev : XtrEvent}
    (hev : ev.EidsFit) :
    Keeps (· = .assertion) XtrFits (fun _ => True) s (xtrStep W ev) := by
  refine Conserved.xtrStep_keeps (C := conservedFits hW) nofun h ?_ ?_ ?_
    (Conserved.IgnoresData.downsKept ⟨.rfl, fun _ => trivial⟩ s ev)
  · cases ev with
    | mapReply | mapNotify => exact ⟨trivial, hev⟩
    | _ => exact hev
  · exact Conserved.localsKept (writeRule_fits hW) ev
  · cases ev with
    | mapReply msg ra env =>
      exact fun t e s' _ _ h' => (stopTimerFromObj_safe s'.ts (.mce e) t).of_ok fun _ _ =>
        h'.congr rfl rfl rfl
    | _ => trivial

end Router

/-- The configured EIDs fit. -/
structure XtrConf.EidsFit {R : Type} (conf : XtrConf R) : Prop where
  localDb : conf.localMdb.Sized
  statics : ∀ m ∈ conf.statics, KeyFits m.eidPrefix

section RouterRuns

variable {R F : Type} {W : World R F}

/-- In a run in which the EIDs of all received messages fit, those of the map cache do. -/
theorem XtrReach.fits (hW : PolicyAvoids W (· = .assertion)) {s : Xtr R}
    (hs : XtrReach W XtrConf.EidsFit (fun _ ev => ev.EidsFit) s) : XtrFits s := by
  refine Reach.invariant (fun s hinit => ?_) (fun s ev r s' hI hok hstep => ?_) hs
  · obtain ⟨conf, env, u, hconf, hboot⟩ := hinit
    have h0 : XtrFits (xtrCtrlConstruct conf) := by
      refine ⟨mdbNew_sized, hconf.localDb, fun e me hme => ?_⟩
      change (empty.alloc (petrsEntry conf)).cell e = some me at hme
      rw [alloc_cell] at hme
      split_ifs at hme
      · rw [← Option.some.inj hme]
        exact mappingNewInit_fits (.v4 0)
      · cases hme
    exact ((Conserved.boot_keeps (C := conservedFits hW) trivial
      (writeRule_fits hW).toLocalRule h0 hconf.statics).of_run hboot).2
  · exact ((xtrStep_fits hW hI hok).of_run hstep).2

end RouterRuns

end Lispmob
