import Lispmob.XtrChanges

/-!
# Forwarding decisions

A packet from a local EID should be sent with the RLOC pair of the destination's active mapping, or
else with that of the Proxy-ETRs, and natively only if neither gives a pair. `preferredFwd` is that
rule.

`tr_get_fwd_entry` follows it as long as the destination's mapping is missing, pending or negative.
When the mapping has locators but none that goes with a local one, the router is meant to fall back
to the Proxy-ETRs. The test before that second attempt is the wrong way round: it is made only when
the Proxy-ETRs have no locators. `fwd_entry_preferred_iff` says exactly when the rule holds.
-/

namespace Lispmob

open Prog List Option Heap

variable {R F : Type} {W : World R F} {env : CtrlEnv} {s s' s1 s2 : Xtr R} {tuple : PacketTuple}
  {src : MapLocalEntry R} {o : Option F} {me : Mce R}

/-! ## The rule -/

/-- The forwarding entry the policy computes for a packet from the forwarding data of an entry. -/
def policyPair (W : World R F) (env : CtrlEnv) (s : Xtr R) (src : MapLocalEntry R)
    (tuple : PacketTuple) (me : Mce R) : Option F :=
  (W.fwdPolicy.policyGetFwdInfo env.rlocs s.locatorsAt src.fwdInfo me.routingInfo
    tuple).toOption.join

/-- The same for a mapping: one without locators gives no pair. -/
def mappingPair (W : World R F) (env : CtrlEnv) (s : Xtr R) (src : MapLocalEntry R)
    (tuple : PacketTuple) (me : Mce R) : Option F :=
  if me.mapping.locatorCount = 0 then none else policyPair W env s src tuple me

/-- The active map-cache entry for an address. -/
def activeEntry (s : Xtr R) (dst : IpAddr) : Option (Mce R) :=
  match mdbLookupEntry s.mapCache (.ip dst) with
  | .ok (some mce) => (s.mces.cell mce).filter (·.active = .ACTIVE)
  | _ => none

/-- What a packet should be forwarded with: the pair of the destination's active mapping, or else
that of the Proxy-ETRs. -/
def preferredFwd (W : World R F) (env : CtrlEnv) (s : Xtr R) (src : MapLocalEntry R)
    (tuple : PacketTuple) : Option F :=
  ((activeEntry s tuple.dstAddr).bind (mappingPair W env s src tuple)).or
    ((s.mces.cell s.petrs).bind (mappingPair W env s src tuple))

/-- If the destination's active mapping has locators but gives no pair, then neither do the
forwarding data of the Proxy-ETRs. -/
def NoFallbackNeeded (W : World R F) (env : CtrlEnv) (s : Xtr R) (src : MapLocalEntry R)
    (tuple : PacketTuple) : Prop :=
  ∀ me ∈ activeEntry s tuple.dstAddr, me.mapping.locatorCount ≠ 0 →
    policyPair W env s src tuple me = none →
      ∀ petr ∈ s.mces.cell s.petrs, policyPair W env s src tuple petr = none

instance (s : Xtr R) (src : MapLocalEntry R) [DecidableEq F] :
    Decidable (NoFallbackNeeded W env s src tuple) :=
  inferInstanceAs (Decidable (∀ me ∈ _, _ → _ → ∀ petr ∈ _, _))

theorem policyPair_of_ok
    (h : W.fwdPolicy.policyGetFwdInfo env.rlocs s.locatorsAt src.fwdInfo me.routingInfo tuple =
      .ok o) : policyPair W env s src tuple me = o := by
  rw [policyPair, h]
  cases o <;> rfl

/-! ## A miss leaves the rest of the router alone -/

/-- The locators of a heap do not change when only entries without locators are added. -/
theorem heapLocator_eq {α : Type} {h h' : Heap α} {mapping : α → Mapping} (hnext : h.next ≤ h'.next)
    (hold : ∀ i < h.next, h'.cell i = h.cell i)
    (hnew : ∀ i, h.next ≤ i → ∀ a, h'.cell i = some a → (mapping a).locators = []) :
    heapLocator h' mapping = heapLocator h mapping := by
  obtain ⟨n, hn⟩ := Nat.exists_eq_add_of_le hnext
  have hfirst : (range h.next).filterMap h'.cell = (range h.next).filterMap h.cell :=
    filterMap_congr fun i hi => hold i (mem_range.mp hi)
  have hrest : (((range n).map (h.next + ·)).filterMap h'.cell).flatMap
      (fun a => (mapping a).locators) = [] := by
    refine flatMap_eq_nil_iff.mpr fun a ha => ?_
    obtain ⟨i, hi, hcell⟩ := mem_filterMap.mp ha
    obtain ⟨j, -, rfl⟩ := mem_map.mp hi
    exact hnew _ (Nat.le_add_right _ _) a hcell
  funext loc
  rw [heapLocator, heapLocator, hn, range_add, filterMap_append, flatMap_append,
    hfirst, hrest, append_nil]

/-- What a miss keeps: the local entries, the map-cache entries that were there, and with them all
the locators. -/
structure Missed (s s' : Xtr R) : Prop where
  petrs : s'.petrs = s.petrs
  mles : s'.mles = s.mles
  next : s.mces.next ≤ s'.mces.next
  old : ∀ i < s.mces.next, s'.mces.cell i = s.mces.cell i
  new : ∀ i, s.mces.next ≤ i → ∀ me, s'.mces.cell i = some me → me.mapping.locators = []

theorem Missed.locatorsAt (h : Missed s s') : s'.locatorsAt = s.locatorsAt := by
  rw [Xtr.locatorsAt, Xtr.locatorsAt, h.mles, heapLocator_eq h.next h.old h.new]

/-- The Proxy-ETRs are the same entry before and after. -/
theorem Missed.petrs_cell (h : Missed s s') (hw : s.Wf) :
    s'.mces.cell s'.petrs = s.mces.cell s.petrs := by
  obtain ⟨petr, hpetr, -⟩ := hw.petrs_active
  rw [h.petrs, h.old _ (lt_next hpetr)]

theorem Missed.of_idle (h : Idle W s s') : Missed s s' := by
  refine ⟨by rw [h.rest], by rw [h.rest], h.next, fun i _ => h.cells i, fun i hi me hme => ?_⟩
  rw [h.cells, s.mces.fresh i hi] at hme
  cases hme

/-- A new placeholder, before its first Map-Request. -/
theorem Missed.of_created {a : LispAddr} {src : LispAddr} {info : Option R}
    (hc : EntryCreated s s1 ⟨.MCE_DYNAMIC, .NOT_ACTIVE, mappingNewInit a, info⟩)
    (hl : Listed W s1 s2 .MAP_REQUEST_RETRY_TIMER (.mapReq s.mces.next src)) : Missed s s2 := by
  have hmces : s2.mces = s1.mces := by rw [hl.rest]
  refine ⟨by rw [hl.rest, hc.rest], by rw [hl.rest, hc.rest], ?_, fun i hi => ?_,
    fun i hi me hme => ?_⟩
  · rw [hmces, hc.mces, alloc_next]
    exact Nat.le_succ _
  · rw [hmces, hc.cell, if_neg (Nat.ne_of_lt hi)]
  · rw [hmces, hc.cell] at hme
    split_ifs at hme with hi'
    · cases hme
      rfl
    · rw [s.mces.fresh i hi] at hme
      cases hme

theorem Missed.of_removed {k : MdbKey} {d : Nat} (h : Missed s s1) (hr : Removed W s1 s' k d)
    (hd : s.mces.next ≤ d) : Missed s s' := by
  have hcell : ∀ i, s'.mces.cell i = if i = d then none else s1.mces.cell i := fun i => by
    rw [hr.mces, free_cell]
  refine ⟨by rw [hr.rest]; exact h.petrs, by rw [hr.rest]; exact h.mles, ?_, fun i hi => ?_,
    fun i hi me hme => ?_⟩
  · rw [hr.mces, free_next]
    exact h.next
  · rw [hcell, if_neg (by omega), h.old i hi]
  · rw [hcell] at hme
    split_ifs at hme
    exact h.new i hi me hme

/-- Changes of the timers and of the nonce counter are not seen. -/
theorem Missed.of_ts {ts : Timers TimerOwner TimerArg} {n : Nat} (h : Missed s s1) :
    Missed s { s1 with ts := ts, nonceCalls := n } :=
  ⟨h.petrs, h.mles, h.next, h.old, h.new⟩

theorem handleMapCacheMiss_missed {a : IpAddr} {src : LispAddr} {r : Ret} (hw : s.Wf)
    (hmiss : mdbLookupEntry s.mapCache (.ip a) = .ok none)
    (h : (handleMapCacheMiss W env (.ip a) src).run s = .ok (r, s')) : Missed s s' := by
  obtain hidle | ⟨s1, s2, r', info, hc, hl, hcb⟩ := handleMapCacheMiss_cases hw h
  · exact .of_idle hidle
  · have hmissed : Missed s s2 := .of_created hc hl
    rcases sendMapRequestRetryCb_cases hcb with ⟨-, -, ts1, ts2, -, -, rfl⟩ | ⟨-, -, rfl⟩ |
      ⟨-, r'', hrem⟩
    · exact hmissed.of_ts
    · exact hmissed.of_ts
    · have hw2 : s2.Wf := missed_wf hmiss hw hc hl
      obtain ⟨me, hme, ⟨k, d, hkey, hr⟩ | ⟨-, hidle⟩⟩ :=
        trMcacheRemoveEntry_cases (W := W) hw2 hrem
      · -- what is stored under the key of the placeholder is the placeholder
        have hcells : s2.mces = s1.mces := by rw [hl.rest]
        have hcache : s2.mapCache = s1.mapCache := by rw [hl.rest]
        rw [hcells, hc.new] at hme
        cases hme
        have hwas := hr.was
        rw [hcache] at hwas
        rcases hc.stored_cases hwas with hold | ⟨rfl, -⟩
        · rw [free_of_miss hmiss hkey] at hold
          cases hold
        · exact hmissed.of_removed hr (Nat.le_refl _)
      · have hi := Missed.of_idle hidle
        refine ⟨hi.petrs.trans hmissed.petrs, hi.mles.trans hmissed.mles,
          Nat.le_trans hmissed.next hi.next, fun i hlt => ?_, fun i hle me' hme' => ?_⟩
        · rw [hidle.cells, hmissed.old i hlt]
        · rw [hidle.cells] at hme'
          exact hmissed.new i hle me' hme'

/-! ## The entry a packet is forwarded by -/

/-- The entry a packet is forwarded by: the active one of its destination if that has locators,
otherwise the Proxy-ETRs if they have some. -/
theorem fwdEntry_cases {o : Option Nat} {temporal : Bool} (hw : s.Wf)
    (h : (fwdEntry W env tuple).run s = .ok ((o, temporal), s')) :
    Missed s s' ∧
      ((∃ mce me, o = some mce ∧ mce ≠ s.petrs ∧ s'.mces.cell mce = some me ∧
          activeEntry s tuple.dstAddr = some me ∧ me.mapping.locatorCount ≠ 0) ∨
        ((∀ me ∈ activeEntry s tuple.dstAddr, me.mapping.locatorCount = 0) ∧
          ∃ petr, s.mces.cell s.petrs = some petr ∧
            o = if 0 < petr.mapping.locatorCount then some s.petrs else none)) := by
  rw [fwdEntry, get_bind_ok, bind_ok] at h
  obtain ⟨o', s3, hlook, h⟩ := h
  obtain ⟨ho', rfl⟩ := mcacheLookup_ok.mp hlook
  cases o' with
  | none =>
    have hnone : activeEntry s3 tuple.dstAddr = none := by rw [activeEntry, ho']
    simp only [bind_ok, petrsHasLocators_ok, pure_ok] at h
    obtain ⟨r, s4, hmiss, b, _, ⟨petr, hpetr, rfl, rfl⟩, ⟨rfl, -⟩, rfl⟩ := h
    have hm := handleMapCacheMiss_missed hw ho' hmiss
    rw [hm.petrs_cell hw] at hpetr
    refine ⟨hm, .inr ⟨?_, petr, hpetr, by simp⟩⟩
    rw [hnone]
    exact fun me hme => by cases hme
  | some mce =>
    simp only [bind_ok, derefMce_ok, petrsHasLocators_ok] at h
    obtain ⟨me, _, ⟨hme, rfl⟩, b, s4, ⟨petr, hpetr, rfl, rfl⟩, h⟩ := h
    obtain ⟨k, hk⟩ := lookup_stored ho'
    have hne : mce ≠ s4.petrs := by
      rintro rfl
      exact hw.petrs_unstored k hk
    have hact : activeEntry s4 tuple.dstAddr = if me.active = .ACTIVE then some me else none := by
      simp [activeEntry, ho', hme, Option.filter]
    cases hstate : me.active with
    | NOT_ACTIVE =>
      rw [hstate] at h hact
      obtain ⟨⟨rfl, -⟩, rfl⟩ := by simpa only [pure_ok, Prod.mk.injEq] using h
      refine ⟨.of_idle (W := W) (.refl _), .inr ⟨?_, petr, hpetr, by simp⟩⟩
      rw [hact]
      exact fun me' hme' => by cases hme'
    | ACTIVE =>
      rw [hstate] at h
      rw [hstate, if_pos rfl] at hact
      by_cases hcount : me.mapping.locatorCount = 0
      · rw [if_pos hcount] at h
        obtain ⟨⟨rfl, -⟩, rfl⟩ := by simpa only [pure_ok, Prod.mk.injEq] using h
        refine ⟨.of_idle (W := W) (.refl _), .inr ⟨?_, petr, hpetr, by simp⟩⟩
        rw [hact]
        rintro me' ⟨⟩
        exact hcount
      · rw [if_neg hcount] at h
        obtain ⟨⟨rfl, -⟩, rfl⟩ := by simpa only [pure_ok, Prod.mk.injEq] using h
        exact ⟨.of_idle (W := W) (.refl _), .inl ⟨mce, me, rfl, hne, hme, hact, hcount⟩⟩

/-- The decision for a packet from a local EID, after the entry was chosen. -/
theorem trGetFwdEntry_local {l : Nat} {info : FwdInfo F} (hmode : s.mode ≠ .RTR_MODE)
    (hlocal : mdbLookupEntry s.localMdb (.ip tuple.srcAddr) = .ok (some l))
    (h : (trGetFwdEntry W env tuple).run s = .ok (info, s')) :
    ∃ o temporal s1, (fwdEntry W env tuple).run s = .ok ((o, temporal), s1) ∧
      match o with
      | none => info.fwdInfo = none
      | some mce => (fwdInfoFor W env (some l) mce tuple).run s1 = .ok (info.fwdInfo, s') := by
  rw [trGetFwdEntry, get_bind_ok, bind_ok] at h
  obtain ⟨mle, s1, hmle, h⟩ := h
  have hlift : (Prog.lift (mdbLookupEntry s.localMdb (.ip tuple.srcAddr)) : XtrM R _).run s =
      .ok (mle, s1) := by
    cases hm : s.mode with
    | RTR_MODE => exact absurd hm hmode
    | _ =>
      rw [hm] at hmle
      exact hmle
  obtain ⟨hl, rfl⟩ := lift_ok.mp hlift
  rw [hlocal] at hl
  cases hl
  rw [if_neg (by simp), bind_ok] at h
  obtain ⟨⟨o, temporal⟩, s2, hent, h⟩ := h
  refine ⟨o, temporal, s2, hent, ?_⟩
  cases o with
  | none =>
    obtain ⟨rfl, rfl⟩ := pure_ok.mp h
    rfl
  | some mce =>
    simp only [bind_ok, pure_ok] at h
    obtain ⟨fwd, s3, hinfo, rfl, rfl⟩ := h
    exact hinfo

/-- The pair the policy finds for a mapping with locators. -/
theorem mappingPair_of_ok (hcount : me.mapping.locatorCount ≠ 0)
    (h : W.fwdPolicy.policyGetFwdInfo env.rlocs s.locatorsAt src.fwdInfo me.routingInfo tuple =
      .ok o) : mappingPair W env s src tuple me = o := by
  rw [mappingPair, if_neg hcount, policyPair_of_ok h]

/-- A packet from a local EID is forwarded by the rule exactly when the router does not have to fall
back to the Proxy-ETRs from a mapping with locators. -/
theorem fwd_entry_preferred_iff {l : Nat} {src : MapLocalEntry R} {info : FwdInfo F} (hw : s.Wf)
    (hmode : s.mode ≠ .RTR_MODE)
    (hlocal : mdbLookupEntry s.localMdb (.ip tuple.srcAddr) = .ok (some l))
    (hsrc : s.mles.cell l = some src) (h : (trGetFwdEntry W env tuple).run s = .ok (info, s')) :
    info.fwdInfo = preferredFwd W env s src tuple ↔ NoFallbackNeeded W env s src tuple := by
  obtain ⟨o, temporal, s1, hent, hinfo⟩ := trGetFwdEntry_local hmode hlocal h
  obtain ⟨hmissed, ⟨mce, me, rfl, hne, hme, hact, hcount⟩ | ⟨hneg, petr, hpetr, rfl⟩⟩ :=
    fwdEntry_cases hw hent
  · -- the destination has an active mapping with locators
    obtain ⟨-, l', src', dst, hl', hsrc', hdst, hcases⟩ := fwdInfoFor_cases hinfo
    cases hl'
    rw [hmissed.mles, hsrc] at hsrc'
    cases hsrc'
    rw [hme] at hdst
    cases hdst
    rw [hmissed.locatorsAt, hmissed.petrs_cell hw, hmissed.petrs] at hcases
    rw [preferredFwd, NoFallbackNeeded, hact, bind_some]
    rcases hcases with ⟨f, hf, hfwd⟩ | ⟨hnone, petr, hpetr, hcond⟩
    · rw [mappingPair_of_ok hcount hf, hfwd]
      refine ⟨fun _ me' hme' _ hno => ?_, fun _ => rfl⟩
      cases hme'
      rw [policyPair_of_ok hf] at hno
      cases hno
    · have hiff : (∀ me' ∈ some me, me'.mapping.locatorCount ≠ 0 →
          policyPair W env s src tuple me' = none →
            ∀ petr ∈ s.mces.cell s.petrs, policyPair W env s src tuple petr = none) ↔
          policyPair W env s src tuple petr = none := by
        rw [hpetr]
        constructor
        · exact fun hall => hall me rfl hcount (policyPair_of_ok hnone) petr rfl
        · rintro hno _ ⟨⟩ - - _ ⟨⟩
          exact hno
      rw [hiff, mappingPair_of_ok hcount hnone, none_or, hpetr, bind_some]
      by_cases hzero : petr.mapping.locatorCount = 0
      · -- the Proxy-ETRs have no locators: their forwarding data are used all the same
        rw [if_pos ⟨hne, hzero⟩] at hcond
        rw [mappingPair, if_pos hzero, policyPair_of_ok hcond]
      · rw [if_neg fun hc => hzero hc.2] at hcond
        rw [mappingPair, if_neg hzero, hcond, eq_comm]
  · -- it has none: the Proxy-ETRs come next
    have hdst : (activeEntry s tuple.dstAddr).bind (mappingPair W env s src tuple) = none := by
      rw [bind_eq_none_iff]
      exact fun me hme => if_pos (hneg me hme)
    have hholds : NoFallbackNeeded W env s src tuple := fun me hme hcount =>
      absurd (hneg me hme) hcount
    refine iff_of_true ?_ hholds
    rw [preferredFwd, hdst, none_or, hpetr, bind_some]
    by_cases hpos : 0 < petr.mapping.locatorCount
    · rw [if_pos hpos] at hinfo
      obtain ⟨-, l', src', dst, hl', hsrc', hcell, hcases⟩ := fwdInfoFor_cases hinfo
      cases hl'
      rw [hmissed.mles, hsrc] at hsrc'
      cases hsrc'
      rw [← hmissed.petrs, hmissed.petrs_cell hw, hpetr] at hcell
      cases hcell
      rw [hmissed.locatorsAt] at hcases
      rcases hcases with ⟨f, hf, hfwd⟩ | ⟨hnone, _, -, hcond⟩
      · rw [mappingPair_of_ok (Nat.ne_of_gt hpos) hf, hfwd]
      · rw [if_neg fun hc => hc.1 hmissed.petrs.symm] at hcond
        rw [mappingPair_of_ok (Nat.ne_of_gt hpos) hnone, hcond]
    · rw [if_neg hpos] at hinfo
      rw [mappingPair, if_pos (Nat.eq_zero_of_not_pos hpos)]
      exact hinfo

/-! ## A router with Proxy-ETRs -/

/-- The flow-balancing policy, for a hash that is always `0`. -/
def labBalancing : FbWorld :=
  ⟨fwdPolicyFlowBalancing fun _ => 0, fun n => UInt64.ofNat n, fun _ _ => []⟩

/-- A locator that is up, of priority 1 and weight 100. -/
def labLocator (ptr : Nat) (addr : IpAddr) : Locator :=
  ⟨ptr, .ip addr, .UP, 1, 100, 255, 0⟩

/-- The router has the local prefix `10.0.0.0/8` at an IPv4 RLOC, an IPv4 Proxy-ETR, and a static
mapping for `192.0.2.0/24` at `rloc`. -/
def labPetrConf (rloc : IpAddr) : XtrConf BalancingLocatorsVecs where
  mode := .xTR_MODE
  mapRequestRetries := 3
  probeInterval := 30
  probeRetries := 1
  probeRetriesInterval := 5
  pitrs := []
  petrs := [[labLocator 0 (.v4 3)]]
  petrsInfo := some ⟨none, none, none⟩
  statics := [{ mappingNewInit (.ippref (.v4 0xc0000200#32) 24) with
    locatorsLists := [[labLocator 1 rloc]], locatorCount := 1 }]
  localMdb := labConf.localMdb
  mles := Heap.empty.alloc ⟨{ mappingNewInit (.ippref (.v4 0x0a000000#32) 8) with
    locatorsLists := [[labLocator 0 (.v4 1)]], locatorCount := 1 }, some ⟨none, none, none⟩⟩
  allLocsMap := none
  mapResolvers := [.ip (.v4 2)]
  mapServers := []
  ifaceLocatorsTable := []
  nextLoct := 2
  locators_nodup := show [0, 1].Nodup by decide
  locators_lt :=
    forall_mem_cons.mpr ⟨Nat.zero_lt_two, forall_mem_singleton.mpr Nat.one_lt_two⟩

/-- A packet from `10.0.0.1` to `192.0.2.1`. -/
def labTuple : PacketTuple :=
  ⟨.v4 0x0a000001#32, .v4 0xc0000201#32, 1, 1, 6⟩

/-- With a mapping at an IPv4 RLOC the packet goes there. -/
theorem fwd_entry_preferred_v4 : ∃ s src info s',
    XtrReach labBalancing (· = labPetrConf (.v4 4)) (fun _ _ => True) s ∧
      s.mles.cell 0 = some src ∧
      (trGetFwdEntry labBalancing labEnv labTuple).run s = .ok (info, s') ∧
      info.fwdInfo = some ⟨.ip (.v4 1), .ip (.v4 4)⟩ ∧
      info.fwdInfo = preferredFwd labBalancing labEnv s src labTuple := by
  have hrun : ∃ s, XtrReach labBalancing (· = labPetrConf (.v4 4)) (fun _ _ => True) s ∧
      s.mode ≠ .RTR_MODE ∧
      mdbLookupEntry s.localMdb (.ip labTuple.srcAddr) = .ok (some 0) ∧
      (∃ src, s.mles.cell 0 = some src ∧ NoFallbackNeeded labBalancing labEnv s src labTuple) ∧
      ∃ info s', (trGetFwdEntry labBalancing labEnv labTuple).run s = .ok (info, s') ∧
        info.fwdInfo = some ⟨.ip (.v4 1), .ip (.v4 4)⟩ :=
    XtrReach.of_events (labPetrConf (.v4 4)) labEnv [] rfl (by decide +kernel)
  obtain ⟨s, hs, hmode, hlocal, ⟨src, hsrc, hno⟩, info, s', hdec, ho⟩ := hrun
  exact ⟨s, src, info, s', hs, hsrc, hdec, ho,
    (fwd_entry_preferred_iff (XtrReach.wf hs).1 hmode hlocal hsrc hdec).mpr hno⟩

/-- With a mapping at an IPv6 RLOC the packet is forwarded natively, although the Proxy-ETR can be
reached. -/
theorem petr_fallback_missed : ∃ s src info s',
    XtrReach labBalancing (· = labPetrConf (.v6 4)) (fun _ _ => True) s ∧
      s.mles.cell 0 = some src ∧
      (trGetFwdEntry labBalancing labEnv labTuple).run s = .ok (info, s') ∧
      info.fwdInfo = none ∧
      preferredFwd labBalancing labEnv s src labTuple = some ⟨.ip (.v4 1), .ip (.v4 3)⟩ := by
  have hrun : ∃ s, XtrReach labBalancing (· = labPetrConf (.v6 4)) (fun _ _ => True) s ∧
      (∃ src, s.mles.cell 0 = some src ∧
        preferredFwd labBalancing labEnv s src labTuple = some ⟨.ip (.v4 1), .ip (.v4 3)⟩) ∧
      ∃ info s', (trGetFwdEntry labBalancing labEnv labTuple).run s = .ok (info, s') ∧
        info.fwdInfo = none :=
    XtrReach.of_events (labPetrConf (.v6 4)) labEnv [] rfl (by decide +kernel)
  obtain ⟨s, hs, ⟨src, hsrc, hpref⟩, info, s', hdec, ho⟩ := hrun
  exact ⟨s, src, info, s', hs, hsrc, hdec, ho, hpref⟩

end Lispmob
