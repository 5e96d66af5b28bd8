import Lispmob.LocatorLists
import Lispmob.PrefixLengths
import Lispmob.XtrChanges

/-!
# Map-Notifies

`tr_recv_map_notify` looks the EID of every record up in the local database and reads the mapping of
the entry before it tests whether there is one: an EID that is not registered is a null pointer, and
the branch that is meant to skip it is never reached. For every other record the timer of the nonce
drops its nonces and is started again.

So the message is handled as intended exactly when it has a record, and all its records up to the
first that does not parse are for local EIDs (`map_notify_handled_iff`).
-/

namespace Lispmob

open Prog Option

variable {R F : Type} {W : World R F} {env : CtrlEnv} {s s' : Xtr R} {t : Nat} {raw : RawRecord}

/-! ## Only the lookup meets a missing entry -/

/-- The forwarding policy does not read a missing entry. -/
structure PolicySparesEntries (W : World R F) : Prop where
  new : ∀ rlocs m, Avoids (· = .missingEntry) (W.fwdPolicy.newMapCachePolicyInf rlocs m)
  cache : ∀ rlocs info m, Avoids (· = .missingEntry) (W.fwdPolicy.updatedMapCacheInf rlocs info m)

theorem flowBalancing_sparesEntries (hash : PacketTuple → UInt32) (nonces : Nat → Nonce)
    (hmac : Hmac) : PolicySparesEntries ⟨fwdPolicyFlowBalancing hash, nonces, hmac⟩ :=
  have havoids := flowBalancing_avoids hash nonces hmac
  ⟨havoids.new, havoids.cache⟩

/-- The world with the functions of the policy for map-cache entries only, which are those that the
handler of a Map-Notify calls. -/
def World.cachePolicy (W : World R F) : World R F :=
  { W with fwdPolicy := { W.fwdPolicy with
      updatedMapLocInf := fun _ info _ => .ok info
      policyGetFwdInfo := fun _ _ _ _ _ => .ok none } }

theorem timers_spareEntries (s : Xtr R) : TimersConserved (· = .missingEntry) s fun _ => True where
  start _ _ := trivial
  insert _ _ := trivial
  reset _ _ := trivial
  create _ _ _ _ := trivial
  createSmr _ := trivial
  stopAll obj _ := stopTimersFromObj_safe _ obj
  stopType obj type _ := stopTimersOfTypeFromObj_safe _ obj type
  advance _ := trivial
  rotated _ _ := trivial
  expired _ _ := trivial

/-- Nothing is kept; a missing entry is not read. -/
def conservedEntries (hW : PolicySparesEntries W) (s : Xtr R) :
    Conserved W.cachePolicy (· = .missingEntry) :=
  .ofTimers (timers_spareEntries s)
    ⟨hW.new, hW.cache, fun _ _ _ => trivial, fun _ _ _ _ _ => trivial⟩

theorem conservedEntries_inv (hW : PolicySparesEntries W) (s : Xtr R) :
    (conservedEntries hW s).inv s :=
  .refl trivial

/-- A record whose EID has no local entry is where the loop meets a missing entry. -/
theorem mapNotifyLoop_cons_missing (hW : PolicySparesEntries W) {rest : List RawRecord}
    (h : (mapNotifyLoop W env t (raw :: rest)).run s = .error .missingEntry) :
    ∃ p, lispMsgParseMappingRecord s.nextLoct .uninit raw = .ok p ∧ p.ret = .GOOD ∧
      (mdbLookupEntryExact s.localMdb p.m.eidPrefix = .ok none ∨
        ∃ mle s₁, mdbLookupEntryExact s.localMdb p.m.eidPrefix = .ok (some mle) ∧
          NotifyRound W env t s s₁ ∧
            (mapNotifyLoop W env t rest).run s₁ = .error .missingEntry) := by
  have hany := conservedEntries_inv hW
  obtain h | ⟨p, s₁, hp, hbody⟩ := bind_error_iff.mp h
  · exact absurd rfl ((Conserved.parseRecord_keeps (hany s) .uninit trivial).not_bad h)
  obtain ⟨hpar, hmsg, -⟩ := parseRecord_spec hp
  refine ⟨p, hmsg, ?_⟩
  split_ifs at hbody with hret
  · refine ⟨hret, ?_⟩
    have hdb : s₁.localMdb = s.localMdb := by rw [hpar.rest]
    rw [get_bind_error_iff] at hbody
    obtain h | ⟨o, s2, ho, hfound⟩ := bind_error_iff.mp hbody
    · exact absurd rfl
        ((Conserved.lift_keeps (findNode_avoids _ _ true) (hany s₁)).not_bad h)
    obtain ⟨hlook, rfl⟩ := lift_ok.mp ho
    rw [hdb] at hlook
    cases o with
    | none => exact .inl hlook
    | some mle =>
      obtain h | ⟨ml, s₁, hml, hknown⟩ := bind_error_iff.mp hfound
      · have hkept : KeepsAny (· = .missingEntry) (fun _ => True) s2 _ := derefMle_keeps trivial mle
        exact absurd rfl (hkept.not_bad h)
      obtain ⟨-, rfl⟩ := derefMle_ok.mp hml
      have hfinish : ∀ s2 u, (s2 = s₁ ∨ (handleMergeSemantics W env p.m).run s₁ = .ok (u, s2)) →
          (do
            onTimers (htableNoncesResetNoncesLst · t)
            onTimers (lmtimerStart · t MAP_REGISTER_INTERVAL)
            mapNotifyLoop W env t rest : XtrM R Ret).run s2 = .error .missingEntry →
          ∃ s3, NotifyRound W env t s s3 ∧
            (mapNotifyLoop W env t rest).run s3 = .error .missingEntry := by
        intro s2 u hmerged h
        obtain h | ⟨_, s3, h1, hstart⟩ := bind_error_iff.mp h
        · exact absurd rfl ((Conserved.resetNonces_keeps (hany s2) t).not_bad h)
        obtain h | ⟨_, s4, h2, hloop⟩ := bind_error_iff.mp hstart
        · exact absurd rfl ((Conserved.startTimer_keeps (hany s3) t _).not_bad h)
        obtain ⟨ts1, hts1, rfl⟩ := onTimers_ok.mp h1
        obtain ⟨ts2, hts2, rfl⟩ := onTimers_ok.mp h2
        exact ⟨_, ⟨p.m, s₁, s2, u, hpar, hmerged, ts1, ts2, hts1, hts2, rfl⟩, hloop⟩
      split at hknown
      · obtain h | ⟨u, s2, hmerge, hend⟩ := bind_error_iff.mp hknown
        · exact absurd rfl
            ((Conserved.handleMergeSemantics_keeps (m := p.m) trivial (hany s₁) trivial).not_bad h)
        obtain ⟨s3, hround, hloop⟩ := hfinish s2 u (.inr hmerge) hend
        exact .inr ⟨mle, s3, hlook, hround, hloop⟩
      · obtain ⟨s3, hround, hloop⟩ := hfinish s₁ ⟨⟩ (.inl rfl) hknown
        exact .inr ⟨mle, s3, hlook, hround, hloop⟩
  · cases hbody

/-! ## What is done for a known EID -/

/-- The EID of a record that parses. -/
def recordEid (raw : RawRecord) : Option LispAddr :=
  match lispMsgParseMappingRecord 0 .null raw with
  | .ok p => if p.ret = .GOOD then some p.m.eidPrefix else none
  | .error _ => none

theorem recordEid_eq {next : Nat} {probed : Probed} {p : ParsedRecord}
    (h : lispMsgParseMappingRecord next probed raw = .ok p) :
    recordEid raw = if p.ret = .GOOD then some p.m.eidPrefix else none := by
  have hrename := lispMsgParseMappingRecord_rename next probed raw
  rw [h] at hrename
  obtain ⟨p0, hp0, heq⟩ := except_map_ok.mp hrename.symm
  obtain ⟨hret, heid⟩ := Prod.mk.inj heq
  rw [recordEid, hp0]
  dsimp only
  rw [hret, heid]

/-- The record parses, and its EID has an entry in the database. -/
def knownRecord (db : Mdb Nat) (raw : RawRecord) : Bool :=
  (recordEid raw).any fun eid =>
    match mdbLookupEntryExact db eid with
    | .ok (some _) => true
    | _ => false

/-- The records up to the first that does not parse all have an entry in the database. -/
def allKnown (db : Mdb Nat) (l : List RawRecord) : Bool :=
  (l.takeWhile fun raw => (recordEid raw).isSome).all (knownRecord db)

/-- The timer was started for the next Map-Register, last of all, and has no nonce outstanding. -/
structure Confirmed (s : Xtr R) (t : Nat) : Prop where
  noNonce : ∀ n, s.ts.nonces n ≠ some t
  armed : ∃ ts, lmtimerStart ts t MAP_REGISTER_INTERVAL = .ok s.ts

theorem Confirmed.congr (h : Confirmed s t) (hts : s'.ts = s.ts) : Confirmed s' t :=
  ⟨fun n => hts ▸ h.noNonce n, hts ▸ h.armed⟩

/-- A timer that drops its nonces has none left: the table knows no nonce the list does not have. -/
theorem Restarted.confirmed (h : Restarted s s' t MAP_REGISTER_INTERVAL) (hw : s.Wf) :
    Confirmed s' t := by
  obtain ⟨ts1, ts2, h1, h2, rfl⟩ := h
  refine ⟨fun n hn => ?_, ts1, h2⟩
  obtain ⟨tm, l, htm, hl, rfl⟩ := htableNoncesResetNoncesLst_spec h1
  obtain ⟨-, rfl⟩ := lmtimerStart_spec h2
  dsimp only at hn
  split_ifs at hn with hmem
  obtain ⟨tm', l', htm', hl', hmem'⟩ := hw.timers.nonce_listed n t hn
  cases htm.symm.trans htm'
  cases hl.symm.trans hl'
  exact hmem hmem'

/-- One round keeps the invariant and the local database, and confirms the registration. -/
theorem NotifyRound.confirmed (h : NotifyRound W env t s s') (hw : s.Wf) :
    s'.Wf ∧ s'.localMdb = s.localMdb ∧ Confirmed s' t := by
  obtain ⟨m, s1, s2, u, hpar, hmerged, hres⟩ := h
  have hw1 : s1.Wf := (hpar.idle (W := W)).wf hw
  have hdb1 : s1.localMdb = s.localMdb := by rw [hpar.rest]
  have hmerge : s2.Wf ∧ s2.localMdb = s1.localMdb := by
    obtain rfl | hmerge := hmerged
    · exact ⟨hw1, rfl⟩
    · obtain rfl | ⟨d, me, me', s3, -, hed, -, hrep⟩ := handleMergeSemantics_cases hmerge
      · exact ⟨hw1, rfl⟩
      · have hw3 := hed.wf hw1
        have hrep := hrep hw3.timers
        refine ⟨hrep.wf hw3, ?_⟩
        rw [hrep.rest, hed.rest]
  refine ⟨(hres.refired (W := W)).wf hmerge.1, ?_, hres.confirmed hmerge.1⟩
  obtain ⟨ts1, ts2, -, -, rfl⟩ := hres
  exact hmerge.2.trans hdb1

/-- The loop when it runs to its end: all EIDs were known, and the registration is confirmed, unless
there was no record to confirm it. -/
theorem mapNotifyLoop_completed : ∀ {l : List RawRecord} {s : Xtr R} {r : Ret}, s.Wf →
    (mapNotifyLoop W env t l).run s = .ok (r, s') →
      allKnown s.localMdb l = true ∧
        if l.head?.any (knownRecord s.localMdb) then Confirmed s' t else s'.ts = s.ts
  | [], s, r, _, h => by
    obtain ⟨-, rfl⟩ := pure_ok.mp h
    exact ⟨rfl, rfl⟩
  | raw :: rest, s, r, hw, h => by
    obtain ⟨p, hp, ⟨hret, -, hpar⟩ | ⟨hret, mle, s1, hlook, hround, hrest⟩⟩ := mapNotifyLoop_cons h
    · have heid : recordEid raw = none := by rw [recordEid_eq hp, if_neg hret]
      refine ⟨by simp [allKnown, heid], ?_⟩
      rw [List.head?_cons, any_some, if_neg (by simp [knownRecord, heid]), hpar.rest]
    · have heid : recordEid raw = some p.m.eidPrefix := by rw [recordEid_eq hp, if_pos hret]
      have hknown : knownRecord s.localMdb raw = true := by simp [knownRecord, heid, hlook]
      obtain ⟨hw1, hdb, hconf⟩ := hround.confirmed hw
      obtain ⟨hall, hlast⟩ := mapNotifyLoop_completed hw1 hrest
      rw [hdb] at hall hlast
      refine ⟨by simpa [allKnown, heid, hknown] using hall, ?_⟩
      rw [List.head?_cons, any_some, if_pos hknown]
      split_ifs at hlast
      · exact hlast
      · exact hconf.congr hlast

/-- The loop meets a missing entry only at an unknown EID. -/
theorem mapNotifyLoop_missing (hW : PolicySparesEntries W) :
    ∀ {l : List RawRecord} {s : Xtr R}, s.Wf →
      (mapNotifyLoop W env t l).run s = .error .missingEntry → allKnown s.localMdb l = false
  | [], _, _, h => by cases h
  | raw :: rest, s, hw, h => by
    obtain ⟨p, hp, hret, hlook | ⟨mle, s1, hlook, hround, hrest⟩⟩ :=
      mapNotifyLoop_cons_missing hW h
    · have heid : recordEid raw = some p.m.eidPrefix := by rw [recordEid_eq hp, if_pos hret]
      simp [allKnown, heid, knownRecord, hlook]
    · have heid : recordEid raw = some p.m.eidPrefix := by rw [recordEid_eq hp, if_pos hret]
      obtain ⟨hw1, hdb, -⟩ := hround.confirmed hw
      have ih := mapNotifyLoop_missing hW hw1 hrest
      rw [hdb] at ih
      have hknown : knownRecord s.localMdb raw = true := by simp [knownRecord, heid, hlook]
      simpa [allKnown, heid, hknown] using ih

/-! ## The handler -/

/-- The message answers the Map-Registers of a timer, and is authenticated with the key of their
Map-Server. -/
structure NotifyFor (W : World R F) (s : Xtr R) (msg : MapNotifyMsg) (t : Nat) : Prop where
  nonce : s.ts.nonces msg.nonce = some t
  server : ∃ ty mle ms elt, s.ts.kind t = some (ty, .mapReg mle ms) ∧
    s.mapServers.find? (·.ptr = ms) = some elt ∧
    lispMsgCheckAuthField W.hmac msg.auth elt.key = true

/-- There is a record, and the EIDs of the records up to the first that does not parse are all in
the local database. -/
def NotifyKnown (s : Xtr R) (msg : MapNotifyMsg) : Prop :=
  (readRecords msg.records msg.recCount.toNat).head?.any (knownRecord s.localMdb) = true ∧
    allKnown s.localMdb (readRecords msg.records msg.recCount.toNat) = true

/-- An authenticated message is processed by the loop. -/
theorem trRecvMapNotify_eq {msg : MapNotifyMsg} (h : NotifyFor W s msg t) :
    (trRecvMapNotify W env msg).run s =
      (mapNotifyLoop W env t (readRecords msg.records msg.recCount.toNat)).run s := by
  obtain ⟨ty, mle, ms, elt, hk, helt, hauth⟩ := h.server
  obtain ⟨tm, htm, hkind⟩ := map_eq_some_iff.mp hk
  obtain ⟨-, harg⟩ := Prod.mk.inj hkind
  have hreg : tm.cbArgument.asMapReg = .ok (mle, ms) := by rw [harg, TimerArg.asMapReg]
  rw [trRecvMapNotify, bind_run (get_ok.mpr ⟨rfl, rfl⟩), htableNoncesLookup, h.nonce]
  rw [bind_run (derefTimer_ok.mpr ⟨htm, rfl⟩), bind_run (lift_ok.mpr ⟨hreg, rfl⟩)]
  rw [bind_run (derefMs_ok.mpr ⟨helt, rfl⟩), if_pos hauth]

/-- An authenticated Map-Notify is handled without touching a missing entry, and leaves the timer of
its nonce armed and without nonces, exactly when it has a record and its EIDs are known. -/
theorem map_notify_handled_iff (hW : PolicySparesEntries W) {msg : MapNotifyMsg} (hw : s.Wf)
    (hmsg : NotifyFor W s msg t)
    (hother : ∀ f, (trRecvMapNotify W env msg).run s = .error f → f = .missingEntry) :
    (∃ r s', (trRecvMapNotify W env msg).run s = .ok (r, s') ∧ Confirmed s' t) ↔
      NotifyKnown s msg := by
  rw [trRecvMapNotify_eq hmsg] at hother ⊢
  constructor
  · rintro ⟨r, s', h, hconf⟩
    obtain ⟨hall, hlast⟩ := mapNotifyLoop_completed hw h
    refine ⟨?_, hall⟩
    by_contra hnot
    rw [if_neg hnot] at hlast
    exact hconf.noNonce msg.nonce (by rw [hlast, hmsg.nonce])
  · rintro ⟨hhead, hall⟩
    cases hrun : (mapNotifyLoop W env t (readRecords msg.records msg.recCount.toNat)).run s with
    | error f =>
      obtain rfl := hother f hrun
      rw [mapNotifyLoop_missing hW hw hrun] at hall
      cases hall
    | ok x =>
      obtain ⟨-, hlast⟩ := mapNotifyLoop_completed hw hrun
      rw [if_pos hhead] at hlast
      exact ⟨x.1, x.2, rfl, hlast⟩

/-- A router that registers `10.0.0.0/8` with one Map-Server. -/
def labRegConf : XtrConf Unit :=
  { labConf with mapServers := [⟨0, .ip (.v4 3), 1, [], false⟩] }

/-- An authenticated Map-Notify for the first Map-Register, with these records. -/
def labNotify (records : List RawRecord) : MapNotifyMsg :=
  ⟨0, UInt8.ofNat records.length, records, ⟨1, 20, [], []⟩⟩

/-- A record for `10.0.0.0/8`. -/
def labLocalRecord : RawRecord :=
  .wellFormed
    ⟨10, 0, 1, .ip (.v4 0x0a000000#32), 8, [⟨.ip (.v4 77), true, true, false, 1, 100, 255, 0⟩]⟩

theorem labWorld_sparesEntries : PolicySparesEntries labWorld :=
  ⟨fun _ _ => trivial, fun _ _ _ => trivial⟩

/-- The registration of `10.0.0.0/8` is confirmed. -/
theorem map_notify_handled_registered :
    ∃ s, LabReach s ∧ s.ts.nonces 0 = some 0 ∧
      ∃ r s', (trRecvMapNotify labWorld labEnv (labNotify [labLocalRecord])).run s = .ok (r, s') ∧
        Confirmed s' 0 := by
  have hrun : ∃ s, LabReach s ∧
      s.ts.nonces 0 = some 0 ∧ s.ts.kind 0 = some (.MAP_REGISTER_TIMER, .mapReg 0 0) ∧
      (s.mapServers.find? (·.ptr = 0)).any (fun elt => lispMsgCheckAuthField labWorld.hmac
        (labNotify [labLocalRecord]).auth elt.key) = true ∧
      Prog.fault ((trRecvMapNotify labWorld labEnv (labNotify [labLocalRecord])).run s) = none ∧
      (readRecords (labNotify [labLocalRecord]).records 1).head?.any (knownRecord s.localMdb) =
        true ∧
      allKnown s.localMdb (readRecords (labNotify [labLocalRecord]).records 1) = true :=
    XtrReach.of_events labRegConf labEnv [] trivial (by decide +kernel)
  obtain ⟨s, hs, hn, hk, hserver, hok, hknown⟩ := hrun
  obtain ⟨elt, helt, hauth⟩ := (any_eq_true _ _).mp hserver
  refine ⟨s, hs, hn, (map_notify_handled_iff labWorld_sparesEntries hs.wf.1
    ⟨hn, _, _, _, elt, hk, helt, hauth⟩ fun f hf => ?_).mpr hknown⟩
  rw [hf] at hok
  cases hok

/-- A record for `192.0.2.0/24`, which is not local, makes the router read a missing entry; a
message without records leaves the nonce of the Map-Register outstanding. -/
theorem map_notify_unknown_eid :
    ∃ s, LabReach s ∧ s.ts.nonces 0 = some 0 ∧
      s.ts.kind 0 = some (.MAP_REGISTER_TIMER, .mapReg 0 0) ∧
      (s.mapServers.find? (·.ptr = 0)).any (fun elt => lispMsgCheckAuthField labWorld.hmac
        (labNotify []).auth elt.key) = true ∧
      Prog.fault ((trRecvMapNotify labWorld labEnv
        (labNotify [labLocalRecord, labRecord 0xc0000200#32 1])).run s) = some .missingEntry ∧
      ((trRecvMapNotify labWorld labEnv (labNotify [])).run s).toOption.any (fun r =>
        decide (r.1 = .GOOD ∧ r.2.ts.nonces 0 = some 0)) = true :=
  XtrReach.of_events labRegConf labEnv [] trivial (by decide +kernel)

end Lispmob
