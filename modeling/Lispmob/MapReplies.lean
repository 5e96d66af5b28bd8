import Lispmob.EntryTimers
import Lispmob.Placeholders

/-!
# What a Map-Reply may change

A Map-Reply is matched to a timer by its nonce, and to nothing else. `map_reply_effect` says which
entries a Map-Reply without the probe bit changes: for a placeholder, the placeholder and new
entries under the EIDs of the records, and for an active entry, the entry stored under the EID of
the first record. No check relates these EIDs to the EID that was asked for, and
`unrelated_record_installed` is a Map-Reply that installs an unrelated prefix.

The nonces of all exchanges are in one table. `nonce_respected_iff` says when a message is taken for
the exchange its nonce belongs to, and `foreign_nonce_accepted` is one that is not. A nonce is used
up with the timer it was issued by: `accepted_nonce_replay` rules out replays.
-/

namespace Lispmob

open Prog Option Heap

section MapReplies

variable {R F : Type} {W : World R F} {env : CtrlEnv} {s s' s0 s1 s2 s3 : Xtr R} {t t' e e' : Nat}
  {msg : MapReplyMsg} {ra : LispAddr} {me me' : Mce R} {k : MdbKey} {probed : Probed}
  {raw : RawRecord} {keys : List MdbKey} {p : ParsedRecord} {ev : XtrEvent}

/-! ## Entries -/

/-- The timer and the entry of an answer are determined by its nonce. -/
theorem Answers.unique (h : Answers s msg t e me) (h' : Answers s msg t' e' me') :
    t = t' ∧ e = e' ∧ me = me' := by
  have ht : t = t' := some.inj (h.nonce.symm.trans h'.nonce)
  subst ht
  obtain ⟨ty, a, hk, ha⟩ := h.arg
  obtain ⟨ty', a', hk', ha'⟩ := h'.arg
  cases hk.symm.trans hk'
  have he : e = e' := Except.ok.inj (ha.symm.trans ha')
  subst he
  exact ⟨rfl, rfl, some.inj (h.cell.symm.trans h'.cell)⟩

/-- From `s0` to `s`, the entry `e` may go and entries under `keys` may come; the other entries and
what is stored under the other keys stay as they are. -/
structure OnlyInstalled (s0 : Xtr R) (e : Nat) (keys : List MdbKey) (s : Xtr R) : Prop where
  cells : ∀ i, i < s0.mces.next → i ≠ e → s.mces.cell i = s0.mces.cell i
  next : s0.mces.next ≤ s.mces.next
  kept : ∀ k d, s0.mapCache.stored k = some d → d ≠ e → s.mapCache.stored k = some d
  new : ∀ k d, s.mapCache.stored k = some d → s0.mapCache.stored k = some d ∨
    (s0.mces.next ≤ d ∧ k ∈ keys)

theorem OnlyInstalled.refl (s : Xtr R) (e : Nat) (keys : List MdbKey) : OnlyInstalled s e keys s :=
  ⟨fun _ _ _ => rfl, Nat.le_refl _, fun _ _ h _ => h, fun _ _ h => .inl h⟩

/-- A step that changes no entry and nothing in the map cache. -/
theorem OnlyInstalled.of_same (h : OnlyInstalled s0 e keys s)
    (hcells : ∀ i, s'.mces.cell i = s.mces.cell i) (hnext : s.mces.next ≤ s'.mces.next)
    (hstored : ∀ k, s'.mapCache.stored k = s.mapCache.stored k) : OnlyInstalled s0 e keys s' := by
  refine ⟨fun i hi hne => ?_, Nat.le_trans h.next hnext, fun k d hk hd => ?_, fun k d hk => ?_⟩
  · rw [hcells, h.cells i hi hne]
  · rw [hstored, h.kept k d hk hd]
  · rw [hstored] at hk
    exact h.new k d hk

theorem OnlyInstalled.removed (h : Removed W s s' k e) (keys : List MdbKey) :
    OnlyInstalled s e keys s' := by
  refine ⟨fun i _ hne => ?_, ?_, fun k' d hk hd => ?_, fun k' d hk => ?_⟩
  · rw [h.mces, free_cell, if_neg hne]
  · rw [h.mces]
    exact Nat.le_refl _
  · rw [h.stored, if_neg, hk]
    rintro rfl
    rw [h.was] at hk
    exact hd (some.inj hk).symm
  · rw [h.stored] at hk
    split_ifs at hk
    exact .inl hk

theorem OnlyInstalled.added {m : Mapping} (h : OnlyInstalled s0 e keys s)
    (hadd : Added W s s' m) (hkey : mdbKey m.eidPrefix = some k) (hmem : k ∈ keys) :
    OnlyInstalled s0 e keys s' := by
  obtain ⟨info, hmces⟩ := hadd.mces
  obtain ⟨k', hk', hst⟩ := hadd.stored
  have hkk : k' = k := some.inj (hk'.symm.trans hkey)
  subst hkk
  refine ⟨fun i hi hne => ?_, ?_, fun k d hk hd => ?_, fun k d hk => ?_⟩
  · rw [hmces, alloc_cell, if_neg (Nat.ne_of_lt (Nat.lt_of_lt_of_le hi h.next)),
      h.cells i hi hne]
  · rw [hmces, alloc_next]
    exact Nat.le_trans h.next (Nat.le_succ _)
  · have hold := h.kept k d hk hd
    rw [hst]
    split_ifs with hkk
    · rw [← hkk, hold, getD_some]
    · exact hold
  · rw [hst] at hk
    split_ifs at hk with hkk
    · subst hkk
      cases hs : s.mapCache.stored k with
      | some d' =>
        rw [hs, getD_some] at hk
        cases hk
        exact h.new k d hs
      | none =>
        rw [hs, getD_none] at hk
        cases hk
        exact .inr ⟨h.next, hmem⟩
    · exact h.new k d hk

/-- The keys of the records are among those of the message. -/
theorem mem_recordKeys {l : List RawRecord} {rec : MappingRecord} (hmem : rec ∈ parsedRecords l)
    (hkey : mdbKey rec.eidPrefix = some k) : k ∈ recordKeys l :=
  List.mem_filterMap.mpr ⟨_, hmem, hkey⟩

theorem Change.onlyInstalled (hev : ev = .mapReply msg ra env)
    (h : Change W s0 ev s s') (hans : Answers s0 msg t e me) (hact : me.active = .NOT_ACTIVE)
    (hI : OnlyInstalled s0 e (recordKeys (readRecords msg.records msg.recCount.toNat)) s) :
    OnlyInstalled s0 e (recordKeys (readRecords msg.records msg.recCount.toNat)) s' := by
  cases h with
  | idle h => exact hI.of_same h.cells h.next h.stored
  | localOnly h =>
    refine hI.of_same (fun i => ?_) ?_ fun k => ?_
    · rw [show s'.mces = s.mces by rw [h.rest]]
    · rw [show s'.mces = s.mces by rw [h.rest]]
    · rw [show s'.mapCache = s.mapCache by rw [h.rest]]
  | discarded answers _ removed =>
    cases hev
    obtain ⟨-, rfl, -⟩ := answers.unique hans
    exact .removed removed _
  | installed answers _ mem eid _ _ added =>
    cases hev
    obtain ⟨k, hkey, -⟩ := added.stored
    have hk := mem_recordKeys mem (eid ▸ hkey)
    exact (hI.added added hkey hk).of_same (fun _ => rfl) (Nat.le_refl _) fun _ => rfl
  | refreshed answers active _ _ _ _ _ _ =>
    cases hev
    obtain ⟨-, -, rfl⟩ := answers.unique hans
    rw [hact] at active
    cases active
  | answered answers active _ _ =>
    cases hev
    obtain ⟨-, -, rfl⟩ := answers.unique hans
    rw [hact] at active
    cases active
  | probed probe _ _ _ _ _ _ _ _ =>
    cases hev
    rw [hans.notProbe] at probe
    cases probe
  | _ => cases hev

/-- From `s0` to `s`, the map cache stays as it is, and only the entry stored under the EID of the
first record may change. -/
structure OnlyRefreshed (s0 : Xtr R) (msg : MapReplyMsg) (s : Xtr R) : Prop where
  stored : ∀ k, s.mapCache.stored k = s0.mapCache.stored k
  cells : ∀ i, s.mces.cell i = s0.mces.cell i ∨ ∃ rec,
    msg.records.getD 0 .malformed = .wellFormed rec ∧
      mdbLookupEntryExact s0.mapCache rec.eidPrefix = .ok (some i)

theorem Change.onlyRefreshed (hev : ev = .mapReply msg ra env)
    (h : Change W s0 ev s s') (hans : Answers s0 msg t e me) (hact : me.active = .ACTIVE)
    (hw : s.Wf) (hI : OnlyRefreshed s0 msg s) : OnlyRefreshed s0 msg s' := by
  cases h with
  | idle h => exact ⟨fun k => (h.stored k).trans (hI.stored k), fun i => h.cells i ▸ hI.cells i⟩
  | localOnly h =>
    rw [h.rest]
    exact ⟨hI.stored, hI.cells⟩
  | discarded answers placeholder _ =>
    cases hev
    obtain ⟨-, -, rfl⟩ := answers.unique hans
    rw [hact] at placeholder
    cases placeholder
  | installed answers placeholder _ _ _ _ _ =>
    cases hev
    obtain ⟨-, -, rfl⟩ := answers.unique hans
    rw [hact] at placeholder
    cases placeholder
  | refreshed _ _ first _ _ parsed found refreshed =>
    cases hev
    have hw1 := (parsed.idle (W := W)).wf hw
    obtain ⟨m1, m2, s1, s2, s3, hed, -, htimer, hprobe, rfl⟩ := refreshed
    have hw2 := htimer.wf (hed.wf hw1) rfl hed.is nofun
    have hmces : s3.mces = s1.mces := by rw [(hprobe hw2.timers).rest, htimer.rest]
    have hcache : s3.mapCache = s.mapCache := by
      rw [(hprobe hw2.timers).rest, htimer.rest, hed.rest, parsed.rest]
    refine ⟨fun k => ?_, fun i => ?_⟩
    · exact congrArg (Mdb.stored · k) hcache
    · have hcell := hed.cells i
      split_ifs at hcell with hi
      · exact .inr ⟨_, first, hi ▸ found⟩
      · left
        exact (congrArg (cell · i) hmces).trans (hcell.trans (by rw [parsed.rest]))
  | answered _ _ _ stopped =>
    rw [stopped.rest]
    exact ⟨hI.stored, hI.cells⟩
  | probed probe _ _ _ _ _ _ _ _ =>
    cases hev
    rw [hans.notProbe] at probe
    cases probe
  | _ => cases hev

/-- What a Map-Reply without the probe bit changes, in any state of any run. -/
theorem map_reply_effect {P : XtrConf R → Prop} {ok : Xtr R → XtrEvent → Prop} {r : Ret}
    (h : XtrReach W P ok s) (hans : Answers s msg t e me)
    (hrun : (trRecvMapReply W env msg ra).run s = .ok (r, s')) :
    (me.active = .NOT_ACTIVE →
      OnlyInstalled s e (recordKeys (readRecords msg.records msg.recCount.toNat)) s') ∧
      (me.active = .ACTIVE → OnlyRefreshed s msg s') := by
  have hw := h.wf.1
  have hpieces : Pieces W s (.mapReply msg ra env) s s' := trRecvMapReply_pieces _ _ hrun
  refine ⟨fun hact => ?_, fun hact => ?_⟩
  · exact hpieces.keeps (fun a b _ hc => hc.onlyInstalled rfl hans hact) hw (.refl s e _)
  · exact hpieces.keeps (fun a b hwa hc => hc.onlyRefreshed rfl hans hact hwa) hw
      ⟨fun _ => rfl, fun _ => .inl rfl⟩

/-! ## Nonces -/

/-- The nonce was issued by a timer of a Map-Request, and is still outstanding. -/
def RequestNonce (s : Xtr R) (n : Nonce) : Prop :=
  ∃ t e src, s.ts.nonces n = some t ∧
    (s.ts.kind t = some (.MAP_REQUEST_RETRY_TIMER, .mapReq e src) ∨
      s.ts.kind t = some (.SMR_INV_RETRY_TIMER, .mapReq e src))

/-- The nonce was issued by a probing timer of an entry for the EID. -/
def ProbeNonce (s : Xtr R) (n : Nonce) (eid : LispAddr) : Prop :=
  ∃ t e loc me, s.ts.nonces n = some t ∧
    s.ts.kind t = some (.RLOC_PROBING_TIMER, .rlocProbe e loc) ∧ s.mces.cell e = some me ∧
      ((∃ k, mdbKey eid = some k ∧ mdbKey me.mapping.eidPrefix = some k) ∨
        (e = s.petrs ∧ lispAddrCmp eid me.mapping.eidPrefix = 0))

/-- The nonce was issued by a Map-Register timer. -/
def RegisterNonce (s : Xtr R) (n : Nonce) : Prop :=
  ∃ t mle ms, s.ts.nonces n = some t ∧ s.ts.kind t = some (.MAP_REGISTER_TIMER, .mapReg mle ms)

/-- The handler returns `BAD` and changes nothing. -/
def Rejected (x : XtrM R Ret) (s : Xtr R) : Prop :=
  ∃ s', x.run s = .ok (.BAD, s') ∧ Parsed s s'

/-- A message is rejected or carries a nonce of its own kind of exchange. The handlers read the
argument of the timer of a known nonce as one of a Map-Request and of a Map-Register; the answer to
a probe does not read it. -/
def NonceRespected (W : World R F) (s : Xtr R) : XtrEvent → Prop
  | .mapReply msg ra env =>
    if msg.rlocProbe then ¬ Rejected (trRecvMapReply W env msg ra) s →
      ∃ rec, msg.records.getD 0 .malformed = .wellFormed rec ∧
        ProbeNonce s msg.nonce rec.eidPrefix
    else (¬ Rejected (trRecvMapReply W env msg ra) s → RequestNonce s msg.nonce) ∧
      ∀ t, s.ts.nonces msg.nonce = some t → RequestNonce s msg.nonce
  | .mapNotify msg env =>
    (¬ Rejected (trRecvMapNotify W env msg) s → RegisterNonce s msg.nonce) ∧
      ∀ t, s.ts.nonces msg.nonce = some t → RegisterNonce s msg.nonce
  | _ => True

/-- The first record does not pass the checks made on the answer to a probe: an explicit path with
the L bit, without a probed locator, or an EID that is neither in the map cache nor that of the
Proxy-ETRs. -/
def ProbeTurnedDown (s : Xtr R) (msg : MapReplyMsg) (ra : LispAddr) : Prop :=
  ∃ p, lispMsgParseMappingRecord s.nextLoct .uninit (msg.records.getD 0 .malformed) = .ok p ∧
    ((p.ret ≠ .GOOD ∧ locatorDelProbed p.probed = .ok ()) ∨
      (p.ret = .GOOD ∧ mappingHasElpWithLBit p.m = .ok true ∧
        locatorDelProbed p.probed = .ok ()) ∨
      (p.ret = .GOOD ∧ mappingHasElpWithLBit p.m = .ok false ∧
        (∃ addr, probedAddress p ra = .ok addr) ∧ ProbeTarget s p.m.eidPrefix none))

/-- The nonce of the message is unknown or of the right kind, or the message is the answer to a
probe that does not pass its checks. -/
def NonceFits (s : Xtr R) : XtrEvent → Prop
  | .mapReply msg ra _ =>
    if msg.rlocProbe then s.ts.nonces msg.nonce = none ∨ ProbeTurnedDown s msg ra ∨
      ∃ rec, msg.records.getD 0 .malformed = .wellFormed rec ∧
        ProbeNonce s msg.nonce rec.eidPrefix
    else ∀ t x, s.ts.nonces msg.nonce = some t → s.ts.kind t = some x →
      x.1 = .MAP_REQUEST_RETRY_TIMER ∨ x.1 = .SMR_INV_RETRY_TIMER
  | .mapNotify msg _ => ∀ t x, s.ts.nonces msg.nonce = some t → s.ts.kind t = some x →
      x.1 = .MAP_REGISTER_TIMER
  | _ => True

/-! ## Rejected answers to probes -/

theorem parseRecord_ok :
    (parseRecord probed raw).run s = .ok (p, s') ↔
      lispMsgParseMappingRecord s.nextLoct probed raw = .ok p ∧
        s' = { s with nextLoct := p.next } := by
  rw [parseRecord, get_bind_ok, bind_ok]
  constructor
  · rintro ⟨p', s1, hp, h⟩
    obtain ⟨hp, rfl⟩ := lift_ok.mp hp
    obtain ⟨_, _, ⟨-, rfl⟩, rfl, rfl⟩ := h
    exact ⟨hp, rfl⟩
  · rintro ⟨hp, rfl⟩
    exact ⟨p, s, lift_ok.mpr ⟨hp, rfl⟩, bind_ok.mpr
      ⟨(), _, modify_ok.mpr ⟨rfl, rfl⟩, pure_ok.mpr ⟨rfl, rfl⟩⟩⟩

theorem parseReplyRecord_none_iff :
    (parseReplyRecord probed raw).run s = .ok (none, s') ↔
      ∃ p, lispMsgParseMappingRecord s.nextLoct probed raw = .ok p ∧
        s' = { s with nextLoct := p.next } ∧
        ((p.ret ≠ .GOOD ∧ locatorDelProbed p.probed = .ok ()) ∨
          (p.ret = .GOOD ∧ mappingHasElpWithLBit p.m = .ok true ∧
            locatorDelProbed p.probed = .ok ())) := by
  simp only [parseReplyRecord, bind_ok, parseRecord_ok]
  constructor
  · rintro ⟨p, _, ⟨hp, rfl⟩, h⟩
    refine ⟨p, hp, ?_⟩
    split_ifs at h with hret
    · simp only [bind_ok, lift_ok] at h
      obtain ⟨lBit, _, ⟨hl, rfl⟩, h⟩ := h
      cases lBit with
      | true =>
        simp only [if_true, bind_ok, lift_ok, pure_ok] at h
        obtain ⟨_, _, ⟨hd, rfl⟩, -, rfl⟩ := h
        exact ⟨rfl, .inr ⟨hret, hl, hd⟩⟩
      | false => simp at h
    · simp only [bind_ok, lift_ok, pure_ok] at h
      obtain ⟨_, _, ⟨hd, rfl⟩, -, rfl⟩ := h
      exact ⟨rfl, .inl ⟨hret, hd⟩⟩
  · rintro ⟨p, hp, rfl, ⟨hret, hd⟩ | ⟨hret, hl, hd⟩⟩
    · refine ⟨p, _, ⟨hp, rfl⟩, ?_⟩
      rw [if_neg hret]
      exact bind_ok.mpr ⟨(), _, lift_ok.mpr ⟨hd, rfl⟩, pure_ok.mpr ⟨rfl, rfl⟩⟩
    · refine ⟨p, _, ⟨hp, rfl⟩, ?_⟩
      rw [if_pos hret]
      refine bind_ok.mpr ⟨true, _, lift_ok.mpr ⟨hl, rfl⟩, ?_⟩
      exact bind_ok.mpr ⟨(), _, lift_ok.mpr ⟨hd, rfl⟩, pure_ok.mpr ⟨rfl, rfl⟩⟩

theorem parseReplyRecord_some_iff :
    (parseReplyRecord probed raw).run s = .ok (some p, s') ↔
      lispMsgParseMappingRecord s.nextLoct probed raw = .ok p ∧
        s' = { s with nextLoct := p.next } ∧ p.ret = .GOOD ∧
        mappingHasElpWithLBit p.m = .ok false := by
  simp only [parseReplyRecord, bind_ok, parseRecord_ok]
  constructor
  · rintro ⟨p', _, ⟨hp, rfl⟩, h⟩
    split_ifs at h with hret
    · simp only [bind_ok, lift_ok] at h
      obtain ⟨lBit, _, ⟨hl, rfl⟩, h⟩ := h
      cases lBit with
      | true =>
        simp only [if_true, bind_ok, lift_ok, pure_ok, reduceCtorEq, false_and,
          and_false, exists_false] at h
      | false =>
        obtain ⟨rfl, rfl⟩ := h
        exact ⟨hp, rfl, hret, hl⟩
    · simp only [bind_ok, lift_ok, pure_ok, reduceCtorEq, false_and, and_false,
        exists_false] at h
  · rintro ⟨hp, rfl, hret, hl⟩
    refine ⟨p, _, ⟨hp, rfl⟩, ?_⟩
    rw [if_pos hret]
    exact bind_ok.mpr ⟨false, _, lift_ok.mpr ⟨hl, rfl⟩, pure_ok.mpr ⟨rfl, rfl⟩⟩

theorem probeReplyEntry_ok {eid : LispAddr} {o : Option Nat} :
    (probeReplyEntry eid).run s = .ok (o, s') ↔ ProbeTarget s eid o ∧ s' = s := by
  constructor
  · intro h
    obtain ⟨hs, ht⟩ := probeReplyEntry_spec h
    exact ⟨ht, hs⟩
  · rintro ⟨⟨d, hd, rfl⟩ | ⟨hnone, mp, hmp, rfl⟩, rfl⟩
    · exact bind_ok.mpr ⟨some d, _, mcacheLookupExact_ok.mpr ⟨hd, rfl⟩,
        pure_ok.mpr ⟨rfl, rfl⟩⟩
    · refine bind_ok.mpr ⟨none, _, mcacheLookupExact_ok.mpr ⟨hnone, rfl⟩, ?_⟩
      exact get_bind_ok.mpr (bind_ok.mpr ⟨mp, _, derefMce_ok.mpr ⟨hmp, rfl⟩,
        pure_ok.mpr ⟨rfl, rfl⟩⟩)

/-- The answer to a probe is rejected when its record does not pass the checks. -/
theorem probe_rejected_iff (hprobe : msg.rlocProbe = true) (hn : s.ts.nonces msg.nonce = some t) :
    Rejected (trRecvMapReply W env msg ra) s ↔ ProbeTurnedDown s msg ra := by
  constructor
  · rintro ⟨s', hrun, -⟩
    obtain ⟨hnone, -⟩ | ⟨t', -, ⟨-, hrun⟩ | ⟨hnot, -⟩⟩ := trRecvMapReply_cases hrun
    · rw [hn] at hnone
      cases hnone
    · rw [recvMapReplyProbe, bind_ok] at hrun
      obtain ⟨o, s1, hparse, hrun⟩ := hrun
      cases o with
      | none =>
        obtain ⟨p, hp, -, hbad⟩ := parseReplyRecord_none_iff.mp hparse
        exact ⟨p, hp, or_assoc.mp (.inl hbad)⟩
      | some p =>
        obtain ⟨hp, rfl, hret, hl⟩ := parseReplyRecord_some_iff.mp hparse
        simp only [bind_ok, lift_ok, probeReplyEntry_ok] at hrun
        obtain ⟨addr, _, ⟨haddr, rfl⟩, o, _, ⟨htarget, rfl⟩, hrun⟩ := hrun
        cases o with
        | none => exact ⟨p, hp, .inr (.inr ⟨hret, hl, ⟨addr, haddr⟩, htarget⟩)⟩
        | some d =>
          simp only [bind_ok, pure_ok, reduceCtorEq, false_and, and_false, exists_false] at hrun
    · rw [hprobe] at hnot
      cases hnot
  · rintro ⟨p, hp, hcases⟩
    have hle := (lispMsgParseMappingRecord_fresh hp).1
    refine ⟨{ s with nextLoct := p.next }, ?_, hle, rfl⟩
    rw [trRecvMapReply, get_bind_ok, htableNoncesLookup, hn]
    dsimp only
    rw [if_pos hprobe, recvMapReplyProbe, bind_ok]
    obtain hbad | ⟨hret, hl, ⟨addr, haddr⟩, htarget⟩ := or_assoc.mpr hcases
    · exact ⟨none, _, parseReplyRecord_none_iff.mpr ⟨p, hp, rfl, hbad⟩, pure_ok.mpr ⟨rfl, rfl⟩⟩
    · refine ⟨some p, _, parseReplyRecord_some_iff.mpr ⟨hp, rfl, hret, hl⟩, ?_⟩
      refine bind_ok.mpr ⟨addr, _, lift_ok.mpr ⟨haddr, rfl⟩, ?_⟩
      exact bind_ok.mpr ⟨none, _, probeReplyEntry_ok.mpr ⟨htarget, rfl⟩,
        pure_ok.mpr ⟨rfl, rfl⟩⟩

theorem unknown_nonce_rejected (hn : s.ts.nonces msg.nonce = none) :
    Rejected (trRecvMapReply W env msg ra) s := by
  refine ⟨s, ?_, Nat.le_refl _, rfl⟩
  rw [trRecvMapReply, get_bind_ok, htableNoncesLookup, hn]
  exact pure_ok.mpr ⟨rfl, rfl⟩

theorem requestNonce_of_type {x : TimerType × TimerArg} {n : Nonce} (hw : s.Wf)
    (hn : s.ts.nonces n = some t) (hk : s.ts.kind t = some x)
    (hx : x.1 = .MAP_REQUEST_RETRY_TIMER ∨ x.1 = .SMR_INV_RETRY_TIMER) : RequestNonce s n := by
  obtain ⟨ty, a⟩ := x
  have hfits := hw.fits t ty a hk
  rcases hx with rfl | rfl
  · cases a with
    | mapReq e src => exact ⟨t, e, src, hn, .inl hk⟩
    | _ => exact hfits.elim
  · cases a with
    | mapReq e src => exact ⟨t, e, src, hn, .inr hk⟩
    | _ => exact hfits.elim

/-- A message is taken for the exchange its nonce was issued in exactly when its nonce fits, or it
is the answer to a probe that does not pass its checks. -/
theorem nonce_respected_iff {P : XtrConf R → Prop} {ok : Xtr R → XtrEvent → Prop}
    (h : XtrReach W P ok s) (ev : XtrEvent) : NonceRespected W s ev ↔ NonceFits s ev := by
  have hw := h.wf.1
  cases ev with
  | mapReply msg ra env =>
    dsimp only [NonceRespected, NonceFits]
    split_ifs with hprobe
    · cases hn : s.ts.nonces msg.nonce with
      | none => simp [unknown_nonce_rejected hn]
      | some t =>
        rw [probe_rejected_iff hprobe hn, ← or_iff_not_imp_left]
        simp only [reduceCtorEq, false_or]
    · constructor
      · rintro ⟨-, hargs⟩ t x hn hk
        obtain ⟨t', e, src, hn', hk' | hk'⟩ := hargs t hn
        all_goals
          cases hn.symm.trans hn'
          cases hk.symm.trans hk'
        · exact .inl rfl
        · exact .inr rfl
      · intro hfit
        have hargs : ∀ t, s.ts.nonces msg.nonce = some t → RequestNonce s msg.nonce := by
          intro t hn
          obtain ⟨x, hk⟩ := hw.timers.nonce_kind hn
          exact requestNonce_of_type hw hn hk (hfit t x hn hk)
        refine ⟨fun hnot => ?_, hargs⟩
        cases hn : s.ts.nonces msg.nonce with
        | none => exact absurd (unknown_nonce_rejected hn) hnot
        | some t => exact hargs t hn
  | mapNotify msg env =>
    constructor
    · rintro ⟨-, hargs⟩ t x hn hk
      obtain ⟨t', mle, ms, hn', hk'⟩ := hargs t hn
      cases hn.symm.trans hn'
      cases hk.symm.trans hk'
      rfl
    · intro hfit
      have hargs : ∀ t, s.ts.nonces msg.nonce = some t → RegisterNonce s msg.nonce := by
        intro t hn
        obtain ⟨⟨ty, a⟩, hk⟩ := hw.timers.nonce_kind hn
        cases hfit t _ hn hk
        have hfits := hw.fits t _ a hk
        cases a with
        | mapReg mle ms => exact ⟨t, mle, ms, hn, hk⟩
        | _ => exact hfits.elim
      refine ⟨fun hnot => ?_, hargs⟩
      cases hn : s.ts.nonces msg.nonce with
      | some t => exact hargs t hn
      | none =>
        refine absurd ⟨s, ?_, Nat.le_refl _, rfl⟩ hnot
        rw [trRecvMapNotify, get_bind_ok, htableNoncesLookup, hn]
        exact pure_ok.mpr ⟨rfl, rfl⟩
  | _ => exact Iff.rfl

/-! ## Replays -/

theorem Evolves.dead (h : Evolves W s s') (hlt : t < s.ts.timers.next)
    (hdead : s.ts.kind t = none) :
    s'.ts.kind t = none := by
  cases hk : s'.ts.kind t with
  | none => rfl
  | some x =>
    have hold := h.ts.kind t hlt x hk
    rw [hdead] at hold
    cases hold

theorem TimerStopped.kind_none (h : TimerStopped W s s' t) : s'.ts.kind t = none := by
  rw [Timers.kind, h.gone, map_none]

/-- An accepted Map-Reply releases the timer its nonce was issued by. -/
theorem accepted_reply_released (hw : s.Wf) (hn : s.ts.nonces msg.nonce = some t)
    (hrun : (trRecvMapReply W env msg ra).run s = .ok (.GOOD, s')) : s'.ts.kind t = none := by
  obtain ⟨hnone, -⟩ | ⟨t', hn', ⟨-, hprobe⟩ | ⟨hnot, hreply⟩⟩ := trRecvMapReply_cases hrun
  · rw [hn] at hnone
    cases hnone
  · cases hn.symm.trans hn'
    obtain ⟨hbad, -⟩ | ⟨p, s1, addr, d, r', s2, -, -, -, -, -, -, -, hstop⟩ :=
      recvMapReplyProbe_cases hprobe
    · cases hbad
    · exact hstop.kind_none
  · cases hn.symm.trans hn'
    obtain ⟨ty, a, e, me, hk, ha, hme, ⟨hact, r', s1, hrem, hin⟩ | ⟨-, s1, -, hend⟩⟩ :=
      recvMapReplyNonProbe_cases hreply
    · -- the entry goes with its timers, before any record is installed
      obtain ⟨k, hkey, hst⟩ := hw.placeholder_stored hme hact
      have hremoved : Removed W s s1 k e := trMcacheRemoveEntry_stored hw hme hkey hst hrem
      have hgone : s1.ts.kind t = none := by
        cases hk1 : s1.ts.kind t with
        | none => rfl
        | some x =>
          obtain ⟨-, hnot⟩ := (hremoved.released.kind t x).mp hk1
          exact absurd ⟨ty, a, hk, TimerArg.entry_of_asMapReqMce ha⟩ hnot
      have hlt : t < s1.ts.timers.next := by
        rw [hremoved.released.next]
        exact Grown.lt_next_of_kind hk
      have hans : Answers s msg t e me := ⟨hnot, hn, ⟨ty, a, hk, ha⟩, hme⟩
      have hpieces : Pieces W s (.mapReply msg ra env) s1 s' :=
        installRecords_pieces hans hact _ _ _ (List.Subset.refl _) _ _ hin
      exact (hpieces (hremoved.wf hw)).1.2.dead hlt hgone
    · obtain ⟨-, hstop⟩ | ⟨hbad, -⟩ := hend
      · exact hstop.kind_none
      · cases hbad

theorem Reach.evolves {ok : Xtr R → XtrEvent → Prop} (hw : s1.Wf)
    (h : Reach (xtrStep W) (· = s1) ok s2) : s2.Wf ∧ Evolves W s1 s2 := by
  refine Reach.invariant (I := fun s => s.Wf ∧ Evolves W s1 s) ?_ ?_ h
  · rintro s rfl
    exact ⟨hw, .refl _⟩
  · intro s ev out s' hI _ hstep
    obtain ⟨⟨hw', hev⟩, -⟩ := xtrStep_changes ev out s' hstep hI.1
    exact ⟨hw', hI.2.trans hev⟩

/-- Once a Map-Reply is accepted, no message with its nonce, or with another nonce of the timer it
was matched to, is accepted in any later state, provided `nonce_new` does not repeat itself. -/
theorem accepted_nonce_replay {P : XtrConf R → Prop} {ok ok' : Xtr R → XtrEvent → Prop}
    {env' : CtrlEnv} {msg' : MapReplyMsg} {ra' : LispAddr} (h : XtrReach W P ok s)
    (hn : s.ts.nonces msg.nonce = some t)
    (hrun : (trRecvMapReply W env msg ra).run s = .ok (.GOOD, s1))
    (hlater : Reach (xtrStep W) (· = s1) ok' s2)
    (hnew : ∀ i < s2.nonceCalls, ∀ j < s2.nonceCalls, W.nonceNew i = W.nonceNew j → i = j)
    (hnonce : msg'.nonce = msg.nonce ∨ (msg'.nonce, t) ∈ s.ts.issued) :
    (trRecvMapReply W env' msg' ra').run s2 = .ok (.BAD, s2) := by
  obtain ⟨hw, hissued⟩ := h.wf
  have hmine : (msg'.nonce, t) ∈ s.ts.issued := by
    rcases hnonce with heq | hmem
    · rw [heq]
      exact hw.timers.nonce_issued _ _ hn
    · exact hmem
  have hlt : t < s.ts.timers.next := hw.timers.issued_old _ _ hmine
  have hpieces : Pieces W s (.mapReply msg ra env) s s1 := trRecvMapReply_pieces _ _ hrun
  obtain ⟨hw1, hev1⟩ := (hpieces hw).1
  obtain ⟨hw2, hev2⟩ := hlater.evolves hw1
  have hdead : s2.ts.kind t = none := hev2.dead (Nat.lt_of_lt_of_le hlt hev1.ts.next)
    (accepted_reply_released hw hn hrun)
  -- a nonce that is still in the table belongs to a live timer, and was issued once
  have hunknown : s2.ts.nonces msg'.nonce = none := by
    cases hn2 : s2.ts.nonces msg'.nonce with
    | none => rfl
    | some t' =>
      obtain ⟨x, hx⟩ := hw2.timers.nonce_kind hn2
      have hthere := hw2.timers.nonce_issued _ _ hn2
      have hhere := hev2.ts.issued _ (hev1.ts.issued _ hmine)
      have honce := (hev2.issued (hev1.issued hissued)).once hnew
      have heq := List.inj_on_of_nodup_map honce hthere hhere rfl
      cases heq
      rw [hdead] at hx
      cases hx
  rw [trRecvMapReply, get_bind_ok, htableNoncesLookup, hunknown]
  exact pure_ok.mpr ⟨rfl, rfl⟩

end MapReplies

/-- A miss and the answer to its Map-Request. -/
theorem map_reply_effect_missed :
    ∃ s me r s', LabReach s ∧
      Answers s (labReplyMsg 0 false [labRecord 0xc0000200#32 1]) 1 1 me ∧
      me.active = .NOT_ACTIVE ∧
      (trRecvMapReply labWorld labEnv (labReplyMsg 0 false [labRecord 0xc0000200#32 1])
        (.ip (.v4 2))).run s = .ok (r, s') ∧ OnlyInstalled s 1 [labKey] s' := by
  have hrun : ∃ s, LabReach s ∧
      s.ts.nonces 0 = some 1 ∧
      s.ts.kind 1 = some (.MAP_REQUEST_RETRY_TIMER, .mapReq 1 (.ip (.v4 0x0a000001#32))) ∧
      (∃ me, s.mces.cell 1 = some me ∧ me.active = .NOT_ACTIVE) ∧
      ∃ r s', (trRecvMapReply labWorld labEnv (labReplyMsg 0 false [labRecord 0xc0000200#32 1])
        (.ip (.v4 2))).run s = .ok (r, s') ∧ True :=
    XtrReach.of_events labConf labEnv [labPacket] trivial (by decide +kernel)
  obtain ⟨s, hs, hn, hk, ⟨me, hme, hact⟩, r, s', hr, -⟩ := hrun
  have hans : Answers s (labReplyMsg 0 false [labRecord 0xc0000200#32 1]) 1 1 me :=
    ⟨rfl, hn, ⟨_, _, hk, rfl⟩, hme⟩
  exact ⟨s, me, r, s', hs, hans, hact, hr, (map_reply_effect hs hans hr).1 hact⟩

/-- The Map-Request for `192.0.2.1` is answered with a record for `198.51.100.0/24`, which does not
cover that address and is installed all the same. -/
theorem unrelated_record_installed :
    (∃ s, LabReach s ∧
      s.ts.nonces 0 = some 1 ∧
      s.ts.kind 1 = some (.MAP_REQUEST_RETRY_TIMER, .mapReq 1 (.ip (.v4 0x0a000001#32))) ∧
      (s.mces.cell 1).map (·.mapping.eidPrefix) = some (.ippref (.v4 0xc0000201#32) 32) ∧
      s.mapCache.stored (.ip .INET ((ipBits (.v4 0xc6336400#32)).take 24)) = none ∧
      ((trRecvMapReply labWorld labEnv (labReplyMsg 0 false [labRecord 0xc6336400#32 1])
        (.ip (.v4 2))).run s).toOption.any (fun r => r.1 = .GOOD ∧
          r.2.mapCache.stored (.ip .INET ((ipBits (.v4 0xc6336400#32)).take 24)) = some 2) =
            true) ∧
      ¬ (ipBits (.v4 0xc6336400#32)).take 24 <+: ipBits (.v4 0xc0000201#32) :=
  ⟨XtrReach.of_events labConf labEnv [labPacket] trivial (by decide +kernel), by decide +kernel⟩

/-- The answer to the Map-Request of a miss carries the nonce of its retry timer. -/
theorem nonce_respected_missed :
    ∃ s, LabReach s ∧
      s.ts.nonces 0 = some 1 ∧
      NonceRespected labWorld s (labReply 0 [labRecord 0xc0000200#32 1]) := by
  have hrun : ∃ s, LabReach s ∧
      s.ts.nonces 0 = some 1 ∧
      s.ts.kind 1 = some (.MAP_REQUEST_RETRY_TIMER, .mapReq 1 (.ip (.v4 0x0a000001#32))) :=
    XtrReach.of_events labConf labEnv [labPacket] trivial (by decide +kernel)
  obtain ⟨s, hs, hn, hk⟩ := hrun
  refine ⟨s, hs, hn, (nonce_respected_iff hs _).mpr ?_⟩
  intro t x hn' hk'
  cases hn.symm.trans hn'
  cases hk.symm.trans hk'
  exact .inl rfl

/-- The answer to a probe of the Proxy-ETRs is accepted with the nonce of the retry timer of a miss,
and releases that timer. -/
theorem foreign_nonce_accepted :
    ∃ s, LabReach s ∧
      s.ts.kind 1 = some (.MAP_REQUEST_RETRY_TIMER, .mapReq 1 (.ip (.v4 0x0a000001#32))) ∧
      ((trRecvMapReply labWorld labEnv (labReplyMsg 0 true [labRecord 0#32 1])
        (.ip (.v4 2))).run s).toOption.any
          (fun r => r.1 = .GOOD ∧ r.2.ts.kind 1 = none) = true ∧
      ¬ NonceRespected labWorld s
        (.mapReply (labReplyMsg 0 true [labRecord 0#32 1]) (.ip (.v4 2)) labEnv) := by
  have hrun : ∃ s, LabReach s ∧
      s.ts.nonces 0 = some 1 ∧
      s.ts.kind 1 = some (.MAP_REQUEST_RETRY_TIMER, .mapReq 1 (.ip (.v4 0x0a000001#32))) ∧
      ((trRecvMapReply labWorld labEnv (labReplyMsg 0 true [labRecord 0#32 1])
        (.ip (.v4 2))).run s).toOption.any
          (fun r => r.1 = .GOOD ∧ r.2.ts.kind 1 = none) = true :=
    XtrReach.of_events labConf labEnv [labPacket] trivial (by decide +kernel)
  obtain ⟨s, hs, hn, hk, hany⟩ := hrun
  refine ⟨s, hs, hk, hany, fun hresp => ?_⟩
  have hnot : ¬ Rejected (trRecvMapReply labWorld labEnv (labReplyMsg 0 true [labRecord 0#32 1])
      (.ip (.v4 2))) s := by
    rintro ⟨s', hbad, -⟩
    rw [hbad] at hany
    cases hany
  obtain ⟨rec, -, t, e, loc, me, hn', hk', -⟩ := hresp hnot
  cases hn.symm.trans hn'
  cases hk.symm.trans hk'

/-- The answer to the Map-Request of a miss is sent a second time, after another miss. -/
theorem accepted_nonce_replay_missed :
    ∃ s s1 s2, LabReach s ∧
      (trRecvMapReply labWorld labEnv (labReplyMsg 0 false [labRecord 0xc0000200#32 1])
        (.ip (.v4 2))).run s = .ok (.GOOD, s1) ∧
      Reach (xtrStep labWorld) (· = s1) (fun _ _ => True) s2 ∧ s2.nonceCalls = 2 ∧
      (trRecvMapReply labWorld labEnv (labReplyMsg 0 false [labRecord 0xc0000200#32 1])
        (.ip (.v4 2))).run s2 = .ok (.BAD, s2) := by
  have hrun : ∃ s, LabReach s ∧
      s.ts.nonces 0 = some 1 ∧
      ∃ r s1, (trRecvMapReply labWorld labEnv (labReplyMsg 0 false [labRecord 0xc0000200#32 1])
        (.ip (.v4 2))).run s = .ok (r, s1) ∧ r = .GOOD ∧
          ∃ s2, runWhile (xtrStep labWorld) (fun _ _ => True)
            [.packet ⟨.v4 0x0a000001#32, .v4 0xc6336401#32, 1, 1, 6⟩ labEnv] s1 = some s2 ∧
              s2.nonceCalls = 2 :=
    XtrReach.of_events labConf labEnv [labPacket] trivial (by decide +kernel)
  obtain ⟨s, hs, hn, _, s1, hr, rfl, s2, hs2, hcalls⟩ := hrun
  have hreach : Reach (xtrStep labWorld) (· = s1) (fun _ _ => True) s2 :=
    Reach.runWhile _ (.start rfl) hs2
  refine ⟨s, s1, s2, hs, hr, hreach, hcalls, ?_⟩
  refine accepted_nonce_replay hs hn hr hreach ?_ (.inl rfl)
  rw [hcalls]
  decide

end Lispmob
