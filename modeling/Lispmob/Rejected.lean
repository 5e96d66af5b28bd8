import Lispmob.SiteExpiration
import Lispmob.StaticEntries

/-!
# Messages that are rejected

A handler that returns `BAD` should leave no trace. Both handlers that work through the records of a
message commit as they go.

`tr_recv_map_reply` removes a placeholder before it reads the records that are to replace it. For
every other message that it rejects nothing changes (`rejected_reply_unchanged_iff`).

`ms_recv_map_register` stores every record right after checking it. A rejected message leaves the
Map-Server as it was exactly when no record before the bad one was accepted; the timers of the
registrations tell (`rejected_register_unchanged_iff`).
-/

namespace Lispmob

open Prog Heap

/-! ## Map-Replies -/

section Replies

variable {R F : Type} {W : World R F} {env : CtrlEnv} {s s' s1 : Xtr R} {t e : Nat}

/-- An entry that was released is not there again. -/
def StaysFree (e : Nat) (s s' : Xtr R) : Prop :=
  s.Wf ∧ e < s.mces.next ∧ s.mces.cell e = none →
    s'.Wf ∧ e < s'.mces.next ∧ s'.mces.cell e = none

theorem Idle.staysFree (h : Idle W s s') : StaysFree e s s' := by
  rintro ⟨hw, hlt, hfree⟩
  exact ⟨h.wf hw, Nat.lt_of_lt_of_le hlt h.next, by rw [h.cells, hfree]⟩

theorem Added.staysFree {m : Mapping} (h : Added W s s' m) : StaysFree e s s' := by
  rintro ⟨hw, hlt, hfree⟩
  obtain ⟨info, hmces⟩ := h.mces
  refine ⟨h.wf hw, ?_, ?_⟩
  · rw [hmces, alloc_next]
    omega
  · rw [hmces, alloc_cell, if_neg (Nat.ne_of_lt hlt), hfree]

theorem installRecords_staysFree (l : List RawRecord) :
    ∀ (probed : Probed) (s : Xtr R), Stays (StaysFree e) s (installRecords W env probed l) := by
  have htrans : ∀ s1 s2 s3 : Xtr R, StaysFree e s1 s2 → StaysFree e s2 s3 → StaysFree e s1 s3 :=
    fun _ _ _ h1 h2 h => h2 (h1 h)
  have hsame : ∀ {α : Type} {x : XtrM R α} {s : Xtr R},
      (∀ a s', x.run s = .ok (a, s') → s' = s) → Stays (StaysFree e) s x :=
    fun h => .of_same (fun _ => id) h
  induction l with
  | nil => exact fun _ _ => hsame (by simp [installRecords])
  | cons raw rest ih =>
    intro probed s
    refine .bind htrans (fun o s1 hp => ((parseReplyRecord_spec hp).1.idle (W := W)).staysFree)
      fun o s1 _ => ?_
    cases o with
    | none => exact hsame (by simp)
    | some p =>
      refine .bind htrans (fun u s2 hin hs => ?_) fun _ s2 _ => ih _ s2
      obtain ⟨s3, hadd, rfl⟩ | hidle := installRecord_cases hs.1 hin
      · obtain ⟨hw, hlt, hfree⟩ := hadd.staysFree hs
        exact ⟨hw.of_accepted, hlt, hfree⟩
      · exact hidle.staysFree hs

/-- Of the Map-Replies that `tr_recv_map_reply` rejects, those that answer a placeholder change the
map cache, and the others change neither the map cache nor a nonce or a timer. -/
theorem rejected_reply_unchanged_iff {msg : MapReplyMsg} {ra : LispAddr} (hw : s.Wf)
    (h : (trRecvMapReply W env msg ra).run s = .ok (.BAD, s')) :
    (s'.mapCache = s.mapCache ∧ s'.mces = s.mces ∧ s'.ts = s.ts) ↔
      ¬ AnswersPlaceholder s (.mapReply msg ra env) := by
  have hparsed : ∀ {x : Xtr R}, Parsed s x →
      x.mapCache = s.mapCache ∧ x.mces = s.mces ∧ x.ts = s.ts := by
    intro x hx
    rw [hx.rest]
    exact ⟨rfl, rfl, rfl⟩
  -- a message answers at most one entry
  have hone : ∀ {t ty a e me}, s.ts.nonces msg.nonce = some t → s.ts.kind t = some (ty, a) →
      a.asMapReqMce = .ok e → s.mces.cell e = some me → me.active = .ACTIVE →
      ¬ AnswersPlaceholder s (.mapReply msg ra env) := by
    rintro t ty a e me hn hk ha hme hact ⟨_, _, _, t', e', me', hev, hans, hplace⟩
    cases hev
    have he := hans.answeredEntry.symm.trans (answeredEntry_eq hn hk ha)
    cases he
    cases hme.symm.trans hans.cell
    rw [hplace] at hact
    cases hact
  obtain ⟨hn, -, rfl⟩ | ⟨t, hn, ⟨hprobe, h⟩ | ⟨hprobe, h⟩⟩ := trRecvMapReply_cases h
  · refine iff_of_true ⟨rfl, rfl, rfl⟩ ?_
    rintro ⟨_, _, _, t, e, me, hev, hans, -⟩
    cases hev
    cases hn.symm.trans hans.nonce
  · obtain ⟨-, hp⟩ | ⟨_, _, _, _, _, _, hret, -⟩ := recvMapReplyProbe_cases h
    · refine iff_of_true (hparsed hp) ?_
      rintro ⟨_, _, _, t, e, me, hev, hans, -⟩
      cases hev
      cases hprobe.symm.trans hans.notProbe
    · cases hret
  · obtain ⟨ty, a, e, me, hk, ha, hme, ⟨hact, r', s1, hrem, hin⟩ | ⟨hact, s1, href, hend⟩⟩ :=
      recvMapReplyNonProbe_cases h
    · -- the placeholder is gone, whatever became of the records
      obtain ⟨k, hkey, hst⟩ := hw.placeholder_stored hme hact
      have hremoved : Removed W s s1 k e := trMcacheRemoveEntry_stored hw hme hkey hst hrem
      have hfree : s1.Wf ∧ e < s1.mces.next ∧ s1.mces.cell e = none := by
        refine ⟨hremoved.wf hw, ?_, ?_⟩
        · rw [hremoved.mces, free_next]
          exact lt_next hme
        · rw [hremoved.mces, free_cell, if_pos rfl]
      obtain ⟨-, -, hgone⟩ := installRecords_staysFree _ _ _ _ _ hin hfree
      refine iff_of_false ?_ (not_not.mpr ⟨_, _, _, t, e, me, rfl,
        ⟨hprobe, hn, ⟨ty, a, hk, ha⟩, hme⟩, hact⟩)
      rintro ⟨-, hmces, -⟩
      rw [hmces, hme] at hgone
      cases hgone
    · obtain ⟨hret, -⟩ | ⟨-, rfl⟩ := hend
      · cases hret
      · obtain ⟨-, hp⟩ | ⟨_, _, hret, -⟩ := refreshRecord_cases href
        · exact iff_of_true (hparsed hp) (hone hn hk ha hme hact)
        · cases hret

end Replies

/-- The answer to an SMR-invoked Map-Request, with a locator that the router cannot use: a path
with a hop to be looked up. -/
def labElpReply : MapReplyMsg :=
  labReplyMsg 1 false [.wellFormed ⟨1, 0, 0, .ip (.v4 0xc0000200#32), 24,
    [⟨.elp [.mk true false false (.ip (.v4 9))], true, false, false, 1, 100, 255, 0⟩]⟩]

/-- It is rejected without a trace. -/
theorem rejected_reply_unchanged_elp :
    ∃ s s', LabReach s ∧
      (trRecvMapReply labWorld labEnv labElpReply (.ip (.v4 2))).run s = .ok (.BAD, s') ∧
      s.ts.nonces 1 = some 4 ∧
      s'.mapCache = s.mapCache ∧ s'.mces = s.mces ∧ s'.ts = s.ts := by
  have hrun : ∃ s, LabReach s ∧
      s.ts.nonces 1 = some 4 ∧
      s.ts.kind 4 = some (.SMR_INV_RETRY_TIMER, .mapReq 2 (.ippref (.v4 0x0a000000#32) 8)) ∧
      (∃ me, s.mces.cell 2 = some me ∧ me.active = .ACTIVE) ∧
      ∃ r s', (trRecvMapReply labWorld labEnv labElpReply (.ip (.v4 2))).run s = .ok (r, s') ∧
        r = .BAD :=
    XtrReach.of_events labConf labEnv
      [labPacket, labReply 0 [labRecord 0xc0000200#32 1], labSmr] trivial (by decide +kernel)
  obtain ⟨s, hs, hn, hk, ⟨me, hme, hact⟩, _, s', hr, rfl⟩ := hrun
  refine ⟨s, s', hs, hr, hn, (rejected_reply_unchanged_iff hs.wf.1 hr).mpr ?_⟩
  rintro ⟨_, _, _, _, e, me', hev, hans, hplace⟩
  cases hev
  cases hans.answeredEntry.symm.trans (answeredEntry_eq hn hk rfl)
  cases hme.symm.trans hans.cell
  rw [hplace] at hact
  cases hact

/-- The answer to the Map-Request for `192.0.2.1` is rejected for its second record. By then the
placeholder is gone and the first record is in the map cache. -/
theorem rejected_reply_installs :
    ∃ s, LabReach s ∧
      s.mapCache.stored (.ip .INET (ipBits (.v4 0xc0000201#32))) = some 1 ∧
      s.mapCache.stored labKey = none ∧ s.ts.nonces 0 = some 1 ∧
      ((trRecvMapReply labWorld labEnv
        (labReplyMsg 0 false [labRecord 0xc0000200#32 1, .malformed]) (.ip (.v4 2))).run
          s).toOption.any
          (fun r => decide (r.1 = .BAD ∧
            r.2.mapCache.stored (.ip .INET (ipBits (.v4 0xc0000201#32))) = none ∧
            r.2.mapCache.stored labKey = some 2 ∧ r.2.ts.nonces 0 = none)) = true :=
  XtrReach.of_events labConf labEnv [labPacket] trivial (by decide +kernel)

/-! ## Map-Registers -/

section Registers

variable {hmac : Hmac} {msg : MapRegisterMsg} {s s' : MapServer}

/-- A record is accepted before the loop ends: it matches a site prefix, the key of the message is
that of the site, and the site takes its EID. The checks are those the handler makes. -/
def acceptsSome (hmac : Hmac) (s : MapServer)
    (msg : MapRegisterMsg) (key : Option CString) : List RawRecord → Bool
  | [] => false
  | raw :: rest =>
    match siteMatch s raw with
    | some (m, _, site) =>
      match checkKey hmac msg.auth key site.key with
      | .refused => false
      | .other => acceptsSome hmac s msg key rest
      | .good key' =>
        (acceptsEid site m.eidPrefix).toOption = some true ||
          acceptsSome hmac s msg (some key') rest
    | none =>
      match parseRegisterRecord raw with
      | .ok (some _) => acceptsSome hmac s msg key rest
      | _ => false

theorem registerRecords_accepted_le {v : RegisterVars} {l : List RawRecord}
    {o : Option RegisterVars}
    (h : (registerRecords hmac msg v l).run s = .ok (o, s')) :
    s.accepted.length ≤ s'.accepted.length := by
  refine registerRecords_keeps (I := fun x => s.accepted.length ≤ x.accepted.length) h
    (Nat.le_refl _) fun raw _ x m sp site x' hx _ _ hr => ?_
  rw [hr.accepted, List.length_cons]
  omega

/-- The loop leaves the state as it is exactly when it accepts nothing. -/
theorem registerRecords_same_iff : ∀ {l : List RawRecord} {v : RegisterVars} {s' : MapServer}
    {o : Option RegisterVars}, (registerRecords hmac msg v l).run s = .ok (o, s') →
      (s' = s ↔ acceptsSome hmac s msg v.key l = false)
  | [], v, s', o, h => by
    obtain ⟨rfl, rfl⟩ := pure_ok.mp h
    exact iff_of_true rfl rfl
  | raw :: rest, v, s', o, h => by
    obtain ⟨x, s1, hrec, hrest⟩ := bind_ok.mp h
    cases registerRecord_cases hrec with
    | malformed hp =>
      obtain ⟨rfl, rfl⟩ := pure_ok.mp hrest
      simp [acceptsSome, siteMatch, hp]
    | unmatched hp hm =>
      rw [registerRecords_same_iff hrest]
      simp [acceptsSome, siteMatch, hp, hm]
    | refused hm hk =>
      obtain ⟨rfl, rfl⟩ := pure_ok.mp hrest
      simp [acceptsSome, hm, hk]
    | otherKey hm hk =>
      rw [registerRecords_same_iff hrest]
      simp [acceptsSome, hm, hk]
    | outside hm hk ha =>
      rw [registerRecords_same_iff hrest]
      simp [acceptsSome, hm, hk, ha, Except.toOption]
    | registered hm hk ha hr =>
      refine iff_of_false (fun heq => ?_) (by simp [acceptsSome, hm, hk, ha, Except.toOption])
      have hle := registerRecords_accepted_le hrest
      rw [hr.accepted, heq, List.length_cons] at hle
      omega

/-- A registration that lasts its whole lifetime from now on. -/
def Renewed (s : MapServer) : Prop :=
  ∃ t, s.ts.wheel.DueAt s.inTick s.now t (s.now + siteLifetime)

/-- A message that changes anything leaves a renewed registration. -/
theorem registerRecords_renewed {v : RegisterVars} {l : List RawRecord} {o : Option RegisterVars}
    (h : (registerRecords hmac msg v l).run s = .ok (o, s')) (hT : SiteTimers s) :
    s'.inTick = s.inTick ∧ s'.now = s.now ∧ (s' = s ∨ Renewed s') := by
  refine (registerRecords_keeps (I := fun x => SiteTimers x ∧ x.inTick = s.inTick ∧
    x.now = s.now ∧ (x = s ∨ Renewed x)) h ⟨hT, rfl, rfl, .inl rfl⟩ ?_).2
  rintro raw _ x m sp site x' ⟨hx, hin, hnow, -⟩ hmatch _ hr
  obtain ⟨hp, -⟩ := siteMatch_eq_some_iff.mp hmatch
  obtain ⟨_, _, nw, plen, -, -, -, heid, -⟩ := parseRegisterRecord_some hp
  obtain ⟨hin', hnow', -⟩ := hr.timers heid
  have hx' := hr.siteTimers heid hx
  refine ⟨hx', hin'.trans hin, hnow'.trans hnow, .inr ?_⟩
  have ha : ⟨sp, m, msg.proxyReply, x.now⟩ ∈ x'.accepted := by
    rw [hr.accepted]
    exact List.mem_cons_self
  have hk : mdbKey m.eidPrefix = some (prefixKey nw plen) := by
    rw [heid]
    rfl
  cases hst : x'.regSitesDb.stored (prefixKey nw plen) with
  | none =>
    have hle := hx'.gone _ hst _ ha hk
    simp only [hnow', siteLifetime] at hle
    omega
  | some r =>
    obtain ⟨t, n, ht⟩ := hx'.owned _ _ hst
    obtain ⟨a, hmem, -, hn⟩ := ht.since
    have hge := ht.latest _ ha hk
    have hle := hx'.tick_le a hmem
    simp only [← hnow'] at hge
    obtain rfl : n = x'.now + siteLifetime := by omega
    exact ⟨t, ht.due⟩

/-- A rejected Map-Register leaves the Map-Server as it was exactly when none of its records was
accepted before the handler gave up. The timers alone tell, unless a registration was renewed in the
same tick before. -/
theorem rejected_register_unchanged_iff {mntf : Option SentMapNotify}
    (h : (msRecvMapRegister hmac msg).run s = .ok ((.BAD, mntf), s')) :
    (s' = s ↔ acceptsSome hmac s msg none (readRecords msg.records msg.recCount.toNat) = false) ∧
      (SiteTimers s → ¬ Renewed s → (s'.ts = s.ts ↔ s' = s)) := by
  obtain ⟨o, hloop⟩ := msRecvMapRegister_records h
  refine ⟨registerRecords_same_iff hloop, fun hT hnew => ⟨fun hts => ?_, congrArg MapServer.ts⟩⟩
  obtain ⟨hin, hnow, hsame | hren⟩ := registerRecords_renewed hloop hT
  · exact hsame
  · rw [Renewed, hts, hin, hnow] at hren
    exact absurd hren hnew

end Registers

/-- A message that does not verify is rejected without a trace. -/
theorem rejected_register_unchanged_unverified : ∃ s',
    (msRecvMapRegister labHmac (labRegister labKeyAB true [labSiteRecord 0x0a000000#32 8 10])).run
      labServer = .ok ((.BAD, none), s') ∧ s' = labServer ∧
        (s'.ts = labServer.ts ↔ s' = labServer) := by
  obtain ⟨⟨_, _⟩, s', h, ⟨⟩, ⟨⟩⟩ : ∃ out s', (msRecvMapRegister labHmac
      (labRegister labKeyAB true [labSiteRecord 0x0a000000#32 8 10])).run labServer =
        .ok (out, s') ∧ out.1 = .BAD ∧ out.2 = none := by
    decide +kernel
  have hboot : Booted labMsConf labServer := MsStartedWith.booted ⟨(), rfl⟩
  have hnew : ¬ Renewed labServer := by
    rintro ⟨t, sp, -, hall, -⟩
    obtain ⟨l, hl, -⟩ := (hall sp).mpr rfl
    cases hl
  have hiff := rejected_register_unchanged_iff h
  exact ⟨s', h, hiff.1.mpr (by decide +kernel), hiff.2 (hboot.siteTimers rfl) hnew⟩

/-- The message is rejected for its second record. By then the first one is registered, with its
timer running. -/
theorem rejected_register_stores : MsStartedWith labMsConf labServer ∧
    labServer.regSitesDb.stored (.ip .INET ((ipBits (.v4 0x0a000000#32)).take 8)) = none ∧
    ((msRecvMapRegister labHmac
      (labRegister labKeyA true [labSiteRecord 0x0a000000#32 8 10, .malformed])).run
        labServer).toOption.any (fun r => decide (r.1.1 = .BAD ∧
          r.2.regSitesDb.stored (.ip .INET ((ipBits (.v4 0x0a000000#32)).take 8)) = some 0 ∧
          r.2.ts.kind 0 = some (.REG_SITE_EXPRY_TIMER, 0))) = true :=
  ⟨⟨(), rfl⟩, by decide +kernel, by decide +kernel⟩

end Lispmob
