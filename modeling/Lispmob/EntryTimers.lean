import Lispmob.XtrChanges

/-!
# Timers and the entries they belong to

When an entry expires or its Map-Requests stay unanswered, `tr_mcache_remove_entry` removes what is
stored under the EID of the entry. This is the entry itself as long as every entry that owns a timer
is in the map cache. `tr_mcache_add_mapping` does not ensure that: a prefix that is already in the
map cache gets a second entry, in no database, with its own timers.

`entry_timers_anchored` is the statement for the runs in which no Map-Reply installs a prefix that
is taken, and `duplicate_record_unanchored` a run with a Map-Reply of two equal records.
-/

namespace Lispmob

open Prog List Option

section EntryTimers

variable {R F : Type} {W : World R F} {env : CtrlEnv} {s s' s0 s1 s2 s3 : Xtr R} {t e : Nat}
  {ty : TimerType} {a : TimerArg} {me : Mce R} {r : Ret} {msg : MapReplyMsg} {ev : XtrEvent}
  {m : Mapping} {k : MdbKey} {u : Unit} {d : Nat}

/-- The entries that own a live timer, other than that of the Proxy-ETRs, are in the map cache. -/
def Anchored (s : Xtr R) : Prop :=
  ∀ t ty a e, s.ts.kind t = some (ty, a) → a.entry = some e → e ≠ s.petrs →
    ∃ k, s.mapCache.stored k = some e

/-! ## Effects -/

/-- No new timers of entries, and nothing leaves the map cache. -/
theorem Anchored.of_kind_le (hA : Anchored s) (hpetrs : s'.petrs = s.petrs)
    (hkind : ∀ t ty a e, s'.ts.kind t = some (ty, a) → a.entry = some e →
      s.ts.kind t = some (ty, a))
    (hstored : ∀ k e, s.mapCache.stored k = some e → s'.mapCache.stored k = some e) :
    Anchored s' := by
  intro t ty a e hk he hne
  rw [hpetrs] at hne
  obtain ⟨k, hst⟩ := hA t ty a e (hkind t ty a e hk he) he hne
  exact ⟨k, hstored k e hst⟩

theorem Idle.anchored (h : Idle W s s') (hA : Anchored s) : Anchored s' := by
  refine hA.of_kind_le (by rw [h.rest]) (fun t _ _ _ hk _ => h.kind t ▸ hk) fun k e hk => ?_
  rw [h.stored, hk]

theorem LocalOnly.anchored (h : LocalOnly W s s') (hw : s.Wf) (hA : Anchored s) : Anchored s' := by
  refine hA.of_kind_le (by rw [h.rest]) (fun t ty a e hk he => ?_) fun k e hk => ?_
  · exact ((h.entries hw.timers hw.smr).kind t ty a e he).mp hk
  · rw [show s'.mapCache = s.mapCache by rw [h.rest], hk]

theorem Touched.anchored (h : Touched W s s') (hA : Anchored s) : Anchored s' := by
  rw [h.rest]
  exact hA

theorem Edited.anchored {me me' : Mce R} (h : Edited W s s' e me me') (hA : Anchored s) :
    Anchored s' := by
  rw [h.rest]
  exact hA

theorem Refired.anchored (h : Refired W s s' t) (hA : Anchored s) : Anchored s' := by
  obtain ⟨ticks, hr⟩ := h.relinked
  rw [h.rest]
  exact hA.of_kind_le rfl (fun i _ _ _ hk _ => hr.kind i ▸ hk) fun _ _ hk => hk

theorem TimerStopped.anchored (h : TimerStopped W s s' t) (hw : s.Wf) (hA : Anchored s) :
    Anchored s' := by
  refine hA.of_kind_le (by rw [h.rest]) (fun i _ _ _ hk _ => ?_) fun k e hk => ?_
  · exact (h.released hw.timers).kind_le i _ hk
  · rw [show s'.mapCache = s.mapCache by rw [h.rest], hk]

theorem Removed.anchored (h : Removed W s s' k d) (hA : Anchored s) : Anchored s' := by
  intro t ty a e hk he hne
  obtain ⟨hk', hnot⟩ := (h.released.kind t _).mp hk
  have hed : e ≠ d := by
    rintro rfl
    exact hnot ⟨ty, a, hk', he⟩
  rw [show s'.petrs = s.petrs by rw [h.rest]] at hne
  obtain ⟨k', hst⟩ := hA t ty a e hk' he hne
  refine ⟨k', ?_⟩
  rw [h.stored, if_neg, hst]
  rintro rfl
  rw [h.was] at hst
  exact hed (some.inj hst).symm

/-- New timers of entries that are in the map cache, or of the Proxy-ETRs. -/
theorem Anchored.of_new (hA : Anchored s) (hrest : s' = { s with ts := s'.ts })
    (hkind : ∀ t ty a e, s'.ts.kind t = some (ty, a) → a.entry = some e →
      s.ts.kind t = some (ty, a) ∨ e = s.petrs ∨ ∃ k, s.mapCache.stored k = some e) :
    Anchored s' := by
  intro t ty a e hk he hne
  rw [show s'.petrs = s.petrs by rw [hrest]] at hne
  rw [show s'.mapCache = s.mapCache by rw [hrest]]
  rcases hkind t ty a e hk he with hk | hp | hst
  · exact hA t ty a e hk he hne
  · exact absurd hp hne
  · exact hst

theorem StartedFor.anchored {ticks : Nat} (h : StartedFor W s s' ty a ticks) (hw : s.Wf)
    (ha : a.entry = some e) (hst : e = s.petrs ∨ ∃ k, s.mapCache.stored k = some e)
    (hA : Anchored s) : Anchored s' := by
  refine hA.of_new h.rest fun t ty' a' e' hk he' => ?_
  rcases (h.grown hw.timers).kind_cases hk with hk | ⟨-, y, hy, heq⟩
  · exact .inl hk
  · rw [mem_singleton] at hy
    subst hy
    cases heq
    rw [ha] at he'
    cases he'
    exact .inr hst

theorem Reprobed.anchored (h : Reprobed W s s' e)
    (hst : e = s.petrs ∨ ∃ k, s.mapCache.stored k = some e) (hA : Anchored s) : Anchored s' := by
  refine hA.of_new h.rest fun t ty a e' hk he' => ?_
  by_cases hoff : s.probeInterval = 0
  · rw [h.off hoff] at hk
    exact .inl hk
  · obtain ⟨ts, me, -, hrel, hgrown⟩ := h.on hoff
    rcases hgrown.kind_cases hk with hk | ⟨-, y, hy, heq⟩
    · exact .inl (hrel.kind_le t _ hk)
    · obtain ⟨l, -, rfl⟩ := mem_map.mp hy
      cases heq
      cases he'
      exact .inr hst

theorem Listed.anchored (h : Listed W s s' ty a) (ha : a.entry = some e)
    (hst : ∃ k, s.mapCache.stored k = some e) (hA : Anchored s) : Anchored s' := by
  refine hA.of_new h.rest fun t ty' a' e' hk he' => ?_
  rw [h.kind] at hk
  split_ifs at hk
  · cases hk
    rw [ha] at he'
    cases he'
    exact .inr (.inr hst)
  · exact .inl hk

theorem EntryCreated.anchored (h : EntryCreated s s' me) (hA : Anchored s) : Anchored s' := by
  refine hA.of_kind_le (by rw [h.rest]) (fun t _ _ _ hk _ => ?_) fun k e hk => h.stored_old hk
  rw [show s'.ts = s.ts by rw [h.rest]] at hk
  exact hk

theorem Added.anchored (h : Added W s s' m)
    (hfree : ∀ k, mdbKey m.eidPrefix = some k → s.mapCache.stored k = none) (hA : Anchored s) :
    Anchored s' := by
  obtain ⟨info, hc⟩ := h.created
  have hrest : s' = { { s' with ts := s.ts } with ts := s'.ts } := rfl
  refine (hc.anchored hA).of_new hrest fun t ty a e hk he => ?_
  rcases h.grown.kind_cases hk with hk | ⟨-, y, hy, heq⟩
  · exact .inl hk
  · have hent := (mem_entryTimers hy).1
    rw [show y.2.1 = a from congrArg Prod.snd heq, he] at hent
    cases hent
    obtain ⟨k, hkey, hst⟩ := h.stored
    exact .inr (.inr ⟨k, (hst k).trans (by rw [if_pos rfl, hfree k hkey, getD_none])⟩)

/-! ## Callbacks -/

theorem trMcacheRemoveEntry_anchored (W : World R F) (hw : s.Wf) (hA : Anchored s)
    (h : (trMcacheRemoveEntry e).run s = .ok (r, s')) : Anchored s' := by
  obtain ⟨me, -, ⟨k, d, -, hrem⟩ | ⟨-, hidle⟩⟩ := trMcacheRemoveEntry_cases (W := W) hw h
  · exact hrem.anchored hA
  · exact hidle.anchored hA

theorem Handled.anchored (h : Handled W t s s') (hw : s.Wf) (hA : Anchored s) : Anchored s' := by
  cases h with
  | idle h => exact h.anchored hA
  | touched h => exact h.anchored hA
  | refired ht h => exact h.anchored (ht.anchored hA)
  | removed h => exact trMcacheRemoveEntry_anchored W hw hA h

theorem timerCb_anchored (hw : s.Wf) (hA : Anchored s)
    (h : (timerCb W env t).run s = .ok (u, s')) : Anchored s' := by
  obtain h | h := timerCb_handled h
  · exact h.anchored hw hA
  · exact h.anchored hw hA

/-! ## Steps without a placeholder's answer -/

theorem missed_stored {a : IpAddr} {info : Option R}
    (hmiss : mdbLookupEntry s.mapCache (.ip a) = .ok none)
    (hc : EntryCreated s s1 ⟨.MCE_DYNAMIC, .NOT_ACTIVE, mappingNewInit (.ip a), info⟩) :
    ∃ k, s1.mapCache.stored k = some s.mces.next := by
  obtain ⟨k, hkey, hst⟩ := hc.stored
  exact ⟨k, by rw [hst, if_pos rfl, free_of_miss hmiss hkey, getD_none]⟩

theorem Refreshed.anchored (h : Refreshed W s s' e m) (hw : s.Wf)
    (hst : ∃ k, s.mapCache.stored k = some e) (hA : Anchored s) : Anchored s' := by
  obtain ⟨me, me', s1, s2, s3, hed, -, htimer, hprobe, rfl⟩ := h
  have hw1 := hed.wf hw
  have hst1 : ∃ k, s1.mapCache.stored k = some e := by
    rw [hed.rest]
    exact hst
  have hst2 : ∃ k, s2.mapCache.stored k = some e := by
    rw [htimer.rest]
    exact hst1
  have hw2 : s2.Wf := htimer.wf hw1 rfl hed.is nofun
  have hA2 : Anchored s2 := htimer.anchored hw1 rfl (.inr hst1) (hed.anchored hA)
  exact (hprobe hw2.timers).anchored (.inr hst2) hA2

/-- The entry of a probe answer is that of the Proxy-ETRs or in the map cache. -/
theorem ProbeTarget.stored {eid : LispAddr} (h : ProbeTarget s eid (some d)) :
    d = s.petrs ∨ ∃ k, s.mapCache.stored k = some d := by
  obtain ⟨d', hd, heq⟩ | ⟨-, mp, -, heq⟩ := h
  · cases heq
    exact .inr (lookupExact_stored hd)
  · split_ifs at heq
    cases heq
    exact .inl rfl

/-- The event is a Map-Reply that answers the Map-Request for a placeholder. -/
def AnswersPlaceholder (s : Xtr R) (ev : XtrEvent) : Prop :=
  ∃ msg ra env t e me, ev = .mapReply msg ra env ∧ Answers s msg t e me ∧ me.active = .NOT_ACTIVE

/-- Every piece of the other events keeps the entries with timers in the map cache. -/
theorem Change.anchored (h : Change W s0 ev s s')
    (hnot : ¬ AnswersPlaceholder s0 ev) (hw : s.Wf) (hA : Anchored s) : Anchored s' := by
  cases h with
  | idle h => exact h.anchored hA
  | localOnly h => exact h.anchored hw hA
  | missed miss created listed sent =>
    have hA2 := listed.anchored rfl (missed_stored miss created) (created.anchored hA)
    exact (sendMapRequestRetryCb_handled sent).anchored (missed_wf miss hw created listed) hA2
  | solicited found listed sent =>
    exact (smrInvokedMapRequestCb_handled sent).anchored (solicited_wf found hw listed)
      (listed.anchored rfl (lookup_stored found) hA)
  | discarded answers placeholder _ =>
    exact absurd ⟨_, _, _, _, _, _, rfl, answers, placeholder⟩ hnot
  | installed answers placeholder _ _ _ _ _ =>
    exact absurd ⟨_, _, _, _, _, _, rfl, answers, placeholder⟩ hnot
  | refreshed _ _ _ _ _ parsed found refreshed =>
    refine refreshed.anchored ((parsed.idle (W := W)).wf hw) ?_ ((parsed.idle (W := W)).anchored hA)
    rw [parsed.rest]
    exact lookupExact_stored found
  | answered _ _ _ stopped => exact stopped.anchored hw hA
  | probed _ _ parsed _ _ _ target handled stopped =>
    have hw1 := (parsed.idle (W := W)).wf hw
    have hA1 := (parsed.idle (W := W)).anchored hA
    refine stopped.anchored (handleLocatorProbeReply_safe _ _ handled hw1).1 ?_
    obtain ⟨me, hme, ⟨-, rfl⟩ | ⟨loct, s3, -, ht, hstart⟩⟩ := handleLocatorProbeReply_cases handled
    · exact hA1
    · refine hstart.anchored (ht.wf hw1) rfl ?_ (ht.anchored hA1)
      rw [ht.rest, parsed.rest]
      exact target.stored
  | merged stored edited _ probed =>
    refine probed.anchored (.inr ?_) (edited.anchored hA)
    rw [edited.rest]
    exact stored
  | ticked _ => exact hA
  | spokeDone _ => exact hA
  | rotated _ => exact hA
  | fired _ _ _ called =>
    exact timerCb_anchored (wheel_safe (W := W) (fun hw => hw.unlink) hw).1 hA called

/-! ## Answers for placeholders -/

/-- The keys of the records of a message, up to the first that does not parse. -/
def recordKeys (l : List RawRecord) : List MdbKey :=
  (parsedRecords l).filterMap fun r => mdbKey r.eidPrefix

theorem recordKeys_wellFormed (r : MappingRecord) (rest : List RawRecord) :
    recordKeys (.wellFormed r :: rest) = (mdbKey r.eidPrefix).toList ++ recordKeys rest := by
  simp only [recordKeys, parsedRecords, filterMap_cons]
  cases mdbKey r.eidPrefix <;> rfl

/-- Records with keys that are free and differ from each other. -/
theorem installRecords_anchored (l : List RawRecord) : ∀ (probed : Probed) {s s' : Xtr R} {r : Ret},
    (recordKeys l).Nodup → (∀ k ∈ recordKeys l, s.mapCache.stored k = none) → s.Wf → Anchored s →
      (installRecords W env probed l).run s = .ok (r, s') → Anchored s' := by
  induction l with
  | nil =>
    intro probed s s' r _ _ _ hA h
    rw [installRecords, pure_ok] at h
    exact h.2 ▸ hA
  | cons raw rest ih =>
    intro probed s s' r hnodup hfree hw hA h
    rw [installRecords, bind_ok] at h
    obtain ⟨o, s1, hp, h⟩ := h
    obtain ⟨hparsed, hsome⟩ := parseReplyRecord_spec hp
    have hidle : Idle W s s1 := hparsed.idle
    cases o with
    | none =>
      obtain ⟨-, rfl⟩ := pure_ok.mp h
      exact hidle.anchored hA
    | some p =>
      obtain ⟨hret, hmsg, -⟩ := hsome p rfl
      obtain ⟨rec, rfl, heid, -⟩ := lispMsgParseMappingRecord_good hmsg hret
      obtain ⟨u, s2, hin, h⟩ := bind_ok.mp h
      have hw1 := hidle.wf hw
      have hA1 := hidle.anchored hA
      have hw2 : s2.Wf := by
        obtain ⟨s2, hadd, rfl⟩ | hid := installRecord_cases hw1 hin
        · exact (hadd.wf hw1).of_accepted
        · exact hid.wf hw1
      rw [recordKeys_wellFormed] at hnodup hfree
      refine ih p.probed (nodup_append.mp hnodup).2.1 (fun k hk => ?_) hw2 ?_ h
      · have hk1 : s1.mapCache.stored k = none := by
          rw [hidle.stored]
          exact hfree k (mem_append_right _ hk)
        obtain ⟨s2, hadd, rfl⟩ | hid := installRecord_cases hw1 hin
        · obtain ⟨k', hkey, hst⟩ := hadd.stored
          rw [heid] at hkey
          have hne : k ≠ k' := by
            rintro rfl
            rw [hkey] at hnodup
            exact (nodup_append.mp hnodup).2.2 k (mem_singleton.mpr rfl) k hk rfl
          exact (hst k).trans (by rw [if_neg hne, hk1])
        · rw [hid.stored, hk1]
      · obtain ⟨s2, hadd, rfl⟩ | hid := installRecord_cases hw1 hin
        · refine hadd.anchored (fun k hkey => ?_) hA1
          rw [hidle.stored]
          rw [heid] at hkey
          rw [hkey] at hfree
          exact hfree k (mem_cons_self)
        · exact hid.anchored hA1

/-- The entry whose Map-Request a Map-Reply is taken to answer, by its nonce. -/
def answeredEntry (s : Xtr R) (msg : MapReplyMsg) : Option Nat :=
  (s.ts.nonces msg.nonce).bind fun t =>
    (s.ts.kind t).bind fun x => x.2.asMapReqMce.toOption

theorem answeredEntry_eq (hn : s.ts.nonces msg.nonce = some t) (hk : s.ts.kind t = some (ty, a))
    (ha : a.asMapReqMce = .ok e) : answeredEntry s msg = some e := by
  rw [answeredEntry, hn, bind_some, hk, bind_some, ha]
  rfl

theorem Answers.answeredEntry (h : Answers s msg t e me) : answeredEntry s msg = some e := by
  obtain ⟨ty, a, hk, ha⟩ := h.arg
  exact answeredEntry_eq h.nonce hk ha

/-- The records of a message have keys that differ from each other and are free, or that of the
entry `e`. -/
def FreshFor (s : Xtr R) (e : Nat) (l : List RawRecord) : Prop :=
  (recordKeys l).Nodup ∧
    ∀ k ∈ recordKeys l, s.mapCache.stored k = none ∨ s.mapCache.stored k = some e

instance (s : Xtr R) (e : Nat) (l : List RawRecord) : Decidable (FreshFor s e l) :=
  inferInstanceAs (Decidable (_ ∧ _))

/-- A Map-Reply for a placeholder installs prefixes that differ from each other and are free, or
that of the placeholder itself. -/
def InstallsFresh (s : Xtr R) : XtrEvent → Prop
  | .mapReply msg _ _ => msg.rlocProbe = false → ∀ e ∈ answeredEntry s msg,
      ∀ me ∈ s.mces.cell e, me.active = .NOT_ACTIVE →
        FreshFor s e (readRecords msg.records msg.recCount.toNat)
  | _ => True

instance (s : Xtr R) : ∀ ev, Decidable (InstallsFresh s ev)
  | .mapReply msg _ _ => inferInstanceAs (Decidable (msg.rlocProbe = false → ∀ e ∈ _, _))
  | .packet .. | .mapRequest .. | .mapNotify .. | .ifEvent .. | .tick | .wheel .. =>
    inferInstanceAs (Decidable True)

/-- An answer for a placeholder that installs fresh prefixes only. -/
theorem recvMapReplyNonProbe_anchored (hans : Answers s msg t e me) (hact : me.active = .NOT_ACTIVE)
    (hfresh : FreshFor s e (readRecords msg.records msg.recCount.toNat)) (hw : s.Wf)
    (hA : Anchored s) (h : (recvMapReplyNonProbe W env t msg).run s = .ok (r, s')) :
    Anchored s' := by
  obtain ⟨ty, a, hk, ha⟩ := hans.arg
  obtain ⟨ty', a', e', me', hk', ha', hme', hcases⟩ := recvMapReplyNonProbe_cases h
  have hx : (ty, a) = (ty', a') := some.inj (hk.symm.trans hk')
  cases hx
  have he : e = e' := Except.ok.inj (ha.symm.trans ha')
  subst he
  have hme : me = me' := some.inj (hans.cell.symm.trans hme')
  subst hme
  obtain ⟨-, r', s1, hrem, hin⟩ | ⟨hact', -⟩ := hcases
  · obtain ⟨k0, hkey0, hst0⟩ := hw.placeholder_stored hans.cell hact
    have hremoved : Removed W s s1 k0 e := trMcacheRemoveEntry_stored hw hans.cell hkey0 hst0 hrem
    refine installRecords_anchored _ _ hfresh.1 (fun k hk => ?_) (hremoved.wf hw)
      (hremoved.anchored hA) hin
    -- the only prefix that was taken is that of the placeholder
    rw [hremoved.stored]
    split_ifs with hkk
    · rfl
    · rcases hfresh.2 k hk with hnone | hsome
      · exact hnone
      · exact absurd (hw.stored_inj hsome hst0) hkk
  · rw [hact] at hact'
    cases hact'

/-- A step keeps the entries with timers in the map cache, if it installs fresh prefixes only. -/
theorem xtrStep_anchored {out : XtrOut F} (hok : InstallsFresh s ev) (hw : s.Wf)
    (hA : Anchored s) (h : (xtrStep W ev).run s = .ok (out, s')) : Anchored s' := by
  by_cases hph : AnswersPlaceholder s ev
  · obtain ⟨msg, ra, env, t, e, me, rfl, hans, hact⟩ := hph
    have hfresh : FreshFor s e (readRecords msg.records msg.recCount.toNat) := by
      obtain ⟨ty, a, hk, ha⟩ := hans.arg
      exact hok hans.notProbe e (answeredEntry_eq hans.nonce hk ha) me hans.cell hact
    obtain rfl | h := xtrStep_cases h
    · exact hA
    · simp only [processEvent, bind_ok, pure_ok] at h
      obtain ⟨r, _, h, -, rfl⟩ := h
      obtain ⟨hnone, -⟩ | ⟨t', hn, ⟨hprobe, -⟩ | ⟨-, h⟩⟩ := trRecvMapReply_cases h
      · rw [hans.nonce] at hnone
        cases hnone
      · rw [hans.notProbe] at hprobe
        cases hprobe
      · have ht : t = t' := some.inj (hans.nonce.symm.trans hn)
        subst ht
        exact recvMapReplyNonProbe_anchored hans hact hfresh hw hA h
  · exact (xtrStep_changes ev out s' h).keeps (fun a b hwa hc => hc.anchored hph hwa) hw hA

/-! ## Runs -/

/-- The keys of the multicast pairs among the EIDs of a list of mappings. -/
def mcKeys (l : List Mapping) : List MdbKey :=
  l.filterMap fun m =>
    match m.eidPrefix with
    | .mc sp gp iid src grp => mdbKey (.mc sp gp iid src grp)
    | _ => none

/-- The static entries for multicast pairs have different EIDs. The exact match that skips a prefix
configured twice does not find every multicast pair. -/
def McStaticsDistinct (conf : XtrConf R) : Prop :=
  (mcKeys conf.statics).Nodup

theorem mcKeys_cons (m : Mapping) (rest : List Mapping) :
    ∃ l, mcKeys (m :: rest) = l ++ mcKeys rest ∧
      ((∃ sp gp iid src grp, m.eidPrefix = .mc sp gp iid src grp ∧
        l = (mdbKey m.eidPrefix).toList) ∨
      ((∀ sp gp iid src grp, m.eidPrefix ≠ .mc sp gp iid src grp) ∧ l = [])) := by
  simp only [mcKeys, filterMap_cons]
  cases heid : m.eidPrefix with
  | mc sp gp iid src grp =>
    refine ⟨(mdbKey (.mc sp gp iid src grp)).toList, ?_, .inl ⟨sp, gp, iid, src, grp, rfl, rfl⟩⟩
    simp only
    cases mdbKey (.mc sp gp iid src grp) <;> rfl
  | _ => exact ⟨[], rfl, .inr ⟨by simp, rfl⟩⟩

/-- The key of an EID that is no multicast pair differs from those of multicast pairs. -/
theorem mdbKey_ne_mc {a : LispAddr} {l : List Mapping}
    (hmc : ∀ sp gp iid src grp, a ≠ .mc sp gp iid src grp) (hkey : mdbKey a = some k) :
    k ∉ mcKeys l := by
  intro hmem
  obtain ⟨m, -, hm⟩ := mem_filterMap.mp hmem
  split at hm
  · rename_i sp gp iid src grp _
    cases src <;> cases grp <;> simp only [mdbKey, reduceCtorEq, some.injEq] at hm
    subst hm
    cases a <;> simp only [mdbKey, reduceCtorEq, some.injEq] at hkey
    exact hmc _ _ _ _ _ rfl
  · cases hm

theorem configureStatic_anchored (l : List Mapping) : ∀ {s s' : Xtr R} {u : PUnit},
    (mcKeys l).Nodup → (∀ k ∈ mcKeys l, s.mapCache.stored k = none) → s.Wf → Anchored s →
      (l.forM (configureStatic W env)).run s = .ok (u, s') → s'.Wf ∧ Anchored s' := by
  induction l with
  | nil =>
    intro s s' u _ _ hw hA h
    obtain ⟨-, rfl⟩ := pure_ok.mp h
    exact ⟨hw, hA⟩
  | cons m rest ih =>
    intro s s' u hnodup hfree hw hA h
    obtain ⟨_, s1, h1, h⟩ := bind_ok.mp h
    have hconf := configureStatic_cases hw h1
    have hw1 := (hconf.safe hw).1
    obtain ⟨l, hcons, hl⟩ := mcKeys_cons m rest
    rw [hcons] at hnodup hfree
    have hfree' : ∀ k ∈ mcKeys rest, s.mapCache.stored k = none := fun k hk =>
      hfree k (mem_append_right _ hk)
    -- the key of the new entry is free and not one of those to come
    have hnew : ∀ k, mdbKey m.eidPrefix = some k →
        mdbLookupEntryExact s.mapCache m.eidPrefix = .ok none →
        s.mapCache.stored k = none ∧ k ∉ mcKeys rest := by
      intro k hkey hlook
      obtain ⟨sp, gp, iid, src, grp, -, rfl⟩ | ⟨hmc, -⟩ := hl
      · rw [hkey] at hnodup hfree
        refine ⟨hfree k mem_cons_self, fun hmem => ?_⟩
        exact (nodup_append.mp hnodup).2.2 k (mem_singleton.mpr rfl) k hmem rfl
      · exact ⟨mdbLookupEntryExact_none hlook hkey hmc, mdbKey_ne_mc hmc hkey⟩
    refine ih (nodup_append.mp hnodup).2.1 (fun k hk => ?_) hw1 ?_ h
    · cases hconf with
      | skipped hidle => rw [hidle.stored, hfree' k hk]
      | leaked info hs =>
        rw [hs]
        exact hfree' k hk
      | added info s2 hlook hc hp =>
        have hrep := hp (hc.wf hw nofun).timers
        obtain ⟨k', hkey, hst⟩ := hc.stored
        rw [hrep.rest]
        refine (hst k).trans ?_
        rw [if_neg, hfree' k hk]
        rintro rfl
        exact (hnew k hkey hlook).2 hk
    · cases hconf with
      | skipped hidle => exact hidle.anchored hA
      | leaked info hs =>
        rw [hs]
        exact hA
      | added info s2 hlook hc hp =>
        have hrep := hp (hc.wf hw nofun).timers
        refine hrep.anchored (.inr ?_) (hc.anchored hA)
        obtain ⟨k', hkey, hst⟩ := hc.stored
        exact ⟨k', by rw [hst, if_pos rfl, (hnew k' hkey hlook).1, getD_none]⟩

theorem StartedWith.anchored (h : StartedWith W McStaticsDistinct s) : Anchored s := by
  obtain ⟨conf, env, u, hconf, h⟩ := h
  obtain ⟨u', s1, hstat, hrun⟩ := boot_cases h
  have hA0 : Anchored (xtrCtrlConstruct conf) := by
    intro t ty a e hk
    cases hk
  obtain ⟨hw1, hA1⟩ := configureStatic_anchored conf.statics hconf (fun k _ => mdbNew_stored k)
    (xtrCtrlConstruct_wf conf) hA0 hstat
  cases hrun with
  | rtr _ hl => exact hl.anchored hw1 hA1
  | xtr s2 s3 _ ht hl hp =>
    have hw2 := ht.wf hw1
    have hw3 := hw2.of_local hl
    refine (hp hw3.timers).anchored (.inl ?_) (hl.anchored hw2 (ht.anchored hA1))
    rw [hl.rest, ht.rest]

/-- In the runs that install fresh prefixes only, the entries with timers are in the map cache. -/
theorem XtrReach.anchored (h : XtrReach W McStaticsDistinct InstallsFresh s) : Anchored s := by
  have hI : s.Wf ∧ Anchored s := by
    refine Reach.invariant (I := fun s => s.Wf ∧ Anchored s) (fun _ hs => ⟨hs.wf.1, hs.anchored⟩)
      ?_ h
    intro s ev out s' hI hok hstep
    exact ⟨(xtrStep_changes ev out s' hstep hI.1).1.1, xtrStep_anchored hok hI.1 hI.2 hstep⟩
  exact hI.2

/-- The timer `t` removes the entry `e` when it fires: it is the expiration timer of the entry, or
its Map-Requests are used up. -/
def RemovesEntry (s : Xtr R) (t e : Nat) : Prop :=
  ∃ ty a, s.ts.kind t = some (ty, a) ∧ a.entry = some e ∧
    (ty = .EXPIRE_MAP_CACHE_TIMER ∨
      (ty = .MAP_REQUEST_RETRY_TIMER ∧ ¬ s.ts.sent t - 1 < s.mapRequestRetries) ∨
      (ty = .SMR_INV_RETRY_TIMER ∧ ¬ s.ts.sent t - 1 < LISPD_MAX_SMR_RETRANSMIT))

/-- Such a timer calls `tr_mcache_remove_entry` for its entry. -/
theorem RemovesEntry.removes (hrem : RemovesEntry s t e)
    (h : (timerCb W env t).run s = .ok (u, s')) :
    ∃ r, (trMcacheRemoveEntry e).run s = .ok (r, s') := by
  obtain ⟨ty, a, hk, he, hty⟩ := hrem
  obtain ⟨e', hk', h⟩ | ⟨e', src, hk', r, h⟩ | ⟨e', src, hk', r, h⟩ | ⟨e', loc, hk', -⟩ |
    ⟨⟨ty', a', hk', hnone⟩, -⟩ := timerCb_cases h
  all_goals
    rw [hk] at hk'
    cases hk'
  · cases he
    exact h
  · cases he
    obtain hty | ⟨-, hout⟩ | ⟨hty, -⟩ := hty
    · cases hty
    · obtain ⟨hsent, -⟩ | ⟨hsent, -⟩ | ⟨-, h⟩ := sendMapRequestRetryCb_cases h
      · exact absurd hsent hout
      · exact absurd hsent hout
      · exact h
    · cases hty
  · cases he
    obtain hty | ⟨hty, -⟩ | ⟨-, hout⟩ := hty
    · cases hty
    · cases hty
    · obtain ⟨hsent, -⟩ | ⟨hsent, -⟩ | ⟨-, h⟩ := smrInvokedMapRequestCb_cases h
      · exact absurd hsent hout
      · exact absurd hsent hout
      · exact h
  · simp at hty
  · rw [he] at hnone
    cases hnone

/-- In the runs that install fresh prefixes only, an entry that owns a timer is the one stored under
its EID, and the timer that removes it removes nothing else. -/
theorem entry_timers_anchored (h : XtrReach W McStaticsDistinct InstallsFresh s) :
    (∀ t ty a e, s.ts.kind t = some (ty, a) → a.entry = some e → e ≠ s.petrs →
      ∃ me k, s.mces.cell e = some me ∧ mdbKey me.mapping.eidPrefix = some k ∧
        s.mapCache.stored k = some e) ∧
      ∀ t ts e env out s', handleTimersVisit s.ts = .expired t ts → s.inTick = true →
        RemovesEntry s t e → e ≠ s.petrs → (xtrStep W (.wheel env)).run s = .ok (out, s') →
          (∀ i, s'.mces.cell i = if i = e then none else s.mces.cell i) ∧
          ∀ k, s'.mapCache.stored k =
            if s.mapCache.stored k = some e then none else s.mapCache.stored k := by
  have hw := h.wf.1
  have hA := h.anchored
  have hown : ∀ t ty a e, s.ts.kind t = some (ty, a) → a.entry = some e → e ≠ s.petrs →
      ∃ me k, s.mces.cell e = some me ∧ mdbKey me.mapping.eidPrefix = some k ∧
        s.mapCache.stored k = some e := by
    intro t ty a e hk he hne
    obtain ⟨k, hst⟩ := hA t ty a e hk he hne
    obtain ⟨me, hme, hkey⟩ := hw.stored_own k e hst
    exact ⟨me, k, hme, hkey, hst⟩
  refine ⟨hown, ?_⟩
  intro t ts e env out s' hfire htick hrem hne hstep
  obtain ⟨u, hcb⟩ := wheel_fires hfire htick hstep
  have hw1 : ({ s with ts := { s.ts with wheel := s.ts.wheel.unlink t } } : Xtr R).Wf :=
    (wheel_safe (W := W) (fun hw => hw.unlink) hw).1
  have hrem1 : RemovesEntry { s with ts := { s.ts with wheel := s.ts.wheel.unlink t } } t e := hrem
  obtain ⟨r, hr⟩ := hrem1.removes hcb
  obtain ⟨ty, a, hk, he, -⟩ := hrem
  obtain ⟨me, k, hme, hkey, hst⟩ := hown t ty a e hk he hne
  have hremoved : Removed W _ s' k e := trMcacheRemoveEntry_stored hw1 hme hkey hst hr
  refine ⟨fun i => ?_, fun k' => ?_⟩
  · rw [hremoved.mces, Heap.free_cell]
  · rw [hremoved.stored]
    by_cases hkk : k' = k
    · rw [if_pos hkk, hkk, if_pos hst]
    · rw [if_neg hkk, if_neg fun hst' => hkk (hw.stored_inj hst' hst)]

end EntryTimers

/-- The key of `192.0.2.0/24`. -/
def labKey : MdbKey :=
  .ip .INET ((ipBits (.v4 0xc0000200#32)).take 24)

/-- A miss and the Map-Reply that answers it, with one record. Entry 2 is installed, and its
expiration timer is timer 2. -/
theorem entry_timers_anchored_installed :
    ∃ s, XtrReach labWorld McStaticsDistinct InstallsFresh s ∧
      s.ts.kind 2 = some (.EXPIRE_MAP_CACHE_TIMER, .mce 2) ∧ 2 ≠ s.petrs ∧
        ∃ me k, s.mces.cell 2 = some me ∧ mdbKey me.mapping.eidPrefix = some k ∧
          s.mapCache.stored k = some 2 := by
  have hrun : ∃ s, XtrReach labWorld McStaticsDistinct InstallsFresh s ∧
      s.ts.kind 2 = some (.EXPIRE_MAP_CACHE_TIMER, .mce 2) ∧ 2 ≠ s.petrs :=
    XtrReach.of_events labConf labEnv [labPacket, labReply 0 [labRecord 0xc0000200#32 1]] nodup_nil
      (by decide +kernel)
  obtain ⟨s, hs, hk, hne⟩ := hrun
  exact ⟨s, hs, hk, hne, (entry_timers_anchored hs).1 2 _ _ 2 hk rfl hne⟩

/-- The same Map-Reply with the record twice. Entry 3 is in no database, its prefix is that of
entry 2, and when its expiration timer fires it is entry 2 that is removed. -/
theorem duplicate_record_unanchored :
    ∃ s, XtrReach labWorld McStaticsDistinct (fun _ _ => True) s ∧
      s.ts.kind 4 = some (.EXPIRE_MAP_CACHE_TIMER, .mce 3) ∧ 3 ≠ s.petrs ∧
      ((s.mces.cell 3).bind fun me => mdbKey me.mapping.eidPrefix) = some labKey ∧
      s.mapCache.stored labKey = some 2 ∧
      ((timerCb labWorld labEnv 4).run s).toOption.any (fun r =>
        (r.2.mces.cell 2).isNone && (r.2.mces.cell 3).isSome) = true :=
  XtrReach.of_events labConf labEnv
    [labPacket, labReply 0 [labRecord 0xc0000200#32 1, labRecord 0xc0000200#32 1]] nodup_nil
    (by decide +kernel)

end Lispmob
