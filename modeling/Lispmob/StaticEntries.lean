import Lispmob.EntryTimers

/-!
# Static entries

A map-cache entry from the configuration should stay for good. Two paths do not look at how an entry
was learned:

* a timer that removes its entry removes what is stored under the EID of that entry. An SMR starts
  such a timer for the entry that covers its source, static or not;
* the Map-Reply that answers an SMR-invoked Map-Request starts an expiration timer for the entry
  stored under the EID of its first record.

In the runs that avoid both for static entries (`SparesStatics`), what the configuration stored
stays stored and never gets an expiration timer (`static_entries_kept`).
-/

namespace Lispmob

open Option

section StaticEntries

variable {R F : Type} {W : World R F} {env : CtrlEnv} {s s' s0 s1 s2 : Xtr R} {t e d : Nat}
  {k : MdbKey} {ty : TimerType} {a : TimerArg} {m : Mapping} {info : Option R}

/-- The entry was installed by the configuration. -/
def IsStatic (s : Xtr R) (e : Nat) : Prop :=
  (s.mces.cell e).map (·.howLearned) = some .MCE_STATIC

instance (s : Xtr R) (e : Nat) : Decidable (IsStatic s e) :=
  inferInstanceAs (Decidable (_ = _))

/-- The static entry `e` is stored under `k`, and no expiration timer is about it. -/
structure StaticKept (k : MdbKey) (e : Nat) (s : Xtr R) : Prop where
  stored : s.mapCache.stored k = some e
  entry : ∃ me, s.mces.cell e = some me ∧ me.howLearned = .MCE_STATIC ∧ me.active = .ACTIVE
  timers : ∀ t a, s.ts.kind t = some (.EXPIRE_MAP_CACHE_TIMER, a) → a.entry ≠ some e

theorem StaticKept.isStatic (h : StaticKept k e s) : IsStatic s e := by
  obtain ⟨me, hme, hlearned, -⟩ := h.entry
  rw [IsStatic, hme, map_some, hlearned]

/-! ## Effects -/

/-- The entry is the same in what matters, and has no new expiration timer. -/
theorem StaticKept.mono (h : StaticKept k e s) (hst : s'.mapCache.stored k = some e)
    (hcell : ∀ me, s.mces.cell e = some me → ∃ me', s'.mces.cell e = some me' ∧
      me'.howLearned = me.howLearned ∧ me'.active = me.active)
    (hkind : ∀ t a, s'.ts.kind t = some (.EXPIRE_MAP_CACHE_TIMER, a) → a.entry = some e →
      s.ts.kind t = some (.EXPIRE_MAP_CACHE_TIMER, a)) : StaticKept k e s' := by
  obtain ⟨me, hme, hlearned, hact⟩ := h.entry
  obtain ⟨me', hme', hlearned', hact'⟩ := hcell me hme
  exact ⟨hst, ⟨me', hme', hlearned'.trans hlearned, hact'.trans hact⟩,
    fun t a hk he => h.timers t a (hkind t a hk he) he⟩

theorem StaticKept.of_ts (h : StaticKept k e s) (hmces : s'.mces = s.mces)
    (hcache : s'.mapCache = s.mapCache)
    (hkind : ∀ t a, s'.ts.kind t = some (.EXPIRE_MAP_CACHE_TIMER, a) → a.entry = some e →
      s.ts.kind t = some (.EXPIRE_MAP_CACHE_TIMER, a)) : StaticKept k e s' :=
  h.mono (by rw [hcache, h.stored]) (fun me hme => ⟨me, by rw [hmces, hme], rfl, rfl⟩) hkind

theorem Idle.staticKept (h : Idle W s s') (hs : StaticKept k e s) : StaticKept k e s' :=
  hs.mono (by rw [h.stored, hs.stored]) (fun me hme => ⟨me, by rw [h.cells, hme], rfl, rfl⟩)
    fun t a hk _ => by rwa [h.kind] at hk

theorem LocalOnly.staticKept (h : LocalOnly W s s') (hw : s.Wf) (hs : StaticKept k e s) :
    StaticKept k e s' :=
  hs.of_ts (by rw [h.rest]) (by rw [h.rest]) fun t a hk he =>
    ((h.entries hw.timers hw.smr).kind t _ a e he).mp hk

theorem Touched.staticKept (h : Touched W s s') (hs : StaticKept k e s) : StaticKept k e s' := by
  refine hs.mono (by rw [h.rest,
    hs.stored]) (fun me hme => ?_) fun t a hk _ => by rwa [h.rest] at hk
  obtain ⟨me', hme', hshape⟩ := h.fwd e me hme
  exact ⟨me', hme', hshape.entry.howLearned, hshape.entry.active⟩

theorem Edited.staticKept {me me' : Mce R} (h : Edited W s s' d me me') (hs : StaticKept k e s) :
    StaticKept k e s' := by
  refine hs.mono (by rw [h.rest,
    hs.stored]) (fun mi hmi => ?_) fun t a hk _ => by rwa [h.rest] at hk
  rw [h.cells]
  split_ifs with hed
  · rw [hed, h.was] at hmi
    cases hmi
    exact ⟨me', rfl, h.same.howLearned, h.same.active⟩
  · exact ⟨mi, hmi, rfl, rfl⟩

theorem Refired.staticKept (h : Refired W s s' t) (hs : StaticKept k e s) : StaticKept k e s' := by
  obtain ⟨ticks, hr⟩ := h.relinked
  rw [h.rest]
  exact hs.of_ts rfl rfl fun i a hk _ => by rwa [hr.kind] at hk

theorem TimerStopped.staticKept (h : TimerStopped W s s' t) (hw : s.Wf) (hs : StaticKept k e s) :
    StaticKept k e s' :=
  hs.of_ts (by rw [h.rest]) (by rw [h.rest]) fun i _ hk _ => (h.released hw.timers).kind_le i _ hk

theorem Removed.staticKept {k' : MdbKey} (h : Removed W s s' k' d) (hne : d ≠ e)
    (hs : StaticKept k e s) : StaticKept k e s' := by
  have hkk : k ≠ k' := by
    rintro rfl
    exact hne (some.inj (h.was.symm.trans hs.stored))
  refine hs.mono (by rw [h.stored, if_neg hkk, hs.stored]) (fun me hme => ⟨me, ?_, rfl, rfl⟩)
    fun t a hk _ => ((h.released.kind t _).mp hk).1
  rw [h.mces, Heap.free_cell, if_neg hne.symm, hme]

/-- A new timer that is not an expiration timer of the entry. -/
theorem StartedFor.staticKept {ticks : Nat} (h : StartedFor W s s' ty a ticks) (hw : s.Wf)
    (hne : ty = .EXPIRE_MAP_CACHE_TIMER → a.entry ≠ some e) (hs : StaticKept k e s) :
    StaticKept k e s' := by
  refine hs.of_ts (by rw [h.rest]) (by rw [h.rest]) fun t a' hk he => ?_
  rcases (h.grown hw.timers).kind_cases hk with hk | ⟨-, y, hy, heq⟩
  · exact hk
  · rw [List.mem_singleton] at hy
    subst hy
    cases heq
    exact absurd he (hne rfl)

theorem mem_probeTimers_type {i : Int} {y : TimerType × TimerArg × Nat} (h : y ∈ probeTimers d i m)
      : y.1 = .RLOC_PROBING_TIMER := by
  obtain ⟨l, -, rfl⟩ := List.mem_map.mp h
  rfl

theorem Reprobed.staticKept (h : Reprobed W s s' d) (hs : StaticKept k e s) :
    StaticKept k e s' := by
  refine hs.of_ts (by rw [h.rest]) (by rw [h.rest]) fun t a hk he => ?_
  by_cases hoff : s.probeInterval = 0
  · rwa [h.off hoff] at hk
  · obtain ⟨ts, me, -, hrel, hgrown⟩ := h.on hoff
    rcases hgrown.kind_cases hk with hk | ⟨-, y, hy, heq⟩
    · exact hrel.kind_le t _ hk
    · have hty := mem_probeTimers_type hy
      rw [(Prod.mk.inj heq).1] at hty
      cases hty

theorem Listed.staticKept (h : Listed W s s' ty a) (hty : ty ≠ .EXPIRE_MAP_CACHE_TIMER)
    (hs : StaticKept k e s) : StaticKept k e s' := by
  refine hs.of_ts (by rw [h.rest]) (by rw [h.rest]) fun t a' hk _ => ?_
  rw [h.kind] at hk
  split_ifs at hk
  · cases hk
    exact absurd rfl hty
  · exact hk

theorem EntryCreated.staticKept {me : Mce R} (h : EntryCreated s s' me) (hs : StaticKept k e s) :
    StaticKept k e s' :=
  hs.mono (h.stored_old hs.stored) (fun mi hmi => ⟨mi, h.old hmi, rfl, rfl⟩)
    fun t a hk _ => by rwa [h.rest] at hk

theorem Added.staticKept (h : Added W s s' m) (hs : StaticKept k e s) : StaticKept k e s' := by
  obtain ⟨me, hme, -⟩ := hs.entry
  obtain ⟨info, hc⟩ := h.created
  have hs1 := hc.staticKept hs
  refine hs1.of_ts rfl rfl fun t a hk he => ?_
  rcases h.grown.kind_cases hk with hk | ⟨-, y, hy, heq⟩
  · exact hk
  · have hent := (mem_entryTimers hy).1
    rw [(Prod.mk.inj heq).2, he] at hent
    exact absurd (some.inj hent) (Nat.ne_of_lt (Heap.lt_next hme))

theorem Refreshed.staticKept (h : Refreshed W s s' d m) (hw : s.Wf) (hne : d ≠ e)
    (hs : StaticKept k e s) : StaticKept k e s' := by
  obtain ⟨me, me', s1, s2, s3, hed, -, htimer, hprobe, rfl⟩ := h
  have hw1 := hed.wf hw
  have hw2 : s2.Wf := htimer.wf hw1 rfl hed.is nofun
  have hs2 := htimer.staticKept hw1 (fun _ heq => hne (some.inj heq)) (hed.staticKept hs)
  have hs3 := (hprobe hw2.timers).staticKept hs2
  exact ⟨hs3.stored, hs3.entry, hs3.timers⟩

/-! ## Removals by timers -/

/-- What is stored under the EID of an entry. -/
def storedLike (s : Xtr R) (e : Nat) : Option Nat :=
  (s.mces.cell e).bind fun me => (mdbKey me.mapping.eidPrefix).bind s.mapCache.stored

/-- The removal of an entry removes what is stored under its EID. -/
theorem trMcacheRemoveEntry_staticKept (W : World R F) {r : Ret} (hw : s.Wf)
    (hnot : ∀ d' ∈ storedLike s d, ¬ IsStatic s d') (hs : StaticKept k e s)
    (h : (trMcacheRemoveEntry d).run s = .ok (r, s')) : StaticKept k e s' := by
  obtain ⟨me, hme, ⟨k', d', hkey, hrem⟩ | ⟨-, hidle⟩⟩ := trMcacheRemoveEntry_cases (W := W) hw h
  · refine hrem.staticKept ?_ hs
    rintro rfl
    refine hnot d' ?_ hs.isStatic
    rw [storedLike, hme, bind_some, hkey, bind_some]
    exact hrem.was
  · exact hidle.staticKept hs

/-- The entry a timer removes when it fires. -/
def removedBy (s : Xtr R) (t : Nat) : Option Nat :=
  (s.ts.kind t).bind fun x =>
    if x.1 = .EXPIRE_MAP_CACHE_TIMER ∨
      (x.1 = .MAP_REQUEST_RETRY_TIMER ∧ ¬ s.ts.sent t - 1 < s.mapRequestRetries) ∨
      (x.1 = .SMR_INV_RETRY_TIMER ∧ ¬ s.ts.sent t - 1 < LISPD_MAX_SMR_RETRANSMIT) then x.2.entry
    else none

theorem removedBy_eq_some (hk : s.ts.kind t = some (ty, a)) (he : a.entry = some d)
    (hty : ty = .EXPIRE_MAP_CACHE_TIMER ∨
      (ty = .MAP_REQUEST_RETRY_TIMER ∧ ¬ s.ts.sent t - 1 < s.mapRequestRetries) ∨
      (ty = .SMR_INV_RETRY_TIMER ∧ ¬ s.ts.sent t - 1 < LISPD_MAX_SMR_RETRANSMIT)) :
    removedBy s t = some d := by
  rw [removedBy, hk, bind_some, if_pos hty, he]

theorem timerCb_staticKept {u : Unit} (hw : s.Wf)
    (hnot : ∀ d ∈ removedBy s t, ∀ d' ∈ storedLike s d, ¬ IsStatic s d') (hs : StaticKept k e s)
    (h : (timerCb W env t).run s = .ok (u, s')) : StaticKept k e s' := by
  obtain ⟨d, hk, r, h⟩ | ⟨d, src, hk, r, h⟩ | ⟨d, src, hk, r, h⟩ | ⟨d, loc, hk, r, h⟩ | ⟨-, h⟩ :=
    timerCb_cases h
  · exact trMcacheRemoveEntry_staticKept W hw (hnot d (removedBy_eq_some hk rfl (.inl rfl))) hs h
  · obtain ⟨-, -, hre⟩ | ⟨-, -, rfl⟩ | ⟨hout, r', hrem⟩ := sendMapRequestRetryCb_cases h
    · exact hre.refired.staticKept hs
    · exact hs.of_ts rfl rfl fun _ _ hk _ => hk
    · exact trMcacheRemoveEntry_staticKept W hw
        (hnot d (removedBy_eq_some hk rfl (.inr (.inl ⟨rfl, hout⟩)))) hs hrem
  · obtain ⟨-, hre⟩ | ⟨-, rfl⟩ | ⟨hout, r', hrem⟩ := smrInvokedMapRequestCb_cases h
    · exact hre.refired.staticKept hs
    · exact hs.of_ts rfl rfl fun _ _ hk _ => hk
    · exact trMcacheRemoveEntry_staticKept W hw
        (hnot d (removedBy_eq_some hk rfl (.inr (.inr ⟨rfl, hout⟩)))) hs hrem
  · obtain ⟨me, loct, -, -, ⟨-, -, hre⟩ | ⟨-, -, rfl⟩ | ⟨-, s1, ht, hres | ⟨-, -, -, rfl⟩⟩⟩ :=
      rlocProbingCb_cases h
    · exact hre.refired.staticKept hs
    · exact hs.of_ts rfl rfl fun _ _ hk _ => hk
    · exact (hres.refired (W := W)).staticKept (ht.staticKept hs)
    · exact ht.staticKept hs
  · exact h.staticKept hw hs

/-! ## One step -/

/-- The entry stored under the EID of the first record of a Map-Reply. -/
def firstRecordEntry (s : Xtr R) (msg : MapReplyMsg) : Option Nat :=
  match msg.records.getD 0 .malformed with
  | .malformed => none
  | .wellFormed rec => (mdbLookupEntryExact s.mapCache rec.eidPrefix).toOption.join

/-- The timer of the spoke that fires next. -/
def firesNext (s : Xtr R) : Option Nat :=
  match handleTimersVisit s.ts with
  | .expired t _ => some t
  | _ => none

/-- A Map-Reply for an active entry does not name a static entry first, and a timer that fires does
not remove one. -/
def SparesStatics (s : Xtr R) : XtrEvent → Prop
  | .mapReply msg _ _ => msg.rlocProbe = false → ∀ e ∈ answeredEntry s msg,
      ∀ me ∈ s.mces.cell e, me.active = .ACTIVE → ∀ d ∈ firstRecordEntry s msg, ¬ IsStatic s d
  | .wheel _ => ∀ t ∈ firesNext s, ∀ e ∈ removedBy s t, ∀ d ∈ storedLike s e, ¬ IsStatic s d
  | _ => True

instance (s : Xtr R) : ∀ ev, Decidable (SparesStatics s ev)
  | .mapReply msg _ _ => inferInstanceAs (Decidable (msg.rlocProbe = false → ∀ e ∈ _, _))
  | .wheel _ => inferInstanceAs (Decidable (∀ t ∈ _, _))
  | .packet .. | .mapRequest .. | .mapNotify .. | .ifEvent .. | .tick => isTrue trivial

/-- A new placeholder is what is stored under its EID. -/
theorem missed_not_static {a : IpAddr} {src : LispAddr}
    (hmiss : mdbLookupEntry s.mapCache (.ip a) = .ok none)
    (hc : EntryCreated s s1 ⟨.MCE_DYNAMIC, .NOT_ACTIVE, mappingNewInit (.ip a), info⟩)
    (hl : Listed W s1 s2 .MAP_REQUEST_RETRY_TIMER (.mapReq s.mces.next src)) :
    ∀ d ∈ storedLike s2 s.mces.next, ¬ IsStatic s2 d := by
  obtain ⟨k, hkey, hst⟩ := hc.stored
  have hstored : s2.mapCache.stored k = some s.mces.next := by
    rw [hl.rest]
    rw [hst, if_pos rfl, free_of_miss hmiss hkey, getD_none]
  have hcell : s2.mces.cell s.mces.next =
      some ⟨.MCE_DYNAMIC, .NOT_ACTIVE, mappingNewInit (.ip a), info⟩ := by
    rw [hl.rest]
    exact hc.new
  intro d hd hstatic
  rw [storedLike, hcell, bind_some, hkey, bind_some, hstored] at hd
  cases hd
  rw [IsStatic, hcell] at hstatic
  cases hstatic

theorem Change.staticKept {ev : XtrEvent} (h : Change W s0 ev s s') (hok : SparesStatics s0 ev)
    (hw : s.Wf) (hs : StaticKept k e s) : StaticKept k e s' := by
  cases h with
  | idle h => exact h.staticKept hs
  | localOnly h => exact h.staticKept hw hs
  | missed miss created listed sent =>
    have hs2 := listed.staticKept (by decide) (created.staticKept hs)
    have hw2 := missed_wf miss hw created listed
    obtain ⟨-, -, hre⟩ | ⟨-, -, rfl⟩ | ⟨-, r', hrem⟩ := sendMapRequestRetryCb_cases sent
    · exact hre.refired.staticKept hs2
    · exact hs2.of_ts rfl rfl fun _ _ hk _ => hk
    · -- without retries the placeholder is removed at once
      exact trMcacheRemoveEntry_staticKept W hw2 (missed_not_static miss created listed) hs2 hrem
  | solicited found listed sent =>
    have hs1 := listed.staticKept (by decide) hs
    obtain ⟨-, hre⟩ | ⟨-, rfl⟩ | ⟨hout, -⟩ := smrInvokedMapRequestCb_cases sent
    · exact hre.refired.staticKept hs1
    · exact hs1.of_ts rfl rfl fun _ _ hk _ => hk
    · rw [listed.sent] at hout
      exact absurd (by decide) hout
  | discarded answers placeholder removed =>
    refine removed.staticKept ?_ hs
    rintro rfl
    obtain ⟨me, hme, -, hact⟩ := hs.entry
    cases hme.symm.trans answers.cell
    rw [placeholder] at hact
    cases hact
  | installed _ _ _ _ _ _ added =>
    have hs1 := added.staticKept hs
    exact ⟨hs1.stored, hs1.entry, hs1.timers⟩
  | refreshed answers active first eid ttl parsed found refreshed =>
    have hidle := parsed.idle (W := W)
    refine refreshed.staticKept (hidle.wf hw) ?_ (hidle.staticKept hs)
    rintro rfl
    refine hok answers.notProbe _ answers.answeredEntry _ answers.cell active _ ?_ hs.isStatic
    rw [firstRecordEntry, first]
    simp [found, Except.toOption]
  | answered _ _ _ stopped => exact stopped.staticKept hw hs
  | probed _ _ parsed _ _ _ _ handled stopped =>
    have hidle := parsed.idle (W := W)
    have hw1 := hidle.wf hw
    have hs1 := hidle.staticKept hs
    refine stopped.staticKept (handleLocatorProbeReply_safe _ _ handled hw1).1 ?_
    obtain ⟨me, hme, ⟨-, rfl⟩ | ⟨loct, s3, -, ht, hstart⟩⟩ := handleLocatorProbeReply_cases handled
    · exact hs1
    · exact hstart.staticKept (ht.wf hw1) (by simp) (ht.staticKept hs1)
  | merged _ edited _ probed => exact probed.staticKept (edited.staticKept hs)
  | ticked _ => exact hs.of_ts rfl rfl fun _ _ hk _ => hk
  | spokeDone _ => exact hs.of_ts rfl rfl fun _ _ hk _ => hk
  | rotated _ => exact hs.of_ts rfl rfl fun _ _ hk _ => hk
  | fired _ visit _ called =>
    refine timerCb_staticKept (wheel_safe (W := W) (fun hw => hw.unlink) hw).1 ?_
      (hs.of_ts rfl rfl fun _ _ hk _ => hk) called
    exact hok _ (by rw [firesNext, visit]; rfl)

/-! ## Runs -/

/-- At the start all static entries are active, and no entry expires. -/
structure NothingExpires (s : Xtr R) : Prop where
  active : ∀ e me, s.mces.cell e = some me → me.howLearned = .MCE_STATIC → me.active = .ACTIVE
  timers : ∀ t a e, s.ts.kind t = some (.EXPIRE_MAP_CACHE_TIMER, a) → a.entry ≠ some e

theorem LocalOnly.nothingExpires (h : LocalOnly W s s') (hw : s.Wf) (hs : NothingExpires s) :
    NothingExpires s' := by
  refine ⟨by rw [h.rest]; exact hs.active, fun t a e hk he => ?_⟩
  exact hs.timers t a e (((h.entries hw.timers hw.smr).kind t _ a e he).mp hk) he

theorem Touched.nothingExpires (h : Touched W s s') (hs : NothingExpires s) :
    NothingExpires s' := by
  refine ⟨fun e me' hme' hlearned => ?_, by rw [h.rest]; exact hs.timers⟩
  obtain ⟨me, hme, hshape⟩ := h.back e me' hme'
  rw [hshape.entry.active]
  exact hs.active e me hme (hshape.entry.howLearned ▸ hlearned)

theorem Reprobed.nothingExpires (h : Reprobed W s s' d) (hs : NothingExpires s) :
    NothingExpires s' := by
  refine ⟨by rw [h.rest]; exact hs.active, fun t a e hk => ?_⟩
  by_cases hoff : s.probeInterval = 0
  · rw [h.off hoff] at hk
    exact hs.timers t a e hk
  · obtain ⟨ts, me, -, hrel, hgrown⟩ := h.on hoff
    rcases hgrown.kind_cases hk with hk | ⟨-, y, hy, heq⟩
    · exact hs.timers t a e (hrel.kind_le t _ hk)
    · have hty := mem_probeTimers_type hy
      rw [(Prod.mk.inj heq).1] at hty
      cases hty

theorem NothingExpires.alloc (hs : NothingExpires s)
    (hmces : s'.mces = s.mces.alloc ⟨.MCE_STATIC, .ACTIVE, m, info⟩) (hts : s'.ts = s.ts) :
    NothingExpires s' := by
  refine ⟨fun e me hme hlearned => ?_, by rw [hts]; exact hs.timers⟩
  rw [hmces, Heap.alloc_cell] at hme
  split_ifs at hme
  · cases hme
    rfl
  · exact hs.active e me hme hlearned

theorem StaticConfigured.nothingExpires (h : StaticConfigured W s s' m) (hw : s.Wf)
    (hs : NothingExpires s) : NothingExpires s' := by
  cases h with
  | skipped h =>
    refine ⟨fun e me hme => hs.active e me (by rw [← h.cells, hme]), fun t a e hk => ?_⟩
    rw [h.kind] at hk
    exact hs.timers t a e hk
  | leaked info h => exact hs.alloc (by rw [h]) (by rw [h])
  | added info s1 _ hc hp =>
    have hw1 : s1.Wf := hc.wf hw nofun
    exact (hp hw1.timers).nothingExpires (hs.alloc hc.mces (by rw [hc.rest]))

theorem RunStarted.nothingExpires (h : RunStarted W s s') (hw : s.Wf) (hs : NothingExpires s) :
    NothingExpires s' := by
  cases h with
  | rtr _ h => exact h.nothingExpires hw hs
  | xtr s1 s2 _ ht hl hp =>
    have hw1 := ht.wf hw
    have hw2 := hw1.of_local hl
    exact (hp hw2.timers).nothingExpires (hl.nothingExpires hw1 (ht.nothingExpires hs))

theorem StartedWith.nothingExpires {P : XtrConf R → Prop} (h : StartedWith W P s) :
    NothingExpires s := by
  refine h.induct (I := NothingExpires) (fun conf _ => ⟨fun e me hme _ => ?_, fun t a e hk => ?_⟩)
    (fun _ _ _ _ _ hw hc hs => hc.nothingExpires hw hs) fun _ _ _ _ _ hw hr hs =>
      hr.nothingExpires hw hs
  · simp only [xtrCtrlConstruct, Heap.alloc_cell, Heap.empty_cell] at hme
    split_ifs at hme
    cases hme
    rfl
  · cases hk

/-- In every run whose steps all spare the static entries, an entry the configuration stored stays
stored under its prefix, and no expiration timer is ever about it. -/
theorem static_entries_kept {P : XtrConf R → Prop} (hstart : StartedWith W P s0)
    (hst : s0.mapCache.stored k = some e) (hstatic : IsStatic s0 e)
    (hrun : Reach (xtrStep W) (· = s0) SparesStatics s) :
    s.mapCache.stored k = some e ∧ IsStatic s e ∧
      ∀ t a, s.ts.kind t = some (.EXPIRE_MAP_CACHE_TIMER, a) → a.entry ≠ some e := by
  have hI : s.Wf ∧ StaticKept k e s := by
    refine Reach.invariant (I := fun s => s.Wf ∧ StaticKept k e s) ?_ ?_ hrun
    · rintro s rfl
      have hquiet := hstart.nothingExpires
      obtain ⟨me, hme, hlearned⟩ := map_eq_some_iff.mp hstatic
      exact ⟨hstart.wf.1, hst, ⟨me, hme, hlearned, hquiet.active e me hme hlearned⟩,
        fun t a => hquiet.timers t a e⟩
    · intro s ev out s' hs hok hstep
      have hpieces := xtrStep_changes ev out s' hstep
      exact ⟨(hpieces hs.1).1.1, hpieces.keeps (fun a b hw hc => hc.staticKept hok hw) hs.1 hs.2⟩
  exact ⟨hI.2.stored, hI.2.isStatic, hI.2.timers⟩

end StaticEntries

/-! ## A static entry for `192.0.2.0/24` -/

/-- The small network with a static entry. -/
def labStaticConf : XtrConf Unit :=
  { labConf with
    statics := [{ mappingNewInit (.ippref (.v4 0xc0000200#32) 24) with
      locatorsLists := [[⟨0, .ip (.v4 77), .UP, 1, 100, 255, 0⟩]], locatorCount := 1 }]
    nextLoct := 1
    locators_nodup := by simp [labConf, Mapping.locators]
    locators_lt := by simp [labConf, Mapping.locators] }

/-- An SMR from `192.0.2.1` for the local prefix. -/
def labSmr : XtrEvent :=
  .mapRequest ⟨7, false, true, .ip (.v4 0xc0000201#32), [], [.ippref (.v4 0x0a000000#32) 8]⟩
    (.ip (.v4 1)) labEnv

/-- The network starts with the static entry 1, and a run of these events ends with `Q`. -/
theorem labStatic_run {ok : Xtr Unit → XtrEvent → Prop} [∀ s ev, Decidable (ok s ev)]
    {Q : Xtr Unit → Prop} [DecidablePred Q] (evs : List XtrEvent)
    (h : ∃ u s0, (boot labWorld labEnv labStaticConf.statics).run
      (xtrCtrlConstruct labStaticConf) = .ok (u, s0) ∧ s0.mapCache.stored labKey = some 1 ∧
        IsStatic s0 1 ∧ ∃ s, runWhile (xtrStep labWorld) ok evs s0 = some s ∧ Q s) :
    ∃ s0 s, StartedWith labWorld (· = labStaticConf) s0 ∧
      s0.mapCache.stored labKey = some 1 ∧ IsStatic s0 1 ∧
      Reach (xtrStep labWorld) (· = s0) ok s ∧ Q s := by
  obtain ⟨u, s0, hboot, hst, hstatic, s, hs, hQ⟩ := h
  exact ⟨s0, s, ⟨labStaticConf, labEnv, u, rfl, hboot⟩, hst, hstatic,
    Reach.runWhile evs (.start rfl) hs, hQ⟩

/-- A packet to another prefix, its Map-Reply and an SMR for the static entry are harmless. -/
theorem static_entries_kept_smr : ∃ s0 s, StartedWith labWorld (· = labStaticConf) s0 ∧
    s0.mapCache.stored labKey = some 1 ∧ IsStatic s0 1 ∧
    Reach (xtrStep labWorld) (· = s0) SparesStatics s ∧
    (∃ t, s.ts.kind t = some (.EXPIRE_MAP_CACHE_TIMER, .mce 3)) ∧
    s.mapCache.stored labKey = some 1 ∧ IsStatic s 1 ∧
    ∀ t a, s.ts.kind t = some (.EXPIRE_MAP_CACHE_TIMER, a) → a.entry ≠ some 1 := by
  have hrun : ∃ s0 s, StartedWith labWorld (· = labStaticConf) s0 ∧
      s0.mapCache.stored labKey = some 1 ∧ IsStatic s0 1 ∧
      Reach (xtrStep labWorld) (· = s0) SparesStatics s ∧
      s.ts.kind 3 = some (.EXPIRE_MAP_CACHE_TIMER, .mce 3) := labStatic_run
    [.packet ⟨.v4 0x0a000001#32, .v4 0xcb007101#32, 1, 1, 6⟩ labEnv,
      labReply 0 [labRecord 0xcb007100#32 1], labSmr] (by decide +kernel)
  obtain ⟨s0, s, hstart, hst, hstatic, hrun, hother⟩ := hrun
  exact ⟨s0, s, hstart, hst, hstatic, hrun, ⟨3, hother⟩,
    static_entries_kept hstart hst hstatic hrun⟩

/-- The answer to the SMR-invoked Map-Request gives the static entry an expiration timer, and
without an answer the static entry is removed. -/
theorem static_entry_expires_after_smr :
    (∃ s0 s, StartedWith labWorld (· = labStaticConf) s0 ∧
      s0.mapCache.stored labKey = some 1 ∧ IsStatic s0 1 ∧
      Reach (xtrStep labWorld) (· = s0) (fun _ _ => True) s ∧
      ∃ t, s.ts.kind t = some (.EXPIRE_MAP_CACHE_TIMER, .mce 1)) ∧
    ∃ s0 s, StartedWith labWorld (· = labStaticConf) s0 ∧
      s0.mapCache.stored labKey = some 1 ∧ IsStatic s0 1 ∧
      Reach (xtrStep labWorld) (· = s0) (fun _ _ => True) s ∧ s.mapCache.stored labKey = none := by
  refine ⟨?_, ?_⟩
  · have hrun : ∃ s0 s, StartedWith labWorld (· = labStaticConf) s0 ∧
        s0.mapCache.stored labKey = some 1 ∧ IsStatic s0 1 ∧
        Reach (xtrStep labWorld) (· = s0) (fun _ _ => True) s ∧
        s.ts.kind 3 = some (.EXPIRE_MAP_CACHE_TIMER, .mce 1) :=
      labStatic_run [labSmr, labReply 0 [labRecord 0xc0000200#32 1]] (by decide +kernel)
    obtain ⟨s0, s, hstart, hst, hstatic, hrun, hexp⟩ := hrun
    exact ⟨s0, s, hstart, hst, hstatic, hrun, 3, hexp⟩
  · exact labStatic_run (labSmr :: (List.replicate 9 [.tick, .wheel labEnv, .wheel labEnv]).flatten)
      (by decide +kernel)

end Lispmob
