import Lispmob.ArmedTimers

/-!
# Placeholders and their Map-Requests

A miss installs a placeholder and sends a Map-Request; the retry timer sends it again or removes the
placeholder. When the Map-Request cannot be built, or the map resolvers are of no supported family,
`send_map_request_retry_cb` returns before it starts the timer, and the placeholder stays: packets
to its destination find it and never cause a Map-Request again. The answer to a probe can do the
same harm, when it carries the nonce of a retry timer: that timer is stopped.

`placeholder_awaited` is the statement for the runs in which every Map-Request that is due can be
sent and no answer to a probe carries the nonce of a Map-Request. `unsendable_request_strands` is a
run without a map resolver.
-/

namespace Lispmob

open Option Heap

section Placeholders

variable {R F : Type} {W : World R F} {env : CtrlEnv} {s s' s0 s1 s2 s3 : Xtr R} {t e : Nat}
  {x : Option Nat} {a : TimerArg} {r : Ret} {ts : Timers TimerOwner TimerArg} {ty : TimerType}
  {m : Mapping}

/-- Every placeholder, except possibly the entry `x`, has a running retry timer. -/
def Awaited (x : Option Nat) (s : Xtr R) : Prop :=
  ∀ e me, s.mces.cell e = some me → me.active = .NOT_ACTIVE → x ≠ some e →
    ∃ src t sp, s.ts.Armed .MAP_REQUEST_RETRY_TIMER (.mapReq e src) t sp

/-- No new placeholders, and the retry timers of the old ones keep running. -/
theorem Awaited.of_same (hA : Awaited x s)
    (hcells : ∀ i mi', s'.mces.cell i = some mi' → mi'.active = .NOT_ACTIVE → x ≠ some i →
      ∃ mi, s.mces.cell i = some mi ∧ mi.active = .NOT_ACTIVE)
    (hsame : ∀ i mi src, s'.mces.cell i = some mi →
      SameArmed s.ts s'.ts .MAP_REQUEST_RETRY_TIMER (.mapReq i src)) : Awaited x s' := by
  intro i mi' hmi' hact' hne
  obtain ⟨mi, hmi, hact⟩ := hcells i mi' hmi' hact' hne
  obtain ⟨src, t, sp, harmed⟩ := hA i mi hmi hact hne
  exact ⟨src, t, sp, (hsame i mi' src hmi' t sp).mpr harmed⟩

/-! ## Effects -/

theorem Idle.awaited (h : Idle W s s') (hA : Awaited x s) : Awaited x s' := by
  refine hA.of_same (fun i mi hmi hact _ => ?_) fun i mi src _ => h.armed
  rw [h.cells] at hmi
  exact ⟨mi, hmi, hact⟩

theorem LocalOnly.awaited (h : LocalOnly W s s') (hw : s.Wf) (hA : Awaited x s) : Awaited x s' := by
  refine hA.of_same (fun i mi hmi hact _ => ?_) fun i mi src _ => h.armed hw rfl
  rw [h.rest] at hmi
  exact ⟨mi, hmi, hact⟩

theorem Touched.awaited (h : Touched W s s') (hA : Awaited x s) : Awaited x s' := by
  refine hA.of_same (fun i mi' hmi' hact' _ => ?_) fun i mi src _ => h.armed
  obtain ⟨mi, hmi, hshape⟩ := h.back i mi' hmi'
  exact ⟨mi, hmi, hshape.entry.active ▸ hact'⟩

theorem Edited.awaited {me me' : Mce R} (h : Edited W s s' e me me') (hA : Awaited x s) :
    Awaited x s' := by
  refine hA.of_same (fun i mi' hmi' hact' _ => ?_) fun i mi src _ => h.armed
  obtain ⟨mi, hmi, hsame⟩ := h.back hmi'
  exact ⟨mi, hmi, hsame.active ▸ hact'⟩

/-- An effect on the timers only, which leaves the retry timers alone. -/
theorem Awaited.of_ts (hA : Awaited x s)
    (hrest : s' = { s with ts := ts, nonceCalls := s'.nonceCalls })
    (hsame : ∀ i src, SameArmed s.ts s'.ts .MAP_REQUEST_RETRY_TIMER (.mapReq i src)) :
    Awaited x s' := by
  refine hA.of_same (fun i mi hmi hact _ => ?_) fun i mi src _ => hsame i src
  rw [hrest] at hmi
  exact ⟨mi, hmi, hact⟩

theorem Listed.awaited (h : Listed W s s' ty a) (hw : s.Wf) (hA : Awaited x s) : Awaited x s' :=
  hA.of_ts (by rw [h.rest]) fun _ _ => h.armed hw

theorem StartedFor.awaited {ticks : Nat} (h : StartedFor W s s' ty a ticks)
    (hw : s.Wf) (hty : ty ≠ .MAP_REQUEST_RETRY_TIMER) (hA : Awaited x s) : Awaited x s' :=
  hA.of_ts (by rw [h.rest]) fun _ _ => h.armed hw fun heq => hty (congrArg Prod.fst heq)

theorem Reprobed.awaited (h : Reprobed W s s' e) (hw : s.Wf) (hA : Awaited x s) : Awaited x s' :=
  hA.of_ts (by rw [h.rest]) fun _ _ => h.armed hw (.inl nofun)

theorem TimerStopped.awaited (h : TimerStopped W s s' t) (hw : s.Wf)
    (hty : ∀ a, s.ts.kind t ≠ some (.MAP_REQUEST_RETRY_TIMER, a)) (hA : Awaited x s) :
    Awaited x s' :=
  hA.of_ts (by rw [h.rest]) fun _ _ => h.armed hw (hty _)

theorem Removed.awaited {k : MdbKey} {d : Nat} (h : Removed W s s' k d) (hA : Awaited x s) :
    Awaited x s' := by
  have hcell : ∀ i mi, s'.mces.cell i = some mi → i ≠ d ∧ s.mces.cell i = some mi := by
    intro i mi hmi
    rw [h.mces, free_cell] at hmi
    split_ifs at hmi with hi
    exact ⟨hi, hmi⟩
  refine hA.of_same (fun i mi hmi hact _ => ⟨mi, (hcell i mi hmi).2, hact⟩) fun i mi src hmi => ?_
  exact h.armed fun hd => (hcell i mi hmi).1 (some.inj hd)

theorem Added.awaited (h : Added W s s' m) (hw : s.Wf) (hA : Awaited none s) : Awaited none s' := by
  obtain ⟨info, hmces⟩ := h.mces
  intro i mi hmi hact _
  rw [hmces, alloc_cell] at hmi
  split_ifs at hmi with hi
  · cases hmi
    cases hact
  · obtain ⟨src, t, sp, harmed⟩ := hA i mi hmi hact nofun
    have hne : TimerArg.entry (.mapReq i src) ≠ some s.mces.next := fun hd =>
      hi (some.inj hd)
    exact ⟨src, t, sp, (h.armed hw hne t sp).mpr harmed⟩

theorem Refreshed.awaited (h : Refreshed W s s' e m) (hw : s.Wf)
    (hA : Awaited x s) : Awaited x s' := by
  obtain ⟨me, me', s1, s2, s3, hed, -, htimer, hprobe, rfl⟩ := h
  have hw1 := hed.wf hw
  have hw2 : s2.Wf := htimer.wf hw1 rfl hed.is nofun
  have hA2 := htimer.awaited hw1 nofun (hed.awaited hA)
  exact (hprobe hw2.timers).awaited hw2 hA2

/-- A new entry may be a placeholder without a timer. -/
theorem EntryCreated.awaited {me : Mce R} (h : EntryCreated s s' me) (hA : Awaited none s) :
    Awaited (some s.mces.next) s' := by
  intro i mi hmi hact hne
  rw [h.cell, if_neg fun hi => hne (by rw [hi])] at hmi
  obtain ⟨src, t, sp, harmed⟩ := hA i mi hmi hact nofun
  exact ⟨src, t, sp, (h.armed t sp).mpr harmed⟩

/-! ## Callbacks -/

theorem trMcacheRemoveEntry_awaited (W : World R F) (hw : s.Wf) (hA : Awaited x s)
    (h : (trMcacheRemoveEntry e).run s = .ok (r, s')) : Awaited x s' := by
  obtain ⟨me, -, ⟨k, d, -, hrem⟩ | ⟨-, hidle⟩⟩ := trMcacheRemoveEntry_cases (W := W) hw h
  · exact hrem.awaited hA
  · exact hidle.awaited hA

/-- A retry that can be sent, or that is the last one, leaves its placeholder with a running timer
or removes it. -/
theorem sendMapRequestRetryCb_awaited {src : LispAddr} (hw : s.Wf) (hA : Awaited (some e) s)
    (hk : s.ts.kind t = some (.MAP_REQUEST_RETRY_TIMER, .mapReq e src))
    (hok : s.ts.sent t - 1 < s.mapRequestRetries → mapRequestSendable env s src = true)
    (h : (sendMapRequestRetryCb W env t e src).run s = .ok (r, s')) : Awaited none s' := by
  obtain ⟨-, -, hre⟩ | ⟨hsent, hbad, -⟩ | ⟨-, r', hrem⟩ := sendMapRequestRetryCb_cases h
  · have hmces : s'.mces = s.mces := by
      obtain ⟨_, _, -, -, rfl⟩ := hre
      rfl
    intro i mi hmi hact _
    rw [hmces] at hmi
    by_cases hi : i = e
    · subst hi
      exact ⟨src, t, _, hre.relinked.armed_iff.mpr (.inr ⟨rfl, hk, rfl⟩)⟩
    · obtain ⟨src', t', sp, harmed⟩ := hA i mi hmi hact fun h => hi (some.inj h).symm
      refine ⟨src', t', sp, (hre.relinked.armed ?_ t' sp).mpr harmed⟩
      rw [hk]
      rintro heq
      cases heq
      exact hi rfl
  · rw [hok hsent] at hbad
    cases hbad
  · -- the entry is a placeholder, so it is the one that is removed
    obtain ⟨me, hme⟩ := hw.owner_live t _ _ e hk rfl
    obtain ⟨k, hkey, hst⟩ := hw.placeholder_stored hme (hw.retry t _ e me hk rfl hme)
    have hremoved : Removed W s s' k e := trMcacheRemoveEntry_stored hw hme hkey hst hrem
    intro i mi hmi hact _
    have hi : i ≠ e := by
      rintro rfl
      rw [hremoved.mces, free_cell, if_pos rfl] at hmi
      cases hmi
    exact hremoved.awaited hA i mi hmi hact fun h => hi (some.inj h).symm

/-- The other timers are not those of a placeholder. -/
theorem Handled.awaited (h : Handled W t s s') (hw : s.Wf) (hA : Awaited x s)
    (hty : ∀ a, s.ts.kind t ≠ some (.MAP_REQUEST_RETRY_TIMER, a)) : Awaited x s' := by
  cases h with
  | idle h => exact h.awaited hA
  | touched h => exact h.awaited hA
  | @refired s1 ht h =>
    obtain ⟨ticks, hr⟩ := h.relinked
    rw [h.rest]
    refine (ht.awaited hA).of_ts rfl fun i src' => hr.armed ?_
    rw [show s1.ts = s.ts by rw [ht.rest]]
    exact hty _
  | removed h => exact trMcacheRemoveEntry_awaited W hw hA h

/-! ## Steps -/

/-- The timer the next iteration of the wheel fires. -/
def dueTimer (ts : Timers TimerOwner TimerArg) : Option Nat :=
  match handleTimersVisit ts with
  | .expired t _ => some t
  | _ => none

theorem dueTimer_link (h : dueTimer ts = some t) :
    ∃ l ∈ ts.wheel.links, l.timer = t ∧ l.spoke = ts.wheel.currentSpoke := by
  have hspec := handleTimersVisit_spec ts
  unfold dueTimer at h
  cases hv : handleTimersVisit ts with
  | expired t' ts' =>
    rw [hv] at h hspec
    have ht : t' = t := some.inj h
    exact ht ▸ hspec.1
  | done =>
    rw [hv] at h
    cases h
  | rotated ts' =>
    rw [hv] at h
    cases h

/-- If the timer is a retry timer with retries left, its Map-Request can be sent. -/
def RetryReady (env : CtrlEnv) (s : Xtr R) (t : Nat) : Prop :=
  match s.ts.kind t with
  | some (.MAP_REQUEST_RETRY_TIMER, .mapReq _ src) =>
    s.ts.sent t - 1 < s.mapRequestRetries → mapRequestSendable env s src = true
  | _ => True

instance (env : CtrlEnv) (s : Xtr R) (t : Nat) : Decidable (RetryReady env s t) := by
  unfold RetryReady
  split <;> infer_instance

/-- A Map-Request that is due can be sent, at a miss and when a retry timer fires, and the answer
to a probe does not carry the nonce of a retry timer. -/
def RequestsServed (s : Xtr R) : XtrEvent → Prop
  | .packet tuple env => (mdbLookupEntry s.mapCache (.ip tuple.dstAddr)).toOption = some none →
      mapRequestSendable env s (.ip tuple.srcAddr) = true
  | .mapReply msg _ _ => msg.rlocProbe = true → ∀ t ∈ s.ts.nonces msg.nonce,
      ∀ x ∈ s.ts.kind t, x.1 ≠ .MAP_REQUEST_RETRY_TIMER
  | .wheel env => ∀ t ∈ dueTimer s.ts, RetryReady env s t
  | _ => True

instance (s : Xtr R) : ∀ ev, Decidable (RequestsServed s ev)
  | .packet .. => inferInstanceAs (Decidable (_ → _))
  | .mapReply msg _ _ => inferInstanceAs (Decidable (msg.rlocProbe = true → ∀ t ∈ _, ∀ x ∈ _, _))
  | .wheel _ => inferInstanceAs (Decidable (∀ t ∈ _, RetryReady _ s t))
  | .mapRequest .. | .mapNotify .. | .ifEvent .. | .tick => inferInstanceAs (Decidable True)

theorem timerCb_awaited {u : Unit} (hw : s.Wf) (hA : Awaited none s) (hready : RetryReady env s t)
    (h : (timerCb W env t).run { s with ts := { s.ts with wheel := s.ts.wheel.unlink t } } =
      .ok (u, s')) : Awaited none s' := by
  have hw1 : ({ s with ts := { s.ts with wheel := s.ts.wheel.unlink t } } : Xtr R).Wf :=
    (wheel_safe (W := W) (fun hw => hw.unlink) hw).1
  -- no placeholder loses its timer, except the one whose retry timer fires
  have hA1 : ∀ {x : Option Nat}, (∀ i src, x ≠ some i →
      s.ts.kind t ≠ some (.MAP_REQUEST_RETRY_TIMER, .mapReq i src)) →
      Awaited x { s with ts := { s.ts with wheel := s.ts.wheel.unlink t } } := by
    intro x hx i mi hmi hact hne
    obtain ⟨src, t', sp, harmed⟩ := hA i mi hmi hact nofun
    exact ⟨src, t', sp, (unlink_armed (hx i src hne) t' sp).mpr harmed⟩
  obtain ⟨e, hk, r, h⟩ | ⟨e, src, hk, r, h⟩ | ⟨e, src, hk, r, h⟩ | ⟨e, loc, hk, r, h⟩ |
    ⟨⟨ty, a, hk, ha⟩, h⟩ := timerCb_cases h
  · refine trMcacheRemoveEntry_awaited W hw1 (hA1 fun i src _ hki => ?_) h
    cases hk.symm.trans hki
  · refine sendMapRequestRetryCb_awaited hw1 (hA1 fun i src' hne hki => ?_) hk ?_ h
    · cases hk.symm.trans hki
      exact hne rfl
    · have hk' : s.ts.kind t = some (.MAP_REQUEST_RETRY_TIMER, .mapReq e src) := hk
      rw [RetryReady, hk'] at hready
      exact hready
  · exact (smrInvokedMapRequestCb_handled h).awaited hw1
      (hA1 fun i src _ hki => by cases hk.symm.trans hki) fun a hki => by cases hk.symm.trans hki
  · exact (rlocProbingCb_handled h).awaited hw1
      (hA1 fun i src _ hki => by cases hk.symm.trans hki) fun a hki => by cases hk.symm.trans hki
  · refine h.awaited hw1 (hA1 fun i src _ hki => ?_)
    cases hk.symm.trans hki
    cases ha

theorem TimerArg.entry_of_asMapReqMce (h : a.asMapReqMce = .ok e) : a.entry = some e := by
  cases a <;> cases h <;> rfl

/-- Every piece of a step keeps the placeholders with running retry timers. -/
theorem Change.awaited {ev : XtrEvent} (h : Change W s0 ev s s') (hw₀ : s0.Wf)
    (hok : RequestsServed s0 ev) (hw : s.Wf) (hA : Awaited none s) : Awaited none s' := by
  cases h with
  | idle h => exact h.awaited hA
  | localOnly h => exact h.awaited hw hA
  | missed miss created listed sent =>
    rename_i s1 s2 _
    have hw1 := created.wf hw fun _ k hkey => free_of_miss miss hkey
    have hA2 : Awaited (some s.mces.next) s2 := listed.awaited hw1 (created.awaited hA)
    refine sendMapRequestRetryCb_awaited (missed_wf miss hw created listed) hA2 ?_
      (fun _ => ?_) sent
    · rw [listed.kind, show s1.ts = s.ts by rw [created.rest], if_pos rfl]
    · have hsend := hok (by rw [miss]; rfl)
      rw [listed.rest, created.rest]
      exact hsend
  | solicited found listed sent =>
    have hw1 := solicited_wf found hw listed
    exact (smrInvokedMapRequestCb_handled sent).awaited hw1 (listed.awaited hw hA)
      (by simp [listed.kind])
  | discarded _ _ removed => exact removed.awaited hA
  | installed _ _ _ _ _ _ added => exact added.awaited hw hA
  | refreshed _ _ _ _ _ parsed _ refreshed =>
    have hidle : Idle W _ _ := parsed.idle
    exact refreshed.awaited (hidle.wf hw) (hidle.awaited hA)
  | answered answers active kind stopped =>
    refine stopped.awaited hw (fun a hk => ?_) hA
    -- a retry timer belongs to a placeholder
    rw [kind] at hk
    obtain ⟨ty, a', hk', harg⟩ := answers.arg
    cases hk.symm.trans hk'
    have hact := hw₀.retry _ a _ _ hk (TimerArg.entry_of_asMapReqMce harg) answers.cell
    rw [active] at hact
    cases hact
  | probed probe nonce parsed _ _ _ _ handled stopped =>
    have hidle : Idle W _ _ := parsed.idle
    have hw1 := hidle.wf hw
    obtain ⟨hw2, hev⟩ := handleLocatorProbeReply_safe _ _ handled hw1
    refine stopped.awaited hw2 (fun a hk => ?_) ?_
    · obtain ⟨y, hy⟩ := hw.timers.nonce_kind nonce
      rw [(hidle.evolves.trans hev).kind_eq hy hk] at hk
      exact hok probe _ nonce _ hk rfl
    · obtain ⟨me, hme, ⟨-, rfl⟩ | ⟨loct, s3, -, ht, hstart⟩⟩ :=
        handleLocatorProbeReply_cases handled
      · exact hidle.awaited hA
      · exact hstart.awaited (ht.wf hw1) nofun (ht.awaited (hidle.awaited hA))
  | merged _ edited _ probed => exact probed.awaited (edited.wf hw) (edited.awaited hA)
  | ticked _ => exact hA
  | spokeDone _ => exact hA
  | rotated same => exact hA.of_ts rfl fun _ _ => rotated_armed same
  | fired _ visit _ called =>
    refine timerCb_awaited hw hA (hok _ ?_) called
    rw [mem_def, dueTimer, visit]

/-! ## Runs -/

/-- All entries are active and were configured. -/
def ConfiguredOnly (s : Xtr R) : Prop :=
  ∀ e me, s.mces.cell e = some me → me.active = .ACTIVE ∧ me.howLearned = .MCE_STATIC

theorem StartedWith.configured {P : XtrConf R → Prop} (h : StartedWith W P s) :
    ConfiguredOnly s := by
  refine h.induct (I := ConfiguredOnly) ?_ ?_ ?_
  · intro conf _ e me hme
    simp only [xtrCtrlConstruct, alloc_cell, empty_cell] at hme
    split_ifs at hme
    cases hme
    exact ⟨rfl, rfl⟩
  · intro conf a b m _ hw hconf hI e me hme
    cases hconf with
    | skipped h =>
      rw [h.cells] at hme
      exact hI e me hme
    | leaked info h =>
      rw [h, alloc_cell] at hme
      split_ifs at hme
      · cases hme
        exact ⟨rfl, rfl⟩
      · exact hI e me hme
    | added info s2 _ hc hp =>
      rw [(hp (hc.wf hw nofun).timers).rest, hc.cell] at hme
      split_ifs at hme
      · cases hme
        exact ⟨rfl, rfl⟩
      · exact hI e me hme
  · intro conf a b _ _ hw hrun hI e me hme
    cases hrun with
    | rtr _ hl =>
      rw [hl.rest] at hme
      exact hI e me hme
    | xtr s1 s2 _ ht hl hp =>
      have hw2 := (ht.wf hw).of_local hl
      rw [(hp hw2.timers).rest, hl.rest] at hme
      obtain ⟨mi, hmi, hshape⟩ := ht.back e me hme
      rw [hshape.entry.active, hshape.entry.howLearned]
      exact hI e mi hmi

/-- In the runs in which every Map-Request that is due can be sent and no answer to a probe carries
the nonce of one, every placeholder has a running retry timer. -/
theorem placeholder_awaited {P : XtrConf R → Prop} (h : XtrReach W P RequestsServed s) (e : Nat)
    (me : Mce R) (hme : s.mces.cell e = some me) (hact : me.active = .NOT_ACTIVE) :
    ∃ t src, s.ts.kind t = some (.MAP_REQUEST_RETRY_TIMER, .mapReq e src) ∧ s.ts.running t := by
  have hA : Awaited none s := by
    refine h.invariant_of (I := Awaited none) (fun s hs e me hme hact => ?_) ?_
    · rw [(hs.configured e me hme).1] at hact
      cases hact
    · exact fun s0 ev a b hw0 hok hw hc => hc.awaited hw0 hok hw
  obtain ⟨src, t, sp, hk, l, hl, hlt, -⟩ := hA e me hme hact nofun
  exact ⟨t, src, hk, l, hl, hlt⟩

end Placeholders

/-- A miss whose Map-Request is sent. -/
theorem placeholder_awaited_missed :
    ∃ s, XtrReach labWorld (fun _ => True) RequestsServed s ∧
      (s.mces.cell 1).map (·.active) = some .NOT_ACTIVE ∧
      ∃ t src, s.ts.kind t = some (.MAP_REQUEST_RETRY_TIMER, .mapReq 1 src) ∧ s.ts.running t := by
  have hrun : ∃ s, XtrReach labWorld (fun _ => True) RequestsServed s ∧
      (s.mces.cell 1).map (·.active) = some .NOT_ACTIVE :=
    XtrReach.of_events labConf labEnv [labPacket, .tick, .wheel labEnv] trivial (by decide +kernel)
  obtain ⟨s, hs, hact⟩ := hrun
  obtain ⟨me, hme, hact'⟩ := map_eq_some_iff.mp hact
  exact ⟨s, hs, hact, placeholder_awaited hs 1 me hme hact'⟩

/-- A miss on a router without a map resolver. The placeholder stays, and no retry timer runs. -/
theorem unsendable_request_strands :
    ∃ s, LabReach s ∧
      s.mapCache.stored (.ip .INET (ipBits (.v4 0xc0000201#32))) = some 1 ∧
      (s.mces.cell 1).map (·.active) = some .NOT_ACTIVE ∧
      ∀ l ∈ s.ts.wheel.links, (s.ts.kind l.timer).map Prod.fst ≠ some .MAP_REQUEST_RETRY_TIMER :=
  XtrReach.of_events { labConf with mapResolvers := [] } labEnv [labPacket] trivial
    (by decide +kernel)

end Lispmob
