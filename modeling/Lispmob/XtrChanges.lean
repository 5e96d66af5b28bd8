import Mathlib.Logic.Relation
import Lispmob.XtrInvariant

/-!
# What one step of the router consists of

`Change` lists the pieces a step is made of, in terms of the effects of the modules before: a miss,
an answered Map-Request, a merge, a timer that fires and so on. Each piece says which event it
belongs to and what is known about the state `s0` in which the event was taken up.

`xtrStep_changes` decomposes every step of the machine into such pieces. `XtrReach.invariant_of` is
the rule for invariants that this gives: what every piece keeps holds in every state of every run.
-/

namespace Lispmob

open Prog

section Changes

variable {R F : Type} {W : World R F} {env : CtrlEnv} {s s' s0 s1 s2 s3 : Xtr R} {t e : Nat}
  {msg : MapReplyMsg} {ra : LispAddr} {I : Xtr R → Prop} {ev : XtrEvent}

/-- A Map-Reply without the probe bit that the nonce table matches to the timer `t`. The argument
of the timer is read as one of a Map-Request for the entry `e`. -/
structure Answers (s : Xtr R) (msg : MapReplyMsg) (t e : Nat) (me : Mce R) : Prop where
  notProbe : msg.rlocProbe = false
  nonce : s.ts.nonces msg.nonce = some t
  arg : ∃ ty a, s.ts.kind t = some (ty, a) ∧ a.asMapReqMce = .ok e
  cell : s.mces.cell e = some me

/-- One piece of processing the event `ev`, which was taken up in the state `s0`. -/
inductive Change (W : World R F) (s0 : Xtr R) : XtrEvent → Xtr R → Xtr R → Prop where
  /-- Parsing, or an entry that could not be installed. -/
  | idle {ev : XtrEvent} {s s' : Xtr R} (h : Idle W s s') : Change W s0 ev s s'
  /-- The local mappings, their registration and the SMRs. -/
  | localOnly {ev : XtrEvent} {s s' : Xtr R} (h : LocalOnly W s s') : Change W s0 ev s s'
  /-- A placeholder, its retry timer and the first Map-Request. -/
  | missed {tuple : PacketTuple} {env : CtrlEnv} {info : Option R} {s1 s2 s' : Xtr R} {r : Ret}
      (miss : mdbLookupEntry s0.mapCache (.ip tuple.dstAddr) = .ok none)
      (created : EntryCreated s0 s1
        ⟨.MCE_DYNAMIC, .NOT_ACTIVE, mappingNewInit (.ip tuple.dstAddr), info⟩)
      (listed : Listed W s1 s2 .MAP_REQUEST_RETRY_TIMER
        (.mapReq s0.mces.next (.ip tuple.srcAddr)))
      (sent : (sendMapRequestRetryCb W env s0.ts.timers.next s0.mces.next
        (.ip tuple.srcAddr)).run s2 = .ok (r, s')) :
      Change W s0 (.packet tuple env) s0 s'
  /-- An SMR: a timer for the entry that covers the source, and the first Map-Request. -/
  | solicited {msg : MapRequestMsg} {la src req : LispAddr} {env : CtrlEnv} {d : Nat}
      {s s1 s' : Xtr R} {r : Ret} (found : mdbLookupEntry s.mapCache req = .ok (some d))
      (listed : Listed W s s1 .SMR_INV_RETRY_TIMER (.mapReq d src))
      (sent : (smrInvokedMapRequestCb W env s.ts.timers.next d src).run s1 = .ok (r, s')) :
      Change W s0 (.mapRequest msg la env) s s'
  /-- The placeholder an answer is for. -/
  | discarded {msg : MapReplyMsg} {ra : LispAddr} {env : CtrlEnv} {t e : Nat} {me : Mce R}
      {k : MdbKey} {s' : Xtr R} (answers : Answers s0 msg t e me)
      (placeholder : me.active = .NOT_ACTIVE) (removed : Removed W s0 s' k e) :
      Change W s0 (.mapReply msg ra env) s0 s'
  /-- A record of the answer for a placeholder. -/
  | installed {msg : MapReplyMsg} {ra : LispAddr} {env : CtrlEnv} {t e : Nat} {me : Mce R}
      {rec : MappingRecord} {m : Mapping} {s s1 : Xtr R} (answers : Answers s0 msg t e me)
      (placeholder : me.active = .NOT_ACTIVE)
      (mem : rec ∈ parsedRecords (readRecords msg.records msg.recCount.toNat))
      (eid : m.eidPrefix = rec.eidPrefix) (ttl : m.ttl = rec.ttl)
      (nodup : (m.locators.map (·.ptr)).Nodup) (added : Added W s s1 m) :
      Change W s0 (.mapReply msg ra env) s { s1 with
        accepted := fun i => if i = s.mces.next then some (s.now, m.ttl) else s.accepted i }
  /-- The first record of the answer for an active entry. -/
  | refreshed {msg : MapReplyMsg} {ra : LispAddr} {env : CtrlEnv} {t e d : Nat} {me : Mce R}
      {rec : MappingRecord} {m : Mapping} {s1 s' : Xtr R} (answers : Answers s0 msg t e me)
      (active : me.active = .ACTIVE) (first : msg.records.getD 0 .malformed = .wellFormed rec)
      (eid : m.eidPrefix = rec.eidPrefix) (ttl : m.ttl = rec.ttl) (parsed : Parsed s0 s1)
      (found : mdbLookupEntryExact s0.mapCache rec.eidPrefix = .ok (some d))
      (refreshed : Refreshed W s1 s' d m) : Change W s0 (.mapReply msg ra env) s0 s'
  /-- The timer of an answered Map-Request for an active entry. -/
  | answered {msg : MapReplyMsg} {ra : LispAddr} {env : CtrlEnv} {t e : Nat} {me : Mce R}
      {s s' : Xtr R} (answers : Answers s0 msg t e me) (active : me.active = .ACTIVE)
      (kind : s.ts.kind t = s0.ts.kind t) (stopped : TimerStopped W s s' t) :
      Change W s0 (.mapReply msg ra env) s s'
  /-- The answer to a probe. -/
  | probed {msg : MapReplyMsg} {ra addr : LispAddr} {env : CtrlEnv} {t d : Nat}
      {p : ParsedRecord} {s1 s2 s' : Xtr R} {r : Ret} (probe : msg.rlocProbe = true)
      (nonce : s0.ts.nonces msg.nonce = some t) (parsed : Parsed s0 s1) (good : p.ret = .GOOD)
      (record : lispMsgParseMappingRecord s0.nextLoct .uninit (msg.records.getD 0 .malformed) =
        .ok p)
      (address : probedAddress p ra = .ok addr)
      (target : ProbeTarget s0 p.m.eidPrefix (some d))
      (handled : (handleLocatorProbeReply W env d addr).run s1 = .ok (r, s2))
      (stopped : TimerStopped W s2 s' t) : Change W s0 (.mapReply msg ra env) s0 s'
  /-- A merge announced by a Map-Notify. -/
  | merged {msg : MapNotifyMsg} {env : CtrlEnv} {d : Nat} {me me' : Mce R} {s s1 s' : Xtr R}
      (stored : ∃ k, s.mapCache.stored k = some d) (edited : Edited W s s1 d me me')
      (fresh : FreshLocators s.nextLoct s1.nextLoct me'.mapping.locators)
      (probed : Reprobed W s1 s' d) : Change W s0 (.mapNotify msg env) s s'
  /-- The wheel advances. -/
  | ticked (due : s0.inTick = false) : Change W s0 .tick s0
      { s0 with ts := advanceSpoke s0.ts, inTick := true, now := s0.now + 1 }
  /-- The spoke is empty. -/
  | spokeDone {env : CtrlEnv}
    (empty : ∀ l ∈ s0.ts.wheel.links, l.spoke ≠ s0.ts.wheel.currentSpoke) :
      Change W s0 (.wheel env) s0 { s0 with inTick := false }
  /-- The first timer of the spoke has rotations left. -/
  | rotated {env : CtrlEnv} {g : WheelLink → WheelLink}
      (same : ∀ l, (g l).timer = l.timer ∧ (g l).spoke = l.spoke) :
      Change W s0 (.wheel env) s0 { s0 with
        ts := { s0.ts with wheel := { s0.ts.wheel with links := s0.ts.wheel.links.map g } } }
  /-- A timer fires. -/
  | fired {env : CtrlEnv} {t : Nat} {s' : Xtr R} {u : Unit} (due : s0.inTick = true)
      (visit : handleTimersVisit s0.ts =
        .expired t { s0.ts with wheel := s0.ts.wheel.unlink t })
      (link : ∃ l ∈ s0.ts.wheel.links, l.timer = t ∧ l.spoke = s0.ts.wheel.currentSpoke)
      (called : (timerCb W env t).run
        { s0 with ts := { s0.ts with wheel := s0.ts.wheel.unlink t } } = .ok (u, s')) :
      Change W s0 (.wheel env) s0 s'

/-- Every piece keeps the invariant and evolves the timers and nonces. -/
theorem Change.safe (h : Change W s0 ev s s') : Safe W s s' := by
  cases h with
  | idle h => exact .idle h
  | localOnly h => exact .localOnly h
  | missed miss created listed sent =>
    intro hw
    have hw2 := missed_wf miss hw created listed
    obtain ⟨hw', hev⟩ := (sendMapRequestRetryCb_handled sent).safe hw2
    refine ⟨hw', Evolves.trans ?_ (listed.evolves.trans hev)⟩
    rw [created.rest]
    exact .of_same rfl (Nat.le_refl _) rfl
  | solicited found listed sent =>
    intro hw
    have hw1 := solicited_wf found hw listed
    obtain ⟨hw', hev⟩ := (smrInvokedMapRequestCb_handled sent).safe hw1
    exact ⟨hw', listed.evolves.trans hev⟩
  | discarded _ _ removed => exact fun hw => ⟨removed.wf hw, removed.evolves⟩
  | installed _ _ _ _ _ _ added =>
    exact fun hw => ⟨(added.wf hw).of_accepted,
      added.evolves.trans (.of_same rfl (Nat.le_refl _) rfl)⟩
  | refreshed _ _ _ _ _ parsed _ refreshed =>
    exact .trans _ _ _ (.idle parsed.idle) refreshed.safe
  | answered _ _ _ stopped => exact fun hw => ⟨stopped.wf hw, stopped.evolves⟩
  | probed _ _ parsed _ _ _ _ handled stopped =>
    exact .trans _ _ _ (.idle parsed.idle) (.trans _ _ _
      (handleLocatorProbeReply_safe _ _ handled) fun hw => ⟨stopped.wf hw, stopped.evolves⟩)
  | merged _ edited _ probed =>
    exact fun hw => ⟨probed.wf (edited.wf hw), edited.evolves.trans probed.evolves⟩
  | ticked _ =>
    intro hw
    obtain ⟨hw', hev⟩ := wheel_safe (W := W) (s := s) (fun hw => hw.advanceSpoke) hw
    exact ⟨⟨hw'.timers, hw'.smr, hw'.fits, hw'.stored_own, hw'.placeholder, hw'.owner_live,
      hw'.retry, hw'.petrs_active, hw'.petrs_unstored⟩, hev.ts, hev.calls,
      fun h => h.mono rfl (Nat.le_refl _), hev.smr⟩
  | spokeDone _ =>
    exact fun hw => ⟨⟨hw.timers, hw.smr, hw.fits, hw.stored_own, hw.placeholder, hw.owner_live,
      hw.retry, hw.petrs_active, hw.petrs_unstored⟩, .of_same rfl (Nat.le_refl _) rfl⟩
  | rotated same => exact wheel_safe fun hw => hw.rotated same
  | fired _ _ _ called =>
    exact .trans _ _ _ (wheel_safe fun hw => hw.unlink) (timerCb_safe _ _ called)

/-! ## The decomposition -/

/-- From a state that meets the invariant, the code runs through pieces of processing `ev`. -/
def Pieces (W : World R F) (s0 : Xtr R) (ev : XtrEvent) (s s' : Xtr R) : Prop :=
  s.Wf → (s'.Wf ∧ Evolves W s s') ∧
    Relation.ReflTransGen (fun a b => a.Wf ∧ Change W s0 ev a b) s s'

namespace Pieces

theorem refl (s : Xtr R) : Pieces W s0 ev s s :=
  fun hw => ⟨⟨hw, .refl s⟩, .refl⟩

theorem trans (s1 s2 s3 : Xtr R) (h₁ : Pieces W s0 ev s1 s2) (h₂ : Pieces W s0 ev s2 s3) :
    Pieces W s0 ev s1 s3 := by
  intro hw
  obtain ⟨⟨hw2, hev1⟩, hc1⟩ := h₁ hw
  obtain ⟨⟨hw3, hev2⟩, hc2⟩ := h₂ hw2
  exact ⟨⟨hw3, hev1.trans hev2⟩, hc1.trans hc2⟩

theorem of_change (h : s.Wf → Change W s0 ev s s') : Pieces W s0 ev s s' :=
  fun hw => ⟨(h hw).safe hw, .single ⟨hw, h hw⟩⟩

theorem idle (h : Idle W s s') : Pieces W s0 ev s s' :=
  of_change fun _ => .idle h

theorem of_eq {α : Type} {x : XtrM R α} (h : ∀ a s', x.run s = .ok (a, s') → s' = s) :
    Stays (Pieces W s0 ev) s x :=
  .of_same refl h

end Pieces

theorem trGetFwdEntry_pieces {tuple : PacketTuple} :
    Stays (Pieces W s (.packet tuple env)) s (trGetFwdEntry W env tuple) := by
  intro info s' h
  obtain rfl | ⟨hmiss, r, h⟩ := trGetFwdEntry_cases h
  · exact .refl _
  · intro hw
    obtain hidle | ⟨s1, s2, r', info, hc, hl, hcb⟩ := handleMapCacheMiss_cases hw h
    · exact Pieces.idle hidle hw
    · exact Pieces.of_change (fun _ => .missed hmiss hc hl hcb) hw

theorem trReplyToSmr_pieces {msg : MapRequestMsg} {la src req : LispAddr} :
    Stays (Pieces W s0 (.mapRequest msg la env)) s (trReplyToSmr W env src req) := by
  intro r s' h
  obtain rfl | ⟨d, s1, r', hd, hl, hcb⟩ := trReplyToSmr_cases h
  · exact .refl _
  · exact .of_change fun _ => .solicited hd hl hcb

theorem installRecords_pieces {me : Mce R} (hans : Answers s0 msg t e me)
    (hact : me.active = .NOT_ACTIVE) (l : List RawRecord) :
    ∀ (probed : Probed) (s : Xtr R),
      parsedRecords l ⊆ parsedRecords (readRecords msg.records msg.recCount.toNat) →
        Stays (Pieces W s0 (.mapReply msg ra env)) s (installRecords W env probed l) := by
  induction l with
  | nil => exact fun _ _ _ => .of_eq (by simp [installRecords])
  | cons raw rest ih =>
    intro probed s hsub
    refine .bind .trans (fun o s1 hp => .idle (parseReplyRecord_spec hp).1.idle) fun o s1 hp => ?_
    cases o with
    | none => exact .of_eq (by simp)
    | some p =>
      obtain ⟨hret, hmsg, hfresh⟩ := (parseReplyRecord_spec hp).2 p rfl
      obtain ⟨rec, rfl, heid, httl, -⟩ := lispMsgParseMappingRecord_good hmsg hret
      refine .bind .trans (fun u s2 hin hw => ?_) fun _ s2 _ =>
        ih _ s2 fun _ hx => hsub (List.mem_cons_of_mem _ hx)
      obtain ⟨s2, hadd, rfl⟩ | hidle := installRecord_cases hw hin
      · exact Pieces.of_change (fun _ => .installed hans hact (hsub List.mem_cons_self) heid httl
          hfresh.nodup hadd) hw
      · exact Pieces.idle hidle hw

theorem Evolves.kind_eq (h : Evolves W s s') {x y : TimerType × TimerArg}
    (hx : s.ts.kind t = some x) (hy : s'.ts.kind t = some y) : s'.ts.kind t = s.ts.kind t := by
  rw [hy, h.ts.kind t (Grown.lt_next_of_kind hx) y hy]

theorem recvMapReplyNonProbe_pieces (hprobe : msg.rlocProbe = false)
    (hn : s.ts.nonces msg.nonce = some t) :
    Stays (Pieces W s (.mapReply msg ra env)) s (recvMapReplyNonProbe W env t msg) := by
  intro r s' h hw
  obtain ⟨ty, a, e, me, hk, ha, hme, hcases⟩ := recvMapReplyNonProbe_cases h
  have hans : Answers s msg t e me := ⟨hprobe, hn, ⟨ty, a, hk, ha⟩, hme⟩
  obtain ⟨hact, r', s1, hrem, hin⟩ | ⟨hact, s1, href, hend⟩ := hcases
  · obtain ⟨k, hkey, hst⟩ := hw.placeholder_stored hme hact
    have hremoved : Removed W s s1 k e := trMcacheRemoveEntry_stored hw hme hkey hst hrem
    exact Pieces.trans _ s1 _ (.of_change fun _ => .discarded hans hact hremoved)
      (installRecords_pieces hans hact _ _ _ (List.Subset.refl _) _ _ hin) hw
  · have hpieces : Pieces W s (.mapReply msg ra env) s s1 := by
      obtain ⟨-, hp⟩ | ⟨p, s2, -, hp, hret, hmsg, ⟨-, rfl⟩ | ⟨d, hd, href⟩⟩ :=
        refreshRecord_cases href
      · exact .idle hp.idle
      · exact .idle hp.idle
      · obtain ⟨rec, hrec, heid, httl, -⟩ := lispMsgParseMappingRecord_good hmsg hret
        rw [heid] at hd
        exact .of_change fun _ => .refreshed hans hact hrec heid httl hp hd href
    rcases hend with ⟨-, hstop⟩ | ⟨-, rfl⟩
    · obtain ⟨x, hx⟩ := hstop.live
      exact Pieces.trans _ s1 _ hpieces (.of_change fun _ =>
        .answered hans hact ((hpieces hw).1.2.kind_eq hk hx) hstop) hw
    · exact hpieces hw

theorem trRecvMapReply_pieces :
    Stays (Pieces W s (.mapReply msg ra env)) s (trRecvMapReply W env msg ra) := by
  intro r s' h
  obtain ⟨-, -, rfl⟩ | ⟨t, hn, ⟨hprobe, h⟩ | ⟨hprobe, h⟩⟩ := trRecvMapReply_cases h
  · exact .refl _
  · obtain ⟨-, hp⟩ | ⟨p, s1, addr, d, r', s2, -, hp, hret, hmsg, haddr, htarget, hreply, hstop⟩ :=
      recvMapReplyProbe_cases h
    · exact .idle hp.idle
    · exact .of_change fun _ => .probed hprobe hn hp hret hmsg haddr htarget hreply hstop
  · exact recvMapReplyNonProbe_pieces hprobe hn _ _ h

/-- A timer that was created, and that belongs to no entry if it is live. -/
def EntryFree (s : Xtr R) (t : Nat) : Prop :=
  t < s.ts.timers.next ∧ ∀ x, s.ts.kind t = some x → x.2.entry = none

theorem Evolves.entryFree (h : Evolves W s s') (hf : EntryFree s t) : EntryFree s' t :=
  ⟨Nat.lt_of_lt_of_le hf.1 h.ts.next, fun x hx => hf.2 x (h.ts.kind t hf.1 x hx)⟩

theorem NotifyRound.pieces {msg : MapNotifyMsg} (h : NotifyRound W env t s s')
    (hf : EntryFree s t) : Pieces W s0 (.mapNotify msg env) s s' := by
  intro hw
  obtain ⟨m, s1, s2, u, hp, hmerge, hres⟩ := h
  have h1 : Pieces W s0 (.mapNotify msg env) s s1 := .idle hp.idle
  have h2 : Pieces W s0 (.mapNotify msg env) s1 s2 := by
    rcases hmerge with rfl | hmerge
    · exact .refl _
    · obtain rfl | ⟨d, me, me', s3, hd, hed, hfresh, hrep⟩ := handleMergeSemantics_cases hmerge
      · exact .refl _
      · exact .of_change fun hw =>
          .merged (lookup_stored hd) hed hfresh (hrep (hed.wf hw).timers)
  have h12 := Pieces.trans _ _ _ h1 h2
  have hf2 : EntryFree s2 t := (h12 hw).1.2.entryFree hf
  exact Pieces.trans _ _ _ h12
    (.of_change fun _ => .localOnly (hres.refired.timersOnly hf2.2).localOnly) hw

theorem trRecvMapNotify_pieces {msg : MapNotifyMsg} :
    Stays (Pieces W s (.mapNotify msg env)) s (trRecvMapNotify W env msg) := by
  intro r s' h
  obtain ⟨-, rfl⟩ | ⟨t, ty, mle, ms, elt, -, hk, -, -, h⟩ := trRecvMapNotify_cases h
  · exact .refl _
  · -- the timer of the loop stays one that belongs to no entry
    have hf : EntryFree s t := by
      refine ⟨Grown.lt_next_of_kind hk, fun x hx => ?_⟩
      rw [hk] at hx
      cases hx
      rfl
    have hloop : Stays (fun a b => EntryFree a t → Pieces W s (.mapNotify msg env) a b) s
        (mapNotifyLoop W env t (readRecords msg.records msg.recCount.toNat)) := by
      refine mapNotifyLoop_stays (fun _ _ => .refl _) ?_ (fun _ _ hp _ => .idle hp.idle)
        (fun _ _ hr hf => hr.pieces hf) _ _
      intro s1 s2 s3 h1 h2 hf hw
      have hf2 : EntryFree s2 t := (h1 hf hw).1.2.entryFree hf
      exact Pieces.trans _ _ _ (h1 hf) (h2 hf2) hw
    exact hloop _ _ h hf

/-- Every step consists of pieces of processing its event. -/
theorem xtrStep_changes (ev : XtrEvent) : Stays (Pieces W s ev) s (xtrStep W ev) := by
  intro out s' h
  rw [xtrStep, get_bind_ok] at h
  split_ifs at h with hdue
  · cases ev with
    | packet tuple env =>
      exact Stays.bind Pieces.trans trGetFwdEntry_pieces (fun _ _ _ => .of_eq (by simp)) _ _ h
    | mapReply msg ra env =>
      exact Stays.bind Pieces.trans trRecvMapReply_pieces (fun _ _ _ => .of_eq (by simp)) _ _ h
    | mapRequest msg la env =>
      exact Stays.bind Pieces.trans (trRecvMapRequest_stays Pieces.refl Pieces.trans
        fun _ _ _ => trReplyToSmr_pieces) (fun _ _ _ => .of_eq (by simp)) _ _ h
    | mapNotify msg env =>
      exact Stays.bind Pieces.trans trRecvMapNotify_pieces (fun _ _ _ => .of_eq (by simp)) _ _ h
    | ifEvent name old new status env =>
      exact Stays.bind Pieces.trans
        (fun _ _ hx => .of_change fun _ => .localOnly (xtrIfEvent_local _ _ hx))
        (fun _ _ _ => .of_eq (by simp)) _ _ h
    | tick =>
      obtain ⟨_, _, ⟨-, rfl⟩, -, rfl⟩ := h
      exact .of_change fun _ => .ticked (by simpa [XtrEvent.due] using hdue)
    | wheel env =>
      simp only [processEvent, bind_ok, pure_ok] at h
      obtain ⟨_, _, h, -, rfl⟩ := h
      obtain ⟨hempty, rfl⟩ | ⟨g, hg, rfl⟩ | ⟨t, ⟨hv, hl⟩, h⟩ := wheelIteration_cases h
      · exact .of_change fun _ => .spokeDone hempty
      · exact .of_change fun _ => .rotated hg
      · exact .of_change fun _ => .fired hdue hv hl h
  · obtain ⟨-, rfl⟩ := pure_ok.mp h
    exact .refl _

/-! ## Invariants -/

/-- What every piece keeps is kept by all of them together. -/
theorem Pieces.keeps (h : Pieces W s0 ev s s')
    (hI : ∀ a b, a.Wf → Change W s0 ev a b → I a → I b) (hw : s.Wf) (hs : I s) : I s' := by
  have hchain := (h hw).2
  clear h
  induction hchain with
  | refl => exact hs
  | tail _ hab ih => exact hI _ _ hab.1 hab.2 ih

section Run

variable {P : XtrConf R → Prop} {ok : Xtr R → XtrEvent → Prop}

/-- The invariant of the router holds in every state of every run. -/
theorem XtrReach.wf (h : XtrReach W P ok s) : s.Wf ∧ IssuedOk W s := by
  refine Reach.invariant (I := fun s => s.Wf ∧ IssuedOk W s) (fun _ hs => hs.wf) ?_ h
  intro s ev out s' hI _ hstep
  obtain ⟨⟨hw', hev⟩, -⟩ := xtrStep_changes ev out s' hstep hI.1
  exact ⟨hw', hev.issued hI.2⟩

/-- What holds at the start, and what every piece of a step that meets `ok` keeps, holds in every
state of every run. -/
theorem XtrReach.invariant_of (hstart : ∀ s, StartedWith W P s → I s)
    (hI : ∀ s0 ev a b, s0.Wf → ok s0 ev → a.Wf → Change W s0 ev a b → I a → I b)
    (h : XtrReach W P ok s) : I s := by
  have hboth : s.Wf ∧ I s := by
    refine Reach.invariant (I := fun s => s.Wf ∧ I s) (fun s hs => ⟨hs.wf.1, hstart s hs⟩) ?_ h
    intro s ev out s' hs hok hstep
    have hpieces := xtrStep_changes ev out s' hstep
    refine ⟨(hpieces hs.1).1.1, hpieces.keeps (fun a b hw hc => ?_) hs.1 hs.2⟩
    exact hI s ev a b hs.1 hok hw hc
  exact hboth.2

end Run

end Changes

end Lispmob
