import Lispmob.DeviceRuns
import Lispmob.MapNotifies
import Lispmob.PointerTable
import Lispmob.Probing
import Lispmob.ServerLengths
import Lispmob.VectorsCurrent

/-!
# Timers and their objects

The pointer table of a router or a Map-Server lists the timers of its objects: map-cache entries,
local entries and registered sites. An object is released after the timers listed under it are
stopped, so the table has to be exact: a timer that is missing from it outlives its object, and one
that is listed after it was stopped is stopped a second time.

The table of the Map-Server is exact in every run. In a router the handler of Map-Replies breaks it.
The answer to a probe stops the timer of the nonce through the entry that the record names, which
need not be the one the timer belongs to: the timer is released and stays listed under its owner. An
answer without the probe bit that carries the nonce of a probe refreshes the entry, which stops the
probing timers, and then stops the timer of the nonce. In runs without such answers the table is
exact and no timer is stopped twice (`timers_owned`).
-/

namespace Lispmob

open Prog (SafeResult SafeFrom Keeps)

/-! ## Exact tables -/

section Exact

variable {ο α : Type} {owner : α → Option ο} {live : ο → Prop} {ts ts' : Timers ο α}

/-- The timers listed under an object are live and its own, a live timer of an object is listed once
under it, and the object is live. -/
structure Timers.Exact (owner : α → Option ο) (live : ο → Prop) (ts : Timers ο α) : Prop where
  listed : ∀ o l, ts.ptrs o = some l → ∀ t ∈ l, ∃ tm, ts.timers.cell t = some tm ∧
    owner tm.cbArgument = some o
  once : ∀ t tm o, ts.timers.cell t = some tm → owner tm.cbArgument = some o →
    ∃ l, ts.ptrs o = some l ∧ l.count t = 1
  outlived : ∀ t tm o, ts.timers.cell t = some tm → owner tm.cbArgument = some o → live o

theorem Timers.Tabled.exact (h : ts.Tabled owner)
    (hlive : ∀ t tm o, ts.timers.cell t = some tm → owner tm.cbArgument = some o → live o) :
    ts.Exact owner live := by
  refine ⟨fun o l hl t ht => ?_, fun t tm o htm ho => ?_, hlive⟩
  · obtain ⟨tm, htm⟩ := h.listed_live o l hl t ht
    exact ⟨tm, htm, h.wf.listed_owner o l hl t ht tm htm⟩
  · obtain ⟨l, hl, ht⟩ := h.wf.owner_listed t tm o htm ho
    exact ⟨l, hl, List.count_eq_one_of_mem (h.listed_once o l hl) ht⟩

end Exact

/-! ## The timers of a router -/

theorem timersConserved_tabled {R : Type} (s : Xtr R) :
    TimersConserved (· = .stoppedTwice) s (Timers.Tabled TimerArg.owner) where
  start h hx := h.lmtimerStart hx
  insert h hx := h.htableNoncesInsert hx
  reset h hx := h.htableNoncesResetNoncesLst hx
  create h howner hnl _ := h.newTimer howner hnl
  createSmr h := h.lmtimerCreate rfl (by simp)
  stopAll obj h := by
    obtain ⟨ts', hx, htable⟩ := h.stopTimersFromObj obj
    rw [hx]
    exact htable
  stopType obj type h := by
    obtain ⟨ts', hx, htable⟩ := h.stopTimersOfTypeFromObj obj type
    rw [hx]
    exact htable
  advance h := h.of_wheel h.wf.advanceSpoke
  rotated h hx := by
    rename_i ts ts'
    have hspec := handleTimersVisit_spec ts
    rw [hx] at hspec
    obtain ⟨g, hg, rfl⟩ := hspec
    exact h.of_wheel (h.wf.rotated hg)
  expired h hx := by
    rename_i ts t ts'
    have hspec := handleTimersVisit_spec ts
    rw [hx] at hspec
    obtain ⟨-, rfl⟩ := hspec
    exact h.of_wheel h.wf.unlink

/-- The local entry a timer belongs to is live. -/
def OwnerLive {R : Type} (s : Xtr R) (_ : TimerType) (a : TimerArg) : Prop :=
  ∀ l, a.owner = some (.mle l) → ∃ ml, s.mles.cell l = some ml

theorem timersConserved_owners {R : Type} (s : Xtr R) : TimersConserved (fun _ => False) s
    fun ts => ∀ t ty a, ts.kind t = some (ty, a) → OwnerLive s ty a := by
  refine .kinds s fun ty a hreg l hl => ?_
  cases a with
  | mapReg mle ms =>
    cases hl
    exact (hreg _ _ rfl).live
  | _ => cases hl

section Router

variable {W : FbWorld} {s s' : FbXtr} {R F : Type}
  {e t : Nat} {ev : XtrEvent} {d : Device} {x : TimerType × TimerArg} {env : CtrlEnv}

/-- The table is exact, and the local entries that have timers are live. -/
structure Tended {R : Type} (s : Xtr R) : Prop where
  table : s.ts.Tabled TimerArg.owner
  owned : ∀ t ty a, s.ts.kind t = some (ty, a) → OwnerLive s ty a

/-- The invariant of the router for the local entries of a state. -/
def conservedTabled {R F : Type} {W : World R F} (hW : PolicyAvoids W (· = .stoppedTwice))
    (s : Xtr R) : Conserved W (· = .stoppedTwice) :=
  .ofTimers ((timersConserved_tabled s).and (timersConserved_owners s)) hW

/-- What does not release local entries keeps the table exact. -/
theorem Tended.of_conserved {R F α : Type} {W : World R F} {s : Xtr R} {x : XtrM R α}
    (h : Tended s) (hW : PolicyAvoids W (· = .stoppedTwice))
    (hx : (conservedTabled hW s).inv s → (conservedTabled hW s).Any s x) :
    Keeps (· = .stoppedTwice) Tended (fun _ => True) s x := by
  refine (hx (.refl ⟨h.table, h.owned⟩)).mono ?_
  rintro _ s' ⟨-, h'⟩
  exact ⟨trivial, h'.timers.1, fun t ty a hk l hl => (h'.mles l).mpr (h'.timers.2 t ty a hk l hl)⟩

/-! ## Map-Replies -/

/-- The answer to a probe names the entry of the timer that its nonce belongs to, and the other
Map-Replies do not carry the nonce of a probe. -/
def RepliesOwn {R : Type} (s : Xtr R) : XtrEvent → Prop
  | .mapReply msg _ _ => ∀ t ∈ s.ts.nonces msg.nonce, ∀ x ∈ s.ts.kind t,
      (msg.rlocProbe = true → ∀ eid ∈ recordEid (msg.records.getD 0 .malformed),
        ∀ e ∈ probeTarget s eid, x.2.owner = some (.mce e)) ∧
      (msg.rlocProbe = false → x.1 ≠ .RLOC_PROBING_TIMER)
  | _ => True

instance {R : Type} (s : Xtr R) : ∀ ev, Decidable (RepliesOwn s ev)
  | .mapReply .. => inferInstanceAs (Decidable (∀ t ∈ _, _))
  | .packet .. | .mapRequest .. | .mapNotify .. | .ifEvent .. | .tick | .wheel _ =>
    inferInstanceAs (Decidable True)

/-- Refreshing an entry keeps the timers that are not probing timers. -/
theorem Refreshed.kind_kept {W : World R F} {s s' : Xtr R} {m : Mapping}
    (h : Refreshed W s s' e m) (hw : s.ts.Wf TimerArg.owner) (hk : s.ts.kind t = some x)
    (hx : x.1 ≠ .RLOC_PROBING_TIMER) : s'.ts.kind t = some x := by
  obtain ⟨me, me', s1, s2, s3, edited, -, timer, probed, rfl⟩ := h
  have hw1 : s1.ts.Wf TimerArg.owner := edited.evolves.ts.wf hw
  have hw2 : s2.ts.Wf TimerArg.owner := timer.evolves.ts.wf hw1
  have hk1 : s1.ts.kind t = some x := by rw [edited.rest]; exact hk
  have hk2 : s2.ts.kind t = some x := (timer.grown hw1).kind_kept hk1
  by_cases hoff : s2.probeInterval = 0
  · rw [(probed hw2).off hoff, hk2]
  · obtain ⟨ts, me2, -, released, grown⟩ := (probed hw2).on hoff
    refine grown.kind_kept ((released.kind t x).mpr ⟨hk2, ?_⟩)
    rintro ⟨a, ha, -⟩
    rw [hk2] at ha
    exact hx (congrArg Prod.fst (Option.some.inj ha))

theorem handleLocatorProbeReply_kind_kept {W : World R F} {s s' : Xtr R} {addr : LispAddr} {r : Ret}
    (h : (handleLocatorProbeReply W env e addr).run s = .ok (r, s')) (hw : s.ts.Wf TimerArg.owner)
    (hk : s.ts.kind t = some x) : s'.ts.kind t = some x := by
  obtain ⟨me, -, ⟨-, rfl⟩ | ⟨loct, s1, -, touched, started⟩⟩ := handleLocatorProbeReply_cases h
  · exact hk
  · have hts : s1.ts = s.ts := by rw [touched.rest]
    exact (started.grown (hts ▸ hw)).kind_kept (hts ▸ hk)

/-- The timer of the nonce is stopped through the entry it belongs to. -/
theorem Conserved.StopsReplied.own {W : World R F} {s s' : Xtr R}
    {msg : MapReplyMsg} {ra : LispAddr} (h : Conserved.StopsReplied W env s msg ra t e s')
    (hw : s.ts.Wf TimerArg.owner) (ht : s.ts.nonces msg.nonce = some t)
    (hown : RepliesOwn s (.mapReply msg ra env)) :
    ∃ x, s'.ts.kind t = some x ∧ x.2.owner = some (.mce e) := by
  obtain ⟨tm, -, htm, -⟩ := hw.nonce_listed _ _ ht
  have hk : s.ts.kind t = some (tm.type, tm.cbArgument) := kind_eq_some_iff.mpr ⟨tm, htm, rfl, rfl⟩
  have hreply := hown t ht _ hk
  cases h with
  | refreshed probe timer arg cell run =>
    cases htm.symm.trans timer
    refine ⟨(tm.type, tm.cbArgument), ?_,
      TimerArg.owner_eq_mce_iff.mpr (TimerArg.entry_of_asMapReqMce arg)⟩
    obtain ⟨hbad, -⟩ | ⟨p, s1, -, parsed, -, -, ⟨-, rfl⟩ | ⟨d, -, refreshed⟩⟩ :=
      refreshRecord_cases run
    · cases hbad
    · rw [parsed.rest]
      exact hk
    · have hts : s1.ts = s.ts := by rw [parsed.rest]
      exact refreshed.kind_kept (hts ▸ hw) (hts ▸ hk) (hreply.2 probe)
  | probed probe parsed found run =>
    rename_i p addr r s1 s2
    obtain ⟨hparsed, hp⟩ := parseReplyRecord_spec parsed
    obtain ⟨hret, hmsg, -⟩ := hp p rfl
    obtain ⟨hs2, htarget⟩ := probeReplyEntry_spec found
    have heid : recordEid (msg.records.getD 0 .malformed) = some p.m.eidPrefix := by
      rw [recordEid_eq hmsg, if_pos hret]
    have htarget' : probeTarget s p.m.eidPrefix = some e := by
      rw [hparsed.rest] at htarget
      exact htarget.eq
    have hts : s2.ts = s.ts := by rw [hs2, hparsed.rest]
    exact ⟨_, handleLocatorProbeReply_kind_kept run (hts ▸ hw) (hts ▸ hk),
      hreply.1 probe _ heid e htarget'⟩

theorem conservedTabled_stopsKept {W : World R F} {s s0 : Xtr R}
    (hW : PolicyAvoids W (· = .stoppedTwice)) (h : (conservedTabled hW s0).inv s)
    (hown : RepliesOwn s ev) : (conservedTabled hW s0).StopsKept s ev := by
  cases ev with
  | mapReply msg ra env =>
    intro t e s' ht hstops h'
    obtain ⟨x, hk, howner⟩ := hstops.own h.timers.1.wf ht hown
    obtain ⟨tm, htm, -, harg⟩ := kind_eq_some_iff.mp hk
    obtain ⟨ts', hx, htable⟩ := h'.timers.1.stopTimerFromObj htm (harg ▸ howner)
    rw [hx]
    exact ⟨⟨htable, TimersConserved.kinds_of (.stopTimerFromObj hx) h'.timers.2⟩, h'.localMdb,
      h'.mapServers, h'.mles⟩
  | packet _ _ | mapRequest _ _ _ | mapNotify _ _ | ifEvent _ _ | tick | wheel _ => trivial

theorem xtrStep_tended {W : World R F} {s : Xtr R} (hW : PolicyAvoids W (· = .stoppedTwice))
    (h : Tended s) (hown : RepliesOwn s ev) :
    Keeps (· = .stoppedTwice) Tended (fun _ => True) s (xtrStep W ev) :=
  h.of_conserved hW fun h' => (conservedTabled hW _).xtrStep_keeps (by nofun) h'
    (by cases ev <;> simp [Conserved.Receives, conservedTabled, Conserved.ofTimers])
    (Conserved.localsKept (Conserved.ofTimers_writeRule _ _) ev)
    (conservedTabled_stopsKept hW h' hown) ((Conserved.ofTimers_ignoresData _ _).downsKept _ ev)

/-! ## Requests and the start -/

/-- What touches neither the timers nor releases local entries. -/
theorem Tended.of_same {s s' : Xtr R} (h : Tended s) (hts : s'.ts = s.ts)
    (hlive : ∀ mle ml, s.mles.cell mle = some ml → ∃ ml', s'.mles.cell mle = some ml') :
    Tended s' := by
  refine ⟨hts ▸ h.table, fun t ty a hk l hl => ?_⟩
  obtain ⟨ml, hml⟩ := h.owned t ty a (hts ▸ hk) l hl
  exact hlive l ml hml

theorem Tended.free {s : Xtr R} {mle : Nat} (h : Tended s)
    (hnone : ∀ t ty a, s.ts.kind t = some (ty, a) → a.owner ≠ some (.mle mle)) :
    Tended { s with mles := s.mles.free mle } := by
  refine ⟨h.table, fun t ty a hk l hl => ?_⟩
  obtain ⟨ml, hml⟩ := h.owned t ty a hk l hl
  refine ⟨ml, ?_⟩
  rw [Heap.free_cell, if_neg, hml]
  rintro rfl
  exact hnone t ty a hk hl

/-- The timers of a local entry are stopped before it is released. -/
theorem mapLocalEntryDel_tended (h : Tended s) (mle : Nat) :
    Keeps (· = .stoppedTwice) Tended (fun _ => True) s (mapLocalEntryDel mle) := by
  let I (s : FbXtr) : Prop :=
    Tended s ∧ ∀ t ty a, s.ts.kind t = some (ty, a) → a.owner ≠ some (.mle mle)
  have hstop : SafeResult (· = .stoppedTwice) (fun ts => I { s with ts := ts })
      (stopTimersFromObj s.ts (.mle mle)) := by
    obtain ⟨ts', hx, htable⟩ := h.table.stopTimersFromObj (.mle mle)
    have hreleased := stopTimersFromObj_released h.table.wf hx
    rw [hx]
    refine ⟨⟨htable, TimersConserved.kinds_of (.stopTimersFromObj hx) h.owned⟩,
      fun t ty a hk ha => ?_⟩
    obtain ⟨hk, hother⟩ := (hreleased.kind t _).mp hk
    exact hother ⟨ty, a, hk, ha⟩
  have hset :
    Keeps (· = .stoppedTwice) I (fun _ => True) s (onTimers (stopTimersFromObj · (.mle mle))) :=
    SafeFrom.get_bind (SafeFrom.lift_bind hstop fun _ h' => Keeps.of_set h')
  refine SafeFrom.bind hset fun _ s1 h1 => ?_
  have hderef : Keeps (· = .stoppedTwice) I (fun _ => True) s1 (derefMle mle) :=
    SafeFrom.get_bind (Keeps.of_option (by simp) h1.2 fun _ _ => trivial)
  exact SafeFrom.bind hderef fun _ s2 h2 => Keeps.of_modify (h2.2.1.free h2.2.2)

theorem localMapDbReplace_tended (h : Tended s) :
    Keeps (· = .stoppedTwice) Tended (fun _ => True) s localMapDbReplace :=
  SafeFrom.get_bind (Keeps.seq (Keeps.forM (fun mle _ _ hs => mapLocalEntryDel_tended hs mle) h)
    fun _ _ h1 => .of_modify ⟨h1.table, h1.owned⟩)

theorem mapLocalEntryNewInit_tended (h : Tended s) (rlocs : List LispAddr) (conf : ConfMapping) :
    Keeps (· = .stoppedTwice) Tended (fun _ => True) s (mapLocalEntryNewInit rlocs conf) := by
  refine .lift_bind (balancingVectorsCalculate_safe rlocs _) fun info _ => ?_
  refine SafeFrom.get_bind (Keeps.ret (Keeps.of_set ?_))
  refine h.of_same rfl fun mle ml hml => ?_
  rw [Heap.alloc_cell]
  split_ifs
  · exact ⟨_, rfl⟩
  · exact ⟨ml, hml⟩

theorem addLocalDbMapLocalEntry_tended (h : Tended s) (eid : LispAddr) (mle : Nat) :
    Keeps (· = .stoppedTwice) Tended (fun _ => True) s (addLocalDbMapLocalEntry eid mle) := by
  refine .get_bind (.lift_bind (findNode_avoids _ _ true) fun o _ => ?_)
  cases o with
  | some _ => exact Keeps.of_pure trivial h
  | none =>
    refine .get_bind (.lift_bind (mdbAddEntry_avoids _ _ _) fun r _ => ?_)
    exact Keeps.ret (Keeps.of_modify ⟨h.table, h.owned⟩)

theorem mnCount_avoids (mode : Mode) (count : Nat × Nat) (eid : LispAddr) :
    Avoids (· = .stoppedTwice) (mnCount mode count eid) := by
  unfold mnCount
  split
  · split
    · nofun
    · trivial
  · trivial

theorem addConfMappings_tended (rlocs : List LispAddr) :
    ∀ {confs : List ConfMapping} {count : Nat × Nat} {s : FbXtr}, Tended s →
      Keeps (· = .stoppedTwice) Tended (fun _ => True) s (addConfMappings rlocs count confs)
  | [], _, _, h => .of_pure trivial h
  | conf :: rest, count, s, h => by
    rw [addConfMappings]
    split_ifs
    · exact .of_pure trivial h
    refine .get_bind (.lift_bind (mnCount_avoids _ _ _) fun o _ => ?_)
    cases o with
    | none =>
      exact Keeps.ret (Keeps.of_modify ⟨h.table, h.owned⟩)
    | some count' =>
      refine Keeps.seq (mapLocalEntryNewInit_tended h rlocs conf) fun mle s1 h1 => ?_
      refine Keeps.seq (addLocalDbMapLocalEntry_tended h1 _ mle) fun ret s2 h2 => ?_
      split_ifs
      · exact addConfMappings_tended rlocs h2
      · exact .of_pure trivial h2

theorem programMapRegister_tended (hW : PolicyAvoids W (· = .stoppedTwice)) (h : Tended s) :
    Keeps (· = .stoppedTwice) Tended (fun _ => True) s (programMapRegister W) :=
  h.of_conserved hW fun h' => Conserved.programMapRegister_keeps h'

/-- A request of the management interface keeps the table exact. -/
theorem processCall_tended (hW : PolicyAvoids W (· = .stoppedTwice)) (h : Tended s) (env : CtrlEnv)
    (call : ApiCall) :
    Keeps (· = .stoppedTwice) Tended (fun _ => True) s (processCall W env call) := by
  cases call with
  | mrCreate list => exact .ret (.of_modify ⟨h.table, h.owned⟩)
  | mrDelete =>
    refine .get_bind ?_
    split_ifs
    · exact Keeps.of_pure trivial h
    · exact Keeps.ret (Keeps.of_modify ⟨h.table, h.owned⟩)
  | msCreate mapServersList =>
    refine .seq (.of_modify ⟨h.table, h.owned⟩) fun _ _ h1 => ?_
    exact .ret (programMapRegister_tended hW h1)
  | msDelete =>
    refine .get_bind ?_
    split_ifs
    · exact Keeps.of_pure trivial h
    · exact Keeps.ret (Keeps.of_modify ⟨h.table, h.owned⟩)
  | mapdbCreate confMappingList =>
    refine .seq (localMapDbReplace_tended h) fun _ s1 h1 => ?_
    refine .seq (addConfMappings_tended _ h1) fun good s2 h2 => ?_
    split_ifs
    · exact .ret (programMapRegister_tended hW h2)
    · exact .of_pure trivial h2
  | mapdbDelete =>
    exact .ret (localMapDbReplace_tended h)
  | petrsCreate addrList =>
    exact h.of_conserved hW fun h' => Conserved.lmapiXtrPetrsCreate_keeps
      (Conserved.ofTimers_ignoresData _ _) (fun _ => trivial) h' env _
  | petrsDelete =>
    exact h.of_conserved hW fun h' => Conserved.lmapiXtrPetrsDelete_keeps
      (Conserved.ofTimers_ignoresData _ _) (fun _ => trivial) h'

theorem xtrCtrlConstruct_tended (conf : XtrConf R) : Tended (xtrCtrlConstruct conf) :=
  ⟨.init, fun _ _ _ hk => by cases hk⟩

theorem devBoot_tended (hW : PolicyAvoids W (· = .stoppedTwice)) (env : CtrlEnv)
    (rlocs : List LispAddr) (conf : FbConf) :
    Keeps (· = .stoppedTwice) Tended (fun _ => True) (xtrCtrlConstruct conf)
      (devBoot W env rlocs conf.statics) := by
  refine (xtrCtrlConstruct_tended conf).of_conserved hW fun h => ?_
  refine .seq (Conserved.configureStatics_keeps trivial h fun _ _ => trivial) fun _ s1 h1 =>
    .get_bind ?_
  split
  · exact Conserved.rtrRun_keeps (Conserved.ofTimers_writeRule _ _).toLocalRule h1
  · exact Conserved.xtrRun_keeps trivial (Conserved.ofTimers_writeRule _ _).toLocalRule h1

/-! ## Runs of a router -/

/-- The object of a timer is a live map-cache entry or a live local entry. -/
def Xtr.LiveObject {R : Type} (s : Xtr R) : TimerOwner → Prop
  | .mce e => ∃ me, s.mces.cell e = some me
  | .mle l => ∃ ml, s.mles.cell l = some ml

/-- The Map-Replies that a device receives are for the timers of their nonces. -/
def DevRepliesOwn (d : Device) : DevEvent → Prop
  | .xtr ev => RepliesOwn d.xtr ev
  | _ => True

instance (d : Device) : ∀ ev, Decidable (DevRepliesOwn d ev)
  | .xtr ev => inferInstanceAs (Decidable (RepliesOwn d.xtr ev))
  | .setRlocs _ | .api .. => inferInstanceAs (Decidable True)

/-- The list of RLOCs plays no part in the condition. -/
theorem RepliesOwn.withRlocs {s : Xtr R} (h : RepliesOwn s ev) (rlocs : List LispAddr) :
    RepliesOwn s (ev.withRlocs rlocs) := by
  cases ev <;> exact h

theorem onXtr_tended {α : Type} {x : FbXtrM α}
    (h : Keeps (· = .stoppedTwice) Tended (fun _ => True) d.xtr x) :
    Keeps (· = .stoppedTwice) (fun d => Tended d.xtr) (fun _ => True) d (onXtr x) := by
  refine SafeFrom.get_bind
    (SafeFrom.lift_bind (P := fun r => Tended r.2) ?_ fun r hr => Keeps.of_set hr)
  exact .mono h (fun _ he => he) fun _ hr => hr.2

theorem devStep_tended (hW : PolicyAvoids W (· = .stoppedTwice)) {ev : DevEvent} (h : Tended d.xtr)
    (hown : DevRepliesOwn d ev) :
    Keeps (· = .stoppedTwice) (fun d => Tended d.xtr) (fun _ => True) d (devStep W ev) := by
  cases ev with
  | xtr ev =>
    exact .get_bind (onXtr_tended (xtrStep_tended hW h (hown.withRlocs d.rlocs)))
  | setRlocs rlocs =>
    refine .get_bind ?_
    split_ifs
    · exact Keeps.of_pure trivial h
    · exact Keeps.of_modify h
  | api call env =>
    refine .get_bind ?_
    split_ifs
    · exact Keeps.of_pure trivial h
    · exact onXtr_tended (processCall_tended hW h _ call)

theorem DevReach.tended (hW : PolicyAvoids W (· = .stoppedTwice))
    {P : FbConf → Prop} (h : DevReach W P DevRepliesOwn d) :
    Tended d.xtr := by
  refine Reach.invariant (I := fun d => Tended d.xtr) ?_ ?_ h
  · rintro d ⟨conf, env, u, -, hboot⟩
    exact ((devBoot_tended hW env d.rlocs conf).of_run hboot).2
  · intro d ev r d' hd hown hstep
    exact ((devStep_tended hW hd hown).of_run hstep).2

theorem Tended.exact {s : Xtr R} (h : Tended s) (hw : s.Wf) :
    s.ts.Exact TimerArg.owner s.LiveObject := by
  refine h.table.exact fun t tm o htm ho => ?_
  have hk : s.ts.kind t = some (tm.type, tm.cbArgument) := kind_eq_some_iff.mpr ⟨tm, htm, rfl, rfl⟩
  cases o with
  | mce e => exact hw.owner_live t _ _ e hk (TimerArg.owner_eq_mce_iff.mp ho)
  | mle l => exact h.owned t _ _ hk l ho

end Router

/-! ## The Map-Server -/

section Server

variable {hmac : Hmac} {s : MapServer}

/-- The table is exact, and the registered sites that have timers are live. -/
structure MsTended (s : MapServer) : Prop where
  table : s.ts.Tabled some
  live : ∀ t ty rs, s.ts.kind t = some (ty, rs) → ∃ rsite, s.rsites.cell rs = some rsite

theorem MsTended.of_timers {ts : Timers Nat Nat} (h : MsTended s) (htable : ts.Tabled some)
    (hev : s.ts.Evolves some (fun _ rs => ∃ rsite, s.rsites.cell rs = some rsite) ts) :
    MsTended { s with ts := ts } :=
  ⟨htable, hev.kinds h.live⟩

def serverConservedTimers : ServerConserved (· = .stoppedTwice) where
  inv := MsTended
  key _ := True
  key_site _ _ := trivial
  key_rsite _ _ := trivial
  startExpiration := by
    intro s rs rsite h hrs
    refine (lsiteEntryStartExpirationTimer_safe s.ts rs).of_ok fun ts hx => ?_
    have hnew : (htablePtrsTimersAdd (lmtimerCreate s.ts .REG_SITE_EXPRY_TIMER rs none).1 rs
        s.ts.timers.next).Tabled some := h.table.newTimer rfl (by simp)
    exact h.of_timers (hnew.lmtimerStart hx)
      (.trans (.newTimer rfl ⟨rsite, hrs⟩ (by simp)) (.lmtimerStart hx))
  updateExpiration := by
    intro s rs h
    refine (lsiteEntryUpdateExpirationTimer_safe s.ts rs).of_ok fun ts hx => ?_
    rw [lsiteEntryUpdateExpirationTimer, Prog.except_bind_ok] at hx
    obtain ⟨o, -, hx⟩ := hx
    split at hx
    · cases hx
    · exact h.of_timers (h.table.lmtimerStart hx) (.lmtimerStart hx)
    · cases hx
      exact h
  advance h := ⟨h.table.of_wheel h.table.wf.advanceSpoke, h.live⟩
  rotated := by
    intro s ts h hx
    have hspec := handleTimersVisit_spec s.ts
    rw [hx] at hspec
    obtain ⟨g, hg, rfl⟩ := hspec
    exact ⟨h.table.of_wheel (h.table.wf.rotated hg), h.live⟩
  expired := by
    intro s t ts h hx
    have hspec := handleTimersVisit_spec s.ts
    rw [hx] at hspec
    obtain ⟨-, rfl⟩ := hspec
    exact ⟨h.table.of_wheel h.table.wf.unlink, h.live⟩
  lookupSite exact _ _ := findNode_avoids _ _ exact
  lookupReg exact _ _ := findNode_avoids _ _ exact
  addSite h _ := (mdbAddEntry_avoids _ _ _).of_ok fun _ _ => ⟨h.table, h.live⟩
  addRsite h _ := (mdbAddEntry_avoids _ _ _).of_ok fun _ _ => ⟨h.table, fun t ty rs hk => by
    rw [Heap.alloc_cell]
    split_ifs
    · exact ⟨_, rfl⟩
    · exact h.live t ty rs hk⟩
  removeReg h _ := (mdbRemoveEntry_avoids _ _).of_ok fun _ _ => ⟨h.table, h.live⟩
  writeSite _ h _ := ⟨h.table, h.live⟩
  writeRsite rs h _ := ⟨h.table, fun t ty r hk => by
    obtain ⟨rsite, hrs⟩ := h.live t ty r hk
    rw [Heap.modify_cell]
    split_ifs with heq
    · rw [← heq, hrs]
      exact ⟨_, rfl⟩
    · exact ⟨rsite, hrs⟩⟩
  delRsite := by
    intro s rs h
    obtain ⟨ts, hx, htable⟩ := h.table.stopTimersFromObj rs
    have hreleased := stopTimersFromObj_released h.table.wf hx
    rw [hx]
    refine ⟨htable, fun t ty r hk => ?_⟩
    obtain ⟨hk', hother⟩ := (hreleased.kind t _).mp hk
    rw [Heap.free_cell, if_neg]
    · exact h.live t ty r hk'
    · rintro rfl
      exact hother ⟨ty, r, hk', rfl⟩
  rest h := ⟨h.table, h.live⟩

theorem serverConservedTimers_receives (ev : MsEvent) : serverConservedTimers.Receives ev := by
  cases ev with
  | mapRegister msg =>
    exact fun r _ => (parseRegisterRecord_avoids (by simp) (by simp) r).of_ok fun _ _ _ _ => trivial
  | tick | wheel => trivial

theorem msStep_tended (h : MsTended s) (ev : MsEvent) :
    Keeps (· = .stoppedTwice) MsTended (fun _ => True) s (msStep hmac ev) :=
  serverConservedTimers.msStep_keeps hmac
    (fun site eid _ _ => acceptsEid_avoids (by simp) site eid) h
    (serverConservedTimers_receives ev)

theorem msBoot_tended (conf : MsConf) :
    Keeps (· = .stoppedTwice) MsTended (fun _ => True) msCtrlConstruct (msBoot conf) :=
  serverConservedTimers.msBoot_keeps ⟨.init, fun _ _ _ hk => by cases hk⟩ (fun _ _ => trivial)
    fun _ _ => trivial

theorem MsReach.tended {conf : MsConf} {ok : MapServer → MsEvent → Prop}
    (h : MsReach hmac conf ok s) : MsTended s := by
  refine Reach.invariant (I := MsTended) ?_ ?_ h
  · rintro s ⟨u, hboot⟩
    exact ((msBoot_tended conf).of_run hboot).2
  · intro s ev r s' hs _ hstep
    exact ((msStep_tended hs ev).of_run hstep).2

theorem MsTended.exact (h : MsTended s) :
    s.ts.Exact some fun rs => ∃ rsite, s.rsites.cell rs = some rsite := by
  refine h.table.exact fun t tm rs htm ho => h.live t tm.type rs ?_
  exact kind_eq_some_iff.mpr ⟨tm, htm, rfl, Option.some.inj ho⟩

end Server

/-- The pointer tables of routers and Map-Servers list the timers of their objects, each of them
once, the objects with timers are live, and no timer is stopped twice: in every run of a router in
which the Map-Replies are for the timers of their nonces, and in every run of a Map-Server. -/
theorem timers_owned (pktTupleHash : PacketTuple → UInt32) (nonces : Nat → Nonce)
    (hmac : Hmac) :
    (∀ conf env rlocs, (devBoot (fbWorld pktTupleHash nonces hmac) env rlocs
        conf.statics).run (xtrCtrlConstruct conf) ≠ .error .stoppedTwice) ∧
    (∀ d, DevReach (fbWorld pktTupleHash nonces hmac) (fun _ => True) DevRepliesOwn d →
      d.xtr.ts.Exact TimerArg.owner d.xtr.LiveObject ∧
      ∀ ev, DevRepliesOwn d ev →
        (devStep (fbWorld pktTupleHash nonces hmac) ev).run d ≠ .error .stoppedTwice) ∧
    (∀ conf, (msBoot conf).run msCtrlConstruct ≠ .error .stoppedTwice) ∧
    ∀ conf s, MsReach hmac conf (fun _ _ => True) s →
      s.ts.Exact some (fun rs => ∃ rsite, s.rsites.cell rs = some rsite) ∧
      ∀ ev, (msStep hmac ev).run s ≠ .error .stoppedTwice := by
  have hW : PolicyAvoids (fbWorld pktTupleHash nonces hmac) (· = .stoppedTwice) :=
    flowBalancing_avoids pktTupleHash nonces hmac
  refine ⟨fun conf env rlocs h => ?_, fun d hd => ?_, fun conf h => ?_, fun conf s hs => ?_⟩
  · exact (devBoot_tended hW env rlocs conf).not_bad h rfl
  · exact ⟨(hd.tended hW).exact hd.wf, fun ev hown h =>
      (devStep_tended hW (hd.tended hW) hown).not_bad h rfl⟩
  · exact (msBoot_tended conf).not_bad h rfl
  · exact ⟨hs.tended.exact, fun ev h => (msStep_tended hs.tended ev).not_bad h rfl⟩

/-- A router waits for the answer to a Map-Request, and a Map-Server for the next registration of a
site. -/
theorem timers_owned_lab :
    (∃ d, DevReach labFbWorld (fun _ => True) DevRepliesOwn d ∧
      d.xtr.ts.ptrs (.mce 3) = some [5] ∧ d.xtr.ts.Exact TimerArg.owner d.xtr.LiveObject ∧
      DevRepliesOwn d (.xtr .tick) ∧
        (devStep labFbWorld (.xtr .tick)).run d ≠ .error .stoppedTwice) ∧
    ∃ s, MsReach labHmac labMsConf (fun _ _ => True) s ∧ s.ts.ptrs 0 = some [0] ∧
      s.ts.Exact some fun rs => ∃ rsite, s.rsites.cell rs = some rsite := by
  have hrouter : ∃ d, DevReach labFbWorld (fun _ => True) DevRepliesOwn d ∧
      d.xtr.ts.ptrs (.mce 3) = some [5] :=
    DevReach.of_events labDevConf labEnv [.ip (.v4 0xc0000201#32)]
      [.xtr labPacket, .xtr (labReply 0 [labRecord 0xc0000200#32 1]), .xtr labMiss]
      trivial (by decide +kernel)
  have hserver : ∃ s, MsReach labHmac labMsConf (fun _ _ => True) s ∧ s.ts.ptrs 0 = some [0] :=
    MsReach.of_events labMsConf [labRegistration 8] (by decide +kernel)
  obtain ⟨d, hd, hptrs⟩ := hrouter
  obtain ⟨s, hs, hsite⟩ := hserver
  obtain ⟨hexact, hstep⟩ :=
    (timers_owned (fun _ => 0) (fun n => UInt64.ofNat n) fun _ _ => []).2.1 d hd
  exact ⟨⟨d, hd, hptrs, hexact, trivial, hstep _ trivial⟩, s, hs, hsite,
    ((timers_owned (fun _ => 0) (fun n => UInt64.ofNat n) labHmac).2.2.2 labMsConf s hs).1⟩

/-- The answer to the Map-Request for one destination has the probe bit and names the entry of
another: the retry timer is stopped and stays listed. An answer with the nonce of a probe and
without the probe bit stops the probing timer twice. -/
theorem timers_misowned :
    (∃ d, LabDevReach d ∧
      d.xtr.ts.ptrs (.mce 3) = some [5] ∧ d.xtr.ts.kind 5 = none ∧
      ¬ d.xtr.ts.Exact TimerArg.owner d.xtr.LiveObject) ∧
    ∃ d, LabDevReach d ∧
      (devStep labFbWorld (.xtr (labReply 2 [labRecord 0xc0000200#32 1]))).run d =
        .error .stoppedTwice := by
  have hlisted : ∃ d, LabDevReach d ∧
      d.xtr.ts.ptrs (.mce 3) = some [5] ∧ d.xtr.ts.kind 5 = none :=
    DevReach.of_events labDevConf labEnv [.ip (.v4 0xc0000201#32)]
      [.xtr labPacket, .xtr (labReply 0 [labRecord 0xc0000200#32 1]), .xtr labMiss,
        .xtr (.mapReply (labReplyMsg 1 true [labRecord 0xc0000200#32 1]) (.ip (.v4 2)) labEnv)]
      trivial (by decide +kernel)
  have hfault : ∃ d, LabDevReach d ∧
      Prog.fault ((devStep labFbWorld (.xtr (labReply 2 [labRecord 0xc0000200#32 1]))).run d) =
        some .stoppedTwice :=
    DevReach.of_events { labDevConf with probeInterval := 1 } labEnv [.ip (.v4 0xc0000201#32)]
      [.xtr labPacket, .xtr (labReply 0 [labRecord 0xc0000200#32 1]), .xtr .tick,
        .xtr (.wheel labEnv), .xtr (.wheel labEnv), .xtr (.wheel labEnv), .xtr (.wheel labEnv)]
      trivial (by decide +kernel)
  obtain ⟨d, hd, hptrs, hkind⟩ := hlisted
  obtain ⟨d', hd', hf⟩ := hfault
  refine ⟨⟨d, hd, hptrs, hkind, fun hexact => ?_⟩, d', hd', Prog.fault_eq_some_iff.mp hf⟩
  obtain ⟨tm, htm, -⟩ := hexact.listed _ _ hptrs 5 (List.mem_singleton_self 5)
  rw [kind_eq_some_iff.mpr ⟨tm, htm, rfl, rfl⟩] at hkind
  cases hkind

end Lispmob
