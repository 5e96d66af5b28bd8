import Lispmob.DeviceRuns
import Lispmob.MapNotifies
import Lispmob.Probing
import Lispmob.VectorsCurrent

/-!
# What the timers refer to

A Map-Register timer holds pointers to a local entry and to a map server, a probing timer one to a
locator of its entry. The requests of the management interface replace the lists behind them.

* The local mappings: the timers of the old entries are stopped before the entries are released.
* The map servers: a new list that is not empty replaces the timers of all local entries. Otherwise
  the timers stay with the servers that were released.
* The Proxy-ETRs: the locators are released, and their probing timers stay.

An answer to a probe while probing is off creates a probing timer, which is not stopped when its
entry gets other locators. Without these events every timer refers to something that is there
(`timer_references_current`). In all runs the tables of the timers fit the map cache
(`device_tables_fit`).
-/

namespace Lispmob

open Prog List Option

/-! ## Map-Register timers -/

section Registers

variable {R F : Type} {W : World R F} {env : CtrlEnv} {s s' s1 : Xtr R} {u : Unit}

/-- A timer whose local entry is stored, and whose server is configured or its entry one of
`pending`. -/
def RegistersKind (s : Xtr R) (pending : List Nat) (_ : TimerType) (a : TimerArg) : Prop :=
  ∀ mle ms, a = .mapReg mle ms → mle ∈ mdbForeachEntry s.localMdb ∧
    (mle ∈ pending ∨ ∃ elt ∈ s.mapServers, elt.ptr = ms)

/-- The Map-Register timers are for stored local entries and configured servers; the servers of the
entries that are `pending` may be others. -/
def RegistersCurrent (pending : List Nat) (s : Xtr R) : Prop :=
  ∀ t ty a, s.ts.kind t = some (ty, a) → RegistersKind s pending ty a

/-- The invariant of the router for the entries and servers of a state. -/
def conservedRegisters (W : World R F) (s : Xtr R) (pending : List Nat) :
    Conserved W (fun _ => False) :=
  .ofTimers (.kinds s (P := RegistersKind s pending) fun _ _ hreg mle ms ha =>
    ⟨(hreg mle ms ha).entry, .inr (hreg mle ms ha).server⟩) (.of_false W)

theorem RegistersCurrent.of_conserved {α : Type} {x : XtrM R α} {a : α} {pending : List Nat}
    (h : RegistersCurrent pending s) (W : World R F)
    (hx : (conservedRegisters W s pending).inv s → (conservedRegisters W s pending).Any s x)
    (hrun : x.run s = .ok (a, s')) : RegistersCurrent pending s' ∧
      s'.localMdb = s.localMdb ∧ s'.mapServers = s.mapServers := by
  obtain ⟨-, h'⟩ := (hx (.refl h)).of_run hrun
  refine ⟨fun t ty a hk mle ms ha => ?_, h'.localMdb, h'.mapServers⟩
  rw [h'.localMdb, h'.mapServers]
  exact h'.timers t ty a hk mle ms ha

theorem xtrStep_registers {ev : XtrEvent} {out : XtrOut F} (h : RegistersCurrent [] s)
    (hrun : (xtrStep W ev).run s = .ok (out, s')) : RegistersCurrent [] s' := by
  refine (h.of_conserved W (fun h' => ?_) hrun).1
  refine (conservedRegisters W s []).xtrStep_keeps id h' ?_ ?_ ?_
    ((Conserved.ofTimers_ignoresData _ _).downsKept s ev)
  · cases ev <;> simp [Conserved.Receives, conservedRegisters, Conserved.ofTimers]
  · exact Conserved.localsKept (Conserved.ofTimers_writeRule _ _) ev
  · cases ev with
    | mapReply msg ra env =>
      intro t e s1 _ _ h1
      refine .of_forall fun ts hx => ?_
      exact ⟨TimersConserved.kinds_of (.stopTimerFromObj hx) h1.timers, h1.localMdb, h1.mapServers,
        h1.mles⟩
    | packet _ _ | mapRequest _ _ _ | mapNotify _ _ | ifEvent _ _ | tick | wheel _ => trivial

/-- The timers of an entry are replaced by timers for the configured servers. -/
theorem programMapRegisterForMapping_registers {mle : Nat} {rest : List Nat} (hw : s.Wf)
    (hservers : s.mapServers ≠ []) (hmle : mle ∈ mdbForeachEntry s.localMdb)
    (h : RegistersCurrent (mle :: rest) s)
    (hrun : (programMapRegisterForMapping W mle).run s = .ok (u, s')) :
    RegistersCurrent rest s' ∧ s'.localMdb = s.localMdb ∧ s'.mapServers = s.mapServers := by
  rw [programMapRegisterForMapping, get_bind_ok] at hrun
  rw [if_neg (by simpa using hservers), bind_ok] at hrun
  obtain ⟨u', s1, hstop, hstart⟩ := hrun
  obtain ⟨ts, hts, rfl⟩ := onTimers_ok.mp hstop
  have hreleased := stopTimersOfTypeFromObj_released hw.timers hts
  have h1 : RegistersCurrent rest { s with ts := ts } := by
    intro t ty a hk l ms ha
    obtain ⟨hk, hother⟩ := (hreleased.kind t _).mp hk
    obtain ⟨hstored, hpending | hserver⟩ := h t ty a hk l ms ha
    · refine ⟨hstored, ?_⟩
      rcases mem_cons.mp hpending with rfl | hrest
      · -- the timers of this entry were stopped
        have hfits := hw.fits t ty a hk
        rw [ha] at hk hfits
        have hty : ty = .MAP_REGISTER_TIMER := by
          cases ty <;> first | rfl | cases hfits
        rw [hty] at hk
        exact absurd ⟨_, hk, rfl⟩ hother
      · exact .inl hrest
    · exact ⟨hstored, .inr hserver⟩
  refine h1.of_conserved W (fun h' => ?_) hstart
  exact .forM (fun ms hms _ hs =>
    Conserved.startMapRegister_keeps hs hmle ⟨ms, hms, rfl⟩) h'

theorem programMapRegister_loop {u : PUnit} : ∀ {l : List Nat} {s : Xtr R}, s.Wf →
    s.mapServers ≠ [] → (∀ mle ∈ l, mle ∈ mdbForeachEntry s.localMdb) → RegistersCurrent l s →
    (l.forM (programMapRegisterForMapping W)).run s = .ok (u, s') → RegistersCurrent [] s'
  | [], _, _, _, _, h, hrun => by
    obtain ⟨-, rfl⟩ := pure_ok.mp hrun
    exact h
  | mle :: rest, s, hw, hservers, hl, h, hrun => by
    obtain ⟨u', s1, hfirst, hrest⟩ := bind_ok.mp hrun
    obtain ⟨h1, hdb, hms⟩ := programMapRegisterForMapping_registers hw hservers
      (hl mle mem_cons_self) h hfirst
    refine programMapRegister_loop
      (hw.of_local (programMapRegisterForMapping_timersOnly _ _ hfirst).localOnly)
      (hms ▸ hservers) (fun i hi => ?_) h1 hrest
    rw [hdb]
    exact hl i (mem_cons_of_mem _ hi)

/-- All entries are stored, whatever their servers are. -/
theorem programMapRegister_registers (hw : s.Wf) (hservers : s.mapServers ≠ [])
    (h : RegistersCurrent (mdbForeachEntry s.localMdb) s)
    (hrun : (programMapRegister W).run s = .ok (u, s')) : RegistersCurrent [] s' := by
  exact programMapRegister_loop hw hservers (fun _ hi => hi) h hrun

theorem programMapRegister_nil (hservers : s.mapServers = [])
    (hrun : (programMapRegister W).run s = .ok (u, s')) : s' = s := by
  refine forM_keeps (I := (· = s)) (fun mle _ _ s1 s2 hs h => ?_) rfl hrun
  subst hs
  rw [programMapRegisterForMapping, get_bind_ok] at h
  rw [if_pos (by simp [hservers])] at h
  exact (pure_ok.mp h).2

end Registers

/-! ## Probing timers -/

section Probes

variable {R F : Type} {W : World R F} {env : CtrlEnv} {s s' s1 s2 s3 : Xtr R} {t e p : Nat}
  {X : Nat → Prop} {m : Mapping} {r : Ret} {addr : LispAddr} {ty : TimerType} {ev : XtrEvent}
  {a : TimerArg} {ticks : Nat} {me : Mce R}

/-- The locators of a map-cache entry. -/
def locatorsOf (s : Xtr R) (e : Nat) : List Nat :=
  ((s.mces.cell e).map fun me => me.mapping.locators.map (·.ptr)).getD []

/-- The probing timers, those of the entries that meet `X` excepted, are for locators of their
entries. Without probing there are none. -/
structure ProbesCurrent (X : Nat → Prop) (s : Xtr R) : Prop where
  held : ∀ t e p, ¬ X e → s.ts.kind t = some (.RLOC_PROBING_TIMER, .rlocProbe e p) →
    p ∈ locatorsOf s e
  off : s.probeInterval = 0 →
    ∀ t e p, s.ts.kind t ≠ some (.RLOC_PROBING_TIMER, .rlocProbe e p)

/-- From `s` to `s'` no probing timer is created, and the entries that have one lose no locator. -/
structure ProbesFramed (s s' : Xtr R) : Prop where
  on : s'.probeInterval = s.probeInterval
  old : ∀ t e p, s'.ts.kind t = some (.RLOC_PROBING_TIMER, .rlocProbe e p) →
    s.ts.kind t = some (.RLOC_PROBING_TIMER, .rlocProbe e p) ∧ locatorsOf s e ⊆ locatorsOf s' e

theorem ProbesFramed.trans (h₁ : ProbesFramed s1 s2) (h2 : ProbesFramed s2 s3) :
    ProbesFramed s1 s3 := by
  refine ⟨h2.on.trans h₁.on, fun t e p hk => ?_⟩
  obtain ⟨hk2, hsub2⟩ := h2.old t e p hk
  obtain ⟨hk1, hsub1⟩ := h₁.old t e p hk2
  exact ⟨hk1, List.Subset.trans hsub1 hsub2⟩

theorem ProbesFramed.current (h : ProbesFramed s s') (hP : ProbesCurrent X s) :
    ProbesCurrent X s' := by
  refine ⟨fun t e p hX hk => ?_, fun hoff t e p hk => ?_⟩
  · obtain ⟨hk, hsub⟩ := h.old t e p hk
    exact hsub (hP.held t e p hX hk)
  · exact hP.off (h.on ▸ hoff) t e p (h.old t e p hk).1

theorem ProbesFramed.of_mces (hmces : s'.mces = s.mces) (hon : s'.probeInterval = s.probeInterval)
    (hkind : ∀ t e p, s'.ts.kind t = some (.RLOC_PROBING_TIMER, .rlocProbe e p) →
      s.ts.kind t = some (.RLOC_PROBING_TIMER, .rlocProbe e p)) : ProbesFramed s s' := by
  refine ⟨hon, fun t e p hk => ⟨hkind t e p hk, ?_⟩⟩
  rw [locatorsOf, locatorsOf, hmces]
  exact List.Subset.refl _

theorem ProbesFramed.of_ts (hts : s'.ts = s.ts) (hon : s'.probeInterval = s.probeInterval)
    (hlocs : ∀ e, locatorsOf s e ⊆ locatorsOf s' e) : ProbesFramed s s' :=
  ⟨hon, fun _ e _ hk => ⟨hts ▸ hk, hlocs e⟩⟩

theorem Idle.probesFramed (h : Idle W s s') : ProbesFramed s s' := by
  refine ⟨by rw [h.rest], fun t e p hk => ⟨h.kind t ▸ hk, ?_⟩⟩
  rw [locatorsOf, locatorsOf, h.cells]
  exact List.Subset.refl _

theorem LocalOnly.probesFramed (h : LocalOnly W s s') (hw : s.Wf) : ProbesFramed s s' := by
  refine .of_mces (by rw [h.rest]) (by rw [h.rest]) fun t e p hk => ?_
  exact ((h.entries hw.timers hw.smr).kind t _ _ e rfl).mp hk

theorem Touched.probesFramed (h : Touched W s s') : ProbesFramed s s' := by
  refine .of_ts (by rw [h.rest]) (by rw [h.rest]) fun e => ?_
  unfold locatorsOf
  cases hme : s.mces.cell e with
  | none => exact nil_subset _
  | some me =>
    obtain ⟨me', hme', hshape⟩ := h.fwd e me hme
    rw [hme', map_some, map_some, hshape.ptrs]
    exact List.Subset.refl _

theorem locatorsOf_alloc (hmces : s'.mces = s.mces.alloc me) (e : Nat) :
    locatorsOf s e ⊆ locatorsOf s' e := by
  unfold locatorsOf
  rw [hmces, Heap.alloc_cell]
  split_ifs with he
  · rw [he, s.mces.fresh _ (Nat.le_refl _)]
    exact nil_subset _
  · exact List.Subset.refl _

theorem EntryCreated.probesFramed (h : EntryCreated s s' me) : ProbesFramed s s' :=
  .of_ts (by rw [h.rest]) (by rw [h.rest]) (locatorsOf_alloc h.mces)

theorem Removed.probesFramed {k : MdbKey} {d : Nat} (h : Removed W s s' k d) :
    ProbesFramed s s' := by
  refine ⟨by rw [h.rest], fun t e p hk => ?_⟩
  obtain ⟨hold, hnot⟩ := (h.released.kind t _).mp hk
  have hne : e ≠ d := by
    rintro rfl
    exact hnot ⟨_, _, hold, rfl⟩
  refine ⟨hold, ?_⟩
  rw [locatorsOf, locatorsOf, h.mces, Heap.free_cell, if_neg hne]
  exact List.Subset.refl _

theorem Listed.probesFramed (h : Listed W s s' ty a)
    (hty : ty ≠ .RLOC_PROBING_TIMER) : ProbesFramed s s' := by
  refine .of_mces (by rw [h.rest]) (by rw [h.rest]) fun t e p hk => ?_
  rw [h.kind] at hk
  split_ifs at hk
  · exact absurd (congrArg Prod.fst (some.inj hk)) hty
  · exact hk

theorem TimerStopped.probesFramed (h : TimerStopped W s s' t) (hw : s.Wf) : ProbesFramed s s' :=
  .of_mces (by rw [h.rest]) (by rw [h.rest]) fun _ _ _ hk =>
    (h.released hw.timers).kind_le _ _ hk

theorem StartedFor.probesFramed
    (h : StartedFor W s s' ty a ticks) (hw : s.Wf) (hty : ty ≠ .RLOC_PROBING_TIMER) :
    ProbesFramed s s' := by
  refine .of_mces (by rw [h.rest]) (by rw [h.rest]) fun t e p hk => ?_
  obtain hk | ⟨-, y, hy, heq⟩ := (h.grown hw.timers).kind_cases hk
  · exact hk
  · rw [mem_singleton.mp hy] at heq
    exact absurd (congrArg Prod.fst heq) hty

/-! ## New locators and new timers -/

/-- The probing timers of an edited entry may be for locators that it had. -/
theorem Edited.probesCurrent {me me' : Mce R} (h : Edited W s s' e me me')
    (hP : ProbesCurrent X s) : ProbesCurrent (fun i => X i ∨ i = e) s' := by
  have hts : s'.ts = s.ts := by rw [h.rest]
  refine ⟨fun t i p hX hk => ?_, fun hoff t i p => ?_⟩
  · obtain ⟨hX, hne⟩ := not_or.mp hX
    rw [locatorsOf, h.cells, if_neg hne]
    exact hP.held t i p hX (hts ▸ hk)
  · rw [h.rest] at hoff
    rw [hts]
    exact hP.off hoff t i p

/-- The probing timers of an entry are replaced by those of its locators. -/
theorem Reprobed.probesCurrent (h : Reprobed W s s' e)
    (hP : ProbesCurrent (fun i => X i ∨ i = e) s) : ProbesCurrent X s' := by
  by_cases hoff : s.probeInterval = 0
  · rw [h.off hoff]
    exact ⟨fun t i p _ hk => absurd hk (hP.off hoff t i p), hP.off⟩
  · obtain ⟨ts, me, hme, released, grown⟩ := h.on hoff
    have hlocs : ∀ i, locatorsOf s' i = locatorsOf s i := fun i => by
      rw [locatorsOf, locatorsOf, h.rest]
    have hon : s'.probeInterval = s.probeInterval := by rw [h.rest]
    refine ⟨fun t i p hX hk => ?_, fun hoff' => absurd (hon ▸ hoff') hoff⟩
    rw [hlocs]
    obtain hold | ⟨-, y, hy, heq⟩ := grown.kind_cases hk
    · obtain ⟨hold, hnot⟩ := (released.kind t _).mp hold
      refine hP.held t i p (not_or.mpr ⟨hX, ?_⟩) hold
      rintro rfl
      exact hnot ⟨_, hold, rfl⟩
    · obtain ⟨l, hl, rfl⟩ := mem_map.mp hy
      cases heq
      rw [locatorsOf, hme]
      exact mem_map_of_mem hl

theorem Added.probesCurrent (h : Added W s s' m) (hP : ProbesCurrent X s) : ProbesCurrent X s' := by
  obtain ⟨info, hmces⟩ := h.mces
  have hon : s'.probeInterval = s.probeInterval := by rw [h.rest]
  -- the new probing timers are for the locators of the entry
  have hnew : ∀ t i p, s'.ts.kind t = some (.RLOC_PROBING_TIMER, .rlocProbe i p) →
      s.ts.kind t = some (.RLOC_PROBING_TIMER, .rlocProbe i p) ∨
        s.probeInterval ≠ 0 ∧ p ∈ locatorsOf s' i := by
    intro t i p hk
    obtain hold | ⟨-, y, hy, heq⟩ := h.grown.kind_cases hk
    · exact .inl hold
    rcases mem_cons.mp hy with rfl | hy
    · cases heq
    split_ifs at hy with hoff
    · cases hy
    · obtain ⟨l, hl, rfl⟩ := mem_map.mp hy
      cases heq
      refine .inr ⟨hoff, ?_⟩
      rw [locatorsOf, hmces, Heap.alloc_cell, if_pos rfl]
      exact mem_map_of_mem hl
  refine ⟨fun t i p hX hk => ?_, fun hoff t i p hk => ?_⟩
  · obtain hold | ⟨-, hmem⟩ := hnew t i p hk
    · exact locatorsOf_alloc hmces i (hP.held t i p hX hold)
    · exact hmem
  · rw [hon] at hoff
    obtain hold | ⟨hne, -⟩ := hnew t i p hk
    · exact hP.off hoff t i p hold
    · exact hne hoff

theorem StartedFor.probesCurrent
    (h : StartedFor W s s' .RLOC_PROBING_TIMER (.rlocProbe e p) ticks) (hw : s.Wf)
    (hp : p ∈ locatorsOf s e) (hon : s.probeInterval ≠ 0) (hP : ProbesCurrent X s) :
    ProbesCurrent X s' := by
  refine ⟨fun t i q hX hk => ?_, fun hoff => ?_⟩
  · rw [locatorsOf, h.rest]
    obtain hold | ⟨-, y, hy, heq⟩ := (h.grown hw.timers).kind_cases hk
    · exact hP.held t i q hX hold
    · rw [mem_singleton.mp hy] at heq
      cases heq
      exact hp
  · rw [h.rest] at hoff
    exact absurd hoff hon

theorem Refreshed.probesCurrent (h : Refreshed W s s' e m) (hw : s.Wf) (hP : ProbesCurrent X s) :
    ProbesCurrent X s' := by
  obtain ⟨me, me', s1, s2, s3, edited, -, timer, probed, rfl⟩ := h
  have hw1 := edited.wf hw
  have hw2 : s2.Wf := timer.wf hw1 rfl edited.is nofun
  have hP2 := (timer.probesFramed hw1 nofun).current (edited.probesCurrent hP)
  have hP3 : ProbesCurrent X s3 := (probed hw2.timers).probesCurrent hP2
  exact ⟨hP3.held, hP3.off⟩

/-! ## Callbacks -/

theorem trMcacheRemoveEntry_probesFramed (W : World R F) (hw : s.Wf)
    (h : (trMcacheRemoveEntry e).run s = .ok (r, s')) : ProbesFramed s s' := by
  obtain ⟨me, -, ⟨k, d, -, removed⟩ | ⟨-, idle⟩⟩ := trMcacheRemoveEntry_cases (W := W) hw h
  · exact removed.probesFramed
  · exact idle.probesFramed

theorem Refired.probesFramed (h : Refired W s s' t) : ProbesFramed s s' := by
  obtain ⟨ticks, hr⟩ := h.relinked
  rw [h.rest]
  exact .of_mces rfl rfl fun i _ _ hk => hr.kind i ▸ hk

theorem Handled.probesFramed (h : Handled W t s s') (hw : s.Wf) : ProbesFramed s s' := by
  cases h with
  | idle h => exact h.probesFramed
  | touched h => exact h.probesFramed
  | refired ht h => exact ht.probesFramed.trans h.probesFramed
  | removed h => exact trMcacheRemoveEntry_probesFramed W hw h

theorem timerCb_probesFramed {u : Unit} (hw : s.Wf) (h : (timerCb W env t).run s = .ok (u, s')) :
    ProbesFramed s s' := by
  obtain h | h := timerCb_handled h
  · exact h.probesFramed hw
  · exact h.probesFramed hw

/-! ## Steps -/

theorem mappingGetLoctWithAddr_mem {loct : Locator}
    (h : mappingGetLoctWithAddr m addr = .ok (some loct)) : loct ∈ m.locators := by
  rw [mappingGetLoctWithAddr, except_bind_ok] at h
  obtain ⟨o, -, h⟩ := h
  cases o with
  | none => cases h
  | some i =>
    have hmem := mem_of_find?_eq_some (Except.ok.inj h)
    rw [Mapping.locators, mem_flatten]
    rw [getD_eq_getElem?_getD] at hmem
    cases hi : m.locatorsLists[i]? with
    | none =>
      rw [hi] at hmem
      cases hmem
    | some l =>
      rw [hi] at hmem
      exact ⟨l, mem_of_getElem? hi, hmem⟩

theorem handleLocatorProbeReply_probesCurrent (hw : s.Wf)
    (hon : s.probeInterval ≠ 0) (hP : ProbesCurrent X s)
    (h : (handleLocatorProbeReply W env e addr).run s = .ok (r, s')) : ProbesCurrent X s' := by
  obtain ⟨me, hme, ⟨-, rfl⟩ | ⟨loct, s1, hloct, touched, started⟩⟩ :=
    handleLocatorProbeReply_cases h
  · exact hP
  · have hmem : loct.ptr ∈ locatorsOf s e := by
      rw [locatorsOf, hme]
      exact mem_map_of_mem (mappingGetLoctWithAddr_mem hloct)
    have hp : loct.ptr ∈ locatorsOf s1 e := by
      obtain ⟨me', hme', hshape⟩ := touched.fwd e me hme
      rw [locatorsOf, hme] at hmem
      rw [locatorsOf, hme', map_some, hshape.ptrs]
      exact hmem
    refine started.probesCurrent (touched.wf hw) hp ?_ (touched.probesFramed.current hP)
    rw [touched.rest]
    exact hon

/-- Every piece of a step keeps the references of the probing timers. -/
theorem Change.probesCurrent {s0 : Xtr R} (h : Change W s0 ev s s')
    (hok : ∀ msg ra env, ev = .mapReply msg ra env → msg.rlocProbe = true → s0.probeInterval ≠ 0)
    (hw : s.Wf) (hP : ProbesCurrent X s) : ProbesCurrent X s' := by
  cases h with
  | idle h => exact h.probesFramed.current hP
  | localOnly h => exact (h.probesFramed hw).current hP
  | missed miss created listed sent =>
    have hlisted := created.probesFramed.trans (listed.probesFramed nofun)
    have hsent :=
      (sendMapRequestRetryCb_handled sent).probesFramed (missed_wf miss hw created listed)
    exact (hlisted.trans hsent).current hP
  | solicited found listed sent =>
    have hw1 := solicited_wf found hw listed
    have hlisted : ProbesFramed s _ := listed.probesFramed nofun
    exact (hlisted.trans ((smrInvokedMapRequestCb_handled sent).probesFramed hw1)).current hP
  | discarded _ _ removed => exact removed.probesFramed.current hP
  | installed _ _ _ _ _ _ added =>
    have hP1 := added.probesCurrent hP
    exact ⟨hP1.held, hP1.off⟩
  | refreshed _ _ _ _ _ parsed _ refreshed =>
    have hidle : Idle W _ _ := parsed.idle
    exact refreshed.probesCurrent (hidle.wf hw) (hidle.probesFramed.current hP)
  | answered _ _ _ stopped => exact (stopped.probesFramed hw).current hP
  | probed probe _ parsed _ _ _ _ handled stopped =>
    have hidle : Idle W _ _ := parsed.idle
    have hw1 := hidle.wf hw
    have hon := hok _ _ _ rfl probe
    have hP2 := handleLocatorProbeReply_probesCurrent hw1 (by rw [hidle.rest]; exact hon)
      (hidle.probesFramed.current hP) handled
    exact (stopped.probesFramed (handleLocatorProbeReply_safe _ _ handled hw1).1).current hP2
  | merged _ edited _ probed => exact probed.probesCurrent (edited.probesCurrent hP)
  | ticked _ => exact ⟨hP.held, hP.off⟩
  | spokeDone _ => exact ⟨hP.held, hP.off⟩
  | rotated _ => exact ⟨hP.held, hP.off⟩
  | fired _ _ _ called =>
    refine (timerCb_probesFramed (wheel_safe (W := W) (fun hw => hw.unlink) hw).1 called).current ?_
    exact ⟨hP.held, hP.off⟩

theorem xtrStep_probesCurrent {out : XtrOut F} (hw : s.Wf)
    (hok : ∀ msg ra env, ev = .mapReply msg ra env → msg.rlocProbe = true → s.probeInterval ≠ 0)
    (hP : ProbesCurrent X s) (h : (xtrStep W ev).run s = .ok (out, s')) : ProbesCurrent X s' :=
  (xtrStep_changes ev out s' h).keeps (fun _ _ hw hc => hc.probesCurrent hok hw) hw hP

end Probes

/-! ## Requests -/

section Requests

variable {W : FbWorld} {env : CtrlEnv}
  {s s' : FbXtr} {d : Device} {P : FbConf → Prop}
  {confs : List ConfMapping} {rlocs : List LispAddr} {call : ApiCall} {u : Unit} {r : Ret}

/-- What a run of the device keeps about its timers. -/
structure ReferencesCurrent (s : FbXtr) : Prop where
  registers : RegistersCurrent [] s
  probes : ProbesCurrent (fun _ => False) s

/-- There is no Map-Register timer. -/
def NoRegisters (s : FbXtr) : Prop :=
  ∀ t < s.ts.timers.next, ∀ x ∈ s.ts.kind t, x.1 ≠ .MAP_REGISTER_TIMER

/-- There is no probing timer for a Proxy-ETR. -/
def NoPetrProbes (s : FbXtr) : Prop :=
  ∀ t < s.ts.timers.next, ∀ x ∈ s.ts.kind t, x.1 = .RLOC_PROBING_TIMER →
    x.2.entry ≠ some s.petrs

/-- Answers to probes come while probing is on, the list of servers becomes empty when there are no
Map-Register timers, and the Proxy-ETRs are replaced or deleted when they are not probed. -/
def ReferencesKept (d : Device) : DevEvent → Prop
  | .xtr (.mapReply msg _ _) => msg.rlocProbe = true → d.xtr.probeInterval ≠ 0
  | .api (.msCreate []) _ | .api .msDelete _ => NoRegisters d.xtr
  | .api (.petrsCreate _) _ | .api .petrsDelete _ => NoPetrProbes d.xtr
  | _ => True

instance (s : FbXtr) : Decidable (NoRegisters s) :=
  inferInstanceAs (Decidable (∀ t < _, ∀ x ∈ _, _))

instance (s : FbXtr) : Decidable (NoPetrProbes s) :=
  inferInstanceAs (Decidable (∀ t < _, ∀ x ∈ _, _ → _))

instance (d : Device) : DecidablePred (ReferencesKept d) := by
  rintro ((_ | _ | _ | _ | _ | _ | _) | _ | ⟨_ | _ | (_ | _) | _ | _ | _ | _ | _, _⟩) <;>
    dsimp only [ReferencesKept] <;> infer_instance

theorem NoRegisters.registers (h : NoRegisters s) (hw : s.Wf) {t : Nat} {ty : TimerType}
    {mle ms : Nat} : s.ts.kind t ≠ some (ty, .mapReg mle ms) := by
  intro hk
  have hfits := hw.fits t ty _ hk
  have hty : ty = .MAP_REGISTER_TIMER := by
    cases ty <;> first | rfl | cases hfits
  exact h t (Grown.lt_next_of_kind hk) _ hk hty

theorem mapLocalEntryDel_registers (W : FbWorld) {u : PUnit} : ∀ {l : List Nat}
    {s : FbXtr}, s.Wf → (l.forM mapLocalEntryDel).run s = .ok (u, s') →
    s'.localMdb = s.localMdb ∧ s'.mapServers = s.mapServers ∧
      ∀ t ty mle ms, s'.ts.kind t = some (ty, .mapReg mle ms) →
        s.ts.kind t = some (ty, .mapReg mle ms) ∧ mle ∉ l
  | [], _, _, hrun => by
    obtain ⟨-, rfl⟩ := pure_ok.mp hrun
    exact ⟨rfl, rfl, fun _ _ _ _ hk => ⟨hk, not_mem_nil⟩⟩
  | mle :: rest, s, hw, hrun => by
    obtain ⟨u', s1, hfirst, hrest⟩ := bind_ok.mp hrun
    have hw1 := hw.of_local (mapLocalEntryDel_local (W := W) _ _ hfirst)
    obtain ⟨hdb, hservers, hkinds⟩ := mapLocalEntryDel_registers W hw1 hrest
    obtain ⟨ts, hts, rfl⟩ := mapLocalEntryDel_eq hfirst
    have hreleased := stopTimersFromObj_released hw.timers hts
    refine ⟨hdb, hservers, fun t ty l ms hk => ?_⟩
    obtain ⟨hk1, hnot⟩ := hkinds t ty l ms hk
    obtain ⟨hk0, hother⟩ := (hreleased.kind t _).mp hk1
    refine ⟨hk0, fun hmem => ?_⟩
    rcases mem_cons.mp hmem with rfl | hmem
    · exact hother ⟨_, _, hk0, rfl⟩
    · exact hnot hmem

/-- Replacing the local database stops all Map-Register timers. -/
theorem localMapDbReplace_registers (W : FbWorld)
    (hw : s.Wf) (h : RegistersCurrent [] s) (hrun : localMapDbReplace.run s = .ok (u, s')) :
    ∀ t ty mle ms, s'.ts.kind t ≠ some (ty, .mapReg mle ms) := by
  rw [localMapDbReplace, get_bind_ok, bind_ok] at hrun
  obtain ⟨u', s1, hdel, hmod⟩ := hrun
  obtain ⟨-, rfl⟩ := modify_ok.mp hmod
  obtain ⟨-, -, hkinds⟩ := mapLocalEntryDel_registers W hw hdel
  intro t ty mle ms hk
  obtain ⟨hk0, hnot⟩ := hkinds t ty mle ms hk
  exact hnot (h t ty _ hk0 mle ms rfl).1

/-- The loop over the configured mappings creates no timer. -/
theorem AddedMappings.ts_eq (h : AddedMappings rlocs confs s s') : s'.ts = s.ts := by
  induction h with
  | stop | refused => rfl
  | entry db hinfo hrest ih => exact ih

/-- `program_map_register` when the Map-Register timers are those of stored entries. -/
theorem programMapRegister_current (hw : s.Wf) (h : RegistersCurrent (mdbForeachEntry s.localMdb) s)
    (hempty : s.mapServers = [] → RegistersCurrent [] s)
    (hrun : (programMapRegister W).run s = .ok (u, s')) : RegistersCurrent [] s' := by
  by_cases hservers : s.mapServers = []
  · rw [programMapRegister_nil hservers hrun]
    exact hempty hservers
  · exact programMapRegister_registers hw hservers h hrun

/-- Without Map-Register timers nothing has to be known. -/
theorem RegistersCurrent.of_none {pending : List Nat}
    (h : ∀ t ty mle ms, s.ts.kind t ≠ some (ty, .mapReg mle ms)) : RegistersCurrent pending s := by
  intro t ty a hk mle ms ha
  exact absurd (ha ▸ hk) (h t ty mle ms)

theorem processCall_registers (hw : s.Wf) (h : RegistersCurrent [] s)
    (hnil : call = .msCreate [] ∨ call = .msDelete → NoRegisters s)
    (hrun : (processCall W env call).run s = .ok (r, s')) : RegistersCurrent [] s' := by
  cases processCall_cases hrun with
  | refused => exact h
  | resolvers => exact h
  | servers => exact .of_none fun t ty mle ms => (hnil (.inr rfl)).registers hw
  | @registered list _ _ run =>
    have hw1 : ({ s with mapServers := list } : FbXtr).Wf :=
      (Safe.servers (W := W) hw).1
    refine programMapRegister_current hw1 (fun t ty a hk mle ms ha => ?_) (fun hservers => ?_) run
    · have hstored := (h t ty a hk mle ms ha).1
      exact ⟨hstored, .inl hstored⟩
    · have heq : list = [] := hservers
      exact .of_none fun t ty mle ms => (hnil (.inl (by rw [heq]))).registers hw
  | replaced run => exact .of_none (localMapDbReplace_registers W hw h run)
  | created replaced added done =>
    have hnone := localMapDbReplace_registers W hw h replaced
    have hw1 := (localMapDbReplace_safe (W := W) _ _ replaced hw).1
    have hw2 := (addConfMappings_safe (W := W) _ _ added hw1).1
    rw [← (addConfMappings_cases added).ts_eq] at hnone
    obtain rfl | ⟨u, run⟩ := done
    · exact .of_none hnone
    · exact programMapRegister_current hw2 (.of_none hnone) (fun _ => .of_none hnone) run
  | petrsCreated run =>
    exact (h.of_conserved W (fun h' =>
      Conserved.lmapiXtrPetrsCreate_keeps (Conserved.ofTimers_ignoresData _ _) (fun _ => trivial) h'
        env _) run).1
  | petrsDeleted run =>
    exact (h.of_conserved W (fun h' =>
      Conserved.petrsRemoveAll_keeps (Conserved.ofTimers_ignoresData _ _)
        (fun _ => trivial) h') run).1

/-- The invariant of the router is kept, and with it the references of the probing timers. -/
def ProbesSafe (s s' : FbXtr) : Prop :=
  s.Wf → s'.Wf ∧ ProbesFramed s s'

theorem ProbesSafe.refl (s : FbXtr) : ProbesSafe s s :=
  fun hw => ⟨hw, .of_mces rfl rfl fun _ _ _ hk => hk⟩

theorem ProbesSafe.trans (s1 s2 s3 : FbXtr) (h₁ : ProbesSafe s1 s2)
    (h2 : ProbesSafe s2 s3) : ProbesSafe s1 s3 := by
  intro hw
  obtain ⟨hw2, hf1⟩ := h₁ hw
  obtain ⟨hw3, hf2⟩ := h2 hw2
  exact ⟨hw3, hf1.trans hf2⟩

theorem ProbesSafe.localOnly (h : LocalOnly W s s') : ProbesSafe s s' :=
  fun hw => ⟨hw.of_local h, h.probesFramed hw⟩

/-- The servers and the local database play no part. -/
theorem ProbesSafe.servers (W : FbWorld) {mrs : List LispAddr}
    {mss : List MapServerElt} {db : Mdb Nat} {n : Nat} :
    ProbesSafe s { s with mapResolvers := mrs, mapServers := mss, localMdb := db, nextLoct := n } :=
  fun hw => ⟨(Safe.servers (W := W) hw).1, .of_mces rfl rfl fun _ _ _ hk => hk⟩

theorem ProbesSafe.of_eq {α : Type} {x : FbXtrM α}
    (h : ∀ a s', x.run s = .ok (a, s') → s' = s) : Stays ProbesSafe s x :=
  .of_same .refl h

theorem ProbesSafe.of_modify {f : FbXtr → FbXtr}
    (h : ProbesSafe s (f s)) : Stays ProbesSafe s (modify f : FbXtrM Unit) := by
  intro u s' hx
  obtain ⟨-, rfl⟩ := modify_ok.mp hx
  exact h

theorem localMapDbReplace_probesSafe (W : FbWorld) :
    Stays ProbesSafe s localMapDbReplace := by
  refine .bind .trans (.of_eq (by simp)) fun _ s1 _ => ?_
  refine .bind .trans (.forM .refl .trans
    (fun _ _ _ _ hx => .localOnly (mapLocalEntryDel_local (W := W) _ _ hx)) _ s1) fun _ s2 _ => ?_
  exact .of_modify (.servers W)

theorem addConfMappings_probesSafe (W : FbWorld) {count : Nat × Nat} :
    Stays ProbesSafe s (addConfMappings rlocs count confs) := fun _ _ h =>
  (addConfMappings_cases h).stays (W := W) .refl .trans (fun hl => .localOnly hl)
    (.servers W)

/-- Only the entry of the Proxy-ETRs changes. -/
structure PetrsOnly (s s' : FbXtr) : Prop where
  ts : s'.ts = s.ts
  petrs : s'.petrs = s.petrs
  on : s'.probeInterval = s.probeInterval
  cells : ∀ e, e ≠ s.petrs → s'.mces.cell e = s.mces.cell e

theorem PetrsOnly.refl (s : FbXtr) : PetrsOnly s s :=
  ⟨rfl, rfl, rfl, fun _ _ => rfl⟩

theorem PetrsOnly.trans (s1 s2 s3 : FbXtr) (h₁ : PetrsOnly s1 s2)
    (h2 : PetrsOnly s2 s3) : PetrsOnly s1 s3 :=
  ⟨h2.ts.trans h₁.ts, h2.petrs.trans h₁.petrs, h2.on.trans h₁.on, fun e he =>
    (h2.cells e (h₁.petrs ▸ he)).trans (h₁.cells e he)⟩

theorem PetrsOnly.edited {me me' : Mce BalancingLocatorsVecs}
    (h : Edited W s s' s.petrs me me') : PetrsOnly s s' := by
  refine ⟨by rw [h.rest], by rw [h.rest], by rw [h.rest], fun e he => ?_⟩
  rw [h.cells, if_neg he]

theorem petrsRemoveAll_petrsOnly (W : FbWorld) :
    Stays PetrsOnly s petrsRemoveAll := by
  intro u s' h
  obtain ⟨me, hed⟩ := petrsRemoveAll_edited (W := W) h
  exact .edited hed

theorem lmapiXtrPetrsCreate_petrsOnly {addrList : List IpAddr} :
    Stays PetrsOnly s (lmapiXtrPetrsCreate W env addrList) := by
  refine .bind .trans (petrsRemoveAll_petrsOnly W) fun _ s1 _ => ?_
  refine .bind .trans (.forM .refl .trans (fun _ _ _ _ hx => ?_) _ s1) fun _ s2 _ => ?_
  · obtain ⟨me, ret, m, -, hed⟩ := addProxyEtrEntry_edited (W := W) hx
    exact .edited hed
  intro r s' h
  rw [get_bind_ok] at h
  simp only [bind_ok, derefMce_ok, pure_ok] at h
  obtain ⟨me, _, ⟨-, rfl⟩, _, _, hup, -, rfl⟩ := h
  obtain ⟨me', info, hed⟩ := updatedMapCacheInf_spec hup
  exact .edited hed

theorem PetrsOnly.probesCurrent (h : PetrsOnly s s') (hnone : NoPetrProbes s)
    (hP : ProbesCurrent (fun _ => False) s) : ProbesCurrent (fun _ => False) s' := by
  refine ⟨fun t e p _ hk => ?_, fun hoff t e p => ?_⟩
  · rw [h.ts] at hk
    have hne : e ≠ s.petrs := by
      rintro rfl
      exact hnone t (Grown.lt_next_of_kind hk) _ hk rfl rfl
    rw [locatorsOf, h.cells e hne]
    exact hP.held t e p id hk
  · rw [h.on] at hoff
    rw [h.ts]
    exact hP.off hoff t e p

theorem processCall_probesCurrent (hw : s.Wf)
    (hnone : (∃ addrs, call = .petrsCreate addrs) ∨ call = .petrsDelete → NoPetrProbes s)
    (hP : ProbesCurrent (fun _ => False) s)
    (hrun : (processCall W env call).run s = .ok (r, s')) : ProbesCurrent (fun _ => False) s' := by
  have hsafe : ProbesSafe s s' → ProbesCurrent (fun _ => False) s' := fun h =>
    (h hw).2.current hP
  have hprogram : ∀ {s u s'}, (programMapRegister W).run s = .ok (u, s') → ProbesSafe s s' :=
    fun h => .localOnly (programMapRegister_timersOnly _ _ h).localOnly
  cases processCall_cases hrun with
  | refused => exact hP
  | resolvers => exact hsafe (.servers W)
  | servers => exact hsafe (.servers W)
  | registered run => exact hsafe (.trans _ _ _ (.servers W) (hprogram run))
  | replaced run => exact hsafe (localMapDbReplace_probesSafe W _ _ run)
  | created replaced added done =>
    have hadded := ProbesSafe.trans _ _ _ (localMapDbReplace_probesSafe W _ _ replaced)
      (addConfMappings_probesSafe W _ _ added)
    obtain rfl | ⟨u, run⟩ := done
    · exact hsafe hadded
    · exact hsafe (hadded.trans _ _ _ (hprogram run))
  | petrsCreated run =>
    exact (lmapiXtrPetrsCreate_petrsOnly _ _ run).probesCurrent (hnone (.inl ⟨_, rfl⟩)) hP
  | petrsDeleted run =>
    exact (petrsRemoveAll_petrsOnly W _ _ run).probesCurrent (hnone (.inr rfl)) hP

/-! ## Runs -/

theorem xtrCtrlConstruct_probes (conf : FbConf) :
    ProbesCurrent (fun _ => False) (xtrCtrlConstruct conf) := by
  refine ⟨fun t e p _ hk => ?_, fun _ t e p hk => ?_⟩
  · cases hk
  · cases hk

theorem DevStartedWith.probesCurrent (h : DevStartedWith W P d) :
    ProbesCurrent (fun _ => False) d.xtr := by
  refine h.induct (I := ProbesCurrent fun _ => False) (fun conf _ => xtrCtrlConstruct_probes conf)
    (fun conf a b m _ hw hstatic hP => ?_) fun conf a b _ _ hw hrun hP => ?_
  · cases hstatic with
    | skipped h => exact h.probesFramed.current hP
    | leaked info h =>
      have hframed : ProbesFramed a b :=
        .of_ts (by rw [h]) (by rw [h]) (locatorsOf_alloc (by rw [h]))
      exact hframed.current hP
    | added info s1 _ hc hp =>
      have hw1 := hc.wf hw nofun
      have hP1 := hc.probesFramed.current hP
      exact (hp hw1.timers).probesCurrent
        ⟨fun t e p hX => hP1.held t e p fun hf => hX (.inl hf), hP1.off⟩
  · cases hrun with
    | rtr _ h => exact (h.probesFramed hw).current hP
    | xtr s1 s2 _ ht hl hp =>
      have hw1 := ht.wf hw
      have hw2 := hw1.of_local hl
      have hP2 := (hl.probesFramed hw1).current (ht.probesFramed.current hP)
      exact (hp hw2.timers).probesCurrent
        ⟨fun t e p hX => hP2.held t e p fun hf => hX (.inl hf), hP2.off⟩

theorem DevStartedWith.registersCurrent (h : DevStartedWith W P d) : RegistersCurrent [] d.xtr := by
  obtain ⟨conf, env, u, -, hboot⟩ := h
  have hnew : RegistersCurrent [] (xtrCtrlConstruct conf) := fun _ _ _ hk => by cases hk
  refine (hnew.of_conserved W (fun h' => ?_) hboot).1
  refine .seq (Conserved.configureStatics_keeps trivial h' fun _ _ => trivial) fun _ s1 h1 =>
    .get_bind ?_
  split
  · exact Conserved.rtrRun_keeps (Conserved.ofTimers_writeRule _ _).toLocalRule h1
  · exact Conserved.xtrRun_keeps trivial (Conserved.ofTimers_writeRule _ _).toLocalRule h1

theorem DevReach.referencesCurrent (h : DevReach W P ReferencesKept d) :
    ReferencesCurrent d.xtr := by
  refine h.invariant_of (fun d hd => ⟨hd.registersCurrent, hd.probesCurrent⟩) ?_ ?_
  · intro d ev out s hw hok hx hI
    refine ⟨xtrStep_registers hI.registers hx, xtrStep_probesCurrent hw ?_ hI.probes hx⟩
    intro msg ra env hev
    cases ev <;> cases hev
    exact hok
  · intro d call env r s hw hok hx hI
    refine ⟨processCall_registers hw hI.registers ?_ hx,
      processCall_probesCurrent hw ?_ hI.probes hx⟩
    · rintro (rfl | rfl)
      · exact hok
      · exact hok
    · rintro (⟨addrs, rfl⟩ | rfl)
      · exact hok
      · exact hok

/-- What the argument of a timer points to is there: the local entry and the server of a
Map-Register timer, the locator of a probing timer. -/
def RefersCurrent (s : FbXtr) : TimerType → TimerArg → Prop
  | .MAP_REGISTER_TIMER, .mapReg mle ms =>
    mle ∈ mdbForeachEntry s.localMdb ∧ ∃ elt ∈ s.mapServers, elt.ptr = ms
  | .RLOC_PROBING_TIMER, .rlocProbe e p =>
    ∃ me, s.mces.cell e = some me ∧ ∃ l ∈ me.mapping.locators, l.ptr = p
  | .MAP_REGISTER_TIMER, _ | .RLOC_PROBING_TIMER, _ => False
  | _, _ => True

/-- In the runs that meet `ReferencesKept`, every running timer is live, a Map-Register timer is for
a map server that is configured and a local entry that is in the local database, and a probing timer
is for a locator of the mapping of its entry. -/
theorem timer_references_current {t : Nat} (h : DevReach W (fun _ => True) ReferencesKept d)
    (hrunning : d.xtr.ts.running t) :
    ∃ ty a, d.xtr.ts.kind t = some (ty, a) ∧ RefersCurrent d.xtr ty a := by
  obtain ⟨⟨ty, a⟩, hk⟩ := h.wf.timers.running_kind hrunning
  have hfits := h.wf.fits t ty a hk
  obtain ⟨hregisters, hprobes⟩ := h.referencesCurrent
  refine ⟨ty, a, hk, ?_⟩
  cases a with
  | mapReg mle ms =>
    obtain ⟨hstored, hpending | hserver⟩ := hregisters t ty _ hk mle ms rfl
    · cases hpending
    · cases ty <;> first | exact ⟨hstored, hserver⟩ | cases hfits
  | rlocProbe e p =>
    have hty : ty = .RLOC_PROBING_TIMER := by
      cases ty <;> first | rfl | cases hfits
    subst hty
    have hmem := hprobes.held t e p id hk
    rw [locatorsOf] at hmem
    cases hme : d.xtr.mces.cell e with
    | none =>
      rw [hme] at hmem
      cases hmem
    | some me =>
      rw [hme] at hmem
      exact ⟨me, hme, mem_map.mp hmem⟩
  | mce e => cases ty <;> trivial
  | mapReq e src => cases ty <;> trivial
  | xtr => cases ty <;> trivial

/-- How the map cache, the timer wheel and the table of nonces of a router fit together. -/
structure TablesFit (s : Xtr R) : Prop where
  /-- A key leads to a live entry of its own, for that EID. -/
  stored : ∀ k e, s.mapCache.stored k = some e → (∀ k', s.mapCache.stored k' = some e → k' = k) ∧
    ∃ me, s.mces.cell e = some me ∧ mdbKey me.mapping.eidPrefix = some k
  /-- An entry that awaits its Map-Reply can be found. -/
  awaiting : ∀ e me, s.mces.cell e = some me → me.active = .NOT_ACTIVE →
    ∃ k, s.mapCache.stored k = some e
  /-- A running timer is live and so is its entry, which awaits a reply if the timer retries. -/
  running : ∀ t, s.ts.running t → ∃ ty a, s.ts.kind t = some (ty, a) ∧ ∀ e, a.entry = some e →
    ∃ me, s.mces.cell e = some me ∧ (ty = .MAP_REQUEST_RETRY_TIMER → me.active = .NOT_ACTIVE)
  linked : (s.ts.wheel.links.map (·.timer)).Nodup
  /-- A nonce is accepted for a live timer that sent it. -/
  nonces : ∀ n t, s.ts.nonces n = some t → ∃ tm l, s.ts.timers.cell t = some tm ∧
    tm.type.hasNonces = true ∧ tm.noncesLst = some l ∧ n ∈ l

/-- In every run of a device, whatever events happen in which order. -/
theorem device_tables_fit (h : DevReach W P ok d) : TablesFit d.xtr := by
  have hw := h.wf
  refine ⟨fun k e hk => ⟨fun k' hk' => hw.stored_inj hk' hk, hw.stored_own k e hk⟩,
    hw.placeholder, fun t ht => ?_, hw.timers.linked_once, fun n t hn => ?_⟩
  · obtain ⟨⟨ty, a⟩, hk⟩ := hw.timers.running_kind ht
    refine ⟨ty, a, hk, fun e he => ?_⟩
    obtain ⟨me, hme⟩ := hw.owner_live t ty a e hk he
    exact ⟨me, hme, fun hty => hw.retry t a e me (hty ▸ hk) he hme⟩
  · obtain ⟨tm, l, htm, hl, hmem⟩ := hw.timers.nonce_listed n t hn
    exact ⟨tm, l, htm, hw.timers.list_type t tm htm (hl ▸ some_ne_none l), hl, hmem⟩

end Requests

/-- A packet misses the map cache. -/
theorem device_tables_fit_packet : ∃ d, LabDevReach d ∧
    d.xtr.ts.nonces 0 ≠ none ∧ TablesFit d.xtr := by
  obtain ⟨d, hd, hn⟩ : ∃ d, LabDevReach d ∧
      d.xtr.ts.nonces 0 ≠ none :=
    DevReach.of_events labDevConf labEnv [.ip (.v4 0xc0000201#32)] [.xtr labPacket] trivial
      (by decide +kernel)
  exact ⟨d, hd, hn, device_tables_fit hd⟩

/-- The device registers its prefix with one map server. -/
def labRegisteringConf : FbConf :=
  { labDevConf with mapServers := [⟨9, .ip (.v4 3), 1, [97], false⟩] }

/-- The map server is replaced by another; the new Map-Register timer is for the new one. -/
theorem timer_references_current_msCreate :
    ∃ d, DevReach labFbWorld (fun _ => True) ReferencesKept d ∧ d.xtr.ts.running 3 ∧
      d.xtr.ts.kind 3 = some (.MAP_REGISTER_TIMER, .mapReg 0 10) ∧
      ∃ ty a, d.xtr.ts.kind 3 = some (ty, a) ∧ RefersCurrent d.xtr ty a := by
  have hrun : ∃ d, DevReach labFbWorld (fun _ => True) ReferencesKept d ∧
      (∃ l ∈ d.xtr.ts.wheel.links, l.timer = 3) ∧
      d.xtr.ts.kind 3 = some (.MAP_REGISTER_TIMER, .mapReg 0 10) :=
    DevReach.of_events labRegisteringConf labEnv [.ip (.v4 0xc0000201#32)]
      [.api (.msCreate [⟨10, .ip (.v4 4), 1, [98], false⟩]) labEnv] trivial (by decide +kernel)
  obtain ⟨d, hd, hrunning, hk⟩ := hrun
  exact ⟨d, hd, hrunning, hk, timer_references_current hd hrunning⟩

/-- The map server is deleted, and its Map-Register timer runs on; the Proxy-ETR is deleted, and its
probing timer runs on. -/
theorem timer_references_dangling :
    (∃ d, LabDevReach d ∧ d.xtr.ts.running 0 ∧
      d.xtr.ts.kind 0 = some (.MAP_REGISTER_TIMER, .mapReg 0 9) ∧
      ¬ RefersCurrent d.xtr .MAP_REGISTER_TIMER (.mapReg 0 9)) ∧
    ∃ d, LabDevReach d ∧ d.xtr.ts.running 2 ∧
      d.xtr.ts.kind 2 = some (.RLOC_PROBING_TIMER, .rlocProbe 0 1) ∧
      ¬ RefersCurrent d.xtr .RLOC_PROBING_TIMER (.rlocProbe 0 1) := by
  have hserver : ∃ d, LabDevReach d ∧
      (∃ l ∈ d.xtr.ts.wheel.links, l.timer = 0) ∧
      d.xtr.ts.kind 0 = some (.MAP_REGISTER_TIMER, .mapReg 0 9) ∧
      d.xtr.mapServers.isEmpty = true :=
    DevReach.of_events labRegisteringConf labEnv [.ip (.v4 0xc0000201#32)] [.api .msDelete labEnv]
      trivial (by decide +kernel)
  have hpetr : ∃ d, LabDevReach d ∧
      (∃ l ∈ d.xtr.ts.wheel.links, l.timer = 2) ∧
      d.xtr.ts.kind 2 = some (.RLOC_PROBING_TIMER, .rlocProbe 0 1) ∧ locatorsOf d.xtr 0 = [] :=
    DevReach.of_events labRegisteringConf labEnv [.ip (.v4 0xc0000201#32)]
      [.api .petrsDelete labEnv]
      trivial (by decide +kernel)
  obtain ⟨d, hd, hrunning, hk, hempty⟩ := hserver
  obtain ⟨d', hd', hrunning', hk', hnone⟩ := hpetr
  refine ⟨⟨d, hd, hrunning, hk, ?_⟩, d', hd', hrunning', hk', ?_⟩
  · rintro ⟨-, elt, helt, -⟩
    rw [isEmpty_iff.mp hempty] at helt
    cases helt
  · rintro ⟨me, hme, l, hl, hptr⟩
    have hmem : (1 : Nat) ∈ locatorsOf d'.xtr 0 := by
      rw [locatorsOf, hme]
      exact mem_map.mpr ⟨l, hl, hptr⟩
    rw [hnone] at hmem
    cases hmem

end Lispmob
