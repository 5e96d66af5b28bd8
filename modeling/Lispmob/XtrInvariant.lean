import Lispmob.HandlerEffects

/-!
# The invariant of the router

The effects of the modules before, and with them the callbacks of the timers, keep `Xtr.Wf` and
evolve the timers and nonces as `Evolves` says; `Safe` is the two together. The router starts in a
state that meets `Xtr.Wf`: `StartedWith.wf`.
-/

namespace Lispmob

open Prog List

section Invariant

variable {R F : Type} {W : World R F} {env : CtrlEnv} {s s' s1 s2 s3 : Xtr R} {t e : Nat}
  {m : Mapping} {src : LispAddr} {statics : List Mapping} {P : XtrConf R → Prop} {ty : TimerType}
  {a : TimerArg} {me : Mce R} {u : Unit}

/-! ## The effects keep the invariant -/

theorem Xtr.Wf.of_relinked {ts : Timers TimerOwner TimerArg} {n ticks : Nat} (hw : s.Wf)
    (hts : s.ts.Evolves TimerArg.owner TimerArg.fits ts) (h : Relinked s.ts ts t ticks) :
    ({ s with ts := ts, nonceCalls := n } : Xtr R).Wf := by
  refine hw.of_ts hts fun i hi ty a e hk _ => ?_
  rw [h.kind] at hk
  exact absurd (Grown.lt_next_of_kind hk) (Nat.not_lt.mpr hi)

theorem Refired.wf (h : Refired W s s' t) (hw : s.Wf) : s'.Wf := by
  obtain ⟨ticks, hr⟩ := h.relinked
  rw [h.rest]
  exact hw.of_relinked h.evolves.ts hr

/-- A new running timer of a live entry, not a retry timer, keeps the invariant. -/
theorem StartedFor.wf {ticks : Nat}
    (h : StartedFor W s s' ty a ticks) (hw : s.Wf) (ha : a.entry = some e)
    (hme : s.mces.cell e = some me) (hty : ty ≠ .MAP_REQUEST_RETRY_TIMER) : s'.Wf := by
  rw [h.rest]
  refine hw.of_ts h.evolves.ts fun t ht ty' a' e' hk he' => ?_
  rcases (h.grown hw.timers).kind_cases hk with hk | ⟨-, y, hy, heq⟩
  · exact absurd (Grown.lt_next_of_kind hk) (Nat.not_lt.mpr ht)
  · rw [mem_singleton] at hy
    subst hy
    cases heq
    rw [ha] at he'
    cases he'
    exact ⟨me, hme, fun hret => absurd hret hty⟩

/-- A new timer of a live entry that is not started yet keeps the invariant. -/
theorem Listed.wf (h : Listed W s s' ty a)
    (hw : s.Wf) (ha : a.entry = some e) (hme : s.mces.cell e = some me)
    (hty : ty = .MAP_REQUEST_RETRY_TIMER → me.active = .NOT_ACTIVE) : s'.Wf := by
  rw [h.rest]
  refine hw.of_ts h.evolves.ts fun t ht ty' a' e' hk he' => ?_
  rw [h.kind] at hk
  split_ifs at hk
  · cases hk
    rw [ha] at he'
    cases he'
    exact ⟨me, hme, hty⟩
  · exact absurd (Grown.lt_next_of_kind hk) (Nat.not_lt.mpr ht)

theorem Reprobed.wf (h : Reprobed W s s' e) (hw : s.Wf) : s'.Wf := by
  rw [h.rest]
  refine hw.of_ts h.evolves.ts fun t ht ty a e' hk he' => ?_
  by_cases hoff : s.probeInterval = 0
  · rw [h.off hoff] at hk
    exact absurd (Grown.lt_next_of_kind hk) (Nat.not_lt.mpr ht)
  · obtain ⟨ts, me, hme, hrel, hgrown⟩ := h.on hoff
    rcases hgrown.kind_cases hk with hk | ⟨-, y, hy, heq⟩
    · exact absurd (Grown.lt_next_of_kind (hrel.kind_le t _ hk)) (Nat.not_lt.mpr ht)
    · obtain ⟨l, -, rfl⟩ := mem_map.mp hy
      cases heq
      cases he'
      exact ⟨me, hme, nofun⟩

theorem TimerStopped.wf (h : TimerStopped W s s' t) (hw : s.Wf) : s'.Wf := by
  rw [h.rest]
  refine hw.of_ts h.evolves.ts fun i hi ty a e hk _ => ?_
  exact absurd (Grown.lt_next_of_kind ((h.released hw.timers).kind_le i _ hk)) (Nat.not_lt.mpr hi)

theorem Xtr.Wf.of_accepted (hw : s.Wf) {f : Nat → Option (Nat × UInt32)} :
    ({ s with accepted := f } : Xtr R).Wf :=
  ⟨hw.timers, hw.smr, hw.fits, hw.stored_own, hw.placeholder, hw.owner_live, hw.retry,
    hw.petrs_active, hw.petrs_unstored⟩

/-! ## Safe pieces of code -/

/-- The code keeps the invariant and evolves the timers and nonces. -/
def Safe (W : World R F) (s s' : Xtr R) : Prop :=
  s.Wf → s'.Wf ∧ Evolves W s s'

namespace Safe

theorem refl (s : Xtr R) : Safe W s s :=
  fun hw => ⟨hw, .refl s⟩

theorem trans (s1 s2 s3 : Xtr R) (h₁ : Safe W s1 s2) (h₂ : Safe W s2 s3) : Safe W s1 s3 := by
  intro hw
  obtain ⟨hw2, hev1⟩ := h₁ hw
  obtain ⟨hw3, hev2⟩ := h₂ hw2
  exact ⟨hw3, hev1.trans hev2⟩

theorem of_eq {α : Type} {x : XtrM R α} (h : ∀ a s', x.run s = .ok (a, s') → s' = s) :
    Stays (Safe W) s x :=
  .of_same refl h

theorem idle (h : Idle W s s') : Safe W s s' :=
  fun hw => ⟨h.wf hw, h.evolves⟩

theorem localOnly (h : LocalOnly W s s') : Safe W s s' :=
  fun hw => ⟨hw.of_local h, h.evolves⟩

end Safe

theorem trMcacheRemoveEntry_safe : Stays (Safe W) s (trMcacheRemoveEntry e) := by
  intro r s' h hw
  obtain ⟨me, -, ⟨k, d, -, hrem⟩ | ⟨-, hidle⟩⟩ := trMcacheRemoveEntry_cases (W := W) hw h
  · exact ⟨hrem.wf hw, hrem.evolves⟩
  · exact ⟨hidle.wf hw, hidle.evolves⟩

theorem Refreshed.safe (h : Refreshed W s s' e m) : Safe W s s' := by
  intro hw
  obtain ⟨me, me', s1, s2, s3, hed, -, htimer, hprobe, rfl⟩ := h
  have hw1 := hed.wf hw
  have hw2 : s2.Wf := htimer.wf hw1 rfl hed.is nofun
  have hrep := hprobe hw2.timers
  have hw3 := hrep.wf hw2
  have hev3 : Evolves W s s3 := hed.evolves.trans (htimer.evolves.trans hrep.evolves)
  exact ⟨hw3.of_accepted, hev3.trans (.of_same rfl (Nat.le_refl _) rfl)⟩

theorem Handled.safe (h : Handled W t s s') : Safe W s s' := by
  cases h with
  | idle h => exact .idle h
  | touched h => exact fun hw => ⟨h.wf hw, h.evolves⟩
  | refired ht h => exact fun hw => ⟨h.wf (ht.wf hw), ht.evolves.trans h.evolves⟩
  | removed h => exact trMcacheRemoveEntry_safe _ _ h

/-- The key of a placeholder for an address is free when no entry covers the address. -/
theorem free_of_miss {a : IpAddr} {k : MdbKey}
    (hmiss : mdbLookupEntry s.mapCache (.ip a) = .ok none)
    (hkey : mdbKey (mappingNewInit (.ip a)).eidPrefix = some k) : s.mapCache.stored k = none := by
  have hk : k = .ip (ipAddrAfi a) (ipBits a) := by
    simp only [mappingNewInit, lispAddrLafi, if_true, lispAddrIpToIppref, mdbKey,
      take_default_mask, Option.some.injEq] at hkey
    exact hkey.symm
  rw [hk]
  exact mdbLookupEntry_ip_none hmiss (prefix_refl _)

/-- A placeholder with its retry timer, before the first Map-Request. -/
theorem missed_wf {a : IpAddr} {info : Option R}
    (hmiss : mdbLookupEntry s.mapCache (.ip a) = .ok none) (hw : s.Wf)
    (hc : EntryCreated s s1 ⟨.MCE_DYNAMIC, .NOT_ACTIVE, mappingNewInit (.ip a), info⟩)
    (hl : Listed W s1 s2 .MAP_REQUEST_RETRY_TIMER (.mapReq s.mces.next src)) : s2.Wf := by
  have hw1 := hc.wf hw fun _ k hkey => free_of_miss hmiss hkey
  exact hl.wf hw1 rfl hc.new fun _ => rfl

/-- A timer of an entry that was found, before the first Map-Request. -/
theorem solicited_wf {req : LispAddr} {d : Nat}
    (hfound : mdbLookupEntry s.mapCache req = .ok (some d)) (hw : s.Wf)
    (hl : Listed W s s1 .SMR_INV_RETRY_TIMER (.mapReq d src)) : s1.Wf := by
  obtain ⟨k, hk⟩ := lookup_stored hfound
  obtain ⟨md, hmd, -⟩ := hw.stored_own k _ hk
  exact hl.wf hw rfl hmd nofun

/-- The handling of a probe answer for a live entry. -/
theorem handleLocatorProbeReply_safe {addr : LispAddr} :
    Stays (Safe W) s (handleLocatorProbeReply W env e addr) := by
  intro r s' h hw
  obtain ⟨me, hme, ⟨-, rfl⟩ | ⟨loct, s1, -, ht, hstart⟩⟩ := handleLocatorProbeReply_cases h
  · exact ⟨hw, .refl _⟩
  · obtain ⟨me1, hme1, -⟩ := ht.fwd e me hme
    exact ⟨hstart.wf (ht.wf hw) rfl hme1 nofun, ht.evolves.trans hstart.evolves⟩

theorem timerCb_safe : Stays (Safe W) s (timerCb W env t) := by
  intro u s' h
  obtain h | h := timerCb_handled h
  · exact h.safe
  · exact .localOnly h

theorem wheel_safe {w : TimerWheel}
    (hwf : s.ts.Wf TimerArg.owner → ({ s.ts with wheel := w } : Timers _ _).Wf TimerArg.owner) :
    Safe W s { s with ts := { s.ts with wheel := w } } := by
  have hev : s.ts.Evolves TimerArg.owner TimerArg.fits { s.ts with wheel := w } :=
    .of_kind_le hwf rfl (fun _ _ h => h) fun _ h => h
  intro hw
  refine ⟨hw.of_ts hev fun t ht ty a e hk _ => ?_, .of_ts hev rfl (Nat.le_refl _) rfl⟩
  exact absurd (Grown.lt_next_of_kind hk) (Nat.not_lt.mpr ht)

/-! ## Starting -/

/-- What the configuration of a static entry does. When the EID cannot be stored the entry is not
released. -/
inductive StaticConfigured (W : World R F) (s s' : Xtr R) (m : Mapping) : Prop where
  | skipped (h : Idle W s s')
  | leaked (info : Option R)
      (h : s' = { s with mces := s.mces.alloc ⟨.MCE_STATIC, .ACTIVE, m, info⟩ })
  | added (info : Option R) (s1 : Xtr R)
      (hlook : mdbLookupEntryExact s.mapCache m.eidPrefix = .ok none)
      (hc : EntryCreated s s1 ⟨.MCE_STATIC, .ACTIVE, m, info⟩)
      (hp : s1.ts.Wf TimerArg.owner → Reprobed W s1 s' s.mces.next)

theorem configureStatic_cases (hw : s.Wf)
    (h : (configureStatic W env m).run s = .ok (u, s')) : StaticConfigured W s s' m := by
  rw [configureStatic, bind_ok] at h
  obtain ⟨o, s1, hlook, h⟩ := h
  obtain ⟨hlook, rfl⟩ := mcacheLookupExact_ok.mp hlook
  cases o with
  | some d =>
    obtain ⟨-, rfl⟩ := pure_ok.mp h
    exact .skipped (.refl _)
  | none =>
    simp only [trMcacheAddStaticMapping, mcacheEntryNew, newMapCachePolicyInf, bind_ok,
      get_ok, set_ok, lift_ok, setMceRoutingInfo_ok, pure_ok] at h
    obtain
      ⟨r, _, ⟨_, _, ⟨_, s, ⟨rfl, rfl⟩, _, _, ⟨-, rfl⟩, rfl, rfl⟩, _, _, ⟨info, _, ⟨-, rfl⟩, _, _,
      rfl, rfl, rfl⟩, h⟩, -, rfl⟩ := h
    simp only [Heap.alloc_modify] at h
    split_ifs at h
    · simp only [mcacheAddEntry, bind_ok, get_ok, lift_ok, modify_ok,
        pure_ok] at h
      obtain ⟨ret, _, ⟨_, _, ⟨rfl, rfl⟩, ⟨_, db⟩, _, ⟨hdb, rfl⟩, _, _, ⟨-, rfl⟩, rfl, rfl⟩, h⟩ := h
      split_ifs at h with hret
      · simp only [bind_ok, pure_ok] at h
        obtain ⟨_, _, hprog, -, rfl⟩ := h
        subst hret
        obtain ⟨k, hkey, hst⟩ := mdbAddEntry_stored hdb
        exact .added info _ hlook ⟨rfl, ⟨k, hkey, hst⟩, rfl⟩ fun hw =>
          programMceRlocProbing_spec hw hprog
      · obtain ⟨-, rfl⟩ := pure_ok.mp h
        rw [mdbAddEntry_bad hdb hret]
        exact .leaked info rfl
    · simp only [bind_ok, mcacheEntryDel_ok, pure_ok] at h
      obtain ⟨_, _, ⟨ts, md, hts, -, rfl⟩, -, rfl⟩ := h
      exact .skipped (discarded_idle hw hts)

/-- What `xtr_ctrl_run` does after the static entries are configured. -/
inductive RunStarted (W : World R F) (s s' : Xtr R) : Prop where
  | rtr (hmode : s.mode = .RTR_MODE) (h : LocalOnly W s s')
  | xtr (s1 s2 : Xtr R) (hmode : s.mode ≠ .RTR_MODE) (ht : Touched W s s1)
      (hl : LocalOnly W s1 s2) (hp : s2.ts.Wf TimerArg.owner → Reprobed W s2 s' s.petrs)

theorem boot_cases (h : (boot W env statics).run s = .ok (u, s')) :
    ∃ u' s1, (statics.forM (configureStatic W env)).run s = .ok (u', s1) ∧ RunStarted W s1 s' := by
  rw [boot, bind_ok] at h
  obtain ⟨u', s1, hstat, h⟩ := h
  refine ⟨u', s1, hstat, ?_⟩
  rw [get_bind_ok] at h
  split at h
  · rename_i hmode
    rw [rtrRun, get_bind_ok] at h
    split at h
    · exact .rtr hmode (updatedMapLocInf_local _ _ h)
    · obtain ⟨-, rfl⟩ := pure_ok.mp h
      exact .rtr hmode (.refl _)
  · rename_i hmode
    rw [xtrRun, get_bind_ok, bind_ok] at h
    obtain ⟨petr, s2, hpetr, h⟩ := h
    obtain ⟨-, rfl⟩ := derefMce_ok.mp hpetr
    -- what follows the update of the Proxy-ETRs is about the local mappings, up to the last call
    have htail : ∀ s3 : Xtr R, Touched W s2 s3 →
        (do
          (mdbForeachEntry s2.localMdb).forM (updatedMapLocInf W env)
          programMapRegister W
          programSmr 1
          programMceRlocProbing s2.petrs : XtrM R Unit).run s3 = .ok (u, s') →
        RunStarted W s2 s' := by
      intro s3 ht h
      simp only [bind_ok] at h
      obtain ⟨_, s4, h1, _, s5, h2, _, s6, h3, h4⟩ := h
      have hl : LocalOnly W s3 s6 :=
        .trans _ _ _ (Stays.forM .refl .trans (fun _ _ => updatedMapLocInf_local) _ _ _ _ h1)
          (.trans _ _ _ (programMapRegister_timersOnly _ _ h2).localOnly (programSmr_local _ _ h3))
      exact .xtr s3 s6 hmode ht hl fun hw => programMceRlocProbing_spec hw h4
    split_ifs at h
    · obtain ⟨_, s3, hup, h⟩ := bind_ok.mp h
      exact htail s3 (updatedMapCacheInf_touched hup) h
    · exact htail s2 (.refl _) h

theorem StaticConfigured.safe (h : StaticConfigured W s s' m) : Safe W s s' := by
  cases h with
  | skipped h => exact .idle h
  | leaked info h =>
    intro hw
    rw [h]
    refine ⟨hw.of_alloc rfl rfl (fun _ _ hk => hk)
      (fun _ _ hk => .inl hk) nofun, .of_same rfl (Nat.le_refl _) rfl⟩
  | added info s1 _ hc hp =>
    intro hw
    have hw1 := hc.wf hw nofun
    have hev1 : Evolves W s s1 := by
      rw [hc.rest]
      exact .of_same rfl (Nat.le_refl _) rfl
    have hrep := hp hw1.timers
    exact ⟨hrep.wf hw1, hev1.trans hrep.evolves⟩

theorem RunStarted.safe (h : RunStarted W s s') : Safe W s s' := by
  cases h with
  | rtr _ h => exact .localOnly h
  | xtr s1 s2 _ ht hl hp =>
    intro hw
    have hw1 := ht.wf hw
    have hw2 := hw1.of_local hl
    have hrep := hp hw2.timers
    exact ⟨hrep.wf hw2, ht.evolves.trans (hl.evolves.trans hrep.evolves)⟩

theorem xtrCtrlConstruct_wf (conf : XtrConf R) : (xtrCtrlConstruct conf).Wf := by
  have hcell : ∀ i, (xtrCtrlConstruct conf).mces.cell i =
      if i = 0 then some (petrsEntry conf) else none := fun i => rfl
  have hempty : ∀ k, (xtrCtrlConstruct conf).mapCache.stored k = none := mdbNew_stored
  refine ⟨.init, ?_, ?_, ?_, ?_, ?_, ?_, ⟨petrsEntry conf, rfl, rfl⟩, ?_⟩
  · intro t ht
    cases ht
  · intro t ty a hk
    cases hk
  · intro k e hk
    rw [hempty] at hk
    cases hk
  · intro e me hme hact
    rw [hcell] at hme
    split_ifs at hme
    cases hme
    cases hact
  · intro t ty a e hk
    cases hk
  · intro t a e me hk
    cases hk
  · intro k hk
    rw [hempty] at hk
    cases hk

theorem xtrCtrlConstruct_issuedOk (conf : XtrConf R) : IssuedOk W (xtrCtrlConstruct conf) := by
  constructor
  · intro p hp
    cases hp
  · exact fun _ => nodup_nil

/-- The router starts in a state that meets the invariant. -/
theorem StartedWith.wf (h : StartedWith W P s) : s.Wf ∧ IssuedOk W s := by
  obtain ⟨conf, env, u, -, h⟩ := h
  obtain ⟨u', s1, hstat, hrun⟩ := boot_cases h
  have hsafe : Safe W (xtrCtrlConstruct conf) s1 := by
    refine Stays.forM Safe.refl Safe.trans (fun m s => ?_) _ _ _ _ hstat
    exact fun _ _ hx hw => (configureStatic_cases hw hx).safe hw
  obtain ⟨hw, hev⟩ := Safe.trans _ _ _ hsafe hrun.safe (xtrCtrlConstruct_wf conf)
  exact ⟨hw, hev.issued (xtrCtrlConstruct_issuedOk conf)⟩

/-- What the configuration of every static entry keeps, that of all of them keeps. -/
theorem configureStatics_induct {I : Xtr R → Prop}
    (hstatic : ∀ a b m, m ∈ statics → a.Wf → StaticConfigured W a b m → I a → I b) :
    ∀ {l : List Mapping} {a b : Xtr R} {u : PUnit}, l ⊆ statics → a.Wf → I a →
      (l.forM (configureStatic W env)).run a = .ok (u, b) → b.Wf ∧ I b ∧ b.mode = a.mode
  | [], a, b, u, _, hw, hI, hl => by
    obtain ⟨-, rfl⟩ := pure_ok.mp hl
    exact ⟨hw, hI, rfl⟩
  | m :: rest, a, b, u, hsub, hw, hI, hl => by
    obtain ⟨_, a1, h1, hl⟩ := bind_ok.mp hl
    have hconf := configureStatic_cases hw h1
    have hw1 := (hconf.safe hw).1
    have hmode : a1.mode = a.mode := by
      cases hconf with
      | skipped h => rw [h.rest]
      | leaked info h => rw [h]
      | added info s2 _ hc hp =>
        rw [(hp (hc.wf hw nofun).timers).rest, hc.rest]
    obtain ⟨hwb, hIb, hmb⟩ := configureStatics_induct hstatic
      (fun _ hx => hsub (mem_cons_of_mem _ hx)) hw1
      (hstatic a a1 m (hsub mem_cons_self) hw hconf hI) hl
    exact ⟨hwb, hIb, hmb.trans hmode⟩

/-- An invariant `I` of configuring the static entries, from which `xtr_ctrl_run` leads to `J`. -/
theorem StartedWith.induct {I J : Xtr R → Prop} (h : StartedWith W P s)
    (hnew : ∀ conf, P conf → I (xtrCtrlConstruct conf))
    (hstatic : ∀ (conf : XtrConf R) a b m, m ∈ conf.statics → a.Wf → StaticConfigured W a b m →
      I a → I b)
    (hrun : ∀ (conf : XtrConf R) a b, P conf → a.mode = conf.mode → a.Wf → RunStarted W a b →
      I a → J b) : J s := by
  obtain ⟨conf, env, u, hP, h⟩ := h
  obtain ⟨u', s1, hstat, hstarted⟩ := boot_cases h
  obtain ⟨hw1, hI1, hmode⟩ := configureStatics_induct (hstatic conf) (List.Subset.refl _)
    (xtrCtrlConstruct_wf conf) (hnew conf hP) hstat
  exact hrun conf s1 s hP hmode hw1 hstarted hI1

end Invariant

end Lispmob
