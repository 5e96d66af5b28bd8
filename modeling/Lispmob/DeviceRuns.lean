import Lispmob.Conserved
import Lispmob.Control
import Lispmob.XtrChanges

/-!
# Invariants of the device

The requests of the management interface keep the invariant of the router, so it holds in every
state of every run of a device (`DevReach.wf`). `DevReach.invariant_of` is the rule for other
invariants: it asks for the start, for the pieces of a step of the router, and for the requests.
-/

namespace Lispmob

open Prog

section DeviceRuns

variable {W : FbWorld} {env : CtrlEnv} {rlocs : List LispAddr}
  {s s' : FbXtr} {d d' : Device} {u : Unit} {confs : List ConfMapping} {n : Nat}
  {e : Nat}

/-! ## Starting -/

theorem devBoot_cases {statics : List Mapping}
    (h : (devBoot W env rlocs statics).run s = .ok (u, s')) :
    ∃ u' s₁, (statics.forM (configureStatic W (env.withRlocs []))).run s = .ok (u', s₁) ∧
      RunStarted W s₁ s' := by
  rw [devBoot, bind_ok] at h
  obtain ⟨u', s₁, hstat, h⟩ := h
  -- the rest is the start of a router without static entries
  have hboot : (boot W (env.withRlocs rlocs) []).run s₁ = .ok (u, s') :=
    bind_ok.mpr ⟨⟨⟩, s₁, rfl, h⟩
  obtain ⟨_, s2, hnil, hrun⟩ := boot_cases hboot
  obtain ⟨-, rfl⟩ := pure_ok.mp hnil
  exact ⟨u', s2, hstat, hrun⟩

/-- An invariant `I` of configuring the static entries, from which `xtr_ctrl_run` leads to `J`. -/
theorem DevStartedWith.induct {I J : FbXtr → Prop} (h : DevStartedWith W P d)
    (hnew : ∀ conf, P conf → I (xtrCtrlConstruct conf))
    (hstatic : ∀ (conf : FbConf) a b m, m ∈ conf.statics → a.Wf →
      StaticConfigured W a b m → I a → I b)
    (hrun : ∀ (conf : FbConf) a b, P conf → a.mode = conf.mode → a.Wf →
      RunStarted W a b → I a → J b) : J d.xtr := by
  obtain ⟨conf, env, u, hP, h⟩ := h
  obtain ⟨u', s1, hstat, hstarted⟩ := devBoot_cases h
  obtain ⟨hw1, hI1, hmode⟩ := configureStatics_induct (hstatic conf) (List.Subset.refl _)
    (xtrCtrlConstruct_wf conf) (hnew conf hP) hstat
  exact hrun conf s1 d.xtr hP hmode hw1 hstarted hI1

theorem DevStartedWith.wf (h : DevStartedWith W P d) : d.xtr.Wf :=
  h.induct (I := fun _ => True) (fun _ _ => trivial) (fun _ _ _ _ _ _ _ _ => trivial)
    fun _ _ _ _ _ hw hrun _ => (hrun.safe hw).1

/-! ## Requests -/

/-- The servers, the local database and the next identity of a locator are no part of the
invariant. -/
theorem Safe.servers {mrs : List LispAddr} {mss : List MapServerElt} {db : Mdb Nat} :
    Safe W s { s with mapResolvers := mrs, mapServers := mss, localMdb := db, nextLoct := n } :=
  fun hw => ⟨⟨hw.timers, hw.smr, hw.fits, hw.stored_own, hw.placeholder, hw.owner_live, hw.retry,
    hw.petrs_active, hw.petrs_unstored⟩, .of_same rfl (Nat.le_refl _) rfl⟩

/-- Deleting a local entry touches no timer of a map-cache entry. -/
theorem mapLocalEntryDel_local {mle : Nat} : Stays (LocalOnly W) s (mapLocalEntryDel mle) := by
  intro u s' h
  obtain ⟨ts, hts, rfl⟩ := mapLocalEntryDel_eq h
  obtain ⟨hs, -⟩ := stopTimersFromObj_spec hts
  refine ⟨.of_ts (.stopTimersFromObj hts) hs.issued (Nat.le_refl _) rfl, rfl, fun hw _ => ?_⟩
  refine .of_released (stopTimersFromObj_released hw hts) fun i ty a e hk he hp => ?_
  obtain ⟨ty', a', hk', ho⟩ := hp
  rw [hk] at hk'
  cases hk'
  rw [TimerArg.entry_of_owner_mle ho] at he
  cases he

theorem localMapDbReplace_safe : Stays (Safe W) s localMapDbReplace := by
  refine .bind .trans (.of_eq (by simp)) fun _ s1 _ => ?_
  refine .bind .trans (.forM .refl .trans
    (fun _ _ _ _ hx => .localOnly (mapLocalEntryDel_local _ _ hx)) _ s1) fun _ s2 _ => ?_
  intro _ s' h
  obtain ⟨-, rfl⟩ := modify_ok.mp h
  exact .servers

/-- New local entries touch no timer and no map-cache entry. -/
theorem AddedMappings.stays {rel : FbXtr → FbXtr → Prop}
    (hr : ∀ s, rel s s) (ht : ∀ s₁ s₂ s₃, rel s₁ s₂ → rel s₂ s₃ → rel s₁ s₃)
    (hlocal : ∀ {s s'}, LocalOnly W s s' → rel s s')
    (hdb : ∀ {s : FbXtr} {db}, rel s { s with localMdb := db })
    (h : AddedMappings rlocs confs s s') : rel s s' := by
  induction h with
  | stop => exact hr _
  | @refused conf rest s =>
    have hnew : LocalOnly W s { s with mles := s.mles, ifaceLocatorsTable := conf.ifaces } :=
      .of_mles
    exact hlocal hnew
  | @entry conf rest s s' info db hinfo hrest ih =>
    have hnew : rel s (s.withEntry conf info s.localMdb) := hlocal .of_mles
    have hput : rel (s.withEntry conf info s.localMdb) (s.withEntry conf info db) := hdb
    exact ht _ _ _ (ht _ _ _ hnew hput) ih

theorem addConfMappings_safe {count : Nat × Nat} :
    Stays (Safe W) s (addConfMappings rlocs count confs) := fun _ _ h =>
  (addConfMappings_cases h).stays .refl .trans (fun hl => .localOnly hl) .servers

/-- The mapping of an entry is replaced by one with the same EID and TTL. -/
theorem Edited.of_mapping {me : Mce BalancingLocatorsVecs} {m : Mapping}
    (hme : s.mces.cell e = some me) (heid : m.eidPrefix = me.mapping.eidPrefix)
    (httl : m.ttl = me.mapping.ttl) (hn : s.nextLoct ≤ n) :
    Edited W s
      { s with mces := s.mces.modify e (fun me => { me with mapping := m }), nextLoct := n }
      e me { me with mapping := m } := by
  refine ⟨.of_same rfl (Nat.le_refl _) rfl, hme, ⟨rfl, rfl, heid, httl⟩, fun i => ?_, rfl, hn, rfl⟩
  rw [Heap.modify_cell]
  split_ifs with hi
  · rw [hme, Option.map_some]
  · rfl

/-- The mapping of the Proxy-ETRs loses its locators. -/
theorem petrsRemoveAll_edited (h : petrsRemoveAll.run s = .ok (u, s')) :
    ∃ me, Edited W s s' s.petrs me
      { me with mapping := { me.mapping with locatorsLists := [] } } := by
  rw [petrsRemoveAll, get_bind_ok, bind_ok] at h
  obtain ⟨me, s1, hme, h⟩ := h
  obtain ⟨hme, rfl⟩ := derefMce_ok.mp hme
  have hs' := setMceMapping_ok.mp h
  refine ⟨me, ?_⟩
  rw [hs']
  exact .of_mapping hme rfl rfl (Nat.le_refl _)

/-- A Proxy-ETR is added to the mapping, or released. -/
theorem addProxyEtrEntry_edited {addr : IpAddr} (h : (addProxyEtrEntry addr).run s = .ok (u, s')) :
    ∃ me ret m, mappingAddLocator me.mapping ⟨s.nextLoct, .ip addr, .UP, 1, 100, 255, 0⟩ =
        .ok (ret, m) ∧ Edited W s s' s.petrs me { me with mapping := m } := by
  rw [addProxyEtrEntry, get_bind_ok] at h
  simp only [bind_ok, derefMce_ok, lift_ok, modify_ok, setMceMapping_ok] at h
  obtain ⟨me, s, ⟨hme, rfl⟩, ⟨ret, m⟩, s, ⟨hadd, rfl⟩, _, _, ⟨-, rfl⟩, rfl⟩ := h
  have hkeeps := mappingAddLocator_keeps hadd
  exact ⟨me, ret, m, hadd, .of_mapping hme (by rw [hkeeps]) (by rw [hkeeps]) (Nat.le_succ _)⟩

theorem Safe.edited {me me' : Mce BalancingLocatorsVecs} (h : Edited W s s' e me me') :
    Safe W s s' :=
  fun hw => ⟨h.wf hw, h.evolves⟩

theorem petrsRemoveAll_safe : Stays (Safe W) s petrsRemoveAll := by
  intro u s' h
  obtain ⟨me, hed⟩ := petrsRemoveAll_edited h
  exact .edited hed

theorem programMapRegister_safe : Stays (Safe W) s (programMapRegister W) :=
  fun _ _ h => .localOnly (programMapRegister_timersOnly _ _ h).localOnly

theorem lmapiXtrPetrsCreate_safe {addrList : List IpAddr} :
    Stays (Safe W) s (lmapiXtrPetrsCreate W env addrList) := by
  refine .bind .trans petrsRemoveAll_safe fun _ s1 _ => ?_
  refine .bind .trans (.forM .refl .trans (fun _ _ _ _ hx => ?_) _ s1) fun _ s2 _ => ?_
  · obtain ⟨me, ret, m, -, hed⟩ := addProxyEtrEntry_edited hx
    exact .edited hed
  refine .bind .trans (.of_eq (by simp)) fun _ s3 _ => ?_
  refine .bind .trans (.of_eq (by simp)) fun me s4 _ => ?_
  refine .bind .trans (fun _ _ hx => ?_) fun _ _ _ => .of_eq (by simp)
  obtain ⟨me', info, hed⟩ := updatedMapCacheInf_spec hx
  exact .edited hed

/-- A request of the management interface keeps the invariant of the router. -/
theorem processCall_safe {call : ApiCall} : Stays (Safe W) s (processCall W env call) := by
  intro r s' h
  cases processCall_cases h with
  | refused => exact .refl _
  | resolvers => exact .servers
  | servers => exact .servers
  | registered run => exact .trans _ _ _ .servers (programMapRegister_safe _ _ run)
  | replaced run => exact localMapDbReplace_safe _ _ run
  | created replaced added done =>
    have hadded := Safe.trans (W := W) _ _ _ (localMapDbReplace_safe _ _ replaced)
      (addConfMappings_safe _ _ added)
    obtain rfl | ⟨u, run⟩ := done
    · exact hadded
    · exact hadded.trans _ _ _ (programMapRegister_safe _ _ run)
  | petrsCreated run => exact lmapiXtrPetrsCreate_safe _ _ run
  | petrsDeleted run => exact petrsRemoveAll_safe _ _ run

/-! ## Requests for the Proxy-ETRs -/

section Petrs

variable {bad : Fault → Prop} [SparesPointers bad] {C : Conserved W bad}

theorem Conserved.petrsRemoveAll_keeps (hC : C.IgnoresData) (hm : ∀ m, C.mapping m) (h : C.inv s) :
    C.Any s petrsRemoveAll :=
  SafeFrom.get_bind (Conserved.derefMce_bind fun _ _ => hC.setMceMapping_keeps h _ (hm _))

theorem Conserved.addProxyEtrEntry_keeps (hC : C.IgnoresData) (hm : ∀ m, C.mapping m) (h : C.inv s)
    (addr : IpAddr) : C.Any s (addProxyEtrEntry addr) := by
  refine SafeFrom.get_bind (Conserved.derefMce_bind fun _ _ => ?_)
  refine SafeFrom.lift_bind (mappingAddLocator_safe _ _) fun r _ => ?_
  exact Keeps.seq (Keeps.of_modify (C.rest h)) fun _ _ h2 => hC.setMceMapping_keeps h2 _ (hm _)

theorem Conserved.lmapiXtrPetrsCreate_keeps (hC : C.IgnoresData) (hm : ∀ m, C.mapping m)
    (h : C.inv s) (env : CtrlEnv) (addrList : List IpAddr) :
    C.Any s (lmapiXtrPetrsCreate W env addrList) := by
  refine .seq (Conserved.petrsRemoveAll_keeps hC hm h) fun _ s1 h1 => ?_
  refine .seq (.forM (fun addr _ _ hs => Conserved.addProxyEtrEntry_keeps hC hm hs addr) h1) ?_
  intro _ s2 h2
  refine SafeFrom.get_bind (Conserved.derefMce_bind fun _ _ => ?_)
  exact Keeps.ret (hC.updatedMapCacheInf_keeps h2)

theorem Conserved.lmapiXtrPetrsDelete_keeps (hC : C.IgnoresData) (hm : ∀ m, C.mapping m)
    (h : C.inv s) : C.Any s lmapiXtrPetrsDelete :=
  .ret (Conserved.petrsRemoveAll_keeps hC hm h)

end Petrs

/-! ## Runs -/

variable {P : FbConf → Prop} {ok : Device → DevEvent → Prop}

/-- The invariant of the router holds in every state of every run of a device. -/
theorem DevReach.wf (h : DevReach W P ok d) : d.xtr.Wf := by
  refine Reach.invariant (I := fun d => d.xtr.Wf) (fun d hd => hd.wf) ?_ h
  intro d ev r d' hw _ hstep
  obtain rfl | ⟨xev, out, s, -, hx, rfl⟩ | ⟨rlocs, -, rfl⟩ | ⟨call, env, r, s, -, -, hx, rfl⟩ :=
    devStep_cases hstep
  · exact hw
  · exact ((xtrStep_changes _ _ _ hx) hw).1.1
  · exact hw
  · exact (processCall_safe _ _ hx hw).1

/-- What holds at the start, and what the steps of the router and the requests that meet `ok` keep,
holds in every state of every run. -/
theorem DevReach.invariant_of {I : FbXtr → Prop}
    (hstart : ∀ d, DevStartedWith W P d → I d.xtr)
    (hxtr : ∀ d ev out s, d.xtr.Wf → ok d (.xtr ev) →
      (xtrStep W (ev.withRlocs d.rlocs)).run d.xtr = .ok (out, s) → I d.xtr → I s)
    (hapi : ∀ d call env r s, d.xtr.Wf → ok d (.api call env) →
      (processCall W (env.withRlocs d.rlocs) call).run d.xtr = .ok (r, s) → I d.xtr → I s)
    (h : DevReach W P ok d) : I d.xtr := by
  have hboth : d.xtr.Wf ∧ I d.xtr := by
    refine Reach.invariant (I := fun d => d.xtr.Wf ∧ I d.xtr)
      (fun d hd => ⟨hd.wf, hstart d hd⟩) ?_ h
    intro d ev r d' hd hok hstep
    obtain rfl | ⟨xev, out, s, rfl, hx, rfl⟩ | ⟨rlocs, -, rfl⟩ |
      ⟨call, env, r, s, rfl, -, hx, rfl⟩ :=
      devStep_cases hstep
    · exact hd
    · exact ⟨((xtrStep_changes _ _ _ hx) hd.1).1.1, hxtr d xev out s hd.1 hok hx hd.2⟩
    · exact hd
    · exact ⟨(processCall_safe _ _ hx hd.1).1, hapi d call env r s hd.1 hok hx hd.2⟩
  exact hboth.2

end DeviceRuns

end Lispmob
