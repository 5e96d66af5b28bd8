import Lispmob.Conserved
import Lispmob.Control
import Lispmob.HandlerEffects

/-!
# The vectors of the map-cache entries

Every handler of a message, a packet or a timer that replaces the locators of a map-cache entry or
changes the state of one computes its vectors again, from the mapping as it is then. So the vectors
of all entries stay those of their mappings (`Upkeep`), with one exception: a probing timer that
runs out marks the locator of its own entry as down, and recomputes the vectors of the entry that is
stored under the same EID.
-/

namespace Lispmob

open Prog Option

section CacheVectors

variable {pktTupleHash : PacketTuple → UInt32} {nonces : Nat → Nonce}
  {hmac : Hmac} {env : CtrlEnv} {rlocs : List LispAddr}
  {s s' s1 s2 s3 : FbXtr} {e t : Nat} {loc : Nat} {m : Mapping} {α : Type}

/-! ## Code that leaves the entries alone -/

/-- The map-cache entries, the local entries, where the latter are stored and their links to the
interfaces are the same. -/
structure Framed (s s' : FbXtr) : Prop where
  mces : s'.mces = s.mces
  mles : s'.mles = s.mles
  links : s'.links = s.links
  petrs : s'.petrs = s.petrs
  mode : s'.mode = s.mode
  localMdb : s'.localMdb = s.localMdb
  allLocsMap : s'.allLocsMap = s.allLocsMap

namespace Framed

theorem refl (s : FbXtr) : Framed s s :=
  ⟨rfl, rfl, rfl, rfl, rfl, rfl, rfl⟩

theorem trans (s1 s2 s3 : FbXtr) (h1 : Framed s1 s2) (h2 : Framed s2 s3) :
    Framed s1 s3 :=
  ⟨h2.mces.trans h1.mces, h2.mles.trans h1.mles, h2.links.trans h1.links,
    h2.petrs.trans h1.petrs, h2.mode.trans h1.mode, h2.localMdb.trans h1.localMdb,
    h2.allLocsMap.trans h1.allLocsMap⟩

/-- The timers, the map cache and the records of what happened may change. -/
theorem of_other {ts : Timers TimerOwner TimerArg} {n k : Nat} {db : Mdb Nat} {smr : Option Nat}
    {tick : Bool} {now : Nat} {accepted : Nat → Option (Nat × UInt32)} :
    Framed s { s with
      ts := ts, nonceCalls := n, nextLoct := k, mapCache := db, smrTimer := smr, inTick := tick,
      now := now, accepted := accepted } :=
  ⟨rfl, rfl, rfl, rfl, rfl, rfl, rfl⟩

theorem of_eq {x : FbXtrM α}
    (h : ∀ a s', x.run s = .ok (a, s') → s' = s) : Stays Framed s x :=
  .of_same refl h

theorem onTimers {f : Timers TimerOwner TimerArg → Except Fault (Timers TimerOwner TimerArg)} :
    Stays Framed s (Lispmob.onTimers f) := by
  intro u s' h
  obtain ⟨ts, -, rfl⟩ := onTimers_ok.mp h
  exact .of_other

end Framed

theorem newTimer_framed {ty : TimerType} {arg : TimerArg} {obj : TimerOwner}
    {nl : Option (List Nonce)} : Stays Framed s (newTimer ty arg obj nl) := by
  intro timer s' h
  obtain ⟨-, rfl⟩ := newTimer_ok.mp h
  exact .of_other

theorem programRlocProbing_framed {time : Int} : Stays Framed s (programRlocProbing e time loc) :=
  .bind .trans newTimer_framed fun _ _ _ => .onTimers

theorem programMceRlocProbing_framed : Stays Framed s (programMceRlocProbing e) := by
  refine .bind .trans (.of_eq (by simp)) fun s0 s1 _ => ?_
  split_ifs
  · exact .of_eq (by simp)
  · exact .bind .trans .onTimers fun _ _ _ => .bind .trans (.of_eq (by simp))
      fun _ s2 _ => .forM .refl .trans (fun _ _ => programRlocProbing_framed) _ s2

/-! ## Current vectors -/

/-- The stored vectors are those of the mapping. -/
def Current (rlocs : List LispAddr) (m : Mapping) (info : Option BalancingLocatorsVecs) : Prop :=
  ∃ v, info = some v ∧ balancingVectorsCalculate rlocs m = .ok v

/-- The vectors of a map-cache entry are those of its mapping. A re-encapsulating router has no
Proxy-ETRs, and no vectors for them. -/
def EntryCurrent (rlocs : List LispAddr) (s : FbXtr) (e : Nat)
    (me : Mce BalancingLocatorsVecs) : Prop :=
  Current rlocs me.mapping me.routingInfo ∨
    me.routingInfo = none ∧ e = s.petrs ∧ s.mode = .RTR_MODE

/-- The vectors of all map-cache entries are current. -/
def CacheCurrent (rlocs : List LispAddr) (s : FbXtr) : Prop :=
  ∀ e me, s.mces.cell e = some me → EntryCurrent rlocs s e me

/-- What the handlers do: current vectors stay current, and the local entries are not touched. -/
structure Upkeep (rlocs : List LispAddr) (s s' : FbXtr) : Prop where
  cache : CacheCurrent rlocs s → CacheCurrent rlocs s'
  mles : s'.mles = s.mles
  links : s'.links = s.links
  petrs : s'.petrs = s.petrs
  mode : s'.mode = s.mode

namespace Upkeep

theorem refl (s : FbXtr) : Upkeep rlocs s s :=
  ⟨id, rfl, rfl, rfl, rfl⟩

theorem trans (s1 s2 s3 : FbXtr) (h1 : Upkeep rlocs s1 s2)
    (h2 : Upkeep rlocs s2 s3) : Upkeep rlocs s1 s3 :=
  ⟨fun h => h2.cache (h1.cache h), h2.mles.trans h1.mles, h2.links.trans h1.links,
    h2.petrs.trans h1.petrs, h2.mode.trans h1.mode⟩

/-- An entry has the mapping and the vectors it had, or has been given its vectors. -/
theorem of_cells (hcells : ∀ i me, s'.mces.cell i = some me →
      (∃ me₀, s.mces.cell i = some me₀ ∧ me₀.mapping = me.mapping ∧
        me₀.routingInfo = me.routingInfo) ∨ Current rlocs me.mapping me.routingInfo)
    (hmles : s'.mles = s.mles) (hlinks : s'.links = s.links) (hpetrs : s'.petrs = s.petrs)
    (hmode : s'.mode = s.mode) : Upkeep rlocs s s' := by
  refine ⟨fun h i me hme => ?_, hmles, hlinks, hpetrs, hmode⟩
  rcases hcells i me hme with ⟨me₀, hme₀, hm, hinfo⟩ | hcur
  · rw [EntryCurrent, hpetrs, hmode, ← hm, ← hinfo]
    exact h i me₀ hme₀
  · exact .inl hcur

end Upkeep

theorem Upkeep.framed {s₀ : FbXtr} (h : Upkeep rlocs s₀ s) (hf : Framed s s') :
    Upkeep rlocs s₀ s' :=
  .trans _ _ _ h (.of_cells (fun _ me hme => .inl ⟨me, hf.mces ▸ hme, rfl, rfl⟩) hf.mles hf.links
    hf.petrs hf.mode)

/-! ## Writing the vectors of an entry -/

/-- The forwarding data that the flow-balancing policy computes. -/
theorem policy_vectors {info' : Option BalancingLocatorsVecs}
    (h : (fbWorld pktTupleHash nonces hmac).fwdPolicy.newMapCachePolicyInf rlocs m = .ok info' ∨
      ∃ info, (fbWorld pktTupleHash nonces hmac).fwdPolicy.updatedMapCacheInf rlocs info m =
        .ok info') : ∃ v, balancingVectorsCalculate rlocs m = .ok v ∧ info' = some v := by
  simp only [fbWorld, fwdPolicyFlowBalancing, updatedVectors] at h
  obtain h | ⟨info, h⟩ := h
  · obtain ⟨v, hv, rfl⟩ := except_map_ok.mp h
    exact ⟨v, hv, rfl⟩
  · split at h
    · cases h
    · obtain ⟨v, hv, rfl⟩ := except_map_ok.mp h
      exact ⟨v, hv, rfl⟩

/-- `updated_map_cache_inf` of the flow-balancing policy. -/
theorem updatedMapCacheInf_eq {u : Unit}
    (h : (updatedMapCacheInf (fbWorld pktTupleHash nonces hmac) env e m).run s = .ok (u, s')) :
    ∃ v, balancingVectorsCalculate env.rlocs m = .ok v ∧
      s' = { s with mces := s.mces.modify e fun me => { me with routingInfo := some v } } := by
  simp only [updatedMapCacheInf, bind_ok, derefMce_ok, lift_ok, setMceRoutingInfo_ok] at h
  obtain ⟨me, _, ⟨-, rfl⟩, info, _, ⟨hinfo, rfl⟩, rfl⟩ := h
  obtain ⟨v, hv, rfl⟩ := policy_vectors (.inr ⟨_, hinfo⟩)
  exact ⟨v, hv, rfl⟩

/-- An entry gets its vectors, and may get a mapping with them. -/
theorem upkeep_of_write {v : BalancingLocatorsVecs} {f : Mce BalancingLocatorsVecs → Mce _}
    (hv : balancingVectorsCalculate rlocs m = .ok v)
    (hf : ∀ me, s.mces.cell e = some me → (f me).mapping = m ∧ (f me).routingInfo = some v) :
    Upkeep rlocs s { s with mces := s.mces.modify e f } := by
  refine .of_cells (fun i me hme => ?_) rfl rfl rfl rfl
  rw [Heap.modify_cell] at hme
  split_ifs at hme with hi
  · obtain ⟨me0, hme0, rfl⟩ := map_eq_some_iff.mp hme
    obtain ⟨hm, hinfo⟩ := hf me0 (hi ▸ hme0)
    exact .inr ⟨v, hinfo, hm ▸ hv⟩
  · exact .inl ⟨me, hme, rfl, rfl⟩

theorem upkeep_of_alloc (me : Mce BalancingLocatorsVecs) (db : Mdb Nat)
    (hme : Current rlocs me.mapping me.routingInfo) :
    Upkeep rlocs s { s with mces := s.mces.alloc me, mapCache := db } := by
  refine .of_cells (fun i me' hme' => ?_) rfl rfl rfl rfl
  rw [Heap.alloc_cell] at hme'
  split_ifs at hme'
  · cases hme'
    exact .inr hme
  · exact .inl ⟨me', hme', rfl, rfl⟩

/-- The functions of the router keep the vectors of the map-cache entries current. Those of an entry
whose mapping was written are, once they are computed. -/
def conservedVectors (pktTupleHash : PacketTuple → UInt32) (nonces : Nat → Nonce)
    (hmac : Hmac) (rlocs : List LispAddr)
    (s₀ : FbXtr) :
    Conserved (fbWorld pktTupleHash nonces hmac) (fun _ => False) where
  inv := Upkeep rlocs s₀
  rlocs := (· = rlocs)
  stale s e m := ∀ v, balancingVectorsCalculate rlocs m = .ok v →
    Upkeep rlocs s₀ { s with mces := s.mces.modify e fun me => { me with routingInfo := some v } }
  policy := .of_false _
  start h _ := h.framed .of_other
  insert h _ := h.framed .of_other
  reset h _ := h.framed .of_other
  create h _ _ _ := h.framed .of_other
  createSmr h := h.framed .of_other
  stopAll _ h := .of_forall fun _ _ => h.framed .of_other
  stopType _ _ h := .of_forall fun _ _ => h.framed .of_other
  advance h := h.framed .of_other
  rotated h _ := h.framed .of_other
  expired h _ := h.framed .of_other
  lookup _ _ _ := .of_forall fun _ _ => trivial
  lookupLocal _ _ _ := .of_forall fun _ _ => trivial
  add _ h _ := .of_forall fun _ _ => h.framed .of_other
  remove h _ := .of_forall fun _ _ => h.framed .of_other
  alloc _ _ h _ v hv := by
    simp only [Heap.alloc_modify]
    exact .trans _ _ _ h (upkeep_of_alloc _ _ ⟨v, rfl, hv⟩)
  write e h _ v hv := by
    simp only [Heap.modify_modify]
    exact .trans _ _ _ h (upkeep_of_write hv fun _ _ => ⟨rfl, rfl⟩)
  reopen h hme v hv := .trans _ _ _ h (upkeep_of_write hv fun _ hme' => by
    cases hme'.symm.trans hme
    exact ⟨rfl, rfl⟩)
  compute h hr hinfo := by
    subst hr
    obtain ⟨v, hv, rfl⟩ := policy_vectors hinfo
    exact h v hv
  activate e h := by
    refine .trans _ _ _ h (.of_cells (fun i me hme => .inl ?_) rfl rfl rfl rfl)
    rw [Heap.modify_cell] at hme
    split_ifs at hme with hi
    · obtain ⟨me₀, hme₀, rfl⟩ := Option.map_eq_some_iff.mp hme
      exact ⟨me₀, hi ▸ hme₀, rfl, rfl⟩
    · exact ⟨me, hme, rfl, rfl⟩
  free e h := by
    refine .trans _ _ _ h (.of_cells (fun i me hme => .inl ?_) rfl rfl rfl rfl)
    rw [Heap.free_cell] at hme
    split_ifs at hme
    exact ⟨me, hme, rfl, rfl⟩
  iface h hlinks := h.framed ⟨rfl, rfl, hlinks, rfl, rfl, rfl, rfl⟩
  rest h := h.framed .of_other
  parse := @parse_any
  update := @update_any

theorem Upkeep.of_conserved {x : FbXtrM α} {a : α}
    (pktTupleHash : PacketTuple → UInt32) (nonces : Nat → Nonce)
    (hmac : Hmac)
    (hx : (conservedVectors pktTupleHash nonces hmac rlocs s).inv s →
      (conservedVectors pktTupleHash nonces hmac rlocs s).Any s x)
    (hrun : x.run s = .ok (a, s')) : Upkeep rlocs s s' :=
  ((hx (.refl s)).of_run hrun).2

/-! ## Changes of the state of a locator -/

/-- The probing timer belongs to the entry stored under its EID, or to the Proxy-ETRs when nothing
is stored there. -/
def ProbeOwner (s : FbXtr) (e : Nat) : Prop :=
  ∀ me, s.mces.cell e = some me →
    (mdbLookupEntryExact s.mapCache me.mapping.eidPrefix).toOption = some (some e) ∨
      (mdbLookupEntryExact s.mapCache me.mapping.eidPrefix).toOption = some none ∧ e = s.petrs

instance (s : FbXtr) (e : Nat) : Decidable (ProbeOwner s e) :=
  match hc : s.mces.cell e with
  | none => isTrue fun me hme => by simp [hc] at hme
  | some me => decidable_of_iff
      ((mdbLookupEntryExact s.mapCache me.mapping.eidPrefix).toOption = some (some e) ∨
        (mdbLookupEntryExact s.mapCache me.mapping.eidPrefix).toOption = some none ∧ e = s.petrs)
      (by simp [ProbeOwner, hc])

theorem locatorDown_upkeep (howner : ProbeOwner s e) : Stays (Upkeep env.rlocs) s
    (locatorDown (fbWorld pktTupleHash nonces hmac) env e loc) := by
  intro b s' h
  rw [locatorDown, bind_ok] at h
  obtain ⟨_, s1, hset, h⟩ := h
  obtain ⟨me1, hme1, hstale⟩ := (Conserved.setLocatorState_stales
    (C := conservedVectors pktTupleHash nonces hmac env.rlocs s) (Upkeep.refl s) e loc .DOWN).of_run
      hset
  simp only [bind_ok, derefMce_ok, mcacheLookupExact_ok] at h
  obtain ⟨me, _, ⟨hme, rfl⟩, o, s1, ⟨hlook, rfl⟩, h⟩ := h
  obtain rfl := some.inj (hme1.symm.trans hme)
  have hdone : ∀ {d u}, d = e → (updatedMapCacheInf (fbWorld pktTupleHash nonces hmac) env d
      me1.mapping).run s1 = .ok (u, s') → Upkeep env.rlocs s s' := by
    rintro _ u rfl hupd
    exact ((Conserved.updatedMapCacheInf_keeps (C := conservedVectors pktTupleHash nonces hmac
      env.rlocs s) rfl hstale).of_run hupd).2
  -- the EID of the entry and the map cache are those before
  simp only [setLocatorState, bind_ok, derefMce_ok, setMceMapping_ok] at hset
  obtain ⟨me0, s, ⟨hme0, rfl⟩, rfl⟩ := hset
  simp only [Heap.modify_cell, if_true, hme0, map_some, some.injEq] at hme
  have hown := howner me0 hme0
  rw [← hme] at hlook
  rw [hlook] at hown
  cases o with
  | some found =>
    obtain ⟨_, s2, hup, hret⟩ := bind_ok.mp h
    obtain ⟨-, rfl⟩ := pure_ok.mp hret
    exact hdone (by simpa [Except.toOption] using hown) hup
  | none =>
    have hpetrs : e = s.petrs := by simpa [Except.toOption] using hown
    rw [get_bind_ok] at h
    split_ifs at h with hne
    · exact absurd hpetrs hne
    · obtain ⟨_, s2, hup, hret⟩ := bind_ok.mp h
      obtain ⟨-, rfl⟩ := pure_ok.mp hret
      exact hdone hpetrs.symm hup

/-! ## Timers -/

/-- The entry of the probing timer that fires is the one whose vectors are recomputed. -/
def ProbeFires (s : FbXtr) : Prop :=
  ∀ t ts e loc, handleTimersVisit s.ts = .expired t ts →
    s.ts.kind t = some (.RLOC_PROBING_TIMER, .rlocProbe e loc) → ProbeOwner s e

/-- The entry of the probing timer that fires next. -/
def probedNext (s : FbXtr) : Option Nat :=
  match handleTimersVisit s.ts with
  | .expired t _ =>
    match s.ts.kind t with
    | some (.RLOC_PROBING_TIMER, .rlocProbe e _) => some e
    | _ => none
  | _ => none

instance (s : FbXtr) : Decidable (ProbeFires s) :=
  decidable_of_iff (∀ e ∈ (probedNext s).toList, ProbeOwner s e) <| by
    simp only [Option.mem_toList, ProbeFires]
    constructor
    · intro h t ts e loc hv hk
      exact h e (by simp [probedNext, hv, hk])
    · intro h e he
      unfold probedNext at he
      split at he
      · rename_i t ts hv
        split at he
        · rename_i loc hk
          cases he
          exact h t ts e loc hv hk
        · cases he
      · cases he

theorem xtrStep_upkeep {ev : XtrEvent} {out : XtrOut FwdEntry}
    (hif : ∀ name old new status env, ev ≠ .ifEvent name old new status env)
    (hprobe : ∀ env, ev = .wheel env → ProbeFires s)
    (h : (xtrStep (fbWorld pktTupleHash nonces hmac) (ev.withRlocs rlocs)).run s = .ok (out, s')) :
    Upkeep rlocs s s' := by
  refine (conservedVectors pktTupleHash nonces hmac rlocs s).xtrStep_inv
    (fun h => Upkeep.framed h .of_other) (Upkeep.refl s) ?_ ?_ (fun heq _ => ?_) h
  · cases ev with
    | mapReply | mapNotify => exact ⟨rfl, fun _ _ => trivial⟩
    | mapRequest => exact ⟨trivial, fun _ _ => trivial⟩
    | packet => rfl
    | ifEvent | tick | wheel => trivial
  · cases ev with
    | wheel env =>
      intro t ts e loc hv hk hup
      have howner : ProbeOwner { s with ts := ts } e := hprobe env rfl t ts e loc hv hk
      exact .of_forall fun _ hr => ⟨trivial, .trans _ _ _ hup (locatorDown_upkeep howner _ _ hr)⟩
    | packet | mapReply | mapRequest | mapNotify | ifEvent | tick => trivial
  · cases ev with
    | ifEvent => exact absurd rfl (hif _ _ _ _ _)
    | packet | mapReply | mapRequest | mapNotify | tick | wheel => cases heq

end CacheVectors

end Lispmob
