import Lispmob.LocalRules

/-!
# Invariants that every function of the router keeps

The functions of the router change its state through a few operations: on the timers, on the
databases, on the map-cache entries and the local entries. `Conserved` is an invariant together with
what these operations do to it, and with a kind of fault, `bad`, that they do not stop with. It also
says which EIDs the databases are asked for, which mappings an entry may hold, which records the
received messages have, and which Map-Register timers are created.

Every function of the router then keeps the invariant and does not stop with a `bad` fault: there is
one lemma for each function, which follows its definition. `stop_timer_from_obj` is left to the
user: it is told a timer and an object, and what it does depends on whether they belong together.
-/

set_option linter.unusedSectionVars false

namespace Lispmob

open List Prog

open Prog (SafeResult SafeFrom Keeps)

variable {T : Timers TimerOwner TimerArg → Prop} {bad : Fault → Prop} {R F : Type} {W : World R F}
  {s0 : Xtr R}

/-- The forwarding policy does not stop with a `bad` fault. -/
structure PolicyAvoids {R F : Type} (W : World R F) (bad : Fault → Prop) : Prop where
  new : ∀ rlocs m, Avoids bad (W.fwdPolicy.newMapCachePolicyInf rlocs m)
  cache : ∀ rlocs info m, Avoids bad (W.fwdPolicy.updatedMapCacheInf rlocs info m)
  loc : ∀ rlocs info m, Avoids bad (W.fwdPolicy.updatedMapLocInf rlocs info m)
  fwd : ∀ rlocs locs src dst tuple,
    Avoids bad (W.fwdPolicy.policyGetFwdInfo rlocs locs src dst tuple)

/-- The forwarding policy of the routers stops with faults of its own kind only. -/
theorem flowBalancing_avoids (hash : PacketTuple → UInt32) (nonces : Nat → Nonce)
    (hmac : Hmac) [SparesPolicy bad] :
    PolicyAvoids ⟨fwdPolicyFlowBalancing hash, nonces, hmac⟩ bad where
  new rlocs m := .map (balancingVectorsCalculate_safe rlocs m) fun _ _ => trivial
  cache := updatedVectors_safe
  loc := updatedVectors_safe
  fwd := fbGetFwEntry_safe hash

/-- When no fault is `bad` there is nothing to avoid. -/
theorem PolicyAvoids.of_false (W : World R F) : PolicyAvoids W (fun _ => False) :=
  ⟨fun _ _ => .of_forall fun _ _ => trivial,
    fun _ _ _ => .of_forall fun _ _ => trivial,
    fun _ _ _ => .of_forall fun _ _ => trivial,
    fun _ _ _ _ _ => .of_forall fun _ _ => trivial⟩

/-- An invariant of the router and what the operations of the router do to it. -/
structure Conserved {R F : Type} (W : World R F) (bad : Fault → Prop) where
  inv : Xtr R → Prop
  /-- The EIDs the databases are asked for. -/
  key : LispAddr → Prop := fun _ => True
  /-- The mappings of the map-cache entries. -/
  mapping : Mapping → Prop := fun _ => True
  /-- The lists of RLOCs their forwarding data is computed with. -/
  rlocs : List LispAddr → Prop := fun _ => True
  /-- The invariant but for the forwarding data of an entry, whose mapping is known. -/
  stale : Xtr R → Nat → Mapping → Prop := fun s _ _ => inv s
  /-- The records of the received messages. -/
  record : RawRecord → Prop := fun _ => True
  /-- The local entries that are registered. -/
  entry : Nat → Prop := fun _ => True
  /-- The map servers they are registered with. -/
  server : Nat → Prop := fun _ => True
  policy : PolicyAvoids W bad
  key_ip : ∀ a, key (.ip a) := by exact fun _ => trivial
  key_mapping : ∀ {m}, mapping m → key m.eidPrefix := by exact fun _ => trivial
  mapping_cell : ∀ {s e me}, inv s → s.mces.cell e = some me → mapping me.mapping := by
    exact fun _ _ => trivial
  entry_stored : ∀ {s mle}, inv s → mle ∈ mdbForeachEntry s.localMdb → entry mle := by
    exact fun _ _ => trivial
  server_listed : ∀ {s ms}, inv s → ms ∈ s.mapServers → server ms.ptr := by
    exact fun _ _ => trivial
  -- timers
  start : ∀ {s t d ts}, inv s → lmtimerStart s.ts t d = .ok ts → inv { s with ts := ts }
  insert : ∀ {s n t ts}, inv s → htableNoncesInsert s.ts n t = .ok ts → inv { s with ts := ts }
  reset : ∀ {s t ts}, inv s → htableNoncesResetNoncesLst s.ts t = .ok ts → inv { s with ts := ts }
  create : ∀ {s type arg obj nl}, inv s → arg.owner = some obj →
    (nl ≠ none → type.hasNonces = true) →
    (∀ mle ms, arg = .mapReg mle ms → entry mle ∧ server ms ∧ ∃ ml, s.mles.cell mle = some ml) →
    inv { s with
      ts := htablePtrsTimersAdd (lmtimerCreate s.ts type arg nl).1 obj s.ts.timers.next }
  createSmr : ∀ {s}, inv s → inv { s with
    ts := (lmtimerCreate s.ts .SMR_TIMER .xtr none).1, smrTimer := some s.ts.timers.next }
  stopAll : ∀ {s} obj, inv s →
    SafeResult bad (fun ts => inv { s with ts := ts }) (stopTimersFromObj s.ts obj)
  stopType : ∀ {s} obj type, inv s →
    SafeResult bad (fun ts => inv { s with ts := ts }) (stopTimersOfTypeFromObj s.ts obj type)
  advance : ∀ {s}, inv s → inv { s with ts := advanceSpoke s.ts }
  rotated : ∀ {s ts}, inv s → handleTimersVisit s.ts = .rotated ts → inv { s with ts := ts }
  expired : ∀ {s t ts}, inv s → handleTimersVisit s.ts = .expired t ts → inv { s with ts := ts }
  -- databases
  lookup : ∀ {s a} exact, inv s → key a → Avoids bad (findNode s.mapCache a exact)
  lookupLocal : ∀ {s a} exact, inv s → key a → Avoids bad (findNode s.localMdb a exact)
  add : ∀ {s a} e, inv s → key a →
    SafeResult bad (fun r => inv { s with mapCache := r.2 }) (mdbAddEntry s.mapCache a e)
  remove : ∀ {s a}, inv s → key a →
    SafeResult bad (fun r => inv { s with mapCache := r.2 }) (mdbRemoveEntry s.mapCache a)
  -- entries
  alloc : ∀ {s m} how act, inv s → mapping m →
    stale { s with mces := s.mces.alloc ⟨how, act, m, none⟩ } s.mces.next m
  write : ∀ {s m} e, inv s → mapping m →
    stale { s with mces := s.mces.modify e fun me => { me with mapping := m } } e m
  reopen : ∀ {s e me}, inv s → s.mces.cell e = some me → stale s e me.mapping := by
    exact fun h _ => h
  compute : ∀ {s e m r info'}, stale s e m → rlocs r →
    (W.fwdPolicy.newMapCachePolicyInf r m = .ok info' ∨
      ∃ info, W.fwdPolicy.updatedMapCacheInf r info m = .ok info') →
    inv { s with mces := s.mces.modify e fun me => { me with routingInfo := info' } }
  activate : ∀ {s} e, inv s →
    inv { s with mces := s.mces.modify e fun me => { me with active := .ACTIVE } }
  free : ∀ {s} e, inv s → inv { s with mces := s.mces.free e }
  iface : LinksRule inv
  rest : ∀ {s next calls tick now accepted}, inv s → inv { s with
    nextLoct := next, nonceCalls := calls, inTick := tick, now := now, accepted := accepted }
  -- mappings
  placeholder : ∀ a, mapping (mappingNewInit (.ip a)) := by exact fun _ => trivial
  parse : ∀ {raw} next probed, record raw →
    SafeResult bad (fun p => p.ret = .GOOD → mapping p.m)
      (lispMsgParseMappingRecord next probed raw)
  malformed : record .malformed := by trivial
  update : ∀ {m m'} next, mapping m → mapping m' →
    SafeResult bad (fun r => mapping r.2) (mappingUpdateLocators next m m'.locatorsLists)
  state : ∀ {m} loc state, mapping m → mapping { m with
    locatorsLists := m.locatorsLists.map fun l =>
      l.map fun loct => if loct.ptr = loc then { loct with state := state } else loct } := by
    exact fun _ _ _ => trivial

/-! Where every fault is excused, nothing is to be shown of the parser and of the copy of lists. -/

theorem parse_any {raw : RawRecord} (next : Nat) (probed : Probed) (_ : True) :
    SafeResult (fun _ => False) (fun p => p.ret = .GOOD → True)
      (lispMsgParseMappingRecord next probed raw) :=
  .of_forall fun _ _ _ => trivial

theorem update_any {m m' : Mapping} (next : Nat) (_ _ : True) :
    SafeResult (fun _ => False) (fun _ => True) (mappingUpdateLocators next m m'.locatorsLists) :=
  .of_forall fun _ _ => trivial

namespace Conserved

variable [SparesPointers bad] (C : Conserved W bad) {s : Xtr R} {α : Type} {m : Mapping} {mle : Nat}
  {raw : RawRecord} {msg : MapReplyMsg} {ra : LispAddr}

/-- The program keeps the invariant and does not stop with a `bad` fault; `Q` is what is known of
its result. -/
abbrev Returns (Q : α → Prop) (s : Xtr R) (x : XtrM R α) : Prop :=
  Keeps bad C.inv Q s x

/-- Nothing is said of a result. -/
abbrev Any (s : Xtr R) (x : XtrM R α) : Prop :=
  C.Returns (fun _ => True) s x

/-- The forwarding data of the entries does not matter to the invariant. -/
structure IgnoresData : Prop where
  stale : ∀ {s e m}, C.stale s e m ↔ C.inv s
  rlocs : ∀ r, C.rlocs r

variable {C} {I : Xtr R → Prop} {a : LispAddr} {e : Nat}

/-! ## Access -/

/-- A computation that reads nothing of the state. -/
theorem lift_keeps {x : Except Fault α} {Q : α → Prop} (hx : SafeResult bad Q x) (h : C.inv s) :
    C.Returns Q s (lift x) :=
  .of_lift hx h

theorem derefMce_keeps (h : C.inv s) (e : Nat) :
    C.Returns (fun me => C.mapping me.mapping) s (derefMce e) :=
  .get_bind
    (Keeps.of_option SparesPointers.useAfterFree h fun _ hme => C.mapping_cell h hme)

theorem derefMce_bind {β : Type} {Q : β → Xtr R → Prop} {f : Mce R → XtrM R β}
    (h : ∀ me, s.mces.cell e = some me → SafeFrom bad Q s (f me)) :
    SafeFrom bad Q s (derefMce e >>= f) :=
  .bind (P := fun me s' => s' = s ∧ s.mces.cell e = some me)
    (.get_bind (.of_option SparesPointers.useAfterFree fun _ hme => ⟨rfl, hme⟩))
    fun me _ hs => hs.1 ▸ h me hs.2

theorem derefMs_keeps (h : C.inv s) (ms : Nat) : C.Any s (derefMs ms) :=
  SafeFrom.get_bind (Keeps.of_option SparesPointers.useAfterFree h fun _ _ => trivial)

theorem derefTimer_keeps (h : I s) (t : Nat) : Keeps bad I (fun _ => True) s (derefTimer t) :=
  .get_bind (Keeps.of_lift (deref_safe _ t) h)

theorem onTimers_keeps {f : Timers TimerOwner TimerArg → Except Fault (Timers TimerOwner TimerArg)}
    (hf : SafeResult bad (fun ts => C.inv { s with ts := ts }) (f s.ts)) : C.Any s (onTimers f) :=
  SafeFrom.get_bind (SafeFrom.lift_bind hf fun _ h => Keeps.of_set h)

theorem startTimer_keeps (h : C.inv s) (t : Nat) (d : BitVec 32) :
    C.Any s (onTimers (lmtimerStart · t d)) :=
  onTimers_keeps ((lmtimerStart_safe s.ts t d).of_ok fun _ hx => C.start h hx)

theorem insertNonce_keeps (h : C.inv s) (n : Nonce) (t : Nat) :
    C.Any s (onTimers (htableNoncesInsert · n t)) :=
  onTimers_keeps ((htableNoncesInsert_safe s.ts n t).of_ok fun _ hx => C.insert h hx)

theorem resetNonces_keeps (h : C.inv s) (t : Nat) :
    C.Any s (onTimers (htableNoncesResetNoncesLst · t)) :=
  onTimers_keeps ((htableNoncesResetNoncesLst_safe s.ts t).of_ok fun _ hx => C.reset h hx)

theorem newTimer_keeps (h : C.inv s) {type : TimerType} {arg : TimerArg}
    {nl : Option (List Nonce)} (howner : arg.owner = some (.mce e))
    (hnl : nl ≠ none → type.hasNonces = true) : C.Any s (newTimer type arg (.mce e) nl) := by
  refine ⟨trivial, C.create h howner hnl ?_⟩
  rintro mle ms rfl
  cases howner

theorem nonceNew_keeps (h : C.inv s) : C.Any s (nonceNew W) :=
  ⟨trivial, C.rest h⟩

theorem setMceMapping_stales (h : C.inv s) (e : Nat) (hm : C.mapping m) :
    SafeFrom bad (fun _ s' => C.stale s' e m) s (setMceMapping e m) :=
  .of_modify (C.write e h hm)

theorem noteAccepted_keeps (h : C.inv s) (e : Nat) (ttl : UInt32) : C.Any s (noteAccepted e ttl) :=
  .of_modify (C.rest h)

/-! ## The map cache -/

theorem mcacheEntryDel_keeps (h : C.inv s) : ∀ o, C.Any s (mcacheEntryDel o)
  | none => .of_pure trivial h
  | some e =>
    .seq (onTimers_keeps (C.stopAll _ h)) fun _ _ h1 =>
      .bind (derefMce_keeps h1 e) fun _ _ _ h2 => .of_modify (C.free e h2)

theorem trMcacheRemoveEntry_keeps (h : C.inv s) (e : Nat) : C.Any s (trMcacheRemoveEntry e) := by
  refine .bind (derefMce_keeps h e) fun me s1 hme h1 => .get_bind ?_
  refine .lift_bind (C.remove h1 (C.key_mapping hme)) fun r hr => ?_
  refine Keeps.seq (Keeps.of_modify hr) fun _ s3 h3 => ?_
  exact Keeps.ret (mcacheEntryDel_keeps h3 r.1)

theorem mcacheEntryNew_stales (h : C.inv s) (how : HowLearned) (act : Activity) (hm : C.mapping m) :
    SafeFrom bad (fun e s' => C.stale s' e m) s (mcacheEntryNew how act m) :=
  C.alloc how act h hm

theorem mcacheAddEntry_keeps (h : C.inv s) {key : LispAddr} (hk : C.key key) (e : Nat) :
    C.Any s (mcacheAddEntry key e) :=
  .get_bind (.lift_bind (C.add e h hk) fun _ hr =>
    Keeps.ret (Keeps.of_modify hr))

theorem mcacheLookup_keeps (h : C.inv s) (ha : C.key a) : C.Any s (mcacheLookup a) :=
  .get_bind (lift_keeps (C.lookup false h ha) h)

theorem mcacheLookupExact_keeps (h : C.inv s) (ha : C.key a) : C.Any s (mcacheLookupExact a) :=
  .get_bind (lift_keeps (C.lookup true h ha) h)

theorem mcEntryStartExpirationTimer_keeps (h : C.inv s) (e : Nat) :
    C.Any s (mcEntryStartExpirationTimer e) :=
  .seq (newTimer_keeps h rfl (by decide)) fun _ _ h1 =>
    .bind (derefMce_keeps h1 e) fun _ _ _ h2 =>
      startTimer_keeps h2 _ _

theorem programRlocProbing_keeps (h : C.inv s) (e : Nat) (time : Int) (loc : Nat) :
    C.Any s (programRlocProbing e time loc) :=
  .seq (newTimer_keeps h rfl (by decide)) fun _ _ h1 =>
    startTimer_keeps h1 _ _

theorem programMceRlocProbing_keeps (h : C.inv s) (e : Nat) :
    C.Any s (programMceRlocProbing e) := by
  refine .get_bind ?_
  split_ifs
  · exact Keeps.of_pure trivial h
  · refine Keeps.seq (onTimers_keeps (C.stopType _ _ h)) ?_
    intro _ s1 h1
    refine .bind (derefMce_keeps h1 e) fun me s2 _ h2 => ?_
    exact .forM (fun loc _ s hs => programRlocProbing_keeps hs e _ loc) h2

variable {env : CtrlEnv} {statics : List Mapping} {l : List RawRecord} {t : Nat}
  {ev : XtrEvent}

theorem newMapCachePolicyInf_keeps (henv : C.rlocs env.rlocs) (h : C.stale s e m) :
    C.Any s (newMapCachePolicyInf W env e m) :=
  SafeFrom.lift_bind ((C.policy.new env.rlocs m).of_ok fun _ hinfo => hinfo) fun _ hinfo =>
    Keeps.ret (Keeps.of_modify (C.compute h henv (.inl hinfo)))

theorem installMce_keeps (henv : C.rlocs env.rlocs) (h : C.stale s e m) (hm : C.mapping m) :
    C.Any s (installMce W env e m) := by
  refine .seq (newMapCachePolicyInf_keeps henv h) fun hasInfo s1 h1 => ?_
  split_ifs
  · exact .ret (mcacheAddEntry_keeps h1 (C.key_mapping hm) e)
  · exact .of_pure trivial h1

theorem updatedMapCacheInf_keeps (henv : C.rlocs env.rlocs) (h : C.stale s e m) :
    C.Any s (updatedMapCacheInf W env e m) :=
  derefMce_bind fun me _ =>
    .lift_bind ((C.policy.cache env.rlocs me.routingInfo m).of_ok fun _ hinfo => hinfo)
      fun _ hinfo => Keeps.of_modify (C.compute h henv (.inr ⟨_, hinfo⟩))

theorem trMcacheAddMapping_keeps (henv : C.rlocs env.rlocs) (h : C.inv s) (hm : C.mapping m) :
    C.Any s (trMcacheAddMapping W env m) := by
  refine .after (mcacheEntryNew_stales h _ _ hm) fun mce s1 h1 => ?_
  refine .seq (installMce_keeps henv h1 hm) fun installed s2 h2 => ?_
  split_ifs
  · refine .seq (.of_modify (C.activate mce h2)) fun _ s3 h3 => ?_
    refine .seq (mcEntryStartExpirationTimer_keeps h3 mce) fun _ s4 h4 => ?_
    exact .ret (programMceRlocProbing_keeps h4 mce)
  · exact .ret (mcacheEntryDel_keeps h2 _)

theorem trMcacheAddStaticMapping_keeps (henv : C.rlocs env.rlocs) (h : C.inv s) (hm : C.mapping m) :
    C.Any s (trMcacheAddStaticMapping W env m) := by
  refine .after (mcacheEntryNew_stales h _ _ hm) fun mce s1 h1 => ?_
  refine .seq (newMapCachePolicyInf_keeps henv h1) fun hasInfo s2 h2 => ?_
  split_ifs
  · refine .seq (mcacheAddEntry_keeps h2 (C.key_mapping hm) mce) fun ret s3 h3 => ?_
    split_ifs
    · exact .ret (programMceRlocProbing_keeps h3 mce)
    · exact .of_pure trivial h3
  · exact .ret (mcacheEntryDel_keeps h2 _)

theorem mceUpdateLocators_stales (h : C.inv s) (hm : C.mapping m) :
    SafeFrom bad (fun m' s' => C.stale s' e m') s (mceUpdateLocators e m.locatorsLists) := by
  refine .bind (derefMce_keeps h e) fun me s1 hme => .get_bind ?_
  refine .lift_bind (C.update _ hme.1 hm) fun r hr => ?_
  refine .bind (Keeps.of_modify (C.rest hme.2)) fun _ s3 h3 => ?_
  exact .bind (setMceMapping_stales h3.2 e hr) fun _ _ h4 => .of_pure h4

theorem updateMcacheEntry_keeps (henv : C.rlocs env.rlocs) (h : C.inv s) (hm : C.mapping m) :
    C.Any s (updateMcacheEntry W env m) := by
  refine .seq (mcacheLookupExact_keeps h (C.key_mapping hm)) fun o s1 h1 => ?_
  cases o with
  | none => exact .of_pure trivial h1
  | some mce =>
    refine .after (mceUpdateLocators_stales h1 hm) fun m' s2 h2 => ?_
    refine .seq (updatedMapCacheInf_keeps henv h2) fun _ s3 h3 => ?_
    refine .seq (mcEntryStartExpirationTimer_keeps h3 mce) fun _ s4 h4 => ?_
    refine .seq (programMceRlocProbing_keeps h4 mce) fun _ s5 h5 => ?_
    exact .ret (noteAccepted_keeps h5 mce _)

/-! ## Callbacks -/

theorem buildAndSendMapRequest_keeps (h : C.inv s) (seid : LispAddr) (e : Nat) :
    C.Any s (buildAndSendMapRequest env seid e) :=
  SafeFrom.get_bind (Keeps.bind (derefMce_keeps h e) fun _ _ _ h1 => Keeps.of_pure trivial h1)

theorem rearmWithNonce_keeps (h : C.inv s) (t : Nat) (n : Nonce) (timeout : BitVec 32) :
    C.Any s (rearmWithNonce t n timeout) :=
  .seq (insertNonce_keeps h n t) fun _ _ h1 =>
    startTimer_keeps h1 t timeout

theorem noncesListSize_keeps (h : I s) (tm : Timer TimerArg) :
    Keeps bad I (fun _ => True) s (noncesListSize tm) :=
  .ret (.of_option SparesPointers.nullDeref h fun _ _ => trivial)

theorem sendMapRequestRetryCb_keeps (h : C.inv s) (t e : Nat) (src : LispAddr) :
    C.Any s (sendMapRequestRetryCb W env t e src) := by
  refine .seq (derefTimer_keeps h t) fun tm s1 h1 => ?_
  refine .seq (noncesListSize_keeps h1 tm) fun n s2 h2 => ?_
  refine .bind (derefMce_keeps h2 e) fun _ s3 _ h3 => .get_bind ?_
  split_ifs
  · refine Keeps.seq (nonceNew_keeps h3) fun nonce s4 h4 => ?_
    refine Keeps.seq (buildAndSendMapRequest_keeps h4 src e) fun sent s5 h5 => ?_
    split_ifs
    · exact .ret (rearmWithNonce_keeps h5 t nonce _)
    · exact .of_pure trivial h5
  · exact Keeps.ret (trMcacheRemoveEntry_keeps h3 e)

theorem sendSmrInvokedMapRequest_keeps (h : C.inv s) (src : LispAddr) (e : Nat) :
    C.Any s (sendSmrInvokedMapRequest env src e) :=
  SafeFrom.get_bind (Keeps.bind (derefMce_keeps h e) fun _ _ _ h1 =>
    Keeps.ret (SafeFrom.get_bind (Keeps.of_pure trivial h1)))

theorem smrInvokedMapRequestCb_keeps (h : C.inv s) (t e : Nat) (src : LispAddr) :
    C.Any s (smrInvokedMapRequestCb W env t e src) := by
  refine .seq (derefTimer_keeps h t) fun tm s1 h1 => ?_
  refine .seq (noncesListSize_keeps h1 tm) fun n s2 h2 => ?_
  split_ifs
  · refine .seq (nonceNew_keeps h2) fun nonce s3 h3 => ?_
    refine .seq (sendSmrInvokedMapRequest_keeps h3 src e) fun sent s4 h4 => ?_
    split_ifs
    · exact .ret (rearmWithNonce_keeps h4 t nonce _)
    · exact .of_pure trivial h4
  · exact .ret (trMcacheRemoveEntry_keeps h2 e)

theorem setLocatorState_stales (h : C.inv s) (e loc : Nat) (state : LinkState) :
    SafeFrom bad (fun _ s' => ∃ me, s'.mces.cell e = some me ∧ C.stale s' e me.mapping) s
      (setLocatorState e loc state) :=
  derefMce_bind fun me hme => .of_modify ⟨_, by rw [Heap.modify_cell, if_pos rfl, hme]; rfl,
    C.write e h (C.state loc state (C.mapping_cell h hme))⟩

theorem IgnoresData.setMceMapping_keeps (hC : C.IgnoresData) (h : C.inv s) (e : Nat)
    (hm : C.mapping m) : C.Any s (setMceMapping e m) :=
  .of_modify (hC.stale.mp (C.write e h hm))

theorem IgnoresData.updatedMapCacheInf_keeps (hC : C.IgnoresData) (h : C.inv s) :
    C.Any s (updatedMapCacheInf W env e m) :=
  Conserved.updatedMapCacheInf_keeps (hC.rlocs _) (hC.stale.mpr h)

theorem locatorDown_keeps (hC : C.IgnoresData) (h : C.inv s) (e loc : Nat) :
    C.Any s (locatorDown W env e loc) := by
  refine .after (setLocatorState_stales h e loc .DOWN) fun _ s1 hs1 => ?_
  obtain ⟨_, -, h1⟩ := hs1
  refine .bind (derefMce_keeps (hC.stale.mp h1) e) fun me s2 hme h2 => ?_
  refine .seq (mcacheLookupExact_keeps h2 (C.key_mapping hme)) fun o s3 h3 => ?_
  cases o with
  | some found =>
    exact .ret (hC.updatedMapCacheInf_keeps h3)
  | none =>
    refine .get_bind ?_
    split_ifs
    · exact Keeps.of_pure trivial h3
    · exact Keeps.ret (hC.updatedMapCacheInf_keeps h3)

theorem rlocProbingCb_keeps (h : C.inv s) {loc : Nat} (hdown : C.Any s (locatorDown W env e loc))
    (t : Nat) : C.Any s (rlocProbingCb W env t e loc) := by
  refine .after (derefTimer_keeps (I := (· = s)) rfl t) ?_
  rintro tm _ ⟨-, rfl⟩
  refine .after (noncesListSize_keeps (I := (· = _)) rfl tm) ?_
  rintro n s2 ⟨-, rfl⟩
  have hloc : Keeps bad (· = s2) (fun _ => True) s2 (derefLocator e loc) :=
    derefMce_bind fun _ _ => Keeps.of_option SparesPointers.useAfterFree rfl fun _ _ => trivial
  refine .after hloc ?_
  rintro loct s3 ⟨-, rfl⟩
  refine .get_bind ?_
  split
  · refine Keeps.seq (nonceNew_keeps h) fun nonce s4 h4 => ?_
    split_ifs
    · exact .ret (rearmWithNonce_keeps h4 t nonce _)
    · exact .of_pure trivial h4
  · have hdown : C.Any s3 (if loct.state = .UP then locatorDown W env e loc else pure true) := by
      split_ifs
      · exact hdown
      · exact .of_pure trivial h
    refine Keeps.seq hdown fun found s4 h4 => ?_
    split_ifs
    · refine .seq (resetNonces_keeps h4 t) ?_
      intro _ s5 h5
      exact .ret (startTimer_keeps h5 t _)
    · exact .of_pure trivial h4

theorem handleMapCacheMiss_keeps (henv : C.rlocs env.rlocs) (h : C.inv s) (a : IpAddr)
    (src : LispAddr) : C.Any s (handleMapCacheMiss W env (.ip a) src) := by
  refine .after (mcacheEntryNew_stales h _ _ (C.placeholder a)) fun mce s1 h1 => ?_
  refine .seq (installMce_keeps henv h1 (C.placeholder a)) fun installed s2 h2 => ?_
  split_ifs
  · exact .seq (newTimer_keeps h2 rfl (by decide)) fun t _ h3 =>
      sendMapRequestRetryCb_keeps h3 t mce src
  · exact .ret (mcacheEntryDel_keeps h2 _)

/-! ## Local mappings -/

theorem mapRegisterCb_keeps (h : C.inv s) (t mle ms : Nat) :
    C.Any s (mapRegisterCb W t mle ms) := by
  refine .seq (derefTimer_keeps h t) fun tm s1 h1 => ?_
  refine .seq (noncesListSize_keeps h1 tm) fun n s2 h2 => ?_
  refine .seq (derefMle_keeps h2 mle) fun e s3 h3 => ?_
  refine .seq (derefMs_keeps h3 ms) fun elt s4 h4 => .get_bind ?_
  split_ifs
  · refine Keeps.seq (nonceNew_keeps h4) fun nonce s5 h5 => ?_
    refine Keeps.seq (lift_keeps (buildAndSendMapReg_safe _ _) h5) fun sent s6 h6 => ?_
    split_ifs
    · exact .ret (rearmWithNonce_keeps h6 t nonce _)
    · exact .of_pure trivial h6
  · refine Keeps.seq (resetNonces_keeps h4 t) ?_
    intro _ s5 h5
    exact .ret (startTimer_keeps h5 t _)

/-- With a local entry that was released the callback stops before it does anything. -/
theorem mapRegisterCb_released {t mle ms : Nat} {Q : Ret → Xtr R → Prop}
    (hmle : s.mles.cell mle = none) : SafeFrom bad Q s (mapRegisterCb W t mle ms) := by
  refine .bind (P := fun _ s' => s' = s) ?_ fun tm s' hs' => ?_
  · exact .get_bind (.of_lift (deref_safe s.ts t) fun _ _ => rfl)
  rw [hs']
  refine .bind (P := fun _ s' => s' = s) ?_ fun size s' hs' => ?_
  · exact .bind (.of_option (Q := fun _ s' => s' = s) SparesPointers.nullDeref
      fun _ _ => rfl) fun _ _ h => .of_pure h
  · rw [hs']
    refine .bind (P := fun _ _ => False) (.get_bind ?_) fun _ _ h => h.elim
    rw [hmle]
    exact SparesPointers.useAfterFree

theorem startMapRegister_keeps (h : C.inv s) {ms : MapServerElt} (hmle : C.entry mle)
    (hms : C.server ms.ptr) : C.Any s (startMapRegister W mle ms) := by
  cases hcell : s.mles.cell mle with
  | none =>
    have hnew : SafeFrom bad (fun _ s' => s'.mles.cell mle = none) s
        (newTimer .MAP_REGISTER_TIMER (.mapReg mle ms.ptr) (.mle mle) (some [])) := hcell
    refine SafeFrom.bind hnew fun t s' h' => ?_
    exact .bind (mapRegisterCb_released (Q := fun _ _ => False) h') fun _ _ h => h.elim
  | some ml =>
    have hnew :
      C.Any s (newTimer .MAP_REGISTER_TIMER (.mapReg mle ms.ptr) (.mle mle) (some [])) := by
      refine ⟨trivial, C.create h rfl (fun _ => rfl) ?_⟩
      rintro _ _ ⟨⟩
      exact ⟨hmle, hms, ml, hcell⟩
    exact .seq hnew fun t _ h1 =>
      .ret (mapRegisterCb_keeps h1 t mle _)

theorem programMapRegisterForMapping_keeps (h : C.inv s) (hmle : C.entry mle) :
    C.Any s (programMapRegisterForMapping W mle) := by
  refine .get_bind ?_
  simp only
  split
  · exact Keeps.of_pure trivial h
  · refine Keeps.seq (onTimers_keeps (C.stopType _ _ h)) fun _ s1 h1 => ?_
    exact Keeps.forM (fun ms hms _ hs => startMapRegister_keeps hs hmle (C.server_listed h hms)) h1

theorem programMapRegister_keeps (h : C.inv s) : C.Any s (programMapRegister W) :=
  SafeFrom.get_bind (Keeps.forM (fun _ hmle _ hs =>
    programMapRegisterForMapping_keeps hs (C.entry_stored h hmle)) h)

theorem programSmr_keeps (h : C.inv s) (time : BitVec 32) : C.Any s (programSmr time) := by
  refine .get_bind ?_
  split
  · exact startTimer_keeps h _ _
  · exact Keeps.seq (Keeps.of_set (C.createSmr h)) fun _ _ h1 =>
      startTimer_keeps h1 _ _

theorem modifyIface_keeps (h : C.inv s) (name : String) {f : IfaceLocators → IfaceLocators}
    (hf : ∀ i, (f i).links = i.links) : C.Any s (modifyIface name f) :=
  Lispmob.modifyIface_keeps C.iface h name hf

theorem sendAllSmrAndReg_keeps (h : C.inv s) : C.Any s (sendAllSmrAndReg W) :=
  .bind (.get_bind (mlesToSmr_keeps C.entry_stored C.iface _ _ _ h (by simp))) fun _ _ hl h1 =>
    .forM (fun mle hmle _ hs => programMapRegisterForMapping_keeps hs (hl mle hmle)) h1

/-! ## Messages -/

theorem record_getD (h : ∀ r ∈ l, C.record r) (i : Nat) : C.record (l.getD i .malformed) := by
  rw [getD_eq_getElem?_getD]
  cases hi : l[i]? with
  | none => exact C.malformed
  | some r => exact h r (mem_of_getElem? hi)

theorem record_readRecords (h : ∀ r ∈ l, C.record r) (n : Nat) :
    ∀ r ∈ readRecords l n, C.record r := by
  intro r hr
  obtain ⟨i, -, rfl⟩ := mem_map.mp hr
  exact record_getD h i

theorem parseRecord_keeps (h : C.inv s) (probed : Probed) (hraw : C.record raw) :
    C.Returns (fun p => p.ret = .GOOD → C.mapping p.m) s (parseRecord probed raw) := by
  refine SafeFrom.get_bind (Keeps.bind (lift_keeps (C.parse _ _ hraw) h) fun p s1 hp h1 => ?_)
  exact Keeps.seq (Keeps.of_modify (C.rest h1)) fun _ _ h2 => Keeps.of_pure hp h2

theorem parseReplyRecord_keeps (h : C.inv s) (probed : Probed) (hraw : C.record raw) :
    C.Returns (fun o => ∀ p, o = some p → C.mapping p.m) s (parseReplyRecord probed raw) := by
  have hnone : ∀ (p : ParsedRecord) (s1 : Xtr R), C.inv s1 →
      C.Returns (fun o : Option ParsedRecord => ∀ p, o = some p → C.mapping p.m) s1 (do
        lift (locatorDelProbed p.probed)
        return none) := fun p s1 h1 =>
    .seq (lift_keeps (locatorDelProbed_safe _) h1) fun _ _ h2 => .of_pure (by simp) h2
  refine .bind (parseRecord_keeps h probed hraw) fun p s1 hp h1 => ?_
  split
  · rename_i hret
    refine .seq (lift_keeps (mappingHasElpWithLBit_safe _) h1) fun lBit s2 h2 => ?_
    split
    · exact hnone p s2 h2
    · refine .of_pure (fun p' hp' => ?_) h2
      rw [← Option.some.inj hp']
      exact hp hret
  · exact hnone p s1 h1

theorem installRecord_keeps (henv : C.rlocs env.rlocs) (h : C.inv s) (hm : C.mapping m) :
    C.Any s (installRecord W env m) := by
  refine SafeFrom.get_bind (Keeps.seq (trMcacheAddMapping_keeps henv h hm) fun ret s1 h1 => ?_)
  split
  · exact noteAccepted_keeps h1 _ _
  · exact .of_pure trivial h1

theorem installRecords_keeps (henv : C.rlocs env.rlocs) :
    ∀ (l : List RawRecord) (probed : Probed) {s : Xtr R}, C.inv s →
    (∀ r ∈ l, C.record r) → C.Any s (installRecords W env probed l)
  | [], _, _, h, _ => .of_pure trivial h
  | raw :: rest, probed, s, h, hl => by
    refine .bind (parseReplyRecord_keeps h probed (hl raw (by simp))) fun o s1 ho h1 => ?_
    cases o with
    | none => exact .of_pure trivial h1
    | some p =>
      exact .seq (installRecord_keeps henv h1 (ho p rfl)) fun _ _ h2 =>
        installRecords_keeps henv rest _ h2 fun r hr => hl r (mem_cons_of_mem _ hr)

theorem refreshRecord_keeps (henv : C.rlocs env.rlocs) (h : C.inv s) (hraw : C.record raw) :
    C.Any s (refreshRecord W env raw) := by
  refine .bind (parseReplyRecord_keeps h .uninit hraw) fun o s1 ho h1 => ?_
  cases o with
  | none => exact .of_pure trivial h1
  | some p =>
    exact .ret (updateMcacheEntry_keeps henv h1 (ho p rfl))

theorem handleLocatorProbeReply_keeps (henv : C.rlocs env.rlocs) (h : C.inv s) (mce : Nat)
    (addr : LispAddr) : C.Any s (handleLocatorProbeReply W env mce addr) := by
  refine .bind (derefMce_keeps h mce) fun e s1 _ h1 => ?_
  refine .seq (lift_keeps (mappingGetLoctWithAddr_safe _ _) h1) fun o s2 h2 => ?_
  cases o with
  | none => exact .of_pure trivial h2
  | some loct =>
    have hend : ∀ s3 : Xtr R, C.inv s3 → C.Any s3 (do
        programRlocProbing mce (← get).probeInterval loct.ptr
        return Ret.GOOD) := fun s3 h3 =>
      SafeFrom.get_bind (Keeps.ret (programRlocProbing_keeps h3 mce _ _))
    simp only
    split
    · refine .after (setLocatorState_stales h2 mce _ _) fun _ s3 hs3 =>
        derefMce_bind fun me hme => ?_
      obtain ⟨_, hme', h3⟩ := hs3
      cases hme.symm.trans hme'
      exact Keeps.seq (updatedMapCacheInf_keeps henv h3) fun _ s5 h5 => hend s5 h5
    · exact hend s2 h2

theorem probeReplyEntry_keeps (h : C.inv s) {eid : LispAddr} (heid : C.key eid) :
    C.Any s (probeReplyEntry eid) := by
  refine .seq (mcacheLookupExact_keeps h heid) fun o s1 h1 => ?_
  cases o with
  | some mce => exact .of_pure trivial h1
  | none =>
    exact SafeFrom.get_bind
      (Keeps.bind (derefMce_keeps h1 _) fun _ _ _ h2 => Keeps.of_pure trivial h2)

/-- Where the handler of a Map-Reply that is matched to the timer `t` stops it: in the state `s'`,
through the entry `e`. -/
inductive StopsReplied (W : World R F) (env : CtrlEnv) (s : Xtr R) (msg : MapReplyMsg)
    (ra : LispAddr)
    (t : Nat) : Nat → Xtr R → Prop where
  | refreshed {tm : Timer TimerArg} {e : Nat} {me : Mce R} {s' : Xtr R}
      (probe : msg.rlocProbe = false) (timer : s.ts.timers.cell t = some tm)
      (arg : tm.cbArgument.asMapReqMce = .ok e) (cell : s.mces.cell e = some me)
      (run : (refreshRecord W env (msg.records.getD 0 .malformed)).run s = .ok (.GOOD, s')) :
      StopsReplied W env s msg ra t e s'
  | probed {p : ParsedRecord} {addr : LispAddr} {e : Nat} {r : Ret} {s₁ s₂ s' : Xtr R}
      (probe : msg.rlocProbe = true)
      (parsed : (parseReplyRecord .uninit (msg.records.getD 0 .malformed)).run s = .ok (some p, s₁))
      (found : (probeReplyEntry p.m.eidPrefix).run s₁ = .ok (some e, s₂))
      (run : (handleLocatorProbeReply W env e addr).run s₂ = .ok (r, s')) :
      StopsReplied W env s msg ra t e s'

/-- The stop at the end of the handler keeps the invariant. -/
def StopKept (C : Conserved W bad) (env : CtrlEnv) (s : Xtr R) (msg : MapReplyMsg) (ra : LispAddr) :
    Prop :=
  ∀ t e s', s.ts.nonces msg.nonce = some t → StopsReplied W env s msg ra t e s' → C.inv s' →
    SafeResult bad (fun ts => C.inv { s' with ts := ts }) (stopTimerFromObj s'.ts (.mce e) t)

theorem recvMapReplyNonProbe_keeps (henv : C.rlocs env.rlocs) (h : C.inv s)
    (hmsg : ∀ r ∈ msg.records, C.record r) (ht : s.ts.nonces msg.nonce = some t)
      (hprobe : msg.rlocProbe = false)
    (hstop : StopKept C env s msg ra) : C.Any s (recvMapReplyNonProbe W env t msg) := by
  refine .bind_run (derefTimer_keeps h t) fun tm s1 htm h1 => ?_
  obtain ⟨htm, rfl⟩ := derefTimer_ok.mp htm
  refine .lift_bind ((asMapReqMce_safe tm.cbArgument).of_ok fun _ ha => ha) fun mce harg => ?_
  refine .bind_run (derefMce_keeps h mce) fun me s3 hme _ => ?_
  obtain ⟨hme, rfl⟩ := derefMce_ok.mp hme
  split
  · exact Keeps.seq (trMcacheRemoveEntry_keeps h mce) fun _ _ h4 =>
      installRecords_keeps henv _ _ h4 (record_readRecords hmsg _)
  · refine .bind_run (refreshRecord_keeps henv h (record_getD hmsg 0)) ?_
    intro ret s4 hrun h4
    split
    · rename_i hret
      have hkept := hstop t mce s4 ht (.refreshed hprobe htm harg hme (hret ▸ hrun)) h4.2
      exact Keeps.ret (onTimers_keeps hkept)
    · exact Keeps.of_pure trivial h4.2

theorem recvMapReplyProbe_keeps (henv : C.rlocs env.rlocs) (h : C.inv s)
    (hmsg : ∀ r ∈ msg.records, C.record r) (ht : s.ts.nonces msg.nonce = some t)
      (hprobe : msg.rlocProbe = true)
    (hstop : StopKept C env s msg ra) : C.Any s (recvMapReplyProbe W env t msg ra) := by
  refine .bind_run (parseReplyRecord_keeps h .uninit (record_getD hmsg 0)) ?_
  rintro o s1 hparse ⟨ho, h1⟩
  cases o with
  | none => exact Keeps.of_pure trivial h1
  | some p =>
    refine .lift_bind (probedAddress_safe p ra) fun addr _ => ?_
    refine .bind_run (probeReplyEntry_keeps h1 (C.key_mapping (ho p rfl))) ?_
    rintro found s2 hfound ⟨-, h2⟩
    cases found with
    | none => exact Keeps.of_pure trivial h2
    | some mce =>
      refine .bind_run (handleLocatorProbeReply_keeps henv h2 mce addr) ?_
      rintro r s3 hrun ⟨-, h3⟩
      have hkept := hstop t mce s3 ht (.probed hprobe hparse hfound hrun) h3
      exact Keeps.ret (onTimers_keeps hkept)

theorem trRecvMapReply_keeps (henv : C.rlocs env.rlocs) (h : C.inv s)
    (hmsg : ∀ r ∈ msg.records, C.record r) (hstop : StopKept C env s msg ra) :
      C.Any s (trRecvMapReply W env msg ra) := by
  refine .get_bind ?_
  split
  · exact Keeps.of_pure trivial h
  · rename_i t ht
    split
    · rename_i hprobe
      exact recvMapReplyProbe_keeps henv h hmsg ht hprobe hstop
    · rename_i hprobe
      exact recvMapReplyNonProbe_keeps henv h hmsg ht (Bool.eq_false_iff.mpr hprobe) hstop

theorem trReplyToSmr_keeps (h : C.inv s) (src : LispAddr) {req : LispAddr} (hreq : C.key req) :
    C.Any s (trReplyToSmr W env src req) := by
  refine .seq (mcacheLookup_keeps h hreq) fun o s1 h1 => ?_
  cases o with
  | none => exact .of_pure trivial h1
  | some mce =>
    refine .seq (newTimer_keeps h1 rfl (by decide)) fun t s2 h2 => ?_
    exact .ret (smrInvokedMapRequestCb_keeps h2 t mce src)

theorem replyRecord_keeps (h : C.inv s) (msg : MapRequestMsg) (la : LispAddr) {deid : LispAddr}
    (hd : C.key deid) : C.Any s (replyRecord msg la deid) := by
  refine .get_bind ?_
  split
  · exact Keeps.of_pure trivial h
  · refine Keeps.seq (lift_keeps (C.lookupLocal false h hd) h) fun o s1 h1 => ?_
    cases o with
    | none => exact .of_pure trivial h1
    | some mle =>
      refine .seq (derefMle_keeps h1 mle) fun e s2 h2 => ?_
      exact .ret (lift_keeps (lispMsgPutMapping_safe _ _) h2)

theorem mapRequestLoop_keeps {msg : MapRequestMsg} (hseid : C.key msg.seid) (la : LispAddr) :
    ∀ (l : List LispAddr) (acc : List ReplyRecord) {s : Xtr R}, C.inv s →
      (∀ eid ∈ l, C.key eid) → C.Any s (mapRequestLoop W env msg la acc l)
  | [], _, _, h, _ => .of_pure trivial h
  | deid :: rest, acc, s, h, hl => by
    have hrest : ∀ eid ∈ rest, C.key eid := fun eid he => hl eid (mem_cons_of_mem _ he)
    refine .seq (replyRecord_keeps h msg la (hl deid (by simp))) fun o s1 h1 => ?_
    cases o with
    | none => exact mapRequestLoop_keeps hseid la rest _ h1 hrest
    | some recs =>
      simp only
      split
      · refine .seq (trReplyToSmr_keeps h1 deid hseid) fun ret s2 h2 => ?_
        split_ifs
        · exact .of_pure trivial h2
        · exact .of_pure trivial h2
        · exact mapRequestLoop_keeps hseid la rest _ h2 hrest
      · exact mapRequestLoop_keeps hseid la rest _ h1 hrest

theorem trRecvMapRequest_keeps (h : C.inv s) {msg : MapRequestMsg} (hseid : C.key msg.seid)
    (heids : ∀ eid ∈ msg.eids, C.key eid) (la : LispAddr) :
    C.Any s (trRecvMapRequest W env msg la) := by
  unfold trRecvMapRequest
  split
  · exact .of_pure trivial h
  · refine .seq (mapRequestLoop_keeps hseid la _ _ h heids) fun r s1 h1 => ?_
    split
    · exact .of_pure trivial h1
    · exact .of_pure trivial h1
    · split
      · exact .of_pure trivial h1
      · exact .of_pure trivial h1

theorem handleMergeSemantics_keeps (henv : C.rlocs env.rlocs) (h : C.inv s) (hm : C.mapping m) :
    C.Any s (handleMergeSemantics W env m) := by
  refine .seq (mcacheLookup_keeps h (C.key_mapping hm)) fun o s1 h1 => ?_
  cases o with
  | none =>
    exact .seq (trMcacheAddMapping_keeps henv h1 hm) fun _ _ _ =>
      .of_throw SparesPointers.badRelease
  | some mce =>
    refine .bind (derefMce_keeps h1 mce) fun e s2 _ h2 => ?_
    split
    · exact .of_pure trivial h2
    · refine .after (mceUpdateLocators_stales h2 hm) fun m' s3 h3 => ?_
      exact .seq (updatedMapCacheInf_keeps henv h3) fun _ _ h4 =>
        programMceRlocProbing_keeps h4 mce

theorem mapNotifyLoop_keeps (henv : C.rlocs env.rlocs) (hmissing : ¬ bad .missingEntry) (t : Nat) :
    ∀ (l : List RawRecord) {s : Xtr R}, C.inv s → (∀ r ∈ l, C.record r) →
      C.Any s (mapNotifyLoop W env t l)
  | [], _, h, _ => .of_pure trivial h
  | raw :: rest, s, h, hl => by
    have hend : ∀ s1 : Xtr R, C.inv s1 → C.Any s1 (do
        onTimers (htableNoncesResetNoncesLst · t)
        onTimers (lmtimerStart · t MAP_REGISTER_INTERVAL)
        mapNotifyLoop W env t rest) := fun s1 h1 =>
      .seq (resetNonces_keeps h1 t) fun _ _ h2 =>
        .seq (startTimer_keeps h2 t _) fun _ _ h3 =>
          mapNotifyLoop_keeps henv hmissing t rest h3 fun r hr => hl r (mem_cons_of_mem _ hr)
    refine .bind (parseRecord_keeps h .uninit (hl raw (by simp))) fun p s1 hp h1 => ?_
    split
    · rename_i hret
      refine .get_bind ?_
      refine Keeps.seq (lift_keeps (C.lookupLocal true h1 (C.key_mapping (hp hret))) h1)
        fun o s2 h2 => ?_
      cases o with
      | none => exact .of_throw hmissing
      | some mle =>
        refine .seq (derefMle_keeps h2 mle) fun e s3 h3 => ?_
        split
        · exact .seq (handleMergeSemantics_keeps henv h3 (hp hret)) fun _ s4 h4 => hend s4 h4
        · exact hend s3 h3
    · exact .of_pure trivial h1

theorem trRecvMapNotify_keeps (henv : C.rlocs env.rlocs) (hmissing : ¬ bad .missingEntry)
    (h : C.inv s) {msg : MapNotifyMsg} (hmsg : ∀ r ∈ msg.records, C.record r) :
      C.Any s (trRecvMapNotify W env msg) := by
  refine .get_bind ?_
  split
  · exact Keeps.of_pure trivial h
  · refine Keeps.seq (derefTimer_keeps h _) fun tm s1 h1 => ?_
    refine Keeps.seq (lift_keeps (asMapReg_safe _) h1) fun r s2 h2 => ?_
    refine .seq (derefMs_keeps h2 r.2) fun elt s3 h3 => ?_
    split
    · exact mapNotifyLoop_keeps henv hmissing _ _ h3 (record_readRecords hmsg _)
    · exact .of_pure trivial h3

/-! ## Packets -/

theorem petrsHasLocators_keeps (h : C.inv s) : C.Any s petrsHasLocators :=
  SafeFrom.get_bind (Keeps.bind (derefMce_keeps h _) fun _ _ _ h1 => Keeps.of_pure trivial h1)

theorem fwdInfoFor_keeps (hmissing : ¬ bad .missingEntry) (h : C.inv s) (mle : Option Nat) (mce :
      Nat) (tuple : PacketTuple) : C.Any s (fwdInfoFor W env mle mce tuple) := by
  have hmle : C.Any s (ofOption .missingEntry mle) :=
    .of_option hmissing h fun _ _ => trivial
  refine .seq hmle fun l s1 h1 => ?_
  refine .seq (derefMle_keeps h1 l) fun src s2 h2 => ?_
  refine .bind (derefMce_keeps h2 mce) fun dst s3 _ h3 => .get_bind ?_
  refine Keeps.seq (Keeps.of_lift (C.policy.fwd _ _ _ _ _) h3) fun f s4 h4 => ?_
  cases f with
  | some f => exact .of_pure trivial h4
  | none =>
    refine .seq (petrsHasLocators_keeps h4) fun has s5 h5 => ?_
    split
    · exact .bind (derefMce_keeps h5 _) fun _ _ _ h6 =>
        .of_lift (C.policy.fwd _ _ _ _ _) h6
    · exact .of_pure trivial h5

theorem fwdEntry_keeps (henv : C.rlocs env.rlocs) (h : C.inv s) (tuple : PacketTuple) :
    C.Any s (fwdEntry W env tuple) := by
  refine SafeFrom.get_bind (Keeps.seq (mcacheLookup_keeps h (C.key_ip _)) fun o s1 h1 => ?_)
  cases o with
  | none =>
    refine .seq (handleMapCacheMiss_keeps henv h1 _ _) fun _ s2 h2 => ?_
    exact .ret (petrsHasLocators_keeps h2)
  | some mce =>
    refine .bind (derefMce_keeps h1 mce) fun e s2 _ h2 => ?_
    refine .seq (petrsHasLocators_keeps h2) fun has s3 h3 => ?_
    split
    · exact .of_pure trivial h3
    · split
      · exact .of_pure trivial h3
      · exact .of_pure trivial h3

theorem trGetFwdEntry_keeps (henv : C.rlocs env.rlocs) (hmissing : ¬ bad .missingEntry)
    (h : C.inv s) (tuple : PacketTuple) : C.Any s (trGetFwdEntry W env tuple) := by
  refine .get_bind ?_
  split <;> [refine Keeps.seq (Keeps.of_pure trivial h) fun mle s1 h1 => ?_;
    refine Keeps.seq (lift_keeps (C.lookupLocal false h (C.key_ip _)) h) fun mle s1 h1 => ?_]
  all_goals
    split
    · exact .of_pure trivial h1
    · refine .seq (fwdEntry_keeps henv h1 tuple) fun r s2 h2 => ?_
      split
      · exact .of_pure trivial h2
      · exact .ret (fwdInfoFor_keeps hmissing h2 _ _ tuple)

/-! ## Steps -/

theorem timerCb_keeps (h : C.inv s)
    (hdown : ∀ e loc, s.ts.kind t = some (.RLOC_PROBING_TIMER, .rlocProbe e loc) →
      C.Any s (locatorDown W env e loc)) : C.Any s (timerCb W env t) := by
  refine .bind_run (derefTimer_keeps h t) fun tm s1 htm _ => ?_
  obtain ⟨htm, rfl⟩ := derefTimer_ok.mp htm
  split
  · refine Keeps.seq ?_ fun _ _ h3 => .of_pure trivial h3
    exact .ret (trMcacheRemoveEntry_keeps h _)
  · exact Keeps.ret (sendMapRequestRetryCb_keeps h t _ _)
  · exact Keeps.ret (smrInvokedMapRequestCb_keeps h t _ _)
  · rename_i hty harg
    exact Keeps.ret (rlocProbingCb_keeps h
      (hdown _ _ (kind_eq_some_iff.mpr ⟨tm, htm, hty, harg⟩)) t)
  · exact Keeps.ret (mapRegisterCb_keeps h t _ _)
  · exact sendAllSmrAndReg_keeps h
  · exact .of_throw SparesPointers.typeConfusion

/-- Marking the locator of the probing timer that expires next as down keeps the invariant. -/
def DownKept (C : Conserved W bad) (env : CtrlEnv) (s : Xtr R) : Prop :=
  ∀ t ts e loc, handleTimersVisit s.ts = .expired t ts →
    s.ts.kind t = some (.RLOC_PROBING_TIMER, .rlocProbe e loc) → C.inv { s with ts := ts } →
    C.Any { s with ts := ts } (locatorDown W env e loc)

theorem wheelIteration_keeps (h : C.inv s) (hdown : C.DownKept env s) :
    C.Any s (wheelIteration W env) := by
  refine .get_bind ?_
  split
  · exact Keeps.of_set (C.rest h)
  · rename_i hvisit
    exact Keeps.of_set (C.rotated h hvisit)
  · rename_i hvisit
    have h1 := C.expired h hvisit
    refine timerCb_keeps h1 fun e loc hk => hdown _ _ e loc hvisit ?_ h1
    have hspec := handleTimersVisit_spec s.ts
    rw [hvisit] at hspec
    obtain ⟨-, rfl⟩ := hspec
    exact hk

/-- The records and EIDs of a received message are such as the invariant allows. -/
def Receives (C : Conserved W bad) : XtrEvent → Prop
  | .packet _ env => C.rlocs env.rlocs
  | .mapReply msg _ env | .mapNotify msg env => C.rlocs env.rlocs ∧ ∀ r ∈ msg.records, C.record r
  | .mapRequest msg _ _ => C.key msg.seid ∧ ∀ eid ∈ msg.eids, C.key eid
  | _ => True

/-- The stop at the end of the handler of a Map-Reply keeps the invariant, if the event is one. -/
def StopsKept (C : Conserved W bad) (s : Xtr R) : XtrEvent → Prop
  | .mapReply msg ra env => C.StopKept env s msg ra
  | _ => True

/-- What the callback of a probing timer does keeps the invariant, if the event can be one. -/
def DownsKept (C : Conserved W bad) (s : Xtr R) : XtrEvent → Prop
  | .wheel env => C.DownKept env s
  | _ => True

theorem IgnoresData.downsKept (hC : C.IgnoresData) (s : Xtr R) (ev : XtrEvent) :
    C.DownsKept s ev := by
  cases ev with
  | wheel => exact fun _ _ e loc _ _ h => locatorDown_keeps hC h e loc
  | _ => exact trivial

/-- The changes of the local mappings keep the invariant, if the event makes any. -/
def LocalsKept (C : Conserved W bad) : XtrEvent → Prop
  | .ifEvent _ _ _ _ _ => WriteRule W bad C.inv
  | _ => True

/-- An invariant that the local mappings do not matter to is kept at every event. -/
theorem localsKept (hl : WriteRule W bad C.inv) (ev : XtrEvent) : C.LocalsKept ev := by
  cases ev with
  | ifEvent => exact hl
  | _ => exact trivial

theorem xtrStep_keeps (hmissing : ¬ bad .missingEntry) (h : C.inv s)
    (hev : C.Receives ev) (hlocal : C.LocalsKept ev) (hstop : C.StopsKept s ev)
    (hdown : C.DownsKept s ev) : C.Any s (xtrStep W ev) := by
  refine .get_bind ?_
  split
  · cases ev with
    | packet tuple env =>
      exact Keeps.ret (trGetFwdEntry_keeps hev hmissing h tuple)
    | mapReply msg ra env =>
      exact Keeps.ret (trRecvMapReply_keeps hev.1 h hev.2 hstop)
    | mapRequest msg la env =>
      exact Keeps.ret (trRecvMapRequest_keeps h hev.1 hev.2 la)
    | mapNotify msg env =>
      exact Keeps.ret (trRecvMapNotify_keeps hev.1 hmissing h hev.2)
    | ifEvent name old new status env =>
      exact Keeps.ret (hlocal.xtrIfEvent_keeps C.iface (programSmr_keeps · _) h name old new status)
    | tick =>
      exact Keeps.ret (Keeps.of_modify (C.rest (C.advance h)))
    | wheel env =>
      exact Keeps.ret (wheelIteration_keeps h hdown)
  · exact Keeps.of_pure trivial h

/-- A step keeps an invariant that the timers do not matter to, if the interface events do. -/
theorem xtrStep_inv {C : Conserved W (fun _ => False)} {out : XtrOut F} {s' : Xtr R}
    (hts : ∀ {s ts}, C.inv s → C.inv { s with ts := ts }) (h : C.inv s) (hev : C.Receives ev)
    (hdown : C.DownsKept s ev) (hif : ∀ {name old new status env r},
      ev = .ifEvent name old new status env →
        (xtrIfEvent W env name old new status).run s = .ok (r, s') → C.inv s')
    (hrun : (xtrStep W ev).run s = .ok (out, s')) : C.inv s' := by
  have hother (hlocal : C.LocalsKept ev) : C.inv s' := by
    refine ((xtrStep_keeps id h hev hlocal ?_ hdown).of_run hrun).2
    cases ev with
    | mapReply => exact fun _ _ _ _ _ h' => .of_forall fun _ _ => hts h'
    | _ => exact trivial
  cases ev with
  | ifEvent =>
    rw [xtrStep, get_bind_ok] at hrun
    split_ifs at hrun
    · obtain ⟨r, s1, hx, hrun⟩ := bind_ok.mp hrun
      obtain ⟨-, rfl⟩ := pure_ok.mp hrun
      exact hif rfl hx
    · obtain ⟨-, rfl⟩ := pure_ok.mp hrun
      exact h
  | _ => exact hother trivial

/-! ## Starting -/

theorem configureStatics_keeps (henv : C.rlocs env.rlocs) (h : C.inv s)
    (hst : ∀ m ∈ statics, C.mapping m) : C.Any s (statics.forM (configureStatic W env)) := by
  refine .forM (fun m hm s hs => ?_) h
  refine .seq (mcacheLookupExact_keeps hs (C.key_mapping (hst m hm))) fun o s1 h1 => ?_
  cases o with
  | some _ => exact .of_pure trivial h1
  | none =>
    exact .ret (trMcacheAddStaticMapping_keeps henv h1 (hst m hm))

theorem xtrRun_keeps (henv : C.rlocs env.rlocs) (ht : LocalRule W bad C.inv) (h : C.inv s) :
    C.Any s (xtrRun W env) := by
  refine SafeFrom.get_bind (derefMce_bind fun petr hpetr => ?_)
  have hend : ∀ s3 : Xtr R, C.inv s3 → C.Any s3 (do
      (mdbForeachEntry s.localMdb).forM (updatedMapLocInf W env)
      programMapRegister W
      programSmr 1
      programMceRlocProbing s.petrs) := fun s3 h3 => by
    refine .seq (.forM (fun mle _ s hs => ht.updatedMapLocInf_keeps hs mle) h3) ?_
    intro _ s4 h4
    refine .seq (programMapRegister_keeps h4) fun _ s5 h5 => ?_
    exact .seq (programSmr_keeps h5 1) fun _ _ h6 => programMceRlocProbing_keeps h6 _
  split
  · exact Keeps.seq (updatedMapCacheInf_keeps henv (C.reopen h hpetr)) fun _ s3 h3 => hend s3 h3
  · exact hend s h

theorem rtrRun_keeps (ht : LocalRule W bad C.inv) (h : C.inv s) : C.Any s (rtrRun W env) := by
  refine .get_bind ?_
  split
  · exact ht.updatedMapLocInf_keeps h _
  · exact Keeps.of_pure trivial h

theorem boot_keeps (henv : C.rlocs env.rlocs) (ht : LocalRule W bad C.inv) (h : C.inv s)
    (hst : ∀ m ∈ statics, C.mapping m) : C.Any s (boot W env statics) := by
  refine .seq (configureStatics_keeps henv h hst) fun _ s1 h1 => .get_bind ?_
  split
  · exact rtrRun_keeps ht h1
  · exact xtrRun_keeps henv ht h1

end Conserved

/-! ## Invariants of the timers -/

/-- The local entry is stored in the local database, the server is configured, and the entry is not
released. -/
structure Registrable {R : Type} (s : Xtr R) (mle ms : Nat) : Prop where
  entry : mle ∈ mdbForeachEntry s.localMdb
  server : ∃ elt ∈ s.mapServers, elt.ptr = ms
  live : ∃ ml, s.mles.cell mle = some ml

/-- A property of the timers that the operations on them keep. A new Map-Register timer is for an
entry and a server of the state `s0`. -/
structure TimersConserved {R : Type} (bad : Fault → Prop) (s0 : Xtr R)
    (T : Timers TimerOwner TimerArg → Prop) : Prop where
  start : ∀ {ts t d ts'}, T ts → lmtimerStart ts t d = .ok ts' → T ts'
  insert : ∀ {ts n t ts'}, T ts → htableNoncesInsert ts n t = .ok ts' → T ts'
  reset : ∀ {ts t ts'}, T ts → htableNoncesResetNoncesLst ts t = .ok ts' → T ts'
  create : ∀ {ts type arg obj nl}, T ts → arg.owner = some obj →
    (nl ≠ none → type.hasNonces = true) →
    (∀ mle ms, arg = .mapReg mle ms → Registrable s0 mle ms) →
    T (htablePtrsTimersAdd (lmtimerCreate ts type arg nl).1 obj ts.timers.next)
  createSmr : ∀ {ts}, T ts → T (lmtimerCreate ts .SMR_TIMER .xtr none).1
  stopAll : ∀ {ts} obj, T ts → SafeResult bad T (stopTimersFromObj ts obj)
  stopType : ∀ {ts} obj type, T ts → SafeResult bad T (stopTimersOfTypeFromObj ts obj type)
  advance : ∀ {ts}, T ts → T (advanceSpoke ts)
  rotated : ∀ {ts ts'}, T ts → handleTimersVisit ts = .rotated ts' → T ts'
  expired : ∀ {ts t ts'}, T ts → handleTimersVisit ts = .expired t ts' → T ts'

namespace TimersConserved

variable {s : Xtr R} {T' : Timers TimerOwner TimerArg → Prop} {P : TimerType → TimerArg → Prop}

theorem and (h : TimersConserved bad s T) (h' : TimersConserved (fun _ => False) s T') :
    TimersConserved bad s fun ts => T ts ∧ T' ts where
  start hts hx := ⟨h.start hts.1 hx, h'.start hts.2 hx⟩
  insert hts hx := ⟨h.insert hts.1 hx, h'.insert hts.2 hx⟩
  reset hts hx := ⟨h.reset hts.1 hx, h'.reset hts.2 hx⟩
  create hts howner hnl hreg := ⟨h.create hts.1 howner hnl hreg, h'.create hts.2 howner hnl hreg⟩
  createSmr hts := ⟨h.createSmr hts.1, h'.createSmr hts.2⟩
  stopAll obj hts := (h.stopAll obj hts.1).and (h'.stopAll obj hts.2)
  stopType obj type hts := (h.stopType obj type hts.1).and (h'.stopType obj type hts.2)
  advance hts := ⟨h.advance hts.1, h'.advance hts.2⟩
  rotated hts hx := ⟨h.rotated hts.1 hx, h'.rotated hts.2 hx⟩
  expired hts hx := ⟨h.expired hts.1 hx, h'.expired hts.2 hx⟩

theorem kinds_of {ts ts' : Timers TimerOwner TimerArg}
    (hev : ts.Evolves TimerArg.owner P ts') (h : ∀ t ty a, ts.kind t = some (ty, a) → P ty a) :
    ∀ t ty a, ts'.kind t = some (ty, a) → P ty a :=
  hev.kinds h

/-- What holds of the kinds of new timers holds of all. -/
theorem kinds (s : Xtr R)
    (hP : ∀ ty a, (∀ mle ms, a = .mapReg mle ms → Registrable s mle ms) → P ty a) :
    TimersConserved (fun _ => False) s fun ts => ∀ t ty a, ts.kind t = some (ty, a) → P ty a where
  start h hx := kinds_of (.lmtimerStart hx) h
  insert h hx := kinds_of (.htableNoncesInsert hx) h
  reset h hx := kinds_of (.htableNoncesResetNoncesLst hx) h
  create h howner hnl hreg := kinds_of (.newTimer howner (hP _ _ hreg) hnl) h
  createSmr h := kinds_of (.lmtimerCreate rfl (hP _ _ nofun) (by simp)) h
  stopAll obj h := .of_forall fun _ hx =>
    kinds_of (.stopTimersFromObj hx) h
  stopType obj type h := .of_forall fun _ hx =>
    kinds_of (.stopTimersOfTypeFromObj hx) h
  advance h := h
  rotated h hx := by
    rename_i ts ts'
    have hspec := handleTimersVisit_spec ts
    rw [hx] at hspec
    obtain ⟨g, -, rfl⟩ := hspec
    exact h
  expired h hx := by
    rename_i ts t ts'
    have hspec := handleTimersVisit_spec ts
    rw [hx] at hspec
    obtain ⟨-, rfl⟩ := hspec
    exact h

end TimersConserved

/-- `T` holds of the timers; the local database, the servers and the local entries that are not
released are those of `s0`. -/
structure TimersHold {R : Type} (s0 : Xtr R) (T : Timers TimerOwner TimerArg → Prop) (s : Xtr R) :
    Prop where
  timers : T s.ts
  localMdb : s.localMdb = s0.localMdb
  mapServers : s.mapServers = s0.mapServers
  mles : ∀ mle, (∃ ml, s.mles.cell mle = some ml) ↔ ∃ ml, s0.mles.cell mle = some ml

theorem TimersHold.refl {s : Xtr R} (h : T s.ts) : TimersHold s T s :=
  ⟨h, rfl, rfl, fun _ => Iff.rfl⟩

/-- No local entry is released by a change of one. -/
theorem TimersHold.modifyLocal {s0 s : Xtr R} (h : TimersHold s0 T s) (mle : Nat)
    (f : MapLocalEntry R → MapLocalEntry R) :
    TimersHold s0 T { s with mles := s.mles.modify mle f } := by
  refine ⟨h.timers, h.localMdb, h.mapServers, fun l => ?_⟩
  rw [← h.mles l, Heap.modify_cell]
  split_ifs with hl
  · simp [hl]
  · rfl

/-- An invariant of the timers is one of the router. -/
def Conserved.ofTimers {R F : Type} {W : World R F} {bad : Fault → Prop} [SparesLookups bad]
    {s0 : Xtr R} {T : Timers TimerOwner TimerArg → Prop} (hT : TimersConserved bad s0 T)
    (policy : PolicyAvoids W bad) : Conserved W bad where
  inv := TimersHold s0 T
  stale s _ _ := TimersHold s0 T s
  entry mle := mle ∈ mdbForeachEntry s0.localMdb
  server ms := ∃ elt ∈ s0.mapServers, elt.ptr = ms
  policy := policy
  entry_stored h hmle := h.localMdb ▸ hmle
  server_listed h hms := ⟨_, h.mapServers ▸ hms, rfl⟩
  start h hx := ⟨hT.start h.timers hx, h.localMdb, h.mapServers, h.mles⟩
  insert h hx := ⟨hT.insert h.timers hx, h.localMdb, h.mapServers, h.mles⟩
  reset h hx := ⟨hT.reset h.timers hx, h.localMdb, h.mapServers, h.mles⟩
  create h howner hnl hreg := by
    refine ⟨hT.create h.timers howner hnl fun mle ms harg => ?_, h.localMdb, h.mapServers, h.mles⟩
    obtain ⟨hmle, hms, ml, hml⟩ := hreg mle ms harg
    exact ⟨hmle, hms, (h.mles mle).mp ⟨ml, hml⟩⟩
  createSmr h := ⟨hT.createSmr h.timers, h.localMdb, h.mapServers, h.mles⟩
  stopAll obj h := (hT.stopAll obj h.timers).mono (fun _ he => he) fun _ hts =>
    ⟨hts, h.localMdb, h.mapServers, h.mles⟩
  stopType obj type h := (hT.stopType obj type h.timers).mono (fun _ he => he) fun _ hts =>
    ⟨hts, h.localMdb, h.mapServers, h.mles⟩
  advance h := ⟨hT.advance h.timers, h.localMdb, h.mapServers, h.mles⟩
  rotated h hx := ⟨hT.rotated h.timers hx, h.localMdb, h.mapServers, h.mles⟩
  expired h hx := ⟨hT.expired h.timers hx, h.localMdb, h.mapServers, h.mles⟩
  lookup exact _ _ := findNode_avoids _ _ exact
  lookupLocal exact _ _ := findNode_avoids _ _ exact
  add e h _ :=
    (mdbAddEntry_avoids _ _ e).of_ok fun _ _ => ⟨h.timers, h.localMdb, h.mapServers, h.mles⟩
  remove h _ := (mdbRemoveEntry_avoids _ _).of_ok fun _ _ =>
    ⟨h.timers, h.localMdb, h.mapServers, h.mles⟩
  alloc _ _ h _ := ⟨h.timers, h.localMdb, h.mapServers, h.mles⟩
  write _ h _ := ⟨h.timers, h.localMdb, h.mapServers, h.mles⟩
  compute h _ _ := ⟨h.timers, h.localMdb, h.mapServers, h.mles⟩
  activate _ h := ⟨h.timers, h.localMdb, h.mapServers, h.mles⟩
  free _ h := ⟨h.timers, h.localMdb, h.mapServers, h.mles⟩
  iface h _ := ⟨h.timers, h.localMdb, h.mapServers, h.mles⟩
  rest h := ⟨h.timers, h.localMdb, h.mapServers, h.mles⟩
  parse next probed _ := (lispMsgParseMappingRecord_safe next probed _).of_ok fun _ _ _ => trivial
  update next _ _ := (mappingUpdateLocators_safe next _ _).of_ok fun _ _ => trivial

theorem Conserved.ofTimers_writeRule
    [SparesLookups bad] (hT : TimersConserved bad s0 T) (policy : PolicyAvoids W bad) :
    WriteRule W bad (Conserved.ofTimers hT policy).inv :=
  .of_frame policy.loc (fun mle f h => TimersHold.modifyLocal h mle f)
    fun _ _ h => ⟨h.timers, h.localMdb, h.mapServers, h.mles⟩

theorem Conserved.ofTimers_ignoresData
    [SparesLookups bad] (hT : TimersConserved bad s0 T) (policy : PolicyAvoids W bad) :
    (Conserved.ofTimers hT policy).IgnoresData :=
  ⟨.rfl, fun _ => trivial⟩

end Lispmob
