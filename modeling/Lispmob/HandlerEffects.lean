import Lispmob.CacheEffects

/-!
# What the callbacks and the message handlers change

One lemma for each callback of a timer and for each handler of `lisp_xtr.c`, in terms of the
relations of `CacheEffects`. `Touched` is one more: locators change their state and entries their
forwarding data, and nothing else.
-/

namespace Lispmob

open Prog List

section Handlers

variable {R F : Type} {W : World R F} {env : CtrlEnv} {s s' s1 s2 s3 : Xtr R} {t e : Nat}
  {m : Mapping} {u : Unit} {loc : Nat} {a : LispAddr} {o : Option Nat} {r : Ret} {b : Bool}
  {raw : RawRecord} {msg : MapRequestMsg} {rel : Xtr R → Xtr R → Prop} {src : LispAddr}
  {ts : Timers TimerOwner TimerArg} {tuple : PacketTuple} {probed : Probed} {out : XtrOut F}
  {ra : LispAddr} {la : LispAddr} {d : Nat}

/-! ## States of locators -/

/-- Two versions of an entry that differ in the states of its locators and its forwarding data. -/
structure SameShape (me me' : Mce R) : Prop where
  entry : SameEntry me me'
  ptrs : me'.mapping.locators.map (·.ptr) = me.mapping.locators.map (·.ptr)

theorem SameShape.refl (me : Mce R) : SameShape me me :=
  ⟨.refl me, rfl⟩

theorem SameShape.trans {me₁ me₂ me₃ : Mce R} (h₁ : SameShape me₁ me₂) (h₂ : SameShape me₂ me₃) :
    SameShape me₁ me₃ :=
  ⟨h₁.entry.trans h₂.entry, h₂.ptrs.trans h₁.ptrs⟩

/-- Entries keep their shape, and nothing else changes. -/
structure Touched (W : World R F) (s s' : Xtr R) : Prop where
  evolves : Evolves W s s'
  fwd : ∀ i me, s.mces.cell i = some me → ∃ me', s'.mces.cell i = some me' ∧ SameShape me me'
  back : ∀ i me', s'.mces.cell i = some me' → ∃ me, s.mces.cell i = some me ∧ SameShape me me'
  next : s'.mces.next = s.mces.next
  rest : s' = { s with mces := s'.mces }

theorem Touched.refl (s : Xtr R) : Touched W s s :=
  ⟨.refl s, fun _ me h => ⟨me, h, .refl me⟩, fun _ me h => ⟨me, h, .refl me⟩, rfl, rfl⟩

theorem Touched.trans (h₁ : Touched W s1 s2) (h₂ : Touched W s2 s3) : Touched W s1 s3 := by
  refine ⟨h₁.evolves.trans h₂.evolves, ?_, ?_, h₂.next.trans h₁.next, ?_⟩
  · intro i me hme
    obtain ⟨me2, hme2, hs2⟩ := h₁.fwd i me hme
    obtain ⟨me3, hme3, hs3⟩ := h₂.fwd i me2 hme2
    exact ⟨me3, hme3, hs2.trans hs3⟩
  · intro i me3 hme3
    obtain ⟨me2, hme2, hs2⟩ := h₂.back i me3 hme3
    obtain ⟨me, hme, hs1⟩ := h₁.back i me2 hme2
    exact ⟨me, hme, hs1.trans hs2⟩
  · rw [h₂.rest, h₁.rest]

theorem Edited.touched {me me' : Mce R} (h : Edited W s s' e me me')
    (hloct : s'.nextLoct = s.nextLoct)
    (hptrs : me'.mapping.locators.map (·.ptr) = me.mapping.locators.map (·.ptr)) :
    Touched W s s' := by
  refine ⟨h.evolves, ?_, ?_, h.next, ?_⟩
  · intro i mi hmi
    rw [h.cells]
    split_ifs with hi
    · rw [hi, h.was] at hmi
      cases hmi
      exact ⟨me', rfl, h.same, hptrs⟩
    · exact ⟨mi, hmi, .refl mi⟩
  · intro i mi hmi
    rw [h.cells] at hmi
    split_ifs at hmi with hi
    · cases hmi
      exact ⟨me, by rw [hi, h.was], h.same, hptrs⟩
    · exact ⟨mi, hmi, .refl mi⟩
  · rw [h.rest, hloct]

theorem Touched.wf (h : Touched W s s') (hw : s.Wf) : s'.Wf := by
  refine hw.of_cells ?_ (fun i me hme => ?_) fun i me' hme' => ?_
  · rw [h.rest]
  · obtain ⟨me', hme', hs⟩ := h.fwd i me hme
    exact ⟨me', hme', hs.entry⟩
  · obtain ⟨me, hme, hs⟩ := h.back i me' hme'
    exact ⟨me, hme, hs.entry⟩

theorem updatedMapCacheInf_touched (h : (updatedMapCacheInf W env e m).run s = .ok (u, s')) :
    Touched W s s' := by
  obtain ⟨me, info, hed⟩ := updatedMapCacheInf_spec h
  refine hed.touched ?_ rfl
  simp only [updatedMapCacheInf, bind_ok, derefMce_ok, lift_ok,
    setMceRoutingInfo_ok] at h
  obtain ⟨_, _, ⟨-, rfl⟩, _, _, ⟨-, rfl⟩, rfl⟩ := h
  rfl

/-- Changing the state of a locator keeps the identities of the locators. -/
theorem setLocatorState_touched {state : LinkState}
    (h : (setLocatorState e loc state).run s = .ok (u, s')) : Touched W s s' := by
  simp only [setLocatorState, bind_ok, derefMce_ok, setMceMapping_ok] at h
  obtain ⟨me, _, ⟨hme, rfl⟩, rfl⟩ := h
  refine (edited_of_modify (W := W) (f := fun e => { e with mapping := { me.mapping with
    locatorsLists := me.mapping.locatorsLists.map fun l =>
      l.map fun loct => if loct.ptr = loc then { loct with state := state } else loct } })
    hme (Nat.le_refl _) ⟨rfl, rfl, rfl, rfl⟩).touched rfl ?_
  simp only [Mapping.locators, ← map_flatten, map_map]
  congr 1
  funext l
  simp only [Function.comp_apply]
  split_ifs <;> rfl

/-! ## Reading the map cache -/

theorem mcacheLookupExact_ok :
    (mcacheLookupExact a).run s = .ok (o, s') ↔
      mdbLookupEntryExact s.mapCache a = .ok o ∧ s' = s := by
  rw [mcacheLookupExact, get_bind_ok, lift_ok]

theorem mcacheLookup_ok :
    (mcacheLookup a).run s = .ok (o, s') ↔ mdbLookupEntry s.mapCache a = .ok o ∧ s' = s := by
  rw [mcacheLookup, get_bind_ok, lift_ok]

theorem lookupExact_stored (h : mdbLookupEntryExact s.mapCache a = .ok (some d)) :
    ∃ k, s.mapCache.stored k = some d :=
  findNode_stored h

theorem lookup_stored (h : mdbLookupEntry s.mapCache a = .ok (some d)) :
    ∃ k, s.mapCache.stored k = some d :=
  findNode_stored h

/-! ## Callbacks -/

/-- The Map-Request of a retry can be built: there are map resolvers, one of them of a supported
family, and the request has an ITR-RLOC. -/
def mapRequestSendable (env : CtrlEnv) (s : Xtr R) (seid : LispAddr) : Bool :=
  !s.mapResolvers.isEmpty && lispMsgMreqCreate seid (ctrlDefaultRlocs env) &&
    (getMapResolver env s.mapResolvers).isSome

/-- The number of messages a timer has sent, by its list of nonces. -/
def Timers.sent (ts : Timers TimerOwner TimerArg) (t : Nat) : Int :=
  (((ts.timers.cell t).bind (·.noncesLst)).getD []).length

theorem sent_eq {tm : Timer TimerArg} {l : List Nonce} (htm : s.ts.timers.cell t = some tm)
    (hl : tm.noncesLst = some l) : s.ts.sent t = l.length := by
  rw [Timers.sent, htm, Option.bind_some, hl, Option.getD_some]

theorem sendMapRequestRetryCb_cases
    (h : (sendMapRequestRetryCb W env t e src).run s = .ok (r, s')) :
    (s.ts.sent t - 1 < s.mapRequestRetries ∧ mapRequestSendable env s src = true ∧
        Rearmed W s s' t LISPD_INITIAL_MRQ_TIMEOUT) ∨
      (s.ts.sent t - 1 < s.mapRequestRetries ∧ mapRequestSendable env s src = false ∧
        s' = { s with nonceCalls := s.nonceCalls + 1 }) ∨
      (¬ s.ts.sent t - 1 < s.mapRequestRetries ∧
        ∃ r', (trMcacheRemoveEntry e).run s = .ok (r', s')) := by
  simp only [sendMapRequestRetryCb, bind_ok, derefTimer_ok, noncesListSize_ok,
    derefMce_ok, get_ok] at h
  obtain
    ⟨tm, _, ⟨htm, rfl⟩, size, _, ⟨⟨l, hl, rfl⟩, rfl⟩, me, _, ⟨hme, rfl⟩, _, s, ⟨rfl, rfl⟩, h⟩ := h
  rw [← sent_eq htm hl] at h
  split_ifs at h with hsent
  · simp only [bind_ok, nonceNew_ok, buildAndSendMapRequest, get_ok, derefMce_ok,
      pure_ok] at h
    obtain ⟨n, _, ⟨rfl, rfl⟩, b, _, ⟨_, _, ⟨rfl, rfl⟩, _, _, ⟨-, rfl⟩, hb, rfl⟩, h⟩ := h
    split_ifs at h with hb'
    · simp only [bind_ok, rearmWithNonce_ok, pure_ok] at h
      obtain ⟨_, _, ⟨ts1, ts2, h1, h2, rfl⟩, -, rfl⟩ := h
      exact .inl ⟨hsent, hb.symm.trans hb', ts1, ts2, h1, h2, rfl⟩
    · obtain ⟨-, rfl⟩ := pure_ok.mp h
      exact .inr (.inl ⟨hsent, hb.symm.trans (Bool.eq_false_iff.mpr hb'), rfl⟩)
  · simp only [bind_ok, pure_ok] at h
    obtain ⟨r', s1, hrem, -, rfl⟩ := h
    exact .inr (.inr ⟨hsent, r', hrem⟩)

theorem smrInvokedMapRequestCb_cases
    (h : (smrInvokedMapRequestCb W env t e src).run s = .ok (r, s')) :
    (s.ts.sent t - 1 < LISPD_MAX_SMR_RETRANSMIT ∧ Rearmed W s s' t LISPD_INITIAL_SMR_TIMEOUT) ∨
      (s.ts.sent t - 1 < LISPD_MAX_SMR_RETRANSMIT ∧
        s' = { s with nonceCalls := s.nonceCalls + 1 }) ∨
      (¬ s.ts.sent t - 1 < LISPD_MAX_SMR_RETRANSMIT ∧
        ∃ r', (trMcacheRemoveEntry e).run s = .ok (r', s')) := by
  simp only [smrInvokedMapRequestCb, bind_ok, derefTimer_ok, noncesListSize_ok] at h
  obtain ⟨tm, _, ⟨htm, rfl⟩, size, s, ⟨⟨l, hl, rfl⟩, rfl⟩, h⟩ := h
  rw [← sent_eq htm hl] at h
  split_ifs at h with hsent
  · simp only [bind_ok, nonceNew_ok, sendSmrInvokedMapRequest, localMapDbGetMainEid,
      get_ok, derefMce_ok, pure_ok] at h
    obtain ⟨n, _, ⟨rfl, rfl⟩, b, _, ⟨_, _, ⟨rfl, rfl⟩, _, _, ⟨-, rfl⟩, _, _, ⟨_, _, ⟨rfl, rfl⟩, -,
      rfl⟩, -, rfl⟩, h⟩ := h
    split_ifs at h
    · simp only [bind_ok, rearmWithNonce_ok, pure_ok] at h
      obtain ⟨_, _, ⟨ts1, ts2, h1, h2, rfl⟩, -, rfl⟩ := h
      exact .inl ⟨hsent, ts1, ts2, h1, h2, rfl⟩
    · obtain ⟨-, rfl⟩ := pure_ok.mp h
      exact .inr (.inl ⟨hsent, rfl⟩)
  · simp only [bind_ok, pure_ok] at h
    obtain ⟨r', s1, hrem, -, rfl⟩ := h
    exact .inr (.inr ⟨hsent, r', hrem⟩)

theorem locatorDown_spec (h : (locatorDown W env e loc).run s = .ok (b, s')) :
    Touched W s s' ∧ (b = false ↔ e ≠ s.petrs ∧ ∃ me, s.mces.cell e = some me ∧
      mdbLookupEntryExact s.mapCache me.mapping.eidPrefix = .ok none) := by
  simp only [locatorDown, bind_ok, derefMce_ok, mcacheLookupExact_ok] at h
  obtain ⟨_, _, hset, me1, _, ⟨hme1, rfl⟩, o, s1, ⟨ho, rfl⟩, h⟩ := h
  have ht := setLocatorState_touched (W := W) hset
  have hcache : s1.mapCache = s.mapCache := by rw [ht.rest]
  have hpetrs : s1.petrs = s.petrs := by rw [ht.rest]
  obtain ⟨me, hme, hshape⟩ := ht.back e me1 hme1
  rw [hcache, hshape.entry.eid] at ho
  -- the lookup is the one of the entry before the change
  have hlook : (∃ m, s.mces.cell e = some m ∧
      mdbLookupEntryExact s.mapCache m.mapping.eidPrefix = .ok none) ↔ o = none := by
    constructor
    · rintro ⟨m, hm, hnone⟩
      rw [hme] at hm
      cases hm
      rw [hnone] at ho
      exact (Except.ok.inj ho).symm
    · rintro rfl
      exact ⟨me, hme, ho⟩
  rw [hlook]
  cases o with
  | some found =>
    simp only [bind_ok, pure_ok] at h
    obtain ⟨_, s2, hup, rfl, rfl⟩ := h
    exact ⟨ht.trans (updatedMapCacheInf_touched hup), by simp⟩
  | none =>
    simp only [get_bind_ok] at h
    split_ifs at h with hne
    · obtain ⟨rfl, rfl⟩ := pure_ok.mp h
      exact ⟨ht, by simpa [hpetrs] using hne⟩
    · simp only [bind_ok, pure_ok] at h
      obtain ⟨_, s2, hup, rfl, rfl⟩ := h
      exact ⟨ht.trans (updatedMapCacheInf_touched hup), by simpa [hpetrs] using hne⟩

theorem rlocProbingCb_cases (h : (rlocProbingCb W env t e loc).run s = .ok (r, s')) :
    ∃ me loct, s.mces.cell e = some me ∧ me.mapping.locators.find? (·.ptr = loc) = some loct ∧
      ((s.ts.sent t - 1 < s.probeRetries ∧ rlocProbing W env loct = true ∧
          Rearmed W s s' t (BitVec.ofInt 32 s.probeRetriesInterval)) ∨
        (s.ts.sent t - 1 < s.probeRetries ∧ rlocProbing W env loct = false ∧
          s' = { s with nonceCalls := s.nonceCalls + 1 }) ∨
        (¬ s.ts.sent t - 1 < s.probeRetries ∧ ∃ s1, Touched W s s1 ∧
          (Restarted s1 s' t (BitVec.ofInt 32 s.probeInterval) ∨
            (loct.state = .UP ∧ e ≠ s.petrs ∧
              mdbLookupEntryExact s.mapCache me.mapping.eidPrefix = .ok none ∧ s' = s1)))) := by
  simp only [rlocProbingCb, derefLocator, bind_ok, derefTimer_ok, noncesListSize_ok,
    derefMce_ok, ofOption_ok, get_ok] at h
  obtain ⟨tm, _, ⟨htm, rfl⟩, size, _, ⟨⟨l, hl, rfl⟩, rfl⟩, loct, _,
    ⟨me, _, ⟨hme, rfl⟩, hloct, rfl⟩, _, s,
    ⟨rfl, rfl⟩, h⟩ := h
  rw [← sent_eq htm hl] at h
  refine ⟨me, loct, hme, hloct, ?_⟩
  split_ifs at h with hsent hb hup
  · simp only [bind_ok, nonceNew_ok, rearmWithNonce_ok, pure_ok] at h
    obtain ⟨n, _, ⟨rfl, rfl⟩, _, _, ⟨ts1, ts2, h1, h2, rfl⟩, -, rfl⟩ := h
    exact .inl ⟨hsent, hb, ts1, ts2, h1, h2, rfl⟩
  · obtain ⟨n, _, ⟨rfl, rfl⟩, -, rfl⟩ := h
    exact .inr (.inl ⟨hsent, Bool.eq_false_iff.mpr hb, rfl⟩)
  · obtain ⟨found, s1, hdown, h⟩ := bind_ok.mp h
    obtain ⟨htouched, hfound⟩ := locatorDown_spec hdown
    refine .inr (.inr ⟨hsent, s1, htouched, ?_⟩)
    split_ifs at h with hf
    · simp only [bind_ok, onTimers_ok, pure_ok] at h
      obtain ⟨_, _, ⟨ts1, h1, rfl⟩, _, _, ⟨ts2, h2, rfl⟩, -, rfl⟩ := h
      exact .inl ⟨ts1, ts2, h1, h2, rfl⟩
    · obtain ⟨-, rfl⟩ := pure_ok.mp h
      obtain ⟨hne, m, hm, hnone⟩ := hfound.mp (Bool.eq_false_iff.mpr hf)
      rw [hme] at hm
      cases hm
      exact .inr ⟨hup, hne, hnone, rfl⟩
  · simp only [bind_ok, pure_ok] at h
    obtain ⟨_, _, ⟨rfl, rfl⟩, h⟩ := h
    refine .inr (.inr ⟨hsent, _, .refl _, .inl ?_⟩)
    simp only [if_true, bind_ok, onTimers_ok, pure_ok] at h
    obtain ⟨_, _, ⟨ts1, h1, rfl⟩, _, _, ⟨ts2, h2, rfl⟩, -, rfl⟩ := h
    exact ⟨ts1, ts2, h1, h2, rfl⟩

/-- What a callback of a timer `t` of an entry does: the entries keep their shape and the timer may
be linked again, or an entry is removed. -/
inductive Handled (W : World R F) (t : Nat) (s s' : Xtr R) : Prop where
  | idle (h : Idle W s s')
  | touched (h : Touched W s s')
  | refired {s1 : Xtr R} (touched : Touched W s s1) (h : Refired W s1 s' t)
  | removed {e : Nat} {r : Ret} (h : (trMcacheRemoveEntry e).run s = .ok (r, s'))

theorem Idle.of_calls : Idle W s { s with nonceCalls := s.nonceCalls + 1 } :=
  .of_counters (Nat.le_refl _) (Nat.le_succ _)

theorem sendMapRequestRetryCb_handled
    (h : (sendMapRequestRetryCb W env t e src).run s = .ok (r, s')) : Handled W t s s' := by
  obtain ⟨-, -, hre⟩ | ⟨-, -, rfl⟩ | ⟨-, r', hrem⟩ := sendMapRequestRetryCb_cases h
  · exact .refired (.refl _) hre.refired
  · exact .idle .of_calls
  · exact .removed hrem

theorem smrInvokedMapRequestCb_handled
    (h : (smrInvokedMapRequestCb W env t e src).run s = .ok (r, s')) : Handled W t s s' := by
  obtain ⟨-, hre⟩ | ⟨-, rfl⟩ | ⟨-, r', hrem⟩ := smrInvokedMapRequestCb_cases h
  · exact .refired (.refl _) hre.refired
  · exact .idle .of_calls
  · exact .removed hrem

theorem rlocProbingCb_handled (h : (rlocProbingCb W env t e loc).run s = .ok (r, s')) :
    Handled W t s s' := by
  obtain ⟨me, loct, -, -, ⟨-, -, hre⟩ | ⟨-, -, rfl⟩ | ⟨-, s1, ht, hres | ⟨-, -, -, rfl⟩⟩⟩ :=
    rlocProbingCb_cases h
  · exact .refired (.refl _) hre.refired
  · exact .idle .of_calls
  · exact .refired ht hres.refired
  · exact .touched ht

/-! ## Misses -/

/-- A timer is created for an entry, and not started. -/
structure Listed (W : World R F) (s s' : Xtr R) (ty : TimerType) (a : TimerArg) : Prop where
  evolves : Evolves W s s'
  kind : ∀ i, s'.ts.kind i = if i = s.ts.timers.next then some (ty, a) else s.ts.kind i
  wheel : s'.ts.wheel = s.ts.wheel
  sent : s'.ts.sent s.ts.timers.next = 0
  rest : s' = { s with ts := s'.ts }

theorem newTimer_listed {ty : TimerType} {a : TimerArg} (hfits : a.fits ty)
    (ha : a.owner = some (.mce e)) (hty : ty.hasNonces = true)
    (h : (newTimer ty a (.mce e) (some [])).run s = .ok (t, s')) :
    t = s.ts.timers.next ∧ Listed W s s' ty a := by
  obtain ⟨rfl, rfl⟩ := newTimer_ok.mp h
  refine ⟨rfl, .of_ts (.newTimer ha hfits fun _ => hty) rfl (Nat.le_refl _) rfl,
    Timers.Evolves.kind_alloc, rfl,
    ?_, rfl⟩
  simp [Timers.sent, htablePtrsTimersAdd, lmtimerCreate, Heap.alloc_cell]

theorem handleMapCacheMiss_cases {req src : LispAddr} (hw : s.Wf)
    (h : (handleMapCacheMiss W env req src).run s = .ok (r, s')) :
    Idle W s s' ∨ ∃ s1 s2 r' info,
      EntryCreated s s1 ⟨.MCE_DYNAMIC, .NOT_ACTIVE, mappingNewInit req, info⟩ ∧
      Listed W s1 s2 .MAP_REQUEST_RETRY_TIMER (.mapReq s.mces.next src) ∧
      (sendMapRequestRetryCb W env s.ts.timers.next s.mces.next src).run s2 = .ok (r', s') := by
  simp only [handleMapCacheMiss, mcacheEntryNew, bind_ok, get_ok, set_ok,
    pure_ok] at h
  obtain ⟨_, _, ⟨_, s, ⟨rfl, rfl⟩, _, _, ⟨-, rfl⟩, rfl, rfl⟩, b, s1, hinst, h⟩ := h
  obtain ⟨info, ⟨rfl, db, hdb, rfl⟩ | ⟨rfl, rfl⟩⟩ := installMce_cases hinst
  · simp only [if_true, Heap.alloc_modify] at h
    obtain ⟨t, s2, hnew, h⟩ := bind_ok.mp h
    have hfits : TimerArg.fits .MAP_REQUEST_RETRY_TIMER (.mapReq s.mces.next src) := trivial
    obtain ⟨rfl, hlisted⟩ := newTimer_listed (W := W) hfits rfl rfl hnew
    obtain ⟨k, hkey, hst⟩ := mdbAddEntry_stored hdb
    exact .inr ⟨_, s2, r, info, ⟨rfl, ⟨k, hkey, hst⟩, rfl⟩, hlisted, h⟩
  · simp only [Bool.false_eq_true, if_false, bind_ok, pure_ok, mcacheEntryDel_ok,
      Heap.alloc_modify] at h
    obtain ⟨_, _, ⟨ts, md, hts, -, rfl⟩, -, rfl⟩ := h
    exact .inl (discarded_idle hw hts)

/-! ## Map-Replies -/

/-- Parsing uses up locator identities. -/
structure Parsed (s s' : Xtr R) : Prop where
  loct : s.nextLoct ≤ s'.nextLoct
  rest : s' = { s with nextLoct := s'.nextLoct }

theorem Parsed.idle (h : Parsed s s') : Idle W s s' := by
  rw [h.rest]
  exact .of_counters h.loct (Nat.le_refl _)

theorem parseRecord_spec {p : ParsedRecord} (h : (parseRecord probed raw).run s = .ok (p, s')) :
    Parsed s s' ∧ lispMsgParseMappingRecord s.nextLoct probed raw = .ok p ∧
      FreshLocators s.nextLoct s'.nextLoct p.m.locators := by
  simp only [parseRecord, bind_ok, get_ok, lift_ok, modify_ok, pure_ok] at h
  obtain ⟨_, _, ⟨rfl, rfl⟩, _, _, ⟨hp, rfl⟩, _, _, ⟨-, rfl⟩, rfl, rfl⟩ := h
  obtain ⟨hle, hfresh⟩ := lispMsgParseMappingRecord_fresh hp
  exact ⟨⟨hle, rfl⟩, hp, hfresh⟩

theorem parseReplyRecord_spec {o : Option ParsedRecord}
    (h : (parseReplyRecord probed raw).run s = .ok (o, s')) :
    Parsed s s' ∧ ∀ p, o = some p → p.ret = .GOOD ∧
      lispMsgParseMappingRecord s.nextLoct probed raw = .ok p ∧
      FreshLocators s.nextLoct s'.nextLoct p.m.locators := by
  rw [parseReplyRecord, bind_ok] at h
  obtain ⟨p, s1, hp, h⟩ := h
  obtain ⟨hparsed, hmsg, hfresh⟩ := parseRecord_spec hp
  split_ifs at h with hret
  · simp only [bind_ok, lift_ok] at h
    obtain ⟨lBit, _, ⟨-, rfl⟩, h⟩ := h
    split_ifs at h
    · simp only [bind_ok, lift_ok, pure_ok] at h
      obtain ⟨_, _, ⟨-, rfl⟩, rfl, rfl⟩ := h
      exact ⟨hparsed, by simp⟩
    · obtain ⟨rfl, rfl⟩ := pure_ok.mp h
      refine ⟨hparsed, ?_⟩
      rintro _ ⟨⟩
      exact ⟨hret, hmsg, hfresh⟩
  · simp only [bind_ok, lift_ok, pure_ok] at h
    obtain ⟨_, _, ⟨-, rfl⟩, rfl, rfl⟩ := h
    exact ⟨hparsed, by simp⟩

theorem installRecord_cases (hw : s.Wf) (h : (installRecord W env m).run s = .ok (u, s')) :
    (∃ s1, Added W s s1 m ∧ s' = { s1 with
        accepted := fun i => if i = s.mces.next then some (s.now, m.ttl) else s.accepted i }) ∨
      Idle W s s' := by
  rw [installRecord, get_bind_ok] at h
  obtain ⟨r, s1, hadd, h⟩ := bind_ok.mp h
  rcases trMcacheAddMapping_cases hw hadd with ⟨rfl, hadded⟩ | ⟨rfl, hidle⟩
  · simp only [if_true, noteAccepted_ok] at h
    refine .inl ⟨s1, hadded, ?_⟩
    rw [h, show s1.now = s.now by rw [hadded.rest], show s1.accepted = s.accepted by
      rw [hadded.rest]]
  · simp only [reduceCtorEq, if_false, pure_ok] at h
    rw [h.2]
    exact .inr hidle

theorem refreshRecord_cases (h : (refreshRecord W env raw).run s = .ok (r, s')) :
    (r = .BAD ∧ Parsed s s') ∨ ∃ p s1, r = .GOOD ∧ Parsed s s1 ∧ p.ret = .GOOD ∧
      lispMsgParseMappingRecord s.nextLoct .uninit raw = .ok p ∧
      ((mdbLookupEntryExact s.mapCache p.m.eidPrefix = .ok none ∧ s' = s1) ∨
        ∃ d, mdbLookupEntryExact s.mapCache p.m.eidPrefix = .ok (some d) ∧
          Refreshed W s1 s' d p.m) := by
  rw [refreshRecord, bind_ok] at h
  obtain ⟨o, s1, hp, h⟩ := h
  obtain ⟨hparsed, hsome⟩ := parseReplyRecord_spec hp
  cases o with
  | none =>
    obtain ⟨rfl, rfl⟩ := pure_ok.mp h
    exact .inl ⟨rfl, hparsed⟩
  | some p =>
    simp only [bind_ok, pure_ok] at h
    obtain ⟨r', _, hup, rfl, rfl⟩ := h
    obtain ⟨hret, hmsg, -⟩ := hsome p rfl
    have hcache : s1.mapCache = s.mapCache := by rw [hparsed.rest]
    refine .inr ⟨p, s1, rfl, hparsed, hret, hmsg, ?_⟩
    rw [← hcache]
    exact updateMcacheEntry_cases hup

/-- One timer is stopped and released. -/
structure TimerStopped (W : World R F) (s s' : Xtr R) (t : Nat) : Prop where
  evolves : Evolves W s s'
  live : ∃ x, s.ts.kind t = some x
  released : s.ts.Wf TimerArg.owner → s.ts.Released s'.ts (· = t)
  gone : s'.ts.timers.cell t = none
  rest : s' = { s with ts := s'.ts }

theorem stopTimerFromObj_timerStopped {obj : TimerOwner}
    (h : stopTimerFromObj s.ts obj t = .ok ts) : TimerStopped W s { s with ts := ts } t := by
  have hs := (stopTimerFromObj_spec h).1
  obtain ⟨tm, htm⟩ := hs.live t (mem_singleton.mpr rfl)
  refine ⟨.of_ts (.stopTimerFromObj h) hs.issued (Nat.le_refl _) rfl,
    ⟨(tm.type, tm.cbArgument), by rw [Timers.kind, htm, Option.map_some]⟩,
    fun hw => stopTimerFromObj_released hw h, ?_, rfl⟩
  exact (hs.cell t).trans (if_pos (mem_singleton.mpr rfl))

/-- What the branch of `tr_recv_map_reply` for a message without the probe bit does. -/
theorem recvMapReplyNonProbe_cases {msg : MapReplyMsg}
    (h : (recvMapReplyNonProbe W env t msg).run s = .ok (r, s')) :
    ∃ ty a e me, s.ts.kind t = some (ty, a) ∧ a.asMapReqMce = .ok e ∧ s.mces.cell e = some me ∧
      ((me.active = .NOT_ACTIVE ∧ ∃ r' s1, (trMcacheRemoveEntry e).run s = .ok (r', s1) ∧
          (installRecords W env .uninit (readRecords msg.records msg.recCount.toNat)).run s1 =
            .ok (r, s')) ∨
        (me.active = .ACTIVE ∧ ∃ s1,
          (refreshRecord W env (msg.records.getD 0 .malformed)).run s = .ok (r, s1) ∧
          ((r = .GOOD ∧ TimerStopped W s1 s' t) ∨ (r = .BAD ∧ s' = s1)))) := by
  simp only [recvMapReplyNonProbe, bind_ok, derefTimer_ok, lift_ok, derefMce_ok] at h
  obtain ⟨tm, _, ⟨htm, rfl⟩, e, _, ⟨he, rfl⟩, me, s, ⟨hme, rfl⟩, h⟩ := h
  refine ⟨tm.type, tm.cbArgument, e, me, by rw [Timers.kind, htm, Option.map_some], he, hme, ?_⟩
  cases hact : me.active with
  | NOT_ACTIVE =>
    rw [hact] at h
    obtain ⟨r', s1, hrem, h⟩ := bind_ok.mp h
    exact .inl ⟨rfl, r', s1, hrem, h⟩
  | ACTIVE =>
    rw [hact] at h
    obtain ⟨r1, s1, href, h⟩ := bind_ok.mp h
    refine .inr ⟨rfl, s1, ?_⟩
    split_ifs at h with hr
    · simp only [bind_ok, onTimers_ok, pure_ok] at h
      obtain ⟨_, _, ⟨ts, hts, rfl⟩, rfl, rfl⟩ := h
      exact ⟨hr ▸ href, .inl ⟨rfl, stopTimerFromObj_timerStopped hts⟩⟩
    · obtain ⟨rfl, rfl⟩ := pure_ok.mp h
      refine ⟨?_, .inr ⟨rfl, rfl⟩⟩
      rcases refreshRecord_cases href with ⟨rfl, -⟩ | ⟨_, _, rfl, -⟩
      · exact href
      · exact absurd rfl hr

theorem handleLocatorProbeReply_cases {addr : LispAddr}
    (h : (handleLocatorProbeReply W env e addr).run s = .ok (r, s')) :
    ∃ me, s.mces.cell e = some me ∧
      ((mappingGetLoctWithAddr me.mapping addr = .ok none ∧ s' = s) ∨
        ∃ loct s1, mappingGetLoctWithAddr me.mapping addr = .ok (some loct) ∧ Touched W s s1 ∧
          StartedFor W s1 s' .RLOC_PROBING_TIMER (.rlocProbe e loct.ptr)
            (BitVec.ofInt 32 s.probeInterval).toNat) := by
  simp only [handleLocatorProbeReply, bind_ok, derefMce_ok, lift_ok] at h
  obtain ⟨me, _, ⟨hme, rfl⟩, o, s, ⟨ho, rfl⟩, h⟩ := h
  refine ⟨me, hme, ?_⟩
  cases o with
  | none =>
    obtain ⟨-, rfl⟩ := pure_ok.mp h
    exact .inl ⟨ho, rfl⟩
  | some loct =>
    refine .inr ⟨loct, ?_⟩
    simp only at h
    split_ifs at h
    · simp only [bind_ok, derefMce_ok, get_ok, pure_ok] at h
      obtain ⟨_, s1, hset, me1, _, ⟨-, rfl⟩, _, s2, hup, _, _, ⟨rfl, rfl⟩, _, _, hprog, -, rfl⟩ := h
      have ht := (setLocatorState_touched (W := W) hset).trans (updatedMapCacheInf_touched hup)
      refine ⟨_, ho, ht, ?_⟩
      rw [show s.probeInterval = _ from (congrArg Xtr.probeInterval ht.rest).symm]
      exact programRlocProbing_spec hprog
    · simp only [bind_ok, get_ok, pure_ok] at h
      obtain ⟨_, _, ⟨rfl, rfl⟩, _, _, hprog, -, rfl⟩ := h
      exact ⟨_, ho, .refl _, programRlocProbing_spec hprog⟩

/-- The entry a probe answer with this EID is taken to be about. -/
def ProbeTarget (s : Xtr R) (eid : LispAddr) (o : Option Nat) : Prop :=
  (∃ d, mdbLookupEntryExact s.mapCache eid = .ok (some d) ∧ o = some d) ∨
    (mdbLookupEntryExact s.mapCache eid = .ok none ∧ ∃ mp, s.mces.cell s.petrs = some mp ∧
      o = if lispAddrCmp eid mp.mapping.eidPrefix = 0 then some s.petrs else none)

theorem probeReplyEntry_spec {eid : LispAddr} (h : (probeReplyEntry eid).run s = .ok (o, s')) :
    s' = s ∧ ProbeTarget s eid o := by
  rw [probeReplyEntry, bind_ok] at h
  obtain ⟨o', s1, hlook, h⟩ := h
  obtain ⟨ho', rfl⟩ := mcacheLookupExact_ok.mp hlook
  cases o' with
  | some d =>
    obtain ⟨rfl, rfl⟩ := pure_ok.mp h
    exact ⟨rfl, .inl ⟨d, ho', rfl⟩⟩
  | none =>
    rw [get_bind_ok] at h
    simp only [bind_ok, derefMce_ok, pure_ok] at h
    obtain ⟨mp, _, ⟨hmp, rfl⟩, rfl, rfl⟩ := h
    exact ⟨rfl, .inr ⟨ho', mp, hmp, rfl⟩⟩

/-- What the branch of `tr_recv_map_reply` for a message with the probe bit does. -/
theorem recvMapReplyProbe_cases {msg : MapReplyMsg}
    (h : (recvMapReplyProbe W env t msg ra).run s = .ok (r, s')) :
    (r = .BAD ∧ Parsed s s') ∨ ∃ p s1 addr d r' s2, r = .GOOD ∧ Parsed s s1 ∧ p.ret = .GOOD ∧
      lispMsgParseMappingRecord s.nextLoct .uninit (msg.records.getD 0 .malformed) = .ok p ∧
      probedAddress p ra = .ok addr ∧ ProbeTarget s p.m.eidPrefix (some d) ∧
      (handleLocatorProbeReply W env d addr).run s1 = .ok (r', s2) ∧ TimerStopped W s2 s' t := by
  rw [recvMapReplyProbe, bind_ok] at h
  obtain ⟨o, s1, hp, h⟩ := h
  obtain ⟨hparsed, hsome⟩ := parseReplyRecord_spec hp
  cases o with
  | none =>
    obtain ⟨rfl, rfl⟩ := pure_ok.mp h
    exact .inl ⟨rfl, hparsed⟩
  | some p =>
    obtain ⟨hret, hmsg, -⟩ := hsome p rfl
    simp only [bind_ok, lift_ok] at h
    obtain ⟨addr, _, ⟨haddr, rfl⟩, o, _, htarget, h⟩ := h
    obtain ⟨rfl, htarget⟩ := probeReplyEntry_spec htarget
    cases o with
    | none =>
      obtain ⟨rfl, rfl⟩ := pure_ok.mp h
      exact .inl ⟨rfl, hparsed⟩
    | some d =>
      simp only [bind_ok, onTimers_ok, pure_ok] at h
      obtain ⟨r', s2, hreply, _, _, ⟨ts, hts, rfl⟩, rfl, rfl⟩ := h
      refine .inr ⟨p, _, addr, d, r', s2, rfl, hparsed, hret, hmsg, haddr, ?_, hreply,
        stopTimerFromObj_timerStopped hts⟩
      rw [hparsed.rest] at htarget
      exact htarget

theorem trRecvMapReply_cases {msg : MapReplyMsg}
    (h : (trRecvMapReply W env msg ra).run s = .ok (r, s')) :
    (s.ts.nonces msg.nonce = none ∧ r = .BAD ∧ s' = s) ∨
      ∃ t, s.ts.nonces msg.nonce = some t ∧
        ((msg.rlocProbe = true ∧ (recvMapReplyProbe W env t msg ra).run s = .ok (r, s')) ∨
          (msg.rlocProbe = false ∧ (recvMapReplyNonProbe W env t msg).run s = .ok (r, s'))) := by
  rw [trRecvMapReply, get_bind_ok, htableNoncesLookup] at h
  cases hn : s.ts.nonces msg.nonce with
  | none =>
    rw [hn] at h
    obtain ⟨rfl, rfl⟩ := pure_ok.mp h
    exact .inl ⟨rfl, rfl, rfl⟩
  | some t =>
    rw [hn] at h
    refine .inr ⟨t, rfl, ?_⟩
    split_ifs at h with hp
    · exact .inl ⟨hp, h⟩
    · exact .inr ⟨Bool.eq_false_iff.mpr hp, h⟩

/-! ## Map-Requests -/

theorem trReplyToSmr_cases {src req : LispAddr}
    (h : (trReplyToSmr W env src req).run s = .ok (r, s')) :
    s' = s ∨ ∃ d s1 r', mdbLookupEntry s.mapCache req = .ok (some d) ∧
      Listed W s s1 .SMR_INV_RETRY_TIMER (.mapReq d src) ∧
      (smrInvokedMapRequestCb W env s.ts.timers.next d src).run s1 = .ok (r', s') := by
  rw [trReplyToSmr, bind_ok] at h
  obtain ⟨o, s1, hlook, h⟩ := h
  obtain ⟨ho, rfl⟩ := mcacheLookup_ok.mp hlook
  cases o with
  | none =>
    obtain ⟨-, rfl⟩ := pure_ok.mp h
    exact .inl rfl
  | some d =>
    simp only [bind_ok, pure_ok] at h
    obtain ⟨t, s1, hnew, r', _, hcb, -, rfl⟩ := h
    have hfits : TimerArg.fits .SMR_INV_RETRY_TIMER (.mapReq d src) := trivial
    obtain ⟨rfl, hlisted⟩ := newTimer_listed (W := W) hfits rfl rfl hnew
    exact .inr ⟨d, s1, r', ho, hlisted, hcb⟩

/-- Building a record of a Map-Reply changes nothing. -/
theorem replyRecord_same {la deid : LispAddr} {o : Option (List ReplyRecord)}
    (h : (replyRecord msg la deid).run s = .ok (o, s')) : s' = s := by
  rw [replyRecord, get_bind_ok] at h
  split at h
  · exact (pure_ok.mp h).2
  · simp only [bind_ok, lift_ok] at h
    obtain ⟨o', _, ⟨-, rfl⟩, h⟩ := h
    cases o' with
    | none => exact (pure_ok.mp h).2
    | some mle =>
      simp only [bind_ok, derefMle_ok, lift_ok, pure_ok] at h
      obtain ⟨_, _, ⟨-, rfl⟩, _, _, ⟨-, rfl⟩, -, rfl⟩ := h
      rfl

/-- The loop of `tr_recv_map_request` stays within a relation the SMRs stay in. -/
theorem mapRequestLoop_stays (hr : ∀ s, rel s s)
    (ht : ∀ s1 s2 s3, rel s1 s2 → rel s2 s3 → rel s1 s3)
    (hsmr : ∀ src req s, Stays rel s (trReplyToSmr W env src req)) (l : List LispAddr) :
    ∀ (acc : List ReplyRecord) (s : Xtr R), Stays rel s (mapRequestLoop W env msg la acc l) := by
  induction l with
  | nil => exact fun _ _ => .of_same hr (by simp [mapRequestLoop])
  | cons deid rest ih =>
    intro acc s
    refine .bind ht (.of_same hr fun _ _ => replyRecord_same) fun o s1 _ => ?_
    cases o with
    | none => exact ih acc s1
    | some recs =>
      dsimp only
      by_cases hsmr' : lispAddrLafi msg.seid ≠ .NO_ADDR ∧ msg.smr
      · rw [if_pos hsmr']
        refine .bind ht (hsmr _ _ s1) fun r s2 _ => ?_
        split_ifs
        · exact .of_same hr (by simp)
        · exact .of_same hr (by simp)
        · exact ih _ s2
      · rw [if_neg hsmr']
        exact ih _ s1

/-- `tr_recv_map_request` stays within a relation the SMRs stay in. -/
theorem trRecvMapRequest_stays (hr : ∀ s, rel s s)
    (ht : ∀ s1 s2 s3, rel s1 s2 → rel s2 s3 → rel s1 s3)
    (hsmr : ∀ src req s, Stays rel s (trReplyToSmr W env src req)) :
    Stays rel s (trRecvMapRequest W env msg la) := by
  unfold trRecvMapRequest
  split_ifs
  · exact .of_same hr (by simp)
  · refine .bind ht (mapRequestLoop_stays hr ht hsmr _ _ s) fun out s1 _ => ?_
    cases out with
    | err => exact .of_same hr (by simp)
    | done => exact .of_same hr (by simp)
    | reply records =>
      dsimp only
      split
      · exact .of_same hr (by simp)
      · exact .of_same hr (by simp)

/-! ## Map-Notifies -/

/-- What `handle_merge_semantics` does when it does not fault. -/
theorem handleMergeSemantics_cases (h : (handleMergeSemantics W env m).run s = .ok (u, s')) :
    s' = s ∨ ∃ d me me' s1, mdbLookupEntry s.mapCache m.eidPrefix = .ok (some d) ∧
      Edited W s s1 d me me' ∧ FreshLocators s.nextLoct s1.nextLoct me'.mapping.locators ∧
      (s1.ts.Wf TimerArg.owner → Reprobed W s1 s' d) := by
  rw [handleMergeSemantics, bind_ok] at h
  obtain ⟨o, s1, hlook, h⟩ := h
  obtain ⟨ho, rfl⟩ := mcacheLookup_ok.mp hlook
  cases o with
  | none =>
    simp only [bind_ok, throw_ok, and_false, exists_false] at h
  | some d =>
    simp only [bind_ok, derefMce_ok] at h
    obtain ⟨me, _, ⟨hme, rfl⟩, h⟩ := h
    split_ifs at h
    · exact .inl (pure_ok.mp h).2
    · simp only [bind_ok] at h
      obtain ⟨m', s1, h1, _, s2, h2, h3⟩ := h
      obtain ⟨me, me', hed, -, hfresh⟩ := replaceLocators_spec h1 h2
      exact .inr ⟨d, me, me', s2, ho, hed, hfresh, fun hw => programMceRlocProbing_spec hw h3⟩

/-- One round of the loop of `tr_recv_map_notify`: parsing, a merge at most, and the restart of the
timer. -/
inductive NotifyRound (W : World R F) (env : CtrlEnv) (t : Nat) (s s' : Xtr R) : Prop where
  | intro (m : Mapping) (s1 s2 : Xtr R) (u : Unit) (parsed : Parsed s s1)
      (merged : s2 = s1 ∨ (handleMergeSemantics W env m).run s1 = .ok (u, s2))
      (restarted : Restarted s2 s' t MAP_REGISTER_INTERVAL)

/-- One record of a Map-Notify: it does not parse, or its EID has a local entry and the loop goes
on. -/
theorem mapNotifyLoop_cons {rest : List RawRecord}
    (h : (mapNotifyLoop W env t (raw :: rest)).run s = .ok (r, s')) :
    ∃ p, lispMsgParseMappingRecord s.nextLoct .uninit raw = .ok p ∧
      ((p.ret ≠ .GOOD ∧ r = .BAD ∧ Parsed s s') ∨
        (p.ret = .GOOD ∧ ∃ mle s1, mdbLookupEntryExact s.localMdb p.m.eidPrefix = .ok (some mle) ∧
          NotifyRound W env t s s1 ∧ (mapNotifyLoop W env t rest).run s1 = .ok (r, s'))) := by
  rw [mapNotifyLoop, bind_ok] at h
  obtain ⟨p, s1, hp, h⟩ := h
  obtain ⟨hpar, hmsg, -⟩ := parseRecord_spec hp
  refine ⟨p, hmsg, ?_⟩
  split_ifs at h with hret
  · rw [get_bind_ok, bind_ok] at h
    obtain ⟨o, _, ho, h⟩ := h
    obtain ⟨hlook, rfl⟩ := lift_ok.mp ho
    cases o with
    | none => cases h
    | some mle =>
      simp only [bind_ok, derefMle_ok] at h
      obtain ⟨ml, s1, ⟨-, rfl⟩, h⟩ := h
      have hdb : s1.localMdb = s.localMdb := by rw [hpar.rest]
      rw [hdb] at hlook
      have hfinish : ∀ s2 u, (s2 = s1 ∨ (handleMergeSemantics W env p.m).run s1 = .ok (u, s2)) →
          (do
            onTimers (htableNoncesResetNoncesLst · t)
            onTimers (lmtimerStart · t MAP_REGISTER_INTERVAL)
            mapNotifyLoop W env t rest : XtrM R Ret).run s2 = .ok (r, s') →
          ∃ s3, NotifyRound W env t s s3 ∧
            (mapNotifyLoop W env t rest).run s3 = .ok (r, s') := by
        intro s2 u hmerged h
        simp only [bind_ok, onTimers_ok] at h
        obtain ⟨_, _, ⟨ts1, h1, rfl⟩, _, _, ⟨ts2, h2, rfl⟩, h⟩ := h
        exact ⟨_, ⟨p.m, s1, s2, u, hpar, hmerged, ts1, ts2, h1, h2, rfl⟩, h⟩
      split_ifs at h
      · obtain ⟨u, s2, hmerge, h⟩ := bind_ok.mp h
        obtain ⟨s3, hround, h⟩ := hfinish s2 u (.inr hmerge) h
        exact .inr ⟨hret, mle, s3, hlook, hround, h⟩
      · obtain ⟨s3, hround, h⟩ := hfinish s1 ⟨⟩ (.inl rfl) h
        exact .inr ⟨hret, mle, s3, hlook, hround, h⟩
  · obtain ⟨rfl, rfl⟩ := pure_ok.mp h
    exact .inl ⟨hret, rfl, hpar⟩

/-- The loop of `tr_recv_map_notify` stays within a relation its rounds stay in. -/
theorem mapNotifyLoop_stays (hr : ∀ s, rel s s) (ht : ∀ s1 s2 s3, rel s1 s2 → rel s2 s3 → rel s1 s3)
    (hparsed : ∀ s s', Parsed s s' → rel s s')
    (hround : ∀ s s', NotifyRound W env t s s' → rel s s') (l : List RawRecord) :
    ∀ s : Xtr R, Stays rel s (mapNotifyLoop W env t l) := by
  induction l with
  | nil => exact fun _ => .of_same hr (by simp [mapNotifyLoop])
  | cons raw rest ih =>
    intro s r s' h
    obtain ⟨p, -, ⟨-, -, hpar⟩ | ⟨-, mle, s1, -, hr1, h⟩⟩ := mapNotifyLoop_cons h
    · exact hparsed s s' hpar
    · exact ht _ _ _ (hround s s1 hr1) (ih s1 r s' h)

theorem trRecvMapNotify_cases {msg : MapNotifyMsg}
    (h : (trRecvMapNotify W env msg).run s = .ok (r, s')) :
    (r = .BAD ∧ s' = s) ∨ ∃ t ty mle ms elt, s.ts.nonces msg.nonce = some t ∧
      s.ts.kind t = some (ty, .mapReg mle ms) ∧ s.mapServers.find? (·.ptr = ms) = some elt ∧
      lispMsgCheckAuthField W.hmac msg.auth elt.key = true ∧
      (mapNotifyLoop W env t (readRecords msg.records msg.recCount.toNat)).run s = .ok (r, s') := by
  rw [trRecvMapNotify, get_bind_ok, htableNoncesLookup] at h
  cases hn : s.ts.nonces msg.nonce with
  | none =>
    rw [hn] at h
    exact .inl (pure_ok.mp h)
  | some t =>
    rw [hn] at h
    simp only [bind_ok, derefTimer_ok, lift_ok] at h
    obtain ⟨tm, _, ⟨htm, rfl⟩, ⟨mle, ms⟩, _, ⟨harg, rfl⟩, h⟩ := h
    simp only [derefMs_ok] at h
    obtain ⟨elt, s, ⟨helt, rfl⟩, h⟩ := h
    split_ifs at h with hauth
    · have hreg : tm.cbArgument = .mapReg mle ms := by
        cases htarg : tm.cbArgument with
        | mapReg l m =>
          rw [htarg] at harg
          cases harg
          rfl
        | _ =>
          rw [htarg] at harg
          cases harg
      exact .inr ⟨t, tm.type, mle, ms, elt, rfl, by rw [Timers.kind, htm, Option.map_some, hreg],
        helt, hauth, h⟩
    · exact .inl (pure_ok.mp h)

/-! ## Data packets -/

theorem petrsHasLocators_ok :
    (petrsHasLocators (R := R)).run s = .ok (b, s') ↔
      ∃ petr, s.mces.cell s.petrs = some petr ∧ b = decide (0 < petr.mapping.locatorCount) ∧
        s' = s := by
  simp only [petrsHasLocators, bind_ok, get_ok, derefMce_ok, pure_ok]
  constructor
  · rintro ⟨_, _, ⟨rfl, rfl⟩, petr, _, ⟨hp, rfl⟩, hb, rfl⟩
    exact ⟨petr, hp, hb, rfl⟩
  · rintro ⟨petr, hp, hb, rfl⟩
    exact ⟨_, _, ⟨rfl, rfl⟩, petr, _, ⟨hp, rfl⟩, hb, rfl⟩

theorem petrsHasLocators_same (h : (petrsHasLocators (R := R)).run s = .ok (b, s')) : s' = s := by
  obtain ⟨-, -, -, hs⟩ := petrsHasLocators_ok.mp h
  exact hs

/-- The forwarding decision for an entry: what the policy finds with it, or what it finds with the
Proxy-ETRs when they have no locators. -/
theorem fwdInfoFor_cases {mle : Option Nat} {o : Option F}
    (h : (fwdInfoFor W env mle e tuple).run s = .ok (o, s')) :
    s' = s ∧ ∃ l src dst, mle = some l ∧ s.mles.cell l = some src ∧ s.mces.cell e = some dst ∧
      ((∃ f, W.fwdPolicy.policyGetFwdInfo env.rlocs s.locatorsAt src.fwdInfo dst.routingInfo tuple =
          .ok (some f) ∧ o = some f) ∨
        (W.fwdPolicy.policyGetFwdInfo env.rlocs s.locatorsAt src.fwdInfo dst.routingInfo tuple =
            .ok none ∧ ∃ petr, s.mces.cell s.petrs = some petr ∧
          if e ≠ s.petrs ∧ petr.mapping.locatorCount = 0 then
            W.fwdPolicy.policyGetFwdInfo env.rlocs s.locatorsAt src.fwdInfo petr.routingInfo tuple =
              .ok o
          else o = none)) := by
  simp only [fwdInfoFor, bind_ok, ofOption_ok, derefMle_ok, derefMce_ok] at h
  obtain ⟨l, _, ⟨rfl, rfl⟩, src, _, ⟨hsrc, rfl⟩, dst, _, ⟨hdst, rfl⟩, h⟩ := h
  simp only [get_ok, lift_ok] at h
  obtain ⟨_, _, ⟨rfl, rfl⟩, o', _, ⟨ho', rfl⟩, h⟩ := h
  cases o' with
  | some f =>
    obtain ⟨rfl, rfl⟩ := pure_ok.mp h
    exact ⟨rfl, l, src, dst, rfl, hsrc, hdst, .inl ⟨f, ho', rfl⟩⟩
  | none =>
    simp only [bind_ok, petrsHasLocators_ok] at h
    obtain ⟨b, s, ⟨petr, hpetr, rfl, rfl⟩, h⟩ := h
    have hcond : (e ≠ s.petrs ∧ (!decide (0 < petr.mapping.locatorCount)) = true) ↔
        (e ≠ s.petrs ∧ petr.mapping.locatorCount = 0) := by simp
    by_cases hc : e ≠ s.petrs ∧ petr.mapping.locatorCount = 0
    · rw [if_pos (hcond.mpr hc)] at h
      simp only [bind_ok, derefMce_ok, lift_ok] at h
      obtain ⟨petr', _, ⟨hpetr', rfl⟩, ho, rfl⟩ := h
      obtain rfl : petr' = petr := Option.some.inj (hpetr'.symm.trans hpetr)
      exact ⟨rfl, l, src, dst, rfl, hsrc, hdst, .inr ⟨ho', petr', hpetr, by rwa [if_pos hc]⟩⟩
    · rw [if_neg fun hc' => hc (hcond.mp hc')] at h
      obtain ⟨rfl, rfl⟩ := pure_ok.mp h
      exact ⟨rfl, l, src, dst, rfl, hsrc, hdst, .inr ⟨ho', petr, hpetr, by rw [if_neg hc]⟩⟩

/-- What a data packet does: nothing, or a miss for its destination. -/
theorem trGetFwdEntry_cases {info : FwdInfo F}
    (h : (trGetFwdEntry W env tuple).run s = .ok (info, s')) :
    s' = s ∨ (mdbLookupEntry s.mapCache (.ip tuple.dstAddr) = .ok none ∧ ∃ r,
      (handleMapCacheMiss W env (.ip tuple.dstAddr) (.ip tuple.srcAddr)).run s = .ok (r, s')) := by
  rw [trGetFwdEntry, get_bind_ok, bind_ok] at h
  obtain ⟨mle, s1, hmle, h⟩ := h
  have hs1 : s1 = s := by
    split at hmle
    · exact (pure_ok.mp hmle).2
    · exact (lift_ok.mp hmle).2
  subst hs1
  split_ifs at h
  · exact .inl (pure_ok.mp h).2
  · rw [bind_ok] at h
    obtain ⟨⟨o, temporal⟩, s2, hent, h⟩ := h
    have hs2 : s' = s2 := by
      cases o with
      | none => exact (pure_ok.mp h).2
      | some mce =>
        simp only [bind_ok, pure_ok] at h
        obtain ⟨_, _, hinfo, -, rfl⟩ := h
        exact (fwdInfoFor_cases hinfo).1
    subst hs2
    rw [fwdEntry, get_bind_ok, bind_ok] at hent
    obtain ⟨o', s3, hlook, hent⟩ := hent
    obtain ⟨ho', rfl⟩ := mcacheLookup_ok.mp hlook
    cases o' with
    | none =>
      simp only [bind_ok, pure_ok] at hent
      obtain ⟨r, s3, hmiss, b, s4, hb, -, rfl⟩ := hent
      have := petrsHasLocators_same hb
      subst this
      exact .inr ⟨ho', r, hmiss⟩
    | some mce =>
      simp only [bind_ok, derefMce_ok] at hent
      obtain ⟨me, _, ⟨-, rfl⟩, b, s4, hb, hent⟩ := hent
      have := petrsHasLocators_same hb
      subst this
      left
      split at hent
      · exact (pure_ok.mp hent).2
      · by_cases hcount : me.mapping.locatorCount = 0
        · rw [if_pos hcount] at hent
          exact (pure_ok.mp hent).2
        · rw [if_neg hcount] at hent
          exact (pure_ok.mp hent).2

/-! ## The timer wheel -/

/-- What the callback of a timer does, by the kind of the timer. -/
theorem timerCb_cases (h : (timerCb W env t).run s = .ok (u, s')) :
    (∃ e, s.ts.kind t = some (.EXPIRE_MAP_CACHE_TIMER, .mce e) ∧
        ∃ r, (trMcacheRemoveEntry e).run s = .ok (r, s')) ∨
      (∃ e src, s.ts.kind t = some (.MAP_REQUEST_RETRY_TIMER, .mapReq e src) ∧
        ∃ r, (sendMapRequestRetryCb W env t e src).run s = .ok (r, s')) ∨
      (∃ e src, s.ts.kind t = some (.SMR_INV_RETRY_TIMER, .mapReq e src) ∧
        ∃ r, (smrInvokedMapRequestCb W env t e src).run s = .ok (r, s')) ∨
      (∃ e loc, s.ts.kind t = some (.RLOC_PROBING_TIMER, .rlocProbe e loc) ∧
        ∃ r, (rlocProbingCb W env t e loc).run s = .ok (r, s')) ∨
      ((∃ ty a, s.ts.kind t = some (ty, a) ∧ a.entry = none) ∧ LocalOnly W s s') := by
  rw [timerCb, bind_ok] at h
  obtain ⟨tm, s1, htm, h⟩ := h
  obtain ⟨htm, rfl⟩ := derefTimer_ok.mp htm
  have hkind : s1.ts.kind t = some (tm.type, tm.cbArgument) := by
    rw [Timers.kind, htm, Option.map_some]
  obtain ⟨ty, arg, nl⟩ := tm
  simp only at h hkind
  split at h
  · simp only [mcEntryExpirationTimerCb, bind_ok, pure_ok] at h
    obtain ⟨_, _, ⟨r, _, hr, -, rfl⟩, -, rfl⟩ := h
    exact .inl ⟨_, hkind, r, hr⟩
  · simp only [bind_ok, pure_ok] at h
    obtain ⟨r, _, hr, -, rfl⟩ := h
    exact .inr (.inl ⟨_, _, hkind, r, hr⟩)
  · simp only [bind_ok, pure_ok] at h
    obtain ⟨r, _, hr, -, rfl⟩ := h
    exact .inr (.inr (.inl ⟨_, _, hkind, r, hr⟩))
  · simp only [bind_ok, pure_ok] at h
    obtain ⟨r, _, hr, -, rfl⟩ := h
    exact .inr (.inr (.inr (.inl ⟨_, _, hkind, r, hr⟩)))
  · simp only [bind_ok, pure_ok] at h
    obtain ⟨r, _, hr, -, rfl⟩ := h
    refine .inr (.inr (.inr (.inr ⟨⟨_, _, hkind, rfl⟩, ?_⟩)))
    refine (mapRegisterCb_timersOnly (fun x hx => ?_) _ _ hr).localOnly
    rw [hkind] at hx
    cases hx
    rfl
  · exact .inr (.inr (.inr (.inr ⟨⟨_, _, hkind, rfl⟩, sendAllSmrAndReg_local _ _ h⟩)))
  · cases h

theorem timerCb_handled (h : (timerCb W env t).run s = .ok (u, s')) :
    Handled W t s s' ∨ LocalOnly W s s' := by
  obtain ⟨e, -, r, h⟩ | ⟨e, src, -, r, h⟩ | ⟨e, src, -, r, h⟩ | ⟨e, loc, -, r, h⟩ | ⟨-, h⟩ :=
    timerCb_cases h
  · exact .inl (.removed h)
  · exact .inl (sendMapRequestRetryCb_handled h)
  · exact .inl (smrInvokedMapRequestCb_handled h)
  · exact .inl (rlocProbingCb_handled h)
  · exact .inr h

theorem wheelIteration_cases (h : (wheelIteration W env).run s = .ok (u, s')) :
    ((∀ l ∈ s.ts.wheel.links, l.spoke ≠ s.ts.wheel.currentSpoke) ∧
        s' = { s with inTick := false }) ∨
      (∃ g : WheelLink → WheelLink, (∀ l, (g l).timer = l.timer ∧ (g l).spoke = l.spoke) ∧
        s' = { s with ts := { s.ts with
          wheel := { s.ts.wheel with links := s.ts.wheel.links.map g } } }) ∨
      ∃ t, (handleTimersVisit s.ts = .expired t { s.ts with wheel := s.ts.wheel.unlink t } ∧
          ∃ l ∈ s.ts.wheel.links, l.timer = t ∧ l.spoke = s.ts.wheel.currentSpoke) ∧
        (timerCb W env t).run { s with ts := { s.ts with wheel := s.ts.wheel.unlink t } } =
          .ok (u, s') := by
  rw [wheelIteration, get_bind_ok] at h
  have hspec := handleTimersVisit_spec s.ts
  cases hv : handleTimersVisit s.ts with
  | done =>
    rw [hv] at h hspec
    exact .inl ⟨hspec, (set_ok.mp h).2⟩
  | rotated ts =>
    rw [hv] at h hspec
    obtain ⟨g, hg, rfl⟩ := hspec
    exact .inr (.inl ⟨g, hg, (set_ok.mp h).2⟩)
  | expired t ts =>
    rw [hv] at h hspec
    obtain ⟨hl, rfl⟩ := hspec
    obtain ⟨_, s1, hset, h⟩ := bind_ok.mp h
    obtain ⟨-, rfl⟩ := set_ok.mp hset
    exact .inr (.inr ⟨t, ⟨rfl, hl⟩, h⟩)

theorem wheel_fires (hfire : handleTimersVisit s.ts = .expired t ts) (htick : s.inTick = true)
    (h : (xtrStep W (.wheel env)).run s = .ok (out, s')) :
    ∃ u, (timerCb W env t).run { s with ts := { s.ts with wheel := s.ts.wheel.unlink t } } =
      .ok (u, s') := by
  have hspec := handleTimersVisit_spec s.ts
  rw [hfire] at hspec
  obtain ⟨-, rfl⟩ := hspec
  rw [xtrStep, get_bind_ok, if_pos (by exact htick), processEvent, bind_ok] at h
  obtain ⟨u, s1, h, hout⟩ := h
  obtain ⟨-, rfl⟩ := pure_ok.mp hout
  rw [wheelIteration, get_bind_ok, hfire] at h
  obtain ⟨_, s2, hset, h⟩ := bind_ok.mp h
  obtain ⟨-, rfl⟩ := set_ok.mp hset
  exact ⟨u, h⟩

/-- A step does nothing or processes its event. -/
theorem xtrStep_cases {ev : XtrEvent} (h : (xtrStep W ev).run s = .ok (out, s')) :
    s' = s ∨ (processEvent W ev).run s = .ok (out, s') := by
  rw [xtrStep, get_bind_ok] at h
  split_ifs at h
  · exact .inr h
  · exact .inl (pure_ok.mp h).2

end Handlers

end Lispmob
