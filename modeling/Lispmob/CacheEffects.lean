import Lispmob.XtrEffects

/-!
# What the map-cache functions change

`Xtr.Wf` is the invariant that relates the map cache, its entries and their timers. It does not say
that an entry is in the map cache: the functions that install an entry do not ensure that.

Each function that works on the map cache has one lemma that says what it changes, in terms of a
few relations between states: an entry is `Removed` or `Added`, an entry is `Refreshed`, or nothing
that matters changes (`Idle`).
-/

namespace Lispmob

open Prog List Heap

section Cache

variable {R F : Type} {W : World R F} {env : CtrlEnv} {s s' s1 s2 s3 : Xtr R} {t e : Nat}
  {k : MdbKey} {d i : Nat} {u : Unit} {r : Ret}
  {m : Mapping} {x : TimerType × TimerArg} {ts ts' : Timers TimerOwner TimerArg} {ty : TimerType}
  {a : TimerArg} {lists : List (List Locator)} {nl : Option (List Nonce)} {me me' : Mce R}
  {time : Int} {n : Nat}

/-! ## New timers -/

/-- The link of a timer started for a number of ticks. -/
def TimerWheel.linkFor (w : TimerWheel) (t ticks : Nat) : WheelLink :=
  ⟨t, (w.currentSpoke + ticks % WHEEL_SIZE) % WHEEL_SIZE, ticks / WHEEL_SIZE⟩

/-- Timers of the kinds `new` are created and started, one after the other, each for a number of
ticks. -/
structure Grown (ts ts' : Timers TimerOwner TimerArg)
    (new : List (TimerType × TimerArg × Nat)) : Prop where
  next : ts'.timers.next = ts.timers.next + new.length
  kind : ∀ i, ts'.kind i = if i < ts.timers.next then ts.kind i
    else (new[i - ts.timers.next]?).map fun x => (x.1, x.2.1)
  links : ∀ l, l ∈ ts'.wheel.links ↔ l ∈ ts.wheel.links ∨
    ∃ j x, new[j]? = some x ∧ l = ts.wheel.linkFor (ts.timers.next + j) x.2.2
  spoke : ts'.wheel.currentSpoke = ts.wheel.currentSpoke

namespace Grown

variable {ts1 ts2 ts3 : Timers TimerOwner TimerArg}
  {new new' : List (TimerType × TimerArg × Nat)}

theorem nil (ts : Timers TimerOwner TimerArg) : Grown ts ts [] := by
  refine ⟨rfl, fun i => ?_, by simp, rfl⟩
  split_ifs with hi
  · rfl
  · exact Timers.Evolves.kind_of_le (Nat.not_lt.mp hi)

theorem trans (h₁ : Grown ts1 ts2 new) (h₂ : Grown ts2 ts3 new') : Grown ts1 ts3 (new ++ new') := by
  have hn := h₁.next
  refine ⟨by rw [h₂.next, hn, length_append, Nat.add_assoc], fun i => ?_, fun l => ?_,
    h₂.spoke.trans h₁.spoke⟩
  · rw [h₂.kind, h₁.kind, hn]
    by_cases hi : i < ts1.timers.next
    · rw [if_pos (by omega), if_pos hi, if_pos hi]
    · by_cases hj : i < ts1.timers.next + new.length
      · rw [if_pos hj, if_neg hi, if_neg hi, getElem?_append_left (by omega)]
      · rw [if_neg hj, if_neg hi, getElem?_append_right (by omega), Nat.sub_add_eq]
  · have hlink : ∀ t ticks, ts2.wheel.linkFor t ticks = ts1.wheel.linkFor t ticks :=
      fun t ticks => by
      rw [TimerWheel.linkFor, TimerWheel.linkFor, h₁.spoke]
    rw [h₂.links, h₁.links, hn]
    constructor
    · rintro ((hl | ⟨j, x, hx, rfl⟩) | ⟨j, x, hx, rfl⟩)
      · exact .inl hl
      · refine .inr ⟨j, x, ?_, rfl⟩
        rw [List.getElem?_append_left (List.getElem?_eq_some_iff.mp hx).1, hx]
      · refine .inr ⟨new.length + j, x, ?_, by rw [hlink, Nat.add_assoc]⟩
        rw [getElem?_append_right (Nat.le_add_right _ _), Nat.add_sub_cancel_left, hx]
    · rintro (hl | ⟨j, x, hx, rfl⟩)
      · exact .inl (.inl hl)
      · by_cases hj : j < new.length
        · rw [getElem?_append_left hj] at hx
          exact .inl (.inr ⟨j, x, hx, rfl⟩)
        · rw [getElem?_append_right (Nat.not_lt.mp hj)] at hx
          refine .inr ⟨j - new.length, x, hx, ?_⟩
          rw [hlink, Nat.add_assoc, Nat.add_sub_cancel' (Nat.not_lt.mp hj)]

theorem lt_next_of_kind (h : ts.kind t = some x) : t < ts.timers.next := by
  obtain ⟨tm, htm, -⟩ := Option.map_eq_some_iff.mp h
  exact lt_next htm

theorem start {obj : TimerOwner} {d : BitVec 32} (hw : ts.Wf TimerArg.owner)
    (h : lmtimerStart (htablePtrsTimersAdd (lmtimerCreate ts ty a nl).1 obj ts.timers.next)
      ts.timers.next d = .ok ts') : Grown ts ts' [(ty, a, d.toNat)] := by
  obtain ⟨-, rfl⟩ := lmtimerStart_spec h
  refine ⟨rfl, fun i => ?_, fun l => ?_, rfl⟩
  · rw [htablePtrsTimersAdd, lmtimerCreate, Timers.Evolves.kind_alloc]
    by_cases hi : i < ts.timers.next
    · rw [if_neg (Nat.ne_of_lt hi), if_pos hi]
    · by_cases heq : i = ts.timers.next
      · simp [heq]
      · rw [if_neg heq, if_neg hi, getElem?_eq_none (by simp; omega), Option.map_none]
        exact Timers.Evolves.kind_of_le (Nat.not_lt.mp hi)
  · rw [mem_insertTimer_unlink]
    have hold : l ∈ ts.wheel.links → l.timer ≠ ts.timers.next := by
      intro hl
      obtain ⟨x, hx⟩ := hw.running_kind ⟨l, hl, rfl⟩
      exact Nat.ne_of_lt (lt_next_of_kind hx)
    constructor
    · rintro (hl | rfl)
      · exact .inl hl.1
      · exact .inr ⟨0, _, rfl, rfl⟩
    · rintro (hl | ⟨j, x, hx, rfl⟩)
      · exact .inl ⟨hl, hold hl⟩
      · obtain ⟨hj, rfl⟩ := List.getElem?_eq_some_iff.mp hx
        rw [length_singleton, Nat.lt_one_iff] at hj
        subst hj
        exact .inr rfl

theorem of_released {p : Nat → Prop} (hw : ts.Wf TimerArg.owner) (h : ts.Released ts' p)
    (hp : ∀ t x, ts.kind t = some x → ¬ p t) : Grown ts ts' [] := by
  have hsame : Grown ts ts [] := nil ts
  refine ⟨h.next, fun i => ?_, fun l => ?_, h.spoke⟩
  · have hk : ts'.kind i = ts.kind i := by
      cases hi : ts.kind i with
      | some x => exact (h.kind i x).mpr ⟨hi, hp i x hi⟩
      | none =>
        cases hi' : ts'.kind i with
        | none => rfl
        | some x =>
          rw [h.kind_le i x hi'] at hi
          cases hi
    rw [hk]
    exact hsame.kind i
  · rw [h.links, ← hsame.links]
    refine ⟨And.left, fun hl => ⟨hl, ?_⟩⟩
    obtain ⟨x, hx⟩ := hw.running_kind ⟨l, hl, rfl⟩
    exact hp l.timer x hx

theorem nil_kind (h : Grown ts ts' []) (i : Nat) : ts'.kind i = ts.kind i := by
  rw [h.kind]
  exact ((nil ts).kind i).symm

theorem nil_links (h : Grown ts ts' []) (l : WheelLink) :
    l ∈ ts'.wheel.links ↔ l ∈ ts.wheel.links := by
  rw [h.links]
  exact ((nil ts).links l).symm

/-- The running timers after some are created and started. -/
theorem running (h : Grown ts ts' new) {i : Nat} :
    ts'.running i ↔ ts.running i ∨ (ts.timers.next ≤ i ∧ i < ts'.timers.next) := by
  constructor
  · rintro ⟨l, hl, rfl⟩
    rcases (h.links l).mp hl with hl | ⟨j, x, hx, rfl⟩
    · exact .inl ⟨l, hl, rfl⟩
    · have hj := (List.getElem?_eq_some_iff.mp hx).1
      have hn := h.next
      exact .inr ⟨Nat.le_add_right _ _, by simp only [TimerWheel.linkFor]; omega⟩
  · rintro (⟨l, hl, rfl⟩ | ⟨hle, hlt⟩)
    · exact ⟨l, (h.links l).mpr (.inl hl), rfl⟩
    · have hn := h.next
      have hj : i - ts.timers.next < new.length := by omega
      refine ⟨_, (h.links _).mpr (.inr ⟨i - ts.timers.next, _, getElem?_eq_getElem hj, rfl⟩), ?_⟩
      simp only [TimerWheel.linkFor]
      omega

end Grown

/-! ## The invariant -/

/-- How the map cache, its entries and the timers of the router fit together. -/
structure Xtr.Wf (s : Xtr R) : Prop where
  timers : s.ts.Wf TimerArg.owner
  smr : SmrTimerOk s
  fits : ∀ t ty a, s.ts.kind t = some (ty, a) → a.fits ty
  /-- What is stored under a key is a live entry whose EID has that key. -/
  stored_own : ∀ k e, s.mapCache.stored k = some e →
    ∃ me, s.mces.cell e = some me ∧ mdbKey me.mapping.eidPrefix = some k
  /-- A placeholder is in the map cache. -/
  placeholder : ∀ e me, s.mces.cell e = some me → me.active = .NOT_ACTIVE →
    ∃ k, s.mapCache.stored k = some e
  owner_live : ∀ t ty a e, s.ts.kind t = some (ty, a) → a.entry = some e →
    ∃ me, s.mces.cell e = some me
  /-- A Map-Request retry timer belongs to a placeholder. -/
  retry : ∀ t a e me, s.ts.kind t = some (.MAP_REQUEST_RETRY_TIMER, a) → a.entry = some e →
    s.mces.cell e = some me → me.active = .NOT_ACTIVE
  petrs_active : ∃ me, s.mces.cell s.petrs = some me ∧ me.active = .ACTIVE
  petrs_unstored : ∀ k, s.mapCache.stored k ≠ some s.petrs

theorem Xtr.Wf.stored_inj (hw : s.Wf) {k k' : MdbKey} (h : s.mapCache.stored k = some e)
    (h' : s.mapCache.stored k' = some e) : k = k' := by
  obtain ⟨me, hme, hk⟩ := hw.stored_own k e h
  obtain ⟨me', hme', hk'⟩ := hw.stored_own k' e h'
  rw [hme] at hme'
  cases hme'
  rw [hk] at hk'
  cases hk'
  rfl

/-- A placeholder is stored under the key of its EID. -/
theorem Xtr.Wf.placeholder_stored (hw : s.Wf) (hme : s.mces.cell e = some me)
    (hact : me.active = .NOT_ACTIVE) :
    ∃ k, mdbKey me.mapping.eidPrefix = some k ∧ s.mapCache.stored k = some e := by
  obtain ⟨k, hk⟩ := hw.placeholder e me hme hact
  obtain ⟨me', hme', hkey⟩ := hw.stored_own k e hk
  rw [hme] at hme'
  cases hme'
  exact ⟨k, hkey, hk⟩

/-- No timer belongs to an entry that was not created yet. -/
theorem Xtr.Wf.no_timer (hw : s.Wf)
    (hk : s.ts.kind t = some (ty, a)) (he : a.entry = some e) : e < s.mces.next := by
  obtain ⟨me, hme⟩ := hw.owner_live t ty a e hk he
  exact lt_next hme

/-- Code that works on the timers and does not start a retry timer. -/
theorem Xtr.Wf.of_ts (hw : s.Wf) (hts : s.ts.Evolves TimerArg.owner TimerArg.fits ts)
    (hnew : ∀ t, s.ts.timers.next ≤ t → ∀ ty a e, ts.kind t = some (ty, a) → a.entry = some e →
      ∃ me, s.mces.cell e = some me ∧ (ty = .MAP_REQUEST_RETRY_TIMER → me.active = .NOT_ACTIVE)) :
    ({ s with ts := ts, nonceCalls := n } : Xtr R).Wf := by
  refine ⟨hts.wf hw.timers, ?_, ?_, hw.stored_own, hw.placeholder, ?_, ?_, hw.petrs_active,
    hw.petrs_unstored⟩
  · intro t ht
    obtain ⟨hlt, hk⟩ := hw.smr t ht
    exact ⟨Nat.lt_of_lt_of_le hlt hts.next, fun x hx => hk x (hts.kind t hlt x hx)⟩
  · intro t ty a hk
    by_cases hlt : t < s.ts.timers.next
    · exact hw.fits t ty a (hts.kind t hlt _ hk)
    · exact hts.new t (Nat.not_lt.mp hlt) ty a hk
  · intro t ty a e hk he
    by_cases hlt : t < s.ts.timers.next
    · exact hw.owner_live t ty a e (hts.kind t hlt _ hk) he
    · obtain ⟨me, hme, -⟩ := hnew t (Nat.not_lt.mp hlt) ty a e hk he
      exact ⟨me, hme⟩
  · intro t a e me hk he hme
    by_cases hlt : t < s.ts.timers.next
    · exact hw.retry t a e me (hts.kind t hlt _ hk) he hme
    · obtain ⟨me', hme', hact⟩ := hnew t (Nat.not_lt.mp hlt) _ a e hk he
      have heq : me' = me := Option.some.inj (hme'.symm.trans hme)
      rw [← heq]
      exact hact rfl

/-- Code about the local mappings keeps the invariant. -/
theorem Xtr.Wf.of_local (hw : s.Wf) (h : LocalOnly W s s') : s'.Wf := by
  have hent := h.entries hw.timers hw.smr
  have hmces : s'.mces = s.mces := by rw [h.rest]
  have hcache : s'.mapCache = s.mapCache := by rw [h.rest]
  have hpetrs : s'.petrs = s.petrs := by rw [h.rest]
  refine ⟨h.evolves.ts.wf hw.timers, h.evolves.smr hw.smr, ?_, ?_, ?_, ?_, ?_, ?_, ?_⟩
  · intro t ty a hk
    by_cases hlt : t < s.ts.timers.next
    · exact hw.fits t ty a (h.evolves.ts.kind t hlt _ hk)
    · exact h.evolves.ts.new t (Nat.not_lt.mp hlt) ty a hk
  · rw [hcache, hmces]
    exact hw.stored_own
  · rw [hcache, hmces]
    exact hw.placeholder
  · intro t ty a e hk he
    rw [hmces]
    exact hw.owner_live t ty a e ((hent.kind t ty a e he).mp hk) he
  · intro t a e me hk he hme
    rw [hmces] at hme
    exact hw.retry t a e me ((hent.kind t _ a e he).mp hk) he hme
  · rw [hmces, hpetrs]
    exact hw.petrs_active
  · rw [hcache, hpetrs]
    exact hw.petrs_unstored

/-! ## Removing an entry -/

/-- The entry `d`, stored under `k`, leaves the map cache and is released with its timers. -/
structure Removed (W : World R F) (s s' : Xtr R) (k : MdbKey) (d : Nat) : Prop where
  evolves : Evolves W s s'
  was : s.mapCache.stored k = some d
  stored : ∀ k', s'.mapCache.stored k' = if k' = k then none else s.mapCache.stored k'
  mces : s'.mces = s.mces.free d
  released : s.ts.Released s'.ts fun t => ∃ ty a, s.ts.kind t = some (ty, a) ∧ a.entry = some d
  rest : s' = { s with mapCache := s'.mapCache, mces := s'.mces, ts := s'.ts }

/-- Nothing changes that the invariants of the map cache speak about. -/
structure Idle (W : World R F) (s s' : Xtr R) : Prop where
  evolves : Evolves W s s'
  cells : ∀ i, s'.mces.cell i = s.mces.cell i
  next : s.mces.next ≤ s'.mces.next
  stored : ∀ k, s'.mapCache.stored k = s.mapCache.stored k
  kind : ∀ i, s'.ts.kind i = s.ts.kind i
  links : ∀ l, l ∈ s'.ts.wheel.links ↔ l ∈ s.ts.wheel.links
  spoke : s'.ts.wheel.currentSpoke = s.ts.wheel.currentSpoke
  loct : s.nextLoct ≤ s'.nextLoct
  rest : s' = { s with
    mapCache := s'.mapCache, mces := s'.mces, ts := s'.ts, nextLoct := s'.nextLoct,
    nonceCalls := s'.nonceCalls }

theorem Idle.refl (s : Xtr R) : Idle W s s :=
  ⟨.refl s, fun _ => rfl, Nat.le_refl _, fun _ => rfl, fun _ => rfl, fun _ => Iff.rfl, rfl,
    Nat.le_refl _, rfl⟩

theorem Idle.of_counters {n m : Nat} (hn : s.nextLoct ≤ n) (hm : s.nonceCalls ≤ m) :
    Idle W s { s with nextLoct := n, nonceCalls := m } :=
  ⟨.of_same rfl hm rfl, fun _ => rfl, Nat.le_refl _, fun _ => rfl, fun _ => rfl,
    fun _ => Iff.rfl, rfl, hn, rfl⟩

theorem Idle.wf (h : Idle W s s') (hw : s.Wf) : s'.Wf := by
  obtain ⟨hev, hcells, -, hstored, hkind, -, -, -, hrest⟩ := h
  have hpetrs : s'.petrs = s.petrs := by rw [hrest]
  refine ⟨hev.ts.wf hw.timers, hev.smr hw.smr, ?_, ?_, ?_, ?_, ?_, ?_, ?_⟩
  · intro t ty a hk
    exact hw.fits t ty a (hkind t ▸ hk)
  · intro k e hk
    rw [hcells]
    exact hw.stored_own k e (hstored k ▸ hk)
  · intro e me hme hact
    rw [hcells] at hme
    obtain ⟨k, hk⟩ := hw.placeholder e me hme hact
    exact ⟨k, by rw [hstored, hk]⟩
  · intro t ty a e hk he
    rw [hcells]
    exact hw.owner_live t ty a e (hkind t ▸ hk) he
  · intro t a e me hk he hme
    rw [hcells] at hme
    exact hw.retry t a e me (hkind t ▸ hk) he hme
  · rw [hpetrs, hcells]
    exact hw.petrs_active
  · intro k
    rw [hpetrs, hstored]
    exact hw.petrs_unstored k

theorem Removed.wf (h : Removed W s s' k d) (hw : s.Wf) : s'.Wf := by
  obtain ⟨hev, hwas, hstored, hmces, hrel, hrest⟩ := h
  have hpetrs : s'.petrs = s.petrs := by rw [hrest]
  have hcell : ∀ i, i ≠ d → s'.mces.cell i = s.mces.cell i := by
    intro i hi
    rw [hmces, free_cell, if_neg hi]
  have hgone : s'.mces.cell d = none := by
    rw [hmces, free_cell, if_pos rfl]
  have hpd : s.petrs ≠ d := by
    rintro rfl
    exact hw.petrs_unstored k hwas
  -- a timer that is left does not belong to `d`
  have hleft : ∀ t ty a e, s'.ts.kind t = some (ty, a) → a.entry = some e →
      s.ts.kind t = some (ty, a) ∧ e ≠ d := by
    intro t ty a e hk he
    obtain ⟨hk', hnot⟩ := (hrel.kind t _).mp hk
    refine ⟨hk', ?_⟩
    rintro rfl
    exact hnot ⟨ty, a, hk', he⟩
  refine ⟨hev.ts.wf hw.timers, hev.smr hw.smr, ?_, ?_, ?_, ?_, ?_, ?_, ?_⟩
  · intro t ty a hk
    exact hw.fits t ty a (hrel.kind_le t _ hk)
  · intro k' e hk'
    rw [hstored] at hk'
    split_ifs at hk' with hkk
    have hne : e ≠ d := by
      rintro rfl
      exact hkk (hw.stored_inj hk' hwas)
    rw [hcell e hne]
    exact hw.stored_own k' e hk'
  · intro e me hme hact
    have hne : e ≠ d := by
      rintro rfl
      rw [hgone] at hme
      cases hme
    rw [hcell e hne] at hme
    obtain ⟨k', hk'⟩ := hw.placeholder e me hme hact
    refine ⟨k', ?_⟩
    rw [hstored, if_neg, hk']
    rintro rfl
    rw [hwas] at hk'
    cases hk'
    exact hne rfl
  · intro t ty a e hk he
    obtain ⟨hk', hne⟩ := hleft t ty a e hk he
    rw [hcell e hne]
    exact hw.owner_live t ty a e hk' he
  · intro t a e me hk he hme
    obtain ⟨hk', hne⟩ := hleft t _ a e hk he
    rw [hcell e hne] at hme
    exact hw.retry t a e me hk' he hme
  · rw [hpetrs, hcell _ hpd]
    exact hw.petrs_active
  · intro k'
    rw [hpetrs, hstored]
    split_ifs
    · exact nofun
    · exact hw.petrs_unstored k'

theorem mcacheEntryDel_ok :
    (mcacheEntryDel (some d)).run s = .ok (u, s') ↔
      ∃ ts md, stopTimersFromObj s.ts (.mce d) = .ok ts ∧ s.mces.cell d = some md ∧
        s' = { s with ts := ts, mces := s.mces.free d } := by
  simp only [mcacheEntryDel, bind_ok, onTimers_ok, derefMce_ok, modify_ok]
  constructor
  · rintro ⟨_, _, ⟨ts, hts, rfl⟩, md, _, ⟨hmd, rfl⟩, -, rfl⟩
    exact ⟨ts, md, hts, hmd, rfl⟩
  · rintro ⟨ts, md, hts, hmd, rfl⟩
    exact ⟨⟨⟩, _, ⟨ts, hts, rfl⟩, md, _, ⟨hmd, rfl⟩, trivial, rfl⟩

theorem stopTimersFromObj_mce (hw : s.Wf) (h : stopTimersFromObj s.ts (.mce d) = .ok ts) :
    s.ts.Released ts fun t => ∃ ty a, s.ts.kind t = some (ty, a) ∧ a.entry = some d := by
  have hrel := stopTimersFromObj_released hw.timers h
  simp only [TimerArg.owner_eq_mce_iff] at hrel
  exact hrel

/-- What `tr_mcache_remove_entry` does: the entry stored under the EID of `e` is removed, if there
is one. -/
theorem trMcacheRemoveEntry_cases (hw : s.Wf) (h : (trMcacheRemoveEntry e).run s = .ok (r, s')) :
    ∃ me, s.mces.cell e = some me ∧
      ((∃ k d, mdbKey me.mapping.eidPrefix = some k ∧ Removed W s s' k d) ∨
        ((∀ k, mdbKey me.mapping.eidPrefix = some k → s.mapCache.stored k = none) ∧
          Idle W s s')) := by
  simp only [trMcacheRemoveEntry, bind_ok, derefMce_ok, get_ok, lift_ok,
    modify_ok, pure_ok] at h
  obtain
    ⟨me, _, ⟨hme, rfl⟩, _, _, ⟨rfl, rfl⟩, ⟨data, db⟩, s, ⟨hdb, rfl⟩, _, _, ⟨-, rfl⟩, _, _, hdel,
    -, rfl⟩ := h
  refine ⟨me, hme, ?_⟩
  have hidle : (∀ k, db.stored k = s.mapCache.stored k) → Idle W s { s with mapCache := db } :=
    fun hst => ⟨.of_same rfl (Nat.le_refl _) rfl, fun _ => rfl, Nat.le_refl _, hst, fun _ => rfl,
      fun _ => Iff.rfl, rfl, Nat.le_refl _, rfl⟩
  rcases mdbRemoveEntry_stored hdb with ⟨hkey, rfl, hst⟩ | ⟨k, hkey, rfl, hst⟩
  · obtain ⟨-, rfl⟩ := hdel
    exact .inr ⟨by simp [hkey], hidle hst⟩
  · cases hd : s.mapCache.stored k with
    | none =>
      simp only [hd, mcacheEntryDel, pure_ok] at hdel
      obtain ⟨-, rfl⟩ := hdel
      refine .inr ⟨fun k' hk' => ?_, hidle fun k' => ?_⟩
      · rw [hkey] at hk'
        cases hk'
        exact hd
      · rw [hst]
        split_ifs with hkk
        · rw [hkk, hd]
        · rfl
    | some d =>
      rw [hd] at hdel
      obtain ⟨ts, md, hts, -, rfl⟩ := mcacheEntryDel_ok.mp hdel
      have hissued : ts.issued = s.ts.issued := (stopTimersFromObj_spec hts).1.issued
      exact .inl ⟨k, d, hkey, .of_ts (.stopTimersFromObj hts) hissued (Nat.le_refl _) rfl, hd, hst,
        rfl, stopTimersFromObj_mce hw hts, rfl⟩

/-- `tr_mcache_remove_entry` on an entry that is in the map cache removes that entry. -/
theorem trMcacheRemoveEntry_stored (hw : s.Wf) (hme : s.mces.cell e = some me)
    (hkey : mdbKey me.mapping.eidPrefix = some k) (hst : s.mapCache.stored k = some e)
    (h : (trMcacheRemoveEntry e).run s = .ok (r, s')) : Removed W s s' k e := by
  obtain ⟨me', hme', h⟩ := trMcacheRemoveEntry_cases (W := W) hw h
  have heq : me' = me := Option.some.inj (hme'.symm.trans hme)
  subst heq
  rcases h with ⟨k', d, hk', hrem⟩ | ⟨hnone, -⟩
  · have hkk : k = k' := Option.some.inj (hkey.symm.trans hk')
    subst hkk
    have hd : d = e := Option.some.inj (hrem.was.symm.trans hst)
    rw [hd] at hrem
    exact hrem
  · rw [hnone k hkey] at hst
    cases hst

/-! ## Probing timers -/

/-- The probing timers for the locators of a mapping. -/
def probeTimers (e : Nat) (interval : Int) (m : Mapping) : List (TimerType × TimerArg × Nat) :=
  m.locators.map fun l =>
    (.RLOC_PROBING_TIMER, .rlocProbe e l.ptr, (BitVec.ofInt 32 interval).toNat)

/-- A timer is created for an entry and started. -/
structure StartedFor (W : World R F) (s s' : Xtr R) (ty : TimerType) (a : TimerArg)
    (ticks : Nat) : Prop where
  evolves : Evolves W s s'
  grown : s.ts.Wf TimerArg.owner → Grown s.ts s'.ts [(ty, a, ticks)]
  rest : s' = { s with ts := s'.ts }

theorem startedFor_of_start {d : BitVec 32} (hfits : a.fits ty) (ha : a.owner = some (.mce e))
    (hnl : nl ≠ none → ty.hasNonces = true)
    (h : lmtimerStart (htablePtrsTimersAdd (lmtimerCreate s.ts ty a nl).1 (.mce e) s.ts.timers.next)
      s.ts.timers.next d = .ok ts) : StartedFor W s { s with ts := ts } ty a d.toNat := by
  have hissued : ts.issued = s.ts.issued := by
    obtain ⟨-, rfl⟩ := lmtimerStart_spec h
    rfl
  exact ⟨.of_ts ((Timers.Evolves.newTimer ha hfits hnl).trans (.lmtimerStart h)) hissued
    (Nat.le_refl _) rfl, fun hw => .start hw h, rfl⟩

theorem programRlocProbing_spec {loc : Nat}
    (h : (programRlocProbing e time loc).run s = .ok (u, s')) :
    StartedFor W s s' .RLOC_PROBING_TIMER (.rlocProbe e loc) (BitVec.ofInt 32 time).toNat := by
  simp only [programRlocProbing, bind_ok, newTimer_ok, onTimers_ok] at h
  obtain ⟨_, _, ⟨rfl, rfl⟩, ts, hts, rfl⟩ := h
  have hfits : TimerArg.fits .RLOC_PROBING_TIMER (.rlocProbe e loc) := trivial
  exact startedFor_of_start hfits rfl (fun _ => rfl) hts

theorem mcEntryStartExpirationTimer_spec (h : (mcEntryStartExpirationTimer e).run s = .ok (u, s')) :
    ∃ me, s.mces.cell e = some me ∧
      StartedFor W s s' .EXPIRE_MAP_CACHE_TIMER (.mce e) (me.mapping.ttl * 60).toNat := by
  simp only [mcEntryStartExpirationTimer, bind_ok, newTimer_ok, derefMce_ok, onTimers_ok] at h
  obtain ⟨_, _, ⟨rfl, rfl⟩, me, _, ⟨hme, rfl⟩, ts, hstart, rfl⟩ := h
  have hfits : TimerArg.fits .EXPIRE_MAP_CACHE_TIMER (.mce e) := trivial
  exact ⟨me, hme, startedFor_of_start hfits rfl (absurd rfl) hstart⟩

/-- The loop of `program_mce_rloc_probing` over the locators. -/
theorem programRlocProbing_loop (locs : List Nat) : ∀ {s s' : Xtr R} {u : PUnit},
    (locs.forM (programRlocProbing e time)).run s = .ok (u, s') →
      Evolves W s s' ∧ s' = { s with ts := s'.ts } ∧
        (s.ts.Wf TimerArg.owner → Grown s.ts s'.ts (locs.map fun loc =>
          (.RLOC_PROBING_TIMER, .rlocProbe e loc, (BitVec.ofInt 32 time).toNat))) := by
  induction locs with
  | nil =>
    intro s s' u h
    obtain ⟨-, rfl⟩ := pure_ok.mp h
    exact ⟨.refl _, rfl, fun _ => .nil _⟩
  | cons loc rest ih =>
    intro s s' u h
    obtain ⟨_, s1, h1, h2⟩ := bind_ok.mp h
    obtain ⟨hev1, hg1, hr1⟩ := programRlocProbing_spec (W := W) h1
    obtain ⟨hev2, hr2, hg2⟩ := ih h2
    refine ⟨hev1.trans hev2, ?_, fun hw => ?_⟩
    · rw [hr2, hr1]
    · exact (hg1 hw).trans (hg2 (hev1.ts.wf hw))

/-- The probing timers of the entry `e` are replaced by one for each of its locators. -/
structure Reprobed (W : World R F) (s s' : Xtr R) (e : Nat) : Prop where
  evolves : Evolves W s s'
  rest : s' = { s with ts := s'.ts }
  off : s.probeInterval = 0 → s' = s
  on : s.probeInterval ≠ 0 → ∃ ts me, s.mces.cell e = some me ∧
    s.ts.Released ts (fun t => ∃ a, s.ts.kind t = some (.RLOC_PROBING_TIMER, a) ∧
      a.entry = some e) ∧
    Grown ts s'.ts (probeTimers e s.probeInterval me.mapping)

theorem programMceRlocProbing_spec (hw : s.ts.Wf TimerArg.owner)
    (h : (programMceRlocProbing e).run s = .ok (u, s')) : Reprobed W s s' e := by
  rw [programMceRlocProbing, get_bind_ok] at h
  split_ifs at h with hoff
  · obtain ⟨-, rfl⟩ := pure_ok.mp h
    exact ⟨.refl _, rfl, fun _ => rfl, fun hon => absurd hoff hon⟩
  · simp only [bind_ok, onTimers_ok, derefMce_ok] at h
    obtain ⟨_, _, ⟨ts, hts, rfl⟩, me, _, ⟨hme, rfl⟩, h⟩ := h
    obtain ⟨hev, hrest, hgrown⟩ := programRlocProbing_loop (W := W) _ h
    have hrel := stopTimersOfTypeFromObj_released hw hts
    simp only [TimerArg.owner_eq_mce_iff] at hrel
    have hstop : s.ts.Evolves TimerArg.owner TimerArg.fits ts := .stopTimersOfTypeFromObj hts
    have hissued : ts.issued = s.ts.issued := by
      obtain ⟨l, hs, -⟩ := stopTimersOfTypeFromObj_spec hts
      exact hs.issued
    have hev1 : Evolves W s { s with ts := ts } := .of_ts hstop hissued (Nat.le_refl _) rfl
    refine ⟨hev1.trans hev, hrest, fun hoff' => absurd hoff' hoff, fun _ =>
      ⟨ts, me, hme, hrel, ?_⟩⟩
    rw [map_map] at hgrown
    exact hgrown (hstop.wf hw)

/-! ## Installing an entry -/

theorem installMce_cases {b : Bool} (h : (installMce W env e m).run s = .ok (b, s')) :
    ∃ info, (b = true ∧ ∃ db, mdbAddEntry s.mapCache m.eidPrefix e = .ok (.GOOD, db) ∧
        s' = { s with
          mces := s.mces.modify e fun me => { me with routingInfo := info }, mapCache := db }) ∨
      (b = false ∧
        s' = { s with mces := s.mces.modify e fun me => { me with routingInfo := info } }) := by
  simp only [installMce, newMapCachePolicyInf, bind_ok, lift_ok, setMceRoutingInfo_ok,
    pure_ok] at h
  obtain ⟨_, _, ⟨info, _, ⟨-, rfl⟩, _, _, rfl, rfl, rfl⟩, h⟩ := h
  refine ⟨info, ?_⟩
  split_ifs at h
  · simp only [mcacheAddEntry, bind_ok, get_ok, lift_ok, modify_ok,
      pure_ok] at h
    obtain
      ⟨ret, _, ⟨_, _, ⟨rfl, rfl⟩, ⟨_, db⟩, _, ⟨hdb, rfl⟩, _, _, ⟨-, rfl⟩, rfl, rfl⟩, rfl, rfl⟩ := h
    by_cases hret : ret = .GOOD
    · subst hret
      exact .inl ⟨rfl, db, hdb, rfl⟩
    · refine .inr ⟨by simp [hret], ?_⟩
      rw [mdbAddEntry_bad hdb hret]
  · obtain ⟨rfl, rfl⟩ := pure_ok.mp h
    exact .inr ⟨rfl, rfl⟩

/-- A learned entry for the mapping `m` is created, with its expiration and probing timers. It is in
the map cache unless the key of its EID was taken. -/
structure Added (W : World R F) (s s' : Xtr R) (m : Mapping) : Prop where
  evolves : Evolves W s s'
  mces : ∃ info, s'.mces = s.mces.alloc ⟨.MCE_DYNAMIC, .ACTIVE, m, info⟩
  stored : ∃ k, mdbKey m.eidPrefix = some k ∧ ∀ k', s'.mapCache.stored k' =
    if k' = k then some ((s.mapCache.stored k).getD s.mces.next) else s.mapCache.stored k'
  grown : Grown s.ts s'.ts
    ((.EXPIRE_MAP_CACHE_TIMER, .mce s.mces.next, (m.ttl * 60).toNat) ::
      if s.probeInterval = 0 then [] else probeTimers s.mces.next s.probeInterval m)
  rest : s' = { s with mapCache := s'.mapCache, mces := s'.mces, ts := s'.ts }

theorem stopTimersFromObj_fresh (hw : s.Wf) (h : stopTimersFromObj s.ts (.mce s.mces.next) =
      .ok ts) : Grown s.ts ts [] := by
  refine .of_released hw.timers (stopTimersFromObj_mce hw h) fun t x hx hp => ?_
  obtain ⟨ty, a, hk, he⟩ := hp
  exact Nat.lt_irrefl _ (hw.no_timer hk he)

/-- An entry that could not be installed is released again. -/
theorem discarded_idle (hw : s.Wf) (h : stopTimersFromObj s.ts (.mce s.mces.next) = .ok ts) :
    Idle W s { s with ts := ts, mces := (s.mces.alloc me).free s.mces.next } := by
  have hg := stopTimersFromObj_fresh hw h
  have hissued : ts.issued = s.ts.issued := (stopTimersFromObj_spec h).1.issued
  refine ⟨.of_ts (.stopTimersFromObj h) hissued (Nat.le_refl _) rfl, fun i => ?_, ?_, fun _ => rfl,
    hg.nil_kind, hg.nil_links, hg.spoke, Nat.le_refl _, rfl⟩
  · simp only [free_cell, alloc_cell]
    split_ifs with hi
    · rw [hi, s.mces.fresh _ (Nat.le_refl _)]
    · rfl
  · simp

/-- The expiration and probing timers of a new entry. -/
theorem startEntryTimers_spec {info : Option R} {db : Mdb Nat} {u u' : Unit} (hw : s.Wf)
    (hs1 : s1 = { s with mces := s.mces.alloc ⟨.MCE_DYNAMIC, .ACTIVE, m, info⟩, mapCache := db })
    (h₁ : (mcEntryStartExpirationTimer s.mces.next).run s1 = .ok (u, s2))
    (h₂ : (programMceRlocProbing s.mces.next).run s2 = .ok (u', s')) :
    Evolves W s s' ∧ s' = { s1 with ts := s'.ts } ∧ Grown s.ts s'.ts
      ((.EXPIRE_MAP_CACHE_TIMER, .mce s.mces.next, (m.ttl * 60).toNat) ::
        if s.probeInterval = 0 then [] else probeTimers s.mces.next s.probeInterval m) := by
  have hcell : s1.mces.cell s.mces.next = some ⟨.MCE_DYNAMIC, .ACTIVE, m, info⟩ := by
    rw [hs1]
    simp [alloc_cell]
  have hts : s1.ts = s.ts := by rw [hs1]
  have hint : s1.probeInterval = s.probeInterval := by rw [hs1]
  have hev0 : Evolves W s s1 := by
    rw [hs1]
    exact .of_same rfl (Nat.le_refl _) rfl
  obtain ⟨me, hme, hev1, hg1, hr1⟩ := mcEntryStartExpirationTimer_spec (W := W) h₁
  rw [hcell] at hme
  cases hme
  have hw1 : s1.ts.Wf TimerArg.owner := hts ▸ hw.timers
  have hrep := programMceRlocProbing_spec (W := W) (hev1.ts.wf hw1) h₂
  have hcell2 : s2.mces = s1.mces := by rw [hr1]
  have hint2 : s2.probeInterval = s.probeInterval := by rw [hr1, ← hint]
  refine ⟨hev0.trans (hev1.trans hrep.evolves), by rw [hrep.rest, hr1], ?_⟩
  have hg := hg1 hw1
  by_cases hoff : s.probeInterval = 0
  · rw [if_pos hoff, hrep.off (hint2.trans hoff), ← hts]
    exact hg
  · obtain ⟨ts', me, hme, hrel, hg2⟩ := hrep.on (by rw [hint2]; exact hoff)
    rw [hcell2, hcell] at hme
    cases hme
    rw [if_neg hoff]
    -- the only timer of the new entry is its expiration timer
    have hnone : Grown s2.ts ts' [] := by
      refine .of_released (hev1.ts.wf hw1) hrel fun t x _ hp => ?_
      obtain ⟨a, hk, he⟩ := hp
      simp only [hg.kind, hts] at hk
      split_ifs at hk with hlt
      · exact Nat.lt_irrefl _ (hw.no_timer hk he)
      · obtain ⟨y, hy, heq⟩ := Option.map_eq_some_iff.mp hk
        have hmem := mem_of_getElem? hy
        rw [mem_singleton] at hmem
        rw [hmem] at heq
        cases heq
    have hall := (hg.trans hnone).trans hg2
    rw [hts, hint2] at hall
    exact hall

theorem trMcacheAddMapping_cases (hw : s.Wf)
    (h : (trMcacheAddMapping W env m).run s = .ok (r, s')) :
    (r = .GOOD ∧ Added W s s' m) ∨ (r = .BAD ∧ Idle W s s') := by
  simp only [trMcacheAddMapping, mcacheEntryNew, bind_ok, get_ok, set_ok,
    pure_ok] at h
  obtain ⟨_, _, ⟨_, s, ⟨rfl, rfl⟩, _, _, ⟨-, rfl⟩, rfl, rfl⟩, b, s1, hinst, h⟩ := h
  obtain ⟨info, ⟨rfl, db, hdb, rfl⟩ | ⟨rfl, rfl⟩⟩ := installMce_cases hinst
  · simp only [if_true, mcacheEntrySetActive, bind_ok, modify_ok, pure_ok,
      alloc_modify] at h
    obtain ⟨_, _, ⟨-, rfl⟩, _, s2, h1, _, s3, h2, rfl, rfl⟩ := h
    obtain ⟨hev, hrest, hgrown⟩ := startEntryTimers_spec (W := W) hw rfl h1 h2
    refine .inl ⟨rfl, hev, ⟨info, by rw [hrest]⟩, ?_, hgrown, by rw [hrest]⟩
    obtain ⟨k, hkey, hst⟩ := mdbAddEntry_stored hdb
    exact ⟨k, hkey, fun k' => by rw [hrest]; exact hst k'⟩
  · simp only [Bool.false_eq_true, if_false, bind_ok, pure_ok, mcacheEntryDel_ok,
      alloc_modify] at h
    obtain ⟨_, _, ⟨ts, md, hts, -, rfl⟩, rfl, rfl⟩ := h
    exact .inr ⟨rfl, discarded_idle hw hts⟩

/-- A timer keeps its kind while others are created. -/
theorem Grown.kind_kept {new : List (TimerType × TimerArg × Nat)} (h : Grown ts ts' new)
    (hk : ts.kind t = some x) : ts'.kind t = some x := by
  rw [h.kind, if_pos (Grown.lt_next_of_kind hk), hk]

theorem Grown.kind_cases {new : List (TimerType × TimerArg × Nat)} (h : Grown ts ts' new)
    (hk : ts'.kind t = some x) :
    ts.kind t = some x ∨ ts.timers.next ≤ t ∧ ∃ y ∈ new, (y.1, y.2.1) = x := by
  rw [h.kind] at hk
  split_ifs at hk with hlt
  · exact .inl hk
  · obtain ⟨y, hy, heq⟩ := Option.map_eq_some_iff.mp hk
    exact .inr ⟨Nat.not_lt.mp hlt, y, mem_of_getElem? hy, heq⟩

/-- The timers of a new entry belong to it, and none is a retry timer. -/
theorem mem_entryTimers {i : Int} {ticks : Nat} {y : TimerType × TimerArg × Nat}
    (h : y ∈ (TimerType.EXPIRE_MAP_CACHE_TIMER, TimerArg.mce e, ticks) ::
      (if i = 0 then [] else probeTimers e i m)) :
    y.2.1.entry = some e ∧ y.1 ≠ .MAP_REQUEST_RETRY_TIMER := by
  rcases mem_cons.mp h with rfl | h
  · exact ⟨rfl, TimerType.noConfusion⟩
  · split_ifs at h
    · simp at h
    · obtain ⟨l, -, rfl⟩ := mem_map.mp h
      exact ⟨rfl, TimerType.noConfusion⟩

/-- An entry is created, in the map cache unless the key of its EID was taken. -/
structure EntryCreated (s s' : Xtr R) (me : Mce R) : Prop where
  mces : s'.mces = s.mces.alloc me
  stored : ∃ k, mdbKey me.mapping.eidPrefix = some k ∧ ∀ k', s'.mapCache.stored k' =
    if k' = k then some ((s.mapCache.stored k).getD s.mces.next) else s.mapCache.stored k'
  rest : s' = { s with mapCache := s'.mapCache, mces := s'.mces }

theorem EntryCreated.cell (h : EntryCreated s s' me) (i : Nat) :
    s'.mces.cell i = if i = s.mces.next then some me else s.mces.cell i := by
  rw [h.mces, alloc_cell]

theorem EntryCreated.new (h : EntryCreated s s' me) : s'.mces.cell s.mces.next = some me := by
  rw [h.cell, if_pos rfl]

theorem EntryCreated.old {me mi : Mce R} (h : EntryCreated s s' me) (hi : s.mces.cell i = some mi) :
    s'.mces.cell i = some mi := by
  rw [h.cell, if_neg (Nat.ne_of_lt (lt_next hi)), hi]

theorem EntryCreated.stored_old (h : EntryCreated s s' me) (hk : s.mapCache.stored k = some e) :
    s'.mapCache.stored k = some e := by
  obtain ⟨k', -, hst⟩ := h.stored
  rw [hst]
  split_ifs with hkk
  · rw [← hkk, hk, Option.getD_some]
  · exact hk

/-- What is stored was stored before, or is the new entry. -/
theorem EntryCreated.stored_cases (h : EntryCreated s s' me) (hk : s'.mapCache.stored k = some e) :
    s.mapCache.stored k = some e ∨ (e = s.mces.next ∧ mdbKey me.mapping.eidPrefix = some k) := by
  obtain ⟨k', hkey, hst⟩ := h.stored
  rw [hst] at hk
  split_ifs at hk with hkk
  · subst hkk
    cases hd : s.mapCache.stored k with
    | none =>
      rw [hd, Option.getD_none] at hk
      exact .inr ⟨(Option.some.inj hk).symm, hkey⟩
    | some d =>
      rw [hd, Option.getD_some] at hk
      exact .inl hk
  · exact .inl hk

/-- A new entry keeps the invariant, if a placeholder is in the map cache. -/
theorem Xtr.Wf.of_alloc (hw : s.Wf) (hmces : s'.mces = s.mces.alloc me)
    (hrest : s' = { s with mapCache := s'.mapCache, mces := s'.mces })
    (hold : ∀ k e, s.mapCache.stored k = some e → s'.mapCache.stored k = some e)
    (hcases : ∀ k e, s'.mapCache.stored k = some e → s.mapCache.stored k = some e ∨
      (e = s.mces.next ∧ mdbKey me.mapping.eidPrefix = some k))
    (hnew : me.active = .NOT_ACTIVE → ∃ k, s'.mapCache.stored k = some s.mces.next) : s'.Wf := by
  have hts : s'.ts = s.ts := by rw [hrest]
  have hpetrs : s'.petrs = s.petrs := by rw [hrest]
  have hsmr : SmrTimerOk s' := by
    rw [hrest]
    exact hw.smr
  have hcell : ∀ i, s'.mces.cell i = if i = s.mces.next then some me else s.mces.cell i := by
    intro i
    rw [hmces, alloc_cell]
  have hkept : ∀ i mi, s.mces.cell i = some mi → s'.mces.cell i = some mi := by
    intro i mi hi
    rw [hcell, if_neg (Nat.ne_of_lt (lt_next hi)), hi]
  refine ⟨hts ▸ hw.timers, hsmr, hts ▸ hw.fits, ?_, ?_, ?_, ?_, ?_, ?_⟩
  · intro k e hk
    rcases hcases k e hk with hk | ⟨rfl, hkey⟩
    · obtain ⟨mi, hmi, hkey⟩ := hw.stored_own k e hk
      exact ⟨mi, hkept e mi hmi, hkey⟩
    · exact ⟨me, by rw [hcell, if_pos rfl], hkey⟩
  · intro e mi hmi hact
    rw [hcell] at hmi
    split_ifs at hmi with hi
    · cases hmi
      rw [hi]
      exact hnew hact
    · obtain ⟨k, hk⟩ := hw.placeholder e mi hmi hact
      exact ⟨k, hold k e hk⟩
  · intro t ty a e hk he
    rw [hts] at hk
    obtain ⟨mi, hmi⟩ := hw.owner_live t ty a e hk he
    exact ⟨mi, hkept e mi hmi⟩
  · intro t a e mi hk he hmi
    rw [hts] at hk
    obtain ⟨mi', hmi'⟩ := hw.owner_live t _ a e hk he
    have heq : mi' = mi := Option.some.inj ((hkept e mi' hmi').symm.trans hmi)
    exact heq ▸ hw.retry t a e mi' hk he hmi'
  · obtain ⟨mp, hmp, hact⟩ := hw.petrs_active
    exact ⟨mp, by rw [hpetrs, hkept _ mp hmp], hact⟩
  · intro k hk
    rw [hpetrs] at hk
    obtain ⟨mp, hmp, -⟩ := hw.petrs_active
    rcases hcases k _ hk with hk | ⟨hnew, -⟩
    · exact hw.petrs_unstored k hk
    · exact Nat.ne_of_lt (lt_next hmp) hnew

/-- Creating an entry keeps the invariant; a placeholder must go to a free key. -/
theorem EntryCreated.wf (h : EntryCreated s s' me) (hw : s.Wf)
    (hfree : me.active = .NOT_ACTIVE → ∀ k, mdbKey me.mapping.eidPrefix = some k →
      s.mapCache.stored k = none) : s'.Wf := by
  refine hw.of_alloc h.mces h.rest (fun _ _ => h.stored_old) (fun _ _ => h.stored_cases) ?_
  intro hact
  obtain ⟨k, hkey, hst⟩ := h.stored
  exact ⟨k, by rw [hst, if_pos rfl, hfree hact k hkey, Option.getD_none]⟩

theorem Added.created (h : Added W s s' m) :
    ∃ info, EntryCreated s { s' with ts := s.ts } ⟨.MCE_DYNAMIC, .ACTIVE, m, info⟩ := by
  obtain ⟨info, hmces⟩ := h.mces
  refine ⟨info, hmces, h.stored, ?_⟩
  rw [h.rest]

theorem Added.wf (h : Added W s s' m) (hw : s.Wf) : s'.Wf := by
  obtain ⟨info, hc⟩ := h.created
  have hw1 := hc.wf hw nofun
  refine hw1.of_ts (n := s'.nonceCalls) h.evolves.ts ?_
  intro t ht ty a e hk he
  rcases h.grown.kind_cases hk with hk | ⟨-, y, hy, heq⟩
  · exact absurd (Grown.lt_next_of_kind hk) (Nat.not_lt.mpr ht)
  · obtain ⟨hent, hretry⟩ := mem_entryTimers hy
    rw [show y.2.1 = a from congrArg Prod.snd heq, he] at hent
    cases hent
    exact ⟨_, hc.new, fun hty => absurd ((congrArg Prod.fst heq).trans hty) hretry⟩

/-! ## Changing an entry -/

/-- Two versions of an entry that was learned once: what it was learned for and from is the same. -/
structure SameEntry (me me' : Mce R) : Prop where
  howLearned : me'.howLearned = me.howLearned
  active : me'.active = me.active
  eid : me'.mapping.eidPrefix = me.mapping.eidPrefix
  ttl : me'.mapping.ttl = me.mapping.ttl

theorem SameEntry.refl (me : Mce R) : SameEntry me me :=
  ⟨rfl, rfl, rfl, rfl⟩

theorem SameEntry.trans {me₁ me2 me3 : Mce R} (h₁ : SameEntry me₁ me2) (h₂ : SameEntry me2 me3) :
    SameEntry me₁ me3 :=
  ⟨h₂.howLearned.trans h₁.howLearned, h₂.active.trans h₁.active, h₂.eid.trans h₁.eid,
    h₂.ttl.trans h₁.ttl⟩

theorem Xtr.Wf.of_cells (hw : s.Wf) (hrest : s' = { s with
      mces := s'.mces, nextLoct := s'.nextLoct })
    (hfwd : ∀ i me, s.mces.cell i = some me → ∃ me', s'.mces.cell i = some me' ∧ SameEntry me me')
    (hback : ∀ i me', s'.mces.cell i = some me' → ∃ me, s.mces.cell i = some me ∧
      SameEntry me me') :
    s'.Wf := by
  have hts : s'.ts = s.ts := by rw [hrest]
  have hcache : s'.mapCache = s.mapCache := by rw [hrest]
  have hpetrs : s'.petrs = s.petrs := by rw [hrest]
  have hsmr : SmrTimerOk s' := by
    rw [hrest]
    exact hw.smr
  refine ⟨hts ▸ hw.timers, hsmr, hts ▸ hw.fits, ?_, ?_, ?_, ?_, ?_, ?_⟩
  · intro k i hk
    rw [hcache] at hk
    obtain ⟨mi, hmi, hkey⟩ := hw.stored_own k i hk
    obtain ⟨mi', hmi', hs⟩ := hfwd i mi hmi
    exact ⟨mi', hmi', by rw [hs.eid, hkey]⟩
  · intro i mi' hmi' hact
    obtain ⟨mi, hmi, hs⟩ := hback i mi' hmi'
    rw [hcache]
    exact hw.placeholder i mi hmi (hs.active ▸ hact)
  · intro t ty a i hk hi
    rw [hts] at hk
    obtain ⟨mi, hmi⟩ := hw.owner_live t ty a i hk hi
    obtain ⟨mi', hmi', -⟩ := hfwd i mi hmi
    exact ⟨mi', hmi'⟩
  · intro t a i mi' hk hi hmi'
    rw [hts] at hk
    obtain ⟨mi, hmi, hs⟩ := hback i mi' hmi'
    rw [hs.active]
    exact hw.retry t a i mi hk hi hmi
  · obtain ⟨mp, hmp, hact⟩ := hw.petrs_active
    obtain ⟨mp', hmp', hs⟩ := hfwd _ mp hmp
    exact ⟨mp', by rw [hpetrs, hmp'], hs.active.trans hact⟩
  · rw [hcache, hpetrs]
    exact hw.petrs_unstored

/-- The entry `e` changes from `me` to `me'`. -/
structure Edited (W : World R F) (s s' : Xtr R) (e : Nat) (me me' : Mce R) : Prop where
  evolves : Evolves W s s'
  was : s.mces.cell e = some me
  same : SameEntry me me'
  cells : ∀ i, s'.mces.cell i = if i = e then some me' else s.mces.cell i
  next : s'.mces.next = s.mces.next
  loct : s.nextLoct ≤ s'.nextLoct
  rest : s' = { s with mces := s'.mces, nextLoct := s'.nextLoct }

theorem Edited.is (h : Edited W s s' e me me') : s'.mces.cell e = some me' := by
  rw [h.cells, if_pos rfl]

theorem Edited.trans {me me₁ me2 : Mce R} (h₁ : Edited W s s1 e me me₁)
    (h₂ : Edited W s1 s2 e me₁ me2) : Edited W s s2 e me me2 := by
  refine ⟨h₁.evolves.trans h₂.evolves, h₁.was, h₁.same.trans h₂.same, fun i => ?_,
    h₂.next.trans h₁.next, Nat.le_trans h₁.loct h₂.loct, ?_⟩
  · rw [h₂.cells, h₁.cells]
    split_ifs <;> rfl
  · rw [h₂.rest, h₁.rest]

theorem edited_of_modify {f : Mce R → Mce R} (hme : s.mces.cell e = some me)
    (hn : s.nextLoct ≤ n) (hsame : SameEntry me (f me)) :
    Edited W s { s with mces := s.mces.modify e f, nextLoct := n } e me (f me) := by
  refine ⟨.of_same rfl (Nat.le_refl _) rfl, hme, hsame, fun i => ?_, rfl, hn, rfl⟩
  simp only [modify_cell]
  split_ifs
  · rw [hme, Option.map_some]
  · rfl

theorem Edited.fwd {me me' mi : Mce R} (h : Edited W s s' e me me') (hi : s.mces.cell i = some mi) :
    ∃ mi', s'.mces.cell i = some mi' ∧ SameEntry mi mi' := by
  rw [h.cells]
  split_ifs with hie
  · rw [hie, h.was] at hi
    cases hi
    exact ⟨me', rfl, h.same⟩
  · exact ⟨mi, hi, .refl mi⟩

theorem Edited.back {me me' mi' : Mce R} (h : Edited W s s' e me me')
    (hi : s'.mces.cell i = some mi') : ∃ mi, s.mces.cell i = some mi ∧ SameEntry mi mi' := by
  rw [h.cells] at hi
  split_ifs at hi with hie
  · cases hi
    exact ⟨me, by rw [hie, h.was], h.same⟩
  · exact ⟨mi', hi, .refl mi'⟩

theorem Edited.wf (h : Edited W s s' e me me') (hw : s.Wf) : s'.Wf :=
  hw.of_cells h.rest (fun _ _ => h.fwd) fun _ _ => h.back

theorem updatedMapCacheInf_spec (h : (updatedMapCacheInf W env e m).run s = .ok (u, s')) :
    ∃ me info, Edited W s s' e me { me with routingInfo := info } := by
  simp only [updatedMapCacheInf, bind_ok, derefMce_ok, lift_ok,
    setMceRoutingInfo_ok] at h
  obtain ⟨me, _, ⟨hme, rfl⟩, info, _, ⟨-, rfl⟩, rfl⟩ := h
  exact ⟨me, info, edited_of_modify (f := fun me => { me with routingInfo := info }) hme
    (Nat.le_refl _) ⟨rfl, rfl, rfl, rfl⟩⟩

theorem mceUpdateLocators_spec (h : (mceUpdateLocators e lists).run s = .ok (m, s')) :
    ∃ me, Edited W s s' e me { me with mapping := m } ∧
      FreshLocators s.nextLoct s'.nextLoct m.locators := by
  simp only [mceUpdateLocators, bind_ok, derefMce_ok, get_ok, lift_ok,
    modify_ok, setMceMapping_ok, pure_ok] at h
  obtain
    ⟨me, _, ⟨hme, rfl⟩, _, _, ⟨rfl, rfl⟩, ⟨n, m'⟩, _, ⟨hm, rfl⟩, _, _, ⟨-, rfl⟩, _, _, rfl, rfl,
    rfl⟩ := h
  obtain ⟨heid, httl, -⟩ := mappingUpdateLocators_keeps hm
  obtain ⟨hn, hfresh⟩ := mappingUpdateLocators_fresh hm
  exact ⟨me, edited_of_modify hme hn ⟨rfl, rfl, heid, httl⟩, hfresh⟩

/-- The locators of an entry are replaced, and its forwarding data with them. -/
theorem replaceLocators_spec (h₁ : (mceUpdateLocators e lists).run s = .ok (m, s1))
    (h₂ : (updatedMapCacheInf W env e m).run s1 = .ok (u, s')) :
    ∃ me me', Edited W s s' e me me' ∧ me'.mapping = m ∧
      FreshLocators s.nextLoct s'.nextLoct me'.mapping.locators := by
  obtain ⟨me, hed, hfresh⟩ := mceUpdateLocators_spec (W := W) h₁
  obtain ⟨me1, info, hed'⟩ := updatedMapCacheInf_spec h₂
  have heq : me1 = { me with mapping := m } := Option.some.inj (hed'.was.symm.trans hed.is)
  subst heq
  exact ⟨me, _, hed.trans hed', rfl, hfresh.mono hed'.loct⟩

/-- The entry `e`, stored under the EID of the received mapping, takes over its locators: it gets
one more expiration timer, and its probing timers are replaced. -/
inductive Refreshed (W : World R F) (s s' : Xtr R) (e : Nat) (m : Mapping) : Prop where
  | intro (me me' : Mce R) (s1 s2 s3 : Xtr R)
      (edited : Edited W s s1 e me me')
      (fresh : FreshLocators s.nextLoct s1.nextLoct me'.mapping.locators)
      (timer : StartedFor W s1 s2 .EXPIRE_MAP_CACHE_TIMER (.mce e) (me'.mapping.ttl * 60).toNat)
      (probed : s2.ts.Wf TimerArg.owner → Reprobed W s2 s3 e)
      (rest : s' = { s3 with
        accepted := fun i => if i = e then some (s3.now, m.ttl) else s3.accepted i })

theorem updateMcacheEntry_cases (h : (updateMcacheEntry W env m).run s = .ok (r, s')) :
    (mdbLookupEntryExact s.mapCache m.eidPrefix = .ok none ∧ s' = s) ∨
      ∃ e, mdbLookupEntryExact s.mapCache m.eidPrefix = .ok (some e) ∧ Refreshed W s s' e m := by
  simp only [updateMcacheEntry, mcacheLookupExact, bind_ok, get_ok, lift_ok] at h
  obtain ⟨o, _, ⟨_, _, ⟨rfl, rfl⟩, ho, rfl⟩, h⟩ := h
  cases o with
  | none =>
    obtain ⟨-, rfl⟩ := pure_ok.mp h
    exact .inl ⟨ho, rfl⟩
  | some e =>
    simp only [bind_ok, noteAccepted_ok, pure_ok] at h
    obtain ⟨m', s0, h0, _, s1, h1, _, s2, h2, _, s3, h3, _, _, rfl, -, rfl⟩ := h
    obtain ⟨me, me', hed, rfl, hfresh⟩ := replaceLocators_spec h0 h1
    obtain ⟨me1, hme1, htimer⟩ := mcEntryStartExpirationTimer_spec (W := W) h2
    have heq : me1 = me' := Option.some.inj (hme1.symm.trans hed.is)
    subst heq
    exact .inr ⟨e, ho, ⟨me, _, s1, s2, s3, hed, hfresh, htimer,
      fun hw => programMceRlocProbing_spec hw h3, rfl⟩⟩

end Cache

end Lispmob
