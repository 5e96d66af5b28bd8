import Lispmob.LocalRules

/-!
# What the functions of the router change

`Evolves` holds between the states before and after any piece of the router's code: the timer
tables stay well formed, a timer keeps its kind until it is released, and every nonce in use was
returned by `nonce_new`.

`LocalOnly` is for the code that looks after the router's own mappings: it touches neither the map
cache nor a timer of a map-cache entry.
-/

namespace Lispmob

open Prog List Option

/-- The argument of a callback is the one its type of timer is created with. -/
def TimerArg.fits : TimerType → TimerArg → Prop
  | .EXPIRE_MAP_CACHE_TIMER, .mce _ => True
  | .MAP_REQUEST_RETRY_TIMER, .mapReq _ _ => True
  | .SMR_INV_RETRY_TIMER, .mapReq _ _ => True
  | .RLOC_PROBING_TIMER, .rlocProbe _ _ => True
  | .MAP_REGISTER_TIMER, .mapReg _ _ => True
  | .SMR_TIMER, .xtr => True
  | _, _ => False

theorem TimerArg.owner_eq_mce_iff {a : TimerArg} {e : Nat} :
    a.owner = some (.mce e) ↔ a.entry = some e := by
  cases a <;> simp [TimerArg.owner, TimerArg.entry]

/-- A timer of a local entry belongs to no map-cache entry. -/
theorem TimerArg.entry_of_owner_mle {a : TimerArg} {l : Nat} (h : a.owner = some (.mle l)) :
    a.entry = none := by
  cases a <;> simp_all [TimerArg.owner, TimerArg.entry]

section Effects

variable {R F : Type} {W : World R F} {env : CtrlEnv} {s s' s1 s2 s3 : Xtr R} {t : Nat}
  {ts ts' : Timers TimerOwner TimerArg} {d : BitVec 32} {ms mle loc : Nat} {addr : LispAddr}

/-! ## Nonces -/

/-- The nonces inserted so far were returned by `nonce_new`, each call's at most once. -/
structure IssuedOk (W : World R F) (s : Xtr R) : Prop where
  called : ∀ p ∈ s.ts.issued, ∃ i < s.nonceCalls, p.1 = W.nonceNew i
  once : (∀ i < s.nonceCalls, ∀ j < s.nonceCalls, W.nonceNew i = W.nonceNew j → i = j) →
    (s.ts.issued.map Prod.fst).Nodup

/-- Calls of `nonce_new` whose result is not inserted. -/
theorem IssuedOk.mono (h : IssuedOk W s) (hissued : s'.ts.issued = s.ts.issued)
    (hcalls : s.nonceCalls ≤ s'.nonceCalls) : IssuedOk W s' := by
  refine ⟨?_, ?_⟩
  · intro p hp
    rw [hissued] at hp
    obtain ⟨i, hi, hn⟩ := h.called p hp
    exact ⟨i, Nat.lt_of_lt_of_le hi hcalls, hn⟩
  · intro hinj
    rw [hissued]
    exact h.once fun i hi j hj =>
      hinj i (Nat.lt_of_lt_of_le hi hcalls) j (Nat.lt_of_lt_of_le hj hcalls)

theorem IssuedOk.insert (h : IssuedOk W s)
    (hissued : s'.ts.issued = (W.nonceNew s.nonceCalls, t) :: s.ts.issued)
    (hcalls : s'.nonceCalls = s.nonceCalls + 1) : IssuedOk W s' := by
  refine ⟨?_, ?_⟩
  · intro p hp
    rw [hissued, mem_cons] at hp
    rcases hp with rfl | hp
    · exact ⟨s.nonceCalls, by omega, rfl⟩
    · obtain ⟨i, hi, hn⟩ := h.called p hp
      exact ⟨i, by omega, hn⟩
  · intro hinj
    rw [hissued, map_cons, nodup_cons]
    refine ⟨?_, h.once fun i hi j hj => hinj i (by omega) j (by omega)⟩
    intro hmem
    obtain ⟨p, hp, heq⟩ := mem_map.mp hmem
    obtain ⟨i, hi, hn⟩ := h.called p hp
    have := hinj i (by omega) s.nonceCalls (by omega) (by rw [← hn, heq])
    omega

/-! ## Evolution -/

/-- The SMR timer, once created, is not a timer of an entry. -/
def SmrTimerOk (s : Xtr R) : Prop :=
  ∀ t, s.smrTimer = some t → t < s.ts.timers.next ∧ ∀ x, s.ts.kind t = some x → x.2.entry = none

/-- What the code keeps about timers and nonces. -/
structure Evolves (W : World R F) (s s' : Xtr R) : Prop where
  ts : s.ts.Evolves TimerArg.owner TimerArg.fits s'.ts
  calls : s.nonceCalls ≤ s'.nonceCalls
  issued : IssuedOk W s → IssuedOk W s'
  smr : SmrTimerOk s → SmrTimerOk s'

namespace Evolves

theorem refl (s : Xtr R) : Evolves W s s :=
  ⟨.refl _, Nat.le_refl _, id, id⟩

theorem trans (h₁ : Evolves W s1 s2) (h₂ : Evolves W s2 s3) : Evolves W s1 s3 :=
  ⟨h₁.ts.trans h₂.ts, Nat.le_trans h₁.calls h₂.calls, fun h => h₂.issued (h₁.issued h),
    fun h => h₂.smr (h₁.smr h)⟩

/-- Code that works on the timers without inserting a nonce. -/
theorem of_ts (hts : s.ts.Evolves TimerArg.owner TimerArg.fits s'.ts)
    (hissued : s'.ts.issued = s.ts.issued) (hcalls : s.nonceCalls ≤ s'.nonceCalls)
    (hsmr : s'.smrTimer = s.smrTimer) : Evolves W s s' := by
  refine ⟨hts, hcalls, fun h => h.mono hissued hcalls, fun h t ht => ?_⟩
  obtain ⟨hlt, hk⟩ := h t (hsmr ▸ ht)
  exact ⟨Nat.lt_of_lt_of_le hlt hts.next, fun x hx => hk x (hts.kind t hlt x hx)⟩

theorem of_same (hts : s'.ts = s.ts) (hcalls : s.nonceCalls ≤ s'.nonceCalls)
    (hsmr : s'.smrTimer = s.smrTimer) : Evolves W s s' :=
  of_ts (hts ▸ .refl _) (by rw [hts]) hcalls hsmr

/-- The end of the callbacks that send a message with a new nonce. -/
theorem rearm {ts1 ts2 : Timers TimerOwner TimerArg} {d : BitVec 32}
    (h₁ : htableNoncesInsert s.ts (W.nonceNew s.nonceCalls) t = .ok ts1)
    (h₂ : lmtimerStart ts1 t d = .ok ts2) :
    Evolves W s { s with nonceCalls := s.nonceCalls + 1, ts := ts2 } := by
  have hev : s.ts.Evolves TimerArg.owner TimerArg.fits ts2 :=
    (Timers.Evolves.htableNoncesInsert h₁).trans (Timers.Evolves.lmtimerStart h₂)
  refine ⟨hev, Nat.le_succ _, fun h => h.insert (t := t) ?_ rfl, fun h t ht => ?_⟩
  · obtain ⟨-, rfl⟩ := lmtimerStart_spec h₂
    obtain ⟨tm, l, -, -, rfl⟩ := htableNoncesInsert_spec h₁
    rfl
  · obtain ⟨hlt, hk⟩ := h t ht
    exact ⟨Nat.lt_of_lt_of_le hlt hev.next, fun x hx => hk x (hev.kind t hlt x hx)⟩

end Evolves

/-! ## Timers of entries -/

/-- The timers of map-cache entries are the same, and linked in the same places. -/
structure EntryTimersSame (ts ts' : Timers TimerOwner TimerArg) : Prop where
  kind : ∀ t ty a e, a.entry = some e → (ts'.kind t = some (ty, a) ↔ ts.kind t = some (ty, a))
  links : ∀ l ty a e, ts.kind l.timer = some (ty, a) → a.entry = some e →
    (l ∈ ts'.wheel.links ↔ l ∈ ts.wheel.links)
  spoke : ts'.wheel.currentSpoke = ts.wheel.currentSpoke

namespace EntryTimersSame

variable {ts1 ts2 ts3 : Timers TimerOwner TimerArg}

theorem refl (ts : Timers TimerOwner TimerArg) : EntryTimersSame ts ts :=
  ⟨fun _ _ _ _ _ => Iff.rfl, fun _ _ _ _ _ _ => Iff.rfl, rfl⟩

theorem trans (h₁ : EntryTimersSame ts1 ts2) (h₂ : EntryTimersSame ts2 ts3) :
    EntryTimersSame ts1 ts3 := by
  refine ⟨?_, ?_, h₂.spoke.trans h₁.spoke⟩
  · intro t ty a e he
    exact (h₂.kind t ty a e he).trans (h₁.kind t ty a e he)
  · intro l ty a e hk he
    have hk2 := (h₁.kind l.timer ty a e he).mpr hk
    exact (h₂.links l ty a e hk2 he).trans (h₁.links l ty a e hk he)

theorem alloc {type : TimerType} {arg : TimerArg} {nl : Option (List Nonce)}
    {ptrs : TimerOwner → Option (List Nat)} (harg : arg.entry = none) :
    EntryTimersSame ts { ts with timers := ts.timers.alloc ⟨type, arg, nl⟩, ptrs := ptrs } := by
  refine ⟨?_, fun _ _ _ _ _ _ => Iff.rfl, rfl⟩
  intro t ty a e he
  rw [Timers.Evolves.kind_alloc]
  split_ifs with ht
  · rw [Timers.Evolves.kind_of_le (Nat.le_of_eq ht.symm)]
    constructor
    · intro h
      cases h
      rw [harg] at he
      cases he
    · intro h
      cases h
  · exact Iff.rfl

theorem of_released {p : Nat → Prop} (h : ts.Released ts' p)
    (hp : ∀ t ty a e, ts.kind t = some (ty, a) → a.entry = some e → ¬ p t) :
    EntryTimersSame ts ts' := by
  refine ⟨?_, ?_, h.spoke⟩
  · intro t ty a e he
    rw [h.kind]
    exact ⟨And.left, fun hk => ⟨hk, hp t ty a e hk he⟩⟩
  · intro l ty a e hk he
    rw [h.links]
    exact ⟨And.left, fun hl => ⟨hl, hp l.timer ty a e hk he⟩⟩

end EntryTimersSame

/-! ## Callbacks that send -/

/-- A timer is linked again, for a number of ticks; nothing else about the timers changes but
nonces. -/
structure Relinked (ts ts' : Timers TimerOwner TimerArg) (t ticks : Nat) : Prop where
  kind : ∀ i, ts'.kind i = ts.kind i
  wheel : ts'.wheel = insertTimer (ts.wheel.unlink t) t ticks
  live : ∃ x, ts.kind t = some x

/-- The running timers after one of them is linked again. -/
theorem Relinked.running {ticks i : Nat} (h : Relinked ts ts' t ticks) :
    ts'.running i ↔ i = t ∨ ts.running i := by
  unfold Timers.running
  rw [h.wheel]
  constructor
  · rintro ⟨l, hl, rfl⟩
    rcases mem_insertTimer_unlink.mp hl with hl | rfl
    · exact .inr ⟨l, hl.1, rfl⟩
    · exact .inl rfl
  · rintro (rfl | ⟨l, hl, rfl⟩)
    · exact ⟨_, mem_insertTimer_unlink.mpr (.inr rfl), rfl⟩
    · by_cases hlt : l.timer = t
      · exact ⟨_, mem_insertTimer_unlink.mpr (.inr rfl), hlt.symm⟩
      · exact ⟨l, mem_insertTimer_unlink.mpr (.inl ⟨hl, hlt⟩), rfl⟩

theorem lmtimerStart_relinked (h : lmtimerStart ts t d = .ok ts') : Relinked ts ts' t d.toNat := by
  obtain ⟨⟨tm, htm⟩, rfl⟩ := lmtimerStart_spec h
  exact ⟨fun _ => rfl, rfl, _, by rw [Timers.kind, htm, map_some]⟩

/-- A timer whose callback sent a message: it got a new nonce and is started again. -/
def Rearmed (W : World R F) (s s' : Xtr R) (t : Nat) (d : BitVec 32) : Prop :=
  ∃ ts1 ts2, htableNoncesInsert s.ts (W.nonceNew s.nonceCalls) t = .ok ts1 ∧
    lmtimerStart ts1 t d = .ok ts2 ∧ s' = { s with nonceCalls := s.nonceCalls + 1, ts := ts2 }

/-- A timer that drops its nonces and is started again. -/
def Restarted (s s' : Xtr R) (t : Nat) (d : BitVec 32) : Prop :=
  ∃ ts1 ts2, htableNoncesResetNoncesLst s.ts t = .ok ts1 ∧ lmtimerStart ts1 t d = .ok ts2 ∧
    s' = { s with ts := ts2 }

theorem Rearmed.relinked (h : Rearmed W s s' t d) : Relinked s.ts s'.ts t d.toNat := by
  obtain ⟨ts1, ts2, h1, h2, rfl⟩ := h
  have hr := lmtimerStart_relinked h2
  obtain ⟨tm, l, htm, -, rfl⟩ := htableNoncesInsert_spec h1
  exact ⟨fun i => (hr.kind i).trans (Timers.Evolves.kind_modify i), hr.wheel, _,
    by rw [Timers.kind, htm, map_some]⟩

theorem Restarted.relinked (h : Restarted s s' t d) : Relinked s.ts s'.ts t d.toNat := by
  obtain ⟨ts1, ts2, h1, h2, rfl⟩ := h
  have hr := lmtimerStart_relinked h2
  obtain ⟨tm, l, htm, -, rfl⟩ := htableNoncesResetNoncesLst_spec h1
  exact ⟨fun i => (hr.kind i).trans (Timers.Evolves.kind_modify i), hr.wheel, _,
    by rw [Timers.kind, htm, map_some]⟩

theorem Rearmed.evolves (h : Rearmed W s s' t d) : Evolves W s s' := by
  obtain ⟨ts1, ts2, h1, h2, rfl⟩ := h
  exact .rearm h1 h2

theorem Restarted.ts_evolves (h : Restarted s s' t d) :
    s.ts.Evolves TimerArg.owner TimerArg.fits s'.ts := by
  obtain ⟨ts1, ts2, h1, h2, rfl⟩ := h
  exact (Timers.Evolves.htableNoncesResetNoncesLst h1).trans (.lmtimerStart h2)

theorem Restarted.evolves (h : Restarted s s' t d) : Evolves W s s' := by
  have hts := h.ts_evolves
  obtain ⟨ts1, ts2, h1, h2, rfl⟩ := h
  refine .of_ts hts ?_ (Nat.le_refl _) rfl
  obtain ⟨-, rfl⟩ := lmtimerStart_spec h2
  obtain ⟨tm, l, -, -, rfl⟩ := htableNoncesResetNoncesLst_spec h1
  rfl

/-- A timer is linked again, and nothing else changes but nonces. -/
structure Refired (W : World R F) (s s' : Xtr R) (t : Nat) : Prop where
  evolves : Evolves W s s'
  relinked : ∃ ticks, Relinked s.ts s'.ts t ticks
  rest : s' = { s with ts := s'.ts, nonceCalls := s'.nonceCalls }

theorem Rearmed.refired (h : Rearmed W s s' t d) : Refired W s s' t := by
  refine ⟨h.evolves, ⟨_, h.relinked⟩, ?_⟩
  obtain ⟨_, _, -, -, rfl⟩ := h
  rfl

theorem Restarted.refired (h : Restarted s s' t d) : Refired W s s' t := by
  refine ⟨h.evolves, ⟨_, h.relinked⟩, ?_⟩
  obtain ⟨_, _, -, -, rfl⟩ := h
  rfl

theorem rearmWithNonce_ok {n : Nonce} {u : Unit} :
    (rearmWithNonce t n d).run s = .ok (u, s') ↔
      ∃ ts1 ts2, htableNoncesInsert s.ts n t = .ok ts1 ∧ lmtimerStart ts1 t d = .ok ts2 ∧
        s' = { s with ts := ts2 } := by
  simp only [rearmWithNonce, bind_ok, onTimers_ok]
  constructor
  · rintro ⟨_, _, ⟨ts1, h1, rfl⟩, ts2, h2, rfl⟩
    exact ⟨ts1, ts2, h1, h2, rfl⟩
  · rintro ⟨ts1, ts2, h1, h2, rfl⟩
    exact ⟨⟨⟩, _, ⟨ts1, h1, rfl⟩, ts2, h2, rfl⟩

@[simp] theorem noncesListSize_ok {tm : Timer TimerArg} {n : Int} :
    (noncesListSize tm : XtrM R Int).run s = .ok (n, s') ↔
      (∃ l, tm.noncesLst = some l ∧ n = l.length) ∧ s' = s := by
  simp only [noncesListSize, bind_ok, ofOption_ok, pure_ok]
  constructor
  · rintro ⟨l, _, ⟨hl, rfl⟩, rfl, rfl⟩
    exact ⟨⟨l, hl, rfl⟩, rfl⟩
  · rintro ⟨⟨l, hl, rfl⟩, rfl⟩
    exact ⟨l, s', ⟨hl, rfl⟩, rfl, rfl⟩

/-! ## Code about the local mappings -/

/-- What the code about the local mappings changes. -/
structure LocalOnly (W : World R F) (s s' : Xtr R) : Prop where
  evolves : Evolves W s s'
  rest : s' = { s with
    ts := s'.ts, mles := s'.mles, ifaceLocatorsTable := s'.ifaceLocatorsTable,
    smrTimer := s'.smrTimer, lost := s'.lost, nonceCalls := s'.nonceCalls }
  entries : s.ts.Wf TimerArg.owner → SmrTimerOk s → EntryTimersSame s.ts s'.ts

namespace LocalOnly

theorem refl (s : Xtr R) : LocalOnly W s s :=
  ⟨.refl s, rfl, fun _ _ => .refl _⟩

theorem trans (s1 s2 s3 : Xtr R) (h₁ : LocalOnly W s1 s2) (h₂ : LocalOnly W s2 s3) :
    LocalOnly W s1 s3 := by
  refine ⟨h₁.evolves.trans h₂.evolves, ?_, fun hw hsmr => (h₁.entries hw hsmr).trans
    (h₂.entries (h₁.evolves.ts.wf hw) (h₁.evolves.smr hsmr))⟩
  rw [h₂.rest, h₁.rest]

/-- Code that changes local entries and interfaces only. -/
theorem of_mles {mles : Heap (MapLocalEntry R)} {ifaces : List IfaceLocators}
    {lost : List Locator} :
    LocalOnly W s { s with mles := mles, ifaceLocatorsTable := ifaces, lost := lost } :=
  ⟨.of_same rfl (Nat.le_refl _) rfl, rfl, fun _ _ => .refl _⟩

end LocalOnly

@[simp] theorem derefMs_ok {elt : MapServerElt} :
    (derefMs ms : XtrM R _).run s = .ok (elt, s') ↔
      s.mapServers.find? (·.ptr = ms) = some elt ∧ s' = s := by
  simp only [derefMs, bind_ok, get_ok, ofOption_ok]
  constructor
  · rintro ⟨_, _, ⟨rfl, rfl⟩, h⟩
    exact h
  · exact fun h => ⟨s, s, ⟨rfl, rfl⟩, h⟩

theorem mapRegisterCb_cases {r : Ret} (h : (mapRegisterCb W t mle ms).run s = .ok (r, s')) :
    Rearmed W s s' t LISPD_INITIAL_MREG_TIMEOUT ∨ s' = { s with nonceCalls := s.nonceCalls + 1 } ∨
      Restarted s s' t MAP_REGISTER_INTERVAL := by
  simp only [mapRegisterCb, bind_ok, derefTimer_ok, noncesListSize_ok, derefMle_ok,
    derefMs_ok, get_ok] at h
  obtain
    ⟨tm, _, ⟨-, rfl⟩, size, _, ⟨-, rfl⟩, e, _, ⟨-, rfl⟩, elt, _, ⟨-, rfl⟩, _, _, ⟨rfl, rfl⟩, h⟩ := h
  split_ifs at h
  · simp only [bind_ok, nonceNew_ok, lift_ok] at h
    obtain ⟨n, _, ⟨rfl, rfl⟩, sent, _, ⟨-, rfl⟩, h⟩ := h
    split_ifs at h
    · simp only [bind_ok, rearmWithNonce_ok, pure_ok] at h
      obtain ⟨_, _, ⟨ts1, ts2, h1, h2, rfl⟩, -, rfl⟩ := h
      exact .inl ⟨ts1, ts2, h1, h2, rfl⟩
    · simp only [pure_ok] at h
      exact .inr (.inl h.2)
  · simp only [bind_ok, onTimers_ok, pure_ok] at h
    obtain ⟨_, _, ⟨ts1, h1, rfl⟩, _, _, ⟨ts2, h2, rfl⟩, -, rfl⟩ := h
    exact .inr (.inr ⟨ts1, ts2, h1, h2, rfl⟩)

theorem Relinked.entries {ticks : Nat} (h : Relinked ts ts' t ticks)
    (ht : ∀ x, ts.kind t = some x → x.2.entry = none) : EntryTimersSame ts ts' := by
  refine ⟨fun i _ _ _ _ => by rw [h.kind], ?_, by rw [h.wheel]; rfl⟩
  intro l ty a e hk he
  have hne : l.timer ≠ t := by
    rintro rfl
    rw [ht _ hk] at he
    cases he
  rw [h.wheel, mem_insertTimer_unlink]
  constructor
  · rintro (hl | rfl)
    · exact hl.1
    · exact absurd rfl hne
  · exact fun hl => .inl ⟨hl, hne⟩

/-- Code that works on timers that belong to no entry, and on nothing else. -/
structure TimersOnly (W : World R F) (s s' : Xtr R) : Prop where
  evolves : Evolves W s s'
  rest : s' = { s with ts := s'.ts, nonceCalls := s'.nonceCalls }
  entries : s.ts.Wf TimerArg.owner → SmrTimerOk s → EntryTimersSame s.ts s'.ts

namespace TimersOnly

theorem localOnly (h : TimersOnly W s s') : LocalOnly W s s' :=
  ⟨h.evolves, by rw [h.rest], h.entries⟩

theorem refl (s : Xtr R) : TimersOnly W s s :=
  ⟨.refl s, rfl, fun _ _ => .refl _⟩

theorem trans (s1 s2 s3 : Xtr R) (h₁ : TimersOnly W s1 s2) (h₂ : TimersOnly W s2 s3) :
    TimersOnly W s1 s3 :=
  have h := LocalOnly.trans _ _ _ h₁.localOnly h₂.localOnly
  ⟨h.evolves, by rw [h₂.rest, h₁.rest], h.entries⟩

end TimersOnly

theorem Refired.timersOnly (h : Refired W s s' t)
    (ht : ∀ x, s.ts.kind t = some x → x.2.entry = none) : TimersOnly W s s' := by
  obtain ⟨ticks, hr⟩ := h.relinked
  exact ⟨h.evolves, h.rest, fun _ _ => hr.entries ht⟩

/-- `map_register_cb` on a timer that belongs to no entry. -/
theorem mapRegisterCb_timersOnly (ht : ∀ x, s.ts.kind t = some x → x.2.entry = none) :
    Stays (TimersOnly W) s (mapRegisterCb W t mle ms) := by
  intro r s' h
  obtain h | rfl | h := mapRegisterCb_cases h
  · exact h.refired.timersOnly ht
  · exact ⟨.of_same rfl (Nat.le_succ _) rfl, rfl, fun _ _ => .refl _⟩
  · exact h.refired.timersOnly ht

/-- A new Map-Register timer touches no timer of an entry. -/
theorem startMapRegister_timersOnly {ms : MapServerElt} :
    Stays (TimersOnly W) s (startMapRegister W mle ms) := by
  refine .bind .trans ?_ fun t s1 h1 => ?_
  · intro t s1 h
    obtain ⟨-, rfl⟩ := newTimer_ok.mp h
    exact ⟨.of_ts (.newTimer rfl trivial fun _ => rfl) rfl (Nat.le_refl _) rfl, rfl,
      fun _ _ => .alloc rfl⟩
  · obtain ⟨rfl, rfl⟩ := newTimer_ok.mp h1
    refine .bind .trans (mapRegisterCb_timersOnly fun x hx => ?_) fun _ _ _ =>
      .of_same .refl (by simp)
    rw [htablePtrsTimersAdd, lmtimerCreate, Timers.Evolves.kind_alloc, if_pos rfl] at hx
    cases hx
    rfl

/-- `program_map_register_for_mapping` touches no timer of an entry. -/
theorem programMapRegisterForMapping_timersOnly :
    Stays (TimersOnly W) s (programMapRegisterForMapping W mle) := by
  refine .bind .trans (.of_same .refl (by simp)) fun s0 s1 h1 => ?_
  dsimp only
  split_ifs
  · exact .of_same .refl (by simp)
  · refine .bind .trans ?_ fun _ s2 _ => .forM .refl .trans
      (fun ms s => startMapRegister_timersOnly) _ s2
    intro _ s' h
    obtain ⟨ts, hts, rfl⟩ := onTimers_ok.mp h
    refine ⟨.of_ts (.stopTimersOfTypeFromObj hts) ?_ (Nat.le_refl _) rfl, rfl, fun hw _ => ?_⟩
    · obtain ⟨l, hs, -⟩ := stopTimersOfTypeFromObj_spec hts
      exact hs.issued
    · refine .of_released (stopTimersOfTypeFromObj_released hw hts) fun i ty a e hk he hp => ?_
      obtain ⟨a', hk', ho⟩ := hp
      rw [hk] at hk'
      cases hk'
      rw [TimerArg.entry_of_owner_mle ho] at he
      cases he

/-- `program_map_register` touches no timer of an entry. -/
theorem programMapRegister_timersOnly : Stays (TimersOnly W) s (programMapRegister W) :=
  .bind .trans (.of_same .refl (by simp)) fun _ s1 _ =>
    .forM .refl .trans (fun _ _ => programMapRegisterForMapping_timersOnly) _ s1

/-- Following a pointer to a local locator changes nothing. -/
theorem derefLocalLocator_same (l : Locator) (s' : Xtr R)
    (h : (derefLocalLocator loc).run s = .ok (l, s')) : s' = s := by
  simp only [derefLocalLocator, bind_ok, get_ok, ofOption_ok] at h
  obtain ⟨_, _, ⟨rfl, rfl⟩, -, rfl⟩ := h
  rfl

/-- Interface events change local entries and interfaces, but for the SMR timer. -/
theorem localOnly_rule (s₀ : Xtr R) : WriteRule W (fun _ => False) (LocalOnly W s₀) :=
  .of_frame (fun _ _ _ => .of_forall fun _ _ => trivial) (fun _ _ h => h.trans _ _ _ .of_mles)
    fun _ _ h => h.trans _ _ _ .of_mles

theorem updatedMapLocInf_local : Stays (LocalOnly W) s (updatedMapLocInf W env mle) :=
  Keeps.stays ((localOnly_rule s).updatedMapLocInf_keeps (.refl s) mle)

/-- `program_smr` starts the SMR timer, which is not a timer of an entry. -/
theorem programSmr_local {time : BitVec 32} : Stays (LocalOnly W) s (programSmr time) := by
  intro _ s' h
  rw [programSmr, get_bind_ok] at h
  cases hsmr : s.smrTimer with
  | some t =>
    rw [hsmr] at h
    obtain ⟨ts, hts, rfl⟩ := onTimers_ok.mp h
    have hissued : ts.issued = s.ts.issued := by
      obtain ⟨-, rfl⟩ := lmtimerStart_spec hts
      rfl
    exact ⟨.of_ts (.lmtimerStart hts) hissued (Nat.le_refl _) rfl, rfl,
      fun _ hok => (lmtimerStart_relinked hts).entries (hok t hsmr).2⟩
  | none =>
    rw [hsmr] at h
    simp only [lmtimerCreate, bind_ok, set_ok, onTimers_ok] at h
    obtain ⟨_, _, ⟨-, rfl⟩, ts, hts, rfl⟩ := h
    have hnew : s.ts.Evolves TimerArg.owner TimerArg.fits
      (lmtimerCreate s.ts .SMR_TIMER .xtr none).1 :=
      .lmtimerCreate rfl trivial (absurd rfl)
    have hstart : (lmtimerCreate s.ts .SMR_TIMER .xtr none).1.Evolves TimerArg.owner
      TimerArg.fits ts := .lmtimerStart hts
    have hkind : ∀ x, ts.kind s.ts.timers.next = some x → x.2.entry = none := by
      intro x hx
      rw [(lmtimerStart_relinked hts).kind, Timers.Evolves.kind_alloc, if_pos rfl] at hx
      cases hx
      rfl
    have hissued : ts.issued = s.ts.issued := by
      obtain ⟨-, rfl⟩ := lmtimerStart_spec hts
      rfl
    refine ⟨⟨hnew.trans hstart, Nat.le_refl _,
      fun h => h.mono hissued (Nat.le_refl _), ?_⟩, rfl, ?_⟩
    · rintro - t ht
      cases ht
      exact ⟨Nat.lt_of_lt_of_le (Nat.lt_succ_self _) hstart.next, hkind⟩
    · intro _ _
      have halloc : EntryTimersSame s.ts (lmtimerCreate s.ts .SMR_TIMER .xtr none).1 := .alloc rfl
      refine halloc.trans ((lmtimerStart_relinked hts).entries fun x hx => hkind x ?_)
      rw [(lmtimerStart_relinked hts).kind]
      exact hx

/-- An interface event touches neither the map cache nor a timer of an entry. -/
theorem xtrIfEvent_local {name : String} {old new : Option LispAddr} {status : LinkState} :
    Stays (LocalOnly W) s (xtrIfEvent W env name old new status) :=
  Keeps.stays ((localOnly_rule s).xtrIfEvent_keeps (fun h _ => h.trans _ _ _ .of_mles)
    (fun h => .of_forall fun _ hx => ⟨trivial, h.trans _ _ _ (programSmr_local _ _ hx)⟩) (.refl s)
    name old new status)

/-- The callback of the SMR timer touches neither the map cache nor a timer of an entry. -/
theorem sendAllSmrAndReg_local : Stays (LocalOnly W) s (sendAllSmrAndReg W) := by
  have hsmr : Keeps (fun _ => False) (LocalOnly W s) (fun l => ∀ mle ∈ l, True) s
      getMapLocalEntryToSmr :=
    .get_bind (mlesToSmr_keeps (fun _ _ => trivial) (fun h _ => h.trans _ _ _ .of_mles) _ _ _
      (.refl s) (by simp))
  exact .bind .trans (Keeps.stays hsmr) fun _ s1 _ => .forM .refl .trans
    (fun _ _ _ _ h => (programMapRegisterForMapping_timersOnly _ _ h).localOnly) _ s1

end Effects

end Lispmob
