import Lispmob.EntryTimers
import Lispmob.Placeholders

/-!
# The expiration of learned entries

An entry learned from a Map-Reply is to expire `ttl * 60` ticks after the Map-Reply. The timer is
started once, when the entry is installed. A Map-Reply that refreshes the entry starts another one
and leaves the first running, with the TTL the entry had before: `refresh_adds_timer`. And the wheel
is right about durations below one turn only: a timer with rotations left is visited again in the
same tick until none are left, `ttl * 60` is a 32-bit product, and a timer of no ticks waits for a
whole turn.

`expiry_on_time` is the statement for the runs in which the records that are installed have a TTL of
at least one minute and less than a turn of the wheel, and no learned entry is refreshed. The spoke
of the timer is then as far from the current one as the deadline is from the present.
-/

namespace Lispmob

open Option

section Expiration

variable {R F : Type} {W : World R F} {env : CtrlEnv} {s s' s0 s1 s2 s3 : Xtr R} {t e : Nat}
  {r : Ret} {m : Mapping} {ty : TimerType} {a : TimerArg} {ttl : UInt32} {ticks : Nat} {since : Nat}
  {k : MdbKey} {d : Nat}

/-- The entry is in the map cache, active, and was learned from a Map-Reply. -/
def Learned (s : Xtr R) (e : Nat) : Prop :=
  ∃ k me, s.mapCache.stored k = some e ∧ s.mces.cell e = some me ∧ me.active = .ACTIVE ∧
    me.howLearned = .MCE_DYNAMIC

/-- What the expiration of the entry `e` depends on is the same. -/
structure SameExpiry (s s' : Xtr R) (e : Nat) : Prop where
  armed : SameArmed s.ts s'.ts .EXPIRE_MAP_CACHE_TIMER (.mce e)
  spoke : s'.ts.wheel.currentSpoke = s.ts.wheel.currentSpoke
  now : s'.now = s.now
  inTick : s'.inTick = s.inTick
  accepted : s'.accepted e = s.accepted e

theorem SameExpiry.trans (h1 : SameExpiry s1 s2 e) (h2 : SameExpiry s2 s3 e) : SameExpiry s1 s3 e :=
  ⟨h1.armed.trans h2.armed, h2.spoke.trans h1.spoke, h2.now.trans h1.now,
    h2.inTick.trans h1.inTick, h2.accepted.trans h1.accepted⟩

/-- An effect that leaves the clock and the accepted Map-Replies alone. -/
theorem SameExpiry.of_rest (harmed : SameArmed s.ts s'.ts .EXPIRE_MAP_CACHE_TIMER (.mce e))
    (hspoke : s'.ts.wheel.currentSpoke = s.ts.wheel.currentSpoke)
    (hrest : s' = { s with
      mapCache := s'.mapCache, mces := s'.mces, ts := s'.ts, mles := s'.mles,
      ifaceLocatorsTable := s'.ifaceLocatorsTable, smrTimer := s'.smrTimer,
      nextLoct := s'.nextLoct, lost := s'.lost, nonceCalls := s'.nonceCalls }) :
        SameExpiry s s' e :=
  ⟨harmed, hspoke, by rw [hrest], by rw [hrest], by rw [hrest]⟩

/-- Nothing is learned from `s` to `s'`, and nothing changes for the entries that stay. -/
def NoneLearned (s s' : Xtr R) : Prop :=
  ∀ e, Learned s' e → Learned s e ∧ SameExpiry s s' e

theorem NoneLearned.refl (s : Xtr R) : NoneLearned s s :=
  fun _ h => ⟨h, fun _ _ => Iff.rfl, rfl, rfl, rfl, rfl⟩

theorem NoneLearned.trans (h1 : NoneLearned s1 s2) (h2 : NoneLearned s2 s3) :
    NoneLearned s1 s3 := by
  intro e he
  obtain ⟨he2, hsame2⟩ := h2 e he
  obtain ⟨he1, hsame1⟩ := h1 e he2
  exact ⟨he1, hsame1.trans hsame2⟩

/-! ## Effects -/

theorem NoneLearned.of_ts (hrest : s' = { s with ts := s'.ts, nonceCalls := s'.nonceCalls })
    (harmed : ∀ e, SameArmed s.ts s'.ts .EXPIRE_MAP_CACHE_TIMER (.mce e))
    (hspoke : s'.ts.wheel.currentSpoke = s.ts.wheel.currentSpoke) : NoneLearned s s' := by
  rintro e ⟨k, me, hst, hme, hact, hdyn⟩
  refine ⟨⟨k, me, ?_, ?_, hact, hdyn⟩, .of_rest (harmed e) hspoke (by rw [hrest])⟩
  · rw [← hst, hrest]
  · rw [← hme, hrest]

theorem Idle.noneLearned (h : Idle W s s') : NoneLearned s s' := by
  rintro e ⟨k, me, hst, hme, hact, hdyn⟩
  rw [h.stored] at hst
  rw [h.cells] at hme
  exact ⟨⟨k, me, hst, hme, hact, hdyn⟩, .of_rest h.armed h.spoke (by rw [h.rest])⟩

theorem LocalOnly.noneLearned (h : LocalOnly W s s') (hw : s.Wf) : NoneLearned s s' := by
  rintro e ⟨k, me, hst, hme, hact, hdyn⟩
  have hspoke := (h.entries hw.timers hw.smr).spoke
  refine ⟨⟨k, me, ?_, ?_, hact, hdyn⟩, .of_rest (h.armed hw rfl) hspoke (by rw [h.rest])⟩
  · rw [← hst, h.rest]
  · rw [← hme, h.rest]

/-- Entries that are written to, and keep what they are. -/
theorem NoneLearned.of_back
    (hback : ∀ i mi', s'.mces.cell i = some mi' → ∃ mi, s.mces.cell i = some mi ∧ SameEntry mi mi')
    (hrest : s' = { s with mces := s'.mces, nextLoct := s'.nextLoct }) : NoneLearned s s' := by
  rintro i ⟨k, mi', hst, hmi', hact, hdyn⟩
  obtain ⟨mi, hmi, hsame⟩ := hback i mi' hmi'
  have hst' : s.mapCache.stored k = some i := by rw [← hst, hrest]
  rw [hsame.active] at hact
  rw [hsame.howLearned] at hdyn
  have hts : s'.ts = s.ts := by rw [hrest]
  exact ⟨⟨k, mi, hst', hmi, hact, hdyn⟩, .of_rest (.of_eq hts) (by rw [hts]) (by rw [hrest])⟩

theorem Touched.noneLearned (h : Touched W s s') : NoneLearned s s' := by
  refine .of_back (fun i mi' hmi' => ?_) (by rw [h.rest])
  obtain ⟨mi, hmi, hshape⟩ := h.back i mi' hmi'
  exact ⟨mi, hmi, hshape.entry⟩

theorem Edited.noneLearned {me me' : Mce R} (h : Edited W s s' e me me') : NoneLearned s s' :=
  .of_back (fun _ _ hmi' => h.back hmi') (by rw [h.rest])

theorem EntryCreated.noneLearned {me : Mce R} (h : EntryCreated s s' me)
    (hplace : me.active = .NOT_ACTIVE) : NoneLearned s s' := by
  rintro i ⟨k, mi, hst, hmi, hact, hdyn⟩
  rw [h.cell] at hmi
  split_ifs at hmi with hi
  · cases hmi
    rw [hplace] at hact
    cases hact
  · have hst' : s.mapCache.stored k = some i := by
      obtain hold | ⟨hnew, -⟩ := h.stored_cases hst
      · exact hold
      · exact absurd hnew hi
    exact ⟨⟨k, mi, hst', hmi, hact, hdyn⟩, .of_rest h.armed (by rw [h.rest]) (by rw [h.rest])⟩

theorem Removed.noneLearned (h : Removed W s s' k d) : NoneLearned s s' := by
  rintro i ⟨k', mi, hst, hmi, hact, hdyn⟩
  rw [h.mces, Heap.free_cell] at hmi
  split_ifs at hmi with hi
  rw [h.stored] at hst
  split_ifs at hst
  have harmed : SameArmed s.ts s'.ts .EXPIRE_MAP_CACHE_TIMER (.mce i) :=
    h.armed fun hd => hi (some.inj hd)
  exact ⟨⟨k', mi, hst, hmi, hact, hdyn⟩, .of_rest harmed h.released.spoke (by rw [h.rest])⟩

theorem Removed.not_learned (h : Removed W s s' k d) : ¬ Learned s' d := by
  rintro ⟨k', mi, -, hmi, -⟩
  rw [h.mces, Heap.free_cell, if_pos rfl] at hmi
  cases hmi

theorem Listed.noneLearned (h : Listed W s s' ty a) (hw : s.Wf) : NoneLearned s s' :=
  .of_ts (by rw [h.rest]) (fun _ => h.armed hw) (by rw [h.wheel])

theorem StartedFor.noneLearned
    (h : StartedFor W s s' ty a ticks) (hw : s.Wf) (hty : ty ≠ .EXPIRE_MAP_CACHE_TIMER) :
    NoneLearned s s' :=
  .of_ts (by rw [h.rest]) (fun _ => h.armed hw fun heq => hty (congrArg Prod.fst heq))
    (h.grown hw.timers).spoke

theorem Reprobed.spoke (h : Reprobed W s s' e) :
    s'.ts.wheel.currentSpoke = s.ts.wheel.currentSpoke := by
  by_cases hoff : s.probeInterval = 0
  · rw [h.off hoff]
  · obtain ⟨ts, me, -, hrel, hgrown⟩ := h.on hoff
    rw [hgrown.spoke, hrel.spoke]

theorem Reprobed.noneLearned (h : Reprobed W s s' e) (hw : s.Wf) : NoneLearned s s' :=
  .of_ts (by rw [h.rest]) (fun _ => h.armed hw (.inl nofun)) h.spoke

theorem TimerStopped.noneLearned (h : TimerStopped W s s' t) (hw : s.Wf)
    (hty : ∀ a, s.ts.kind t ≠ some (.EXPIRE_MAP_CACHE_TIMER, a)) : NoneLearned s s' :=
  .of_ts (by rw [h.rest]) (fun _ => h.armed hw (hty _)) (h.released hw.timers).spoke

theorem Relinked.spoke {ts ts' : Timers TimerOwner TimerArg}
    (h : Relinked ts ts' t ticks) : ts'.wheel.currentSpoke = ts.wheel.currentSpoke := by
  rw [h.wheel]
  rfl

theorem Refired.noneLearned (h : Refired W s s' t)
    (hty : ∀ a, s.ts.kind t ≠ some (.EXPIRE_MAP_CACHE_TIMER, a)) : NoneLearned s s' := by
  obtain ⟨ticks, hr⟩ := h.relinked
  rw [h.rest]
  exact .of_ts rfl (fun _ => hr.armed (hty _)) hr.spoke

/-! ## Callbacks -/

theorem trMcacheRemoveEntry_noneLearned (W : World R F) (hw : s.Wf)
    (h : (trMcacheRemoveEntry e).run s = .ok (r, s')) : NoneLearned s s' ∧ ¬ Learned s' e := by
  obtain ⟨me, hme, ⟨k, d, hkey, hrem⟩ | ⟨hnone, hidle⟩⟩ := trMcacheRemoveEntry_cases (W := W) hw h
  · refine ⟨hrem.noneLearned, fun hlearned => ?_⟩
    -- an entry in the map cache is stored under its own EID, so it is the one removed
    obtain ⟨⟨k', me', hst, hme', -⟩, -⟩ := hrem.noneLearned e hlearned
    obtain ⟨mi, hmi, hk'⟩ := hw.stored_own k' e hst
    rw [hme] at hmi
    cases hmi
    have hkk : k = k' := some.inj (hkey.symm.trans hk')
    have hde : d = e := some.inj (hrem.was.symm.trans (hkk ▸ hst))
    exact hrem.not_learned (hde ▸ hlearned)
  · refine ⟨hidle.noneLearned, fun hlearned => ?_⟩
    obtain ⟨⟨k, me', hst, hme', -⟩, -⟩ := hidle.noneLearned e hlearned
    obtain ⟨mi, hmi, hk⟩ := hw.stored_own k e hst
    rw [hme] at hmi
    cases hmi
    rw [hnone k hk] at hst
    cases hst

theorem Handled.noneLearned (h : Handled W t s s') (hw : s.Wf)
    (hty : ∀ a, s.ts.kind t ≠ some (.EXPIRE_MAP_CACHE_TIMER, a)) : NoneLearned s s' := by
  cases h with
  | idle h => exact h.noneLearned
  | touched h => exact h.noneLearned
  | @refired s1 ht h =>
    exact ht.noneLearned.trans (h.noneLearned (by rwa [show s1.ts = s.ts by rw [ht.rest]]))
  | removed h => exact (trMcacheRemoveEntry_noneLearned W hw h).1

theorem timerCb_noneLearned {u : Unit} (hw : s.Wf)
    (h : (timerCb W env t).run { s with ts := { s.ts with wheel := s.ts.wheel.unlink t } } =
      .ok (u, s')) : NoneLearned s s' := by
  have hw1 : ({ s with ts := { s.ts with wheel := s.ts.wheel.unlink t } } : Xtr R).Wf :=
    (wheel_safe (W := W) (fun hw => hw.unlink) hw).1
  -- taking a timer of another type off the wheel
  have hunlink : (∀ a, s.ts.kind t ≠ some (.EXPIRE_MAP_CACHE_TIMER, a)) →
      NoneLearned s { s with ts := { s.ts with wheel := s.ts.wheel.unlink t } } :=
    fun hty => .of_ts rfl (fun _ => unlink_armed (hty _)) rfl
  have hhandled : (∀ a, s.ts.kind t ≠ some (.EXPIRE_MAP_CACHE_TIMER, a)) →
      Handled W t { s with ts := { s.ts with wheel := s.ts.wheel.unlink t } } s' →
        NoneLearned s s' :=
    fun hty h => (hunlink hty).trans (h.noneLearned hw1 hty)
  obtain ⟨e, hk, r, h⟩ | ⟨e, src, hk, r, h⟩ | ⟨e, src, hk, r, h⟩ | ⟨e, loc, hk, r, h⟩ |
    ⟨⟨ty, a, hk, ha⟩, h⟩ := timerCb_cases h
  · -- the entry that expires is removed, and the timers of the others are left alone
    obtain ⟨hnone, hgone⟩ := trMcacheRemoveEntry_noneLearned W hw1 h
    intro i hi
    obtain ⟨hold, hsame⟩ := hnone i hi
    have hne : s.ts.kind t ≠ some (.EXPIRE_MAP_CACHE_TIMER, .mce i) := by
      intro hki
      cases hk.symm.trans hki
      exact hgone hi
    refine ⟨hold, SameExpiry.trans ?_ hsame⟩
    exact .of_rest (unlink_armed hne) rfl rfl
  · exact hhandled (fun a hki => by cases hk.symm.trans hki) (sendMapRequestRetryCb_handled h)
  · exact hhandled (fun a hki => by cases hk.symm.trans hki) (smrInvokedMapRequestCb_handled h)
  · exact hhandled (fun a hki => by cases hk.symm.trans hki) (rlocProbingCb_handled h)
  · refine (hunlink fun a' hki => ?_).trans (h.noneLearned hw1)
    have hfits := hw.fits t _ _ hki
    cases hk.symm.trans hki
    cases a with
    | mce e => cases ha
    | _ => exact hfits.elim

/-! ## Deadlines -/

/-- The one expiration timer of the entry `e` is `t`. It was started for `ttl` minutes at the time
`since`, for less than a turn of the wheel, and its spoke is as far from the current one as the
deadline is from the present. -/
structure ExpiresAt (s : Xtr R) (e t since : Nat) (ttl : UInt32) : Prop where
  accepted : s.accepted e = some (since, ttl)
  armed : ∀ t' sp, s.ts.Armed .EXPIRE_MAP_CACHE_TIMER (.mce e) t' sp ↔
    t' = t ∧ sp = (s.ts.wheel.currentSpoke + (since + ttl.toNat * 60 - s.now)) % WHEEL_SIZE
  started : since ≤ s.now
  ahead : s.now ≤ since + ttl.toNat * 60
  pending : s.inTick = false → s.now < since + ttl.toNat * 60
  short : ttl.toNat * 60 < WHEEL_SIZE

/-- Every learned entry has a deadline. -/
def Timely (s : Xtr R) : Prop :=
  ∀ e, Learned s e → ∃ t since ttl, ExpiresAt s e t since ttl

theorem SameExpiry.expiresAt (h : SameExpiry s s' e)
    (he : ExpiresAt s e t since ttl) : ExpiresAt s' e t since ttl := by
  refine ⟨by rw [h.accepted, he.accepted], fun t' sp => ?_, ?_, ?_, ?_, he.short⟩
  · rw [h.armed t' sp, he.armed, h.spoke, h.now]
  · rw [h.now]
    exact he.started
  · rw [h.now]
    exact he.ahead
  · rw [h.now, h.inTick]
    exact he.pending

theorem NoneLearned.timely (h : NoneLearned s s') (hT : Timely s) : Timely s' := by
  intro e he
  obtain ⟨hold, hsame⟩ := h e he
  obtain ⟨t, since, ttl, hexp⟩ := hT e hold
  exact ⟨t, since, ttl, hsame.expiresAt hexp⟩

theorem ticked_timely (hdue : s.inTick = false) (hT : Timely s) :
    Timely { s with ts := advanceSpoke s.ts, inTick := true, now := s.now + 1 } := by
  intro e he
  obtain ⟨t, since, ttl, hexp⟩ := hT e he
  have hlt := hexp.pending hdue
  have hspoke : (s.ts.wheel.currentSpoke + (since + ttl.toNat * 60 - s.now)) % WHEEL_SIZE =
      ((s.ts.wheel.currentSpoke + 1) % WHEEL_SIZE + (since + ttl.toNat * 60 - (s.now + 1))) %
        WHEEL_SIZE := by
    unfold WHEEL_SIZE
    omega
  refine ⟨t, since, ttl, hexp.accepted, fun t' sp => ?_, ?_, hlt, nofun, hexp.short⟩
  · have harmed := hexp.armed t' sp
    rw [hspoke] at harmed
    exact harmed
  · exact Nat.le_succ_of_le hexp.started

/-- At the end of a tick no timer is left on the current spoke, so no deadline is now. -/
theorem spokeDone_timely (hw : s.Wf)
    (hempty : ∀ l ∈ s.ts.wheel.links, l.spoke ≠ s.ts.wheel.currentSpoke) (hT : Timely s) :
    Timely { s with inTick := false } := by
  intro e he
  obtain ⟨t, since, ttl, hexp⟩ := hT e he
  refine ⟨t, since, ttl, hexp.accepted, hexp.armed, hexp.started, hexp.ahead, fun _ => ?_,
    hexp.short⟩
  by_contra hnot
  have hzero : since + ttl.toNat * 60 - s.now = 0 := by
    have : ¬ s.now < since + ttl.toNat * 60 := hnot
    omega
  obtain ⟨-, l, hl, -, hsp⟩ := (hexp.armed t _).mpr ⟨rfl, rfl⟩
  rw [hzero, Nat.add_zero, Nat.mod_eq_of_lt hw.timers.spoke_lt] at hsp
  exact hempty l hl hsp

theorem ExpiresAt.now_eq (h : ExpiresAt s e t since ttl) (hw : s.Wf)
    (hspoke : ∃ l ∈ s.ts.wheel.links, l.timer = t ∧ l.spoke = s.ts.wheel.currentSpoke) :
    s.now = since + ttl.toNat * 60 := by
  obtain ⟨hk, -⟩ := (h.armed t _).mpr ⟨rfl, rfl⟩
  obtain ⟨-, hsp⟩ := (h.armed t s.ts.wheel.currentSpoke).mp ⟨hk, hspoke⟩
  have hlt := hw.timers.spoke_lt
  have hshort := h.short
  have hstarted := h.started
  have hahead := h.ahead
  unfold WHEEL_SIZE at hsp hlt hshort
  omega

theorem Added.armed_new {t' sp : Nat} (h : Added W s s1 m) (hw : s.Wf) :
    s1.ts.Armed .EXPIRE_MAP_CACHE_TIMER (.mce s.mces.next) t' sp ↔ t' = s.ts.timers.next ∧
      sp = (s.ts.wheel.linkFor s.ts.timers.next (m.ttl * 60).toNat).spoke := by
  refine (h.grown.armed_iff fun _ => hw.timers.running_kind).trans ⟨?_, ?_⟩
  · rintro (⟨hk, -⟩ | ⟨j, ticks, hj, rfl, rfl⟩)
    · exact absurd (hw.no_timer hk rfl) (Nat.lt_irrefl _)
    · cases j with
      | zero =>
        cases hj
        exact ⟨rfl, rfl⟩
      | succ j =>
        -- the other new timers are probing timers
        rw [List.getElem?_cons_succ] at hj
        have hmem := List.mem_of_getElem? hj
        split_ifs at hmem
        · cases hmem
        · obtain ⟨l, -, hl⟩ := List.mem_map.mp hmem
          cases hl
  · rintro ⟨rfl, rfl⟩
    exact .inr ⟨0, _, rfl, rfl, rfl⟩

theorem Added.timely (h : Added W s s1 m) (hw : s.Wf) (hpos : 0 < m.ttl.toNat)
    (hshort : m.ttl.toNat * 60 < WHEEL_SIZE) (hT : Timely s) :
    Timely { s1 with
      accepted := fun i => if i = s.mces.next then some (s.now, m.ttl) else s.accepted i } := by
  have hnow : s1.now = s.now := by rw [h.rest]
  have hgrown := h.grown
  obtain ⟨info, hc⟩ := h.created
  rintro i ⟨k, mi, hst, hmi, hact, hdyn⟩
  by_cases hi : i = s.mces.next
  · subst hi
    -- the product does not wrap, and the duration is less than a turn
    have hticks : (m.ttl * 60).toNat = m.ttl.toNat * 60 := by
      rw [UInt32.toNat_mul, show (60 : UInt32).toNat = 60 from rfl]
      unfold WHEEL_SIZE at hshort
      omega
    have hspoke : (s.ts.wheel.linkFor s.ts.timers.next (m.ttl * 60).toNat).spoke =
        (s1.ts.wheel.currentSpoke + (s.now + m.ttl.toNat * 60 - s1.now)) % WHEEL_SIZE := by
      rw [TimerWheel.linkFor, hticks, hgrown.spoke, hnow, Nat.add_sub_cancel_left,
        Nat.mod_eq_of_lt hshort]
    have hlt : s1.now < s.now + m.ttl.toNat * 60 := by omega
    exact ⟨s.ts.timers.next, s.now, m.ttl, if_pos rfl, fun t' sp => hspoke ▸ h.armed_new hw,
      Nat.le_of_eq hnow.symm, Nat.le_of_lt hlt, fun _ => hlt, hshort⟩
  · have hcell : s.mces.cell i = some mi := by
      have hold := hc.cell i
      rw [if_neg hi] at hold
      exact hold.symm.trans hmi
    obtain hst | ⟨hnew, -⟩ := hc.stored_cases hst
    · obtain ⟨t, since, ttl, hexp⟩ := hT i ⟨k, mi, hst, hcell, hact, hdyn⟩
      have harmed : SameArmed s.ts s1.ts .EXPIRE_MAP_CACHE_TIMER (.mce i) :=
        h.armed hw fun hd => hi (some.inj hd)
      have hsame : SameExpiry s { s1 with
          accepted := fun i => if i = s.mces.next then some (s.now, m.ttl) else s.accepted i } i :=
        ⟨harmed, hgrown.spoke, hnow, by rw [h.rest], if_neg hi⟩
      exact ⟨t, since, ttl, hsame.expiresAt hexp⟩
    · exact absurd hnew hi

theorem Refreshed.noneLearned (h : Refreshed W s s' e m) (hw : s.Wf) (hnot : ¬ Learned s e) :
    NoneLearned s s' := by
  obtain ⟨me, me', s1, s2, s3, hed, -, htimer, hprobe, rfl⟩ := h
  have hw1 := hed.wf hw
  have hw2 : s2.Wf := htimer.wf hw1 rfl hed.is nofun
  intro i hi
  have hi3 : Learned s3 i := hi
  obtain ⟨hi2, hsame3⟩ := (hprobe hw2.timers).noneLearned hw2 i hi3
  have hi1 : Learned s1 i := by
    rw [htimer.rest] at hi2
    exact hi2
  obtain ⟨hi0, hsame1⟩ := hed.noneLearned i hi1
  have hne : i ≠ e := fun heq => hnot (heq ▸ hi0)
  have hsame2 : SameExpiry s1 s2 i := by
    refine .of_rest (htimer.armed hw1 fun heq => ?_) (htimer.grown hw1.timers).spoke
      (by rw [htimer.rest])
    exact hne (TimerArg.mce.inj (congrArg Prod.snd heq)).symm
  refine ⟨hi0, hsame1.trans (hsame2.trans (hsame3.trans ?_))⟩
  exact ⟨.refl _ _ _, rfl, rfl, rfl, if_neg hne⟩

/-! ## Steps -/

/-- The TTL of the record is at least a minute and less than a turn of the wheel. -/
def MappingRecord.timely (rec : MappingRecord) : Prop :=
  0 < rec.ttl.toNat ∧ rec.ttl.toNat * 60 < WHEEL_SIZE

instance : DecidablePred MappingRecord.timely :=
  fun _ => inferInstanceAs (Decidable (_ ∧ _))

/-- The record is not for the EID of an active entry learned from a Map-Reply. -/
def SparesLearned (s : Xtr R) : RawRecord → Prop
  | .malformed => True
  | .wellFormed r => ∀ d ∈ (mdbLookupEntryExact s.mapCache r.eidPrefix).toOption.join,
      ∀ me ∈ s.mces.cell d, ¬ (me.active = .ACTIVE ∧ me.howLearned = .MCE_DYNAMIC)

instance (s : Xtr R) : ∀ raw, Decidable (SparesLearned s raw)
  | .malformed => inferInstanceAs (Decidable True)
  | .wellFormed _ => inferInstanceAs (Decidable (∀ d ∈ _, _))

/-- A Map-Reply for a placeholder installs fresh prefixes for a time the wheel can measure, and one
for an active entry does not refresh a learned entry. -/
def RepliesTimely (s : Xtr R) (ev : XtrEvent) : Prop :=
  InstallsFresh s ev ∧
    match ev with
    | .mapReply msg _ _ => msg.rlocProbe = false → ∀ e ∈ answeredEntry s msg,
        ∀ me ∈ s.mces.cell e,
          (me.active = .NOT_ACTIVE →
            ∀ rec ∈ parsedRecords (readRecords msg.records msg.recCount.toNat), rec.timely) ∧
          (me.active = .ACTIVE → SparesLearned s (msg.records.getD 0 .malformed))
    | _ => True

instance (s : Xtr R) : ∀ ev, Decidable (RepliesTimely s ev)
  | .mapReply msg _ _ =>
    inferInstanceAs (Decidable (_ ∧ (msg.rlocProbe = false → ∀ e ∈ _, _)))
  | .packet .. | .mapRequest .. | .mapNotify .. | .ifEvent .. | .tick | .wheel .. =>
    inferInstanceAs (Decidable (_ ∧ True))

theorem Change.timely {ev : XtrEvent} (h : Change W s0 ev s s') (hw₀ : s0.Wf)
    (hok : RepliesTimely s0 ev) (hw : s.Wf) (hT : Timely s) : Timely s' := by
  cases h with
  | idle h => exact h.noneLearned.timely hT
  | localOnly h => exact (h.noneLearned hw).timely hT
  | missed miss created listed sent =>
    rename_i s1 s2 _
    have hw1 := created.wf hw fun _ k hkey => free_of_miss miss hkey
    have hw2 := missed_wf miss hw created listed
    have hmissed := (created.noneLearned rfl).trans (listed.noneLearned hw1)
    have hnew := listed.kind s.ts.timers.next
    rw [show s1.ts = s.ts by rw [created.rest], if_pos rfl] at hnew
    exact (hmissed.trans ((sendMapRequestRetryCb_handled sent).noneLearned hw2
      (by simp [hnew]))).timely hT
  | solicited found listed sent =>
    have hw1 := solicited_wf found hw listed
    have hsent := (smrInvokedMapRequestCb_handled sent).noneLearned hw1 (by simp [listed.kind])
    exact ((listed.noneLearned hw).trans hsent).timely hT
  | discarded _ _ removed => exact removed.noneLearned.timely hT
  | installed answers placeholder mem _ ttl _ added =>
    obtain ⟨ty, a, hk, ha⟩ := answers.arg
    have hans := answeredEntry_eq answers.nonce hk ha
    obtain ⟨hpos, hshort⟩ := (hok.2 answers.notProbe _ hans _ answers.cell).1 placeholder _ mem
    rw [← ttl] at hpos hshort
    exact added.timely hw hpos hshort hT
  | refreshed answers active first _ _ parsed found refreshed =>
    obtain ⟨ty, a, hk, ha⟩ := answers.arg
    have hans := answeredEntry_eq answers.nonce hk ha
    have hspares := (hok.2 answers.notProbe _ hans _ answers.cell).2 active
    rw [first] at hspares
    have hidle : Idle W _ _ := parsed.idle
    refine (hidle.noneLearned.trans (refreshed.noneLearned (hidle.wf hw) ?_)).timely hT
    rintro hlearned
    obtain ⟨⟨k, me, -, hme, hact, hdyn⟩, -⟩ := hidle.noneLearned _ hlearned
    exact hspares _ (by rw [found]; rfl) me hme ⟨hact, hdyn⟩
  | answered answers _ kind stopped =>
    refine (stopped.noneLearned hw fun a hk => ?_).timely hT
    rw [kind] at hk
    have := hw₀.timers.nonce_type answers.nonce hk
    cases this
  | probed _ nonce parsed _ _ _ _ handled stopped =>
    have hidle : Idle W _ _ := parsed.idle
    have hw1 := hidle.wf hw
    obtain ⟨hw2, hev⟩ := handleLocatorProbeReply_safe _ _ handled hw1
    have hstop := stopped.noneLearned hw2 fun a hk => by
      obtain ⟨y, hy⟩ := hw.timers.nonce_kind nonce
      rw [(hidle.evolves.trans hev).kind_eq hy hk] at hk
      have := hw.timers.nonce_type nonce hk
      cases this
    refine (hidle.noneLearned.trans (NoneLearned.trans ?_ hstop)).timely hT
    obtain ⟨me, hme, ⟨-, rfl⟩ | ⟨loct, s3, -, ht, hstart⟩⟩ := handleLocatorProbeReply_cases handled
    · exact .refl _
    · exact ht.noneLearned.trans (hstart.noneLearned (ht.wf hw1) nofun)
  | merged _ edited _ probed =>
    exact (edited.noneLearned.trans (probed.noneLearned (edited.wf hw))).timely hT
  | ticked due => exact ticked_timely due hT
  | spokeDone empty => exact spokeDone_timely hw empty hT
  | rotated same =>
    refine NoneLearned.timely (s := s) ?_ hT
    exact .of_ts rfl (fun _ => rotated_armed same) rfl
  | fired _ _ _ called => exact (timerCb_noneLearned hw called).timely hT

/-! ## Runs -/

/-- In the runs in which Map-Replies install fresh prefixes for a time the wheel can measure and
refresh no learned entry, every learned entry has one running expiration timer, and it fires when
the TTL of the Map-Reply is over. -/
theorem expiry_on_time {P : XtrConf R → Prop} {me : Mce R} {k : MdbKey}
    (h : XtrReach W P RepliesTimely s) (hst : s.mapCache.stored k = some e)
    (hme : s.mces.cell e = some me) (hact : me.active = .ACTIVE)
    (hdyn : me.howLearned = .MCE_DYNAMIC) :
    ∃ t since ttl, s.accepted e = some (since, ttl) ∧
      (∀ t', (s.ts.kind t' = some (.EXPIRE_MAP_CACHE_TIMER, .mce e) ∧ s.ts.running t') ↔ t' = t) ∧
      s.now ≤ since + ttl.toNat * 60 ∧
      (s.inTick = false → s.now < since + ttl.toNat * 60) ∧
      (dueTimer s.ts = some t → s.now = since + ttl.toNat * 60) := by
  have hT : Timely s := by
    refine h.invariant_of (I := Timely) ?_ fun s0 ev a b hw0 hok hw hc => hc.timely hw0 hok hw
    rintro s hs e ⟨k, me, -, hme, -, hdyn⟩
    rw [(hs.configured e me hme).2] at hdyn
    cases hdyn
  obtain ⟨t, since, ttl, hexp⟩ := hT e ⟨k, me, hst, hme, hact, hdyn⟩
  refine ⟨t, since, ttl, hexp.accepted, fun t' => ⟨?_, ?_⟩, hexp.ahead, hexp.pending,
    fun hdue => ?_⟩
  · rintro ⟨hk, l, hl, hlt⟩
    exact ((hexp.armed t' l.spoke).mp ⟨hk, l, hl, hlt, rfl⟩).1
  · rintro rfl
    obtain ⟨hk, l, hl, hlt, -⟩ := (hexp.armed t' _).mpr ⟨rfl, rfl⟩
    exact ⟨hk, l, hl, hlt⟩
  · exact hexp.now_eq h.wf.1 (dueTimer_link hdue)

end Expiration

/-- An entry learned for one minute. -/
theorem expiry_on_time_learned :
    ∃ s, XtrReach labWorld (fun _ => True) RepliesTimely s ∧ s.now = 2 ∧
      ∃ t since ttl, s.accepted 2 = some (since, ttl) ∧
        (∀ t', (s.ts.kind t' = some (.EXPIRE_MAP_CACHE_TIMER, .mce 2) ∧ s.ts.running t') ↔
          t' = t) ∧
        s.now ≤ since + ttl.toNat * 60 ∧
        (s.inTick = false → s.now < since + ttl.toNat * 60) ∧
        (dueTimer s.ts = some t → s.now = since + ttl.toNat * 60) := by
  have hrun : ∃ s, XtrReach labWorld (fun _ => True) RepliesTimely s ∧ s.now = 2 ∧
      s.mapCache.stored labKey = some 2 ∧
      (s.mces.cell 2).map (fun me => (me.active, me.howLearned)) = some (.ACTIVE, .MCE_DYNAMIC) :=
    XtrReach.of_events labConf labEnv
      [labPacket, labReply 0 [labRecord 0xc0000200#32 1], .tick, .wheel labEnv, .wheel labEnv,
        .tick] trivial (by decide +kernel)
  obtain ⟨s, hs, hnow, hst, hcell⟩ := hrun
  obtain ⟨me, hme, hpair⟩ := map_eq_some_iff.mp hcell
  obtain ⟨hact, hdyn⟩ := Prod.mk.inj hpair
  exact ⟨s, hs, hnow, expiry_on_time hs hst hme hact hdyn⟩

/-- The entry is refreshed after an SMR. Two of its expiration timers run afterwards. -/
theorem refresh_adds_timer :
    ∃ s, LabReach s ∧
      s.mapCache.stored labKey = some 2 ∧
      (s.mces.cell 2).map (fun me => (me.active, me.howLearned)) = some (.ACTIVE, .MCE_DYNAMIC) ∧
      s.ts.kind 2 = some (.EXPIRE_MAP_CACHE_TIMER, .mce 2) ∧ s.ts.running 2 ∧
      s.ts.kind 5 = some (.EXPIRE_MAP_CACHE_TIMER, .mce 2) ∧ s.ts.running 5 :=
  XtrReach.of_events labConf labEnv
    [labPacket, labReply 0 [labRecord 0xc0000200#32 1], .mapRequest
      ⟨5, false, true, .ip (.v4 0xc0000205#32), [.ip (.v4 9)], [.ip (.v4 0x0a000001#32)]⟩
      (.ip (.v4 1)) labEnv, labReply 1 [labRecord 0xc0000200#32 1]] trivial (by decide +kernel)

end Lispmob
