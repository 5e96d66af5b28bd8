import Lispmob.Registrations
import Lispmob.WheelDeadlines

/-!
# The expiration of registrations

A registration lasts until no record for its prefix was accepted for `MS_SITE_EXPIRATION + 2` ticks.
The registered site owns one timer, which every accepted record starts anew; the duration is less
than a turn of the wheel, so its deadline is the one of `dueAt_start`. `SiteTimers` is the invariant
of the runs from an empty database, and `registered_iff_recent` the result: between events a prefix
is registered exactly when a record for it was accepted fewer than 182 ticks ago.
-/

namespace Lispmob

open List Option Heap

variable {s s' : MapServer} {k k0 : MdbKey} {r t n : Nat} {ts ts' : Timers Nat Nat} {inTick : Bool}
  {now : Nat}

/-- The lifetime of a registration, in ticks. -/
def siteLifetime : Nat :=
  MS_SITE_EXPIRATION + 2

/-! ## The timer of a registration -/

/-- The site `r`, registered under `k`, owns the timer `t`, which expires at tick `n`: the lifetime
after the last record accepted for `k`. -/
structure SiteTimer (s : MapServer) (k : MdbKey) (r t n : Nat) : Prop where
  listed : s.ts.ptrs r = some [t]
  cell : s.ts.timers.cell t = some ⟨.REG_SITE_EXPRY_TIMER, r, none⟩
  due : s.ts.wheel.DueAt s.inTick s.now t n
  latest : ∀ a ∈ s.accepted, mdbKey a.record.eidPrefix = some k → a.tick + siteLifetime ≤ n
  since : ∃ a ∈ s.accepted, mdbKey a.record.eidPrefix = some k ∧ a.tick + siteLifetime = n

/-- Every registered site owns its timer, and there are no other timers. -/
structure SiteTimers (s : MapServer) : Prop where
  wf : s.Wf
  spoke : s.ts.wheel.currentSpoke < WHEEL_SIZE
  owned : ∀ k r, s.regSitesDb.stored k = some r → ∃ t n, SiteTimer s k r t n
  owner : ∀ t tm, s.ts.timers.cell t = some tm →
    ∃ k, s.regSitesDb.stored k = some tm.cbArgument ∧ s.ts.ptrs tm.cbArgument = some [t]
  listed : ∀ r l, s.ts.ptrs r = some l → ∃ k, s.regSitesDb.stored k = some r
  tick_le : ∀ a ∈ s.accepted, a.tick ≤ s.now
  gone : ∀ k, s.regSitesDb.stored k = none → ∀ a ∈ s.accepted,
    mdbKey a.record.eidPrefix = some k → a.tick + siteLifetime ≤ s.now

theorem SiteTimer.timer_ne {k' : MdbKey} {r' t' n' : Nat} (h : SiteTimer s k r t n)
    (h' : SiteTimer s k' r' t' n') (hne : r' ≠ r) : t' ≠ t := by
  intro heq
  have hcell := h'.cell
  rw [heq, h.cell] at hcell
  exact hne (congrArg Timer.cbArgument (some.inj hcell)).symm

/-! ## Accepted records -/

section Records

variable {sp : Nat} {m : Mapping} {b : Bool} {nw : IpAddr} {plen : UInt8}

/-- What accepting a record does to the database, the timers and the clock. -/
theorem Registers.timers (h : Registers sp m b s s') (heid : m.eidPrefix = .ippref nw plen) :
    s'.inTick = s.inTick ∧ s'.now = s.now ∧
      ((∃ r, s.regSitesDb.stored (prefixKey nw plen) = some r ∧ s'.regSitesDb = s.regSitesDb ∧
          lsiteEntryUpdateExpirationTimer s.ts r = .ok s'.ts) ∨
        (s.regSitesDb.stored (prefixKey nw plen) = none ∧
          (∀ k, s'.regSitesDb.stored k =
            if k = prefixKey nw plen then some s.rsites.next else s.regSitesDb.stored k) ∧
          lsiteEntryStartExpirationTimer s.ts s.rsites.next = .ok s'.ts)) := by
  cases h with
  | same hl hr _ ht =>
    exact ⟨rfl, rfl, .inl ⟨_, (refreshed_registration heid hl hr).1, rfl, ht⟩⟩
  | merged hl hr _ _ _ ht =>
    exact ⟨rfl, rfl, .inl ⟨_, (refreshed_registration heid hl hr).1, rfl, ht⟩⟩
  | updated hl hr _ _ _ _ ht =>
    exact ⟨rfl, rfl, .inl ⟨_, (refreshed_registration heid hl hr).1, rfl, ht⟩⟩
  | added hl ha ht =>
    obtain ⟨hfree, hstored⟩ := added_stored heid hl ha
    exact ⟨rfl, rfl, .inr ⟨hfree, hstored, ht⟩⟩

theorem Registers.accepted_other (h : Registers sp m b s s') (heid : m.eidPrefix = .ippref nw plen)
    (hne : k ≠ prefixKey nw plen) {a : Registration} :
    (a ∈ s'.accepted ∧ mdbKey a.record.eidPrefix = some k) ↔
      (a ∈ s.accepted ∧ mdbKey a.record.eidPrefix = some k) := by
  rw [h.accepted, mem_cons]
  refine ⟨?_, fun ⟨ha, hk⟩ => ⟨.inr ha, hk⟩⟩
  rintro ⟨rfl | ha, hk⟩
  · rw [heid] at hk
    exact absurd (some.inj hk).symm hne
  · exact ⟨ha, hk⟩

/-- The timer of a site registered under another prefix. -/
theorem SiteTimer.other (hT : SiteTimer s k r t n) (h : Registers sp m b s s')
    (heid : m.eidPrefix = .ippref nw plen) (hne : k ≠ prefixKey nw plen)
    (hptrs : s'.ts.ptrs r = s.ts.ptrs r) (hcell : s'.ts.timers.cell t = s.ts.timers.cell t)
    (hdue : s'.ts.wheel.DueAt s'.inTick s'.now t n) : SiteTimer s' k r t n := by
  refine ⟨hptrs.trans hT.listed, hcell.trans hT.cell, hdue, fun a ha hk => ?_, ?_⟩
  · obtain ⟨ha0, hk0⟩ := (h.accepted_other heid hne).mp ⟨ha, hk⟩
    exact hT.latest a ha0 hk0
  · obtain ⟨a, ha, hk, hn⟩ := hT.since
    obtain ⟨ha', hk'⟩ := (h.accepted_other heid hne).mpr ⟨ha, hk⟩
    exact ⟨a, ha', hk', hn⟩

/-- The timer of the site whose record was just accepted. -/
theorem SiteTimer.renewed (h : Registers sp m b s s') (heid : m.eidPrefix = .ippref nw plen)
    (hnow : s'.now = s.now) (htick : ∀ a ∈ s.accepted, a.tick ≤ s.now)
    (hlisted : s'.ts.ptrs r = some [t])
    (hcell : s'.ts.timers.cell t = some ⟨.REG_SITE_EXPRY_TIMER, r, none⟩)
    (hdue : s'.ts.wheel.DueAt s'.inTick s'.now t (s'.now + siteLifetime)) :
    SiteTimer s' (prefixKey nw plen) r t (s'.now + siteLifetime) := by
  have hacc := h.accepted
  refine ⟨hlisted, hcell, hdue, fun a ha _ => ?_, ⟨sp, m, b, s.now⟩, ?_, ?_, ?_⟩
  · rw [hacc, mem_cons] at ha
    rw [hnow]
    rcases ha with rfl | ha
    · exact Nat.le_refl _
    · exact Nat.add_le_add_right (htick a ha) _
  · rw [hacc]
    exact mem_cons_self
  · rw [heid]
    rfl
  · rw [hnow]

/-- `lsite_entry_update_expiration_timer` starts the one timer of the site anew. -/
theorem SiteTimer.update (hT : SiteTimer s k r t n) {ts : Timers Nat Nat}
    (h : lsiteEntryUpdateExpirationTimer s.ts r = .ok ts) :
    ts = { s.ts with wheel := insertTimer (s.ts.wheel.unlink t) t siteLifetime } := by
  have hfound : htablePtrsTimersGetTimersOfType s.ts r .REG_SITE_EXPRY_TIMER = .ok (some [t]) := by
    simp [htablePtrsTimersGetTimersOfType, hT.listed, timersOfType, Timers.deref, hT.cell, bind,
      Except.bind, pure, Except.pure]
  rw [lsiteEntryUpdateExpirationTimer, hfound] at h
  exact (lmtimerStart_spec h).2

/-- A site timer is started for less than a turn of the wheel. -/
theorem dueAt_siteLifetime {w : TimerWheel} (hw : w.currentSpoke < WHEEL_SIZE) :
    (insertTimer (w.unlink t) t siteLifetime).DueAt inTick now t (now + siteLifetime) := by
  have hfires : firesAfter inTick siteLifetime = siteLifetime :=
    (firesAfter_eq_iff (by decide)).mpr (.inl (by decide))
  have hdue : (insertTimer (w.unlink t) t siteLifetime).DueAt inTick now t
      (now + firesAfter inTick siteLifetime) := dueAt_start hw
  rw [hfires] at hdue
  exact hdue

/-- The clauses of the invariant about the history, after an accepted record. -/
theorem SiteTimers.accepted (hI : SiteTimers s) (h : Registers sp m b s s')
    (heid : m.eidPrefix = .ippref nw plen) (hnow : s'.now = s.now)
    (hst : ∀ k, s'.regSitesDb.stored k = none →
      k ≠ prefixKey nw plen ∧ s.regSitesDb.stored k = none) :
    (∀ a ∈ s'.accepted, a.tick ≤ s'.now) ∧
      ∀ k, s'.regSitesDb.stored k = none → ∀ a ∈ s'.accepted,
        mdbKey a.record.eidPrefix = some k → a.tick + siteLifetime ≤ s'.now := by
  refine ⟨fun a ha => ?_, fun k hk a ha hka => ?_⟩
  · rw [h.accepted, mem_cons] at ha
    rw [hnow]
    rcases ha with rfl | ha
    · exact Nat.le_refl _
    · exact hI.tick_le a ha
  · obtain ⟨hne, hfree⟩ := hst k hk
    obtain ⟨ha0, hk0⟩ := (h.accepted_other heid hne).mp ⟨ha, hka⟩
    rw [hnow]
    exact hI.gone k hfree a ha0 hk0

theorem SiteTimers.refreshed (hI : SiteTimers s) (h : Registers sp m b s s') (hw' : s'.Wf)
    (heid : m.eidPrefix = .ippref nw plen) (hin : s'.inTick = s.inTick) (hnow : s'.now = s.now)
    (hst : s.regSitesDb.stored (prefixKey nw plen) = some r) (hdb : s'.regSitesDb = s.regSitesDb)
    (hu : lsiteEntryUpdateExpirationTimer s.ts r = .ok s'.ts) : SiteTimers s' := by
  obtain ⟨t, n, hT⟩ := hI.owned _ r hst
  have hts := hT.update hu
  have hptrs : s'.ts.ptrs = s.ts.ptrs := by rw [hts]
  have hcells : s'.ts.timers = s.ts.timers := by rw [hts]
  obtain ⟨htick, hgone⟩ := hI.accepted h heid hnow fun k hk => by
    rw [hdb] at hk
    refine ⟨fun heq => ?_, hk⟩
    rw [heq, hst] at hk
    cases hk
  refine ⟨hw', by rw [hts]; exact hI.spoke, fun k i hi => ?_, fun j tm htm => ?_, fun i l hl => ?_,
    htick, hgone⟩
  · rw [hdb] at hi
    by_cases hk : k = prefixKey nw plen
    · subst hk
      rw [hst] at hi
      cases hi
      refine ⟨t, _, .renewed h heid hnow hI.tick_le ?_ ?_ ?_⟩
      · rw [hptrs, hT.listed]
      · rw [hcells, hT.cell]
      · rw [hts]
        exact dueAt_siteLifetime hI.spoke
    · obtain ⟨t', n', hT'⟩ := hI.owned k i hi
      have hne : i ≠ r := fun heq => hk (hI.wf.key_unique hst (heq ▸ hi))
      refine ⟨t', n', hT'.other h heid hk (by rw [hptrs]) (by rw [hcells]) ?_⟩
      rw [hts, hin, hnow]
      exact hT'.due.start_other (hT.timer_ne hT' hne)
  · rw [hcells] at htm
    rw [hdb, hptrs]
    exact hI.owner j tm htm
  · rw [hptrs] at hl
    rw [hdb]
    exact hI.listed i l hl

/-- What `lsite_entry_start_expiration_timer` does for a site without timers. -/
theorem lsiteEntryStartExpirationTimer_spec
    (h : lsiteEntryStartExpirationTimer ts r = .ok ts') (hnone : ts.ptrs r = none) :
    ts'.timers = ts.timers.alloc ⟨.REG_SITE_EXPRY_TIMER, r, none⟩ ∧
      (∀ i, ts'.ptrs i = if i = r then some [ts.timers.next] else ts.ptrs i) ∧
      ts'.wheel =
        insertTimer (ts.wheel.unlink ts.timers.next) ts.timers.next siteLifetime := by
  obtain ⟨-, rfl⟩ := lmtimerStart_spec h
  refine ⟨rfl, fun i => ?_, rfl⟩
  simp [htablePtrsTimersAdd, hnone]

theorem SiteTimers.added (hI : SiteTimers s) (h : Registers sp m b s s') (hw' : s'.Wf)
    (heid : m.eidPrefix = .ippref nw plen) (hin : s'.inTick = s.inTick) (hnow : s'.now = s.now)
    (hfree : s.regSitesDb.stored (prefixKey nw plen) = none)
    (hstored : ∀ k, s'.regSitesDb.stored k =
      if k = prefixKey nw plen then some s.rsites.next else s.regSitesDb.stored k)
    (hs : lsiteEntryStartExpirationTimer s.ts s.rsites.next = .ok s'.ts) : SiteTimers s' := by
  -- the new site has no timers yet: those that are listed belong to registered sites
  have hlive : ∀ k i, s.regSitesDb.stored k = some i → i ≠ s.rsites.next := by
    intro k i hi
    obtain ⟨rs, hrs, -⟩ := hI.wf k i hi
    exact Nat.ne_of_lt (lt_next hrs)
  have hnone : s.ts.ptrs s.rsites.next = none := by
    by_contra hsome
    obtain ⟨l, hl⟩ := ne_none_iff_exists'.mp hsome
    obtain ⟨k, hk⟩ := hI.listed _ l hl
    exact hlive k _ hk rfl
  have hkeep : ∀ k i, s.regSitesDb.stored k = some i → s'.regSitesDb.stored k = some i := by
    intro k i hi
    have hne : k ≠ prefixKey nw plen := fun heq => by
      rw [heq, hfree] at hi
      cases hi
    rw [hstored, if_neg hne, hi]
  obtain ⟨hcells, hptrs, hwheel⟩ := lsiteEntryStartExpirationTimer_spec hs hnone
  have hold : ∀ {i : Nat} {tm : Timer Nat}, s.ts.timers.cell i = some tm → i ≠ s.ts.timers.next :=
    fun hi => Nat.ne_of_lt (lt_next hi)
  obtain ⟨htick, hgone⟩ := hI.accepted h heid hnow fun k hk => by
    rw [hstored] at hk
    split_ifs at hk with heq
    exact ⟨heq, hk⟩
  refine ⟨hw', by rw [hwheel]; exact hI.spoke, fun k i hi => ?_, fun j tm htm => ?_,
    fun i l hl => ?_, htick, hgone⟩
  · rw [hstored] at hi
    split_ifs at hi with hk
    · cases hi
      subst hk
      refine ⟨s.ts.timers.next, _, .renewed h heid hnow hI.tick_le ?_ ?_ ?_⟩
      · rw [hptrs, if_pos rfl]
      · rw [hcells, alloc_cell, if_pos rfl]
      · rw [hwheel]
        exact dueAt_siteLifetime hI.spoke
    · obtain ⟨t', n', hT'⟩ := hI.owned k i hi
      refine ⟨t', n', hT'.other h heid hk ?_ ?_ ?_⟩
      · rw [hptrs, if_neg (hlive k i hi)]
      · rw [hcells, alloc_cell, if_neg (hold hT'.cell)]
      · rw [hwheel, hin, hnow]
        exact hT'.due.start_other (hold hT'.cell)
  · rw [hcells, alloc_cell] at htm
    split_ifs at htm with hj
    · cases htm
      refine ⟨prefixKey nw plen, by rw [hstored, if_pos rfl], ?_⟩
      rw [hptrs, if_pos rfl, hj]
    · obtain ⟨k, hk, hl⟩ := hI.owner j tm htm
      exact ⟨k, hkeep k _ hk, by rw [hptrs, if_neg (hlive k _ hk), hl]⟩
  · rw [hptrs] at hl
    split_ifs at hl with hi
    · exact ⟨prefixKey nw plen, by rw [hstored, if_pos rfl, hi]⟩
    · obtain ⟨k, hk⟩ := hI.listed i l hl
      exact ⟨k, hkeep k i hk⟩

theorem Registers.siteTimers (h : Registers sp m b s s') (heid : m.eidPrefix = .ippref nw plen)
    (hI : SiteTimers s) : SiteTimers s' := by
  obtain ⟨hw', -⟩ := h.registration hI.wf heid
  obtain ⟨hin, hnow, ⟨r, hst, hdb, hu⟩ | ⟨hfree, hstored, hs⟩⟩ := h.timers heid
  · exact hI.refreshed h hw' heid hin hnow hst hdb hu
  · exact hI.added h hw' heid hin hnow hfree hstored hs

end Records

/-! ## The wheel -/

section Wheel

variable {hmac : Hmac}

/-- A change of the wheel and the clock that keeps the deadlines. -/
theorem SiteTimers.of_wheel {wheel : TimerWheel} (hI : SiteTimers s)
    (hspoke : wheel.currentSpoke < WHEEL_SIZE) (hnow : s.now ≤ now)
    (hdue : ∀ t n, s.ts.wheel.DueAt s.inTick s.now t n → wheel.DueAt inTick now t n) :
    SiteTimers { s with ts := { s.ts with wheel := wheel }, inTick := inTick, now := now } := by
  refine ⟨hI.wf, hspoke, fun k r hst => ?_, hI.owner, hI.listed,
    fun a ha => Nat.le_trans (hI.tick_le a ha) hnow,
    fun k hk a ha hka => Nat.le_trans (hI.gone k hk a ha hka) hnow⟩
  obtain ⟨t, n, hT⟩ := hI.owned k r hst
  exact ⟨t, n, hT.listed, hT.cell, hdue t n hT.due, hT.latest, hT.since⟩

/-- A registration times out: its site is the one whose timer expires. -/
theorem SiteTimers.expired {tm : Timer Nat} {rs : LispRegSite}
    {o : Option Nat} {db : Mdb Nat} (hI : SiteTimers s)
    (hw' : MapServer.Wf { s with
      regSitesDb := db, ts := ts', rsites := s.rsites.free tm.cbArgument })
    (hin : s.inTick = true) (hv : handleTimersVisit s.ts = .expired t ts)
    (htm : ts.timers.cell t = some tm) (hr : s.rsites.cell tm.cbArgument = some rs)
    (hrm : mdbRemoveEntry s.regSitesDb rs.siteMap.eidPrefix = .ok (o, db))
    (hstop : stopTimersFromObj ts tm.cbArgument = .ok ts') :
    SiteTimers { s with
      regSitesDb := db, ts := ts', rsites := s.rsites.free tm.cbArgument } := by
  have hspec := handleTimersVisit_spec s.ts
  rw [hv] at hspec
  obtain ⟨hcur, rfl⟩ := hspec
  obtain ⟨k0, hst0, hlist0⟩ := hI.owner t tm htm
  obtain ⟨t0, n0, hT0⟩ := hI.owned k0 _ hst0
  -- the timer that expires is the one of the site
  obtain rfl : t0 = t := by
    have := hlist0.symm.trans hT0.listed
    simpa using this.symm
  have hnow : n0 = s.now := by
    have hdue := hT0.due
    rw [hin] at hdue
    exact hdue.eq_now hcur
  obtain ⟨rs0, hrs0, hkey0⟩ := hI.wf k0 _ hst0
  rw [hr] at hrs0
  cases hrs0
  have hdb : ∀ k, db.stored k = if k = k0 then none else s.regSitesDb.stored k := by
    obtain ⟨hnone, -⟩ | ⟨k, hk, -, hdb⟩ := mdbRemoveEntry_stored hrm
    · rw [hnone] at hkey0
      cases hkey0
    · cases hk.symm.trans hkey0
      exact hdb
  obtain ⟨hs, hptrs, -⟩ := stopTimersFromObj_spec hstop
  have hl : (s.ts.ptrs tm.cbArgument).getD [] = [t0] := by rw [hT0.listed, getD_some]
  rw [hl] at hs
  have hne : ∀ {k r}, k ≠ k0 → s.regSitesDb.stored k = some r → r ≠ tm.cbArgument :=
    fun hk hst heq => hk (hI.wf.key_unique hst0 (heq ▸ hst))
  have hback : ∀ k r, db.stored k = some r → k ≠ k0 ∧ s.regSitesDb.stored k = some r := by
    intro k r hst
    rw [hdb] at hst
    split_ifs at hst with hk
    exact ⟨hk, hst⟩
  refine ⟨hw', by dsimp only; rw [hs.spoke]; exact hI.spoke, fun k r hst => ?_,
    fun j tm' htm' => ?_,
    fun r l hl' => ?_, hI.tick_le, fun k hk a ha hka => ?_⟩
  · obtain ⟨hk, hst⟩ := hback k r hst
    obtain ⟨t', n', hT'⟩ := hI.owned k r hst
    have htne : t' ≠ t0 := hT0.timer_ne hT' (hne hk hst)
    refine ⟨t', n', ?_, ?_, ?_, hT'.latest, hT'.since⟩
    · rw [hptrs]
      dsimp only
      rw [if_neg (hne hk hst), hT'.listed]
    · rw [hs.cell, if_neg (by simpa using htne), hT'.cell]
    · refine (hT'.due.unlink_other htne).congr hs.spoke fun sp => ?_
      unfold TimerWheel.On
      rw [hs.links]
      simp only [mem_filter, mem_singleton]
      constructor
      · rintro ⟨l, ⟨hl, -⟩, hlt, hsp⟩
        exact ⟨l, hl, hlt, hsp⟩
      · rintro ⟨l, hl, hlt, hsp⟩
        exact ⟨l, ⟨hl, by simpa [hlt] using htne⟩, hlt, hsp⟩
  · rw [hs.cell] at htm'
    split_ifs at htm' with hj
    obtain ⟨k, hst, hlist⟩ := hI.owner j tm' htm'
    have hk : k ≠ k0 := by
      rintro rfl
      have harg : tm'.cbArgument = tm.cbArgument := some.inj (hst.symm.trans hst0)
      rw [harg, hT0.listed] at hlist
      exact hj (by rw [some.inj hlist]; simp)
    refine ⟨k, by rw [hdb, if_neg hk, hst], ?_⟩
    rw [hptrs]
    dsimp only
    rw [if_neg (hne hk hst), hlist]
  · rw [hptrs] at hl'
    dsimp only at hl'
    split_ifs at hl' with hr'
    obtain ⟨k, hst⟩ := hI.listed r l hl'
    have hk : k ≠ k0 := fun heq => hr' (some.inj ((heq ▸ hst).symm.trans hst0))
    exact ⟨k, by rw [hdb, if_neg hk, hst]⟩
  · rw [hdb] at hk
    split_ifs at hk with heq
    · subst heq
      exact hnow ▸ hT0.latest a ha hka
    · exact hI.gone k hk a ha hka

theorem MsEffect.siteTimers {e : MsEvent} (h : MsEffect hmac s e s') (hI : SiteTimers s) :
    SiteTimers s' := by
  cases h with
  | notDue => exact hI
  | mapRegister h =>
    obtain ⟨o, hl⟩ := msRecvMapRegister_records h
    refine registerRecords_keeps hl hI fun raw _ s1 m sp site s2 hI1 hmatch _ hr => ?_
    obtain ⟨hp, -⟩ := siteMatch_eq_some_iff.mp hmatch
    obtain ⟨_, _, nw, plen, -, -, -, heid, -⟩ := parseRegisterRecord_some hp
    exact hr.siteTimers heid hI1
  | ticked hin =>
    refine hI.of_wheel (Nat.mod_lt _ (by decide)) (Nat.le_succ _) fun t n hdue => ?_
    rw [hin] at hdue
    exact hdue.advance hI.spoke
  | spokeDone hv hin =>
    have hspec := handleTimersVisit_spec s.ts
    rw [hv] at hspec
    refine hI.of_wheel hI.spoke (Nat.le_refl _) fun t n hdue => ?_
    rw [hin] at hdue
    exact hdue.spokeDone hI.spoke hspec
  | rotated hv hin =>
    have hspec := handleTimersVisit_spec s.ts
    rw [hv] at hspec
    obtain ⟨g, hg, rfl⟩ := hspec
    exact hI.of_wheel hI.spoke (Nat.le_refl _) fun t n hdue =>
      hdue.congr rfl fun sp => on_rotated hg
  | expired hv htm hty hr hrm hstop hin =>
    have heff : MsEffect hmac s .wheel _ := .expired hv htm hty hr hrm hstop hin
    obtain ⟨hw', -⟩ := heff.registration hI.wf (fun _ hmsg => by cases hmsg)
    exact hI.expired hw' hin hv htm hr hrm hstop

end Wheel

/-! ## Runs -/

section Runs

variable {hmac : Hmac} {conf : MsConf}
  {ok : MapServer → MsEvent → Prop}

theorem Booted.siteTimers (h : Booted conf s) (hempty : conf.staticSites = []) : SiteTimers s := by
  have hnone : ∀ k r, s.regSitesDb.stored k ≠ some r := by
    intro k r hst
    obtain ⟨m, hm, -⟩ := h.stored k r hst
    rw [hempty] at hm
    cases hm
  refine ⟨h.wf, ?_, fun k r hst => absurd hst (hnone k r), ?_, ?_, ?_, ?_⟩
  · rw [h.ts]
    decide
  · intro t tm htm
    rw [h.ts] at htm
    cases htm
  · intro r l hl
    rw [h.ts] at hl
    cases hl
  · rw [h.accepted]
    simp
  · rw [h.accepted]
    simp

/-- In every run from an empty database: between events, a prefix is registered exactly when a
record for it was accepted fewer than 182 ticks ago; and at any time each registered site owns
exactly one running expiration timer. -/
theorem registered_iff_recent (hempty : conf.staticSites = []) (h : MsReach hmac conf ok s) :
    (s.inTick = false → ∀ k, (∃ r, s.regSitesDb.stored k = some r) ↔
      ∃ a ∈ s.accepted, mdbKey a.record.eidPrefix = some k ∧ s.now < a.tick + 182) ∧
    ∀ k r, s.regSitesDb.stored k = some r →
      ∃! t, s.ts.running t ∧ ∃ tm, s.ts.timers.cell t = some tm ∧
        tm.type = .REG_SITE_EXPRY_TIMER ∧ tm.cbArgument = r := by
  have hI : SiteTimers s :=
    MsReach.invariant_of (I := SiteTimers) (fun s hs => hs.booted.siteTimers hempty)
      (fun s e s' hI _ heff => heff.siteTimers hI) h
  refine ⟨fun hin k => ⟨?_, ?_⟩, fun k r hst => ?_⟩
  · rintro ⟨r, hst⟩
    obtain ⟨t, n, hT⟩ := hI.owned k r hst
    obtain ⟨a, ha, hka, hn⟩ := hT.since
    refine ⟨a, ha, hka, ?_⟩
    have hlt := hT.due.ahead.2 hin
    rw [← hn] at hlt
    exact hlt
  · rintro ⟨a, ha, hka, hlt⟩
    by_contra hnot
    have hnone : s.regSitesDb.stored k = none := by
      by_contra hsome
      exact hnot (ne_none_iff_exists'.mp hsome)
    exact absurd hlt (Nat.not_lt.mpr (hI.gone k hnone a ha hka))
  · obtain ⟨t, n, hT⟩ := hI.owned k r hst
    obtain ⟨sp, -, hall, -⟩ := hT.due
    obtain ⟨l, hl, hlt, -⟩ := (hall sp).mpr rfl
    refine ⟨t, ⟨⟨l, hl, hlt⟩, _, hT.cell, rfl, rfl⟩, ?_⟩
    rintro t' ⟨-, tm, htm, -, harg⟩
    obtain ⟨k', hst', hlist⟩ := hI.owner t' tm htm
    rw [harg, hT.listed] at hlist
    simpa using (some.inj hlist).symm

end Runs

/-- A tick of a Map-Server whose wheel has `n` timers on the spoke the tick comes to. -/
def labTick (n : Nat) : List MsEvent :=
  .tick :: List.replicate (n + 1) .wheel

/-- `10.0.0.0/8` registers at tick 0 and `11.1.0.0/16` at tick 1. After 182 ticks the first is gone
and the second is still there. -/
theorem registered_iff_recent_lab :
    ∃ s, MsReach labHmac labMsConf (fun _ _ => True) s ∧ s.inTick = false ∧ s.now = 182 ∧
      s.regSitesDb.stored (prefixKey (.v4 0x0a000000#32) 8) = none ∧
      s.regSitesDb.stored (prefixKey (.v4 0x0b010000#32) 16) = some 1 ∧
      (s.inTick = false → ∀ k, (∃ r, s.regSitesDb.stored k = some r) ↔
        ∃ a ∈ s.accepted, mdbKey a.record.eidPrefix = some k ∧ s.now < a.tick + 182) ∧
      ∀ k r, s.regSitesDb.stored k = some r →
        ∃! t, s.ts.running t ∧ ∃ tm, s.ts.timers.cell t = some tm ∧
          tm.type = .REG_SITE_EXPRY_TIMER ∧ tm.cbArgument = r := by
  have hrun : ∃ s, MsReach labHmac labMsConf (fun _ _ => True) s ∧ s.inTick = false ∧
      s.now = 182 ∧ s.regSitesDb.stored (prefixKey (.v4 0x0a000000#32) 8) = none ∧
      s.regSitesDb.stored (prefixKey (.v4 0x0b010000#32) 16) = some 1 :=
    MsReach.of_events labMsConf
      ([.mapRegister (labRegister labKeyA true [labSiteRecord 0x0a000000#32 8 10])] ++ labTick 0 ++
        [.mapRegister (labRegister labKeyAB true [labSiteRecord 0x0b010000#32 16 10])] ++
        (replicate 180 (labTick 0)).flatten ++ labTick 1)
      (by decide +kernel)
  obtain ⟨s, hs, hin, hnow, hgone, hstill⟩ := hrun
  exact ⟨s, hs, hin, hnow, hgone, hstill, registered_iff_recent rfl hs⟩

end Lispmob
