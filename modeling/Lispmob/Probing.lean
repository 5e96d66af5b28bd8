import Lispmob.EntryTimers
import Lispmob.Placeholders

/-!
# Probing timers

With probing on, every locator of an active entry is to have one running probing timer. Several
things take the timer of a locator away, or add a second one:

* a probe that cannot be sent is not repeated: `rloc_probing_cb` returns before it starts the timer;
* the answer to a probe stops the timer of its nonce and starts one for the locator it names, and
  nothing checks that the one was for the other;
* a Map-Reply without the probe bit stops the timer of its nonce, of whatever type it is;
* when a locator goes down and its entry is not found under its EID, the timer is not started again;
* a re-encapsulating router does not start the timers of the Proxy-ETRs.

`locators_probed` is the statement for the runs without these events, and `failed_probe_stops` is a
run in which a probe cannot be sent.
-/

namespace Lispmob

open List Option Heap

section Probing

variable {R F : Type} {W : World R F} {env : CtrlEnv} {s s' s0 s1 s2 s3 : Xtr R} {t e p : Nat}
  {X : Nat → Prop} {me : Mce R} {d ticks : Nat} {m : Mapping} {ts ts' : Timers TimerOwner TimerArg}
  {r : Ret} {conf : XtrConf R} {ptrs : List Nat} {ty : TimerType} {a : TimerArg} {i : Nat}

/-- The entry is in the map cache, or that of the Proxy-ETRs. -/
def InUse (s : Xtr R) (e : Nat) : Prop :=
  e = s.petrs ∨ ∃ k, s.mapCache.stored k = some e

/-- The entry `e` is in use and active, with these locators. -/
def HasLocators (s : Xtr R) (e : Nat) (ptrs : List Nat) : Prop :=
  InUse s e ∧ ∃ me, s.mces.cell e = some me ∧ me.active = .ACTIVE ∧
    me.mapping.locators.map (·.ptr) = ptrs

/-- There is one probing timer for the locator `p` of the entry `e`. -/
def OneProbe (ts : Timers TimerOwner TimerArg) (e p : Nat) : Prop :=
  ∃ t, ∀ t', ts.kind t' = some (.RLOC_PROBING_TIMER, .rlocProbe e p) ↔ t' = t

/-- Probing is on, all probing timers run, and every locator of an entry, those that meet `X`
excepted, has one. -/
structure ProbedOnce (X : Nat → Prop) (s : Xtr R) : Prop where
  on : s.probeInterval ≠ 0
  running : ∀ t e p, s.ts.kind t = some (.RLOC_PROBING_TIMER, .rlocProbe e p) → s.ts.running t
  once : ∀ e ptrs, ¬ X e → HasLocators s e ptrs → ∀ p ∈ ptrs, OneProbe s.ts e p

/-- From `s` to `s'` no entry comes into use and no locator is added, no probing timer is started or
unlinked, and only those of entries that are not in use any more are released. -/
structure ProbingKept (s s' : Xtr R) : Prop where
  on : s'.probeInterval = s.probeInterval
  old : ∀ t e p, s'.ts.kind t = some (.RLOC_PROBING_TIMER, .rlocProbe e p) →
    s.ts.kind t = some (.RLOC_PROBING_TIMER, .rlocProbe e p) ∧ (s.ts.running t → s'.ts.running t)
  kept : ∀ e ptrs, HasLocators s' e ptrs → HasLocators s e ptrs ∧ ∀ t p,
    s.ts.kind t = some (.RLOC_PROBING_TIMER, .rlocProbe e p) →
      s'.ts.kind t = some (.RLOC_PROBING_TIMER, .rlocProbe e p)

theorem ProbingKept.trans (h1 : ProbingKept s1 s2) (h2 : ProbingKept s2 s3) :
    ProbingKept s1 s3 := by
  refine ⟨h2.on.trans h1.on, fun t e p hk => ?_, fun e ptrs he => ?_⟩
  · obtain ⟨hk2, hr2⟩ := h2.old t e p hk
    obtain ⟨hk1, hr1⟩ := h1.old t e p hk2
    exact ⟨hk1, fun hr => hr2 (hr1 hr)⟩
  · obtain ⟨he2, hk2⟩ := h2.kept e ptrs he
    obtain ⟨he1, hk1⟩ := h1.kept e ptrs he2
    exact ⟨he1, fun t p hk => hk2 t p (hk1 t p hk)⟩

theorem ProbingKept.probedOnce (h : ProbingKept s s') (hP : ProbedOnce X s) : ProbedOnce X s' := by
  refine ⟨by rw [h.on]; exact hP.on, fun t e p hk => ?_, fun e ptrs hX he p hp => ?_⟩
  · obtain ⟨hk, hr⟩ := h.old t e p hk
    exact hr (hP.running t e p hk)
  · obtain ⟨he, hkept⟩ := h.kept e ptrs he
    obtain ⟨t, ht⟩ := hP.once e ptrs hX he p hp
    refine ⟨t, fun t' => ⟨fun hk => (ht t').mp (h.old t' e p hk).1, fun heq => ?_⟩⟩
    exact hkept t' p ((ht t').mpr heq)

/-! ## Effects -/

/-- An effect on the timers alone that releases, starts and unlinks no probing timer. -/
theorem ProbingKept.of_ts (hrest : s' = { s with ts := s'.ts, nonceCalls := s'.nonceCalls })
    (hkind : ∀ t e p, s'.ts.kind t = some (.RLOC_PROBING_TIMER, .rlocProbe e p) ↔
      s.ts.kind t = some (.RLOC_PROBING_TIMER, .rlocProbe e p))
    (hrun : ∀ t e p, s.ts.kind t = some (.RLOC_PROBING_TIMER, .rlocProbe e p) →
      s.ts.running t → s'.ts.running t) : ProbingKept s s' := by
  refine ⟨by rw [hrest], fun t e p hk => ⟨(hkind t e p).mp hk, hrun t e p ((hkind t e p).mp hk)⟩,
    fun e ptrs he => ⟨?_, fun t p => (hkind t e p).mpr⟩⟩
  rw [hrest] at he
  exact he

theorem Idle.probingKept (h : Idle W s s') : ProbingKept s s' := by
  refine ⟨by rw [h.rest], fun t e p hk => ?_, fun e ptrs he => ?_⟩
  · rw [h.kind] at hk
    refine ⟨hk, ?_⟩
    rintro ⟨l, hl, hlt⟩
    exact ⟨l, (h.links l).mpr hl, hlt⟩
  · obtain ⟨huse, me, hme, hact, hptrs⟩ := he
    have hpetrs : s'.petrs = s.petrs := by rw [h.rest]
    refine ⟨⟨?_, me, by rw [← h.cells, hme], hact, hptrs⟩, fun t p hk => by rw [h.kind, hk]⟩
    rcases huse with huse | ⟨k, hk⟩
    · exact .inl (hpetrs ▸ huse)
    · exact .inr ⟨k, by rw [← h.stored, hk]⟩

theorem LocalOnly.probingKept (h : LocalOnly W s s') (hw : s.Wf) : ProbingKept s s' := by
  have hsame := h.entries hw.timers hw.smr
  refine ⟨by rw [h.rest], fun t e p hk => ?_, fun e ptrs he => ⟨?_, fun t p hk => ?_⟩⟩
  · have hold := (hsame.kind t _ _ e rfl).mp hk
    refine ⟨hold, ?_⟩
    rintro ⟨l, hl, rfl⟩
    exact ⟨l, (hsame.links l _ _ e hold rfl).mpr hl, rfl⟩
  · rw [h.rest] at he
    exact he
  · exact (hsame.kind t _ _ e rfl).mpr hk

theorem Touched.hasLocators (h : Touched W s s') (he : HasLocators s' e ptrs) :
    HasLocators s e ptrs := by
  obtain ⟨huse, me', hme', hact, hptrs⟩ := he
  obtain ⟨me, hme, hshape⟩ := h.back e me' hme'
  refine ⟨?_, me, hme, hshape.entry.active ▸ hact, hshape.ptrs ▸ hptrs⟩
  rw [h.rest] at huse
  exact huse

theorem Touched.probingKept (h : Touched W s s') : ProbingKept s s' := by
  have hts : s'.ts = s.ts := by rw [h.rest]
  refine ⟨by rw [h.rest], fun t e p hk => ?_, fun e ptrs he => ⟨h.hasLocators he, fun t p hk => ?_⟩⟩
  · rw [hts] at hk ⊢
    exact ⟨hk, id⟩
  · rw [hts]
    exact hk

theorem EntryCreated.hasLocators (h : EntryCreated s s' me)
    (hne : e ≠ s.mces.next) (he : HasLocators s' e ptrs) : HasLocators s e ptrs := by
  obtain ⟨huse, mi, hmi, hact, hptrs⟩ := he
  rw [h.cell, if_neg hne] at hmi
  refine ⟨?_, mi, hmi, hact, hptrs⟩
  rcases huse with huse | ⟨k, hk⟩
  · left
    rw [huse, h.rest]
  · obtain hold | ⟨hnew, -⟩ := h.stored_cases hk
    · exact .inr ⟨k, hold⟩
    · exact absurd hnew hne

theorem EntryCreated.probingKept (h : EntryCreated s s' me) (hplace : me.active = .NOT_ACTIVE) :
    ProbingKept s s' := by
  have hts : s'.ts = s.ts := by rw [h.rest]
  refine ⟨by rw [h.rest], fun t e p hk => ?_, fun e ptrs he => ⟨?_, fun t p hk => ?_⟩⟩
  · rw [hts] at hk ⊢
    exact ⟨hk, id⟩
  · refine h.hasLocators ?_ he
    rintro rfl
    obtain ⟨-, mi, hmi, hact, -⟩ := he
    rw [h.new] at hmi
    cases hmi
    rw [hplace] at hact
    cases hact
  · rw [hts]
    exact hk

theorem EntryCreated.probedOnce (h : EntryCreated s s' me) (hP : ProbedOnce X s) :
    ProbedOnce (fun i => X i ∨ i = s.mces.next) s' := by
  have hts : s'.ts = s.ts := by rw [h.rest]
  refine ⟨?_, fun t e p hk => ?_, fun e ptrs hX he p hp => ?_⟩
  · rw [h.rest]
    exact hP.on
  · rw [hts] at hk ⊢
    exact hP.running t e p hk
  · obtain ⟨hX, hne⟩ := not_or.mp hX
    rw [hts]
    exact hP.once e ptrs hX (h.hasLocators hne he) p hp

/-- An entry with other locators, which are not probed yet. -/
theorem Edited.probedOnce {me me' : Mce R} (h : Edited W s s' e me me') (hP : ProbedOnce X s) :
    ProbedOnce (fun i => X i ∨ i = e) s' := by
  have hts : s'.ts = s.ts := by rw [h.rest]
  refine ⟨?_, fun t e p hk => ?_, fun i ptrs hX hi p hp => ?_⟩
  · rw [h.rest]
    exact hP.on
  · rw [hts] at hk ⊢
    exact hP.running t e p hk
  · obtain ⟨hX, hne⟩ := not_or.mp hX
    obtain ⟨huse, mi, hmi, hact, hptrs⟩ := hi
    rw [h.cells, if_neg hne] at hmi
    rw [hts]
    refine hP.once i ptrs hX ⟨?_, mi, hmi, hact, hptrs⟩ p hp
    rw [h.rest] at huse
    exact huse

theorem Removed.probingKept {k : MdbKey} (h : Removed W s s' k d) : ProbingKept s s' := by
  refine ⟨by rw [h.rest], fun t e p hk => ?_, fun e ptrs he => ?_⟩
  · obtain ⟨hold, hnot⟩ := (h.released.kind t _).mp hk
    exact ⟨hold, fun hr => h.released.running.mpr ⟨hr, hnot⟩⟩
  · obtain ⟨huse, me, hme, hact, hptrs⟩ := he
    rw [h.mces, free_cell] at hme
    split_ifs at hme with hed
    refine ⟨⟨?_, me, hme, hact, hptrs⟩, fun t p hk => (h.released.kind t _).mpr ⟨hk, ?_⟩⟩
    · rcases huse with huse | ⟨k', hk'⟩
      · left
        rw [huse, h.rest]
      · rw [h.stored] at hk'
        split_ifs at hk'
        exact .inr ⟨k', hk'⟩
    · rintro ⟨ty, a, hk', hd⟩
      rw [hk] at hk'
      cases hk'
      exact hed (some.inj hd)

theorem Listed.probingKept (h : Listed W s s' ty a)
    (hty : ty ≠ .RLOC_PROBING_TIMER) : ProbingKept s s' := by
  refine .of_ts (by rw [h.rest]) (fun t e p => ?_) fun t e p _ hr => ?_
  · rw [h.kind]
    split_ifs with ht
    · rw [Timers.Evolves.kind_of_le (Nat.le_of_eq ht.symm)]
      simp [hty]
    · rfl
  · rw [Timers.running, h.wheel]
    exact hr

theorem TimerStopped.probingKept (h : TimerStopped W s s' t) (hw : s.Wf)
    (hty : ∀ e p, s.ts.kind t ≠ some (.RLOC_PROBING_TIMER, .rlocProbe e p)) : ProbingKept s s' := by
  have hrel := h.released hw.timers
  have hne : ∀ i e p, s.ts.kind i = some (.RLOC_PROBING_TIMER, .rlocProbe e p) → i ≠ t := by
    rintro i e p hk rfl
    exact hty e p hk
  refine .of_ts (by rw [h.rest]) (fun i e p => ?_) fun i e p hk hr => ?_
  · rw [hrel.kind]
    exact ⟨And.left, fun hk => ⟨hk, hne i e p hk⟩⟩
  · exact hrel.running.mpr ⟨hr, hne i e p hk⟩

theorem ProbingKept.of_relinked (h : Relinked s.ts s'.ts t ticks)
    (hrest : s' = { s with ts := s'.ts, nonceCalls := s'.nonceCalls }) : ProbingKept s s' :=
  .of_ts hrest (fun i e p => by rw [h.kind]) fun i e p _ hr => h.running.mpr (.inr hr)

/-! ## New timers -/

/-- One of the timers to start is for the locator. -/
def OneStart (new : List (TimerType × TimerArg × Nat)) (e p : Nat) : Prop :=
  ∃ j : Nat, ∀ j' : Nat,
    (∃ ticks : Nat, new[j']? = some (.RLOC_PROBING_TIMER, .rlocProbe e p, ticks)) ↔ j' = j

theorem probeTimers_oneStart (i : Int) (hnodup : (m.locators.map (·.ptr)).Nodup)
    (hp : p ∈ m.locators.map (·.ptr)) : OneStart (probeTimers e i m) e p := by
  obtain ⟨j, hj, hjp⟩ := mem_iff_getElem.mp hp
  have hptr : ∀ j' : Nat, (∃ ticks : Nat, (probeTimers e i m)[j']? =
      some (.RLOC_PROBING_TIMER, .rlocProbe e p, ticks)) ↔
        (m.locators.map (·.ptr))[j']? = some p := by
    intro j'
    simp only [probeTimers, getElem?_map, map_eq_some_iff, Prod.mk.injEq,
      TimerArg.rlocProbe.injEq, true_and]
    constructor
    · rintro ⟨ticks, l, hl, hlp, -⟩
      exact ⟨l, hl, hlp⟩
    · rintro ⟨l, hl, hlp⟩
      exact ⟨_, l, hl, hlp, rfl⟩
  refine ⟨j, fun j' => (hptr j').trans ⟨fun h => ?_, ?_⟩⟩
  · refine ((getElem?_inj hj hnodup).mp ?_).symm
    rw [getElem?_eq_getElem hj, hjp, h]
  · rintro rfl
    rw [getElem?_eq_getElem hj, hjp]

/-- Starting timers, of which one is for the locator, when there was none. -/
theorem Grown.oneProbe {new : List (TimerType × TimerArg × Nat)} (h : Grown ts ts' new)
    (hnone : ∀ t, ts.kind t ≠ some (.RLOC_PROBING_TIMER,
      .rlocProbe e p)) (hone : OneStart new e p) : OneProbe ts' e p := by
  obtain ⟨j, hj⟩ := hone
  refine ⟨ts.timers.next + j, fun t => ⟨fun hk => ?_, ?_⟩⟩
  · rw [h.kind] at hk
    split_ifs at hk with hlt
    · exact absurd hk (hnone t)
    · obtain ⟨⟨ty, a, ticks⟩, hx, heq⟩ := map_eq_some_iff.mp hk
      obtain ⟨rfl, rfl⟩ := Prod.mk.inj heq
      have := (hj _).mp ⟨ticks, hx⟩
      omega
  · rintro rfl
    obtain ⟨ticks, hx⟩ := (hj j).mpr rfl
    rw [h.kind, if_neg (by omega), Nat.add_sub_cancel_left, hx, map_some]

/-- The probing timers of other entries when timers of one entry are started. -/
theorem Grown.oneProbe_other {new : List (TimerType × TimerArg × Nat)}
    (h : Grown ts ts' new) (hnew : ∀ x ∈ new, x.2.1.entry = some e) (hne : i ≠ e)
    (hone : OneProbe ts i p) : OneProbe ts' i p := by
  obtain ⟨t, ht⟩ := hone
  refine ⟨t, fun t' => Iff.trans ⟨fun hk => ?_, fun hk => ?_⟩ (ht t')⟩
  · obtain hk | ⟨-, y, hy, heq⟩ := h.kind_cases hk
    · exact hk
    · have hent := hnew y hy
      rw [show y.2.1 = .rlocProbe i p from congrArg Prod.snd heq] at hent
      exact absurd (some.inj hent) hne
  · rw [h.kind, if_pos (Grown.lt_next_of_kind hk), hk]

theorem Grown.probes_running {new : List (TimerType × TimerArg × Nat)} (h : Grown ts ts' new)
    (hrun : ∀ t e p, ts.kind t = some (.RLOC_PROBING_TIMER, .rlocProbe e p) → ts.running t)
    (hk : ts'.kind t = some (.RLOC_PROBING_TIMER, .rlocProbe e p)) : ts'.running t := by
  obtain hold | ⟨hle, -⟩ := h.kind_cases hk
  · exact h.running.mpr (.inl (hrun t e p hold))
  · exact h.running.mpr (.inr ⟨hle, Grown.lt_next_of_kind hk⟩)

/-- `program_mce_rloc_probing` gives every locator of the entry a timer. -/
theorem Reprobed.probedOnce (h : Reprobed W s s' e)
    (hnodup : ∀ me, s.mces.cell e = some me → (me.mapping.locators.map (·.ptr)).Nodup)
    (hP : ProbedOnce (fun i => X i ∨ i = e) s) : ProbedOnce X s' := by
  obtain ⟨ts, me, hme, hrel, hgrown⟩ := h.on hP.on
  have hon : s'.probeInterval ≠ 0 := by
    rw [h.rest]
    exact hP.on
  have hrun : ∀ t e p, ts.kind t = some (.RLOC_PROBING_TIMER, .rlocProbe e p) → ts.running t := by
    intro t e p hk
    obtain ⟨hold, hnot⟩ := (hrel.kind t _).mp hk
    exact hrel.running.mpr ⟨hP.running t e p hold, hnot⟩
  refine ⟨hon, fun t e p hk => hgrown.probes_running hrun hk, fun i ptrs hX hi p hp => ?_⟩
  have hi0 : HasLocators s i ptrs := by
    rw [h.rest] at hi
    exact hi
  by_cases hie : i = e
  · subst hie
    -- the old timers of the entry are stopped, and each locator gets a new one
    obtain ⟨-, me', hme', -, hptrs⟩ := hi0
    cases hme.symm.trans hme'
    refine hgrown.oneProbe (fun t hk => ?_) (probeTimers_oneStart _ (hnodup me hme) (hptrs ▸ hp))
    obtain ⟨hold, hnot⟩ := (hrel.kind t _).mp hk
    exact hnot ⟨_, hold, rfl⟩
  · obtain ⟨t, ht⟩ := hP.once i ptrs (fun h => h.elim hX hie) hi0 p hp
    refine hgrown.oneProbe_other (e := e) (fun x hx => ?_) hie ⟨t, fun t' => ?_⟩
    · obtain ⟨l, -, rfl⟩ := mem_map.mp hx
      rfl
    · rw [hrel.kind, ht, and_iff_left_iff_imp]
      rintro rfl ⟨a, hk, ha⟩
      rw [(ht t').mpr rfl] at hk
      cases hk
      exact hie (some.inj ha)

theorem Added.probedOnce (h : Added W s s' m) (hw : s.Wf) (hnodup : (m.locators.map (·.ptr)).Nodup)
    (hP : ProbedOnce X s) : ProbedOnce X s' := by
  obtain ⟨info, hc⟩ := h.created
  have hP1 := hc.probedOnce hP
  have hgrown := h.grown
  have hon : s'.probeInterval ≠ 0 := by
    rw [h.rest]
    exact hP.on
  refine ⟨hon, fun t e p hk => hgrown.probes_running hP.running hk, fun i ptrs hX hi p hp => ?_⟩
  have hi1 : HasLocators { s' with ts := s.ts } i ptrs := hi
  by_cases hin : i = s.mces.next
  · subst hin
    obtain ⟨-, me, hme, -, hptrs⟩ := hi1
    rw [hc.new] at hme
    cases hme
    rw [if_neg hP.on] at hgrown
    obtain ⟨j, hj⟩ := probeTimers_oneStart (e := s.mces.next) s.probeInterval hnodup (hptrs ▸ hp)
    refine hgrown.oneProbe (fun t hk => Nat.lt_irrefl _ (hw.no_timer hk rfl)) ⟨j + 1, fun j' => ?_⟩
    -- the first new timer is the expiration timer
    cases j' with
    | zero => simp
    | succ j' =>
      rw [getElem?_cons_succ, hj]
      omega
  · refine hgrown.oneProbe_other (fun x hx => (mem_entryTimers hx).1) hin ?_
    exact hP1.once i ptrs (fun h => h.elim hX hin) hi1 p hp

theorem StartedFor.probingKept (h : StartedFor W s s' ty a ticks)
    (hw : s.Wf) (hty : ty ≠ .RLOC_PROBING_TIMER) : ProbingKept s s' := by
  have hgrown := h.grown hw.timers
  refine .of_ts (by rw [h.rest]) (fun t e p => ⟨fun hk => ?_, fun hk => ?_⟩) fun t e p _ hr => ?_
  · obtain hk | ⟨-, y, hy, heq⟩ := hgrown.kind_cases hk
    · exact hk
    · rw [mem_singleton.mp hy] at heq
      exact absurd (congrArg Prod.fst heq) hty
  · rw [hgrown.kind, if_pos (Grown.lt_next_of_kind hk), hk]
  · exact hgrown.running.mpr (.inl hr)

/-- The answer to a probe: a new timer for the locator, and its old one is stopped. -/
theorem StartedFor.replaces (h : StartedFor W s1 s2 .RLOC_PROBING_TIMER (.rlocProbe d p) ticks)
    (hstop : TimerStopped W s2 s' t) (hw₁ : s1.Wf) (hw₂ : s2.Wf)
    (hk : s1.ts.kind t = some (.RLOC_PROBING_TIMER, .rlocProbe d p)) (hP : ProbedOnce X s1) :
    ProbedOnce X s' := by
  have hgrown := h.grown hw₁.timers
  have hrel := hstop.released hw₂.timers
  have hlt := Grown.lt_next_of_kind hk
  have hon : s'.probeInterval ≠ 0 := by
    rw [hstop.rest, h.rest]
    exact hP.on
  -- the kinds of the timers afterwards
  have hkind : ∀ i x, s'.ts.kind i = some x ↔
      i ≠ t ∧ (s1.ts.kind i = some x ∨
        (i = s1.ts.timers.next ∧ x = (.RLOC_PROBING_TIMER, .rlocProbe d p))) := by
    intro i x
    rw [hrel.kind, and_comm]
    refine and_congr_right fun _ => ⟨fun hx => ?_, ?_⟩
    · rw [hgrown.kind] at hx
      split_ifs at hx with hi
      · exact .inl hx
      · obtain ⟨y, hy, rfl⟩ := map_eq_some_iff.mp hx
        obtain ⟨hlen, rfl⟩ := List.getElem?_eq_some_iff.mp hy
        rw [length_singleton] at hlen
        have hzero : i - s1.ts.timers.next = 0 := by omega
        refine .inr ⟨by omega, ?_⟩
        simp only [hzero, getElem_cons_zero]
    · rintro (hx | ⟨rfl, rfl⟩)
      · rw [hgrown.kind, if_pos (Grown.lt_next_of_kind hx), hx]
      · rw [hgrown.kind, if_neg (Nat.lt_irrefl _), Nat.sub_self]
        rfl
  refine ⟨hon, fun i e q hi => ?_, fun e ptrs hX he q hq => ?_⟩
  · obtain ⟨hold, hne⟩ := (hrel.kind i _).mp hi
    exact hrel.running.mpr ⟨hgrown.probes_running hP.running hold, hne⟩
  · have he1 : HasLocators s1 e ptrs := by
      rw [hstop.rest, h.rest] at he
      exact he
    obtain ⟨t0, ht0⟩ := hP.once e ptrs hX he1 q hq
    by_cases hsame : e = d ∧ q = p
    · obtain ⟨rfl, rfl⟩ := hsame
      have htt : t = t0 := (ht0 t).mp hk
      refine ⟨s1.ts.timers.next, fun i => (hkind i _).trans ⟨?_, ?_⟩⟩
      · rintro ⟨hne, hx | ⟨rfl, -⟩⟩
        · exact absurd (((ht0 i).mp hx).trans htt.symm) hne
        · rfl
      · rintro rfl
        exact ⟨Nat.ne_of_gt hlt, .inr ⟨rfl, rfl⟩⟩
    · refine ⟨t0, fun i => Iff.trans ((hkind i _).trans ⟨?_, fun hx => ⟨?_, .inl hx⟩⟩) (ht0 i)⟩
      · rintro ⟨-, hx | ⟨-, heq⟩⟩
        · exact hx
        · cases heq
          exact absurd ⟨rfl, rfl⟩ hsame
      · rintro rfl
        rw [hk] at hx
        cases hx
        exact hsame ⟨rfl, rfl⟩

/-! ## Callbacks -/

theorem trMcacheRemoveEntry_probingKept (W : World R F) (hw : s.Wf)
    (h : (trMcacheRemoveEntry e).run s = .ok (r, s')) : ProbingKept s s' := by
  obtain ⟨me, -, ⟨k, d, -, hrem⟩ | ⟨-, hidle⟩⟩ := trMcacheRemoveEntry_cases (W := W) hw h
  · exact hrem.probingKept
  · exact hidle.probingKept

theorem Refired.probingKept (h : Refired W s s' t) : ProbingKept s s' := by
  obtain ⟨ticks, hr⟩ := h.relinked
  rw [h.rest]
  exact .of_relinked hr rfl

theorem Handled.probingKept (h : Handled W t s s') (hw : s.Wf) : ProbingKept s s' := by
  cases h with
  | idle h => exact h.probingKept
  | touched h => exact h.probingKept
  | refired ht h => exact ht.probingKept.trans h.probingKept
  | removed h => exact trMcacheRemoveEntry_probingKept W hw h

theorem unlink_running (hne : i ≠ t) (hr : ts.running i) :
    ({ ts with wheel := ts.wheel.unlink t } : Timers _ _).running i := by
  obtain ⟨l, hl, rfl⟩ := hr
  exact ⟨l, mem_filter.mpr ⟨hl, by simpa using hne⟩, rfl⟩

theorem ProbingKept.of_refired
    (h : Relinked { s.ts with wheel := s.ts.wheel.unlink t } s'.ts t ticks)
    (hon : s'.probeInterval = s.probeInterval)
    (hloc : ∀ e ptrs, HasLocators s' e ptrs → HasLocators s e ptrs) : ProbingKept s s' := by
  refine ⟨hon, fun i e p hk => ?_, fun e ptrs he => ⟨hloc e ptrs he, fun i p hk => ?_⟩⟩
  · rw [h.kind] at hk
    refine ⟨hk, fun hr => h.running.mpr ?_⟩
    by_cases hi : i = t
    · exact .inl hi
    · exact .inr (unlink_running hi hr)
  · rw [h.kind]
    exact hk

/-! ## Steps -/

/-- If the timer is a probing timer with probes left, the probe can be sent, and otherwise the entry
is found under its EID. -/
def ProbeReady (W : World R F) (env : CtrlEnv) (s : Xtr R) (t : Nat) : Prop :=
  match s.ts.kind t with
  | some (.RLOC_PROBING_TIMER, .rlocProbe e loc) => ∀ me ∈ s.mces.cell e,
      ∀ loct ∈ me.mapping.locators.find? (·.ptr = loc),
        (s.ts.sent t - 1 < s.probeRetries → rlocProbing W env loct = true) ∧
        (¬ s.ts.sent t - 1 < s.probeRetries → loct.state = .UP → e ≠ s.petrs →
          (mdbLookupEntryExact s.mapCache me.mapping.eidPrefix).toOption ≠ some none)
  | _ => True

instance (t : Nat) (W : World R F) (env : CtrlEnv) (s : Xtr R) :
    Decidable (ProbeReady W env s t) := by
  unfold ProbeReady
  split <;> infer_instance

theorem rlocProbingCb_probingKept {loc : Nat}
    (hk : s.ts.kind t = some (.RLOC_PROBING_TIMER, .rlocProbe e loc))
    (hready : ProbeReady W env s t)
    (h : (rlocProbingCb W env t e loc).run
      { s with ts := { s.ts with wheel := s.ts.wheel.unlink t } } = .ok (r, s')) :
    ProbingKept s s' := by
  obtain ⟨me, loct, hme, hloct, hcases⟩ := rlocProbingCb_cases h
  rw [ProbeReady, hk] at hready
  obtain ⟨hsendable, hfound⟩ := hready me hme loct hloct
  obtain ⟨hsent, hsend, hre⟩ | ⟨hsent, hsend, -⟩ | ⟨hsent, s1, ht, hend⟩ := hcases
  · have hr := hre.relinked
    obtain ⟨_, _, -, -, rfl⟩ := hre
    exact .of_refired hr rfl fun _ _ he => he
  · rw [hsendable hsent] at hsend
    cases hsend
  · rcases hend with hres | ⟨hup, hne, hnone, -⟩
    · have hr := hres.relinked
      obtain ⟨_, _, -, -, rfl⟩ := hres
      rw [show s1.ts = { s.ts with wheel := s.ts.wheel.unlink t } by rw [ht.rest]] at hr
      refine .of_refired hr ?_ fun i ptrs hi => ht.hasLocators hi
      rw [ht.rest]
    · exact absurd (congrArg Except.toOption hnone) (hfound hsent hup hne)

theorem timerCb_probingKept {u : Unit} (hw : s.Wf) (hready : ProbeReady W env s t)
    (h : (timerCb W env t).run { s with ts := { s.ts with wheel := s.ts.wheel.unlink t } } =
      .ok (u, s')) : ProbingKept s s' := by
  have hw1 : ({ s with ts := { s.ts with wheel := s.ts.wheel.unlink t } } : Xtr R).Wf :=
    (wheel_safe (W := W) (fun hw => hw.unlink) hw).1
  have hunlink : (∀ e p, s.ts.kind t ≠ some (.RLOC_PROBING_TIMER, .rlocProbe e p)) →
      ProbingKept s { s with ts := { s.ts with wheel := s.ts.wheel.unlink t } } := by
    refine fun hty => .of_ts rfl (fun _ _ _ => Iff.rfl) fun i e p hk hr => unlink_running ?_ hr
    rintro rfl
    exact hty e p hk
  obtain ⟨e, hk, r, h⟩ | ⟨e, src, hk, r, h⟩ | ⟨e, src, hk, r, h⟩ | ⟨e, loc, hk, r, h⟩ |
    ⟨⟨ty, a, hk, ha⟩, h⟩ := timerCb_cases h
  · refine (hunlink fun i p hki => ?_).trans (trMcacheRemoveEntry_probingKept W hw1 h)
    cases hk.symm.trans hki
  · refine (hunlink fun i p hki => ?_).trans ((sendMapRequestRetryCb_handled h).probingKept hw1)
    cases hk.symm.trans hki
  · refine (hunlink fun i p hki => ?_).trans ((smrInvokedMapRequestCb_handled h).probingKept hw1)
    cases hk.symm.trans hki
  · exact rlocProbingCb_probingKept hk hready h
  · refine (hunlink fun i p hki => ?_).trans (h.probingKept hw1)
    cases hk.symm.trans hki
    cases ha

/-- The entry an answer to a probe with this EID is taken to be about. -/
def probeTarget (s : Xtr R) (eid : LispAddr) : Option Nat :=
  match (mdbLookupEntryExact s.mapCache eid).toOption with
  | some (some d) => some d
  | some none => (s.mces.cell s.petrs).bind fun mp =>
      if lispAddrCmp eid mp.mapping.eidPrefix = 0 then some s.petrs else none
  | none => none

theorem ProbeTarget.eq {eid : LispAddr} {o : Option Nat} (h : ProbeTarget s eid o) :
    probeTarget s eid = o := by
  rcases h with ⟨d, hd, rfl⟩ | ⟨hnone, mp, hmp, rfl⟩
  · rw [probeTarget, hd]
    rfl
  · rw [probeTarget, hnone]
    simp only [Except.toOption, hmp, bind_some]

/-- The entry and the locator an answer to a probe is taken to be about. -/
def answeredLocator (s : Xtr R) (msg : MapReplyMsg) (ra : LispAddr) :
    Option (Nat × Option Locator) := do
  let p ← (lispMsgParseMappingRecord s.nextLoct .uninit (msg.records.getD 0 .malformed)).toOption
  let addr ← (probedAddress p ra).toOption
  let d ← probeTarget s p.m.eidPrefix
  let me ← s.mces.cell d
  let o ← (mappingGetLoctWithAddr me.mapping addr).toOption
  return (d, o)

/-- The timer is that of the locator `o` of the entry `d`, or no probing timer if there is no such
locator. -/
def ProbeTimerOf (s : Xtr R) (t d : Nat) : Option Locator → Prop
  | some loct => s.ts.kind t = some (.RLOC_PROBING_TIMER, .rlocProbe d loct.ptr)
  | none => ∀ x ∈ s.ts.kind t, x.1 ≠ .RLOC_PROBING_TIMER

instance (s : Xtr R) (t d : Nat) : ∀ o, Decidable (ProbeTimerOf s t d o)
  | some _ => inferInstanceAs (Decidable (_ = _))
  | none => inferInstanceAs (Decidable (∀ x ∈ _, _))

/-- The answer to a probe carries a nonce of the timer of the locator it is about. -/
def ProbeMatches (s : Xtr R) (msg : MapReplyMsg) (ra : LispAddr) : Prop :=
  ∀ t ∈ s.ts.nonces msg.nonce, ∀ x ∈ answeredLocator s msg ra, ProbeTimerOf s t x.1 x.2

instance (s : Xtr R) (msg : MapReplyMsg) (ra : LispAddr) : Decidable (ProbeMatches s msg ra) :=
  inferInstanceAs (Decidable (∀ t ∈ _, _))

/-- Probes that are due can be sent, answers to probes are for the timers of their locators, and the
other Map-Replies do not carry the nonce of a probe. -/
def ProbesServed (W : World R F) (s : Xtr R) : XtrEvent → Prop
  | .mapReply msg ra _ => (msg.rlocProbe = true → ProbeMatches s msg ra) ∧
      (msg.rlocProbe = false → ∀ t ∈ s.ts.nonces msg.nonce, ∀ x ∈ s.ts.kind t,
        x.1 ≠ .RLOC_PROBING_TIMER)
  | .wheel env => ∀ t ∈ dueTimer s.ts, ProbeReady W env s t
  | _ => True

instance (W : World R F) (s : Xtr R) : ∀ ev, Decidable (ProbesServed W s ev)
  | .mapReply msg _ _ =>
    inferInstanceAs (Decidable ((_ → _) ∧ (msg.rlocProbe = false → ∀ t ∈ _, _)))
  | .wheel _ => inferInstanceAs (Decidable (∀ t ∈ _, ProbeReady W _ s t))
  | .packet .. | .mapRequest .. | .mapNotify .. | .ifEvent .. | .tick =>
    inferInstanceAs (Decidable True)

/-- Refreshing an entry replaces its locators and their timers. -/
theorem Refreshed.probedOnce (h : Refreshed W s s' e m) (hw : s.Wf) (hP : ProbedOnce X s) :
    ProbedOnce X s' := by
  obtain ⟨me, me', s1, s2, s3, hed, hfresh, htimer, hprobe, rfl⟩ := h
  have hw1 := hed.wf hw
  have hw2 : s2.Wf := htimer.wf hw1 rfl hed.is nofun
  have hP2 : ProbedOnce (fun i => X i ∨ i = e) s2 :=
    (htimer.probingKept hw1 nofun).probedOnce (hed.probedOnce hP)
  have hP3 : ProbedOnce X s3 := by
    refine (hprobe hw2.timers).probedOnce (fun mi hmi => ?_) hP2
    rw [htimer.rest, hed.is] at hmi
    cases hmi
    exact hfresh.nodup
  exact ⟨hP3.on, hP3.running, hP3.once⟩

theorem probeReply_probedOnce {msg : MapReplyMsg} {ra addr : LispAddr} {p : ParsedRecord}
    (hok : ProbeMatches s msg ra) (hn : s.ts.nonces msg.nonce = some t) (hparsed : Parsed s s1)
    (hrecord : lispMsgParseMappingRecord s.nextLoct .uninit (msg.records.getD 0 .malformed) = .ok p)
    (haddr : probedAddress p ra = .ok addr) (htarget : ProbeTarget s p.m.eidPrefix (some d))
    (hreply : (handleLocatorProbeReply W env d addr).run s1 = .ok (r, s2))
    (hstop : TimerStopped W s2 s' t) (hw : s.Wf) (hP : ProbedOnce X s) : ProbedOnce X s' := by
  have hidle : Idle W s s1 := hparsed.idle
  have hw1 := hidle.wf hw
  have hP1 := hidle.probingKept.probedOnce hP
  obtain ⟨hw2, -⟩ := handleLocatorProbeReply_safe _ _ hreply hw1
  obtain ⟨me, hme, hcases⟩ := handleLocatorProbeReply_cases hreply
  rw [hidle.cells] at hme
  have hmatch : ∀ o, mappingGetLoctWithAddr me.mapping addr = .ok o → ProbeTimerOf s t d o := by
    refine fun o ho => hok t hn (d, o) ?_
    simp only [answeredLocator, hrecord, haddr, htarget.eq, hme, ho, Except.toOption,
      Option.bind_eq_bind, Option.bind_some, Option.pure_def, Option.mem_def]
  obtain ⟨hnone, rfl⟩ | ⟨loct, s3, hloct, ht, hstart⟩ := hcases
  · refine (hstop.probingKept hw2 fun i q hk => ?_).probedOnce hP1
    rw [hidle.kind] at hk
    exact hmatch none hnone _ hk rfl
  · have hk : s.ts.kind t = some (.RLOC_PROBING_TIMER, .rlocProbe d loct.ptr) := hmatch _ hloct
    have hw3 := ht.wf hw1
    refine hstart.replaces hstop hw3 hw2 ?_ (ht.probingKept.probedOnce hP1)
    rw [show s3.ts = s1.ts by rw [ht.rest], hidle.kind, hk]

/-- Every piece of a step keeps the locators probed. -/
theorem Change.probedOnce {ev : XtrEvent} (h : Change W s0 ev s s') (hw₀ : s0.Wf)
    (hok : ProbesServed W s0 ev) (hw : s.Wf) (hP : ProbedOnce X s) : ProbedOnce X s' := by
  cases h with
  | idle h => exact h.probingKept.probedOnce hP
  | localOnly h => exact (h.probingKept hw).probedOnce hP
  | missed miss created listed sent =>
    have hmissed := (created.probingKept rfl).trans (listed.probingKept nofun)
    have hsent :=
      (sendMapRequestRetryCb_handled sent).probingKept (missed_wf miss hw created listed)
    exact (hmissed.trans hsent).probedOnce hP
  | solicited found listed sent =>
    have hw1 := solicited_wf found hw listed
    have hlisted : ProbingKept s _ := listed.probingKept nofun
    exact (hlisted.trans ((smrInvokedMapRequestCb_handled sent).probingKept hw1)).probedOnce hP
  | discarded _ _ removed => exact removed.probingKept.probedOnce hP
  | installed _ _ _ _ _ nodup added =>
    have hP1 := added.probedOnce hw nodup hP
    exact ⟨hP1.on, hP1.running, hP1.once⟩
  | refreshed _ _ _ _ _ parsed _ refreshed =>
    have hidle : Idle W _ _ := parsed.idle
    exact refreshed.probedOnce (hidle.wf hw) (hidle.probingKept.probedOnce hP)
  | answered answers _ kind stopped =>
    refine (stopped.probingKept hw fun i p hk => ?_).probedOnce hP
    rw [kind] at hk
    exact hok.2 answers.notProbe _ answers.nonce _ hk rfl
  | probed probe nonce parsed _ record address target handled stopped =>
    exact probeReply_probedOnce (hok.1 probe) nonce parsed record address target handled stopped hw
      hP
  | merged _ edited fresh probed =>
    refine probed.probedOnce (fun mi hmi => ?_) (edited.probedOnce hP)
    rw [edited.is] at hmi
    cases hmi
    exact fresh.nodup
  | ticked _ => exact ⟨hP.on, hP.running, hP.once⟩
  | spokeDone _ => exact ⟨hP.on, hP.running, hP.once⟩
  | rotated same =>
    refine ProbingKept.probedOnce (s := s) ?_ hP
    refine .of_ts rfl (fun _ _ _ => Iff.rfl) fun i e p _ hr => ?_
    obtain ⟨l, hl, rfl⟩ := hr
    exact ⟨_, mem_map_of_mem hl, (same l).1⟩
  | fired _ visit _ called =>
    refine (timerCb_probingKept hw (hok _ ?_) called).probedOnce hP
    rw [mem_def, dueTimer, visit]

/-! ## Runs -/

/-- Probing is on, and a re-encapsulating router has no Proxy-ETRs. -/
def ProbingConf (conf : XtrConf R) : Prop :=
  0 < conf.probeInterval ∧ (conf.mode = .RTR_MODE → conf.petrs.flatten = [])

/-- Before `xtr_ctrl_run`, everything but the Proxy-ETRs is probed. -/
structure ProbedAtBoot (s : Xtr R) : Prop where
  probed : ProbedOnce (· = s.petrs) s
  petrs : ∃ mp, s.mces.cell s.petrs = some mp ∧ (mp.mapping.locators.map (·.ptr)).Nodup ∧
    (s.mode = .RTR_MODE → mp.mapping.locators = [])

theorem ProbedAtBoot.new (h : ProbingConf conf) : ProbedAtBoot (xtrCtrlConstruct conf) := by
  refine ⟨⟨by simpa [
    xtrCtrlConstruct] using Int.ne_of_gt h.1, ?_, ?_⟩, petrsEntry conf, ?_, ?_, h.2⟩
  · intro t e p hk
    simp [xtrCtrlConstruct, Timers.init, Timers.kind, empty_cell] at hk
  · rintro e ptrs hne ⟨hpetrs | ⟨k, hk⟩, -⟩
    · exact absurd hpetrs hne
    · simp [xtrCtrlConstruct, mdbNew_stored] at hk
  · simp [xtrCtrlConstruct, alloc_cell, empty]
  · have hnodup := conf.locators_nodup
    rw [map_append] at hnodup
    exact hnodup.of_append_left

/-- The locators of a static entry are objects of their own. -/
theorem XtrConf.static_nodup (hm : m ∈ conf.statics) : (m.locators.map (·.ptr)).Nodup := by
  have hnodup := conf.locators_nodup
  rw [map_append] at hnodup
  refine hnodup.of_append_right.sublist (List.Sublist.map _ ?_)
  exact sublist_flatten_of_mem (mem_map_of_mem hm)

theorem StaticConfigured.probedAtBoot (hm : m ∈ conf.statics) (hw : s.Wf)
    (h : StaticConfigured W s s' m) (hI : ProbedAtBoot s) : ProbedAtBoot s' := by
  obtain ⟨hP, mp, hmp, hfacts⟩ := hI
  have hlt := lt_next hmp
  cases h with
  | skipped h =>
    have hpetrs : s'.petrs = s.petrs := by rw [h.rest]
    refine ⟨hpetrs ▸ h.probingKept.probedOnce hP, mp, by rw [hpetrs, h.cells, hmp], hfacts.1, ?_⟩
    rw [h.rest]
    exact hfacts.2
  | leaked info h =>
    subst h
    have hkept : ProbingKept s { s with mces := s.mces.alloc ⟨.MCE_STATIC, .ACTIVE, m, info⟩ } := by
      refine ⟨rfl, fun t e p hk => ⟨hk, id⟩, fun e ptrs he => ⟨?_, fun t p hk => hk⟩⟩
      obtain ⟨huse, me, hme, hact, hptrs⟩ := he
      -- what is in use was there before
      have hne : e ≠ s.mces.next := by
        rcases huse with rfl | ⟨k, hk⟩
        · exact Nat.ne_of_lt hlt
        · obtain ⟨mi, hmi, -⟩ := hw.stored_own k e hk
          exact Nat.ne_of_lt (lt_next hmi)
      rw [alloc_cell, if_neg hne] at hme
      exact ⟨huse, me, hme, hact, hptrs⟩
    refine ⟨hkept.probedOnce hP, mp, ?_, hfacts⟩
    rw [alloc_cell, if_neg (Nat.ne_of_lt hlt), hmp]
  | added info s2 _ hc hp =>
    have hw2 := hc.wf hw nofun
    have hprobe := hp hw2.timers
    have hpetrs : s'.petrs = s.petrs := by rw [hprobe.rest, hc.rest]
    refine ⟨?_, mp, ?_, hfacts.1, ?_⟩
    · rw [hpetrs]
      refine hprobe.probedOnce (fun me hme => ?_) (hc.probedOnce hP)
      rw [hc.new] at hme
      cases hme
      exact conf.static_nodup hm
    · rw [hpetrs, hprobe.rest]
      exact hc.old hmp
    · rw [hprobe.rest, hc.rest]
      exact hfacts.2

theorem RunStarted.probedOnce (hw : s.Wf) (h : RunStarted W s s') (hI : ProbedAtBoot s) :
    ProbedOnce (fun _ => False) s' := by
  obtain ⟨hP, mp, hmp, hnodup, hrtr⟩ := hI
  cases h with
  | rtr hmode h =>
    have hP' := (h.probingKept hw).probedOnce hP
    refine ⟨hP'.on, hP'.running, fun e ptrs _ he p hp => ?_⟩
    by_cases hpe : e = s.petrs
    · -- there are no Proxy-ETRs
      obtain ⟨-, me, hme, -, hptrs⟩ := he
      rw [h.rest, hpe, hmp] at hme
      cases hme
      rw [← hptrs, hrtr hmode] at hp
      cases hp
    · exact hP'.once e ptrs hpe he p hp
  | xtr s1 s2 _ ht hl hp =>
    have hw1 := ht.wf hw
    have hw2 := hw1.of_local hl
    have hP2 : ProbedOnce (· = s.petrs) s2 :=
      (hl.probingKept hw1).probedOnce (ht.probingKept.probedOnce hP)
    refine (hp hw2.timers).probedOnce (fun me hme => ?_) ?_
    · rw [hl.rest] at hme
      obtain ⟨mp', hmp', hshape⟩ := ht.back _ me hme
      cases hmp.symm.trans hmp'
      rw [hshape.ptrs]
      exact hnodup
    · exact ⟨hP2.on, hP2.running, fun e ptrs hX => hP2.once e ptrs fun heq => hX (.inr heq)⟩

/-- In the runs in which probes can be sent and Map-Replies answer the timers they are for, every
locator of every active entry in use has one running probing timer. -/
theorem locators_probed {me : Mce R} {l : Locator} (h : XtrReach W ProbingConf (ProbesServed W) s)
    (huse : InUse s e) (hme : s.mces.cell e = some me) (hact : me.active = .ACTIVE)
    (hl : l ∈ me.mapping.locators) :
    ∃ t, ∀ t', (s.ts.kind t' = some (.RLOC_PROBING_TIMER, .rlocProbe e l.ptr) ∧
      s.ts.running t') ↔ t' = t := by
  have hP : ProbedOnce (fun _ => False) s := by
    refine h.invariant_of (I := ProbedOnce fun _ => False) (fun s hs => ?_) ?_
    · refine hs.induct (I := ProbedAtBoot) (fun conf hconf => .new hconf) ?_ ?_
      · exact fun conf a b m hm hw hconf => hconf.probedAtBoot hm hw
      · exact fun conf a b _ _ hw hrun => hrun.probedOnce hw
    · exact fun s0 ev a b hw0 hok hw hc => hc.probedOnce hw0 hok hw
  obtain ⟨t, ht⟩ := hP.once e _ id ⟨huse, me, hme, hact, rfl⟩ l.ptr (mem_map_of_mem hl)
  refine ⟨t, fun t' => ⟨fun hk => (ht t').mp hk.1, fun heq => ?_⟩⟩
  have hk := (ht t').mpr heq
  exact ⟨hk, hP.running t' e l.ptr hk⟩

end Probing

/-- The locator of a learned entry is probed, and its timer runs on. -/
theorem locators_probed_learned :
    ∃ s, XtrReach labWorld ProbingConf (ProbesServed labWorld) s ∧
      s.mapCache.stored labKey = some 2 ∧ s.nonceCalls = 2 ∧
      ∃ t, ∀ t', (s.ts.kind t' = some (.RLOC_PROBING_TIMER, .rlocProbe 2 0) ∧
        s.ts.running t') ↔ t' = t := by
  have hrun : ∃ s, XtrReach labWorld ProbingConf (ProbesServed labWorld) s ∧
      s.mapCache.stored labKey = some 2 ∧ s.nonceCalls = 2 ∧
      (s.mces.cell 2).map (fun me => (me.active, me.mapping.locators.map (·.ptr))) =
        some (.ACTIVE, [0]) :=
    XtrReach.of_events { labConf with probeInterval := 1 } labEnv
      [labPacket, labReply 0 [labRecord 0xc0000200#32 1], .tick, .wheel labEnv, .wheel labEnv]
      ⟨by decide, nofun⟩ (by decide +kernel)
  obtain ⟨s, hs, hst, hcalls, hcell⟩ := hrun
  obtain ⟨me, hme, hpair⟩ := map_eq_some_iff.mp hcell
  obtain ⟨hact, hptrs⟩ := Prod.mk.inj hpair
  have hmem : 0 ∈ me.mapping.locators.map (·.ptr) := by
    rw [hptrs]
    exact mem_singleton.mpr rfl
  obtain ⟨l, hl, hlp⟩ := mem_map.mp hmem
  refine ⟨s, hs, hst, hcalls, ?_⟩
  rw [← hlp]
  exact locators_probed hs (.inr ⟨_, hst⟩) hme hact hl

/-- A probe cannot be sent. The locator has no running probing timer afterwards. -/
theorem failed_probe_stops :
    ∃ s, XtrReach labWorld ProbingConf (fun _ _ => True) s ∧
      s.mapCache.stored labKey = some 2 ∧
      (s.mces.cell 2).map (fun me => (me.active, me.mapping.locators.map (·.ptr))) =
        some (.ACTIVE, [0]) ∧
      ∀ l ∈ s.ts.wheel.links,
        s.ts.kind l.timer ≠ some (.RLOC_PROBING_TIMER, .rlocProbe 2 0) :=
  XtrReach.of_events { labConf with probeInterval := 1 } labEnv
    [labPacket, labReply 0 [labRecord 0xc0000200#32 1], .tick, .wheel labEnv,
      .wheel { labEnv with sendOk := false }] ⟨by decide, nofun⟩ (by decide +kernel)

end Lispmob
