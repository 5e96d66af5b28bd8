import Mathlib.Algebra.Order.BigOperators.Group.List
import Mathlib.Algebra.Order.Group.Nat
import Mathlib.Algebra.Ring.Nat
import Lispmob.Timers

/-!
# When the callbacks of the timer wheel run

A timer on the wheel is visited when the wheel next comes to its spoke (`ticksLeft`), whatever its
rotation count: an iteration of the loop that only takes one rotation away leaves the timer first on
its spoke, so the next iteration visits it again, until it expires. Its deadline
(`TimerWheel.DueAt`) is kept by every operation on other timers.

`ClockRun` are the runs of the wheel with its clients: timers are started and stopped, by callbacks
or between ticks, and the wheel ticks. `started_timer_runs_once` says when the callback of a started
timer runs, and `start_runs_on_time_iff` for which durations that is on time: below one turn of the
wheel, and for one turn exactly when the timer is not started by a callback.
-/

set_option linter.unusedSectionVars false

namespace Lispmob

open Prog List

/-! ## Spokes and deadlines -/

/-- The timer `t` is linked into the spoke `sp`. -/
def TimerWheel.On (w : TimerWheel) (t sp : Nat) : Prop :=
  ∃ l ∈ w.links, l.timer = t ∧ l.spoke = sp

/-- The number of ticks until the wheel comes to the spoke `sp`. In the loop of a tick the current
spoke is still to be worked off. -/
def ticksLeft (currentSpoke sp : Nat) (inTick : Bool) : Nat :=
  if inTick then (sp + WHEEL_SIZE - currentSpoke) % WHEEL_SIZE
  else (sp + WHEEL_SIZE - currentSpoke - 1) % WHEEL_SIZE + 1

/-- The timer `t` is linked into one spoke, which the wheel comes to at tick `n`. -/
def TimerWheel.DueAt (w : TimerWheel) (inTick : Bool) (now t n : Nat) : Prop :=
  ∃ sp < WHEEL_SIZE, (∀ sp', w.On t sp' ↔ sp' = sp) ∧
    now + ticksLeft w.currentSpoke sp inTick = n

section Wheel

variable {w : TimerWheel} {inTick : Bool} {now t t' n sp : Nat} {ticks : Nat}

theorem on_unlink : (w.unlink t').On t sp ↔ t ≠ t' ∧ w.On t sp := by
  unfold TimerWheel.On TimerWheel.unlink
  simp only [mem_filter, decide_eq_true_eq]
  constructor
  · rintro ⟨l, ⟨hl, hne⟩, rfl, hsp⟩
    exact ⟨hne, l, hl, rfl, hsp⟩
  · rintro ⟨hne, l, hl, rfl, hsp⟩
    exact ⟨l, ⟨hl, hne⟩, rfl, hsp⟩

theorem on_insertTimer : (insertTimer w t' ticks).On t sp ↔
    w.On t sp ∨ (t = t' ∧ sp = (w.currentSpoke + ticks % WHEEL_SIZE) % WHEEL_SIZE) := by
  unfold TimerWheel.On insertTimer
  simp only [mem_append, mem_singleton]
  constructor
  · rintro ⟨l, hl | rfl, ht, hsp⟩
    · exact .inl ⟨l, hl, ht, hsp⟩
    · exact .inr ⟨ht.symm, hsp.symm⟩
  · rintro (⟨l, hl, ht, hsp⟩ | ⟨rfl, rfl⟩)
    · exact ⟨l, .inl hl, ht, hsp⟩
    · exact ⟨_, .inr rfl, rfl, rfl⟩

theorem on_rotated {g : WheelLink → WheelLink}
    (hg : ∀ l, (g l).timer = l.timer ∧ (g l).spoke = l.spoke) :
    ({ w with links := w.links.map g } : TimerWheel).On t sp ↔ w.On t sp := by
  constructor
  · rintro ⟨l, hl, ht, hsp⟩
    obtain ⟨l0, hl0, rfl⟩ := mem_map.mp hl
    exact ⟨l0, hl0, (hg l0).1.symm.trans ht, (hg l0).2.symm.trans hsp⟩
  · rintro ⟨l, hl, ht, hsp⟩
    exact ⟨g l, mem_map_of_mem hl, (hg l).1.trans ht, (hg l).2.trans hsp⟩

/-- A deadline depends on the spokes of the timer only. -/
theorem TimerWheel.DueAt.congr {w' : TimerWheel} (h : w.DueAt inTick now t n)
    (hspoke : w'.currentSpoke = w.currentSpoke) (hon : ∀ sp, w'.On t sp ↔ w.On t sp) :
    w'.DueAt inTick now t n := by
  obtain ⟨sp, hlt, hall, hn⟩ := h
  refine ⟨sp, hlt, fun sp' => (hon sp').trans (hall sp'), ?_⟩
  rw [hspoke]
  exact hn

theorem TimerWheel.DueAt.start_other (h : w.DueAt inTick now t n) (hne : t ≠ t') :
    (insertTimer (w.unlink t') t' ticks).DueAt inTick now t n := by
  refine h.congr rfl fun sp => ?_
  rw [on_insertTimer, on_unlink]
  tauto

theorem TimerWheel.DueAt.unlink_other (h : w.DueAt inTick now t n) (hne : t ≠ t') :
    (w.unlink t').DueAt inTick now t n := by
  refine h.congr rfl fun sp => ?_
  rw [on_unlink]
  tauto

/-- The number of ticks after which the callback of a timer started for `ticks` runs. -/
def firesAfter (inTick : Bool) (ticks : Nat) : Nat :=
  if inTick then ticks % WHEEL_SIZE else (ticks + WHEEL_SIZE - 1) % WHEEL_SIZE + 1

/-- The deadline of a timer that is started, also when it was running before. -/
theorem dueAt_start (hw : w.currentSpoke < WHEEL_SIZE) :
    (insertTimer (w.unlink t) t ticks).DueAt inTick now t (now + firesAfter inTick ticks) := by
  refine ⟨(w.currentSpoke + ticks % WHEEL_SIZE) % WHEEL_SIZE, Nat.mod_lt _ (by decide),
    fun sp => ?_, ?_⟩
  · rw [on_insertTimer, on_unlink]
    exact ⟨fun h => h.elim (fun h => absurd rfl h.1) (fun h => h.2), fun h => .inr ⟨rfl, h⟩⟩
  · change now + ticksLeft w.currentSpoke _ inTick = _
    unfold ticksLeft firesAfter
    unfold WHEEL_SIZE at hw ⊢
    split_ifs <;> omega

theorem TimerWheel.DueAt.advance (h : w.DueAt false now t n) (hw : w.currentSpoke < WHEEL_SIZE) :
    ({ w with currentSpoke := (w.currentSpoke + 1) % WHEEL_SIZE } : TimerWheel).DueAt true
      (now + 1) t n := by
  obtain ⟨sp, hlt, hall, hn⟩ := h
  refine ⟨sp, hlt, hall, ?_⟩
  unfold ticksLeft at hn ⊢
  simp only [Bool.false_eq_true, if_false, if_true] at hn ⊢
  unfold WHEEL_SIZE at hn hlt hw ⊢
  omega

/-- At the end of a tick no timer is left on the current spoke. -/
theorem TimerWheel.DueAt.spokeDone (h : w.DueAt true now t n) (hw : w.currentSpoke < WHEEL_SIZE)
    (hempty : ∀ l ∈ w.links, l.spoke ≠ w.currentSpoke) : w.DueAt false now t n := by
  obtain ⟨sp, hlt, hall, hn⟩ := h
  have hne : sp ≠ w.currentSpoke := by
    obtain ⟨l, hl, -, hsp⟩ := (hall sp).mpr rfl
    exact hsp ▸ hempty l hl
  refine ⟨sp, hlt, hall, ?_⟩
  unfold ticksLeft at hn ⊢
  simp only [Bool.false_eq_true, if_false, if_true] at hn ⊢
  unfold WHEEL_SIZE at hn hlt hw ⊢
  omega

theorem TimerWheel.DueAt.eq_now (h : w.DueAt true now t n) (hon : w.On t w.currentSpoke) :
    n = now := by
  obtain ⟨sp, -, hall, hn⟩ := h
  have hsp := (hall _).mp hon
  unfold ticksLeft at hn
  simp only [if_true] at hn
  unfold WHEEL_SIZE at hn
  omega

/-- A deadline is never behind the clock, and between ticks it is ahead. -/
theorem TimerWheel.DueAt.ahead (h : w.DueAt inTick now t n) :
    now ≤ n ∧ (inTick = false → now < n) := by
  obtain ⟨sp, -, -, hn⟩ := h
  unfold ticksLeft at hn
  split_ifs at hn with hin
  · exact ⟨by omega, fun hf => by rw [hin] at hf; cases hf⟩
  · exact ⟨by omega, fun _ => by omega⟩

end Wheel

/-! ## The wheel and its clients -/

/-- The timers, the clock, and the history of the callbacks that ran. -/
structure Clock (ο α : Type) where
  ts : Timers ο α
  /-- `handle_timers` is in its loop. -/
  inTick : Bool
  /-- The number of ticks so far. -/
  now : Nat
  /-- History: the timers whose callbacks ran, with the tick, the last one first. -/
  fired : List (Nat × Nat)

/-- What can happen to the wheel. -/
inductive ClockEvent where
  | start (t : Nat) (sexpiry : BitVec 32)
  | stop (t : Nat)
  /-- Something that does not touch the wheel. -/
  | other
  | tick
  /-- One iteration of the loop of `handle_timers`. -/
  | visit

section Clock

variable {ο α : Type} [DecidableEq ο] {c c1 c2 c' : Clock ο α} {t n : Nat} {e : ClockEvent}

/-- The steps of the wheel and of its clients. A callback is due right after its timer expired; what
it does to timers are steps of their own. -/
inductive ClockStep (c : Clock ο α) : ClockEvent → Clock ο α → Prop where
  | start {t : Nat} {d : BitVec 32} {ts : Timers ο α} (h : lmtimerStart c.ts t d = .ok ts) :
      ClockStep c (.start t d) { c with ts := ts }
  | stop {t : Nat} {ts : Timers ο α} (h : lmtimerStop c.ts t = .ok ts) :
      ClockStep c (.stop t) { c with ts := ts }
  | other {ts : Timers ο α} (h : ts.wheel = c.ts.wheel) : ClockStep c .other { c with ts := ts }
  | tick (h : c.inTick = false) :
      ClockStep c .tick { c with ts := advanceSpoke c.ts, inTick := true, now := c.now + 1 }
  | done (h : c.inTick = true) (hv : handleTimersVisit c.ts = .done) :
      ClockStep c .visit { c with inTick := false }
  | rotated {ts : Timers ο α} (h : c.inTick = true) (hv : handleTimersVisit c.ts = .rotated ts) :
      ClockStep c .visit { c with ts := ts }
  | expired {t : Nat} {ts : Timers ο α} (h : c.inTick = true)
      (hv : handleTimersVisit c.ts = .expired t ts) :
      ClockStep c .visit { c with ts := ts, fired := (t, c.now) :: c.fired }

/-- The event starts or stops the timer. -/
def ClockEvent.touches (t : Nat) : ClockEvent → Prop
  | .start t' _ => t' = t
  | .stop t' => t' = t
  | _ => False

/-- The runs in which the timer `t` is neither started nor stopped. -/
inductive ClockRun (t : Nat) (c : Clock ο α) : Clock ο α → Prop where
  | refl : ClockRun t c c
  | step {c1 c2 : Clock ο α} {e : ClockEvent} (h : ClockRun t c c1) (hs : ClockStep c1 e c2)
      (ht : ¬ e.touches t) : ClockRun t c c2

/-- The ticks at which the callback of a timer ran. -/
def Clock.firings (c : Clock ο α) (t : Nat) : List Nat :=
  (c.fired.filter (·.1 = t)).map Prod.snd

/-- From `c` on, the callback of the timer runs exactly once, during tick `n`, in every run in which
the timer is neither started nor stopped: it did not run at any other tick, and once that tick is
over it did run. -/
def RunsOnceAt (c : Clock ο α) (t n : Nat) : Prop :=
  ∀ c', ClockRun t c c' → ∃ F, c'.firings t = F ++ c.firings t ∧ (F = [] ∨ F = [n]) ∧
    (n < c'.now ∨ (n = c'.now ∧ c'.inTick = false) → F = [n])

/-! ## One step -/

theorem firings_expired {t' : Nat} (ts : Timers ο α) :
    ({ c with ts := ts, fired := (t', c.now) :: c.fired } : Clock ο α).firings t =
      if t' = t then c.now :: c.firings t else c.firings t := by
  unfold Clock.firings
  rw [filter_cons]
  split_ifs with h h' h'
  · rfl
  · exact absurd (of_decide_eq_true h) h'
  · exact absurd (decide_eq_true h') h
  · rfl

theorem ClockStep.spoke_lt (h : ClockStep c e c') (hw : c.ts.wheel.currentSpoke < WHEEL_SIZE) :
    c'.ts.wheel.currentSpoke < WHEEL_SIZE := by
  cases h with
  | start h =>
    obtain ⟨-, rfl⟩ := lmtimerStart_spec h
    exact hw
  | stop h =>
    simp only [lmtimerStop, except_bind_ok, except_pure_ok] at h
    obtain ⟨-, -, rfl⟩ := h
    exact hw
  | other h => exact h ▸ hw
  | tick => exact Nat.mod_lt _ (by decide)
  | done => exact hw
  | rotated _ hv =>
    have hspec := handleTimersVisit_spec c.ts
    rw [hv] at hspec
    obtain ⟨g, -, rfl⟩ := hspec
    exact hw
  | expired _ hv =>
    have hspec := handleTimersVisit_spec c.ts
    rw [hv] at hspec
    obtain ⟨-, rfl⟩ := hspec
    exact hw

/-- What a step does to the spokes of a timer it does not start or stop: nothing, or the timer is on
the current spoke and expires. -/
theorem ClockStep.on_cases (h : ClockStep c e c') (ht : ¬ e.touches t) :
    ((∀ sp, c'.ts.wheel.On t sp ↔ c.ts.wheel.On t sp) ∧ c'.firings t = c.firings t) ∨
      (c.inTick = true ∧ c'.inTick = true ∧ c'.now = c.now ∧
        c.ts.wheel.On t c.ts.wheel.currentSpoke ∧ (∀ sp, ¬ c'.ts.wheel.On t sp) ∧
        c'.firings t = c.now :: c.firings t) := by
  cases h with
  | @start t' d ts h =>
    left
    obtain ⟨-, rfl⟩ := lmtimerStart_spec h
    refine ⟨fun sp => ?_, rfl⟩
    rw [on_insertTimer, on_unlink]
    tauto
  | @stop t' ts h =>
    left
    simp only [lmtimerStop, except_bind_ok, except_pure_ok] at h
    obtain ⟨-, -, rfl⟩ := h
    refine ⟨fun sp => ?_, rfl⟩
    rw [on_unlink]
    tauto
  | other h =>
    exact .inl ⟨fun sp => by rw [show ({ c with ts := _ } : Clock ο α).ts.wheel = _ from h],
      rfl⟩
  | tick => exact .inl ⟨fun _ => Iff.rfl, rfl⟩
  | done => exact .inl ⟨fun _ => Iff.rfl, rfl⟩
  | rotated _ hv =>
    have hspec := handleTimersVisit_spec c.ts
    rw [hv] at hspec
    obtain ⟨g, hg, rfl⟩ := hspec
    exact .inl ⟨fun sp => on_rotated hg, rfl⟩
  | @expired t' ts hin hv =>
    have hspec := handleTimersVisit_spec c.ts
    rw [hv] at hspec
    obtain ⟨⟨l, hl, hlt, hsp⟩, rfl⟩ := hspec
    rw [firings_expired]
    by_cases heq : t' = t
    · subst heq
      refine .inr ⟨hin, hin, rfl, ⟨l, hl, hlt, hsp⟩, fun sp hon => ?_, if_pos rfl⟩
      exact (on_unlink.mp hon).1 rfl
    · refine .inl ⟨fun sp => ?_, if_neg heq⟩
      rw [on_unlink]
      tauto

/-- A step that leaves the spokes of a timer alone keeps its deadline. -/
theorem ClockStep.dueAt (h : ClockStep c e c') (hw : c.ts.wheel.currentSpoke < WHEEL_SIZE)
    (hon : ∀ sp, c'.ts.wheel.On t sp ↔ c.ts.wheel.On t sp)
    (hdue : c.ts.wheel.DueAt c.inTick c.now t n) : c'.ts.wheel.DueAt c'.inTick c'.now t n := by
  cases h with
  | start h =>
    obtain ⟨-, rfl⟩ := lmtimerStart_spec h
    exact hdue.congr rfl hon
  | stop h =>
    simp only [lmtimerStop, except_bind_ok, except_pure_ok] at h
    obtain ⟨-, -, rfl⟩ := h
    exact hdue.congr rfl hon
  | other h => exact hdue.congr (congrArg TimerWheel.currentSpoke h) hon
  | tick hin =>
    rw [hin] at hdue
    exact hdue.advance hw
  | done hin hv =>
    have hspec := handleTimersVisit_spec c.ts
    rw [hv] at hspec
    rw [hin] at hdue
    exact hdue.spokeDone hw hspec
  | rotated _ hv =>
    have hspec := handleTimersVisit_spec c.ts
    rw [hv] at hspec
    obtain ⟨g, -, rfl⟩ := hspec
    exact hdue.congr rfl hon
  | expired _ hv =>
    have hspec := handleTimersVisit_spec c.ts
    rw [hv] at hspec
    obtain ⟨-, rfl⟩ := hspec
    exact hdue.congr rfl hon

/-! ## Runs -/

/-- A timer with a deadline keeps it until its callback runs at that tick, and then is off the
wheel. -/
theorem ClockRun.dueAt (h : ClockRun t c c') (hw : c.ts.wheel.currentSpoke < WHEEL_SIZE)
    (hdue : c.ts.wheel.DueAt c.inTick c.now t n) :
    c'.ts.wheel.currentSpoke < WHEEL_SIZE ∧
      ((c'.firings t = c.firings t ∧ c'.ts.wheel.DueAt c'.inTick c'.now t n) ∨
        (c'.firings t = n :: c.firings t ∧ ∀ sp, ¬ c'.ts.wheel.On t sp)) := by
  induction h with
  | refl => exact ⟨hw, .inl ⟨rfl, hdue⟩⟩
  | step _ hs ht ih =>
    obtain ⟨hw1, hcase⟩ := ih
    refine ⟨hs.spoke_lt hw1, ?_⟩
    obtain ⟨hfir, hdue1⟩ | ⟨hfir, hoff⟩ := hcase
    · obtain ⟨hon, hsame⟩ | ⟨hin, -, -, hcur, hgone, hnew⟩ := hs.on_cases ht
      · exact .inl ⟨hsame.trans hfir, hs.dueAt hw1 hon hdue1⟩
      · rw [hin] at hdue1
        rw [← hdue1.eq_now hcur, hfir] at hnew
        exact .inr ⟨hnew, hgone⟩
    · obtain ⟨hon, hsame⟩ | ⟨-, -, -, hcur, -⟩ := hs.on_cases ht
      · exact .inr ⟨hsame.trans hfir, fun sp hsp => hoff sp ((hon sp).mp hsp)⟩
      · exact absurd hcur (hoff _)

/-- The callback of a timer with a deadline runs exactly once, at that tick. -/
theorem runsOnceAt_of_dueAt (hw : c.ts.wheel.currentSpoke < WHEEL_SIZE)
    (hdue : c.ts.wheel.DueAt c.inTick c.now t n) : RunsOnceAt c t n := by
  intro c' hrun
  obtain ⟨-, ⟨hfir, hdue'⟩ | ⟨hfir, -⟩⟩ := hrun.dueAt hw hdue
  · refine ⟨[], hfir, .inl rfl, fun hover => ?_⟩
    obtain ⟨hle, hlt⟩ := hdue'.ahead
    rcases hover with hover | ⟨heq, hin⟩
    · exact absurd hover (Nat.not_lt.mpr hle)
    · exact absurd (hlt hin) (Nat.not_lt.mpr (Nat.le_of_eq heq))
  · exact ⟨[n], hfir, .inr rfl, fun _ => rfl⟩

/-- When the callback of a started timer runs, for every duration. A timer that was running before
has the new deadline only. -/
theorem started_timer_runs_once {d : BitVec 32} (hw : c.ts.wheel.currentSpoke < WHEEL_SIZE)
    (hs : ClockStep c (.start t d) c1) : RunsOnceAt c1 t (c.now + firesAfter c.inTick d.toNat) := by
  cases hs with
  | start h =>
    obtain ⟨-, rfl⟩ := lmtimerStart_spec h
    exact runsOnceAt_of_dueAt hw (dueAt_start hw)

/-! ## Ticks come to their end -/

/-- The visits the timers of the current spoke still need. -/
def TimerWheel.work (w : TimerWheel) : Nat :=
  (w.links.map fun l => if l.spoke = w.currentSpoke then l.rotationCount + 1 else 0).sum

/-- Every iteration of the loop that does not end it leaves less to do. -/
theorem handleTimersVisit_work (ts : Timers ο α) : match handleTimersVisit ts with
    | .done => True
    | .rotated ts' => ts'.wheel.work < ts.wheel.work
    | .expired _ ts' => ts'.wheel.work < ts.wheel.work := by
  unfold handleTimersVisit
  cases hf : ts.wheel.links.find? (·.spoke = ts.wheel.currentSpoke) with
  | none => trivial
  | some tptr =>
    have hmem := mem_of_find?_eq_some hf
    have hsp : tptr.spoke = ts.wheel.currentSpoke := by simpa using find?_some hf
    dsimp only
    split_ifs with hrot
    · unfold TimerWheel.work
      dsimp only
      rw [map_map]
      refine sum_lt_sum _ _ (fun l _ => ?_) ⟨tptr, hmem, ?_⟩
      · dsimp only [Function.comp]
        split_ifs <;> simp
      · dsimp only [Function.comp]
        simp only [if_true, if_pos hsp]
        omega
    · -- the timer that expires needed at least one visit
      have hsplit := sum_map_filter_add_sum_map_filter_not (·.timer ≠ tptr.timer)
        (fun l => if l.spoke = ts.wheel.currentSpoke then l.rotationCount + 1 else 0) ts.wheel.links
      have hone : 0 < ((ts.wheel.links.filter (¬ ·.timer ≠ tptr.timer)).map
          fun l => if l.spoke = ts.wheel.currentSpoke then l.rotationCount + 1 else 0).sum := by
        refine Nat.lt_of_lt_of_le ?_ (single_le_sum (fun _ _ => Nat.zero_le _) _
          (mem_map_of_mem (mem_filter.mpr ⟨hmem, by simp⟩)))
        rw [if_pos hsp]
        exact Nat.succ_pos _
      exact Nat.lt_of_lt_of_eq (Nat.lt_add_of_pos_right hone) hsplit

theorem ClockRun.trans (h1 : ClockRun t c c1) (h2 : ClockRun t c1 c2) : ClockRun t c c2 := by
  induction h2 with
  | refl => exact h1
  | step _ hs ht ih => exact ih.step hs ht

/-- A tick comes to its end, if the callbacks leave the wheel alone. -/
theorem exists_tick_end (t : Nat) (c : Clock ο α) :
    ∃ c', ClockRun t c c' ∧ c'.inTick = false ∧ c'.now = c.now := by
  induction hk : c.ts.wheel.work using Nat.strong_induction_on generalizing c with
  | _ k ih =>
    subst hk
    by_cases hin : c.inTick = true
    · have hwork := handleTimersVisit_work c.ts
      cases hv : handleTimersVisit c.ts with
      | done => exact ⟨_, .step .refl (.done hin hv) id, rfl, rfl⟩
      | rotated ts =>
        rw [hv] at hwork
        obtain ⟨c', hrun, hend⟩ := ih _ hwork { c with ts := ts } rfl
        exact ⟨c', (ClockRun.step .refl (.rotated hin hv) id).trans hrun, hend⟩
      | expired t' ts =>
        rw [hv] at hwork
        obtain ⟨c', hrun, hend⟩ :=
          ih _ hwork { c with ts := ts, fired := (t', c.now) :: c.fired } rfl
        exact ⟨c', (ClockRun.step .refl (.expired hin hv) id).trans hrun, hend⟩
    · exact ⟨c, .refl, Bool.not_eq_true _ ▸ hin, rfl⟩

theorem exists_run_ticks (t : Nat) (c : Clock ο α) :
    ∀ k, ∃ c', ClockRun t c c' ∧ c'.inTick = false ∧ c'.now = c.now + k
  | 0 => exists_tick_end t c
  | k + 1 => by
    obtain ⟨c1, hrun, hin, hnow⟩ := exists_run_ticks t c k
    obtain ⟨c2, hrun2, hin2, hnow2⟩ := exists_tick_end t
      ({ c1 with ts := advanceSpoke c1.ts, inTick := true, now := c1.now + 1 } : Clock ο α)
    refine ⟨c2, (hrun.step (.tick hin) id).trans hrun2, hin2, ?_⟩
    rw [hnow2, ← Nat.add_assoc, ← hnow]

/-- The tick at which a callback runs is unique. -/
theorem RunsOnceAt.unique {m : Nat} (h : RunsOnceAt c t n) (h' : RunsOnceAt c t m) : n = m := by
  obtain ⟨c', hrun, -, hnow⟩ := exists_run_ticks t c (n + m + 1)
  obtain ⟨F, hF, -, hn⟩ := h c' hrun
  obtain ⟨F', hF', -, hm⟩ := h' c' hrun
  rw [hn (.inl (by omega))] at hF
  rw [hm (.inl (by omega)), hF] at hF'
  exact (List.cons.inj hF').1

/-! ## Durations -/

theorem firesAfter_eq_iff {inTick : Bool} {ticks : Nat} (hpos : 0 < ticks) :
    firesAfter inTick ticks = ticks ↔
      ticks < WHEEL_SIZE ∨ (ticks = WHEEL_SIZE ∧ inTick = false) := by
  unfold firesAfter
  cases inTick with
  | false =>
    simp only [Bool.false_eq_true, if_false, and_true]
    unfold WHEEL_SIZE
    omega
  | true =>
    simp only [if_true, reduceCtorEq, and_false, or_false]
    unfold WHEEL_SIZE
    omega

/-- Whatever the state of the wheel, the callback of a timer started for `d` ticks and left alone
runs exactly once, during the `d`-th tick that follows, if and only if `d` is less than a turn of
the wheel, or exactly one turn and the timer is not started within a tick. -/
theorem start_runs_on_time_iff {d : BitVec 32} (hw : c.ts.wheel.currentSpoke < WHEEL_SIZE)
    (hpos : 0 < d.toNat) (hs : ClockStep c (.start t d) c1) :
    RunsOnceAt c1 t (c.now + d.toNat) ↔
      d.toNat < WHEEL_SIZE ∨ (d.toNat = WHEEL_SIZE ∧ c.inTick = false) := by
  have honce := started_timer_runs_once hw hs
  rw [← firesAfter_eq_iff hpos]
  constructor
  · intro h
    exact Nat.add_left_cancel (honce.unique h)
  · intro h
    rw [h] at honce
    exact honce

end Clock

/-! ## A small clock -/

/-- A clock with one timer, which is not running. -/
def labClock : Clock Nat Nat :=
  ⟨(lmtimerCreate Timers.init .SMR_TIMER 0 none).1, false, 0, []⟩

/-- The clock after its timer is started. -/
def labClockStarted (d : BitVec 32) : Clock Nat Nat :=
  { labClock with
    ts := { labClock.ts with wheel := insertTimer (labClock.ts.wheel.unlink 0) 0 d.toNat } }

theorem labClock_start (d : BitVec 32) : ClockStep labClock (.start 0 d) (labClockStarted d) :=
  .start rfl

/-- A timer of three ticks runs on time. -/
theorem start_runs_on_time_three : RunsOnceAt (labClockStarted 3) 0 3 :=
  (start_runs_on_time_iff (by decide) (by decide) (labClock_start 3)).mpr (.inl (by decide))

/-- A timer of one turn and one tick expires at the first tick. -/
theorem long_timer_early :
    RunsOnceAt (labClockStarted 4097) 0 1 ∧ ¬ RunsOnceAt (labClockStarted 4097) 0 4097 := by
  have honce : RunsOnceAt (labClockStarted 4097) 0 1 :=
    started_timer_runs_once (by decide) (labClock_start 4097)
  exact ⟨honce, fun h => absurd (honce.unique h) (by decide)⟩

end Lispmob
