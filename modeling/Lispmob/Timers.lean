import Lispmob.Address
import Lispmob.Heap
import Lispmob.Program

/-!
# Timers, nonces and the tables that index them

The control plane keeps its timers in a wheel of `4096` spokes, finds the timers of an object
through `ptrs_to_timers_ht`, and finds the timer that sent a message by the nonce of the answer
through `nonces_ht`. A timer and its list of nonces are created and released together, so the nonce
table maps a nonce to a timer.

What each operation does to the timers, to the wheel and to the nonce table is stated in its `_spec`
lemma.

A released timer that is still listed somewhere is no fault by itself; reading or releasing it
again is.
-/

set_option linter.unusedSectionVars false

namespace Lispmob

open Prog List

/-- `WHEEL_SIZE`, the number of spokes. -/
def WHEEL_SIZE : Nat := 4096

/-- `timer_type`. -/
inductive TimerType where
  | EXPIRE_MAP_CACHE_TIMER
  | MAP_REGISTER_TIMER
  | MAP_REQUEST_RETRY_TIMER
  | RLOC_PROBING_TIMER
  | SMR_TIMER
  | SMR_INV_RETRY_TIMER
  | REG_SITE_EXPRY_TIMER
deriving DecidableEq, Repr

/-- A 64-bit nonce. -/
abbrev Nonce : Type := UInt64

/-- An `lmtimer_t` with the argument of its callback and its list of nonces, if it has one. Timers
are referred to by their identity in a heap. -/
structure Timer (α : Type) where
  type : TimerType
  cbArgument : α
  noncesLst : Option (List Nonce)

/-- A running timer in the wheel. -/
structure WheelLink where
  timer : Nat
  spoke : Nat
  rotationCount : Nat
deriving DecidableEq

/-- The timer wheel. The timers of a spoke are the links with its number, in list order. -/
structure TimerWheel where
  currentSpoke : Nat
  links : List WheelLink

/-- The timers of a process and the tables that refer to them. -/
structure Timers (ο α : Type) where
  timers : Heap (Timer α)
  wheel : TimerWheel
  /-- `ptrs_to_timers_ht`. -/
  ptrs : ο → Option (List Nat)
  /-- `nonces_ht`: the timer that owns the nonces list of a nonce. -/
  nonces : Nonce → Option Nat
  /-- History: every nonce ever inserted, with its timer. No operation reads it. -/
  issued : List (Nonce × Nat)

section Operations

variable {ο α : Type} [DecidableEq ο]

/-- No timers at all. -/
def Timers.init : Timers ο α :=
  ⟨Heap.empty, ⟨0, []⟩, fun _ => none, fun _ => none, []⟩

/-- `lmtimer_create` and `lmtimer_init`: a timer that is not running. -/
def lmtimerCreate (ts : Timers ο α) (type : TimerType) (arg : α)
    (noncesLst : Option (List Nonce)) : Timers ο α × Nat :=
  ({ ts with timers := ts.timers.alloc ⟨type, arg, noncesLst⟩ }, ts.timers.next)

/-- `htable_ptrs_timers_add`. -/
def htablePtrsTimersAdd (ts : Timers ο α) (obj : ο) (timer : Nat) : Timers ο α :=
  { ts with
    ptrs := fun o => if o = obj then some (timer :: (ts.ptrs obj).getD []) else ts.ptrs o }

/-- Read a timer. -/
def Timers.deref (ts : Timers ο α) (timer : Nat) : Except Fault (Timer α) :=
  match ts.timers.cell timer with
  | some tm => .ok tm
  | none => .error .useAfterFree

/-- `insert_timer`: the spoke `ticks` away, at its end. -/
def insertTimer (w : TimerWheel) (timer : Nat) (ticks : Nat) : TimerWheel :=
  { w with
    links := w.links ++
      [⟨timer, (w.currentSpoke + ticks % WHEEL_SIZE) % WHEEL_SIZE, ticks / WHEEL_SIZE⟩] }

/-- Take a timer off its spoke. -/
def TimerWheel.unlink (w : TimerWheel) (timer : Nat) : TimerWheel :=
  { w with links := w.links.filter (·.timer ≠ timer) }

/-- `lmtimer_start`. The `int` argument is read as an unsigned number of ticks. -/
def lmtimerStart (ts : Timers ο α) (timer : Nat) (sexpiry : BitVec 32) :
    Except Fault (Timers ο α) := do
  let _ ← ts.deref timer
  return { ts with wheel := insertTimer (ts.wheel.unlink timer) timer sexpiry.toNat }

/-- `lmtimer_stop`: unlink and release. -/
def lmtimerStop (ts : Timers ο α) (timer : Nat) : Except Fault (Timers ο α) := do
  let _ ← ts.deref timer
  return { ts with wheel := ts.wheel.unlink timer, timers := ts.timers.free timer }

/-- `htable_nonces_lookup` followed by `nonces_list_timer`. -/
def htableNoncesLookup (ts : Timers ο α) (nonce : Nonce) : Option Nat :=
  ts.nonces nonce

/-- `htable_nonces_insert` on the nonces list of a timer. -/
def htableNoncesInsert (ts : Timers ο α) (nonce : Nonce) (timer : Nat) :
    Except Fault (Timers ο α) := do
  let tm ← ts.deref timer
  match tm.noncesLst with
  | none => throw .nullDeref
  | some l =>
    return { ts with
      timers := ts.timers.modify timer fun tm => { tm with noncesLst := some (l ++ [nonce]) }
      nonces := fun n => if n = nonce then some timer else ts.nonces n
      issued := (nonce, timer) :: ts.issued }

/-- The loop of `htable_nonces_reset_nonces_lst`: a nonce found in the table leaves both the table
and the list. -/
def resetNoncesLoop (table : Nonce → Option Nat) :
    List Nonce → List Nonce × (Nonce → Option Nat)
  | [] => ([], table)
  | nonce :: rest =>
    match table nonce with
    | none =>
      let (l, table') := resetNoncesLoop table rest
      (nonce :: l, table')
    | some _ => resetNoncesLoop (fun n => if n = nonce then none else table n) rest

/-- `htable_nonces_reset_nonces_lst` on the nonces list of a timer. -/
def htableNoncesResetNoncesLst (ts : Timers ο α) (timer : Nat) :
    Except Fault (Timers ο α) := do
  let tm ← ts.deref timer
  match tm.noncesLst with
  | none => throw .nullDeref
  | some l =>
    let (l', table) := resetNoncesLoop ts.nonces l
    return { ts with
      timers := ts.timers.modify timer fun tm => { tm with noncesLst := some l' }
      nonces := table }

/-- The body shared by the stop functions: drop the nonces of the timer, then release it. -/
def stopTimer (ts : Timers ο α) (timer : Nat) : Except Fault (Timers ο α) :=
  match ts.timers.cell timer with
  | none => .error .stoppedTwice
  | some tm =>
    match tm.noncesLst with
    | none => lmtimerStop ts timer
    | some _ => do lmtimerStop (← htableNoncesResetNoncesLst ts timer) timer

/-- `stop_timer_from_obj`. A timer that is not listed under `obj` is released all the same. -/
def stopTimerFromObj (ts : Timers ο α) (obj : ο) (timer : Nat) : Except Fault (Timers ο α) :=
  let ts' := { ts with
    ptrs := fun o => if o = obj then (ts.ptrs obj).map (·.erase timer) else ts.ptrs o }
  stopTimer ts' timer

/-- The loop of the stop functions over a list of timers. -/
def stopEach (ts : Timers ο α) : List Nat → Except Fault (Timers ο α)
  | [] => .ok ts
  | timer :: rest => do
    let ts' ← stopTimer ts timer
    stopEach ts' rest

/-- `stop_timers_from_obj`. -/
def stopTimersFromObj (ts : Timers ο α) (obj : ο) : Except Fault (Timers ο α) :=
  match ts.ptrs obj with
  | none => .ok ts
  | some l => stopEach { ts with ptrs := fun o => if o = obj then none else ts.ptrs o } l

/-- The types of the timers of a list, all of which are read. -/
def timersOfType (ts : Timers ο α) (type : TimerType) :
    List Nat → Except Fault (List Nat × List Nat)
  | [] => .ok ([], [])
  | timer :: rest => do
    let tm ← ts.deref timer
    let (found, others) ← timersOfType ts type rest
    if tm.type = type then return (timer :: found, others)
    else return (found, timer :: others)

/-- `htable_ptrs_timers_get_timers_of_type`; `none` when the object has no list. The list is built
front to back by insertion at the front. -/
def htablePtrsTimersGetTimersOfType (ts : Timers ο α) (obj : ο) (type : TimerType) :
    Except Fault (Option (List Nat)) :=
  match ts.ptrs obj with
  | none => .ok none
  | some l => do
    let (found, _) ← timersOfType ts type l
    return some found.reverse

/-- `stop_timers_of_type_from_obj`. -/
def stopTimersOfTypeFromObj (ts : Timers ο α) (obj : ο) (type : TimerType) :
    Except Fault (Timers ο α) :=
  match ts.ptrs obj with
  | none => .ok ts
  | some l => do
    let (found, others) ← timersOfType ts type l
    stopEach { ts with ptrs := fun o => if o = obj then some others else ts.ptrs o } found.reverse

/-- What one iteration of the loop of `handle_timers` finds on the current spoke. -/
inductive WheelVisit (ο α : Type) where
  /-- The spoke is empty: the loop ends. -/
  | done
  /-- The first timer of the spoke has rotations left; one is taken away. -/
  | rotated (ts : Timers ο α)
  /-- The first timer of the spoke expires: it is unlinked and its callback is due. -/
  | expired (timer : Nat) (ts : Timers ο α)

/-- Advance the wheel, at the head of `handle_timers`. -/
def advanceSpoke (ts : Timers ο α) : Timers ο α :=
  { ts with
    wheel := { ts.wheel with currentSpoke := (ts.wheel.currentSpoke + 1) % WHEEL_SIZE } }

/-- One iteration of the loop of `handle_timers`. The loop continues at `prev->next`, where `prev`
is the head of the spoke, so every iteration visits the first timer of the spoke, also the one
whose rotation count it has just decremented. -/
def handleTimersVisit (ts : Timers ο α) : WheelVisit ο α :=
  match ts.wheel.links.find? (·.spoke = ts.wheel.currentSpoke) with
  | none => .done
  | some tptr =>
    if 0 < tptr.rotationCount then
      .rotated { ts with wheel := { ts.wheel with
        links := ts.wheel.links.map fun l =>
          if l.timer = tptr.timer then { l with rotationCount := l.rotationCount - 1 } else l } }
    else .expired tptr.timer { ts with wheel := ts.wheel.unlink tptr.timer }

end Operations

/-! ## What the operations do -/

section Specs

variable {ο α : Type} [DecidableEq ο] {ts ts' : Timers ο α} {t : Nat} {tm : Timer α}
  {type : TimerType} {obj : ο}

/-- A timer is running when it is linked into the wheel. -/
def Timers.running (ts : Timers ο α) (t : Nat) : Prop :=
  ∃ l ∈ ts.wheel.links, l.timer = t

instance (ts : Timers ο α) (t : Nat) : Decidable (ts.running t) :=
  inferInstanceAs (Decidable (∃ l ∈ ts.wheel.links, l.timer = t))

@[simp] theorem deref_ok : ts.deref t = .ok tm ↔ ts.timers.cell t = some tm := by
  unfold Timers.deref
  cases ts.timers.cell t <;> simp

/-- The timers of `l` are stopped and released: nothing else changes, except that their nonces
leave the nonce table. -/
structure Stopped (ts ts' : Timers ο α) (l : List Nat) : Prop where
  next : ts'.timers.next = ts.timers.next
  cell : ∀ i, ts'.timers.cell i = if i ∈ l then none else ts.timers.cell i
  spoke : ts'.wheel.currentSpoke = ts.wheel.currentSpoke
  links : ts'.wheel.links = ts.wheel.links.filter (·.timer ∉ l)
  nonces : ∀ n t, ts'.nonces n = some t → ts.nonces n = some t
  dropped : ∀ t ∈ l, ∀ tm lst, ts.timers.cell t = some tm → tm.noncesLst = some lst →
    ∀ n ∈ lst, ts'.nonces n = none
  kept : ∀ n, (∀ t ∈ l, ∀ tm lst, ts.timers.cell t = some tm → tm.noncesLst = some lst →
    n ∉ lst) → ts'.nonces n = ts.nonces n
  issued : ts'.issued = ts.issued
  live : ∀ t ∈ l, ∃ tm, ts.timers.cell t = some tm

theorem Stopped.of_ptrs {ptrs : ο → Option (List Nat)} {l : List Nat}
    (h : Stopped { ts with ptrs := ptrs } ts' l) : Stopped ts ts' l :=
  ⟨h.next, h.cell, h.spoke, h.links, h.nonces, h.dropped, h.kept, h.issued, h.live⟩

/-- Timers leave the list of an object, all those of `l` if none is listed twice. -/
structure Unlisted (ts ts' : Timers ο α) (obj : ο) (l : List Nat) : Prop where
  other : ∀ o ≠ obj, ts'.ptrs o = ts.ptrs o
  sub : ∀ lst', ts'.ptrs obj = some lst' → ∃ lst, ts.ptrs obj = some lst ∧ lst'.Sublist lst ∧
    (lst.Nodup → ∀ t ∈ lst', t ∉ l)
  kept : ∀ lst, ts.ptrs obj = some lst → ∀ t ∈ lst, t ∉ l →
    ∃ lst', ts'.ptrs obj = some lst' ∧ t ∈ lst'

/-- Resetting a list of nonces removes exactly its nonces from the table. -/
theorem resetNoncesLoop_table (l : List Nonce) :
    ∀ (table : Nonce → Option Nat) (n : Nonce),
      (resetNoncesLoop table l).2 n = if n ∈ l then none else table n := by
  induction l with
  | nil => intro table n; simp [resetNoncesLoop]
  | cons nonce rest ih =>
    intro table n
    unfold resetNoncesLoop
    cases hn : table nonce with
    | none =>
      simp only [ih, mem_cons]
      by_cases hnn : n = nonce
      · subst hnn
        simp [hn]
      · simp [hnn]
    | some t =>
      simp only [ih, mem_cons]
      by_cases hnn : n = nonce <;> simp [hnn]

theorem lmtimerStart_spec {d : BitVec 32} (h : lmtimerStart ts t d = .ok ts') :
    (∃ tm, ts.timers.cell t = some tm) ∧
      ts' = { ts with wheel := insertTimer (ts.wheel.unlink t) t d.toNat } := by
  simp only [lmtimerStart, except_bind_ok, deref_ok, except_pure_ok] at h
  obtain ⟨tm, htm, rfl⟩ := h
  exact ⟨⟨tm, htm⟩, rfl⟩

theorem htableNoncesInsert_spec {n : Nonce} (h : htableNoncesInsert ts n t = .ok ts') :
    ∃ tm l, ts.timers.cell t = some tm ∧ tm.noncesLst = some l ∧
      ts' = { ts with
        timers := ts.timers.modify t fun tm => { tm with noncesLst := some (l ++ [n]) }
        nonces := fun m => if m = n then some t else ts.nonces m
        issued := (n, t) :: ts.issued } := by
  simp only [htableNoncesInsert, except_bind_ok, deref_ok] at h
  obtain ⟨tm, htm, h⟩ := h
  cases hl : tm.noncesLst with
  | none => simp [hl] at h
  | some l =>
    simp only [hl, except_pure_ok] at h
    exact ⟨tm, l, htm, hl, h⟩

theorem htableNoncesResetNoncesLst_spec (h : htableNoncesResetNoncesLst ts t = .ok ts') :
    ∃ tm l, ts.timers.cell t = some tm ∧ tm.noncesLst = some l ∧
      ts' = { ts with
        timers := ts.timers.modify t fun tm =>
          { tm with noncesLst := some (resetNoncesLoop ts.nonces l).1 }
        nonces := fun n => if n ∈ l then none else ts.nonces n } := by
  simp only [htableNoncesResetNoncesLst, except_bind_ok, deref_ok] at h
  obtain ⟨tm, htm, h⟩ := h
  cases hl : tm.noncesLst with
  | none => simp [hl] at h
  | some l =>
    simp only [hl, except_pure_ok] at h
    refine ⟨tm, l, htm, hl, ?_⟩
    rw [h]
    congr 1
    funext n
    exact resetNoncesLoop_table l ts.nonces n

theorem stopTimer_eq (h : stopTimer ts t = .ok ts') : ∃ tm, ts.timers.cell t = some tm ∧
    ts' = { ts with
      timers := ts.timers.free t
      wheel := ts.wheel.unlink t
      nonces := fun n => if n ∈ tm.noncesLst.getD [] then none else ts.nonces n } := by
  unfold stopTimer at h
  cases htm : ts.timers.cell t with
  | none => simp [htm] at h
  | some tm =>
    refine ⟨tm, rfl, ?_⟩
    simp only [htm] at h
    cases hl : tm.noncesLst with
    | none =>
      simp only [hl, lmtimerStop, except_bind_ok, except_pure_ok] at h
      obtain ⟨-, -, rfl⟩ := h
      simp
    | some l =>
      simp only [hl, except_bind_ok, lmtimerStop, except_pure_ok] at h
      obtain ⟨ts1, hreset, -, -, rfl⟩ := h
      obtain ⟨tm', l', htm', hl', rfl⟩ := htableNoncesResetNoncesLst_spec hreset
      cases htm.symm.trans htm'
      cases hl.symm.trans hl'
      simp [Heap.modify_free]

theorem stopTimer_spec (h : stopTimer ts t = .ok ts') : Stopped ts ts' [t] ∧
    ts'.ptrs = ts.ptrs := by
  obtain ⟨tm, htm, rfl⟩ := stopTimer_eq h
  -- the only list of nonces in question is that of `tm`
  have hlist : ∀ t' ∈ [t], ∀ tm' lst, ts.timers.cell t' = some tm' → tm'.noncesLst = some lst →
      tm.noncesLst.getD [] = lst := by
    intro t' ht' tm' lst htm' hlst
    rw [mem_singleton.mp ht', htm] at htm'
    cases htm'
    rw [hlst, Option.getD_some]
  refine ⟨⟨rfl, ?_, rfl, ?_, ?_, ?_, ?_, rfl, ?_⟩, rfl⟩
  · simp [Heap.free_cell]
  · simp [TimerWheel.unlink]
  · intro n t' hn
    dsimp only at hn
    split_ifs at hn
    exact hn
  · intro t' ht' tm' lst htm' hlst n hn
    exact if_pos (hlist t' ht' tm' lst htm' hlst ▸ hn)
  · intro n hn
    refine if_neg fun hmem => ?_
    cases hl : tm.noncesLst with
    | none => simp [hl] at hmem
    | some lst => exact hn t (by simp) tm lst htm hl (by simpa [hl] using hmem)
  · intro i hi
    exact ⟨tm, by rw [mem_singleton.mp hi, htm]⟩

/-- Releasing the timers of a list one after the other. -/
theorem stopEach_spec (l : List Nat) : ∀ {ts ts' : Timers ο α},
    stopEach ts l = .ok ts' → Stopped ts ts' l ∧ ts'.ptrs = ts.ptrs := by
  induction l with
  | nil =>
    intro ts ts' h
    simp only [stopEach, Except.ok.injEq] at h
    subst h
    exact ⟨⟨rfl, by simp, rfl, (filter_eq_self.mpr (by simp)).symm, fun _ _ h => h, by simp,
      fun _ _ => rfl, rfl, by simp⟩, rfl⟩
  | cons timer rest ih =>
    intro ts ts' h
    simp only [stopEach, except_bind_ok] at h
    obtain ⟨ts1, h1, h2⟩ := h
    obtain ⟨s1, p1⟩ := stopTimer_spec h1
    obtain ⟨s2, p2⟩ := ih h2
    have hcell := s1.cell
    -- the timers of `rest` are live after the first release, so `timer` is not among them
    have hnot : timer ∉ rest := by
      intro hmem
      obtain ⟨tm, htm⟩ := s2.live timer hmem
      simp [hcell] at htm
    refine ⟨⟨s2.next.trans s1.next, ?_, s2.spoke.trans s1.spoke, ?_, ?_, ?_, ?_,
      s2.issued.trans s1.issued, ?_⟩, p2.trans p1⟩
    · intro i
      rw [s2.cell, hcell]
      grind
    · rw [s2.links, s1.links, filter_filter]
      congr 1
      grind
    · exact fun n t h => s1.nonces n t (s2.nonces n t h)
    · intro i hi tm lst htm hlst n hn
      by_cases hir : i ∈ rest
      · have htm1 : ts1.timers.cell i = some tm := by
          rw [hcell, if_neg (by grind), htm]
        exact s2.dropped i hir tm lst htm1 hlst n hn
      · have hi' : i = timer := by grind
        have h0 := s1.dropped timer (by simp) tm lst (hi' ▸ htm) hlst n hn
        cases hc : ts'.nonces n with
        | none => rfl
        | some t =>
          rw [s2.nonces n t hc] at h0
          cases h0
    · intro n hn
      rw [s2.kept n, s1.kept n]
      · intro i hi tm lst htm
        exact hn i (by grind) tm lst htm
      · intro i hi tm lst htm
        exact hn i (by grind) tm lst (by grind)
    · intro i hi
      by_cases hir : i ∈ rest
      · obtain ⟨tm, htm⟩ := s2.live i hir
        exact ⟨tm, by grind⟩
      · exact s1.live i (by grind)

theorem stopTimerFromObj_spec (h : stopTimerFromObj ts obj t = .ok ts') :
    Stopped ts ts' [t] ∧ Unlisted ts ts' obj [t] := by
  obtain ⟨hs, hp⟩ := stopTimer_spec h
  refine ⟨hs.of_ptrs, fun o ho => by simp [hp, ho], fun lst' ho => ?_, fun lst ho i hi hnot => ?_⟩
  · simp only [hp, if_true] at ho
    obtain ⟨lst, hlst, rfl⟩ := Option.map_eq_some_iff.mp ho
    refine ⟨lst, hlst, erase_sublist, fun hnodup i hi hit => ?_⟩
    rw [mem_singleton.mp hit] at hi
    exact hnodup.not_mem_erase hi
  · exact ⟨lst.erase t, by simp [hp, ho], (mem_erase_of_ne (by simpa using hnot)).mpr hi⟩

theorem stopTimersFromObj_spec (h : stopTimersFromObj ts obj = .ok ts') :
    Stopped ts ts' ((ts.ptrs obj).getD []) ∧
      (ts'.ptrs = fun o => if o = obj then none else ts.ptrs o) ∧
      Unlisted ts ts' obj ((ts.ptrs obj).getD []) := by
  obtain ⟨hs, hptrs⟩ : Stopped ts ts' ((ts.ptrs obj).getD []) ∧
      ts'.ptrs = fun o => if o = obj then none else ts.ptrs o := by
    unfold stopTimersFromObj at h
    cases hp : ts.ptrs obj with
    | none =>
      simp only [hp] at h
      obtain ⟨hs, hptrs⟩ := @stopEach_spec _ _ _ [] ts ts' h
      refine ⟨hs, funext fun o => ?_⟩
      split_ifs with ho
      · rw [hptrs, ho, hp]
      · rw [hptrs]
    | some l =>
      simp only [hp] at h
      obtain ⟨hs, hptrs⟩ := stopEach_spec l h
      exact ⟨hs.of_ptrs, hptrs⟩
  refine ⟨hs, hptrs, fun o ho => by simp [hptrs, ho], by simp [hptrs], fun lst ho i hi hnot => ?_⟩
  rw [ho] at hnot
  exact absurd hi hnot

/-- The partition by type keeps the order of the list. -/
theorem timersOfType_sublist : ∀ {l found others : List Nat},
    timersOfType ts type l = .ok (found, others) → found.Sublist l ∧ others.Sublist l
  | [], found, others, h => by
    simp only [timersOfType, Except.ok.injEq, Prod.mk.injEq] at h
    simp [← h.1, ← h.2]
  | t :: rest, found, others, h => by
    simp only [timersOfType, except_bind_ok] at h
    obtain ⟨tm, -, ⟨f, o⟩, hrest, h⟩ := h
    obtain ⟨hf, ho⟩ := timersOfType_sublist hrest
    split_ifs at h
    · obtain ⟨rfl, rfl⟩ := Prod.mk.inj (except_pure_ok.mp h)
      exact ⟨hf.cons_cons t, ho.cons t⟩
    · obtain ⟨rfl, rfl⟩ := Prod.mk.inj (except_pure_ok.mp h)
      exact ⟨hf.cons t, ho.cons_cons t⟩

/-- The partition of a list of timers by type; all of them are live. -/
theorem timersOfType_spec (l : List Nat) : ∀ {found others : List Nat},
    timersOfType ts type l = .ok (found, others) →
      (∀ t ∈ l, ∃ tm, ts.timers.cell t = some tm) ∧
      (∀ t, t ∈ found ↔ t ∈ l ∧ ∃ tm, ts.timers.cell t = some tm ∧ tm.type = type) ∧
      (∀ t, t ∈ others ↔ t ∈ l ∧ ∃ tm, ts.timers.cell t = some tm ∧ tm.type ≠ type) := by
  induction l with
  | nil =>
    intro found others h
    simp only [timersOfType, Except.ok.injEq, Prod.mk.injEq] at h
    simp [← h.1, ← h.2]
  | cons timer rest ih =>
    intro found others h
    simp only [timersOfType, except_bind_ok, deref_ok] at h
    obtain ⟨tm, htm, ⟨f, o⟩, hrest, h⟩ := h
    obtain ⟨h1, h2, h3⟩ := ih hrest
    refine ⟨?_, ?_⟩
    · intro i hi
      rcases mem_cons.mp hi with rfl | hi
      · exact ⟨tm, htm⟩
      · exact h1 i hi
    · split_ifs at h with hty
      · simp only [except_pure_ok, Prod.mk.injEq] at h
        grind
      · simp only [except_pure_ok, Prod.mk.injEq] at h
        grind

theorem stopTimersOfTypeFromObj_spec (h : stopTimersOfTypeFromObj ts obj type = .ok ts') :
    ∃ l, Stopped ts ts' l ∧
      (∀ t, t ∈ l ↔ t ∈ (ts.ptrs obj).getD [] ∧ ∃ tm, ts.timers.cell t = some tm ∧ tm.type = type) ∧
      Unlisted ts ts' obj l := by
  unfold stopTimersOfTypeFromObj at h
  cases hp : ts.ptrs obj with
  | none =>
    simp only [hp] at h
    obtain ⟨hs, hptrs⟩ := @stopEach_spec _ _ _ [] ts ts' h
    exact ⟨[], hs, by simp, fun o _ => by rw [hptrs], by simp [hptrs, hp], by simp [hp]⟩
  | some lst =>
    simp only [hp, except_bind_ok] at h
    obtain ⟨⟨found, others⟩, hpart, h⟩ := h
    obtain ⟨h1, h2, h3⟩ := timersOfType_spec lst hpart
    obtain ⟨hs, hptrs⟩ := stopEach_spec _ h
    refine ⟨found.reverse, hs.of_ptrs, fun t => ?_, fun o ho => by simp [hptrs, ho],
      fun lst' ho => ?_, fun lst' hlst t ht hnot => ⟨others, by simp [hptrs], ?_⟩⟩
    · rw [mem_reverse]
      exact h2 t
    · simp only [hptrs, if_true, Option.some.injEq] at ho
      refine ⟨lst, hp, ho ▸ (timersOfType_sublist hpart).2, fun _ t ht hmem => ?_⟩
      obtain ⟨-, tm, htm, hty⟩ := (h2 t).mp (mem_reverse.mp hmem)
      obtain ⟨-, tm', htm', hty'⟩ := (h3 t).mp (ho ▸ ht)
      cases htm.symm.trans htm'
      exact hty' hty
    · grind

/-- What one iteration of the loop of `handle_timers` does. -/
theorem handleTimersVisit_spec (ts : Timers ο α) : match handleTimersVisit ts with
    | .done => ∀ l ∈ ts.wheel.links, l.spoke ≠ ts.wheel.currentSpoke
    | .rotated ts' => ∃ g : WheelLink → WheelLink,
        (∀ l, (g l).timer = l.timer ∧ (g l).spoke = l.spoke) ∧
          ts' = { ts with wheel := { ts.wheel with links := ts.wheel.links.map g } }
    | .expired t ts' => (∃ l ∈ ts.wheel.links, l.timer = t ∧ l.spoke = ts.wheel.currentSpoke) ∧
        ts' = { ts with wheel := ts.wheel.unlink t } := by
  unfold handleTimersVisit
  cases hf : ts.wheel.links.find? (·.spoke = ts.wheel.currentSpoke) with
  | none => simpa using find?_eq_none.mp hf
  | some tptr =>
    by_cases hrot : 0 < tptr.rotationCount
    · simp only [hrot, if_true]
      refine ⟨_, fun l => ?_, rfl⟩
      split_ifs <;> simp
    · simp only [hrot, if_false, and_true]
      exact ⟨tptr, mem_of_find?_eq_some hf, rfl, by simpa using find?_some hf⟩

end Specs

end Lispmob
