import Lispmob.TimerTables

/-!
# The pointer table lists exactly the live timers

`Timers.Wf` leaves room for a timer that was released and is still listed under an object.
`Timers.Tabled` does not: what `ptrs_to_timers_ht` lists under an object are its live timers, each
of them once. The stop functions then find no timer that is stopped already, whatever object they
are called for.

`stop_timer_from_obj` is told the timer and the object. It keeps the table exact when the timer
belongs to the object; otherwise the timer is released and stays listed under its owner.
-/

set_option linter.unusedSectionVars false

namespace Lispmob

open Prog List Option Heap

section Tabled

variable {ο α : Type} [DecidableEq ο] {owner : α → Option ο} {ts ts' : Timers ο α} {t : Nat}
  {tm : Timer α} {l : List Nat} {i : Nat}

/-- The pointer table lists under every object its live timers, each of them once. -/
structure Timers.Tabled (owner : α → Option ο) (ts : Timers ο α) : Prop where
  wf : ts.Wf owner
  listed_live : ∀ o l, ts.ptrs o = some l → ∀ t ∈ l, ∃ tm, ts.timers.cell t = some tm
  listed_once : ∀ o l, ts.ptrs o = some l → l.Nodup

/-! ## Stopping live timers -/

theorem stopTimer_ok (h : ts.timers.cell t = some tm) : ∃ ts', stopTimer ts t = .ok ts' := by
  have hstop : ∀ {ts : Timers ο α} {tm : Timer α}, ts.timers.cell t = some tm →
      ∃ ts', lmtimerStop ts t = .ok ts' := fun h =>
    ⟨_, except_bind_ok.mpr ⟨_, deref_ok.mpr h, rfl⟩⟩
  cases hl : tm.noncesLst with
  | none =>
    obtain ⟨ts', h'⟩ := hstop h
    exact ⟨ts', by simp only [stopTimer, h, hl, h']⟩
  | some l =>
    obtain ⟨ts1, h1⟩ : ∃ ts1, htableNoncesResetNoncesLst ts t = .ok ts1 :=
      ⟨_, except_bind_ok.mpr ⟨_, deref_ok.mpr h, by simp only [hl]; rfl⟩⟩
    have hlive : ∃ tm', ts1.timers.cell t = some tm' := by
      obtain ⟨tm1, l1, htm1, -, rfl⟩ := htableNoncesResetNoncesLst_spec h1
      exact ⟨_, by rw [modify_cell, if_pos rfl, htm1, map_some]⟩
    obtain ⟨tm', htm'⟩ := hlive
    obtain ⟨ts', h'⟩ := hstop htm'
    exact ⟨ts', by simp only [stopTimer, h, hl, h1, bind, Except.bind, h']⟩

/-- Live timers can be stopped one after the other, each of them once. -/
theorem stopEach_ok : ∀ {l : List Nat} {ts : Timers ο α}, l.Nodup →
    (∀ t ∈ l, ∃ tm, ts.timers.cell t = some tm) → ∃ ts', stopEach ts l = .ok ts'
  | [], ts, _, _ => ⟨ts, rfl⟩
  | t :: rest, ts, hnodup, hlive => by
    obtain ⟨hnot, hrest⟩ := nodup_cons.mp hnodup
    obtain ⟨tm, htm⟩ := hlive t mem_cons_self
    obtain ⟨ts1, h1⟩ := stopTimer_ok htm
    have hlive1 : ∀ i ∈ rest, ∃ tm, ts1.timers.cell i = some tm := by
      intro i hi
      obtain ⟨tmi, htmi⟩ := hlive i (mem_cons_of_mem _ hi)
      have hne : i ∉ [t] := by
        rw [mem_singleton]
        rintro rfl
        exact hnot hi
      exact ⟨tmi, by rw [(stopTimer_spec h1).1.cell, if_neg hne, htmi]⟩
    obtain ⟨ts', h'⟩ := stopEach_ok hrest hlive1
    exact ⟨ts', by rw [stopEach, h1]; exact h'⟩

theorem timersOfType_ok (type : TimerType) : ∀ {l : List Nat},
    (∀ t ∈ l, ∃ tm, ts.timers.cell t = some tm) → ∃ r, timersOfType ts type l = .ok r
  | [], _ => ⟨_, rfl⟩
  | t :: rest, hlive => by
    obtain ⟨tm, htm⟩ := hlive t mem_cons_self
    obtain ⟨⟨found, others⟩, hrest⟩ :=
      timersOfType_ok type fun i hi => hlive i (mem_cons_of_mem _ hi)
    simp only [timersOfType, Timers.deref, htm, hrest, bind, Except.bind]
    split_ifs
    · exact ⟨_, rfl⟩
    · exact ⟨_, rfl⟩

namespace Timers.Tabled

/-! ## Operations that release nothing -/

theorem init : (Timers.init : Timers ο α).Tabled owner :=
  ⟨.init, by simp [Timers.init], by simp [Timers.init]⟩

/-- An operation that releases no timer and leaves the pointer table alone. -/
theorem of_same (h : ts.Tabled owner) (hwf : ts'.Wf owner)
    (hcell : ∀ t tm, ts.timers.cell t = some tm → ∃ tm', ts'.timers.cell t = some tm')
    (hptrs : ts'.ptrs = ts.ptrs) : ts'.Tabled owner := by
  refine ⟨hwf, fun o l hl t ht => ?_, fun o l hl => h.listed_once o l (hptrs ▸ hl)⟩
  obtain ⟨tm, htm⟩ := h.listed_live o l (hptrs ▸ hl) t ht
  exact hcell t tm htm

theorem lmtimerStart {d : BitVec 32} (h : ts.Tabled owner)
    (hx : Lispmob.lmtimerStart ts t d = .ok ts') : ts'.Tabled owner := by
  have hwf := h.wf.lmtimerStart hx
  obtain ⟨-, rfl⟩ := lmtimerStart_spec hx
  exact h.of_same hwf (fun _ tm htm => ⟨tm, htm⟩) rfl

/-- Writing the list of nonces of a timer releases nothing. -/
theorem modify_live {f : Timer α → Timer α} {tmi : Timer α}
    (hi : ts.timers.cell i = some tmi) : ∃ tm', (ts.timers.modify t f).cell i = some tm' := by
  rw [modify_cell]
  split_ifs with hit
  · exact ⟨f tmi, by rw [← hit, hi, map_some]⟩
  · exact ⟨tmi, hi⟩

theorem htableNoncesInsert {n : Nonce} (h : ts.Tabled owner)
    (hx : Lispmob.htableNoncesInsert ts n t = .ok ts') : ts'.Tabled owner := by
  have hwf := h.wf.htableNoncesInsert hx
  obtain ⟨tm, l, -, -, rfl⟩ := htableNoncesInsert_spec hx
  exact h.of_same hwf (fun _ _ hi => modify_live hi) rfl

theorem htableNoncesResetNoncesLst (h : ts.Tabled owner)
    (hx : Lispmob.htableNoncesResetNoncesLst ts t = .ok ts') : ts'.Tabled owner := by
  have hwf := h.wf.htableNoncesResetNoncesLst hx
  obtain ⟨tm, l, -, -, rfl⟩ := htableNoncesResetNoncesLst_spec hx
  exact h.of_same hwf (fun _ _ hi => modify_live hi) rfl

theorem of_wheel {w : TimerWheel} (h : ts.Tabled owner)
    (hwf : ({ ts with wheel := w } : Timers ο α).Wf owner) :
    ({ ts with wheel := w } : Timers ο α).Tabled owner :=
  h.of_same hwf (fun _ tm htm => ⟨tm, htm⟩) rfl

/-- A timer that is live stays so when another one is created. -/
theorem alloc_live {x tmi : Timer α} (hi : ts.timers.cell i = some tmi) :
    ∃ tm', (ts.timers.alloc x).cell i = some tm' := by
  rw [alloc_cell, if_neg (Nat.ne_of_lt (lt_next hi))]
  exact ⟨tmi, hi⟩

variable {nl : Option (List Nonce)} {obj : ο} {type : TimerType} {arg : α}

theorem lmtimerCreate
    (h : ts.Tabled owner) (ho : owner arg = none) (hnl : nl ≠ none → type.hasNonces = true) :
    (Lispmob.lmtimerCreate ts type arg nl).1.Tabled owner :=
  h.of_same (h.wf.lmtimerCreate ho hnl) (fun _ _ hi => alloc_live hi) rfl

theorem newTimer
    (h : ts.Tabled owner) (ho : owner arg = some obj) (hnl : nl ≠ none → type.hasNonces = true) :
    (htablePtrsTimersAdd (Lispmob.lmtimerCreate ts type arg nl).1 obj ts.timers.next).Tabled
      owner := by
  -- the list of an object is the one before, with the new timer in front for `obj`
  have hlist : ∀ o l, (htablePtrsTimersAdd (Lispmob.lmtimerCreate ts type arg nl).1 obj
      ts.timers.next).ptrs o = some l →
      ts.ptrs o = some l ∨ l = ts.timers.next :: (ts.ptrs o).getD [] := by
    intro o l hl
    simp only [htablePtrsTimersAdd, Lispmob.lmtimerCreate] at hl
    split_ifs at hl with hobj
    · cases hl
      exact .inr (by rw [hobj])
    · exact .inl hl
  refine ⟨h.wf.newTimer ho hnl, fun o l hl t ht => ?_, fun o l hl => ?_⟩
  · obtain hl | rfl := hlist o l hl
    · obtain ⟨tm, htm⟩ := h.listed_live o l hl t ht
      exact alloc_live htm
    · rcases mem_cons.mp ht with rfl | ht
      · exact ⟨⟨type, arg, nl⟩, by simp [htablePtrsTimersAdd, Lispmob.lmtimerCreate,
          alloc_cell]⟩
      · cases hp : ts.ptrs o with
        | none => simp [hp] at ht
        | some lst =>
          obtain ⟨tm, htm⟩ := h.listed_live o lst hp t (by simpa [hp] using ht)
          exact alloc_live htm
  · obtain hl | rfl := hlist o l hl
    · exact h.listed_once o l hl
    · cases hp : ts.ptrs o with
      | none => simp
      | some lst =>
        refine nodup_cons.mpr ⟨fun hmem => ?_, h.listed_once o lst hp⟩
        exact absurd (h.wf.listed_old o lst hp _ hmem) (Nat.lt_irrefl _)

/-! ## Stopping -/

theorem listed_unique (h : ts.Tabled owner) {o o' : ο} {l l' : List Nat} (hl : ts.ptrs o = some l)
    (hl' : ts.ptrs o' = some l') (ht : t ∈ l) (ht' : t ∈ l') : o = o' := by
  obtain ⟨tm, htm⟩ := h.listed_live o l hl t ht
  have hown := h.wf.listed_owner o l hl t ht tm htm
  rw [h.wf.listed_owner o' l' hl' t ht' tm htm] at hown
  exact (some.inj hown).symm

/-- Timers of an object are released, and it lists them no more. -/
theorem stopped (h : ts.Tabled owner) (hs : Stopped ts ts' l)
    (hu : Unlisted ts ts' obj l) (hlisted : ∀ t ∈ l, t ∈ (ts.ptrs obj).getD []) :
    ts'.Tabled owner := by
  have hsub : ∀ o lst', ts'.ptrs o = some lst' → ∃ lst, ts.ptrs o = some lst ∧ lst'.Sublist lst ∧
      ∀ t ∈ lst', t ∉ l := by
    intro o lst' ho
    by_cases hobj : o = obj
    · subst hobj
      obtain ⟨lst, hlst, hle, hgone⟩ := hu.sub lst' ho
      exact ⟨lst, hlst, hle, hgone (h.listed_once o lst hlst)⟩
    · rw [hu.other o hobj] at ho
      refine ⟨lst', ho, .refl _, fun t ht hmem => ?_⟩
      have hmem := hlisted t hmem
      cases hp : ts.ptrs obj with
      | none => simp [hp] at hmem
      | some lst => exact hobj (h.listed_unique ho hp ht (by simpa [hp] using hmem))
  refine ⟨h.wf.stopped hs hu, fun o lst' ho t ht => ?_, fun o lst' ho => ?_⟩
  · obtain ⟨lst, hlst, hle, hnot⟩ := hsub o lst' ho
    obtain ⟨tm, htm⟩ := h.listed_live o lst hlst t (hle.subset ht)
    exact ⟨tm, by rw [hs.cell, if_neg (hnot t ht), htm]⟩
  · obtain ⟨lst, hlst, hle, -⟩ := hsub o lst' ho
    exact (h.listed_once o lst hlst).sublist hle

theorem stopTimersFromObj (h : ts.Tabled owner) (obj : ο) :
    ∃ ts', Lispmob.stopTimersFromObj ts obj = .ok ts' ∧ ts'.Tabled owner := by
  obtain ⟨ts', hx⟩ : ∃ ts', Lispmob.stopTimersFromObj ts obj = .ok ts' := by
    unfold Lispmob.stopTimersFromObj
    cases hp : ts.ptrs obj with
    | none => exact ⟨ts, rfl⟩
    | some l => exact stopEach_ok (h.listed_once obj l hp) (h.listed_live obj l hp)
  obtain ⟨hs, -, hu⟩ := stopTimersFromObj_spec hx
  exact ⟨ts', hx, h.stopped hs hu fun _ ht => ht⟩

/-- The timers of one type of an object can always be stopped. -/
theorem stopTimersOfTypeFromObj (h : ts.Tabled owner) (obj : ο) (type : TimerType) :
    ∃ ts', Lispmob.stopTimersOfTypeFromObj ts obj type = .ok ts' ∧ ts'.Tabled owner := by
  obtain ⟨ts', hx⟩ : ∃ ts', Lispmob.stopTimersOfTypeFromObj ts obj type = .ok ts' := by
    unfold Lispmob.stopTimersOfTypeFromObj
    cases hp : ts.ptrs obj with
    | none => exact ⟨ts, rfl⟩
    | some lst =>
      obtain ⟨⟨found, others⟩, hpart⟩ := timersOfType_ok type (h.listed_live obj lst hp)
      obtain ⟨hfound, -⟩ := timersOfType_sublist hpart
      simp only [hpart, bind, Except.bind]
      refine stopEach_ok (pairwise_reverse.mpr
        (((h.listed_once obj lst hp).sublist hfound).imp Ne.symm)) fun t ht => ?_
      exact h.listed_live obj lst hp t (hfound.subset (mem_reverse.mp ht))
  obtain ⟨l, hs, hl, hu⟩ := stopTimersOfTypeFromObj_spec hx
  exact ⟨ts', hx, h.stopped hs hu fun t ht => ((hl t).mp ht).1⟩

/-- A timer can be stopped through the object it belongs to. -/
theorem stopTimerFromObj (h : ts.Tabled owner) (hcell : ts.timers.cell t = some tm)
    (hown : owner tm.cbArgument = some obj) :
    ∃ ts', Lispmob.stopTimerFromObj ts obj t = .ok ts' ∧ ts'.Tabled owner := by
  have hcell' : ({ ts with
      ptrs := fun o => if o = obj then (ts.ptrs obj).map (·.erase t) else ts.ptrs o } :
        Timers ο α).timers.cell t = some tm := hcell
  obtain ⟨ts', hx⟩ : ∃ ts', Lispmob.stopTimerFromObj ts obj t = .ok ts' := stopTimer_ok hcell'
  obtain ⟨hs, hu⟩ := stopTimerFromObj_spec hx
  refine ⟨ts', hx, h.stopped hs hu fun i hi => ?_⟩
  obtain ⟨lst, hlst, hmem⟩ := h.wf.owner_listed t tm obj hcell hown
  rw [mem_singleton.mp hi, hlst]
  exact hmem

end Timers.Tabled

end Tabled

end Lispmob
