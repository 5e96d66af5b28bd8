import Lispmob.Timers

/-!
# The timer tables fit together

`Timers.Wf` says how the tables fit together: every table refers to live timers, and every live
timer is listed under the object it belongs to. All the operations keep it.

`Timers.kind` is what never changes about a timer. `Timers.Released` says which timers an operation
releases, and `Timers.Evolves` what holds of the timers over any number of operations.
-/

set_option linter.unusedSectionVars false

namespace Lispmob

open List Heap

section Wf

variable {ο α : Type} [DecidableEq ο] {obj : ο} {type : TimerType} {n : Nonce} {p : Nat → Prop}

/-- The types of the timers whose callback sends a message with a nonce. -/
def TimerType.hasNonces : TimerType → Bool
  | .MAP_REGISTER_TIMER | .MAP_REQUEST_RETRY_TIMER | .RLOC_PROBING_TIMER | .SMR_INV_RETRY_TIMER =>
    true
  | _ => false

/-- How the tables fit together. `owner` is the object a timer belongs to, read off the argument of
its callback. -/
structure Timers.Wf (owner : α → Option ο) (ts : Timers ο α) : Prop where
  linked_live : ∀ l ∈ ts.wheel.links, ∃ tm, ts.timers.cell l.timer = some tm
  linked_once : (ts.wheel.links.map (·.timer)).Nodup
  nonce_listed : ∀ n t, ts.nonces n = some t →
    ∃ tm l, ts.timers.cell t = some tm ∧ tm.noncesLst = some l ∧ n ∈ l
  nonce_issued : ∀ n t, ts.nonces n = some t → (n, t) ∈ ts.issued
  issued_old : ∀ n t, (n, t) ∈ ts.issued → t < ts.timers.next
  listed_old : ∀ o l, ts.ptrs o = some l → ∀ t ∈ l, t < ts.timers.next
  listed_owner : ∀ o l, ts.ptrs o = some l → ∀ t ∈ l, ∀ tm, ts.timers.cell t = some tm →
    owner tm.cbArgument = some o
  owner_listed : ∀ t tm o, ts.timers.cell t = some tm → owner tm.cbArgument = some o →
    ∃ l, ts.ptrs o = some l ∧ t ∈ l
  spoke_lt : ts.wheel.currentSpoke < WHEEL_SIZE
  link_spoke : ∀ l ∈ ts.wheel.links, l.spoke < WHEEL_SIZE
  list_type : ∀ t tm, ts.timers.cell t = some tm → tm.noncesLst ≠ none → tm.type.hasNonces = true

variable {owner : α → Option ο} {ts ts' : Timers ο α} {t : Nat} {w : TimerWheel} {l : List Nat}
  {nl : Option (List Nonce)} {x : TimerType × α} {d : BitVec 32} {arg : α}

theorem Timers.Wf.init : (Timers.init : Timers ο α).Wf owner := by
  constructor <;> simp [Timers.init, WHEEL_SIZE]

/-- Releasing timers keeps the tables well formed, when the lists of the objects lose nothing but
released timers. -/
theorem Timers.Wf.stopped (h : ts.Wf owner) (hs : Stopped ts ts' l)
    (hu : Unlisted ts ts' obj l) : ts'.Wf owner := by
  have hsub : ∀ o lst', ts'.ptrs o = some lst' →
      ∃ lst, ts.ptrs o = some lst ∧ ∀ t ∈ lst', t ∈ lst := by
    intro o lst' ho
    by_cases hobj : o = obj
    · subst hobj
      obtain ⟨lst, hlst, hle, -⟩ := hu.sub lst' ho
      exact ⟨lst, hlst, fun t ht => hle.subset ht⟩
    · exact ⟨lst', hu.other o hobj ▸ ho, fun t ht => ht⟩
  constructor
  · intro k hk
    rw [hs.links, mem_filter] at hk
    obtain ⟨tm, htm⟩ := h.linked_live k hk.1
    refine ⟨tm, ?_⟩
    rw [hs.cell, if_neg (by simpa using hk.2), htm]
  · rw [hs.links]
    exact h.linked_once.sublist (filter_sublist.map _)
  · intro n t hn
    obtain ⟨tm, lst, htm, hlst, hmem⟩ := h.nonce_listed n t (hs.nonces n t hn)
    refine ⟨tm, lst, ?_, hlst, hmem⟩
    rw [hs.cell, if_neg, htm]
    intro ht
    rw [hs.dropped t ht tm lst htm hlst n hmem] at hn
    cases hn
  · intro n t hn
    rw [hs.issued]
    exact h.nonce_issued n t (hs.nonces n t hn)
  · intro n t hn
    rw [hs.issued] at hn
    rw [hs.next]
    exact h.issued_old n t hn
  · intro o lst' ho t ht
    obtain ⟨lst, hlst, hmem⟩ := hsub o lst' ho
    rw [hs.next]
    exact h.listed_old o lst hlst t (hmem t ht)
  · intro o lst' ho t ht tm htm
    obtain ⟨lst, hlst, hmem⟩ := hsub o lst' ho
    rw [hs.cell] at htm
    exact h.listed_owner o lst hlst t (hmem t ht) tm (by grind)
  · intro t tm o htm ho
    rw [hs.cell] at htm
    obtain ⟨lst, hlst, hmem⟩ := h.owner_listed t tm o (by grind) ho
    by_cases hobj : o = obj
    · subst hobj
      exact hu.kept lst hlst t hmem (by grind)
    · exact ⟨lst, hu.other o hobj ▸ hlst, hmem⟩
  · rw [hs.spoke]
    exact h.spoke_lt
  · intro k hk
    rw [hs.links, mem_filter] at hk
    exact h.link_spoke k hk.1
  · intro t tm htm
    rw [hs.cell] at htm
    exact h.list_type t tm (by grind)

/-- `stop_timer_from_obj` keeps the tables well formed. -/
theorem Timers.Wf.stopTimerFromObj (h : ts.Wf owner)
    (hx : Lispmob.stopTimerFromObj ts obj t = .ok ts') : ts'.Wf owner :=
  h.stopped (stopTimerFromObj_spec hx).1 (stopTimerFromObj_spec hx).2

/-- `stop_timers_from_obj` keeps the tables well formed. -/
theorem Timers.Wf.stopTimersFromObj (h : ts.Wf owner)
    (hx : Lispmob.stopTimersFromObj ts obj = .ok ts') : ts'.Wf owner := by
  obtain ⟨hs, -, hu⟩ := stopTimersFromObj_spec hx
  exact h.stopped hs hu

/-- `stop_timers_of_type_from_obj` keeps the tables well formed. -/
theorem Timers.Wf.stopTimersOfTypeFromObj (h : ts.Wf owner)
    (hx : Lispmob.stopTimersOfTypeFromObj ts obj type = .ok ts') : ts'.Wf owner := by
  obtain ⟨l, hs, -, hu⟩ := stopTimersOfTypeFromObj_spec hx
  exact h.stopped hs hu

/-- Creating a timer without an owner keeps the tables well formed. -/
theorem Timers.Wf.lmtimerCreate (h : ts.Wf owner)
    (ho : owner arg = none) (hnl : nl ≠ none → type.hasNonces = true) :
    (Lispmob.lmtimerCreate ts type arg nl).1.Wf owner := by
  obtain ⟨h1, h2, h3, h4, h5, h6, h7, h8, h9, h10, h11⟩ := h
  constructor <;> simp only [Lispmob.lmtimerCreate, alloc_cell, alloc_next] <;> grind

/-- Creating a timer and listing it under its owner keeps the tables well formed. -/
theorem Timers.Wf.newTimer (h : ts.Wf owner)
    (ho : owner arg = some obj) (hnl : nl ≠ none → type.hasNonces = true) :
    (htablePtrsTimersAdd (Lispmob.lmtimerCreate ts type arg nl).1 obj ts.timers.next).Wf owner := by
  obtain ⟨h1, h2, h3, h4, h5, h6, h7, h8, h9, h10, h11⟩ := h
  constructor
  · simp only [htablePtrsTimersAdd, Lispmob.lmtimerCreate, alloc_cell]
    grind
  · exact h2
  · simp only [htablePtrsTimersAdd, Lispmob.lmtimerCreate, alloc_cell]
    grind
  · exact h4
  · simp only [htablePtrsTimersAdd, Lispmob.lmtimerCreate, alloc_next]
    grind
  · simp only [htablePtrsTimersAdd, Lispmob.lmtimerCreate, alloc_next]
    intro o l hl t ht
    split_ifs at hl with hobj
    · cases hl
      cases hp : ts.ptrs obj with
      | none => simp [hp] at ht; omega
      | some lst =>
        grind
    · have := h6 o l hl t ht
      omega
  · simp only [htablePtrsTimersAdd, Lispmob.lmtimerCreate, alloc_cell]
    intro o l hl t ht tm htm
    split_ifs at hl with hobj
    · cases hp : ts.ptrs obj with
      | none => grind
      | some lst =>
        grind
    · grind
  · simp only [htablePtrsTimersAdd, Lispmob.lmtimerCreate, alloc_cell]
    intro t tm o htm hto
    split_ifs at htm with ht
    · cases htm
      rw [hto] at ho
      cases ho
      exact ⟨_, if_pos rfl, by simp [ht]⟩
    · obtain ⟨l, hl, hmem⟩ := h8 t tm o htm hto
      split_ifs with hobj
      · exact ⟨_, rfl, by simp [← hobj, hl, hmem]⟩
      · exact ⟨l, hl, hmem⟩
  · exact h9
  · exact h10
  · simp only [htablePtrsTimersAdd, Lispmob.lmtimerCreate, alloc_cell]
    grind

/-- The timers of a wheel after one of them is unlinked and linked again. -/
theorem insertTimer_unlink_timers (w : TimerWheel) (t : Nat) (ticks : Nat) :
    (insertTimer (w.unlink t) t ticks).links.map (·.timer) =
      (w.links.map (·.timer)).filter (· ≠ t) ++ [t] := by
  simp [insertTimer, TimerWheel.unlink, filter_map, Function.comp_def]

/-- The links of a wheel after a timer is unlinked and linked again. -/
theorem mem_insertTimer_unlink {t ticks : Nat} {l : WheelLink} :
    l ∈ (insertTimer (w.unlink t) t ticks).links ↔ (l ∈ w.links ∧ l.timer ≠ t) ∨
      l = ⟨t, (w.currentSpoke + ticks % WHEEL_SIZE) % WHEEL_SIZE, ticks / WHEEL_SIZE⟩ := by
  simp [insertTimer, TimerWheel.unlink]

theorem Timers.Wf.lmtimerStart (h : ts.Wf owner)
    (hx : Lispmob.lmtimerStart ts t d = .ok ts') : ts'.Wf owner := by
  obtain ⟨⟨tm, htm⟩, rfl⟩ := lmtimerStart_spec hx
  obtain ⟨h1, h2, h3, h4, h5, h6, h7, h8, h9, h10, h11⟩ := h
  refine ⟨?_, ?_, h3, h4, h5, h6, h7, h8, h9, ?_, h11⟩
  · intro l hl
    rcases mem_insertTimer_unlink.mp hl with hl | rfl
    · exact h1 l hl.1
    · exact ⟨tm, htm⟩
  · rw [insertTimer_unlink_timers, nodup_append]
    exact ⟨h2.filter _, by simp, by simp⟩
  · intro l hl
    rcases mem_insertTimer_unlink.mp hl with hl | rfl
    · exact h10 l hl.1
    · exact Nat.mod_lt _ (by decide)

/-- `htable_nonces_insert` keeps the tables well formed. -/
theorem Timers.Wf.htableNoncesInsert (h : ts.Wf owner)
    (hx : Lispmob.htableNoncesInsert ts n t = .ok ts') : ts'.Wf owner := by
  obtain ⟨tm, l, htm, hl, rfl⟩ := htableNoncesInsert_spec hx
  have hlt := lt_next htm
  obtain ⟨h1, h2, h3, h4, h5, h6, h7, h8, h9, h10, h11⟩ := h
  refine ⟨?_, h2, ?_, ?_, ?_, h6, ?_, ?_, h9, h10, ?_⟩ <;>
    simp only [modify_cell, modify_next]
  · grind
  · intro m t' hm
    split_ifs at hm with hmn
    · cases hm
      exact ⟨{ tm with noncesLst := some (l ++ [n]) }, l ++ [n], by simp [htm], rfl, by simp [hmn]⟩
    · obtain ⟨tm', l', htm', hl', hmem⟩ := h3 m t' hm
      by_cases htt : t' = t
      · subst htt
        rw [htm] at htm'
        cases htm'
        rw [hl] at hl'
        cases hl'
        exact ⟨{ tm with noncesLst := some (l ++ [n]) }, l ++ [n], by simp [htm],
          rfl, by simp [hmem]⟩
      · exact ⟨tm', l', by simp [htt, htm'], hl', hmem⟩
  · grind
  · grind
  · grind
  · grind
  · grind

/-- `htable_nonces_reset_nonces_lst` keeps the tables well formed. -/
theorem Timers.Wf.htableNoncesResetNoncesLst (h : ts.Wf owner)
    (hx : Lispmob.htableNoncesResetNoncesLst ts t = .ok ts') : ts'.Wf owner := by
  obtain ⟨tm, l, htm, hl, rfl⟩ := htableNoncesResetNoncesLst_spec hx
  obtain ⟨h1, h2, h3, h4, h5, h6, h7, h8, h9, h10, h11⟩ := h
  refine ⟨?_, h2, ?_, ?_, h5, h6, ?_, ?_, h9, h10, ?_⟩ <;> simp only [modify_cell]
  · grind
  · intro m t' hm
    split_ifs at hm with hmn
    obtain ⟨tm', l', htm', hl', hmem⟩ := h3 m t' hm
    have htt : t' ≠ t := by
      rintro rfl
      rw [htm] at htm'
      cases htm'
      rw [hl] at hl'
      cases hl'
      exact hmn hmem
    exact ⟨tm', l', by simp [htt, htm'], hl', hmem⟩
  · grind
  · grind
  · grind
  · grind

theorem Timers.Wf.unlink (h : ts.Wf owner) :
    ({ ts with wheel := ts.wheel.unlink t } : Timers ο α).Wf owner := by
  obtain ⟨h1, h2, h3, h4, h5, h6, h7, h8, h9, h10, h11⟩ := h
  refine ⟨fun l hl => h1 l (mem_filter.mp hl).1, ?_, h3, h4, h5, h6, h7, h8, h9,
    fun l hl => h10 l (mem_filter.mp hl).1, h11⟩
  exact h2.sublist (filter_sublist.map _)

/-- Advancing the wheel keeps the tables well formed. -/
theorem Timers.Wf.advanceSpoke (h : ts.Wf owner) : (Lispmob.advanceSpoke ts).Wf owner := by
  obtain ⟨h1, h2, h3, h4, h5, h6, h7, h8, -, h10, h11⟩ := h
  exact ⟨h1, h2, h3, h4, h5, h6, h7, h8, Nat.mod_lt _ (by decide), h10, h11⟩

/-- Taking away a rotation keeps the tables well formed. -/
theorem Timers.Wf.rotated {g : WheelLink → WheelLink} (h : ts.Wf owner)
    (hg : ∀ l, (g l).timer = l.timer ∧ (g l).spoke = l.spoke) :
    ({ ts with wheel := { ts.wheel with links := ts.wheel.links.map g } } :
      Timers ο α).Wf owner := by
  obtain ⟨h1, h2, h3, h4, h5, h6, h7, h8, h9, h10, h11⟩ := h
  refine ⟨?_, ?_, h3, h4, h5, h6, h7, h8, h9, ?_, h11⟩
  · intro l hl
    obtain ⟨k, hk, rfl⟩ := mem_map.mp hl
    rw [(hg k).1]
    exact h1 k hk
  · rw [map_map, show (fun l => l.timer) ∘ g = fun l : WheelLink => l.timer from
      funext fun l => (hg l).1]
    exact h2
  · intro l hl
    obtain ⟨k, hk, rfl⟩ := mem_map.mp hl
    rw [(hg k).2]
    exact h10 k hk

/-! ## Types and arguments of timers -/

/-- The type of a timer and the argument of its callback, which never change while it lives. -/
def Timers.kind (ts : Timers ο α) (t : Nat) : Option (TimerType × α) :=
  (ts.timers.cell t).map fun tm => (tm.type, tm.cbArgument)

theorem kind_eq_some_iff {ty : TimerType} {a : α} :
    ts.kind t = some (ty, a) ↔
      ∃ tm, ts.timers.cell t = some tm ∧ tm.type = ty ∧ tm.cbArgument = a := by
  simp [Timers.kind]

theorem Timers.Wf.running_kind (h : ts.Wf owner) (hr : ts.running t) : ∃ x, ts.kind t = some x := by
  obtain ⟨l, hl, rfl⟩ := hr
  obtain ⟨tm, htm⟩ := h.linked_live l hl
  exact ⟨_, by rw [Timers.kind, htm, Option.map_some]⟩

theorem Timers.Wf.nonce_kind (h : ts.Wf owner) (hn : ts.nonces n = some t) :
    ∃ x, ts.kind t = some x := by
  obtain ⟨tm, lst, htm, -⟩ := h.nonce_listed n t hn
  exact ⟨(tm.type, tm.cbArgument), by rw [Timers.kind, htm, Option.map_some]⟩

/-- A nonce of the table belongs to a timer of a type that has nonces. -/
theorem Timers.Wf.nonce_type (h : ts.Wf owner) (hn : ts.nonces n = some t)
    (hx : ts.kind t = some x) : x.1.hasNonces = true := by
  obtain ⟨tm, lst, htm, hlst, -⟩ := h.nonce_listed n t hn
  rw [Timers.kind, htm, Option.map_some] at hx
  cases hx
  exact h.list_type t tm htm (by rw [hlst]; exact Option.some_ne_none lst)

/-- The timers that meet `p` are stopped and released. -/
structure Timers.Released (ts ts' : Timers ο α) (p : Nat → Prop) : Prop where
  kind : ∀ t x, ts'.kind t = some x ↔ ts.kind t = some x ∧ ¬ p t
  links : ∀ l, l ∈ ts'.wheel.links ↔ l ∈ ts.wheel.links ∧ ¬ p l.timer
  spoke : ts'.wheel.currentSpoke = ts.wheel.currentSpoke
  next : ts'.timers.next = ts.timers.next

/-- The running timers after some of them are released. -/
theorem Timers.Released.running (h : ts.Released ts' p) : ts'.running t ↔ ts.running t ∧ ¬ p t := by
  constructor
  · rintro ⟨l, hl, rfl⟩
    obtain ⟨h1, h2⟩ := (h.links l).mp hl
    exact ⟨⟨l, h1, rfl⟩, h2⟩
  · rintro ⟨⟨l, hl, rfl⟩, h2⟩
    exact ⟨l, (h.links l).mpr ⟨hl, h2⟩, rfl⟩

/-- Stopping a list of timers, when the live ones in it are those that meet `p`. -/
theorem Stopped.released (hw : ts.Wf owner) (hs : Stopped ts ts' l)
    (hp : ∀ t x, ts.kind t = some x → (t ∈ l ↔ p t)) : ts.Released ts' p := by
  refine ⟨?_, ?_, hs.spoke, hs.next⟩
  · intro t x
    simp only [Timers.kind, hs.cell]
    constructor
    · intro hk
      split_ifs at hk with ht
      · cases hk
      · exact ⟨hk, fun hpt => ht ((hp t x hk).mpr hpt)⟩
    · rintro ⟨hk, hpt⟩
      rw [if_neg fun ht => hpt ((hp t x hk).mp ht)]
      exact hk
  · intro k
    rw [hs.links, mem_filter]
    refine and_congr_right fun hk => ?_
    obtain ⟨x, hx⟩ := hw.running_kind ⟨k, hk, rfl⟩
    simp [hp k.timer x hx]

theorem stopTimerFromObj_released (hw : ts.Wf owner)
    (hx : Lispmob.stopTimerFromObj ts obj t = .ok ts') : ts.Released ts' (· = t) :=
  (stopTimerFromObj_spec hx).1.released hw fun _ _ _ => mem_singleton

/-- The timers of an object are the ones listed under it. -/
theorem Timers.Wf.mem_ptrs_iff (hw : ts.Wf owner) (hk : ts.kind t = some x) :
    t ∈ (ts.ptrs obj).getD [] ↔ owner x.2 = some obj := by
  obtain ⟨tm, htm, -, harg⟩ := kind_eq_some_iff.mp hk
  rw [← harg]
  constructor
  · intro hmem
    cases hp : ts.ptrs obj with
    | none => simp [hp] at hmem
    | some l =>
      rw [hp] at hmem
      exact hw.listed_owner obj l hp t hmem tm htm
  · intro ho
    obtain ⟨l, hl, hmem⟩ := hw.owner_listed t tm obj htm ho
    rw [hl]
    exact hmem

/-- `stop_timers_from_obj` releases the timers of the object. -/
theorem stopTimersFromObj_released (hw : ts.Wf owner)
    (hx : Lispmob.stopTimersFromObj ts obj = .ok ts') :
    ts.Released ts' fun t => ∃ ty a, ts.kind t = some (ty, a) ∧ owner a = some obj := by
  refine (stopTimersFromObj_spec hx).1.released hw fun t x hk => ?_
  rw [hw.mem_ptrs_iff hk]
  constructor
  · exact fun ho => ⟨x.1, x.2, hk, ho⟩
  · rintro ⟨ty, a, hk', ho⟩
    rw [hk] at hk'
    cases hk'
    exact ho

/-- `stop_timers_of_type_from_obj` releases the timers of the object that have the type. -/
theorem stopTimersOfTypeFromObj_released (hw : ts.Wf owner)
    (hx : Lispmob.stopTimersOfTypeFromObj ts obj type = .ok ts') :
    ts.Released ts' fun t => ∃ a, ts.kind t = some (type, a) ∧ owner a = some obj := by
  obtain ⟨l, hs, hl, -⟩ := stopTimersOfTypeFromObj_spec hx
  refine hs.released hw fun t x hk => ?_
  rw [hl, hw.mem_ptrs_iff hk]
  constructor
  · rintro ⟨ho, tm, htm, rfl⟩
    refine ⟨x.2, ?_, ho⟩
    rw [Timers.kind, htm, Option.map_some] at hk
    cases hk
    rw [Timers.kind, htm, Option.map_some]
  · rintro ⟨a, hk', ho⟩
    rw [hk] at hk'
    cases hk'
    obtain ⟨tm, htm, hty, -⟩ := kind_eq_some_iff.mp hk
    exact ⟨ho, tm, htm, hty⟩

/-! ## Timers over time -/

theorem Timers.Released.kind_le (h : ts.Released ts' p) :
    ∀ t x, ts'.kind t = some x → ts.kind t = some x :=
  fun t x hx => ((h.kind t x).mp hx).1

/-- How the timers change over any number of operations. A timer keeps its kind until it is
released, its identity is never used again, and a new timer has a kind that meets `P`. -/
structure Timers.Evolves (owner : α → Option ο) (P : TimerType → α → Prop)
    (ts ts' : Timers ο α) : Prop where
  wf : ts.Wf owner → ts'.Wf owner
  next : ts.timers.next ≤ ts'.timers.next
  kind : ∀ t < ts.timers.next, ∀ x, ts'.kind t = some x → ts.kind t = some x
  new : ∀ t, ts.timers.next ≤ t → ∀ ty a, ts'.kind t = some (ty, a) → P ty a
  issued : ∀ p ∈ ts.issued, p ∈ ts'.issued

namespace Timers.Evolves

variable {P : TimerType → α → Prop} {ts1 ts2 ts3 : Timers ο α} {ptrs : ο → Option (List Nat)}
    {nonces : Nonce → Option Nat}
  {issued : List (Nonce × Nat)}

theorem kind_of_le (h : ts.timers.next ≤ t) : ts.kind t = none := by
  rw [Timers.kind, ts.timers.fresh t h, Option.map_none]

theorem of_kind_le (hwf : ts.Wf owner → ts'.Wf owner) (hnext : ts'.timers.next = ts.timers.next)
    (hkind : ∀ t x, ts'.kind t = some x → ts.kind t = some x)
    (hissued : ∀ p ∈ ts.issued, p ∈ ts'.issued) : ts.Evolves owner P ts' := by
  refine ⟨hwf, Nat.le_of_eq hnext.symm, fun t _ x => hkind t x, fun t ht ty a hk => ?_, hissued⟩
  rw [kind_of_le (hnext ▸ ht)] at hk
  cases hk

theorem refl (ts : Timers ο α) : ts.Evolves owner P ts :=
  of_kind_le id rfl (fun _ _ h => h) fun _ h => h

/-- What holds of the kinds of all timers and of those that are created. -/
theorem kinds (h : ts.Evolves owner P ts') (hP : ∀ t ty a, ts.kind t = some (ty, a) → P ty a) :
    ∀ t ty a, ts'.kind t = some (ty, a) → P ty a := by
  intro t ty a hk
  rcases Nat.lt_or_ge t ts.timers.next with hlt | hge
  · exact hP t ty a (h.kind t hlt _ hk)
  · exact h.new t hge ty a hk

theorem trans (h₁ : ts1.Evolves owner P ts2) (h₂ : ts2.Evolves owner P ts3) :
    ts1.Evolves owner P ts3 := by
  refine ⟨fun h => h₂.wf (h₁.wf h), Nat.le_trans h₁.next h₂.next, ?_, ?_,
    fun p hp => h₂.issued p (h₁.issued p hp)⟩
  · intro t ht x hx
    exact h₁.kind t ht x (h₂.kind t (Nat.lt_of_lt_of_le ht h₁.next) x hx)
  · intro t ht ty a hk
    by_cases hlt : t < ts2.timers.next
    · exact h₁.new t ht ty a (h₂.kind t hlt _ hk)
    · exact h₂.new t (Nat.not_lt.mp hlt) ty a hk

theorem lmtimerStart (hx : Lispmob.lmtimerStart ts t d = .ok ts') : ts.Evolves owner P ts' := by
  refine of_kind_le (·.lmtimerStart hx) ?_ ?_ ?_ <;> obtain ⟨-, rfl⟩ := lmtimerStart_spec hx
  · rfl
  · exact fun _ _ h => h
  · exact fun _ h => h

theorem kind_modify {f : Option (List Nonce)} (i : Nat) :
    (⟨ts.timers.modify t fun tm => { tm with noncesLst := f }, w, ptrs, nonces, issued⟩ :
      Timers ο α).kind i = ts.kind i := by
  simp only [Timers.kind, modify_cell]
  split_ifs with hi
  · simp [hi, Function.comp_def]
  · rfl

theorem htableNoncesInsert {n : Nonce} (hx : Lispmob.htableNoncesInsert ts n t = .ok ts') :
    ts.Evolves owner P ts' := by
  refine of_kind_le (·.htableNoncesInsert hx) ?_ ?_ ?_ <;>
    obtain ⟨tm, l, -, -, rfl⟩ := htableNoncesInsert_spec hx
  · rfl
  · intro i x hi
    rw [kind_modify] at hi
    exact hi
  · exact fun p hp => mem_cons_of_mem _ hp

/-- `htable_nonces_reset_nonces_lst` keeps the kinds. -/
theorem htableNoncesResetNoncesLst (hx : Lispmob.htableNoncesResetNoncesLst ts t = .ok ts') :
    ts.Evolves owner P ts' := by
  refine of_kind_le (·.htableNoncesResetNoncesLst hx) ?_ ?_ ?_ <;>
    obtain ⟨tm, l, -, -, rfl⟩ := htableNoncesResetNoncesLst_spec hx
  · rfl
  · intro i x hi
    rw [kind_modify] at hi
    exact hi
  · exact fun _ h => h

theorem stopped (hwf : ts.Wf owner → ts'.Wf owner) (hs : Stopped ts ts' l) :
    ts.Evolves owner P ts' := by
  refine of_kind_le hwf hs.next ?_ (fun p hp => by rw [hs.issued]; exact hp)
  intro t x hx
  simp only [Timers.kind, hs.cell] at hx
  split_ifs at hx
  · cases hx
  · exact hx

theorem stopTimerFromObj (hx : Lispmob.stopTimerFromObj ts obj t = .ok ts') :
    ts.Evolves owner P ts' :=
  stopped (·.stopTimerFromObj hx) (stopTimerFromObj_spec hx).1

theorem stopTimersFromObj (hx : Lispmob.stopTimersFromObj ts obj = .ok ts') :
    ts.Evolves owner P ts' :=
  stopped (·.stopTimersFromObj hx) (stopTimersFromObj_spec hx).1

theorem stopTimersOfTypeFromObj (hx : Lispmob.stopTimersOfTypeFromObj ts obj type = .ok ts') :
    ts.Evolves owner P ts' := by
  obtain ⟨l, hs, -⟩ := stopTimersOfTypeFromObj_spec hx
  exact stopped (·.stopTimersOfTypeFromObj hx) hs

theorem kind_alloc (i : Nat) :
    (⟨ts.timers.alloc ⟨type, arg, nl⟩, w, ptrs, nonces, issued⟩ : Timers ο α).kind i =
      if i = ts.timers.next then some (type, arg) else ts.kind i := by
  simp only [Timers.kind, alloc_cell]
  split_ifs <;> rfl

theorem of_alloc (hP : P type arg) (hwf : ts.Wf owner → ts'.Wf owner)
    (htimers : ts'.timers = ts.timers.alloc ⟨type, arg, nl⟩) (hissued : ts'.issued = ts.issued) :
    ts.Evolves owner P ts' := by
  have hkind : ∀ i, ts'.kind i = if i = ts.timers.next then some (type, arg) else ts.kind i := by
    intro i
    obtain ⟨_, _, _, _, _⟩ := ts'
    subst htimers
    exact kind_alloc i
  refine ⟨hwf, ?_, ?_, ?_, fun p hp => by rw [hissued]; exact hp⟩
  · rw [htimers, alloc_next]
    exact Nat.le_succ _
  · intro t ht x hx
    rw [hkind, if_neg (Nat.ne_of_lt ht)] at hx
    exact hx
  · intro t ht ty a hk
    rw [hkind] at hk
    split_ifs at hk
    · cases hk
      exact hP
    · rw [kind_of_le ht] at hk
      cases hk

theorem newTimer (ho : owner arg = some obj) (hP : P type arg)
    (hnl : nl ≠ none → type.hasNonces = true) :
    ts.Evolves owner P
      (htablePtrsTimersAdd (Lispmob.lmtimerCreate ts type arg nl).1 obj ts.timers.next) :=
  of_alloc hP (·.newTimer ho hnl) rfl rfl

theorem lmtimerCreate (ho : owner arg = none) (hP : P type arg)
    (hnl : nl ≠ none → type.hasNonces = true) :
    ts.Evolves owner P (Lispmob.lmtimerCreate ts type arg nl).1 :=
  of_alloc hP (·.lmtimerCreate ho hnl) rfl rfl

end Timers.Evolves

end Wf

end Lispmob
