import Lispmob.XtrChanges

/-!
# The running timers of one kind

A timer is *armed* as `(ty, a)` at a spoke when it is live with that type and argument and linked
into the wheel at that spoke. `SameArmed` says that an effect leaves the armed timers of one kind
alone. Every effect has a lemma that says for which kinds this is so, and those that start timers
one that says which timers are armed afterwards.
-/

namespace Lispmob

open List

/-- The timer `t` runs, with this type and argument, on the spoke `sp`. -/
def Timers.Armed (ts : Timers TimerOwner TimerArg) (ty : TimerType) (a : TimerArg)
    (t sp : Nat) : Prop :=
  ts.kind t = some (ty, a) ∧ ∃ l ∈ ts.wheel.links, l.timer = t ∧ l.spoke = sp

/-- The armed timers of this kind are the same, on the same spokes. -/
def SameArmed (ts ts' : Timers TimerOwner TimerArg) (ty : TimerType) (a : TimerArg) : Prop :=
  ∀ t sp, ts'.Armed ty a t sp ↔ ts.Armed ty a t sp

section Armed

variable {R F : Type} {W : World R F} {env : CtrlEnv} {s s' s0 s1 s2 s3 : Xtr R}
  {ts ts' ts1 ts2 ts3 : Timers TimerOwner TimerArg} {t e : Nat} {ty : TimerType} {a : TimerArg}
  {new : List (TimerType × TimerArg × Nat)} {p : Nat → Prop} {ty' : TimerType} {a' : TimerArg}
  {ticks : Nat}

theorem SameArmed.refl (ts : Timers TimerOwner TimerArg) (ty : TimerType) (a : TimerArg) :
    SameArmed ts ts ty a :=
  fun _ _ => Iff.rfl

theorem SameArmed.trans (h1 : SameArmed ts1 ts2 ty a) (h2 : SameArmed ts2 ts3 ty a) :
    SameArmed ts1 ts3 ty a :=
  fun t sp => (h2 t sp).trans (h1 t sp)

theorem SameArmed.of_eq (h : ts' = ts) : SameArmed ts ts' ty a :=
  h ▸ .refl ts ty a

theorem SameArmed.of_kind_links (hkind : ∀ i, ts'.kind i = ts.kind i)
    (hlinks : ∀ l, l ∈ ts'.wheel.links ↔ l ∈ ts.wheel.links) : SameArmed ts ts' ty a := by
  intro t sp
  simp only [Timers.Armed, hkind, hlinks]

/-! ## Effects on the tables -/

theorem Timers.Released.armed (h : ts.Released ts' p)
    (hp : ∀ i, ts.kind i = some (ty, a) → ¬ p i) : SameArmed ts ts' ty a := by
  intro t sp
  constructor
  · rintro ⟨hk, l, hl, hlt, hsp⟩
    exact ⟨h.kind_le t _ hk, l, ((h.links l).mp hl).1, hlt, hsp⟩
  · rintro ⟨hk, l, hl, rfl, hsp⟩
    exact ⟨(h.kind _ _).mpr ⟨hk, hp _ hk⟩, l, (h.links l).mpr ⟨hl, hp _ hk⟩, rfl, hsp⟩

theorem Timers.Released.running_kind (h : ts.Released ts' p)
    (hw : ts.Wf TimerArg.owner) (i : Nat) (hi : ts'.running i) : ∃ x, ts'.kind i = some x := by
  obtain ⟨hi, hp⟩ := h.running.mp hi
  obtain ⟨x, hx⟩ := hw.running_kind hi
  exact ⟨x, (h.kind i x).mpr ⟨hx, hp⟩⟩

/-- Linking a timer again: it is armed on its new spoke, and the others are as they were. -/
theorem Relinked.armed_iff {ticks i sp : Nat} (h : Relinked ts ts' t ticks) :
    ts'.Armed ty a i sp ↔ (i ≠ t ∧ ts.Armed ty a i sp) ∨
      (i = t ∧ ts.kind t = some (ty, a) ∧ sp = (ts.wheel.linkFor t ticks).spoke) := by
  unfold Timers.Armed
  rw [h.kind, h.wheel]
  constructor
  · rintro ⟨hk, l, hl, rfl, rfl⟩
    rcases mem_insertTimer_unlink.mp hl with ⟨hl, hne⟩ | rfl
    · exact .inl ⟨hne, hk, l, hl, rfl, rfl⟩
    · exact .inr ⟨rfl, hk, rfl⟩
  · rintro (⟨hne, hk, l, hl, rfl, rfl⟩ | ⟨rfl, hk, rfl⟩)
    · exact ⟨hk, l, mem_insertTimer_unlink.mpr (.inl ⟨hl, hne⟩), rfl, rfl⟩
    · exact ⟨hk, _, mem_insertTimer_unlink.mpr (.inr rfl), rfl, rfl⟩

theorem Relinked.armed (h : Relinked ts ts' t ticks)
    (hne : ts.kind t ≠ some (ty, a)) : SameArmed ts ts' ty a := by
  intro i sp
  rw [h.armed_iff]
  constructor
  · rintro (⟨-, h⟩ | ⟨-, hk, -⟩)
    · exact h
    · exact absurd hk hne
  · intro harmed
    refine .inl ⟨?_, harmed⟩
    rintro rfl
    exact hne harmed.1

theorem unlink_armed (hne : ts.kind t ≠ some (ty, a)) :
    SameArmed ts { ts with wheel := ts.wheel.unlink t } ty a := by
  intro i sp
  constructor
  · rintro ⟨hk, l, hl, hlt, hsp⟩
    exact ⟨hk, l, (mem_filter.mp hl).1, hlt, hsp⟩
  · rintro ⟨hk, l, hl, rfl, hsp⟩
    refine ⟨hk, l, mem_filter.mpr ⟨hl, ?_⟩, rfl, hsp⟩
    simp only [ne_eq, decide_not, Bool.not_eq_eq_eq_not, Bool.not_true, decide_eq_false_iff_not]
    rintro rfl
    exact hne hk

/-- Starting new timers: those of the kind are armed in addition. -/
theorem Grown.armed_iff {i sp : Nat}
    (h : Grown ts ts' new) (hlive : ∀ i, ts.running i → ∃ x, ts.kind i = some x) :
    ts'.Armed ty a i sp ↔ ts.Armed ty a i sp ∨ ∃ j ticks, new[j]? = some (ty, a, ticks) ∧
      i = ts.timers.next + j ∧ sp = (ts.wheel.linkFor i ticks).spoke := by
  constructor
  · rintro ⟨hk, l, hl, rfl, rfl⟩
    rcases (h.links l).mp hl with hl | ⟨j, ⟨ty', a', ticks⟩, hx, rfl⟩
    · obtain ⟨x, hx⟩ := hlive _ ⟨l, hl, rfl⟩
      rw [h.kind, if_pos (Grown.lt_next_of_kind hx)] at hk
      exact .inl ⟨hk, l, hl, rfl, rfl⟩
    · have hi : (ts.wheel.linkFor (ts.timers.next + j) ticks).timer = ts.timers.next + j := rfl
      rw [hi, h.kind, if_neg (by omega), Nat.add_sub_cancel_left, hx] at hk
      cases hk
      exact .inr ⟨j, ticks, hx, rfl, rfl⟩
  · rintro (⟨hk, l, hl, rfl, rfl⟩ | ⟨j, ticks, hx, rfl, rfl⟩)
    · refine ⟨?_, l, (h.links l).mpr (.inl hl), rfl, rfl⟩
      rw [h.kind, if_pos (Grown.lt_next_of_kind hk), hk]
    · refine ⟨?_, _, (h.links _).mpr (.inr ⟨j, _, hx, rfl⟩), rfl, rfl⟩
      rw [h.kind, if_neg (by omega), Nat.add_sub_cancel_left, hx, Option.map_some]

theorem Grown.armed (h : Grown ts ts' new) (hlive : ∀ i, ts.running i → ∃ x, ts.kind i = some x)
    (hnew : ∀ x ∈ new, (x.1, x.2.1) ≠ (ty, a)) : SameArmed ts ts' ty a := by
  intro i sp
  rw [h.armed_iff hlive]
  refine or_iff_left ?_
  rintro ⟨j, ticks, hx, -, -⟩
  exact hnew _ (mem_of_getElem? hx) rfl

/-! ## Effects on the router -/

theorem Idle.armed (h : Idle W s s') : SameArmed s.ts s'.ts ty a :=
  .of_kind_links h.kind h.links

theorem LocalOnly.armed (h : LocalOnly W s s') (hw : s.Wf) (ha : a.entry = some e) :
    SameArmed s.ts s'.ts ty a := by
  have hsame := h.entries hw.timers hw.smr
  intro i sp
  unfold Timers.Armed
  rw [hsame.kind i ty a e ha]
  refine and_congr_right fun hk => ?_
  constructor
  · rintro ⟨l, hl, rfl, hsp⟩
    exact ⟨l, (hsame.links l ty a e hk ha).mp hl, rfl, hsp⟩
  · rintro ⟨l, hl, rfl, hsp⟩
    exact ⟨l, (hsame.links l ty a e hk ha).mpr hl, rfl, hsp⟩

theorem Touched.armed (h : Touched W s s') : SameArmed s.ts s'.ts ty a :=
  .of_eq (by rw [h.rest])

theorem Edited.armed {me me' : Mce R} (h : Edited W s s' e me me') : SameArmed s.ts s'.ts ty a :=
  .of_eq (by rw [h.rest])

theorem EntryCreated.armed {me : Mce R} (h : EntryCreated s s' me) : SameArmed s.ts s'.ts ty a :=
  .of_eq (by rw [h.rest])

theorem Listed.armed (h : Listed W s s' ty' a') (hw : s.Wf) : SameArmed s.ts s'.ts ty a := by
  intro i sp
  unfold Timers.Armed
  rw [h.kind, h.wheel]
  split_ifs with hi
  · -- the new timer is not linked
    constructor
    · rintro ⟨-, l, hl, hlt, -⟩
      obtain ⟨x, hx⟩ := hw.timers.running_kind ⟨l, hl, rfl⟩
      exact absurd (hlt.trans hi) (Nat.ne_of_lt (Grown.lt_next_of_kind hx))
    · rintro ⟨hk, -⟩
      exact absurd hi (Nat.ne_of_lt (Grown.lt_next_of_kind hk))
  · rfl

theorem StartedFor.armed
    (h : StartedFor W s s' ty' a' ticks) (hw : s.Wf) (hne : (ty', a') ≠ (ty, a)) :
    SameArmed s.ts s'.ts ty a := by
  refine (h.grown hw.timers).armed (fun _ => hw.timers.running_kind) fun x hx => ?_
  rw [mem_singleton] at hx
  rw [hx]
  exact hne

theorem TimerStopped.armed (h : TimerStopped W s s' t) (hw : s.Wf)
    (hne : s.ts.kind t ≠ some (ty, a)) : SameArmed s.ts s'.ts ty a := by
  refine (h.released hw.timers).armed fun i hi => ?_
  rintro rfl
  exact hne hi

theorem Removed.armed {k : MdbKey} {d : Nat} (h : Removed W s s' k d) (hne : a.entry ≠ some d) :
    SameArmed s.ts s'.ts ty a := by
  refine h.released.armed fun i hi => ?_
  rintro ⟨ty', a', hk, hd⟩
  rw [hi] at hk
  cases hk
  exact hne hd

/-- The kinds `program_mce_rloc_probing` leaves alone. -/
theorem Reprobed.armed (h : Reprobed W s s' e) (hw : s.Wf)
    (hne : ty ≠ .RLOC_PROBING_TIMER ∨ a.entry ≠ some e) : SameArmed s.ts s'.ts ty a := by
  by_cases hoff : s.probeInterval = 0
  · rw [h.off hoff]
    exact .refl _ _ _
  · obtain ⟨ts, me, -, hrel, hgrown⟩ := h.on hoff
    have hrel' : SameArmed s.ts ts ty a := by
      refine hrel.armed fun i hi => ?_
      rintro ⟨a', hk, hd⟩
      rw [hi] at hk
      cases hk
      rcases hne with hne | hne
      · exact hne rfl
      · exact hne hd
    refine hrel'.trans (hgrown.armed (hrel.running_kind hw.timers) fun x hx => ?_)
    obtain ⟨l, -, rfl⟩ := mem_map.mp hx
    rintro heq
    cases heq
    rcases hne with hne | hne
    · exact hne rfl
    · exact hne rfl

/-- Installing an entry leaves the timers of the others alone. -/
theorem Added.armed {m : Mapping} (h : Added W s s' m) (hw : s.Wf)
    (hne : a.entry ≠ some s.mces.next) : SameArmed s.ts s'.ts ty a := by
  refine h.grown.armed (fun _ => hw.timers.running_kind) fun x hx => ?_
  rintro heq
  have hent := (mem_entryTimers hx).1
  rw [show x.2.1 = a from congrArg Prod.snd heq] at hent
  exact hne hent

theorem rotated_armed {g : WheelLink → WheelLink}
    (hg : ∀ l, (g l).timer = l.timer ∧ (g l).spoke = l.spoke) :
    SameArmed ts { ts with wheel := { ts.wheel with links := ts.wheel.links.map g } } ty a := by
  intro i sp
  constructor
  · rintro ⟨hk, l, hl, rfl, rfl⟩
    obtain ⟨l', hl', rfl⟩ := mem_map.mp hl
    exact ⟨hk, l', hl', (hg l').1.symm, (hg l').2.symm⟩
  · rintro ⟨hk, l, hl, rfl, rfl⟩
    exact ⟨hk, g l, mem_map_of_mem hl, (hg l).1, (hg l).2⟩

end Armed

end Lispmob
