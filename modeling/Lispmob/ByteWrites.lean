import Lispmob.Bytes

/-!
# Writing bytes through pointers

Code that fills a message in writes it piece by piece, in any order, and sometimes outside of the
part it was given. `Writes` is such a sequence of pieces with their positions, and `written` is what
it leaves at a position: the last byte written there, if any. `Writes.apply` carries the writes out
on a piece of memory; a byte past its end does not change it.

`placed off l` is the effect of writing `l` at `off` and nothing else. Two sequences of writes are
compared position by position, so the order of the pieces does not matter when they do not overlap.
`Holds b off l` says that `b` has the bytes `l` at `off`, which is what a reader needs.
-/

namespace Lispmob

open List Option

variable {off j : Nat} {l m b : List UInt8} {ws ws' : Writes} {lo : Nat}

/-! ## One piece -/

/-- The byte that writing `l` at `off` leaves at a position. -/
def placed (off : Nat) (l : List UInt8) (j : Nat) : Option UInt8 :=
  if off ≤ j then l[j - off]? else none

@[simp] theorem placed_nil (off j : Nat) : placed off [] j = none := by
  simp [placed]

theorem placed_of_lt (l : List UInt8) (h : j < off) : placed off l j = none :=
  if_neg (Nat.not_le.mpr h)

theorem placed_of_ge (h : off + l.length ≤ j) : placed off l j = none := by
  unfold placed
  split_ifs
  · exact getElem?_eq_none (by omega)
  · rfl

@[simp] theorem placed_add (off i : Nat) (l : List UInt8) : placed off l (off + i) = l[i]? := by
  simp [placed]

theorem placed_append (off : Nat) (l m : List UInt8) (j : Nat) :
    placed off (l ++ m) j = (placed off l j).or (placed (off + l.length) m j) := by
  by_cases hlo : j < off
  · rw [placed_of_lt _ hlo, placed_of_lt _ hlo, placed_of_lt _ (by omega), none_or]
  · obtain ⟨i, rfl⟩ := Nat.exists_eq_add_of_le (Nat.not_lt.mp hlo)
    rw [placed_add, placed_add]
    by_cases hi : i < l.length
    · rw [getElem?_append_left hi, getElem?_eq_getElem hi, some_or]
    · obtain ⟨k, rfl⟩ := Nat.exists_eq_add_of_le (Nat.not_lt.mp hi)
      rw [getElem?_append_right (Nat.le_add_right _ _), Nat.add_sub_cancel_left,
        getElem?_eq_none (Nat.le_add_right l.length k), none_or, ← Nat.add_assoc,
        placed_add]

theorem placed_append_right (m : List UInt8) (h : off + l.length ≤ j) :
    placed off (l ++ m) j = placed (off + l.length) m j := by
  rw [placed_append, placed_of_ge h, none_or]

/-- Write `l` over a piece of memory. -/
def overwrite (m : List UInt8) (off : Nat) (l : List UInt8) : List UInt8 :=
  m.mapIdx fun j x => (placed off l j).getD x

/-! ## Sequences of pieces -/

/-- Pieces of bytes with the positions they are written at, the first one first. -/
abbrev Writes := List (Nat × List UInt8)

/-- Carry the writes out. -/
def Writes.apply (ws : Writes) (m : List UInt8) : List UInt8 :=
  ws.foldl (fun m w => overwrite m w.1 w.2) m

/-- The byte the writes leave at a position. -/
def written : Writes → Nat → Option UInt8
  | [], _ => none
  | w :: ws, j => (written ws j).or (placed w.1 w.2 j)

@[simp] theorem written_nil (j : Nat) : written [] j = none :=
  rfl

@[simp] theorem written_cons (w : Nat × List UInt8) (ws : Writes) (j : Nat) :
    written (w :: ws) j = (written ws j).or (placed w.1 w.2 j) :=
  rfl

@[simp] theorem written_append : ∀ (ws ws' : Writes) (j : Nat),
    written (ws ++ ws') j = (written ws' j).or (written ws j)
  | [], ws', j => by simp
  | w :: ws, ws', j => by
    simp only [cons_append, written_cons, written_append ws ws' j, Option.or_assoc]

/-- The memory after the writes, position by position. -/
theorem Writes.apply_eq : ∀ (ws : Writes) (m : List UInt8),
    ws.apply m = m.mapIdx fun j x => (written ws j).getD x
  | [], m => by
    apply ext_getElem?
    simp [Writes.apply]
  | w :: ws, m => by
    have hrest := Writes.apply_eq ws (overwrite m w.1 w.2)
    rw [Writes.apply] at hrest ⊢
    rw [foldl_cons, hrest, overwrite, mapIdx_mapIdx]
    congr 1
    funext j x
    cases hw : written ws j <;> simp [hw]

@[simp] theorem Writes.apply_length (ws : Writes) (m : List UInt8) :
    (ws.apply m).length = m.length := by
  rw [Writes.apply_eq, length_mapIdx]

theorem Writes.apply_getElem? (ws : Writes) (m : List UInt8) (j : Nat) :
    (ws.apply m)[j]? = m[j]?.map fun x => (written ws j).getD x := by
  rw [Writes.apply_eq, getElem?_mapIdx]

/-- All the positions written are at or after `lo`. -/
def Writes.From (ws : Writes) (lo : Nat) : Prop :=
  ∀ j < lo, written ws j = none

theorem Writes.From.nil (lo : Nat) : Writes.From [] lo :=
  fun _ _ => rfl

theorem Writes.From.cons {w : Nat × List UInt8} (hw : lo ≤ w.1) (h : ws.From lo) :
    Writes.From (w :: ws) lo := by
  intro j hj
  rw [written_cons, h j hj, placed_of_lt _ (Nat.lt_of_lt_of_le hj hw), none_or]

theorem Writes.From.append (h : ws.From lo) (h' : ws'.From lo) : Writes.From (ws ++ ws') lo := by
  intro j hj
  rw [written_append, h j hj, h' j hj, none_or]

theorem Writes.From.mono {lo hi : Nat} (h : ws.From hi) (hle : lo ≤ hi) : ws.From lo :=
  fun j hj => h j (Nat.lt_of_lt_of_le hj hle)

theorem Writes.From.apply_append {pre : List UInt8} (h : ws.From pre.length) (l : List UInt8) :
    ∃ l', ws.apply (pre ++ l) = pre ++ l' ∧ l'.length = l.length := by
  have hpre : (ws.apply (pre ++ l)).take pre.length = pre := by
    apply ext_getElem?
    intro j
    by_cases hj : j < pre.length
    · rw [getElem?_take_of_lt hj, Writes.apply_getElem?, h j hj,
        getElem?_append_left hj]
      simp
    · rw [getElem?_eq_none (by rw [length_take]; omega),
        getElem?_eq_none (Nat.not_lt.mp hj)]
  refine ⟨(ws.apply (pre ++ l)).drop pre.length, ?_, ?_⟩
  · conv_lhs => rw [← take_append_drop pre.length (ws.apply (pre ++ l)), hpre]
  · rw [length_drop, Writes.apply_length, length_append, Nat.add_sub_cancel_left]

/-- The writes amount to writing `l` at `off`. -/
def Fills (ws : Writes) (off : Nat) (l : List UInt8) : Prop :=
  ∀ j, written ws j = placed off l j

theorem Fills.append (h : Fills ws off l) (h' : Fills ws' (off + l.length) m) :
    Fills (ws ++ ws') off (l ++ m) := by
  intro j
  rw [written_append, h j, h' j, placed_append]
  by_cases hj : j < off + l.length
  · rw [placed_of_lt _ hj, none_or, or_none]
  · rw [placed_of_ge (Nat.not_lt.mp hj), none_or, or_none]

theorem Fills.single (off : Nat) (l : List UInt8) : Fills [(off, l)] off l :=
  fun _ => none_or

theorem Fills.cons (h : Fills ws (off + l.length) m) : Fills ((off, l) :: ws) off (l ++ m) :=
  (Fills.single off l).append h

theorem Fills.last {l f m : List UInt8} (h : Fills ws (off + l.length + f.length) m) :
    Fills ((off, l) :: (ws ++ [(off + l.length, f)])) off (l ++ (f ++ m)) := by
  intro j
  have hlast := Fills.append (Fills.single (off + l.length) f) h j
  rw [placed_append, written_cons, ← hlast]
  simp only [written_append, written_cons, written_nil, none_or]
  by_cases hj : j < off + l.length
  · rw [placed_of_lt _ hj, h j, placed_of_lt _ (by omega)]
    simp
  · rw [placed_of_ge (Nat.not_lt.mp hj), or_none, none_or, h j]
    by_cases hj' : j < off + l.length + f.length
    · rw [placed_of_lt _ hj', or_none, none_or]
    · rw [placed_of_ge (Nat.not_lt.mp hj'), none_or, or_none]

/-- Carrying out writes that fill a part of the memory. -/
theorem Fills.apply {pre old l post : List UInt8} (h : Fills ws pre.length l)
    (hlen : old.length = l.length) : ws.apply (pre ++ (old ++ post)) = pre ++ (l ++ post) := by
  apply ext_getElem?
  intro j
  rw [Writes.apply_getElem?, h j]
  by_cases hlo : j < pre.length
  · rw [placed_of_lt l hlo, getElem?_append_left hlo, getElem?_append_left hlo]
    simp
  · obtain ⟨i, rfl⟩ := Nat.exists_eq_add_of_le (Nat.not_lt.mp hlo)
    rw [placed_add, getElem?_append_right (Nat.le_add_right _ _),
      getElem?_append_right (Nat.le_add_right _ _), Nat.add_sub_cancel_left]
    by_cases hi : i < l.length
    · rw [getElem?_append_left (hlen ▸ hi), getElem?_append_left hi,
        getElem?_eq_getElem hi, getElem?_eq_getElem (hlen ▸ hi)]
      rfl
    · rw [getElem?_append_right (by omega), getElem?_append_right (by omega), hlen,
        getElem?_eq_none (by omega : l.length ≤ i)]
      simp

/-- The writes put `e` at `off`, whatever they do elsewhere. -/
def Covers (ws : Writes) (off : Nat) (e : List UInt8) : Prop :=
  ∀ j, off ≤ j → j < off + e.length → written ws j = placed off e j

theorem Fills.covers {e : List UInt8} (h : Fills ws off e) : Covers ws off e :=
  fun j _ _ => h j

/-- Of two pieces one after the other the first is covered; and if it is filled in, the second. -/
theorem Covers.append_inv {e r : List UInt8} (hc : Covers (ws ++ ws') off (e ++ r))
    (hfrom : ws'.From (off + e.length)) :
    Covers ws off e ∧ (Fills ws off e → Covers ws' (off + e.length) r) := by
  refine ⟨?_, ?_⟩
  · intro j hlo hhi
    have hj := hc j hlo (by rw [length_append]; omega)
    rwa [written_append, hfrom j hhi, none_or, placed_append, placed_of_lt r hhi, or_none] at hj
  · intro hf j hlo hhi
    have hj := hc j (by omega) (by rw [length_append]; omega)
    rwa [written_append, hf j, placed_append, placed_of_ge hlo, none_or, or_none] at hj

/-! ## Reading back -/

/-- The bytes `l` stand at `off`. -/
def Holds (b : List UInt8) (off : Nat) (l : List UInt8) : Prop :=
  slice b off l.length = some l

theorem Holds.intro (pre l post : List UInt8) : Holds (pre ++ (l ++ post)) pre.length l :=
  slice_append pre l post

theorem Holds.le (h : Holds b off l) : off + l.length ≤ b.length :=
  slice_isSome_iff.mp (isSome_of_mem h)

theorem Holds.exists_append (h : Holds b off l) :
    ∃ pre post, b = pre ++ (l ++ post) ∧ off = pre.length := by
  have hle := h.le
  unfold Holds slice at h
  rw [if_pos hle, some.injEq] at h
  refine ⟨b.take off, b.drop (off + l.length), ?_, ?_⟩
  · conv_lhs => rw [← take_append_drop off b, ← take_append_drop l.length (b.drop off),
      h, drop_drop]
  · rw [length_take]
    omega

theorem Holds.of_getElem? (hle : off + l.length ≤ b.length)
    (h : ∀ i < l.length, b[off + i]? = l[i]?) : Holds b off l := by
  rw [Holds, slice, if_pos hle, some.injEq]
  apply ext_getElem?
  intro i
  by_cases hi : i < l.length
  · rw [getElem?_take_of_lt hi, getElem?_drop, h i hi]
  · rw [getElem?_eq_none (by rw [length_take]; omega),
      getElem?_eq_none (Nat.not_lt.mp hi)]

/-- Memory in which writes put a piece that lies inside of it. -/
theorem Covers.holds (h : Covers ws off l) (hroom : off + l.length ≤ m.length) :
    Holds (ws.apply m) off l := by
  refine .of_getElem? (by rwa [Writes.apply_length]) fun i hi => ?_
  rw [Writes.apply_getElem?, h _ (Nat.le_add_right _ _) (by omega), placed_add,
    getElem?_eq_getElem hi, getElem?_eq_getElem (by omega)]
  rfl

theorem Holds.left (h : Holds b off (l ++ m)) : Holds b off l := by
  obtain ⟨pre, post, rfl, rfl⟩ := h.exists_append
  rw [append_assoc]
  exact .intro pre l (m ++ post)

theorem Holds.right (h : Holds b off (l ++ m)) : Holds b (off + l.length) m := by
  obtain ⟨pre, post, rfl, rfl⟩ := h.exists_append
  rw [append_assoc, ← append_assoc, ← length_append]
  exact .intro (pre ++ l) m post

end Lispmob
