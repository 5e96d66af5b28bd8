import Mathlib.Algebra.Group.Nat.Defs
import Mathlib.Tactic.Common

/-!
# Bytes in network order

Numbers as sequences of bytes, most significant byte first: `beNat` reads such a sequence and
`beBytes n` writes a number as `n` bytes. `readByte` and `readNat` take them off the front of a
sequence, and undo `beBytes`. `slice` are the bytes of a sequence from a position on,
if there are as many; `slice_append` finds a part again that was put between two others. `poke`
writes over a part.
-/

namespace Lispmob

open List

variable {n i : Nat} {l : List UInt8}

/-- The number a sequence of bytes denotes, most significant byte first. -/
def beNat (l : List UInt8) : Nat :=
  l.foldl (fun n x => 256 * n + x.toNat) 0

/-- The `n` low bytes of a number, most significant byte first. -/
def beBytes : Nat → Nat → List UInt8
  | 0, _ => []
  | n + 1, v => UInt8.ofNat (v / 256 ^ n) :: beBytes n v

@[simp] theorem beBytes_length : ∀ n v : Nat, (beBytes n v).length = n
  | 0, _ => rfl
  | n + 1, v => by rw [beBytes, length_cons, beBytes_length n v]

theorem beNat_foldl : ∀ (l : List UInt8) (a : Nat),
    l.foldl (fun n x => 256 * n + x.toNat) a = a * 256 ^ l.length + beNat l
  | [], a => by simp [beNat]
  | x :: l, a => by
    have h0 := beNat_foldl l x.toNat
    have h1 := beNat_foldl l (256 * a + x.toNat)
    simp only [beNat, foldl_cons, length_cons, Nat.mul_zero, Nat.zero_add] at h0 h1 ⊢
    rw [h0, h1]
    simp only [Nat.pow_succ, Nat.add_mul]
    have hmul : 256 * a * 256 ^ l.length = a * (256 ^ l.length * 256) := by
      rw [Nat.mul_comm 256 a, Nat.mul_assoc, Nat.mul_comm 256]
    omega

theorem beNat_cons (x : UInt8) (l : List UInt8) :
    beNat (x :: l) = x.toNat * 256 ^ l.length + beNat l := by
  have h := beNat_foldl l x.toNat
  simpa [beNat] using h

/-- A sequence of `n` bytes denotes a number below `256 ^ n`. -/
theorem beNat_lt : ∀ l : List UInt8, beNat l < 256 ^ l.length
  | [] => by simp [beNat]
  | x :: l => by
    have hx : x.toNat < 256 := x.toNat_lt
    have hl := beNat_lt l
    have hmul : (x.toNat + 1) * 256 ^ l.length ≤ 256 * 256 ^ l.length :=
      Nat.mul_le_mul_right _ hx
    rw [beNat_cons, length_cons, Nat.pow_succ, Nat.mul_comm (256 ^ l.length)]
    rw [Nat.add_mul, Nat.one_mul] at hmul
    omega

theorem beNat_beBytes : ∀ n v : Nat, beNat (beBytes n v) = v % 256 ^ n
  | 0, v => by simp [beBytes, beNat, Nat.mod_one]
  | n + 1, v => by
    rw [beBytes, beNat_cons, beBytes_length, beNat_beBytes n v]
    have hbyte : (UInt8.ofNat (v / 256 ^ n)).toNat = v / 256 ^ n % 256 := by
      simp [UInt8.toNat_ofNat']
    rw [hbyte, Nat.pow_succ, Nat.mod_mul]
    have hcomm := Nat.mul_comm (256 ^ n) (v / 256 ^ n % 256)
    omega

theorem beNat_beBytes_of_lt {n v : Nat} (h : v < 256 ^ n) : beNat (beBytes n v) = v := by
  rw [beNat_beBytes, Nat.mod_eq_of_lt h]

/-- Sequences of one length that denote the same number are the same. -/
theorem beNat_inj : ∀ {l m : List UInt8}, l.length = m.length → beNat l = beNat m → l = m
  | [], [], _, _ => rfl
  | x :: l, y :: m, hlen, h => by
    have hlen' : l.length = m.length := Nat.succ.inj hlen
    have hl := beNat_lt l
    have hm := beNat_lt m
    rw [beNat_cons, beNat_cons, hlen'] at h
    rw [hlen'] at hl
    have hpos := Nat.zero_lt_of_lt hl
    rw [Nat.mul_comm x.toNat, Nat.mul_comm y.toNat] at h
    have hx : x.toNat = y.toNat := by
      have hdiv := congrArg (· / 256 ^ m.length) h
      simpa only [Nat.mul_add_div hpos, Nat.div_eq_of_lt hl, Nat.div_eq_of_lt hm, Nat.add_zero]
        using hdiv
    have htail : beNat l = beNat m := by
      rw [hx] at h
      omega
    rw [UInt8.toNat_inj.mp hx, beNat_inj hlen' htail]

theorem beBytes_beNat (l : List UInt8) : beBytes l.length (beNat l) = l :=
  beNat_inj (beBytes_length _ _) (beNat_beBytes_of_lt (beNat_lt l))

/-! ## Reading from the front -/

/-- Take a byte off. -/
def readByte : List UInt8 → Option (UInt8 × List UInt8)
  | [] => none
  | x :: l => some (x, l)

/-- Take a number of `n` bytes off. -/
def readNat (n : Nat) (l : List UInt8) : Option (Nat × List UInt8) :=
  if n ≤ l.length then some (beNat (l.take n), l.drop n) else none

@[simp] theorem readByte_cons (x : UInt8) (l : List UInt8) : readByte (x :: l) = some (x, l) :=
  rfl

@[simp] theorem readNat_beBytes (n v : Nat) (l : List UInt8) :
    readNat n (beBytes n v ++ l) = some (v % 256 ^ n, l) := by
  have htake : (beBytes n v ++ l).take n = beBytes n v := by
    rw [take_left' (beBytes_length n v)]
  rw [readNat, if_pos (by simp), htake, beNat_beBytes, drop_left' (beBytes_length n v)]

/-- A sequence of at least `n` bytes begins with a number of `n` bytes. -/
theorem exists_beBytes_append (h : n ≤ l.length) :
    ∃ v r, v < 256 ^ n ∧ r.length + n = l.length ∧ l = beBytes n v ++ r := by
  have hlen : (l.take n).length = n := length_take_of_le h
  have hlt := beNat_lt (l.take n)
  have hback := beBytes_beNat (l.take n)
  rw [hlen] at hlt hback
  refine ⟨beNat (l.take n), l.drop n, hlt, ?_, ?_⟩
  · rw [length_drop]
    omega
  · rw [hback, take_append_drop]

theorem exists_cons (h : 1 ≤ l.length) : ∃ x r, r.length + 1 = l.length ∧ l = x :: r := by
  obtain ⟨x, r, rfl⟩ := exists_cons_of_length_pos h
  exact ⟨x, r, rfl, rfl⟩

/-! ## Parts of a sequence -/

/-- The `n` bytes from position `i` on. -/
def slice (b : List UInt8) (i n : Nat) : Option (List UInt8) :=
  if i + n ≤ b.length then some ((b.drop i).take n) else none

theorem slice_isSome_iff {b : List UInt8} : (slice b i n).isSome ↔ i + n ≤ b.length := by
  unfold slice
  split_ifs with h <;> simp [h]

theorem slice_length {b l : List UInt8} (h : slice b i n = some l) : l.length = n := by
  unfold slice at h
  split_ifs at h with hle
  rw [← Option.some.inj h, length_take, length_drop]
  omega

theorem slice_append (pre l post : List UInt8) :
    slice (pre ++ (l ++ post)) pre.length l.length = some l := by
  have hle : pre.length + l.length ≤ (pre ++ (l ++ post)).length := by
    simp only [length_append]
    omega
  rw [slice, if_pos hle, drop_left, take_left]

theorem slice_append_left {pre : List UInt8} (h : i + n ≤ pre.length) (post : List UInt8) :
    slice (pre ++ post) i n = slice pre i n := by
  have hle : i + n ≤ (pre ++ post).length := by
    rw [length_append]
    omega
  rw [slice, slice, if_pos h, if_pos hle, drop_append_of_le_length (by omega),
    take_append_of_le_length (by rw [length_drop]; omega)]

/-- Write over the bytes from position `i` on. -/
def poke (b : List UInt8) (i : Nat) (l : List UInt8) : List UInt8 :=
  b.take i ++ (l ++ b.drop (i + l.length))

theorem poke_append (pre : List UInt8) {l m : List UInt8} (post : List UInt8)
    (h : l.length = m.length) : poke (pre ++ (m ++ post)) pre.length l = pre ++ (l ++ post) := by
  rw [poke, take_left, h, ← drop_drop, drop_left, drop_left]

end Lispmob
