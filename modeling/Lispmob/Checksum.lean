import Lispmob.Bytes

/-!
# The Internet checksum

Sums of the 16 bit words of a sequence of bytes, in the order of a little-endian host (`wordSum`)
and in network order (`netSum`). In ones' complement arithmetic both vanish together: the two orders
differ by the factor 256, which is invertible modulo `65535`. `cksumLoop` adds the words up in 32
bits and `onesComplement` folds the carries and inverts. What they give is the only number below
`65535` that makes the whole sum vanish.
-/

namespace Lispmob

/-! ## Sums of words -/

/-- The sum of the words, the first byte of each the low one. An odd byte at the end is a word. -/
def wordSum : List UInt8 → Nat
  | x :: y :: l => x.toNat + 256 * y.toNat + wordSum l
  | [x] => x.toNat
  | [] => 0

/-- The sum of the words in network order. -/
def netSum : List UInt8 → Nat
  | x :: y :: l => 256 * x.toNat + y.toNat + netSum l
  | [x] => 256 * x.toNat
  | [] => 0

/-- The words of two parts, the first of which has an even number of bytes. -/
theorem wordSum_append : ∀ {l : List UInt8} (m : List UInt8), l.length % 2 = 0 →
    wordSum (l ++ m) = wordSum l + wordSum m
  | [], m, _ => by simp [wordSum]
  | [_], _, h => by simp at h
  | x :: y :: l, m, h => by
    have hl : l.length % 2 = 0 := by
      simp only [List.length_cons] at h
      omega
    simp only [List.cons_append, wordSum, wordSum_append m hl]
    omega

theorem wordSum_le : ∀ l : List UInt8, 2 * wordSum l ≤ 65535 * (l.length + 1)
  | [] => by simp [wordSum]
  | [x] => by
    have hx : x.toNat < 256 := x.toNat_lt
    simp only [wordSum, List.length_singleton]
    omega
  | x :: y :: l => by
    have hx : x.toNat < 256 := x.toNat_lt
    have hy : y.toNat < 256 := y.toNat_lt
    have hl := wordSum_le l
    simp only [wordSum, List.length_cons]
    omega

theorem netSum_mod : ∀ l : List UInt8, netSum l % 65535 = 256 * wordSum l % 65535
  | [] => rfl
  | [_] => rfl
  | x :: y :: l => by
    have hl := netSum_mod l
    simp only [netSum, wordSum]
    omega

theorem netSum_mod_eq_zero_iff (l : List UInt8) : netSum l % 65535 = 0 ↔ wordSum l % 65535 = 0 := by
  have h := netSum_mod l
  omega

/-! ## Adding up and folding -/

/-- Add the words up in 32 bits. -/
def cksumLoop : UInt32 → List UInt8 → UInt32
  | sum, x :: y :: l => cksumLoop (sum + (x.toUInt32 + 256 * y.toUInt32)) l
  | sum, [x] => sum + x.toUInt32
  | sum, [] => sum

theorem cksumLoop_toNat : ∀ (l : List UInt8) (sum : UInt32),
    (cksumLoop sum l).toNat = (sum.toNat + wordSum l) % 2 ^ 32
  | [], sum => by
    have hsum : sum.toNat < 2 ^ 32 := sum.toNat_lt
    rw [cksumLoop, wordSum, Nat.add_zero, Nat.mod_eq_of_lt hsum]
  | [x], sum => by simp [cksumLoop, wordSum]
  | x :: y :: l, sum => by
    rw [cksumLoop, cksumLoop_toNat l, wordSum]
    simp only [UInt32.toNat_add, UInt32.toNat_mul, UInt8.toNat_toUInt32, UInt32.reduceToNat]
    omega

/-- Fold the carries of a sum twice and invert the bits. -/
def onesComplement (sum : UInt32) : UInt16 :=
  let sum := (sum >>> 16) + (sum &&& 0xffff)
  let sum := sum + (sum >>> 16)
  (~~~ sum).toUInt16

theorem onesComplement_eq (sum : UInt32) :
    (onesComplement sum).toNat = 65535 -
      (let f := sum.toNat / 65536 + sum.toNat % 65536
       (f + f / 65536) % 65536) := by
  have hmask : sum.toNat &&& 65535 = sum.toNat % 65536 := Nat.and_two_pow_sub_one_eq_mod _ 16
  simp only [onesComplement, UInt32.toNat_toUInt16, UInt32.toNat_not, UInt32.toNat_add,
    UInt32.toNat_shiftRight, UInt32.toNat_and, UInt32.reduceToNat, hmask,
    Nat.shiftRight_eq_div_pow, UInt32.size, Nat.reduceMod, Nat.reducePow]
  omega

/-- The two folds leave a number of 16 bits that is congruent to the sum, and not `0`. -/
theorem onesComplement_toNat {sum : UInt32} (h : sum ≠ 0) :
    (onesComplement sum).toNat < 65535 ∧
      (sum.toNat + (onesComplement sum).toNat) % 65535 = 0 := by
  have hpos : sum.toNat ≠ 0 := fun h0 => h (UInt32.toNat_inj.mp h0)
  have hlt : sum.toNat < 2 ^ 32 := sum.toNat_lt
  simp only [onesComplement_eq]
  have hsplit := Nat.div_add_mod sum.toNat 65536
  have hmod := Nat.mod_lt sum.toNat (by decide : 65536 > 0)
  generalize sum.toNat / 65536 = hi at *
  generalize sum.toNat % 65536 = lo at *
  -- one fold has a carry of at most 1
  have hcarry : (hi + lo) / 65536 = 0 ∧ hi + lo < 65536 ∨
      (hi + lo) / 65536 = 1 ∧ 65536 ≤ hi + lo ∧ hi + lo < 131071 := by
    omega
  rcases hcarry with ⟨hc, hf⟩ | ⟨hc, hf⟩
  · omega
  · omega

/-- The checksum of a sequence of bytes whose words do not all vanish. -/
theorem onesComplement_cksumLoop {l : List UInt8} (hpos : 0 < wordSum l)
    (hlt : wordSum l < 2 ^ 32) :
    (onesComplement (cksumLoop 0 l)).toNat < 65535 ∧
      (wordSum l + (onesComplement (cksumLoop 0 l)).toNat) % 65535 = 0 := by
  have hsum : (cksumLoop 0 l).toNat = wordSum l := by
    rw [cksumLoop_toNat, UInt32.toNat_zero, Nat.zero_add, Nat.mod_eq_of_lt hlt]
  have hne : cksumLoop 0 l ≠ 0 := by
    intro h0
    rw [h0, UInt32.toNat_zero] at hsum
    omega
  have h := onesComplement_toNat hne
  rwa [hsum] at h

end Lispmob
