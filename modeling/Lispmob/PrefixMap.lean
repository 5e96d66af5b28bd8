import Mathlib.Data.List.AList
import Mathlib.Tactic.Common

/-!
# Finite maps keyed by bit strings

`PrefixMap β` maps bit strings to values: `AList.lookup` is the exact match, and `best` the longest
key that is an initial segment of a bit string. This is what a binary trie computes, whatever its
internal nodes.
-/

namespace Lispmob

/-- A finite map from bit strings. -/
abbrev PrefixMap (β : Type) : Type :=
  AList fun _ : List Bool => β

namespace PrefixMap

variable {β : Type} {m : PrefixMap β} {addr : List Bool} {v : β}

/-- The value at the longest initial segment of `addr` of at most `n` bits that is a key. -/
def bestUpTo (m : PrefixMap β) (addr : List Bool) : Nat → Option β
  | 0 => m.lookup []
  | n + 1 =>
    match m.lookup (addr.take (n + 1)) with
    | some v => some v
    | none => bestUpTo m addr n

/-- The value at the longest key that is an initial segment of `addr`. -/
def best (m : PrefixMap β) (addr : List Bool) : Option β :=
  bestUpTo m addr addr.length

/-- What `bestUpTo` finds is stored, and nothing longer within the bound is. -/
theorem bestUpTo_eq_some :
    ∀ {n : Nat}, bestUpTo m addr n = some v →
      ∃ k ≤ n, m.lookup (addr.take k) = some v ∧
        ∀ j, k < j → j ≤ n → m.lookup (addr.take j) = none
  | 0, h => ⟨0, le_refl 0, by simpa [bestUpTo] using h, fun j hj hj' => by omega⟩
  | n + 1, h => by
    unfold bestUpTo at h
    cases hl : m.lookup (addr.take (n + 1)) with
    | some w =>
      rw [hl] at h
      exact ⟨n + 1, le_refl _, hl.trans h, fun j hj hj' => by omega⟩
    | none =>
      rw [hl] at h
      obtain ⟨k, hk, hv, hmax⟩ := bestUpTo_eq_some h
      refine ⟨k, by omega, hv, fun j hj hj' => ?_⟩
      by_cases hjn : j = n + 1
      · rw [hjn, hl]
      · exact hmax j hj (by omega)

/-- What the longest match finds is stored under a key that covers the address, and nothing is
stored under a longer one. -/
theorem lookup_of_best_eq_some (h : m.best addr = some v) :
    ∃ key, key <+: addr ∧ m.lookup key = some v ∧
      ∀ key', key' <+: addr → key.length < key'.length → m.lookup key' = none := by
  obtain ⟨k, hk, hv, hmax⟩ := bestUpTo_eq_some h
  refine ⟨addr.take k, List.take_prefix k addr, hv, fun key' hkey' hlt => ?_⟩
  rw [List.length_take, Nat.min_eq_left hk] at hlt
  rw [List.prefix_iff_eq_take.mp hkey']
  exact hmax key'.length hlt hkey'.length_le

/-- When `bestUpTo` finds nothing, nothing within the bound is stored. -/
theorem bestUpTo_eq_none :
    ∀ {n : Nat}, bestUpTo m addr n = none → ∀ k ≤ n, m.lookup (addr.take k) = none
  | 0, h, k, hk => by
    rw [Nat.le_zero.mp hk]
    exact h
  | n + 1, h, k, hk => by
    unfold bestUpTo at h
    cases hl : m.lookup (addr.take (n + 1)) with
    | some w =>
      rw [hl] at h
      cases h
    | none =>
      rw [hl] at h
      by_cases hkn : k = n + 1
      · rw [hkn, hl]
      · exact bestUpTo_eq_none h k (by omega)

/-- When the longest match finds nothing, no key covers the address. -/
theorem lookup_of_best_eq_none {addr key : List Bool} (h : m.best addr =
      none) (hkey : key <+: addr) : m.lookup key = none := by
  have htake := List.prefix_iff_eq_take.mp hkey
  rw [htake]
  exact bestUpTo_eq_none h _ hkey.length_le

end PrefixMap

end Lispmob
