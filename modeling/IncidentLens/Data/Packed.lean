import Mathlib.Algebra.Order.Ring.Nat
import IncidentLens.Data.Bytes

/-!
# Packed numbers

`struct` with the format `!I`: four bytes, the highest first.
-/
namespace IncidentLens.Data

/-- `struct.pack("!I", n)`. -/
def pack (n : ℕ) : Option Bytes :=
  if n < 2 ^ 32 then some ([n / 2 ^ 24, n / 2 ^ 16 % 256, n / 2 ^ 8 % 256, n % 256].map UInt8.ofNat) else none

/-- `struct.unpack("!I", bytes)`. -/
def unpack : Bytes → Option ℕ
  | [a, b, c, d] => some (a.toNat * 2 ^ 24 + b.toNat * 2 ^ 16 + c.toNat * 2 ^ 8 + d.toNat)
  | _ => none

variable {bytes : Bytes} {n : ℕ}

lemma length_of_pack (h : pack n = some bytes) : bytes.length = 4 := by
  unfold pack at h
  split_ifs at h
  obtain rfl := Option.some.inj h
  rfl

lemma unpack_pack (h : pack n = some bytes) : unpack bytes = some n := by
  unfold pack at h
  split_ifs at h with hn
  obtain rfl := Option.some.inj h
  simp only [List.map_cons, List.map_nil, unpack, UInt8.toNat_ofNat', Option.some.injEq]
  omega

lemma exists_unpack (h : bytes.length = 4) : ∃ n, unpack bytes = some n := by
  obtain ⟨a, b, c, d, rfl⟩ := List.length_eq_four.mp h
  exact ⟨_, rfl⟩

lemma pack_unpack (h : unpack bytes = some n) : pack n = some bytes := by
  unfold unpack at h
  split at h
  · next a b c d =>
    obtain rfl := Option.some.inj h
    have ha := a.toNat_lt
    have hb := b.toNat_lt
    have hc := c.toNat_lt
    have hd := d.toNat_lt
    unfold pack
    rw [if_pos (by omega)]
    have h1 : (a.toNat * 2 ^ 24 + b.toNat * 2 ^ 16 + c.toNat * 2 ^ 8 + d.toNat) / 2 ^ 24 = a.toNat := by omega
    have h2 : (a.toNat * 2 ^ 24 + b.toNat * 2 ^ 16 + c.toNat * 2 ^ 8 + d.toNat) / 2 ^ 16 % 256 = b.toNat := by omega
    have h3 : (a.toNat * 2 ^ 24 + b.toNat * 2 ^ 16 + c.toNat * 2 ^ 8 + d.toNat) / 2 ^ 8 % 256 = c.toNat := by omega
    have h4 : (a.toNat * 2 ^ 24 + b.toNat * 2 ^ 16 + c.toNat * 2 ^ 8 + d.toNat) % 256 = d.toNat := by omega
    simp only [h1, h2, h3, h4, List.map_cons, List.map_nil, UInt8.ofNat_toNat]
  · cases h

end IncidentLens.Data
