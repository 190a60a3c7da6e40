import Fabric.Bytes

namespace Fabric.Wire.Varint

def encode (n : Nat) : Bytes :=
  if n < 128 then [UInt8.ofNat n] else UInt8.ofNat (n % 128 + 128) :: encode (n / 128)

/-- Reads a number of at most `k` bytes. The last byte allowed may hold one bit only. -/
def decodeUpTo : Nat → Bytes → Option (Nat × Bytes)
  | 0, _ => none
  | _ + 1, [] => none
  | k + 1, x :: rest =>
    if x.toNat < 128 then if k = 0 ∧ 2 ≤ x.toNat then none else some (x.toNat, rest)
    else (decodeUpTo k rest).map fun (n, rest) => (x.toNat - 128 + 128 * n, rest)

def decode (b : Bytes) : Option (Nat × Bytes) := decodeUpTo 10 b

theorem decodeUpTo_length {k : Nat} {b rest : Bytes} {n : Nat}
    (h : decodeUpTo k b = some (n, rest)) : rest.length < b.length := by
  induction k generalizing b n with
  | zero => simp [decodeUpTo] at h
  | succ k ih =>
    cases b with
    | nil => simp [decodeUpTo] at h
    | cons x xs =>
      simp only [decodeUpTo] at h
      split at h
      · split at h <;> simp_all
      · simp only [Option.map_eq_some_iff, Prod.mk.injEq, Prod.exists] at h
        obtain ⟨m, r, hr, _, rfl⟩ := h
        have := ih hr
        simp only [List.length_cons]
        omega

theorem decode_length {b rest : Bytes} {n : Nat} (h : decode b = some (n, rest)) :
    rest.length < b.length := decodeUpTo_length h

end Fabric.Wire.Varint
