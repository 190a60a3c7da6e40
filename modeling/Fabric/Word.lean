namespace Fabric.Word

def uint32? : Int → Option UInt32
  | .ofNat n => if n < UInt32.size then some (UInt32.ofNat n) else none
  | .negSucc _ => none

theorem uint32?_natCast_eq_some_iff {k : Nat} {n : UInt32} : uint32? k = some n ↔ k = n.toNat := by
  change (if k < UInt32.size then some (UInt32.ofNat k) else none) = some n ↔ k = n.toNat
  constructor
  · intro h
    split at h
    · next hk =>
      cases h
      exact (UInt32.toNat_ofNat_of_lt' hk).symm
    · cases h
  · intro heq
    subst heq
    rw [if_pos n.toNat_lt_size, UInt32.ofNat_toNat]

def uint64? : Int → Option UInt64
  | .ofNat n => if n < UInt64.size then some (UInt64.ofNat n) else none
  | .negSucc _ => none

def int32? (n : Int) : Option Int32 :=
  if Int32.minValue.toInt ≤ n ∧ n ≤ Int32.maxValue.toInt then some (Int32.ofInt n) else none

def int64? (n : Int) : Option Int64 :=
  if Int64.minValue.toInt ≤ n ∧ n ≤ Int64.maxValue.toInt then some (Int64.ofInt n) else none

end Fabric.Word
