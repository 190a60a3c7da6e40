import Fabric.Total
import Fabric.Wire.Record

/-!
How deeply bytes are nested when every block that reads as a message counts as one. The measure is
taken with a list of blocks still to be looked at, so that it needs no stack. It does not know which
fields hold messages, so blocks of text or bytes can only make it larger.
-/
namespace Fabric.Wire

/-- The bodies of the blocks of some bytes, in order; none if the bytes do not read as a message
without groups. -/
def blocks (b : Bytes) : Option (List Bytes) :=
  if b.isEmpty then some []
  else
    match hk : Key.decode b with
    | none => none
    | some (key, rest) =>
      have := Key.decode_length hk
      match key.type with
      | .varint =>
        match hv : Varint.decode rest with
        | none => none
        | some (_, rest') =>
          have := Varint.decode_length hv
          blocks rest'
      | .fixed64 =>
        match hs : splitAt? 8 rest with
        | none => none
        | some (_, rest') =>
          have : rest'.length ≤ rest.length := by
            rw [(splitAt?_eq_some hs).1, List.length_append]
            omega
          blocks rest'
      | .fixed32 =>
        match hs : splitAt? 4 rest with
        | none => none
        | some (_, rest') =>
          have : rest'.length ≤ rest.length := by
            rw [(splitAt?_eq_some hs).1, List.length_append]
            omega
          blocks rest'
      | .block =>
        match hb : readBlock rest with
        | none => none
        | some (body, rest') =>
          have := readBlock_length hb
          (blocks rest').map (body :: ·)
      | .startGroup => none
      | .endGroup => none
termination_by b.length

/-- What is left to look at, as a number that falls with every step. -/
def workSize (work : List (Bytes × Nat)) : Nat := total (fun w => w.1.length + 1) work

theorem blocks_size {b : Bytes} {bodies : List Bytes} (h : blocks b = some bodies) :
    total (fun body => body.length + 1) bodies ≤ b.length := by
  fun_induction blocks b generalizing bodies with
  | case1 =>
    simp only [Option.some.injEq] at h
    subst h
    simp [total]
  | case2 => simp at h
  | case3 => simp at h
  | case4 b hb key rest hk hlen ht n rest' hv hlen' ih =>
    have := ih h
    omega
  | case5 => simp at h
  | case6 b hb key rest hk hlen ht front rest' hs hlen' ih =>
    have := ih h
    omega
  | case7 => simp at h
  | case8 b hb key rest hk hlen ht front rest' hs hlen' ih =>
    have := ih h
    omega
  | case9 => simp at h
  | case10 b hb key rest hk hlen ht body rest' hbl hlen' ih =>
    simp only [Option.map_eq_some_iff] at h
    obtain ⟨more, hm, rfl⟩ := h
    have := ih hm
    simp only [total]
    omega
  | case11 => simp at h
  | case12 => simp at h

/-- The work gets smaller when a block is done with. -/
theorem workSize_rest (b : Bytes) (depth : Nat) (rest : List (Bytes × Nat)) :
    workSize rest < workSize ((b, depth) :: rest) := by
  simp only [workSize, total]
  omega

/-- The work gets smaller when what a block holds takes its place. -/
theorem workSize_blocks {b : Bytes} {bodies : List Bytes} (h : blocks b = some bodies) (depth : Nat)
    (rest : List (Bytes × Nat)) :
    workSize ((bodies.map fun body => (body, depth + 1)) ++ rest) < workSize ((b, depth) :: rest) := by
  have := blocks_size h
  simp only [workSize, total_append, total_map, total]
  omega

/-- Every block still to be looked at is within `limit` levels. -/
def withinLimit (limit : Nat) (work : List (Bytes × Nat)) : Bool :=
  match work with
  | [] => true
  | (b, depth) :: rest =>
    match hb : blocks b with
    | none =>
      have := workSize_rest b depth rest
      withinLimit limit rest
    | some bodies =>
      -- a block that holds no block ends a path
      if bodies.isEmpty then
        have := workSize_rest b depth rest
        withinLimit limit rest
      else if limit ≤ depth then false
      else
        have := workSize_blocks hb depth rest
        withinLimit limit ((bodies.map fun body => (body, depth + 1)) ++ rest)
termination_by workSize work

/-- The bytes are nested at most `limit` deep. -/
def nestedWithin (limit : Nat) (b : Bytes) : Bool := withinLimit limit [(b, 0)]

end Fabric.Wire
