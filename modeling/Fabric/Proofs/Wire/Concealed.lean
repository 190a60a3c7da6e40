import Fabric.Proofs.Wire.MessageNesting
import Fabric.Proofs.Wire.Reading

/-!
Where the measure of nesting does not see what a decoder sees. A group in front of other records ends
the measure of its level, while a decoder passes it over; so whatever follows it may be nested as
deeply as the message type allows, and a signature policy may be nested without end.
-/
namespace Fabric.Wire

def emptyGroup : Bytes := Key.encode ⟨15, .startGroup⟩ ++ Key.encode ⟨15, .endGroup⟩

theorem Key.decode_emptyGroup (b : Bytes) :
    Key.decode (emptyGroup ++ b) = some (⟨15, .startGroup⟩, Key.encode ⟨15, .endGroup⟩ ++ b) := by
  rw [emptyGroup, List.append_assoc]
  exact Key.decode_encode _ (by decide) (by decide) _

/-- The measure sees nothing of a level that begins with a group. -/
theorem blockNesting_emptyGroup (b : Bytes) : blockNesting (emptyGroup ++ b) = 0 := by
  apply blockNesting_of_innerBlocks
  have hnone : blocks (emptyGroup ++ b) = none := blocks_of_decode (Key.decode_emptyGroup b)
  rw [innerBlocks, hnone]
  rfl

/-- A decoder reads the group as one record and goes on. -/
theorem Record.decodeAll_emptyGroup {always : List Nat} (h : 15 ∉ always) (b : Bytes) :
    decodeAll always (emptyGroup ++ b) = (decodeAll always b).map (⟨15, .group⟩ :: ·) := by
  have hend : Key.decode (Key.encode ⟨15, .endGroup⟩ ++ b) = some (⟨15, .endGroup⟩, b) :=
    Key.decode_encode _ (by decide) (by decide) _
  have hstart : payloadType always [] ⟨15, .startGroup⟩ = .startGroup := by
    simp [payloadType, h]
  have hstop : payloadType always [15] ⟨15, .endGroup⟩ = .endGroup := by
    simp [payloadType]
  -- the group is one record for its beginning, and none for its end
  have hopen : scan always [] (emptyGroup ++ b) =
      (scan always [15] (Key.encode ⟨15, .endGroup⟩ ++ b)).map (⟨15, .group⟩ :: ·) := by
    rw [scan_of_decode (Key.decode_emptyGroup b), hstart]
    rfl
  have hclose : scan always [15] (Key.encode ⟨15, .endGroup⟩ ++ b) = scan always [] b := by
    rw [scan_of_decode hend, hstop]
    rfl
  rw [decodeAll, hopen, hclose, decodeAll]

namespace MessageType

theorem number_lt (t : MessageType) : ∀ slot ∈ t.slots, ∀ number ∈ slot.numbers, number < 15 := by
  cases t <;> decide

theorem notMem_keyedNumbers (t : MessageType) : 15 ∉ t.keyedNumbers := by
  cases t <;> decide

end MessageType

/-- A group of an unknown field in front changes nothing of the message that is decoded. -/
theorem Fields.decode?_emptyGroup {t : MessageType} {b : Bytes} {m : Fields} (h : Fields.decode? t b = some m) :
    Fields.decode? t (emptyGroup ++ b) = some m := by
  simp only [Fields.decode?, Option.bind_eq_bind, Option.bind_eq_some_iff] at h ⊢
  obtain ⟨rs, hrs, hm⟩ := h
  refine ⟨⟨15, .group⟩ :: rs, ?_, ?_⟩
  · rw [Record.decodeAll_emptyGroup t.notMem_keyedNumbers, hrs]
    rfl
  · have hdepth : b.length + 1 ≤ (emptyGroup ++ b).length + 1 := by
      rw [List.length_append]
      omega
    have hno : ∀ slot ∈ t.slots, 15 ∉ slot.numbers := by
      intro slot hslot hmem
      exact absurd (t.number_lt slot hslot 15 hmem) (by decide)
    have hmore := readMessage_mono hdepth t rs m hm
    rw [readMessage] at hmore ⊢
    rw [readSlots_cons_of_notMem hno, hmore]

def Slot.kinds : Slot → List Kind
  | .plain _ kind => [kind]
  | .optional _ kind => [kind]
  | .repeated _ kind => [kind]
  | .keyed _ kind => [kind]
  | .oneOf choices => choices.map (·.2)

namespace MessageType

inductive Holds : MessageType → MessageType → Prop
  | self (t : MessageType) : Holds t t
  | field {t t' t'' : MessageType} {slot : Slot} (hslot : slot ∈ t.slots)
      (hkind : .message t' ∈ slot.kinds) (h : Holds t' t'') : Holds t t''

def policyField? : MessageType → Option (Nat × MessageType)
  | .signaturePolicyEnvelope => some (2, .signaturePolicy)
  | .signaturePolicy => some (2, .nOutOf)
  | .nOutOf => some (2, .signaturePolicy)
  | .applicationPolicy => some (1, .signaturePolicyEnvelope)
  | .collectionPolicyConfig => some (1, .signaturePolicyEnvelope)
  | .staticCollectionConfig => some (2, .collectionPolicyConfig)
  | .collectionConfig => some (1, .staticCollectionConfig)
  | .collectionConfigPackage => some (1, .collectionConfig)
  | .approveArgs => some (7, .collectionConfigPackage)
  | .checkReadinessArgs => some (7, .collectionConfigPackage)
  | .commitArgs => some (7, .collectionConfigPackage)
  | .queryDefinitionResult => some (6, .collectionConfigPackage)
  | .chaincodeDefinition => some (7, .collectionConfigPackage)
  | .queryDefinitionsResult => some (1, .chaincodeDefinition)
  | _ => none

end MessageType

def Kind.holdsPolicy : Kind → Bool
  | .message t => t.policyField?.isSome
  | _ => false

namespace MessageType

theorem isSome_policyField?_of_kind (t : MessageType) :
    ∀ slot ∈ t.slots, ∀ kind ∈ slot.kinds, kind.holdsPolicy = true → t.policyField?.isSome = true := by
  cases t <;> decide

theorem isSome_policyField?_of_holds {t t' : MessageType} (h : t.Holds t')
    (ht' : t'.policyField?.isSome = true) : t.policyField?.isSome = true := by
  induction h with
  | self => exact ht'
  | @field t t' _ slot hslot hkind _ ih => exact t.isSome_policyField?_of_kind slot hslot _ hkind (ih ht')

/-- Message types that go on to no signature policy hold messages at most six levels deep. -/
theorem schemaWithin_of_policyField?_eq_none {t : MessageType} (h : t.policyField? = none) :
    schemaWithin 6 t.slots = true := by
  cases t <;> first | rfl | simp [policyField?] at h

/-- The field of `policyField?` is there, and goes on to a type with such a field. -/
theorem policyField?_spec {t t' : MessageType} {number : Nat} (h : t.policyField? = some (number, t')) :
    0 < number ∧ number < 10 ∧ t'.policyField?.isSome = true ∧ ∃ slot ∈ t.slots, .message t' ∈ slot.kinds := by
  cases t <;> simp only [policyField?, Option.some.injEq, Prod.mk.injEq, reduceCtorEq] at h <;>
    obtain ⟨rfl, rfl⟩ := h <;> decide

def policyTypeAfter : Nat → MessageType → MessageType
  | 0, t => t
  | n + 1, t =>
    match t.policyField? with
    | some (_, t') => policyTypeAfter n t'
    | none => t

theorem holds_of_policyTypeAfter {t t' : MessageType} (n : Nat) (h : (policyTypeAfter n t).Holds t') :
    t.Holds t' := by
  induction n generalizing t with
  | zero => exact h
  | succ n ih =>
    rw [policyTypeAfter] at h
    split at h
    · next number next hnext =>
      obtain ⟨-, -, -, slot, hslot, hkind⟩ := policyField?_spec hnext
      exact .field hslot hkind (ih h)
    · exact h

/-- Exactly the types with such a field may hold a signature policy. -/
theorem holds_signaturePolicy_iff {t : MessageType} :
    t.Holds .signaturePolicy ↔ t.policyField?.isSome = true := by
  constructor
  · exact fun h => isSome_policyField?_of_holds h rfl
  · intro h
    -- the longest way there is from a result that lists definitions
    have hn : ∃ n < 8, policyTypeAfter n t = .signaturePolicy := by
      cases t <;> first | decide | simp [policyField?] at h
    obtain ⟨n, -, hn⟩ := hn
    exact holds_of_policyTypeAfter n (hn ▸ .self _)

end MessageType

/-- A message whose only record is the block of `policyField?` has only that field. -/
theorem readSlots_policyField {read : MessageReader} {t t' : MessageType} {number : Nat} {body : Bytes}
    {rs : List Record} {m : Fields} (h : t.policyField? = some (number, t'))
    (hrs : Record.decodeAll t'.keyedNumbers body = some rs) (hm : read t' rs = some m) :
    readSlots read t.slots [⟨number, .block body⟩] = some [(number, .message m)] := by
  cases t <;> simp only [MessageType.policyField?, Option.some.injEq, Prod.mk.injEq, reduceCtorEq] at h <;>
    obtain ⟨rfl, rfl⟩ := h <;>
    simp [readSlots, readSlot, readPlain, readValue, readChoice, payloads, runs, MessageType.slots,
      definitionSlots, Kind.inner?, hrs, hm, Keyed.ofList]

def nestedBlocks : Nat → MessageType → Bytes
  | 0, _ => []
  | n + 1, t =>
    match t.policyField? with
    | some (number, t') => Record.encodeBlock number (nestedBlocks n t')
    | none => []

theorem nestedBlocks_length (n : Nat) (t : MessageType) (hn : 11 * n < UInt64.size) :
    (nestedBlocks n t).length ≤ 11 * n := by
  induction n generalizing t with
  | zero => simp [nestedBlocks]
  | succ n ih =>
    rw [nestedBlocks]
    split
    · next number t' ht =>
      obtain ⟨-, hlt, -⟩ := MessageType.policyField?_spec ht
      have hbody := ih t' (by omega)
      -- a key of one byte, and a length of ten at most
      have hkey : (Key.encode ⟨number, .block⟩).length ≤ 1 := by
        apply Varint.encode_length_le 0
        simp only [WireType.code, Varint.room]
        omega
      have hsize : (Varint.encode (nestedBlocks n t').length).length ≤ 10 := by
        apply Varint.encode_length_le 9
        have hroom : UInt64.size ≤ Varint.room 128 9 := by decide
        omega
      simp only [Record.encodeBlock, List.length_append]
      omega
    · simp

/-- A message read in a block is one level deeper than it is by itself. -/
theorem Fields.decode?_policyField {t t' : MessageType} {number : Nat} {body : Bytes} {m : Fields}
    (ht : t.policyField? = some (number, t')) (hlen : body.length < UInt64.size)
    (h : Fields.decode? t' body = some m) :
    Fields.decode? t (Record.encodeBlock number body) = some [(number, .message m)] := by
  obtain ⟨hpos, hlt, -⟩ := MessageType.policyField?_spec ht
  simp only [Fields.decode?, Option.bind_eq_bind, Option.bind_eq_some_iff] at h ⊢
  obtain ⟨rs, hrs, hm⟩ := h
  refine ⟨[⟨number, .block body⟩], ?_, ?_⟩
  · have hnumber : 8 * number + 8 ≤ UInt32.size := by
      have hmin : 88 ≤ UInt32.size := by decide
      omega
    have hb := Record.decodeAll_encodeBlock t.keyedNumbers hpos hnumber hlen []
    rwa [List.append_nil, Record.decodeAll_nil] at hb
  · have hdepth : body.length + 1 ≤ (Record.encodeBlock number body).length := by
      have hpos : 0 < (Varint.encode body.length).length := by
        rw [Varint.encode]
        split <;> simp
      simp only [Record.encodeBlock, List.length_append]
      omega
    exact readSlots_policyField ht hrs (readMessage_mono hdepth t' rs m hm)

/-- Messages that hold signature policies may be nested as deeply as bytes can be counted. -/
theorem decode?_nestedBlocks (n : Nat) (t : MessageType) (hn : 11 * n < UInt64.size)
    (ht : t.policyField?.isSome = true) :
    ∃ m, Fields.decode? t (nestedBlocks n t) = some m ∧ Value.nestingOfFields m = n := by
  induction n generalizing t with
  | zero =>
    exact ⟨[], Fields.decode?_nil t, rfl⟩
  | succ n ih =>
    obtain ⟨⟨number, t'⟩, hfield⟩ := Option.isSome_iff_exists.1 ht
    obtain ⟨-, -, ht', -⟩ := MessageType.policyField?_spec hfield
    obtain ⟨m, hm, hnest⟩ := ih t' (by omega) ht'
    have hlen := nestedBlocks_length n t' (by omega)
    refine ⟨[(number, .message m)], ?_, ?_⟩
    · rw [nestedBlocks, hfield]
      exact Fields.decode?_policyField hfield (by omega) hm
    · simp [Value.nestingOfFields, Value.nesting, hnest]

end Fabric.Wire
