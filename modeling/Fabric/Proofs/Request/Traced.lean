import Fabric.Proofs.Traverse
import Fabric.Request.Headers

namespace Fabric

/-- A step that reads a message reads what the decoder reads. -/
theorem decodeMessage_eq_ok_iff {α : Type} [Wire.Codec α] {b : Bytes} {a : α} :
    decodeMessage b = .ok a ↔ Wire.decode b = .ok a := by
  rw [decodeMessage]
  cases (Wire.decode b : Except Wire.DecodeError α) with
  | ok a' =>
    -- the same value, with errors of one sort or the other beside it
    constructor
    · intro h
      rw [Except.ok.inj h]
    · intro h
      rw [Except.ok.inj h]
      rfl
  | error e =>
    constructor
    · intro h
      cases h
    · intro h
      cases h

namespace Traced

variable {ε α β γ : Type}

instance : LawfulMonad (Traced ε) :=
  LawfulMonad.mk' (Traced ε)
    (by
      intro α x
      obtain ⟨calls, outcome⟩ := x
      cases outcome with
      | error e => rfl
      | ok a => exact congrArg (Traced.mk · (.ok a)) (List.append_nil calls))
    (fun _ _ => rfl)
    (by
      intro α β γ x f g
      obtain ⟨calls, outcome⟩ := x
      cases outcome with
      | error e => rfl
      | ok a =>
        change Traced.bind (Traced.bind ⟨calls, .ok a⟩ f) g = Traced.bind ⟨calls, .ok a⟩ fun a => Traced.bind (f a) g
        simp only [Traced.bind]
        split
        · rfl
        · rw [List.append_assoc])

@[simp] theorem ofExcept_ok_bind (a : α) (f : α → Traced ε β) : (ofExcept (.ok a) >>= f) = f a := rfl

/-- Only what succeeds at each step succeeds in the end. -/
theorem outcome_bind_eq_ok_iff {x : Traced ε α} {f : α → Traced ε β} {b : β} :
    (x >>= f).outcome = .ok b ↔ ∃ a, x.outcome = .ok a ∧ (f a).outcome = .ok b := by
  obtain ⟨calls, outcome⟩ := x
  cases outcome with
  | error e =>
    constructor
    · intro h
      cases h
    · intro h
      obtain ⟨a, ha, -⟩ := h
      cases ha
  | ok a =>
    constructor
    · intro h
      exact ⟨a, rfl, h⟩
    · intro h
      obtain ⟨a', ha, h⟩ := h
      cases ha
      exact h

/-- What succeeds whatever came before it succeeds after it. -/
theorem exists_outcome_bind {x : Traced ε α} {f : α → Traced ε β} (hx : ∃ a, x.outcome = .ok a)
    (hf : ∀ a, ∃ b, (f a).outcome = .ok b) : ∃ b, (x >>= f).outcome = .ok b := by
  obtain ⟨a, ha⟩ := hx
  obtain ⟨b, hb⟩ := hf a
  exact ⟨b, outcome_bind_eq_ok_iff.2 ⟨a, ha, hb⟩⟩

section

variable {p : Provider} {algorithm : HashAlgorithm} {key : String} {message : Bytes}

theorem digest_of_ok {text : String} (h : p.digest algorithm message = .ok text) :
    digest p algorithm message = ⟨[.digest algorithm message], .ok text⟩ := by
  rw [digest, h]
  rfl

theorem digest_of_error {e : CryptoError} (h : p.digest algorithm message = .error e) :
    digest p algorithm message = ⟨[.digest algorithm message], .error (.crypto e)⟩ := by
  rw [digest, h]
  rfl

theorem sign_of_ok {signature : Bytes} (h : p.sign key message = .ok signature) :
    sign p key message = ⟨[.sign key message], .ok signature⟩ := by
  rw [sign, h]
  rfl

theorem sign_of_error {e : CryptoError} (h : p.sign key message = .error e) :
    sign p key message = ⟨[.sign key message], .error (.crypto e)⟩ := by
  rw [sign, h]
  rfl

theorem outcome_digest_eq_ok_iff {text : String} :
    (digest p algorithm message).outcome = .ok text ↔ p.digest algorithm message = .ok text := by
  cases h : p.digest algorithm message with
  | ok text' => rw [digest_of_ok h, Except.ok.injEq, Except.ok.injEq]
  | error e =>
    rw [digest_of_error h]
    constructor
    · intro h
      cases h
    · intro h
      cases h

theorem exists_outcome_digest (h : ∃ text, p.digest algorithm message = .ok text) :
    ∃ text, (digest p algorithm message).outcome = .ok text := by
  obtain ⟨text, htext⟩ := h
  exact ⟨text, by rw [digest_of_ok htext]⟩

theorem exists_outcome_sign (h : ∃ signature, p.sign key message = .ok signature) :
    ∃ signature, (sign p key message).outcome = .ok signature := by
  obtain ⟨signature, hsignature⟩ := h
  exact ⟨signature, by rw [sign_of_ok hsignature]⟩

end

end Traced

end Fabric
