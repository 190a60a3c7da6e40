import Fabric.Command.Output
import Fabric.Proofs.Crypto.Unwrapping

namespace Fabric

namespace Base64

theorem not_isBlank_of_mem_encode (b : Bytes) : ∀ c ∈ (encode b).toList, Text.isBlank c = false := by
  intro c hc
  rw [encode, String.toList_ofList] at hc
  exact (isSymbol_of_mem_encodeChars c hc).not_isBlank

theorem spaced_encode_iff {b : Bytes} {w : String} :
    Text.Spaced (encode b).toList w.toList ↔ Text.dropBlanks w = encodeChars b := by
  rw [Text.spaced_iff (not_isBlank_of_mem_encode b), encode, String.toList_ofList]

end Base64

theorem decodeBase64_eq_ok_iff {w : String} {b : Bytes} :
    decodeBase64 w = .ok b ↔ Text.dropBlanks w = Base64.encodeChars b := by
  rw [← Base64.decodeChars?_eq_some_iff, decodeBase64]
  cases Base64.decodeChars? (Text.dropBlanks w) <;> simp

/-- Bytes are read from a text exactly if it is what is printed for them with blanks put in. A text that is wrapped comes
back unchanged from what it is wrapped in with blanks put in, if it begins with a mark after blanks of its own;
otherwise the mark is missed. -/
theorem base64_undone_spaced :
    (∀ (b : Bytes) (w : String),
      decodeBase64 w = .ok b ↔ Text.Spaced (Output.bytes b).render.toList w.toList) ∧
    (∀ pem w field : String, Text.Spaced (PemText.wrap pem).toList w.toList →
      PemText.unwrap field w =
        if PemText.mark.isPrefixOf (Text.trimStart pem.toList) then .ok pem
        else .error (.invalidPem field .noHeader)) ∧
    ∀ field : String,
      (CryptoError.invalidPem field .noHeader).message = "invalid PEM in " ++ field ++ ": " ++ "missing PEM header" := by
  refine ⟨?_, ?_, ?_⟩
  · intro b w
    rw [Output.render, Base64.spaced_encode_iff, decodeBase64_eq_ok_iff]
  · intro pem w field hspaced
    apply PemText.unwrap_of_dropBlanks
    rwa [PemText.wrap, Base64.spaced_encode_iff] at hspaced
  · intro field
    rfl

/-- Groups of one, two and three bytes, with line ends, a blank between the padding and blanks that are not ASCII; and a
text with a mark and one without. -/
theorem base64_undone_spaced_lines :
    decodeBase64 "\u2003/w =\r\n=" = .ok [255] ∧ decodeBase64 "c3Rp\ndA=\u00a0= " = .ok (Bytes.ofText "stit") ∧
      decodeBase64 "c3 RpdG\u3000M=" = .ok (Bytes.ofText "stitc") ∧
      PemText.unwrap "cert" "\tIC0tLS0tQkV\nHSU4gWAo=\u2028" = .ok " -----BEGIN X\n" ∧
      PemText.unwrap "cert" " aGVs bG8=\n" = .error (.invalidPem "cert" .noHeader) ∧
      PemText.unwrap "cert" "\u205f" = .error (.invalidPem "cert" .noHeader) := by
  obtain ⟨hbytes, hwrapped, -⟩ := base64_undone_spaced
  refine ⟨(hbytes _ _).2 ?one, (hbytes _ _).2 ?four, (hbytes _ _).2 ?five, ?mark, ?other, ?nothing⟩
  case one => exact Base64.spaced_encode_iff.2 (by decide)
  case four => exact Base64.spaced_encode_iff.2 (by decide)
  case five => exact Base64.spaced_encode_iff.2 (by decide)
  case mark =>
    rw [hwrapped " -----BEGIN X\n" _ _ (Base64.spaced_encode_iff.2 (by decide))]
    exact if_pos (by decide)
  case other =>
    rw [hwrapped "hello" _ _ (Base64.spaced_encode_iff.2 (by decide))]
    exact if_neg (by decide)
  case nothing =>
    rw [hwrapped "" _ _ (Base64.spaced_encode_iff.2 (by decide))]
    exact if_neg (by decide)

end Fabric
