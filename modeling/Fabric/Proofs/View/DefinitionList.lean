import Fabric.Proofs.Collected
import Fabric.Proofs.Message.Passing
import Fabric.Proofs.Request.Traced
import Fabric.Proofs.Wire.Apparent
import Fabric.View.Lifecycle

/-!
Definitions in a list are shown as they are when each is told of on its own. The two answers of a peer are messages of
different types: the one in the list has the name of the chaincode in front, and everything else one number further.
-/
namespace Fabric

open Message (ListedDefinition QueryDefinitionResult QueryDefinitionsResult)
open Wire (Passes)
open Wire.Fields

namespace Message

/-- What a peer that is asked for the definition alone answers, if nobody is said to have approved it. -/
def ListedDefinition.answer (d : ListedDefinition) : QueryDefinitionResult :=
  ⟨d.sequence, d.version, d.endorsementPlugin, d.validationPlugin, d.validationParameter, d.collections,
    d.initRequired, []⟩

theorem ListedDefinition.toFields_eq (d : ListedDefinition) :
    Wire.Codec.toFields d = putText 1 d.name ++ (Wire.Codec.toFields d.answer).shifted := by
  have happrovals : BoolMap.toFields 8 [] = [] := rfl
  simp only [Wire.Codec.toFields, answer, happrovals, putText, putInt64, putBytes, putBool, shifted_append, shifted_put,
    shifted_putMessage?, List.append_nil, List.append_assoc]

theorem ListedDefinition.answer_faithful (d : ListedDefinition) : Wire.Faithful d.answer :=
  QueryDefinitionResult.faithful List.Pairwise.nil

theorem ListedDefinition.passes_answer {d : ListedDefinition} (h : Passes (Wire.encode d)) :
    Passes (Wire.encode d.answer) :=
  d.answer_faithful.passes_of_shifted d.faithful d.toFields_eq h

theorem QueryDefinitionsResult.passes_definition {r : QueryDefinitionsResult} (h : Passes (Wire.encode r))
    {d : ListedDefinition} (hd : d ∈ r.definitions) : Passes (Wire.encode d) :=
  r.faithful.passes_message h (List.mem_map_of_mem (List.mem_map_of_mem hd))

end Message

namespace DefinitionView

def ofAnswer (d : ListedDefinition) : Except RequestError DefinitionView := decode d.name (Wire.encode d.answer)

/-- The two readers differ in the message they take the definition from, and in nothing else. -/
theorem ofAnswer_eq_ofListed {d : ListedDefinition} (h : Passes (Wire.encode d)) : ofAnswer d = ofListed d := by
  have hread : decodeMessage (Wire.encode d.answer) = .ok d.answer :=
    decodeMessage_eq_ok_iff.2 (d.answer_faithful.decode_of_passes (Message.ListedDefinition.passes_answer h))
  rw [ofAnswer, decode, hread]
  rfl

variable {ds : List ListedDefinition}

theorem decodeList_eq_mapM (h : Passes (Wire.encode (⟨ds⟩ : QueryDefinitionsResult))) :
    decodeList (Wire.encode (⟨ds⟩ : QueryDefinitionsResult)) = ds.mapM ofAnswer := by
  have hread : decodeMessage (Wire.encode (⟨ds⟩ : QueryDefinitionsResult)) = .ok (⟨ds⟩ : QueryDefinitionsResult) :=
    decodeMessage_eq_ok_iff.2 ((QueryDefinitionsResult.faithful _).decode_of_passes h)
  have hsame : ∀ d ∈ ds, ofListed d = ofAnswer d := by
    intro d hd
    exact (ofAnswer_eq_ofListed (Message.QueryDefinitionsResult.passes_definition h hd)).symm
  calc decodeList (Wire.encode (⟨ds⟩ : QueryDefinitionsResult))
      = ds.mapM ofListed := by rw [decodeList, hread]; rfl
    _ = ds.mapM ofAnswer := mapM_congr_left hsame

/-- A list of definitions is shown as its definitions are, one by one and in the same order; it cannot be shown if one of
them cannot, for the reason of the first of these. -/
theorem decodeList_agrees (h : Passes (Wire.encode (⟨ds⟩ : QueryDefinitionsResult))) :
    decodeList (Wire.encode (⟨ds⟩ : QueryDefinitionsResult)) =
        ds.mapM (fun d => decode d.name (Wire.encode d.answer)) ∧
      (∀ views, decodeList (Wire.encode (⟨ds⟩ : QueryDefinitionsResult)) = .ok views ↔
        List.Forall₂ (fun d view => decode d.name (Wire.encode d.answer) = .ok view) ds views) ∧
      ∀ e, decodeList (Wire.encode (⟨ds⟩ : QueryDefinitionsResult)) = .error e ↔
        ∃ before d after, ds = before ++ d :: after ∧
          (∀ x ∈ before, ∃ view, decode x.name (Wire.encode x.answer) = .ok view) ∧
          decode d.name (Wire.encode d.answer) = .error e := by
  rw [decodeList_eq_mapM h]
  exact ⟨rfl, fun _ => mapM_eq_ok_iff, fun _ => mapM_eq_error_iff⟩

/-- Of two definitions that cannot be shown, the first one says why. -/
theorem decodeList_agrees_first_error :
    let shown : ListedDefinition := ⟨"a", 1, "1.0", "escc", "vscc", [18, 1, 67], some ⟨[⟨none⟩]⟩, false⟩
    let malformed : ListedDefinition := ⟨"b", 2, "1.0", "", "", [255], none, false⟩
    let unruly : ListedDefinition := ⟨"c", 1, "1.0", "", "", [10, 0], none, true⟩
    Passes (Wire.encode (⟨[shown, malformed, unruly]⟩ : QueryDefinitionsResult)) ∧
      (∃ e, decode "c" (Wire.encode unruly.answer) = .error (.policy e)) ∧
      decodeList (Wire.encode (⟨[shown, malformed, unruly]⟩ : QueryDefinitionsResult)) =
        .error (.encoding (.undecodable .malformed)) := by
  intro shown malformed unruly
  have hpasses : Passes (Wire.encode (⟨[shown, malformed, unruly]⟩ : QueryDefinitionsResult)) :=
    .of_nestedWithin (by decide +kernel) (by decide +kernel)
  have hshown : ∃ view, decode "a" (Wire.encode shown.answer) = .ok view ∧ view.name = "a" :=
    exists_ok_of_any (by decide +kernel)
  have hmalformed : (match decode "b" (Wire.encode malformed.answer) with
      | .error (.encoding (.undecodable .malformed)) => true
      | _ => false) = true := by
    decide +kernel
  have hunruly : (match decode "c" (Wire.encode unruly.answer) with
      | .error (.policy _) => true
      | _ => false) = true := by
    decide +kernel
  refine ⟨hpasses, ?_, ?_⟩
  · split at hunruly
    · next e he => exact ⟨e, he⟩
    · cases hunruly
  · split at hmalformed
    · next he =>
      obtain ⟨view, hview, -⟩ := hshown
      exact ((decodeList_agrees hpasses).2.2 _).2
        ⟨[shown], malformed, [unruly], rfl, List.forall_mem_singleton.2 ⟨view, hview⟩, he⟩
    · cases hmalformed

end DefinitionView

end Fabric
