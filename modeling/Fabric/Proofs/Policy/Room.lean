import Fabric.Policy.Envelope
import Fabric.Proofs.Collected
import Fabric.Proofs.Policy.Legacy
import Fabric.Proofs.Policy.Respelling

/-!
Readers of rule trees that have room for so many open groups and no more. Main statement: what passes the check of depth
is read in the room of that depth, in every notation, to the same rule or error as without a bound.
-/
namespace Fabric

inductive RuleShape (α : Type)
  | signedBy (index : UInt32)
  | group (n : UInt32) (rules : List α)

/-- How rules are written: the shape of a value, and what becomes of a group once its rules are read. -/
structure RuleForm (α : Type) where
  shape : α → Except PolicyError (RuleShape α)
  close : UInt32 → List Rule → Except PolicyError Rule

namespace RuleForm

variable {α : Type} (s : RuleForm α)

def read (members : List α → Option (Except PolicyError (List Rule))) (a : α) : Option (Except PolicyError Rule) :=
  match s.shape a with
  | .error e => some (.error e)
  | .ok (.signedBy i) => some (.ok (.signedBy i))
  | .ok (.group n bs) => (members bs).map fun rules => rules.bind (s.close n)

def inOrder (f : α → Option (Except PolicyError Rule)) : List α → Option (Except PolicyError (List Rule))
  | [] => some (.ok [])
  | a :: rest =>
    match f a with
    | none => none
    | some (.error e) => some (.error e)
    | some (.ok r) => (inOrder f rest).map fun rules => rules.map (r :: ·)

/-- Reads a value with room for so many groups to be open at once; none if one more would be. -/
def readIn : Nat → α → Option (Except PolicyError Rule)
  | 0 => s.read fun _ => none
  | room + 1 => s.read (inOrder (readIn room))

def ReadBy (f : α → Except PolicyError Rule) : Prop :=
  ∀ a, some (f a) = s.read (fun bs => some (bs.mapM f)) a

theorem inOrder_eq_some {f : α → Option (Except PolicyError Rule)} {g : α → Except PolicyError Rule} {l : List α}
    (h : ∀ a ∈ l, f a = some (g a)) : inOrder f l = some (l.mapM g) := by
  induction l with
  | nil => rfl
  | cons a rest ih =>
    rw [List.forall_mem_cons] at h
    rw [inOrder, h.1, ih h.2, mapM_cons_eq]
    cases g a <;> rfl

variable {s} {f : α → Except PolicyError Rule}

theorem ReadBy.eq_of_read (hf : s.ReadBy f) {members : List α → Option (Except PolicyError (List Rule))} {a : α}
    (hmembers : ∀ n bs, s.shape a = .ok (.group n bs) → members bs = some (bs.mapM f)) :
    s.read members a = some (f a) := by
  rw [hf a, read, read]
  split
  · rfl
  · rfl
  · next n bs hshape => rw [hmembers n bs hshape]

/-- A group holds rules that need one room less than it. -/
theorem exists_of_withinLimit {t : GroupTree α} {limit : Nat} {a : α} {bs : List α} (hbs : t.children a = some bs)
    (h : t.withinLimit limit [(a, 0)] = true) :
    ∃ room, limit = room + 1 ∧ ∀ b ∈ bs, t.withinLimit room [(b, 0)] = true := by
  have hiff {limit : Nat} {a : α} : t.withinLimit limit [(a, 0)] = true ↔
      ∀ k, NestsGroups (fun a bs => t.children a = some bs) k a → k ≤ limit := by
    rw [t.withinLimit_iff_nestsGroups fun a bs => Iff.rfl, List.forall_mem_singleton]
    simp
  rw [hiff] at h
  have hpos : 1 ≤ limit := h 1 (.one hbs)
  refine ⟨limit - 1, by omega, ?_⟩
  intro b hb
  rw [hiff]
  intro k hk
  have hle : k + 1 ≤ limit := h (k + 1) (.more hbs hb hk)
  omega

def CoveredBy (s : RuleForm α) (t : GroupTree α) : Prop :=
  ∀ a n bs, s.shape a = .ok (.group n bs) → t.children a = some bs

/-- What is within the limit is read in the room of the limit. -/
theorem ReadBy.readIn_eq (hf : s.ReadBy f) {t : GroupTree α} (ht : s.CoveredBy t) {limit : Nat} {a : α}
    (h : t.withinLimit limit [(a, 0)] = true) : s.readIn limit a = some (f a) := by
  -- the induction is on the room; a value that is no group needs none
  induction limit generalizing a with
  | zero =>
    apply hf.eq_of_read
    intro n bs hshape
    obtain ⟨room, hroom, -⟩ := exists_of_withinLimit (ht a n bs hshape) h
    exact absurd hroom (Nat.succ_ne_zero room).symm
  | succ room ih =>
    apply hf.eq_of_read
    intro n bs hshape
    obtain ⟨room', hroom, hbs⟩ := exists_of_withinLimit (ht a n bs hshape) h
    obtain rfl := Nat.succ.inj hroom
    exact inOrder_eq_some fun b hb => ih (hbs b hb)

end RuleForm

namespace Policy

def RuleNode.ruleShape : RuleNode → RuleShape Json
  | .signedBy i => .signedBy i
  | .group n rules => .group n rules

def jsonForm : RuleForm Json where
  shape v := (RuleNode.ofJson v).map RuleNode.ruleShape
  close n rules := .ok (.nOutOf n rules)

theorem jsonForm_readBy : jsonForm.ReadBy ruleOfJson := by
  intro v
  have hshape : jsonForm.shape v = (RuleNode.ofJson v).map RuleNode.ruleShape := rfl
  rw [ruleOfJson_eq, RuleForm.read, hshape]
  cases RuleNode.ofJson v with
  | error e => rfl
  | ok node =>
    cases node with
    | signedBy i => rfl
    | group n vs =>
      simp only [Except.map, RuleNode.ruleShape, rulesOfJson_eq_mapM]
      cases vs.mapM ruleOfJson <;> rfl

theorem jsonForm_coveredBy : jsonForm.CoveredBy groupTree := by
  intro v n vs h
  obtain ⟨node, hnode, hshape⟩ := map_eq_ok_iff.1 h
  cases node with
  | signedBy i => cases hshape
  | group n vs =>
    cases hshape
    exact RuleNode.children_of_ofJson hnode

def messageShape : Message.SignaturePolicy → Except PolicyError (RuleShape Message.SignaturePolicy)
  | .unset => .error (.envelope .emptyRule)
  | .signedBy index =>
    match unsigned? index with
    | some i => .ok (.signedBy i)
    | none => .error (.envelope (.negativeIndex index))
  | .nOutOf n rules =>
    match unsigned? n with
    | some n => .ok (.group n rules)
    | none => .error (.invalidOutOfCount (toString n.toInt))

def messageForm : RuleForm Message.SignaturePolicy where
  shape := messageShape
  close n rules := .ok (.nOutOf n rules)

theorem rulesOfMessages_eq_mapM (ms : List Message.SignaturePolicy) : rulesOfMessages ms = ms.mapM ruleOfMessage := by
  apply eq_mapM_of_cons
  · rw [rulesOfMessages]
  · intro m rest
    rw [rulesOfMessages]
    cases ruleOfMessage m <;> rfl

theorem messageForm_readBy : messageForm.ReadBy ruleOfMessage := by
  intro m
  have hshape : messageForm.shape m = messageShape m := rfl
  rw [RuleForm.read, hshape]
  cases m with
  | unset => rfl
  | signedBy index =>
    rw [ruleOfMessage, messageShape]
    cases unsigned? index <;> rfl
  | nOutOf n rules =>
    rw [ruleOfMessage, messageShape]
    cases unsigned? n with
    | none => rfl
    | some n =>
      simp only [rulesOfMessages_eq_mapM]
      cases rules.mapM ruleOfMessage <;> rfl

theorem messageForm_coveredBy : messageForm.CoveredBy messageTree := by
  intro m n ms h
  change messageShape m = .ok (.group n ms) at h
  cases m with
  | unset => cases h
  | signedBy index =>
    rw [messageShape] at h
    split at h <;> cases h
  | nOutOf k rules =>
    rw [messageShape] at h
    split at h
    · cases h
      rfl
    · cases h

end Policy

namespace LegacyPolicy

def RuleNode.ruleShape : RuleNode → RuleShape Json
  | .signedBy i => .signedBy i
  | .group n rules => .group n rules

def jsonForm : RuleForm Json where
  shape v := (RuleNode.ofJson v).map RuleNode.ruleShape
  close := group

theorem rulesOfJson_eq_mapM (vs : List Json) : rulesOfJson vs = vs.mapM ruleOfJson := by
  apply eq_mapM_of_cons
  · rw [rulesOfJson]
  · intro v rest
    rw [rulesOfJson]
    cases ruleOfJson v with
    | error e => rfl
    | ok r => cases rulesOfJson rest <;> rfl

theorem jsonForm_readBy : jsonForm.ReadBy ruleOfJson := by
  intro v
  have hshape : jsonForm.shape v = (RuleNode.ofJson v).map RuleNode.ruleShape := rfl
  rw [ruleOfJson_eq, RuleForm.read, hshape]
  cases RuleNode.ofJson v with
  | error e => rfl
  | ok node =>
    cases node with
    | signedBy i => rfl
    | group n vs =>
      simp only [Except.map, RuleNode.ruleShape, rulesOfJson_eq_mapM]
      rfl

theorem jsonForm_coveredBy : jsonForm.CoveredBy groupTree := by
  intro v n vs h
  obtain ⟨node, hnode, hshape⟩ := map_eq_ok_iff.1 h
  cases node with
  | signedBy i => cases hshape
  | group n vs =>
    cases hshape
    exact RuleNode.children_of_ofJson hnode

end LegacyPolicy

theorem withinLimit_of_checkDepth {t : GroupTree Json} {v : Json} (h : Policy.checkDepth t v = .ok ()) :
    t.withinLimit Policy.maxDepth [(v, 0)] = true := by
  rw [Policy.checkDepth] at h
  split at h
  · assumption
  · cases h

/-- A reader of rules goes from a group to its rules, in JSON, in the legacy notation and in messages; every group that it
goes into is one that the check of depth in front of it counts. So what passes the check is read with room for 1000
groups to be open at once, to the rule or the error that the reader gives. -/
theorem checked_read_in_room :
    (Policy.jsonForm.ReadBy Policy.ruleOfJson ∧ Policy.jsonForm.CoveredBy Policy.groupTree ∧
      ∀ v : Json, Policy.checkDepth Policy.groupTree v = .ok () →
        Policy.jsonForm.readIn 1000 v = some (Policy.ruleOfJson v)) ∧
    (LegacyPolicy.jsonForm.ReadBy LegacyPolicy.ruleOfJson ∧ LegacyPolicy.jsonForm.CoveredBy LegacyPolicy.groupTree ∧
      ∀ v : Json, Policy.checkDepth LegacyPolicy.groupTree v = .ok () →
        LegacyPolicy.jsonForm.readIn 1000 v = some (LegacyPolicy.ruleOfJson v)) ∧
    (Policy.messageForm.ReadBy Policy.ruleOfMessage ∧ Policy.messageForm.CoveredBy Policy.messageTree ∧
      ∀ m : Message.SignaturePolicy, Policy.messageTree.withinLimit 1000 [(m, 0)] = true →
        Policy.messageForm.readIn 1000 m = some (Policy.ruleOfMessage m)) := by
  refine ⟨⟨Policy.jsonForm_readBy, Policy.jsonForm_coveredBy, ?_⟩,
    ⟨LegacyPolicy.jsonForm_readBy, LegacyPolicy.jsonForm_coveredBy, ?_⟩,
    ⟨Policy.messageForm_readBy, Policy.messageForm_coveredBy, ?_⟩⟩
  · exact fun v h => Policy.jsonForm_readBy.readIn_eq Policy.jsonForm_coveredBy (withinLimit_of_checkDepth h)
  · exact fun v h => LegacyPolicy.jsonForm_readBy.readIn_eq LegacyPolicy.jsonForm_coveredBy (withinLimit_of_checkDepth h)
  · exact fun m h => Policy.messageForm_readBy.readIn_eq Policy.messageForm_coveredBy h

/-- Values with a group in a group, which need room for two, and errors in them or behind them. -/
theorem checked_read_in_room_malformed :
    let rule (inner : Json) : Json := .object [("n_out_of", .object [("n", Json.ofNat 0), ("rules", .array [inner, .null])])]
    let policy (inner : Json) : Json := .object [("7-of", .array [inner, .null])]
    let message : Message.SignaturePolicy := .nOutOf 1 [.nOutOf 0 [.signedBy (-1)], .unset]
    (Policy.jsonForm.readIn 1 (rule (rule .null)) = none ∧
      Policy.checkDepth Policy.groupTree (rule (rule .null)) = .ok () ∧
      Policy.jsonForm.readIn 1000 (rule (rule .null)) = some (Policy.ruleOfJson (rule (rule .null)))) ∧
    (LegacyPolicy.jsonForm.readIn 1 (policy (policy .null)) = none ∧
      Policy.checkDepth LegacyPolicy.groupTree (policy (policy .null)) = .ok () ∧
      LegacyPolicy.jsonForm.readIn 1000 (policy (policy .null)) =
        some (LegacyPolicy.ruleOfJson (policy (policy .null)))) ∧
    (Policy.messageForm.readIn 1 message = none ∧ Policy.messageTree.withinLimit 1000 [(message, 0)] = true ∧
      Policy.messageForm.readIn 1000 message = some (Policy.ruleOfMessage message)) := by
  intro rule policy message
  obtain ⟨⟨-, -, hjson⟩, ⟨-, -, hlegacy⟩, -, -, hmessage⟩ := checked_read_in_room
  have hrule : Policy.checkDepth Policy.groupTree (rule (rule .null)) = .ok () := if_pos (by decide +kernel)
  have hpolicy : Policy.checkDepth LegacyPolicy.groupTree (policy (policy .null)) = .ok () := if_pos (by decide +kernel)
  have hwithin : Policy.messageTree.withinLimit 1000 [(message, 0)] = true := by decide +kernel
  exact ⟨⟨rfl, hrule, hjson _ hrule⟩, ⟨rfl, hpolicy, hlegacy _ hpolicy⟩, ⟨rfl, hwithin, hmessage _ hwithin⟩⟩

end Fabric
