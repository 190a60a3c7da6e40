import Fabric.Policy.Principal
import Fabric.Proofs.Traverse

namespace Fabric

theorem toUpper_of_toList {s t : String} (h : s.toList.map Char.toUpper = t.toList) : s.toUpper = t := by
  rw [String.toUpper, String.map_eq_internal, h, String.ofList_toList]

theorem Role.parse_eq_ok_iff {s : String} {r : Role} : Role.parse s = .ok r ↔ s.toUpper = r.name := by
  constructor
  · intro h
    rw [parse] at h
    split at h <;> first | cases h; assumption | cases h
  · intro h
    rw [parse, h]
    cases r <;> rfl

@[simp]
theorem Role.toUpper_name (r : Role) : r.name.toUpper = r.name :=
  toUpper_of_toList (by cases r <;> decide)

theorem Role.dot_notMem_name (r : Role) : '.' ∉ r.name.toList := by
  cases r <;> decide

namespace Principal

/-- The text is the principal's organisation, which is not empty, and its role in any letter case, with
the last dot of the text between them. -/
def NamedBy (x : Principal) (s : String) : Prop :=
  x.mspId ≠ "" ∧ ∃ role : String, s = x.mspId ++ "." ++ role ∧ '.' ∉ role.toList ∧ role.toUpper = x.role.name

/-- A text is split at its last dot, and at no other. -/
theorem splitLastDot?_eq_some_iff {cs before after : List Char} :
    splitLastDot? cs = some (before, after) ↔ cs = before ++ '.' :: after ∧ '.' ∉ after := by
  constructor
  · intro h
    obtain ⟨hafter, hdot⟩ := span_ends (· != '.') cs.reverse
    have hsplit := List.takeWhile_append_dropWhile (p := (· != '.')) (l := cs.reverse)
    rw [splitLastDot?] at h
    split at h
    · cases h
    · next d rest hd =>
      cases h
      have hd' : d = '.' := by simpa using hdot d (by rw [hd]; rfl)
      refine ⟨?_, fun hmem => by simpa using hafter _ (List.mem_reverse.1 hmem)⟩
      rw [hd, hd'] at hsplit
      simpa using congrArg List.reverse hsplit.symm
  · intro h
    obtain ⟨rfl, hdot⟩ := h
    -- from the end of the text, the last dot is the first
    have hrun : ∀ c ∈ after.reverse, (c != '.') = true := by
      intro c hc
      rw [bne_iff_ne]
      intro heq
      exact hdot (heq ▸ List.mem_reverse.1 hc)
    have hstop : ∀ c, ('.' :: before.reverse).head? = some c → (c != '.') = false := by simp
    have hspan := span_append hrun hstop
    have hrev : (before ++ '.' :: after).reverse = after.reverse ++ '.' :: before.reverse := by simp
    rw [splitLastDot?, hrev, hspan.1, hspan.2]
    simp

/-- A text is read as the principal that it names. -/
theorem parse_eq_ok_iff {s : String} {x : Principal} : Principal.parse s = .ok x ↔ x.NamedBy s := by
  constructor
  · intro h
    rw [Principal.parse] at h
    split at h
    · cases h
    · next mspId role hsplit =>
      obtain ⟨hs, hdot⟩ := splitLastDot?_eq_some_iff.1 hsplit
      split at h
      · cases h
      · next hne =>
        cases hr : Role.parse (String.ofList role) with
        | error e => simp [hr, Except.map] at h
        | ok r =>
          simp only [hr, Except.map, Except.ok.injEq] at h
          subst h
          have hid : String.ofList mspId ≠ "" := by simpa using (not_or.1 hne).1
          refine ⟨hid, String.ofList role, ?_, by simpa using hdot, Role.parse_eq_ok_iff.1 hr⟩
          rw [← String.toList_inj, hs]
          simp
  · intro h
    obtain ⟨hid, role, rfl, hdot, hrole⟩ := h
    -- no role is written with no letters
    have hempty : role ≠ "" := by
      intro heq
      subst heq
      rw [String.toUpper, String.map_eq_empty.2 rfl] at hrole
      exact absurd hrole (by cases x.role <;> decide)
    have hsplit : splitLastDot? (x.mspId ++ "." ++ role).toList = some (x.mspId.toList, role.toList) :=
      splitLastDot?_eq_some_iff.2 ⟨by simp, hdot⟩
    rw [Principal.parse, hsplit]
    simp [hid, hempty, Role.parse_eq_ok_iff.2 hrole, Except.map]

theorem namedBy_key {x : Principal} (h : x.mspId ≠ "") : x.NamedBy x.key :=
  ⟨h, x.role.name, rfl, x.role.dot_notMem_name, x.role.toUpper_name⟩

/-- A quote in the text of a principal is one in the id of its organisation. -/
theorem quote_mem_key {x : Principal} {c : Char} (hc : c = '\'' ∨ c = '"') :
    c ∈ x.key.toList ↔ c ∈ x.mspId.toList := by
  have hrole : c ∉ x.role.name.toList := by
    rcases hc with rfl | rfl <;> cases x.role <;> decide
  have hdot : c ≠ '.' := by
    rcases hc with rfl | rfl <;> decide
  simp [key, hrole, hdot]

/-- A text that names a principal holds the id of its organisation. -/
theorem NamedBy.mem_toList {x : Principal} {s : String} (h : x.NamedBy s) {c : Char} (hc : c ∈ x.mspId.toList) :
    c ∈ s.toList := by
  obtain ⟨-, role, rfl, -⟩ := h
  simp [hc]

/-- The text of a principal without an organisation names none. -/
theorem NamedBy.ne_empty {x y : Principal} (h : y.NamedBy x.key) : x.mspId ≠ "" := by
  obtain ⟨hy, role, hkey, hdot, -⟩ := h
  have hxkey : x.key.toList = x.mspId.toList ++ '.' :: x.role.name.toList := by simp [key]
  have hykey : x.key.toList = y.mspId.toList ++ '.' :: role.toList := by simp [hkey]
  have hx := splitLastDot?_eq_some_iff.2 ⟨hxkey, x.role.dot_notMem_name⟩
  have hy' := splitLastDot?_eq_some_iff.2 ⟨hykey, hdot⟩
  have heq : x.mspId = y.mspId := by
    rw [hx] at hy'
    exact String.toList_inj.1 (Prod.mk.inj (Option.some.inj hy')).1
  exact heq ▸ hy

end Principal

end Fabric
