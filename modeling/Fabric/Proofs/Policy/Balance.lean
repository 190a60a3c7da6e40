import Fabric.Proofs.Policy.Overdeep

namespace Fabric.Compact

@[simp]
theorem surplus_closeParen : surplus [.closeParen] = -1 := rfl

/-- The check keeps the number of open parentheses, which stays within the limit. -/
theorem checkNesting_append {before after : List Token} {depth offset : Nat} (hdepth : depth ≤ Policy.maxDepth)
    (h : checkNesting depth offset (before ++ after) = .ok ()) :
    ∃ d ≤ Policy.maxDepth, (d : Int) = depth + surplus before ∧
      checkNesting d (offset + before.length) after = .ok () := by
  induction before generalizing depth offset with
  | nil => exact ⟨depth, hdepth, by simp [surplus], h⟩
  | cons t before ih =>
    -- the check goes on with the next token at a depth that takes the token into account
    have hstep : ∃ d ≤ Policy.maxDepth, (d : Int) = depth + surplus [t] ∧
        checkNesting d (offset + 1) (before ++ after) = .ok () := by
      rw [List.cons_append] at h
      cases t with
      | openParen =>
        rw [checkNesting] at h
        split at h
        · cases h
        · exact ⟨depth + 1, by omega, rfl, h⟩
      | closeParen =>
        cases depth with
        | zero => cases h
        | succ d =>
          refine ⟨d, by omega, ?_, h⟩
          rw [surplus_closeParen]
          omega
      | word s | quoted s | number s | comma => exact ⟨depth, hdepth, by simp [surplus], h⟩
    obtain ⟨d, hd, hsurplus, h⟩ := hstep
    obtain ⟨d', hd', hsurplus', h⟩ := ih hd h
    refine ⟨d', hd', ?_, ?_⟩
    · rw [surplus_cons t before, hsurplus', hsurplus, Int.add_assoc]
    · rwa [List.length_cons, Nat.add_comm before.length, ← Nat.add_assoc]

namespace Parser

@[simp]
theorem supply_groups_length (p : Parser) (r : Rule) : (p.supply r).groups.length = p.groups.length := by
  obtain ⟨stage, groups, identities, seen⟩ := p
  cases groups <;> rfl

theorem leaf_groups_length {p q : Parser} {s : String} (h : p.leaf s = .ok q) :
    q.groups.length = p.groups.length := by
  obtain ⟨x, -, h⟩ := bind_eq_ok_iff.1 h
  split at h
  all_goals
    cases h
    rw [supply_groups_length]

theorem readExpr_groups_length {p q : Parser} {t : Token} (h : p.readExpr t = .ok q) :
    (q.groups.length : Int) = p.groups.length + surplus [t] := by
  cases t with
  | word s =>
    cases h
    simp [surplus]
  | quoted s =>
    rw [readExpr] at h
    simp [leaf_groups_length h, surplus]
  | _ => cases h

theorem readNext_groups_length {p q : Parser} {t : Token} (h : p.readNext t = .ok q) :
    (q.groups.length : Int) = p.groups.length + surplus [t] := by
  obtain ⟨stage, groups, identities, seen⟩ := p
  cases groups with
  | nil => cases t <;> cases h
  | cons g outer =>
    cases t with
    | comma =>
      cases h
      simp [surplus]
    | closeParen =>
      obtain ⟨r, -, h⟩ := bind_eq_ok_iff.1 h
      cases h
      simp only [supply_groups_length, surplus_closeParen, List.length_cons]
      omega
    | _ => cases h

theorem openGroup_groups_length {p q : Parser} {s : String} (h : p.openGroup s = .ok q) :
    q.groups.length = p.groups.length + 1 := by
  rw [openGroup] at h
  split at h <;> cases h <;> rfl

theorem readCount_groups_length {p q : Parser} {t : Token} (h : p.readCount t = .ok q) :
    (q.groups.length : Int) = p.groups.length + surplus [t] := by
  cases t with
  | number s =>
    rw [readCount] at h
    split at h
    · cases h
      simp [surplus]
    · cases h
  | _ => cases h

/-- A token opens or closes a group of the reader if it is a parenthesis. -/
theorem step_groups_length {p q : Parser} {t : Token} (h : p.step t = .ok q) :
    (q.groups.length : Int) = p.groups.length + surplus [t] := by
  obtain ⟨stage, groups, identities, seen⟩ := p
  cases stage with
  | expr => exact readExpr_groups_length h
  | word s =>
    -- a parenthesis behind a word opens a group; any other token is read behind a principal
    by_cases ht : t = .openParen
    · subst ht
      exact congrArg Int.ofNat (openGroup_groups_length h)
    · rw [step_word_of_ne ⟨.word s, groups, identities, seen⟩ s ht, bind_eq_ok_iff] at h
      obtain ⟨p', hleaf, h⟩ := h
      rw [readNext_groups_length h, leaf_groups_length hleaf]
  | count => exact readCount_groups_length h
  | commaAfterCount =>
    cases t with
    | comma =>
      cases h
      simp [surplus]
    | _ => cases h
  | firstArg =>
    cases t with
    | closeParen => cases h
    | _ => exact readExpr_groups_length h
  | nextArg => exact readNext_groups_length h
  | finished r => cases h

/-- The groups that the reader has open are as many as the tokens have opened and not closed. -/
theorem run_groups_length {p q : Parser} {ts : List Token} (h : p.run ts = .ok q) :
    (q.groups.length : Int) = p.groups.length + surplus ts := by
  induction ts generalizing p with
  | nil =>
    cases h
    simp [surplus]
  | cons t ts ih =>
    rw [run_cons, bind_eq_ok_iff] at h
    obtain ⟨p', hstep, h⟩ := h
    rw [ih h, step_groups_length hstep, surplus_cons t ts, Int.add_assoc]

/-- Wherever the reader stands in tokens that pass the check, the check goes on with the number of its groups. -/
theorem checkNesting_of_run {before after : List Token} {p : Parser}
    (hcheck : checkNesting 0 0 (before ++ after) = .ok ()) (hrun : start.run before = .ok p) :
    p.groups.length ≤ Policy.maxDepth ∧ checkNesting p.groups.length before.length after = .ok () := by
  obtain ⟨d, hd, hsurplus, hafter⟩ := checkNesting_append (Nat.zero_le _) hcheck
  have hgroups : (p.groups.length : Int) = (0 : Nat) + surplus before := run_groups_length hrun
  obtain rfl : d = p.groups.length := Int.ofNat_inj.1 (hsurplus.trans hgroups.symm)
  rw [Nat.zero_add] at hafter
  exact ⟨hd, hafter⟩

end Parser

end Fabric.Compact
