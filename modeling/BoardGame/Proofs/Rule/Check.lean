import BoardGame.Rule.Basic
import BoardGame.Proofs.Guard.Table

/-!
When a rule is valid. Whatever the rule, it must be made for the event's type, its own guard must accept
the event, and then it comes down to its children: all of them must be valid, or one of them.
-/

namespace BoardGame

theorem Verdict.not_isInvalid_of_isValid {v : Verdict} (h : v.isValid = true) :
    v.isInvalid = false := by
  have ho : v.outcome = .valid := of_decide_eq_true h
  rw [isInvalid, ho]
  rfl

namespace RuleHead

variable {h : RuleHead} {c : Setting} {s : Snapshot} {e : Event}

/-- The guard accepts the event, whatever the rule's type and children. -/
def Permits (h : RuleHead) (c : Setting) (s : Snapshot) (e : Event) : Prop :=
  (EventGuard.ask c s e h.guard).value.isValid = true

theorem admits_iff : h.admits e = true ↔ ∀ type ∈ h.type, e.type = type := by
  rw [admits]
  cases h.type <;> simp

theorem admits_eq_false_iff : h.admits e = false ↔ ∃ type, h.type = some type ∧ e.type ≠ type := by
  rw [admits]
  cases h.type <;> simp

theorem value_check_of_not_admits (hadmits : h.admits e = false) (body : Option (Asked String)) :
    (h.check c s e body).value = .ignore := by
  rw [check, hadmits]
  rfl

theorem isValid_check_simple_iff :
    (h.check c s e none).value.isValid = true ↔ h.admits e = true ∧ h.Permits c s e := by
  cases hadmits : h.admits e with
  | false =>
    rw [value_check_of_not_admits hadmits]
    simp [Verdict.isValid, Verdict.ignore, Verdict.ofOutcome]
  | true =>
    rw [check, hadmits, if_pos rfl, Noted.value_bind, Permits]
    split <;> simp

/-- A guard that rejects ends the check; any other is weighed together with the children. -/
theorem isValid_check_composite_iff {ask : Asked String} :
    (h.check c s e (some ask)).value.isValid = true ↔
      h.admits e = true ∧ h.Permits c s e ∧ (ask ()).value.isValid = true := by
  cases hadmits : h.admits e with
  | false =>
    rw [value_check_of_not_admits hadmits]
    simp [Verdict.isValid, Verdict.ignore, Verdict.ofOutcome]
  | true =>
    rw [check, hadmits, if_pos rfl, Noted.value_bind, Permits]
    cases hinvalid : (EventGuard.ask c s e h.guard).value.isInvalid with
    | true =>
      have hguard : (EventGuard.ask c s e h.guard).value.isValid ≠ true := by
        intro hvalid
        rw [Verdict.not_isInvalid_of_isValid hvalid] at hinvalid
        cases hinvalid
      simp [hguard]
    | false =>
      simp only [Bool.false_eq_true, if_false, Noted.value_bind, Noted.value_pure,
        Verdict.isValid_all_iff]
      simp

end RuleHead

namespace Rule

/-- What holds of every simple rule, and of rules over children of which it holds, holds of every rule. -/
@[elab_as_elim, induction_eliminator]
theorem childInduction {motive : Rule → Prop}
    (simple : ∀ head effects, motive (.simple head effects))
    (all : ∀ head children, (∀ r ∈ children, motive r) → motive (.all head children))
    (any : ∀ head children, (∀ r ∈ children, motive r) → motive (.any head children)) :
    ∀ r, motive r
  | .simple head effects => simple head effects
  | .all head children => all head children fun r _ => childInduction simple all any r
  | .any head children => any head children fun r _ => childInduction simple all any r

variable {c : Setting} {s : Snapshot} {e : Event} {head : RuleHead} {effects : List Effect}
  {children : List Rule} {r : Rule}

theorem checks_eq_map (children : List Rule) :
    checks c s e children = children.map fun r _ => check c s e r := by
  induction children with
  | nil => rfl
  | cons r rest ih => rw [checks, ih, List.map_cons]

theorem answers_checks (children : List Rule) :
    Asked.answers (checks c s e children) = children.map fun r => (check c s e r).value := by
  rw [checks_eq_map, Asked.answers, List.map_map]
  rfl

theorem value_check_of_not_admits (hadmits : r.head.admits e = false) :
    (check c s e r).value = .ignore := by
  cases r with
  | simple head effects => exact RuleHead.value_check_of_not_admits hadmits _
  | all head children => exact RuleHead.value_check_of_not_admits hadmits _
  | any head children => exact RuleHead.value_check_of_not_admits hadmits _

theorem isValid_check_simple :
    (check c s e (.simple head effects)).value.isValid = true ↔
      head.admits e = true ∧ head.Permits c s e := RuleHead.isValid_check_simple_iff

theorem isValid_check_all :
    (check c s e (.all head children)).value.isValid = true ↔
      head.admits e = true ∧ head.Permits c s e ∧
        ∀ r ∈ children, (check c s e r).value.isValid = true := by
  have hbody : (Asked.all none (checks c s e children)).value =
      Verdict.all (children.map fun r => (check c s e r).value) := by
    rw [Asked.value_all, answers_checks]
    rfl
  rw [check, RuleHead.isValid_check_composite_iff, hbody, Verdict.isValid_all_iff,
    List.forall_mem_map]

theorem isValid_check_any :
    (check c s e (.any head children)).value.isValid = true ↔
      head.admits e = true ∧ head.Permits c s e ∧
        ∃ r ∈ children, (check c s e r).value.isValid = true := by
  have hbody : (Asked.any none none (checks c s e children)).value =
      Verdict.any (children.map fun r => (check c s e r).value) := by
    rw [Asked.value_any, answers_checks]
    rfl
  rw [check, RuleHead.isValid_check_composite_iff, hbody, Verdict.isValid_any_iff]
  simp only [List.mem_map, exists_exists_and_eq_and]

end Rule

end BoardGame
