import BoardGame.Proofs.Guard.Settled
import Mathlib.Data.List.Basic

/-!
The table of three-valued outcomes, said without an order of asking. Under `all` one rejection decides and
acceptance must be unanimous; under `any` one acceptance decides, and a rejection outweighs having no
opinion; under `none` nothing counts but whether there is an acceptance. The verdict of a list is the first
in it that has the outcome of the table, so the reason it gives is that verdict's own.
-/

namespace BoardGame

namespace Outcome

def allOf (l : List Outcome) : Outcome :=
  if .invalid ∈ l then .invalid else if ∀ o ∈ l, o = .valid then .valid else .ignore

def anyOf (l : List Outcome) : Outcome :=
  if .valid ∈ l then .valid else if .invalid ∈ l then .invalid else .ignore

def noneOf (l : List Outcome) : Outcome := if .valid ∈ l then .invalid else .valid

end Outcome

namespace Verdict

/-- The first among some verdicts with the outcome that it has. -/
def FirstOf (vs : List Verdict) (v : Verdict) : Prop :=
  vs.find? (fun w => w.outcome = v.outcome) = some v

variable {vs : List Verdict} {v : Verdict} {o : Outcome}

theorem firstOf_of_find? (h : vs.find? (fun w => w.outcome = o) = some v) : FirstOf vs v := by
  have ho : v.outcome = o := by simpa using List.find?_some h
  rw [FirstOf, ho]
  exact h

theorem mem_outcomes_of_find? (h : vs.find? (fun w => w.outcome = o) = some v) :
    o ∈ vs.map outcome := by
  have ho : v.outcome = o := by simpa using List.find?_some h
  exact List.mem_map.mpr ⟨v, List.mem_of_find?_eq_some h, ho⟩

theorem not_mem_outcomes_of_find? (h : vs.find? (fun w => w.outcome = o) = Option.none) :
    o ∉ vs.map outcome := by
  intro hmem
  obtain ⟨w, hw, hwo⟩ := List.mem_map.mp hmem
  have hne := List.find?_eq_none.mp h w hw
  simp [hwo] at hne

/-! ### All -/

theorem allFrom_eq (kept : Option Verdict) (vs : List Verdict) :
    allFrom kept vs =
      (vs.find? (fun w => w.outcome = .invalid) <|> kept <|>
        vs.find? (fun w => w.outcome = .ignore)).getD valid := by
  induction vs generalizing kept with
  | nil => cases kept <;> rfl
  | cons v rest ih =>
    cases hv : v.outcome with
    | invalid => simp [allFrom, hv]
    | ignore => cases kept <;> simp [allFrom, hv, ih, keepFirst]
    | valid => simp [allFrom, hv, ih]

theorem all_cases (vs : List Verdict) :
    (FirstOf vs (all vs) ∧ (all vs).outcome = .invalid ∧ .invalid ∈ vs.map outcome) ∨
    (FirstOf vs (all vs) ∧ (all vs).outcome = .ignore ∧ .invalid ∉ vs.map outcome ∧
      .ignore ∈ vs.map outcome) ∨
    (all vs = valid ∧ .invalid ∉ vs.map outcome ∧ .ignore ∉ vs.map outcome) := by
  rw [all, allFrom_eq]
  cases hinvalid : vs.find? (fun w => w.outcome = .invalid) with
  | some v =>
    have hv : v.outcome = .invalid := by simpa using List.find?_some hinvalid
    exact Or.inl ⟨firstOf_of_find? hinvalid, hv, mem_outcomes_of_find? hinvalid⟩
  | none =>
    have hout := not_mem_outcomes_of_find? hinvalid
    cases hignore : vs.find? (fun w => w.outcome = .ignore) with
    | some v =>
      have hv : v.outcome = .ignore := by simpa using List.find?_some hignore
      exact Or.inr (Or.inl ⟨firstOf_of_find? hignore, hv, hout, mem_outcomes_of_find? hignore⟩)
    | none => exact Or.inr (Or.inr ⟨rfl, hout, not_mem_outcomes_of_find? hignore⟩)

theorem outcome_all (vs : List Verdict) : (all vs).outcome = Outcome.allOf (vs.map outcome) := by
  rcases all_cases vs with ⟨-, ho, hin⟩ | ⟨-, ho, hout, hin⟩ | ⟨hvalid, hout, hout'⟩
  · rw [ho, Outcome.allOf, if_pos hin]
  · have hsome : ¬∀ o ∈ vs.map outcome, o = .valid := by
      intro hall
      cases hall _ hin
    rw [ho, Outcome.allOf, if_neg hout, if_neg hsome]
  · have hall : ∀ o ∈ vs.map outcome, o = .valid := by
      intro o ho
      cases o with
      | valid => rfl
      | invalid => exact absurd ho hout
      | ignore => exact absurd ho hout'
    rw [hvalid, Outcome.allOf, if_neg hout, if_pos hall]
    rfl

theorem isValid_all_iff : (all vs).isValid = true ↔ ∀ v ∈ vs, v.isValid = true := by
  simp only [isValid, decide_eq_true_eq]
  rw [outcome_all, Outcome.allOf]
  split
  · rename_i hinvalid
    obtain ⟨v, hv, ho⟩ := List.mem_map.mp hinvalid
    refine ⟨fun h => absurd h (by decide), fun h => ?_⟩
    rw [h v hv] at ho
    cases ho
  · split
    · rename_i hall
      exact ⟨fun _ v hv => hall _ (List.mem_map_of_mem hv), fun _ => rfl⟩
    · rename_i hall
      refine ⟨fun h => absurd h (by decide), fun h => absurd (fun o ho => ?_) hall⟩
      obtain ⟨v, hv, rfl⟩ := List.mem_map.mp ho
      exact h v hv

theorem all_eq_valid (h : (all vs).outcome = .valid) : all vs = valid := by
  rcases all_cases vs with ⟨-, ho, -⟩ | ⟨-, ho, -⟩ | ⟨hvalid, -⟩
  · rw [ho] at h
    cases h
  · rw [ho] at h
    cases h
  · exact hvalid

theorem firstOf_all (h : (all vs).outcome ≠ .valid) : FirstOf vs (all vs) := by
  rcases all_cases vs with ⟨hfirst, -⟩ | ⟨hfirst, -⟩ | ⟨hvalid, -⟩
  · exact hfirst
  · exact hfirst
  · rw [hvalid] at h
    exact absurd rfl h

/-! ### Any -/

theorem anyFrom_eq (rejected ignored : Option Verdict) (vs : List Verdict) :
    anyFrom rejected ignored vs =
      (vs.find? (fun w => w.outcome = .valid) <|> rejected <|>
        vs.find? (fun w => w.outcome = .invalid) <|> ignored <|>
        vs.find? (fun w => w.outcome = .ignore)).getD ignore := by
  induction vs generalizing rejected ignored with
  | nil => cases rejected <;> cases ignored <;> rfl
  | cons v rest ih =>
    cases hv : v.outcome with
    | valid => simp [anyFrom, hv]
    | invalid => cases rejected <;> simp [anyFrom, hv, ih, keepFirst]
    | ignore => cases ignored <;> simp [anyFrom, hv, ih, keepFirst]

theorem any_cases (vs : List Verdict) :
    (FirstOf vs (any vs) ∧ (any vs).outcome = .valid ∧ .valid ∈ vs.map outcome) ∨
    (FirstOf vs (any vs) ∧ (any vs).outcome = .invalid ∧ .valid ∉ vs.map outcome ∧
      .invalid ∈ vs.map outcome) ∨
    (any vs).outcome = .ignore ∧ .valid ∉ vs.map outcome ∧ .invalid ∉ vs.map outcome ∧
      (vs ≠ [] → FirstOf vs (any vs)) := by
  rw [any, anyFrom_eq]
  cases hvalid : vs.find? (fun w => w.outcome = .valid) with
  | some v =>
    have hv : v.outcome = .valid := by simpa using List.find?_some hvalid
    exact Or.inl ⟨firstOf_of_find? hvalid, hv, mem_outcomes_of_find? hvalid⟩
  | none =>
    have hout := not_mem_outcomes_of_find? hvalid
    cases hinvalid : vs.find? (fun w => w.outcome = .invalid) with
    | some v =>
      have hv : v.outcome = .invalid := by simpa using List.find?_some hinvalid
      exact Or.inr (Or.inl ⟨firstOf_of_find? hinvalid, hv, hout, mem_outcomes_of_find? hinvalid⟩)
    | none =>
      have hout' := not_mem_outcomes_of_find? hinvalid
      refine Or.inr (Or.inr ?_)
      cases hignore : vs.find? (fun w => w.outcome = .ignore) with
      | some v =>
        have hv : v.outcome = .ignore := by simpa using List.find?_some hignore
        exact ⟨hv, hout, hout', fun _ => firstOf_of_find? hignore⟩
      | none =>
        -- nothing is left that a verdict of the list could be
        refine ⟨rfl, hout, hout', fun hne => ?_⟩
        obtain ⟨v, hv⟩ := List.exists_mem_of_ne_nil vs hne
        have hmem : v.outcome ∈ vs.map outcome := List.mem_map_of_mem hv
        cases ho : v.outcome with
        | valid => exact absurd (ho ▸ hmem) hout
        | invalid => exact absurd (ho ▸ hmem) hout'
        | ignore => exact absurd (ho ▸ hmem) (not_mem_outcomes_of_find? hignore)

theorem outcome_any (vs : List Verdict) : (any vs).outcome = Outcome.anyOf (vs.map outcome) := by
  rcases any_cases vs with ⟨-, ho, hin⟩ | ⟨-, ho, hout, hin⟩ | ⟨ho, hout, hout', -⟩
  · rw [ho, Outcome.anyOf, if_pos hin]
  · rw [ho, Outcome.anyOf, if_neg hout, if_pos hin]
  · rw [ho, Outcome.anyOf, if_neg hout, if_neg hout']

theorem isValid_any_iff : (any vs).isValid = true ↔ ∃ v ∈ vs, v.isValid = true := by
  simp only [isValid, decide_eq_true_eq]
  rw [outcome_any, Outcome.anyOf, ← List.mem_map]
  split
  · rename_i hvalid
    exact ⟨fun _ => hvalid, fun _ => rfl⟩
  · rename_i hvalid
    refine ⟨fun h => ?_, fun h => absurd h hvalid⟩
    split at h <;> cases h

theorem firstOf_any (h : vs ≠ []) : FirstOf vs (any vs) := by
  rcases any_cases vs with ⟨hfirst, -⟩ | ⟨hfirst, -⟩ | ⟨-, -, -, hfirst⟩
  · exact hfirst
  · exact hfirst
  · exact hfirst h

/-! ### None -/

theorem none_eq (vs : List Verdict) :
    none vs = if .valid ∈ vs.map outcome then negated else valid := by
  induction vs with
  | nil => rfl
  | cons v rest ih =>
    cases hv : v.outcome <;> simp [none, isValid, hv, ih]

theorem outcome_none_eq (vs : List Verdict) :
    (none vs).outcome = Outcome.noneOf (vs.map outcome) := by
  rw [none_eq, Outcome.noneOf]
  by_cases hvalid : .valid ∈ vs.map outcome
  · rw [if_pos hvalid, if_pos hvalid]
    rfl
  · rw [if_neg hvalid, if_neg hvalid]
    rfl

end Verdict

namespace Guard

variable {α ν : Type} {judge : α → Noted ν Verdict}

/-- What holds of every test, and of guards over children of which it holds, holds of every guard. -/
@[elab_as_elim, induction_eliminator]
theorem childInduction {motive : Guard α → Prop} (test : ∀ a, motive (.test a))
    (all : ∀ children, (∀ g ∈ children, motive g) → motive (.all children))
    (any : ∀ children, (∀ g ∈ children, motive g) → motive (.any children))
    (none : ∀ children, (∀ g ∈ children, motive g) → motive (.none children)) :
    ∀ g, motive g
  | .test a => test a
  | .all children => all children fun g _ => childInduction test all any none g
  | .any children => any children fun g _ => childInduction test all any none g
  | .none children => none children fun g _ => childInduction test all any none g

theorem asks_eq_map (children : List (Guard α)) :
    asks judge children = children.map fun g _ => run judge g := by
  induction children with
  | nil => rfl
  | cons g rest ih => rw [asks, ih, List.map_cons]

theorem answers_asks (children : List (Guard α)) :
    Asked.answers (asks judge children) = children.map fun g => (run judge g).value := by
  rw [asks_eq_map, Asked.answers, List.map_map]
  rfl

theorem value_run_all (children : List (Guard α)) :
    (run judge (.all children)).value = Verdict.all (children.map fun g => (run judge g).value) := by
  rw [run, Asked.value_all, answers_asks]
  rfl

theorem value_run_any (children : List (Guard α)) :
    (run judge (.any children)).value = Verdict.any (children.map fun g => (run judge g).value) := by
  rw [run, Asked.value_any, answers_asks]
  rfl

theorem value_run_none (children : List (Guard α)) :
    (run judge (.none children)).value =
      Verdict.none (children.map fun g => (run judge g).value) := by
  rw [run, Asked.value_none, answers_asks]

mutual

/-- The outcome of a guard by the table, given those of its tests. -/
def outcome (respond : α → Outcome) : Guard α → Outcome
  | .test a => respond a
  | .all children => Outcome.allOf (outcomes respond children)
  | .any children => Outcome.anyOf (outcomes respond children)
  | .none children => Outcome.noneOf (outcomes respond children)

def outcomes (respond : α → Outcome) : List (Guard α) → List Outcome
  | [] => []
  | g :: rest => outcome respond g :: outcomes respond rest

end

theorem outcomes_eq_map (respond : α → Outcome) (children : List (Guard α)) :
    outcomes respond children = children.map (outcome respond) := by
  induction children with
  | nil => rfl
  | cons g rest ih => rw [outcomes, ih, List.map_cons]

theorem outcome_run (g : Guard α) :
    (run judge g).value.outcome = g.outcome fun a => (judge a).value.outcome := by
  -- the table sees of the children what running them gives
  have htable (children : List (Guard α))
      (ih : ∀ g ∈ children, (run judge g).value.outcome = g.outcome fun a => (judge a).value.outcome) :
      (children.map fun g => (run judge g).value).map Verdict.outcome =
        outcomes (fun a => (judge a).value.outcome) children := by
    rw [outcomes_eq_map, List.map_map]
    exact List.map_congr_left ih
  induction g with
  | test a => rfl
  | all children ih => rw [value_run_all, Verdict.outcome_all, htable children ih, outcome]
  | any children ih => rw [value_run_any, Verdict.outcome_any, htable children ih, outcome]
  | none children ih => rw [value_run_none, Verdict.outcome_none_eq, htable children ih, outcome]

end Guard

end BoardGame
