import BoardGame.Guard.StateTest

/-!
Settled guards. Asking from left to right and stopping early gives the verdict that all answers together
have, and its outcome depends on nothing but their outcomes. So a guard whose tests give the outcomes that
they declare gives the outcome that it is settled on, and need not be asked for it.
-/

namespace BoardGame

namespace Verdict

/-- Two verdicts kept so far that agree, or none on either side. -/
def Alike (kept kept' : Option Verdict) : Prop := kept.map outcome = kept'.map outcome

variable {v w : Verdict} {vs ws : List Verdict} {kept kept' rejected rejected' ignored ignored' :
  Option Verdict}

theorem Alike.keepFirst (h : Alike kept kept') (hv : v.outcome = w.outcome) :
    Alike (keepFirst kept v) (keepFirst kept' w) := by
  cases kept with
  | none =>
    cases kept' with
    | none => simpa [Alike, Verdict.keepFirst] using hv
    | some _ => cases h
  | some _ =>
    cases kept' with
    | none => cases h
    | some _ => exact h

theorem Alike.getD (h : Alike kept kept') (hv : v.outcome = w.outcome) :
    (kept.getD v).outcome = (kept'.getD w).outcome := by
  have hboth := congrArg (Option.getD · v.outcome) h
  rw [Option.getD_map, hv, Option.getD_map] at hboth
  exact hboth

theorem Alike.orElse (h : Alike rejected rejected') (h' : Alike ignored ignored') :
    Alike (rejected <|> ignored) (rejected' <|> ignored') := by
  cases rejected with
  | none =>
    cases rejected' with
    | none => exact h'
    | some _ => cases h
  | some _ =>
    cases rejected' with
    | none => cases h
    | some _ => exact h

theorem outcome_allFrom (hkept : Alike kept kept') (h : vs.map outcome = ws.map outcome) :
    (allFrom kept vs).outcome = (allFrom kept' ws).outcome := by
  induction vs generalizing ws kept kept' with
  | nil =>
    obtain rfl := List.map_eq_nil_iff.mp h.symm
    exact hkept.getD rfl
  | cons v rest ih =>
    obtain ⟨w, others, rfl, hw, hrest⟩ := List.map_eq_cons_iff.mp h.symm
    rw [allFrom, allFrom, hw]
    cases hv : v.outcome with
    | invalid => exact hv.trans (hw.trans hv).symm
    | ignore => exact ih (hkept.keepFirst hw.symm) hrest.symm
    | valid => exact ih hkept hrest.symm

theorem outcome_anyFrom (hrejected : Alike rejected rejected') (hignored : Alike ignored ignored')
    (h : vs.map outcome = ws.map outcome) :
    (anyFrom rejected ignored vs).outcome = (anyFrom rejected' ignored' ws).outcome := by
  induction vs generalizing ws rejected rejected' ignored ignored' with
  | nil =>
    obtain rfl := List.map_eq_nil_iff.mp h.symm
    exact (hrejected.orElse hignored).getD rfl
  | cons v rest ih =>
    obtain ⟨w, others, rfl, hw, hrest⟩ := List.map_eq_cons_iff.mp h.symm
    rw [anyFrom, anyFrom, hw]
    cases hv : v.outcome with
    | valid => exact hv.trans (hw.trans hv).symm
    | invalid => exact ih (hrejected.keepFirst hw.symm) hignored hrest.symm
    | ignore => exact ih hrejected (hignored.keepFirst hw.symm) hrest.symm

theorem outcome_none (h : vs.map outcome = ws.map outcome) :
    (none vs).outcome = (none ws).outcome := by
  induction vs generalizing ws with
  | nil =>
    obtain rfl := List.map_eq_nil_iff.mp h.symm
    rfl
  | cons v rest ih =>
    obtain ⟨w, others, rfl, hw, hrest⟩ := List.map_eq_cons_iff.mp h.symm
    have hvalid : v.isValid = w.isValid := by rw [isValid, isValid, hw]
    rw [none, none, hvalid]
    by_cases hw' : w.isValid = true
    · rw [if_pos hw', if_pos hw']
    · rw [if_neg hw', if_neg hw']
      exact ih hrest.symm

end Verdict

namespace Asked

variable {ν : Type} {l : List (Asked ν)}

/-- The answers, had all been asked. -/
def answers (l : List (Asked ν)) : List Verdict := l.map fun ask => (ask ()).value

theorem value_all {kept : Option Verdict} :
    (all kept l).value = Verdict.allFrom kept (answers l) := by
  induction l generalizing kept with
  | nil => rfl
  | cons ask rest ih =>
    rw [all, Noted.value_bind, answers, List.map_cons, Verdict.allFrom]
    cases (ask ()).value.outcome with
    | invalid => rfl
    | ignore => exact ih
    | valid => exact ih

theorem value_any {rejected ignored : Option Verdict} :
    (any rejected ignored l).value = Verdict.anyFrom rejected ignored (answers l) := by
  induction l generalizing rejected ignored with
  | nil => rfl
  | cons ask rest ih =>
    rw [any, Noted.value_bind, answers, List.map_cons, Verdict.anyFrom]
    cases (ask ()).value.outcome with
    | valid => rfl
    | invalid => exact ih
    | ignore => exact ih

theorem value_none : (none l).value = Verdict.none (answers l) := by
  induction l with
  | nil => rfl
  | cons ask rest ih =>
    rw [none, Noted.value_bind, answers, List.map_cons, Verdict.none]
    by_cases hv : (ask ()).value.isValid = true
    · rw [if_pos hv, if_pos hv]
      rfl
    · rw [if_neg hv, if_neg hv]
      exact ih

end Asked

namespace Guard

variable {α ν : Type} {declared : α → Option Outcome} {judge : α → Noted ν Verdict}

mutual

def tests : Guard α → List α
  | .test a => [a]
  | .all children | .any children | .none children => testsOf children

def testsOf : List (Guard α) → List α
  | [] => []
  | g :: rest => tests g ++ testsOf rest

end

/-- Tests that give the outcomes that they declare. -/
def Keep (declared : α → Option Outcome) (judge : α → Noted ν Verdict) (l : List α) : Prop :=
  ∀ a ∈ l, ∀ o, declared a = some o → (judge a).value.outcome = o

mutual

/-- A guard whose tests give the outcomes that they declare gives the outcome that it is settled on. -/
theorem outcome_of_settled? : (g : Guard α) → ∀ {o : Outcome}, g.settled? declared = some o →
    Keep declared judge g.tests → (run judge g).value.outcome = o
  | .test a, o, h, hkeep => hkeep a (List.mem_singleton.mpr rfl) o h
  | .all children, o, h, hkeep => by
    obtain ⟨vs, hvs, rfl⟩ := Option.map_eq_some_iff.mp h
    rw [run, Asked.value_all]
    exact Verdict.outcome_allFrom rfl (outcomes_of_settledEach? children hvs hkeep)
  | .any children, o, h, hkeep => by
    obtain ⟨vs, hvs, rfl⟩ := Option.map_eq_some_iff.mp h
    rw [run, Asked.value_any]
    exact Verdict.outcome_anyFrom rfl rfl (outcomes_of_settledEach? children hvs hkeep)
  | .none children, o, h, hkeep => by
    obtain ⟨vs, hvs, rfl⟩ := Option.map_eq_some_iff.mp h
    rw [run, Asked.value_none]
    exact Verdict.outcome_none (outcomes_of_settledEach? children hvs hkeep)

theorem outcomes_of_settledEach? : (children : List (Guard α)) → ∀ {vs : List Verdict},
    settledEach? declared children = some vs → Keep declared judge (testsOf children) →
    (Asked.answers (asks judge children)).map Verdict.outcome = vs.map Verdict.outcome
  | [], vs, h, _ => by
    obtain rfl := Option.some.inj h
    rfl
  | g :: rest, vs, h, hkeep => by
    simp only [settledEach?, Option.bind_eq_bind, Option.bind_eq_some_iff, pure,
      Option.some.injEq] at h
    obtain ⟨o, ho, others, hothers, rfl⟩ := h
    have hfirst := outcome_of_settled? g ho fun a ha =>
      hkeep a (List.mem_append_left _ ha)
    have hrest := outcomes_of_settledEach? rest hothers fun a ha =>
      hkeep a (List.mem_append_right _ ha)
    rw [asks, Asked.answers, List.map_cons, List.map_cons, List.map_cons, hfirst]
    exact congrArg (o :: ·) hrest

end

end Guard

namespace StateTest

/-- A test keeps to the outcome that it declares, whatever snapshot it is asked about. -/
def KeepsDeclared (t : StateTest) : Prop :=
  ∀ c s o, t.declared = some o → (t.judge c s).outcome = o

theorem keepsDeclared_of_builtin {t : StateTest} (h : ∀ u, t ≠ .custom u) : t.KeepsDeclared := by
  intro c s o ho
  cases t with
  | always | never | abstain =>
    cases ho
    rfl
  | activePlayerIs | hasStatus => cases ho
  | custom u => exact absurd rfl (h u)

end StateTest

namespace StateGuard

theorem isValid_of_isAlwaysValid {g : StateGuard} (h : isAlwaysValid g = true)
    (htests : ∀ t ∈ g.tests, t.KeepsDeclared) (c : Setting) (s : Snapshot) :
    (ask c s g).value.isValid = true := by
  have hsettled : Guard.settled? StateTest.declared g = some .valid := of_decide_eq_true h
  have hkeep : Guard.Keep StateTest.declared (StateTest.ask c s) g.tests :=
    fun t ht o ho => htests t ht c s o ho
  have houtcome := Guard.outcome_of_settled? g hsettled hkeep
  exact decide_eq_true houtcome

end StateGuard

end BoardGame
