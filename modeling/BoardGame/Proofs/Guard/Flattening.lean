import BoardGame.Proofs.Guard.Asking

/-!
Flattening. Adding a guard to a conjunction, or to a disjunction with children, runs as the nested guard
does: what the inner fold remembers when it ends is what the outer one remembers of its first child, and
an answer that stops the inner fold stops the outer one too. Only a disjunction without children is told
apart from none at all, by the reason of having no opinion.
-/

namespace BoardGame

namespace Noted

variable {ν α β γ : Type}

theorem pure_bind (a : α) (f : α → Noted ν β) : (pure a >>= f) = f a := rfl

theorem bind_pure (x : Noted ν α) : (x >>= pure) = x := by
  change Noted.mk _ _ = x
  rw [notes_pure, List.append_nil, value_pure]

theorem bind_assoc (x : Noted ν α) (f : α → Noted ν β) (g : β → Noted ν γ) :
    (x >>= f >>= g) = (x >>= fun a => f a >>= g) := by
  change Noted.mk _ _ = Noted.mk _ _
  simp only [value_bind, notes_bind, List.append_assoc]

end Noted

theorem Verdict.forall_mem_keepFirst {P : Verdict → Prop} {kept : Option Verdict} {v : Verdict}
    (hkept : ∀ w ∈ kept, P w) (hv : P v) : ∀ w ∈ keepFirst kept v, P w := by
  intro w hw
  obtain rfl := Option.some.inj hw
  cases kept with
  | none => exact hv
  | some first => exact hkept first rfl

namespace Outcome

theorem allOf_assoc (o p q : Outcome) : allOf [allOf [o, p], q] = allOf [o, allOf [p, q]] := by
  cases o <;> cases p <;> cases q <;> rfl

theorem anyOf_assoc (o p q : Outcome) : anyOf [anyOf [o, p], q] = anyOf [o, anyOf [p, q]] := by
  cases o <;> cases p <;> cases q <;> rfl

end Outcome

namespace Asked

variable {ν : Type} {kept rejected ignored : Option Verdict}

/-- Asking one list under `all` and then another is asking the first as one child: what was kept of it
is an opinion withheld, and the rest is asked unless it was rejected. -/
theorem all_append (hkept : ∀ v ∈ kept, v.outcome = .ignore) (l rest : List (Asked ν)) :
    all kept (l ++ rest) = all Option.none ((fun _ => all kept l) :: rest) := by
  induction l generalizing kept with
  | nil =>
    change all kept rest = (pure (kept.getD .valid) >>= _)
    rw [Noted.pure_bind]
    cases kept with
    | none => rfl
    | some v =>
      rw [Option.getD_some, hkept v rfl]
      rfl
  | cons first l ih =>
    -- asking the first of the list is the first step on both sides
    change (first () >>= _) = (first () >>= _ >>= _)
    rw [Noted.bind_assoc]
    apply bind_eq_bind
    cases hv : (first ()).value.outcome with
    | invalid => rw [Noted.pure_bind, hv]
    | ignore => exact ih (Verdict.forall_mem_keepFirst hkept hv)
    | valid => exact ih hkept

/-- After a rejection only an acceptance matters, whatever opinions were withheld. -/
theorem any_of_rejected (v : Verdict) (ignored ignored' : Option Verdict) (l : List (Asked ν)) :
    any (some v) ignored l = any (some v) ignored' l := by
  induction l generalizing ignored ignored' with
  | nil => rfl
  | cons first l ih =>
    apply bind_eq_bind
    cases (first ()).value.outcome with
    | valid => rfl
    | invalid => exact ih ignored ignored'
    | ignore => exact ih _ _

/-- Asking one list under `any` and then another is asking the first as one child, unless nothing was
asked so far: a disjunction of nothing has an opinion to withhold, where nothing has none. -/
theorem any_append (hrejected : ∀ v ∈ rejected, v.outcome = .invalid)
    (hignored : ∀ v ∈ ignored, v.outcome = .ignore) {l : List (Asked ν)}
    (hsome : l = [] → (rejected <|> ignored).isSome = true) (rest : List (Asked ν)) :
    any rejected ignored (l ++ rest) =
      any Option.none Option.none ((fun _ => any rejected ignored l) :: rest) := by
  induction l generalizing rejected ignored with
  | nil =>
    change any rejected ignored rest = (pure ((rejected <|> ignored).getD .ignore) >>= _)
    rw [Noted.pure_bind]
    cases rejected with
    | some v =>
      have hkept : ((some v <|> ignored).getD .ignore) = v := rfl
      rw [hkept, hrejected v rfl]
      exact any_of_rejected v ignored Option.none rest
    | none =>
      cases ignored with
      | some v =>
        have hkept : ((Option.none <|> some v).getD .ignore) = v := rfl
        rw [hkept, hignored v rfl]
        rfl
      | none => cases hsome rfl
  | cons first l ih =>
    change (first () >>= _) = (first () >>= _ >>= _)
    rw [Noted.bind_assoc]
    apply bind_eq_bind
    cases hv : (first ()).value.outcome with
    | valid => rw [Noted.pure_bind, hv]
    | invalid =>
      exact ih (Verdict.forall_mem_keepFirst hrejected hv) hignored fun _ => rfl
    | ignore =>
      refine ih hrejected (Verdict.forall_mem_keepFirst hignored hv) fun _ => ?_
      cases rejected <;> rfl

end Asked

namespace Guard

variable {α ν : Type} {judge : α → Noted ν Verdict}

theorem asks_append (children more : List (Guard α)) :
    asks judge (children ++ more) = asks judge children ++ asks judge more := by
  rw [asks_eq_map, asks_eq_map, asks_eq_map, List.map_append]

theorem run_and (g h : Guard α) : run judge (g.and h) = run judge (.all [g, h]) := by
  cases g with
  | all children =>
    rw [and, run, asks_append]
    exact Asked.all_append (by simp) (asks judge children) (asks judge [h])
  | test | any | none => rfl

theorem asked_and (answer : α → Verdict) (g h : Guard α) :
    asked answer (g.and h) = asked answer (.all [g, h]) :=
  congrArg Noted.notes (run_and g h)

theorem run_any_singleton (g : Guard α) : run judge (.any [g]) = run judge g := by
  have hkept : run judge (.any [g]) = (run judge g >>= pure) := by
    apply Asked.bind_eq_bind
    cases (run judge g).value.outcome <;> rfl
  rw [hkept, Noted.bind_pure]

/-- Adding to a disjunction runs as the disjunction of two, unless there was nothing to add to. -/
theorem run_or {g : Guard α} (hsome : g ≠ .any []) (h : Guard α) :
    run judge (g.or h) = run judge (.any [g, h]) := by
  cases g with
  | any children =>
    have hasks : asks judge children ≠ [] := by
      rw [asks_eq_map, Ne, List.map_eq_nil_iff]
      rintro rfl
      exact hsome rfl
    rw [or, run, asks_append]
    exact Asked.any_append (by simp) (by simp) (fun hnone => absurd hnone hasks) (asks judge [h])
  | test | all | none => rfl

theorem notes_run_or (g h : Guard α) :
    (run judge (g.or h)).notes = (run judge (.any [g, h])).notes := by
  by_cases hsome : g = .any []
  · subst hsome
    have hasked : ∀ kept : Option Verdict × Option Verdict,
        (Asked.any kept.1 kept.2 (asks judge [h])).notes = _ := fun kept =>
      notes_asks Asked.shortcut_any kept [h]
    exact (hasked (Option.none, Option.none)).trans (hasked (Option.none, some .ignore)).symm
  · rw [run_or hsome]

/-! ### Outcomes -/

theorem outcome_run_and (g h : Guard α) : (run judge (g.and h)).value.outcome =
    Outcome.allOf [(run judge g).value.outcome, (run judge h).value.outcome] := by
  rw [run_and, value_run_all, Verdict.outcome_all]
  rfl

theorem outcome_run_any_pair (g h : Guard α) : (run judge (.any [g, h])).value.outcome =
    Outcome.anyOf [(run judge g).value.outcome, (run judge h).value.outcome] := by
  rw [value_run_any, Verdict.outcome_any]
  rfl

theorem outcome_run_or (g h : Guard α) : (run judge (g.or h)).value.outcome =
    Outcome.anyOf [(run judge g).value.outcome, (run judge h).value.outcome] := by
  by_cases hsome : g = .any []
  · subst hsome
    change (run judge (.any [h])).value.outcome = Outcome.anyOf [.ignore, _]
    rw [run_any_singleton]
    cases (run judge h).value.outcome <;> rfl
  · rw [run_or hsome, outcome_run_any_pair]

/-! ### Numbers of tests -/

theorem testCounts_append (children more : List (Guard α)) :
    testCounts (children ++ more) = testCounts children + testCounts more := by
  induction children with
  | nil => rw [List.nil_append, testCounts, Nat.zero_add]
  | cons g rest ih => rw [List.cons_append, testCounts, testCounts, ih, Nat.add_assoc]

theorem testCount_and (g h : Guard α) : (g.and h).testCount = g.testCount + h.testCount := by
  cases g with
  | all children => exact testCounts_append children [h]
  | test | any | none => rfl

theorem testCount_or (g h : Guard α) : (g.or h).testCount = g.testCount + h.testCount := by
  cases g with
  | any children => exact testCounts_append children [h]
  | test | all | none => rfl

/-- Flattening keeps the meaning of a guard. Adding to a conjunction gives the verdict of the conjunction
of two, and adding to a disjunction that of the disjunction of two, save that a disjunction without
children leaves the verdict to what is added. Either way the same tests are asked in the same order, none
is lost or counted twice, and how several additions are grouped makes no difference to the outcome. -/
theorem flattened_means_nested (judge : α → Noted ν Verdict) :
    let answer : Guard α → Verdict := fun g => (run judge g).value
    let asked : Guard α → List α := Guard.asked fun a => (judge a).value
    (∀ g h, answer (g.and h) = answer (.all [g, h]) ∧
      asked (g.and h) = asked (.all [g, h]) ∧
      (g.and h).testCount = g.testCount + h.testCount) ∧
    (∀ g h, (answer (g.or h)).outcome = (answer (.any [g, h])).outcome ∧
      (g ≠ .any [] → answer (g.or h) = answer (.any [g, h])) ∧
      asked (g.or h) = asked (.any [g, h]) ∧
      (g.or h).testCount = g.testCount + h.testCount) ∧
    (∀ h, answer (Guard.or (.any []) h) = answer h) ∧
    (∀ g h k : Guard α, (answer ((g.and h).and k)).outcome = (answer (g.and (h.and k))).outcome) ∧
    ∀ g h k : Guard α, (answer ((g.or h).or k)).outcome = (answer (g.or (h.or k))).outcome := by
  intro answer asked
  refine ⟨fun g h => ⟨?_, ?_, testCount_and g h⟩, fun g h => ⟨?_, fun hsome => ?_, ?_, testCount_or g h⟩,
    fun h => ?_, fun g h k => ?_, fun g h k => ?_⟩
  · exact congrArg Noted.value (run_and g h)
  · exact asked_and _ g h
  · exact (outcome_run_or g h).trans (outcome_run_any_pair g h).symm
  · exact congrArg Noted.value (run_or hsome h)
  · exact notes_run_or g h
  · exact congrArg Noted.value (run_any_singleton h)
  · simp only [answer, outcome_run_and, Outcome.allOf_assoc]
  · simp only [answer, outcome_run_or, Outcome.anyOf_assoc]

/-- No test has an opinion, each for a reason of its own. -/
def idleAnswers : Nat → Verdict
  | 0 => .ignoring "too early"
  | 1 => .ignoring "too late"
  | _ => .ignoring "never mind"

/-- The reason is the one that a nested disjunction gives, the first; only a disjunction of nothing hides
what is added to it when it is nested. -/
theorem idle_flattened :
    let answer : Guard Nat → Verdict := fun g => (run (watching idleAnswers) g).value
    let pair : Guard Nat := .any [.test 0, .test 1]
    pair ≠ .any [] ∧ answer (pair.or (.test 2)) = answer (.any [pair, .test 2]) ∧
    answer (pair.or (.test 2)) = .ignoring "too early" ∧
    answer (Guard.or (.any []) (.test 2)) = .ignoring "never mind" ∧
    answer (.any [.any [], .test 2]) = .ignore := by
  intro answer pair
  have hsome : pair ≠ .any [] := by simp [pair]
  obtain ⟨-, hor, hempty, -⟩ := flattened_means_nested (watching idleAnswers)
  exact ⟨hsome, (hor pair (.test 2)).2.1 hsome, by decide, hempty (.test 2), by decide⟩

end Guard

end BoardGame
