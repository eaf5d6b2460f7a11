import BoardGame.Proofs.Guard.Flattening

/-!
Requirements. A guard that is made by requiring one guard after another is not the conjunction of them:
what is recognized as always valid is dropped, and conjunctions are extended rather than nested. It runs
as the conjunction all the same, as far as the tests go that do not declare what they answer. What is
dropped consists of tests that declare it, and its verdict would have been valid.
-/

namespace BoardGame

namespace Verdict

variable {v v' : Verdict}

/-- What a valid verdict says besides being valid is lost in a conjunction. -/
theorem all_pair_congr (ho : v.outcome = v'.outcome) (hv : v.outcome ≠ .valid → v = v') (w : Verdict) :
    all [v, w] = all [v', w] := by
  by_cases hvalid : v.outcome = .valid
  · have hvalid' : v'.outcome = .valid := ho.symm.trans hvalid
    simp only [all, allFrom, hvalid, hvalid']
  · rw [hv hvalid]

theorem outcome_all_pair_of_valid (hvalid : v.outcome = .valid) (w : Verdict) :
    (all [v, w]).outcome = w.outcome := by
  rw [outcome_all, List.map_cons, hvalid]
  change Outcome.allOf [.valid, w.outcome] = w.outcome
  cases w.outcome <;> rfl

theorem all_pair_of_valid (hvalid : v.outcome = .valid) {w : Verdict} (hw : w.outcome ≠ .valid) :
    all [v, w] = w := by
  simp only [all, allFrom, hvalid]
  cases ho : w.outcome with
  | valid => exact absurd ho hw
  | invalid => rfl
  | ignore => rfl

end Verdict

namespace Guard

variable {α ν : Type} {declared : α → Option Outcome} {judge : α → Noted ν Verdict} {g k : Guard α}
  {cs : List (Guard α)} {o : Outcome}

/-! ### Tests -/

theorem testsOf_append (children more : List (Guard α)) :
    testsOf (children ++ more) = testsOf children ++ testsOf more := by
  rw [testsOf_eq_flatMap, testsOf_eq_flatMap, testsOf_eq_flatMap, List.flatMap_append]

theorem tests_and (g h : Guard α) : (g.and h).tests = g.tests ++ h.tests := by
  have hsingle : testsOf [h] = h.tests := List.append_nil _
  cases g with
  | all children => rw [and, tests, testsOf_append, hsingle, tests]
  | test | any | none => exact congrArg (_ ++ ·) hsingle

theorem mem_tests_require {a : α} (h : a ∈ (require declared g k).tests) : a ∈ g.tests ∨ a ∈ k.tests := by
  rw [require] at h
  split at h
  · exact Or.inr h
  · rwa [tests_and, List.mem_append] at h

theorem Keep.require (hg : Keep declared judge g.tests) (hk : Keep declared judge k.tests) :
    Keep declared judge (require declared g k).tests := by
  intro a ha
  rcases mem_tests_require ha with ha | ha
  · exact hg a ha
  · exact hk a ha

/-! ### Settled guards -/

theorem isSome_settledEach?_iff {children : List (Guard α)} :
    (settledEach? declared children).isSome = true ↔
      ∀ g ∈ children, (g.settled? declared).isSome = true := by
  induction children with
  | nil => simp [settledEach?]
  | cons g rest ih =>
    rw [List.forall_mem_cons, ← ih, settledEach?]
    cases g.settled? declared with
    | none => simp
    | some o => cases settledEach? declared rest <;> simp

theorem isSome_settled?_iff (g : Guard α) :
    (g.settled? declared).isSome = true ↔ ∀ a ∈ g.tests, (declared a).isSome = true := by
  have hchildren {children : List (Guard α)} {fold : List Verdict → Outcome}
      (ih : ∀ g ∈ children, (g.settled? declared).isSome = true ↔
        ∀ a ∈ g.tests, (declared a).isSome = true) :
      ((settledEach? declared children).map fold).isSome = true ↔
        ∀ a ∈ testsOf children, (declared a).isSome = true := by
    rw [Option.isSome_map, isSome_settledEach?_iff, testsOf_eq_flatMap, List.forall_mem_flatMap]
    exact forall₂_congr ih
  induction g with
  | test a => simp [settled?, tests]
  | all children ih => exact hchildren ih
  | any children ih => exact hchildren ih
  | none children ih => exact hchildren ih

theorem settled?_eq_some_iff (hkeep : Keep declared judge g.tests) :
    g.settled? declared = some o ↔
      (∀ a ∈ g.tests, (declared a).isSome = true) ∧ (run judge g).value.outcome = o := by
  constructor
  · intro hsettled
    refine ⟨(isSome_settled?_iff g).mp ?_, outcome_of_settled? g hsettled hkeep⟩
    rw [hsettled]
    rfl
  · rintro ⟨hdeclared, rfl⟩
    obtain ⟨o, ho⟩ := Option.isSome_iff_exists.mp ((isSome_settled?_iff g).mpr hdeclared)
    rw [ho, outcome_of_settled? g ho hkeep]

/-! ### Tests that are asked in earnest -/

/-- The tests that a guard asks and that do not declare what they answer, in the order of asking. -/
def openAsked (declared : α → Option Outcome) (judge : α → Noted ν Verdict) (g : Guard α) : List α :=
  (asked (fun a => (judge a).value) g).filter fun a => (declared a).isNone

theorem openAsked_of_settled (h : g.settled? declared = some o) : openAsked declared judge g = [] := by
  have hdeclared : ∀ a ∈ g.tests, (declared a).isSome = true := by
    rw [← isSome_settled?_iff, h]
    rfl
  rw [openAsked, List.filter_eq_nil_iff]
  intro a ha
  rw [Option.isNone_iff_eq_none]
  exact Option.isSome_iff_ne_none.mp (hdeclared a ((asked_sublist g).subset ha))

theorem openAsked_pair (g k : Guard α) : openAsked declared judge (.all [g, k]) =
    openAsked declared judge g ++
      if (run judge g).value.isInvalid then [] else openAsked declared judge k := by
  rw [openAsked, asked_all, throughFirst]
  cases (run judge g).value.isInvalid with
  | true => simp [openAsked]
  | false =>
    have hlast : throughFirst (fun g => (run judge g).value.isInvalid) [k] = [k] := by
      rw [throughFirst]
      split <;> rfl
    simp [hlast, openAsked]

/-! ### Guards that run as a conjunction -/

/-- A guard runs as the conjunction of some guards: with the same outcome, for the same reason unless it
is valid, and asking the same tests in the same order, those apart that declare what they answer. -/
structure Conjoins (declared : α → Option Outcome) (judge : α → Noted ν Verdict) (g : Guard α)
    (cs : List (Guard α)) : Prop where
  outcome_eq : (run judge g).value.outcome = (run judge (.all cs)).value.outcome
  verdict_eq : (run judge g).value.outcome ≠ .valid →
    (run judge g).value = (run judge (.all cs)).value
  asked_eq : openAsked declared judge g = openAsked declared judge (.all cs)

theorem run_all_concat (cs : List (Guard α)) (k : Guard α) :
    run judge (.all (cs ++ [k])) = run judge (.all [.all cs, k]) := run_and (.all cs) k

theorem openAsked_and (g k : Guard α) :
    openAsked declared judge (g.and k) = openAsked declared judge (.all [g, k]) := by
  rw [openAsked, openAsked, asked_and]

theorem openAsked_concat (cs : List (Guard α)) (k : Guard α) :
    openAsked declared judge (.all (cs ++ [k])) = openAsked declared judge (.all [.all cs, k]) :=
  openAsked_and (.all cs) k

namespace Conjoins

/-- A guard that is not dropped is extended, which adds the same on both sides. -/
theorem and (h : Conjoins declared judge g cs) (k : Guard α) :
    Conjoins declared judge (g.and k) (cs ++ [k]) := by
  have hvalue : (run judge (g.and k)).value = (run judge (.all (cs ++ [k]))).value := by
    rw [run_and, run_all_concat, value_run_all, value_run_all]
    exact Verdict.all_pair_congr h.outcome_eq h.verdict_eq _
  have hrejects : (run judge g).value.isInvalid = (run judge (.all cs)).value.isInvalid := by
    rw [Verdict.isInvalid, Verdict.isInvalid, h.outcome_eq]
  refine ⟨congrArg Verdict.outcome hvalue, fun _ => hvalue, ?_⟩
  rw [openAsked_and, openAsked_concat, openAsked_pair, openAsked_pair, h.asked_eq, hrejects]

/-- What is dropped would have been valid, and its tests declare as much. -/
theorem of_settled (h : Conjoins declared judge g cs) (hkeep : Keep declared judge g.tests)
    (hvalid : g.settled? declared = some .valid) (k : Guard α) :
    Conjoins declared judge k (cs ++ [k]) := by
  have hall : (run judge (.all cs)).value.outcome = .valid := by
    rw [← h.outcome_eq]
    exact outcome_of_settled? g hvalid hkeep
  have hvalue : (run judge (.all (cs ++ [k]))).value =
      Verdict.all [(run judge (.all cs)).value, (run judge k).value] := by
    rw [run_all_concat]
    exact value_run_all _
  refine ⟨?_, fun hk => ?_, ?_⟩
  · rw [hvalue, Verdict.outcome_all_pair_of_valid hall]
  · rw [hvalue, Verdict.all_pair_of_valid hall hk]
  · have hnothing : openAsked declared judge (.all cs) = [] :=
      h.asked_eq.symm.trans (openAsked_of_settled hvalid)
    have haccepts : (run judge (.all cs)).value.isInvalid = false := by
      rw [Verdict.isInvalid, hall]
      rfl
    rw [openAsked_concat, openAsked_pair, hnothing, haccepts]
    rfl

theorem require (h : Conjoins declared judge g cs) (hkeep : Keep declared judge g.tests)
    (k : Guard α) : Conjoins declared judge (require declared g k) (cs ++ [k]) := by
  rw [Guard.require]
  split
  · rename_i hvalid
    exact h.of_settled hkeep hvalid k
  · exact h.and k

end Conjoins

theorem conjoins_nil (hkeep : Keep declared judge g.tests) (hvalid : g.settled? declared = some .valid) :
    Conjoins declared judge g [] := by
  have hg : (run judge g).value.outcome = .valid := outcome_of_settled? g hvalid hkeep
  exact ⟨hg, fun hne => absurd hg hne, openAsked_of_settled hvalid⟩

theorem conjoins_foldl_require {ks : List (Guard α)} (h : Conjoins declared judge g ks)
    (hg : Keep declared judge g.tests) (hcs : ∀ k ∈ cs, Keep declared judge k.tests) :
    Conjoins declared judge (cs.foldl (require declared) g) (ks ++ cs) := by
  induction cs generalizing g ks with
  | nil =>
    rw [List.append_nil]
    exact h
  | cons k rest ih =>
    obtain ⟨hk, hrest⟩ := List.forall_mem_cons.mp hcs
    have hnext := ih (h.require hg k) (hg.require hk) hrest
    rwa [List.append_assoc] at hnext

theorem keep_foldl_require (hg : Keep declared judge g.tests)
    (hcs : ∀ k ∈ cs, Keep declared judge k.tests) :
    Keep declared judge (cs.foldl (require declared) g).tests := by
  induction cs generalizing g with
  | nil => exact hg
  | cons k rest ih =>
    obtain ⟨hk, hrest⟩ := List.forall_mem_cons.mp hcs
    exact ih (hg.require hk) hrest

end Guard

end BoardGame
