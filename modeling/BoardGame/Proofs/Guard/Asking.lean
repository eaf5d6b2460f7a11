import BoardGame.Proofs.Guard.Table
import Mathlib.Data.List.Flatten

/-!
The order of asking. A guard over children asks them from left to right, up to and including the first
whose verdict is certain to decide: a rejection under `all`, an acceptance under `any` and `none`. What a
run gives is settled by the tests that it asks, so any answers of the others give the same run.
-/

namespace BoardGame

section ThroughFirst

variable {α β : Type} {p q : α → Bool} {l : List α}

/-- A list up to and including its first item with a property; all of it if there is none. -/
def throughFirst (p : α → Bool) : List α → List α
  | [] => []
  | a :: rest => if p a then [a] else a :: throughFirst p rest

theorem throughFirst_sublist (p : α → Bool) (l : List α) : (throughFirst p l).Sublist l := by
  induction l with
  | nil => exact List.Sublist.refl _
  | cons a rest ih =>
    rw [throughFirst]
    by_cases hp : p a = true
    · rw [if_pos hp]
      exact (List.nil_sublist rest).cons_cons a
    · rw [if_neg hp]
      exact ih.cons_cons a

theorem throughFirst_map {p : β → Bool} (f : α → β) (l : List α) :
    throughFirst p (l.map f) = (throughFirst (fun a => p (f a)) l).map f := by
  induction l with
  | nil => rfl
  | cons a rest ih =>
    rw [List.map_cons, throughFirst, throughFirst, ih]
    by_cases hp : p (f a) = true
    · rw [if_pos hp, if_pos hp]
      rfl
    · rw [if_neg hp, if_neg hp]
      rfl

theorem throughFirst_congr (h : ∀ a ∈ throughFirst p l, q a = p a) :
    throughFirst q l = throughFirst p l := by
  induction l with
  | nil => rfl
  | cons a rest ih =>
    rw [throughFirst] at h ⊢
    by_cases hp : p a = true
    · rw [if_pos hp] at h
      have hq : q a = true := (h a (List.mem_singleton.mpr rfl)).trans hp
      rw [if_pos hq, throughFirst, if_pos hp]
    · rw [if_neg hp] at h
      obtain ⟨hhead, hrest⟩ := List.forall_mem_cons.mp h
      have hq : ¬q a = true := by rwa [hhead]
      rw [if_neg hq, throughFirst, if_neg hp, ih hrest]

end ThroughFirst

namespace Asked

variable {ν : Type}

/-- What a step makes of a value is all that counts after it. -/
theorem bind_eq_bind {α β : Type} {x : Noted ν α} {f g : α → Noted ν β} (h : f x.value = g x.value) :
    (x >>= f) = (x >>= g) := by
  change Noted.mk _ _ = Noted.mk _ _
  rw [h]

/-- A way of asking that remembers something and goes on until an answer stops it. What it gives then does
not depend on what else there was to ask. -/
structure Shortcut {σ : Type} (stop : Verdict → Bool) (ask : σ → List (Asked ν) → Noted ν Verdict) :
    Prop where
  ends : ∀ kept, (ask kept []).notes = []
  stops : ∀ kept first, stop (first ()).value = true →
    ∃ v, ∀ rest, ask kept (first :: rest) = (first () >>= fun _ => pure v)
  goesOn : ∀ kept first, stop (first ()).value = false →
    ∃ kept', ∀ rest, ask kept (first :: rest) = (first () >>= fun _ => ask kept' rest)

theorem shortcut_all : Shortcut Verdict.isInvalid (all (ν := ν)) where
  ends _ := rfl
  stops kept first hstop := by
    have hv : (first ()).value.outcome = .invalid := of_decide_eq_true hstop
    refine ⟨(first ()).value, fun rest => bind_eq_bind ?_⟩
    rw [hv]
  goesOn kept first hstop := by
    have hv : (first ()).value.outcome ≠ .invalid := of_decide_eq_false hstop
    cases ho : (first ()).value.outcome with
    | invalid => exact absurd ho hv
    | ignore =>
      refine ⟨Verdict.keepFirst kept (first ()).value, fun rest => bind_eq_bind ?_⟩
      rw [ho]
    | valid =>
      refine ⟨kept, fun rest => bind_eq_bind ?_⟩
      rw [ho]

theorem shortcut_any :
    Shortcut Verdict.isValid fun kept : Option Verdict × Option Verdict =>
      any (ν := ν) kept.1 kept.2 where
  ends _ := rfl
  stops kept first hstop := by
    have hv : (first ()).value.outcome = .valid := of_decide_eq_true hstop
    refine ⟨(first ()).value, fun rest => bind_eq_bind ?_⟩
    rw [hv]
  goesOn kept first hstop := by
    have hv : (first ()).value.outcome ≠ .valid := of_decide_eq_false hstop
    cases ho : (first ()).value.outcome with
    | valid => exact absurd ho hv
    | invalid =>
      refine ⟨(Verdict.keepFirst kept.1 (first ()).value, kept.2), fun rest => bind_eq_bind ?_⟩
      rw [ho]
    | ignore =>
      refine ⟨(kept.1, Verdict.keepFirst kept.2 (first ()).value), fun rest => bind_eq_bind ?_⟩
      rw [ho]

theorem shortcut_none : Shortcut Verdict.isValid fun _ : Unit => none (ν := ν) where
  ends _ := rfl
  stops _ first hstop := by
    refine ⟨.negated, fun rest => bind_eq_bind ?_⟩
    exact if_pos hstop
  goesOn _ first hstop := by
    refine ⟨(), fun rest => bind_eq_bind ?_⟩
    exact if_neg (Bool.eq_false_iff.mp hstop)

namespace Shortcut

variable {σ : Type} {stop : Verdict → Bool} {ask : σ → List (Asked ν) → Noted ν Verdict}

theorem ask_throughFirst (h : Shortcut stop ask) (kept : σ) (l : List (Asked ν)) :
    ask kept (throughFirst (fun a => stop (a ()).value) l) = ask kept l := by
  induction l generalizing kept with
  | nil => rfl
  | cons first rest ih =>
    rw [throughFirst]
    by_cases hstop : stop (first ()).value = true
    · obtain ⟨v, hv⟩ := h.stops kept first hstop
      rw [if_pos hstop, hv, hv]
    · obtain ⟨kept', hrest⟩ := h.goesOn kept first (Bool.eq_false_iff.mpr hstop)
      rw [if_neg hstop, hrest, hrest, ih]

theorem notes_ask (h : Shortcut stop ask) (kept : σ) (l : List (Asked ν)) :
    (ask kept l).notes =
      (throughFirst (fun a => stop (a ()).value) l).flatMap fun a => (a ()).notes := by
  induction l generalizing kept with
  | nil => exact h.ends kept
  | cons first rest ih =>
    rw [throughFirst]
    by_cases hstop : stop (first ()).value = true
    · obtain ⟨v, hv⟩ := h.stops kept first hstop
      rw [if_pos hstop, hv, Noted.notes_bind, Noted.notes_pure]
      rfl
    · obtain ⟨kept', hrest⟩ := h.goesOn kept first (Bool.eq_false_iff.mpr hstop)
      rw [if_neg hstop, hrest, Noted.notes_bind, ih, List.flatMap_cons]

end Shortcut

end Asked

namespace Guard

variable {α ν μ σ : Type} {judge judge' : α → Noted ν Verdict} {stop : Verdict → Bool}
  {ask : σ → List (Asked ν) → Noted ν Verdict}

/-! ### What a guard over children leaves in notes -/

theorem throughFirst_asks (stop : Verdict → Bool) (children : List (Guard α)) :
    throughFirst (fun a => stop (a ()).value) (asks judge children) =
      (throughFirst (fun g => stop (run judge g).value) children).map fun g _ => run judge g := by
  rw [asks_eq_map, throughFirst_map]

theorem notes_asks (h : Asked.Shortcut stop ask) (kept : σ) (children : List (Guard α)) :
    (ask kept (asks judge children)).notes =
      (throughFirst (fun g => stop (run judge g).value) children).flatMap fun g =>
        (run judge g).notes := by
  rw [h.notes_ask, throughFirst_asks, List.flatMap_map]

/-! ### The tests that are asked -/

def watching (respond : α → Verdict) (a : α) : Noted α Verdict := ⟨respond a, [a]⟩

def asked (respond : α → Verdict) (g : Guard α) : List α := (run (watching respond) g).notes

theorem value_run_congr {judge' : α → Noted μ Verdict} (h : ∀ a, (judge' a).value = (judge a).value)
    (g : Guard α) : (run judge' g).value = (run judge g).value := by
  induction g with
  | test a => exact h a
  | all children ih => rw [value_run_all, value_run_all, List.map_congr_left ih]
  | any children ih => rw [value_run_any, value_run_any, List.map_congr_left ih]
  | none children ih => rw [value_run_none, value_run_none, List.map_congr_left ih]

theorem value_run_watching (g : Guard α) :
    (run (watching fun a => (judge a).value) g).value = (run judge g).value := by
  have hvalues : ∀ a, (watching (fun a => (judge a).value) a).value = (judge a).value := fun _ => rfl
  exact value_run_congr hvalues g

/-- Of the children those are asked that come up to the first one to decide. -/
theorem notes_asks_watching {ask : σ → List (Asked α) → Noted α Verdict} (h : Asked.Shortcut stop ask)
    (kept : σ) (children : List (Guard α)) :
    (ask kept (asks (watching fun a => (judge a).value) children)).notes =
      (throughFirst (fun g => stop (run judge g).value) children).flatMap
        (asked fun a => (judge a).value) := by
  rw [notes_asks h]
  simp only [value_run_watching]
  rfl

theorem asked_all (children : List (Guard α)) :
    asked (fun a => (judge a).value) (.all children) =
      (throughFirst (fun g => (run judge g).value.isInvalid) children).flatMap
        (asked fun a => (judge a).value) :=
  notes_asks_watching Asked.shortcut_all Option.none children

theorem asked_any (children : List (Guard α)) :
    asked (fun a => (judge a).value) (.any children) =
      (throughFirst (fun g => (run judge g).value.isValid) children).flatMap
        (asked fun a => (judge a).value) :=
  notes_asks_watching Asked.shortcut_any (Option.none, Option.none) children

theorem asked_none (children : List (Guard α)) :
    asked (fun a => (judge a).value) (.none children) =
      (throughFirst (fun g => (run judge g).value.isValid) children).flatMap
        (asked fun a => (judge a).value) :=
  notes_asks_watching Asked.shortcut_none () children

theorem testsOf_eq_flatMap (children : List (Guard α)) : testsOf children = children.flatMap tests := by
  induction children with
  | nil => rfl
  | cons g rest ih => rw [testsOf, ih, List.flatMap_cons]

theorem asked_sublist (g : Guard α) : (asked (fun a => (judge a).value) g).Sublist g.tests := by
  have hchildren (stop : Guard α → Bool) (children : List (Guard α))
      (ih : ∀ g ∈ children, (asked (fun a => (judge a).value) g).Sublist g.tests) :
      ((throughFirst stop children).flatMap (asked fun a => (judge a).value)).Sublist
        (testsOf children) := by
    rw [testsOf_eq_flatMap]
    exact ((throughFirst_sublist stop children).flatMap _).trans
      (List.Sublist.flatMap_right children ih)
  induction g with
  | test a => exact List.Sublist.refl _
  | all children ih =>
    rw [asked_all]
    exact hchildren _ children ih
  | any children ih =>
    rw [asked_any]
    exact hchildren _ children ih
  | none children ih =>
    rw [asked_none]
    exact hchildren _ children ih

theorem notes_run (g : Guard α) :
    (run judge g).notes = (asked (fun a => (judge a).value) g).flatMap fun a => (judge a).notes := by
  have hchildren {σ : Type} {stop : Verdict → Bool} {ask : σ → List (Asked ν) → Noted ν Verdict}
      (hask : Asked.Shortcut stop ask) (kept : σ) (children : List (Guard α))
      (ih : ∀ g ∈ children,
        (run judge g).notes = (asked (fun a => (judge a).value) g).flatMap fun a => (judge a).notes) :
      (ask kept (asks judge children)).notes =
        ((throughFirst (fun g => stop (run judge g).value) children).flatMap
          (asked fun a => (judge a).value)).flatMap fun a => (judge a).notes := by
    rw [notes_asks hask, List.flatMap_assoc]
    apply List.flatMap_congr
    intro g hg
    exact ih g ((throughFirst_sublist _ children).subset hg)
  induction g with
  | test a => exact (List.append_nil _).symm
  | all children ih =>
    rw [asked_all]
    exact hchildren Asked.shortcut_all Option.none children ih
  | any children ih =>
    rw [asked_any]
    exact hchildren Asked.shortcut_any (Option.none, Option.none) children ih
  | none children ih =>
    rw [asked_none]
    exact hchildren Asked.shortcut_none () children ih

/-! ### Answers that are not asked for -/

theorem ask_asks_congr (hask : Asked.Shortcut stop ask) (kept : σ) {children : List (Guard α)}
    (h : ∀ g ∈ throughFirst (fun g => stop (run judge g).value) children,
      run judge' g = run judge g) :
    ask kept (asks judge' children) = ask kept (asks judge children) := by
  have hcut : throughFirst (fun g => stop (run judge' g).value) children =
      throughFirst (fun g => stop (run judge g).value) children := by
    apply throughFirst_congr
    intro g hg
    rw [h g hg]
  have hasked : throughFirst (fun a => stop (a ()).value) (asks judge' children) =
      throughFirst (fun a => stop (a ()).value) (asks judge children) := by
    rw [throughFirst_asks, throughFirst_asks, hcut]
    apply List.map_congr_left
    intro g hg
    rw [h g hg]
  rw [← hask.ask_throughFirst, hasked, hask.ask_throughFirst]

/-- Judges that agree on the tests asked under one of them run a guard alike. -/
theorem run_congr (g : Guard α) (h : ∀ a ∈ asked (fun a => (judge a).value) g, judge' a = judge a) :
    run judge' g = run judge g := by
  -- a child that is asked asks its tests as part of the whole
  have hchildren (stop : Guard α → Bool) (children : List (Guard α))
      (ih : ∀ g ∈ children, (∀ a ∈ asked (fun a => (judge a).value) g, judge' a = judge a) →
        run judge' g = run judge g)
      (h : ∀ a ∈ (throughFirst stop children).flatMap (asked fun a => (judge a).value),
        judge' a = judge a) :
      ∀ g ∈ throughFirst stop children, run judge' g = run judge g := by
    intro g hg
    apply ih g ((throughFirst_sublist stop children).subset hg)
    intro a ha
    exact h a (List.mem_flatMap.mpr ⟨g, hg, ha⟩)
  induction g with
  | test a => exact h a (List.mem_singleton.mpr rfl)
  | all children ih =>
    rw [asked_all] at h
    exact ask_asks_congr Asked.shortcut_all Option.none (hchildren _ children ih h)
  | any children ih =>
    rw [asked_any] at h
    exact ask_asks_congr Asked.shortcut_any (Option.none, Option.none) (hchildren _ children ih h)
  | none children ih =>
    rw [asked_none] at h
    exact ask_asks_congr Asked.shortcut_none () (hchildren _ children ih h)

theorem asked_congr (g : Guard α) (h : ∀ a ∈ asked (fun a => (judge a).value) g, judge' a = judge a) :
    asked (fun a => (judge' a).value) g = asked (fun a => (judge a).value) g := by
  have hwatched : run (watching fun a => (judge' a).value) g =
      run (watching fun a => (judge a).value) g := by
    apply run_congr
    intro a ha
    rw [watching, watching, h a ha]
  exact congrArg Noted.notes hwatched

/-- Running a guard gives the outcome of the table at every depth. Its verdict is that of the first child
with that outcome, reason included, unless all of its children are valid or none may be. Children are asked
from left to right until one decides, no test twice, and only the tests asked have a say. -/
theorem run_follows_table (judge : α → Noted ν Verdict) :
    let answer : Guard α → Verdict := fun g => (run judge g).value
    let asked : Guard α → List α := Guard.asked fun a => (judge a).value
    (∀ g, (answer g).outcome = g.outcome fun a => (judge a).value.outcome) ∧
    (∀ a, answer (.test a) = (judge a).value) ∧
    (∀ children, (answer (.all children)).outcome = .valid → answer (.all children) = .valid) ∧
    (∀ children, (answer (.all children)).outcome ≠ .valid →
      Verdict.FirstOf (children.map answer) (answer (.all children))) ∧
    (∀ children, children ≠ [] →
      Verdict.FirstOf (children.map answer) (answer (.any children))) ∧
    answer (.any []) = .ignore ∧
    (∀ children, answer (.none children) =
      if .valid ∈ (children.map answer).map Verdict.outcome then .negated else .valid) ∧
    (∀ a, asked (.test a) = [a]) ∧
    (∀ children, asked (.all children) =
      (throughFirst (fun g => (answer g).isInvalid) children).flatMap asked) ∧
    (∀ children, asked (.any children) =
      (throughFirst (fun g => (answer g).isValid) children).flatMap asked) ∧
    (∀ children, asked (.none children) =
      (throughFirst (fun g => (answer g).isValid) children).flatMap asked) ∧
    (∀ g, (asked g).Sublist g.tests) ∧
    (∀ g, (run judge g).notes = (asked g).flatMap fun a => (judge a).notes) ∧
    ∀ g (judge' : α → Noted ν Verdict), (∀ a ∈ asked g, judge' a = judge a) →
      run judge' g = run judge g ∧ (Guard.asked (fun a => (judge' a).value) g) = asked g := by
  intro answer asked
  refine ⟨outcome_run, fun a => rfl, ?_, ?_, ?_, rfl, ?_, fun a => rfl, asked_all, asked_any,
    asked_none, asked_sublist, notes_run, ?_⟩
  · intro children hvalid
    have hanswer : answer (.all children) = Verdict.all (children.map answer) :=
      value_run_all children
    rw [hanswer] at hvalid ⊢
    exact Verdict.all_eq_valid hvalid
  · intro children hdecided
    have hanswer : answer (.all children) = Verdict.all (children.map answer) :=
      value_run_all children
    rw [hanswer] at hdecided ⊢
    exact Verdict.firstOf_all hdecided
  · intro children hchildren
    have hanswer : answer (.any children) = Verdict.any (children.map answer) :=
      value_run_any children
    rw [hanswer]
    apply Verdict.firstOf_any
    rwa [Ne, List.map_eq_nil_iff]
  · intro children
    exact (value_run_none children).trans (Verdict.none_eq _)
  · intro g judge' hagree
    exact ⟨run_congr g hagree, asked_congr g hagree⟩

/-- The third child is valid, so the last is not asked; nor is the last of the conjunction. -/
def shortcut : Guard Nat :=
  .any [.none [.test 0], .all [.test 1, .test 2, .test 3], .test 4, .test 5]

def shortcutAnswers : Nat → Verdict
  | 1 => .ignoring "too early"
  | 2 => .fail "occupied"
  | _ => .valid

def shortcutChanged (a : Nat) : Verdict := if a = 3 ∨ a = 5 then .fail "never seen" else shortcutAnswers a

theorem shortcut_unchanged :
    asked shortcutAnswers shortcut = [0, 1, 2, 4] ∧
    Verdict.FirstOf [.ignoring "too early", .fail "occupied", .valid]
      (run (watching shortcutAnswers) (.all [.test 1, .test 2, .test 3])).value ∧
    run (watching shortcutChanged) shortcut = run (watching shortcutAnswers) shortcut := by
  obtain ⟨-, -, -, hall, -, -, -, -, -, -, -, -, -, hcongr⟩ :=
    run_follows_table (watching shortcutAnswers)
  refine ⟨by decide, hall [.test 1, .test 2, .test 3] (by decide), ?_⟩
  exact (hcongr shortcut (watching shortcutChanged) (by decide)).1

end Guard

end BoardGame
