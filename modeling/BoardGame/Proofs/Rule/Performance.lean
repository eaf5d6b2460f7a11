import BoardGame.Proofs.Rule.Conservation

/-!
What carrying out a rule runs. Whatever the nesting, it comes to a list of effects, each of a simple rule
within it, that are run in order; which ones these are depends on the snapshot, since a rule over `any` of
its children looks for a valid one on the snapshot that has been reached. So what each effect preserves,
carrying out a rule preserves.
-/

namespace BoardGame

theorem Effect.runAll_append (c : Setting) (e : Event) (effects more : List Effect) (s : Snapshot) :
    runAll c e (effects ++ more) s = runAll c e more (runAll c e effects s) := List.foldl_append

namespace Rule

mutual

def performed (c : Setting) (e : Event) : Rule → Snapshot → List Effect
  | simple _ effects, _ => effects
  | all _ children, s => performedAll c e children s
  | any _ children, s => performedFirst c e children s

def performedAll (c : Setting) (e : Event) : List Rule → Snapshot → List Effect
  | [], _ => []
  | r :: rest, s => performed c e r s ++ performedAll c e rest (apply c e r s).value

def performedFirst (c : Setting) (e : Event) : List Rule → Snapshot → List Effect
  | [], _ => []
  | r :: rest, s =>
    if (check c s e r).value.isValid then performed c e r s else performedFirst c e rest s

end

variable {c : Setting} {e : Event}

def EveryEffect (P : Effect → Prop) (r : Rule) : Prop :=
  ∀ head effects, simple head effects ∈ r.withDescendants → ∀ f ∈ effects, P f

def Builtin (r : Rule) : Prop := r.EveryEffect fun f => ∀ x, f ≠ .custom x

mutual

theorem value_apply : (r : Rule) → (s : Snapshot) →
    (apply c e r s).value = Effect.runAll c e (performed c e r s) s
  | simple _ _, _ => rfl
  | all _ children, s => value_applyAll children s
  | any _ children, s => value_applyFirst children s

theorem value_applyAll : (children : List Rule) → (s : Snapshot) →
    (applyAll c e children s).value = Effect.runAll c e (performedAll c e children s) s
  | [], _ => rfl
  | r :: rest, s => by
    rw [applyAll, Noted.value_bind, value_applyAll rest, performedAll, Effect.runAll_append,
      ← value_apply r s]

theorem value_applyFirst : (children : List Rule) → (s : Snapshot) →
    (applyFirst c e children s).value = Effect.runAll c e (performedFirst c e children s) s
  | [], _ => rfl
  | r :: rest, s => by
    rw [applyFirst, Noted.value_bind, performedFirst]
    split
    · exact value_apply r s
    · exact value_applyFirst rest s

end

theorem foldl_apply (rules : List Rule) (s : Snapshot) :
    rules.foldl (fun s r => (apply c e r s).value) s = (applyAll c e rules s).value := by
  induction rules generalizing s with
  | nil => rfl
  | cons r rest ih => rw [List.foldl_cons, ih, applyAll, Noted.value_bind]

section EveryEffect

variable {P : Effect → Prop} {head : RuleHead} {effects : List Effect} {children : List Rule}

theorem everyEffect_simple_iff : (simple head effects).EveryEffect P ↔ ∀ f ∈ effects, P f :=
  forall_simple_simple_iff

theorem everyEffect_all_iff : (all head children).EveryEffect P ↔ ∀ r ∈ children, r.EveryEffect P :=
  forall_simple_composite_iff (fun _ _ => by simp) rfl

theorem everyEffect_any_iff : (any head children).EveryEffect P ↔ ∀ r ∈ children, r.EveryEffect P :=
  forall_simple_composite_iff (fun _ _ => by simp) rfl

theorem forall_mem_performedAll (s : Snapshot)
    (h : ∀ r ∈ children, ∀ s, ∀ f ∈ performed c e r s, P f) :
    ∀ f ∈ performedAll c e children s, P f := by
  induction children generalizing s with
  | nil => exact List.forall_mem_nil _
  | cons r rest ih =>
    obtain ⟨hr, hrest⟩ := List.forall_mem_cons.mp h
    rw [performedAll, List.forall_mem_append]
    exact ⟨hr s, ih _ hrest⟩

theorem forall_mem_performedFirst (s : Snapshot)
    (h : ∀ r ∈ children, ∀ s, ∀ f ∈ performed c e r s, P f) :
    ∀ f ∈ performedFirst c e children s, P f := by
  induction children with
  | nil => exact List.forall_mem_nil _
  | cons r rest ih =>
    obtain ⟨hr, hrest⟩ := List.forall_mem_cons.mp h
    rw [performedFirst]
    split
    · exact hr s
    · exact ih hrest

theorem EveryEffect.performed {r : Rule} (h : r.EveryEffect P) (s : Snapshot) :
    ∀ f ∈ performed c e r s, P f := by
  induction r generalizing s with
  | simple head effects => exact everyEffect_simple_iff.mp h
  | all head children ih =>
    exact forall_mem_performedAll s fun r hr s => ih r hr (everyEffect_all_iff.mp h r hr) s
  | any head children ih =>
    exact forall_mem_performedFirst s fun r hr s => ih r hr (everyEffect_any_iff.mp h r hr) s

end EveryEffect

end Rule

end BoardGame
