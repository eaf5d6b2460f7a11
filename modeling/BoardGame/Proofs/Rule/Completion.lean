import BoardGame.Proofs.Rule.Performance

/-!
Whether a rule is carried out in full. A rule over `any` of its children is a choice: it looks for a valid
child when its turn comes, and without one it does nothing. Every choice that a valid rule comes to was
valid at some moment since the event came in; so it is without a valid child only where effects run since
then, for the same event, have left it none.
-/

namespace BoardGame

/-- A rule over `any` of its children, with the effects that are run before its turn comes. -/
structure Choice where
  head : RuleHead
  children : List Rule
  before : List Effect

namespace Choice

def rule (x : Choice) : Rule := .any x.head x.children

def after (effects : List Effect) (x : Choice) : Choice := { x with before := effects ++ x.before }

/-- A child is valid when the turn of the choice comes. -/
def Open (c : Setting) (e : Event) (s : Snapshot) (x : Choice) : Prop :=
  ∃ r ∈ x.children, (r.check c (Effect.runAll c e x.before s) e).value.isValid = true

/-- The choice was valid at some moment before its turn came. -/
def Promised (c : Setting) (e : Event) (s : Snapshot) (x : Choice) : Prop :=
  ∃ done, done <+: x.before ∧ (x.rule.check c (Effect.runAll c e done s) e).value.isValid = true

variable {c : Setting} {e : Event} {s : Snapshot} {x : Choice} {effects : List Effect}

theorem open_after_iff : (x.after effects).Open c e s ↔ x.Open c e (Effect.runAll c e effects s) := by
  simp only [Open, after, Effect.runAll_append]

theorem Promised.after (h : x.Promised c e (Effect.runAll c e effects s)) :
    (x.after effects).Promised c e s := by
  obtain ⟨done, hdone, hvalid⟩ := h
  refine ⟨effects ++ done, (List.prefix_append_right_inj effects).mpr hdone, ?_⟩
  rwa [Effect.runAll_append]

theorem Promised.open_of_no_effects (h : x.Promised c e s) (hbefore : x.before = []) :
    x.Open c e s := by
  obtain ⟨done, hdone, hvalid⟩ := h
  rw [hbefore, List.prefix_nil] at hdone
  rw [hdone] at hvalid
  obtain ⟨-, -, hchild⟩ := Rule.isValid_check_any.mp hvalid
  rw [Open, hbefore]
  exact hchild

/-- Where not everything is carried out, a choice that was valid once has been lost. -/
theorem exists_lost {completes : Bool} {choices : List Choice}
    (hcompletes : completes = true ↔ ∀ x ∈ choices, x.Open c e s) (hstuck : completes = false)
    (hpromised : ∀ x ∈ choices, x.Promised c e s) :
    ∃ x ∈ choices, x.Promised c e s ∧ ¬x.Open c e s := by
  have hsome : ¬∀ x ∈ choices, x.Open c e s := fun hall => by simp [hcompletes.mpr hall] at hstuck
  push Not at hsome
  obtain ⟨x, hx, hclosed⟩ := hsome
  exact ⟨x, hx, hpromised x hx, hclosed⟩

end Choice

namespace Rule

mutual

def choices (c : Setting) (e : Event) : Rule → Snapshot → List Choice
  | simple _ _, _ => []
  | all _ children, s => choicesAll c e children s
  | any head children, s => ⟨head, children, []⟩ :: choicesFirst c e children s

def choicesAll (c : Setting) (e : Event) : List Rule → Snapshot → List Choice
  | [], _ => []
  | r :: rest, s =>
    choices c e r s ++
      (choicesAll c e rest (apply c e r s).value).map (Choice.after (performed c e r s))

def choicesFirst (c : Setting) (e : Event) : List Rule → Snapshot → List Choice
  | [], _ => []
  | r :: rest, s =>
    if (check c s e r).value.isValid then choices c e r s else choicesFirst c e rest s

end

mutual

/-- Whether carrying out a rule finds a valid child for every choice that it comes to. -/
def completes (c : Setting) (e : Event) : Rule → Snapshot → Bool
  | simple _ _, _ => true
  | all _ children, s => completesAll c e children s
  | any _ children, s => completesFirst c e children s

def completesAll (c : Setting) (e : Event) : List Rule → Snapshot → Bool
  | [], _ => true
  | r :: rest, s => completes c e r s && completesAll c e rest (apply c e r s).value

def completesFirst (c : Setting) (e : Event) : List Rule → Snapshot → Bool
  | [], _ => false
  | r :: rest, s =>
    if (check c s e r).value.isValid then completes c e r s else completesFirst c e rest s

end

variable {c : Setting} {e : Event} {children : List Rule} {r : Rule} {s : Snapshot}

theorem first_valid_or_none (c : Setting) (e : Event) (children : List Rule) (s : Snapshot) :
    (∃ r ∈ children, (check c s e r).value.isValid = true ∧
      completesFirst c e children s = completes c e r s ∧
      choicesFirst c e children s = choices c e r s ∧
      performedFirst c e children s = performed c e r s) ∨
    (∀ r ∈ children, (check c s e r).value.isValid = false) ∧
      completesFirst c e children s = false ∧ choicesFirst c e children s = [] := by
  induction children with
  | nil => exact Or.inr ⟨List.forall_mem_nil _, rfl, rfl⟩
  | cons r rest ih =>
    rw [completesFirst, choicesFirst, performedFirst]
    cases hvalid : (check c s e r).value.isValid with
    | true => exact Or.inl ⟨r, List.mem_cons_self .., hvalid, rfl, rfl, rfl⟩
    | false =>
      refine ih.imp ?_ fun hnone => ⟨List.forall_mem_cons.mpr ⟨hvalid, hnone.1⟩, hnone.2⟩
      rintro ⟨found, hmem, hfound⟩
      exact ⟨found, List.mem_cons_of_mem r hmem, hfound⟩

theorem forall_mem_choicesAll_cons_iff {P : Choice → Prop} {rest : List Rule} :
    (∀ x ∈ choicesAll c e (r :: rest) s, P x) ↔
      (∀ x ∈ choices c e r s, P x) ∧
      ∀ x ∈ choicesAll c e rest (Effect.runAll c e (performed c e r s) s),
        P (x.after (performed c e r s)) := by
  rw [choicesAll, List.forall_mem_append, List.forall_mem_map, value_apply]

theorem completesAll_iff
    (hchildren : ∀ r ∈ children, ∀ s, completes c e r s = true ↔
      ∀ x ∈ choices c e r s, x.Open c e s) (s : Snapshot) :
    completesAll c e children s = true ↔ ∀ x ∈ choicesAll c e children s, x.Open c e s := by
  induction children generalizing s with
  | nil => simp [completesAll, choicesAll]
  | cons r rest ih =>
    obtain ⟨hr, hrest⟩ := List.forall_mem_cons.mp hchildren
    rw [completesAll, Bool.and_eq_true, hr, value_apply, ih hrest, forall_mem_choicesAll_cons_iff]
    simp only [Choice.open_after_iff]

/-- A rule is carried out in full when every choice that it comes to has a valid child. -/
theorem completes_iff (r : Rule) (s : Snapshot) :
    completes c e r s = true ↔ ∀ x ∈ choices c e r s, x.Open c e s := by
  induction r generalizing s with
  | simple head effects => simp [completes, choices]
  | all head children ih => exact completesAll_iff ih s
  | any head children ih =>
    rw [completes, choices, List.forall_mem_cons]
    rcases first_valid_or_none c e children s with
      ⟨r, hr, hvalid, hcompletes, hchoices, -⟩ | ⟨hnone, hcompletes, -⟩
    · have hopen : Choice.Open c e s ⟨head, children, []⟩ := ⟨r, hr, hvalid⟩
      rw [hcompletes, hchoices, ih r hr]
      exact (and_iff_right hopen).symm
    · rw [hcompletes]
      refine iff_of_false Bool.false_ne_true ?_
      rintro ⟨⟨r, hr, hvalid⟩, -⟩
      exact Bool.false_ne_true ((hnone r hr).symm.trans hvalid)

theorem before_prefix_performedAll
    (hchildren : ∀ r ∈ children, ∀ s, ∀ x ∈ choices c e r s, x.before <+: performed c e r s)
    (s : Snapshot) : ∀ x ∈ choicesAll c e children s, x.before <+: performedAll c e children s := by
  induction children generalizing s with
  | nil => exact List.forall_mem_nil _
  | cons r rest ih =>
    obtain ⟨hr, hrest⟩ := List.forall_mem_cons.mp hchildren
    rw [performedAll, value_apply]
    refine forall_mem_choicesAll_cons_iff.mpr ⟨fun x hx => ?_, fun x hx => ?_⟩
    · exact (hr s x hx).trans (List.prefix_append _ _)
    · exact (List.prefix_append_right_inj _).mpr (ih hrest _ x hx)

theorem before_prefix_performed (r : Rule) (s : Snapshot) :
    ∀ x ∈ choices c e r s, x.before <+: performed c e r s := by
  induction r generalizing s with
  | simple head effects => exact List.forall_mem_nil _
  | all head children ih => exact before_prefix_performedAll ih s
  | any head children ih =>
    rw [choices, performed, List.forall_mem_cons]
    refine ⟨List.nil_prefix, ?_⟩
    rcases first_valid_or_none c e children s with
      ⟨r, hr, -, -, hchoices, hperformed⟩ | ⟨-, -, hchoices⟩
    · rw [hchoices, hperformed]
      exact ih r hr s
    · rw [hchoices]
      exact List.forall_mem_nil _

theorem promised_choicesAll
    (hchildren : ∀ r ∈ children, ∀ before, ∀ x ∈ choices c e r (Effect.runAll c e before s),
      (x.after before).Promised c e s) (before : List Effect) :
    ∀ x ∈ choicesAll c e children (Effect.runAll c e before s),
      (x.after before).Promised c e s := by
  induction children generalizing before with
  | nil => exact List.forall_mem_nil _
  | cons r rest ih =>
    obtain ⟨hr, hrest⟩ := List.forall_mem_cons.mp hchildren
    refine forall_mem_choicesAll_cons_iff.mpr ⟨hr before, fun x hx => ?_⟩
    rw [← Effect.runAll_append] at hx
    have hpromised := ih hrest _ x hx
    rwa [Choice.after, List.append_assoc] at hpromised

/-- Every choice that a valid rule comes to was valid at some moment since, even if the rule is carried out
only after other effects. -/
theorem promised_choices (hvalid : (check c s e r).value.isValid = true) (before : List Effect) :
    ∀ x ∈ choices c e r (Effect.runAll c e before s), (x.after before).Promised c e s := by
  induction r generalizing s before with
  | simple head effects => exact List.forall_mem_nil _
  | all head children ih =>
    obtain ⟨-, -, hall⟩ := isValid_check_all.mp hvalid
    exact promised_choicesAll (fun r hr => ih r hr (hall r hr)) before
  | any head children ih =>
    rw [choices, List.forall_mem_cons]
    refine ⟨⟨[], List.nil_prefix, hvalid⟩, ?_⟩
    rcases first_valid_or_none c e children (Effect.runAll c e before s) with
      ⟨r, hr, hrvalid, -, hchoices, -⟩ | ⟨-, -, hchoices⟩
    · -- the child was found valid just now, so its own choices are promised from here on
      rw [hchoices]
      intro x hx
      exact Choice.Promised.after (ih r hr hrvalid [] x hx)
    · rw [hchoices]
      exact List.forall_mem_nil _

end Rule

end BoardGame
