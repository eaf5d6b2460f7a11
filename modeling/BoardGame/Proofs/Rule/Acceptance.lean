import BoardGame.Proofs.Phase.Agenda
import BoardGame.Proofs.Rule.Check

/-!
Which events a rule accepts, said without verdicts and without the types that rules over children infer.
Such a rule has a type only where all its children have that one, so it accepts nothing that the types
keep from it: checking is exact, and an agenda that looks rules up by type overlooks none that accepts.
-/

namespace BoardGame.Rule

/-- The types of rules over children are not consulted. -/
inductive Accepts (c : Setting) (s : Snapshot) (e : Event) : Rule → Prop
  | simple {head effects} (htype : ∀ type ∈ head.type, e.type = type)
      (hguard : head.Permits c s e) : Accepts c s e (.simple head effects)
  | all {head children} (hguard : head.Permits c s e)
      (hchildren : ∀ r ∈ children, Accepts c s e r) : Accepts c s e (.all head children)
  | any {head children r} (hguard : head.Permits c s e) (hr : r ∈ children)
      (hchild : Accepts c s e r) : Accepts c s e (.any head children)

inductive Constructed : Rule → Prop
  | new (id) : Constructed (new id)
  | on (type id) : Constructed (on type id)
  | allOf (id) {children} (h : ∀ r ∈ children, Constructed r) : Constructed (allOf id children)
  | anyOf (id) {children} (h : ∀ r ∈ children, Constructed r) : Constructed (anyOf id children)
  | require {r} (h : Constructed r) (g) : Constructed (r.require g)
  | perform {r r' f} (h : Constructed r) (hr : r.perform? f = .ok r') : Constructed r'
  | withPriority {r} (h : Constructed r) (priority) : Constructed (r.withPriority priority)

/-- The simple rules that were begun as rules for a type of event. -/
inductive BegunOn (type : EventType) : Rule → Prop
  | on (id) : BegunOn type (on type id)
  | require {r} (h : BegunOn type r) (g) : BegunOn type (r.require g)
  | perform {r r' f} (h : BegunOn type r) (hr : r.perform? f = .ok r') : BegunOn type r'
  | withPriority {r} (h : BegunOn type r) (priority) : BegunOn type (r.withPriority priority)

/-- Every rule over children, however deep, has the type that its children have in common. -/
inductive Typed : Rule → Prop
  | simple (head effects) : Typed (.simple head effects)
  | all {head children} (htype : head.type = commonType children)
      (hchildren : ∀ r ∈ children, Typed r) : Typed (.all head children)
  | any {head children} (htype : head.type = commonType children)
      (hchildren : ∀ r ∈ children, Typed r) : Typed (.any head children)

variable {c : Setting} {s : Snapshot} {e : Event} {r r' : Rule} {type : EventType} {f : Effect}
  {children : List Rule}

theorem commonType_eq_some_iff :
    commonType children = some type ↔ children ≠ [] ∧ ∀ r ∈ children, r.type = some type := by
  cases children with
  | nil => simp [commonType]
  | cons r rest =>
    simp only [commonType, Option.bind_eq_bind, Option.bind_eq_some_iff, Option.ite_none_right_eq_some,
      List.all_eq_true, decide_eq_true_eq, Option.some.injEq, List.forall_mem_cons]
    constructor
    · rintro ⟨t, ht, hrest, rfl⟩
      exact ⟨List.cons_ne_nil _ _, ht, hrest⟩
    · rintro ⟨-, ht, hrest⟩
      exact ⟨type, ht, hrest, rfl⟩

/-! ### What later calls leave alone -/

@[simp] theorem type_require (r : Rule) (g : EventGuard) : (r.require g).type = r.type := by
  cases r <;> rfl

@[simp] theorem children_require (r : Rule) (g : EventGuard) :
    (r.require g).children = r.children := by
  cases r <;> rfl

@[simp] theorem type_withPriority (r : Rule) (priority : Priority) :
    (r.withPriority priority).type = r.type := by
  cases r <;> rfl

@[simp] theorem children_withPriority (r : Rule) (priority : Priority) :
    (r.withPriority priority).children = r.children := by
  cases r <;> rfl

theorem Typed.mapHead {g : RuleHead → RuleHead} (hg : ∀ head, (g head).type = head.type)
    (h : r.Typed) : (r.mapHead g).Typed := by
  cases h with
  | simple head effects => exact .simple _ _
  | all htype hchildren => exact .all ((hg _).trans htype) hchildren
  | any htype hchildren => exact .any ((hg _).trans htype) hchildren

theorem perform?_eq_ok (h : r.perform? f = .ok r') :
    ∃ head effects, r = .simple head effects ∧ r' = .simple head (effects ++ [f]) := by
  cases r with
  | simple head effects =>
    cases h
    exact ⟨head, effects, rfl, rfl⟩
  | all => cases h
  | any => cases h

theorem Constructed.typed (h : r.Constructed) : r.Typed := by
  induction h with
  | new | on => exact .simple _ _
  | allOf id h ih => exact .all rfl ih
  | anyOf id h ih => exact .any rfl ih
  | require h g ih => exact ih.mapHead fun _ => rfl
  | withPriority h priority ih => exact ih.mapHead fun _ => rfl
  | perform h hr ih =>
    obtain ⟨head, effects, -, rfl⟩ := perform?_eq_ok hr
    exact .simple _ _

/-! ### Types -/

theorem BegunOn.type_eq (h : r.BegunOn type) : r.type = some type := by
  induction h with
  | on id => rfl
  | require h g ih => rwa [type_require]
  | withPriority h priority ih => rwa [type_withPriority]
  | perform h hr ih =>
    obtain ⟨head, effects, rfl, rfl⟩ := perform?_eq_ok hr
    exact ih

theorem Typed.type_of_children (h : r.Typed) (hsome : r.children ≠ [])
    (hall : ∀ child ∈ r.children, child.type = some type) : r.type = some type := by
  cases h with
  | simple => exact absurd rfl hsome
  | all htype => exact htype.trans (commonType_eq_some_iff.mpr ⟨hsome, hall⟩)
  | any htype => exact htype.trans (commonType_eq_some_iff.mpr ⟨hsome, hall⟩)

/-- A rule has a type because it was begun with it or because its children agree on it. -/
theorem Constructed.type_eq_some_iff (h : r.Constructed) :
    r.type = some type ↔
      r.BegunOn type ∨ (r.children ≠ [] ∧ ∀ child ∈ r.children, child.type = some type) := by
  constructor
  · intro htype
    induction h with
    | new => cases htype
    | on t id =>
      cases htype
      exact .inl (.on id)
    | allOf | anyOf => exact .inr (commonType_eq_some_iff.mp htype)
    | require h g ih =>
      rw [type_require] at htype
      rw [children_require]
      exact (ih htype).imp_left fun hbegun => hbegun.require g
    | withPriority h priority ih =>
      rw [type_withPriority] at htype
      rw [children_withPriority]
      exact (ih htype).imp_left fun hbegun => hbegun.withPriority priority
    | perform h hr ih =>
      obtain ⟨head, effects, rfl, rfl⟩ := perform?_eq_ok hr
      rcases ih htype with hbegun | ⟨hsome, -⟩
      · exact .inl (hbegun.perform hr)
      · exact absurd rfl hsome
  · rintro (hbegun | ⟨hsome, hall⟩)
    · exact hbegun.type_eq
    · exact h.typed.type_of_children hsome hall

/-- A rule with a type accepts events of that type alone, whatever its children are made for. -/
theorem Accepts.type_eq (haccepts : Accepts c s e r) (h : r.Typed) (htype : r.type = some type) :
    e.type = type := by
  induction haccepts with
  | simple hadmits => exact hadmits type htype
  | all hguard hchildren ih =>
    cases h with
    | all hcommon hall =>
      obtain ⟨hsome, htypes⟩ := commonType_eq_some_iff.mp (hcommon.symm.trans htype)
      obtain ⟨child, hchild⟩ := List.exists_mem_of_ne_nil _ hsome
      exact ih child hchild (hall child hchild) (htypes child hchild)
  | any hguard hr hchild ih =>
    cases h with
    | any hcommon hall =>
      obtain ⟨-, htypes⟩ := commonType_eq_some_iff.mp (hcommon.symm.trans htype)
      exact ih (hall _ hr) (htypes _ hr)

theorem Accepts.admits (haccepts : Accepts c s e r) (h : r.Typed) : r.head.admits e = true :=
  RuleHead.admits_iff.mpr fun _ htype => haccepts.type_eq h htype

theorem Typed.isValid_check_iff (h : r.Typed) :
    (check c s e r).value.isValid = true ↔ Accepts c s e r := by
  induction h with
  | simple head effects =>
    rw [isValid_check_simple, RuleHead.admits_iff]
    constructor
    · rintro ⟨htype, hguard⟩
      exact .simple htype hguard
    · rintro ⟨htype, hguard⟩
      exact ⟨htype, hguard⟩
  | all htype hchildren ih =>
    rw [isValid_check_all]
    constructor
    · rintro ⟨-, hguard, hall⟩
      exact .all hguard fun r hr => (ih r hr).mp (hall r hr)
    · intro haccepts
      have hadmits := haccepts.admits (.all htype hchildren)
      cases haccepts with
      | all hguard hall => exact ⟨hadmits, hguard, fun r hr => (ih r hr).mpr (hall r hr)⟩
  | any htype hchildren ih =>
    rw [isValid_check_any]
    constructor
    · rintro ⟨-, hguard, r, hr, hvalid⟩
      exact .any hguard hr ((ih r hr).mp hvalid)
    · intro haccepts
      have hadmits := haccepts.admits (.any htype hchildren)
      cases haccepts with
      | any hguard hr hchild => exact ⟨hadmits, hguard, _, hr, (ih _ hr).mpr hchild⟩

theorem exists_candidate_of_admits {root : Phase} {p : LeafPhase} (indexed : Bool)
    (hp : p ∈ root.leaves) (hadmits : p.rule.head.admits e = true) :
    ∃ entry ∈ (Agenda.ofPhase root indexed).candidates e.type, entry.phase = p := by
  have hlists := Agenda.lists_ofPhase root indexed
  rw [← hlists.map_phase, List.mem_map] at hp
  obtain ⟨entry, hentry, rfl⟩ := hp
  refine ⟨entry, ?_, rfl⟩
  rw [hlists.candidates_eq, List.mem_filter]
  refine ⟨hentry, ?_⟩
  by_contra hout
  obtain ⟨t, ht, hne⟩ := AgendaEntry.type_ne_of_left_out hout
  obtain ⟨p, i, rfl⟩ := hlists.eq_entryOf hentry
  exact hne (RuleHead.admits_iff.mp hadmits t ht)

/-- Checking a rule is exact, and the type that is inferred for it is cautious: it is that of a simple rule
begun with it, or one that all children have, of which there are some; and events of another type, on
which the rule has no opinion then, are none that it would accept. So neither a check nor the agenda of any
game, indexed by type or not, passes over a rule that accepts the event. -/
theorem check_exact (h : r.Constructed) (c : Setting) (s : Snapshot) (e : Event) :
    ((check c s e r).value.isValid = true ↔ Accepts c s e r) ∧
    (∀ type, r.type = some type ↔
      r.BegunOn type ∨ (r.children ≠ [] ∧ ∀ child ∈ r.children, child.type = some type)) ∧
    (∀ type, r.type = some type → e.type ≠ type →
      (check c s e r).value = .ignore ∧ ¬ Accepts c s e r) ∧
    (Accepts c s e r → r.head.admits e = true ∧
      ∀ (root : Phase) (indexed : Bool), ∀ p ∈ root.leaves, p.rule = r →
        ∃ entry ∈ (Agenda.ofPhase root indexed).candidates e.type, entry.phase = p) := by
  refine ⟨h.typed.isValid_check_iff, fun type => h.type_eq_some_iff, ?_, ?_⟩
  · intro type htype hne
    have hadmits : r.head.admits e = false := by
      rw [Bool.eq_false_iff, Ne, RuleHead.admits_iff]
      exact fun hall => hne (hall type htype)
    exact ⟨value_check_of_not_admits hadmits, fun haccepts => hne (haccepts.type_eq h.typed htype)⟩
  · intro haccepts
    have hadmits := haccepts.admits h.typed
    refine ⟨hadmits, fun root indexed p hp hrule => ?_⟩
    exact exists_candidate_of_admits indexed hp (hrule ▸ hadmits)

/-- A choice between a rule that is never valid and a pair of rules; all are begun on the end of a turn. -/
def fork : Rule :=
  (anyOf "either" [(on .endTurn "never").require (.test .never),
    allOf "both" [on .endTurn "first", (on .endTurn "second").require (.test .always)]]).require
      (.test .always)

theorem fork_constructed : fork.Constructed := by
  refine .require (.anyOf _ (List.forall_mem_cons.mpr ⟨.require (.on _ _) _, ?_⟩)) _
  refine List.forall_mem_singleton.mpr (.allOf _ (List.forall_mem_cons.mpr ⟨.on _ _, ?_⟩))
  exact List.forall_mem_singleton.mpr (.require (.on _ _) _)

/-- The end of a turn is accepted by way of the pair, though a child rejects it; rolling dice is not the
fork's concern. -/
theorem fork_on_endTurn :
    let c : Setting := ⟨{}, fun _ _ _ => none⟩
    let s : Snapshot := .seeded 0
    fork.Constructed ∧ fork.type = some .endTurn ∧ Accepts c s .endTurn fork ∧
    (check c s (.rollDice []) fork).value = .ignore ∧ ¬ Accepts c s (.rollDice []) fork := by
  intro c s
  obtain ⟨hexact, -⟩ := check_exact fork_constructed c s .endTurn
  obtain ⟨-, -, hother, -⟩ := check_exact fork_constructed c s (.rollDice [])
  exact ⟨fork_constructed, rfl, hexact.mp (by decide), hother .endTurn rfl (by decide)⟩

end BoardGame.Rule
