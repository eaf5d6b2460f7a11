import BoardGame.Proofs.Guard.Requirements
import BoardGame.Proofs.Setup.Layout

/-!
What requirements come to. Rules and phases are begun without conditions, and what is required of them one
after another is required together. A phase is taken to apply always, and is not asked, just if nothing in
its guard is open to question and it applies.
-/

namespace BoardGame

/-- A test keeps to the outcome that it declares, whatever event it is asked about. -/
def EventTest.KeepsDeclared (t : EventTest) : Prop :=
  ∀ c s e o, t.declared = some o → (t.judge c s e).outcome = o

namespace Rule

/-- The rules that nothing has been required of yet. -/
inductive Fresh : Rule → Prop
  | new (id) : Fresh (new id)
  | on (type id) : Fresh (on type id)
  | allOf (id children) : Fresh (allOf id children)
  | anyOf (id children) : Fresh (anyOf id children)

theorem Fresh.guard_eq {r : Rule} (h : r.Fresh) : r.guard = EventGuard.always := by
  cases h <;> rfl

theorem guard_foldl_require (r : Rule) (cs : List EventGuard) :
    (cs.foldl require r).guard = cs.foldl (Guard.require EventTest.declared) r.guard := by
  induction cs generalizing r with
  | nil => rfl
  | cons g rest ih =>
    have hguard : (r.require g).guard = Guard.require EventTest.declared r.guard g := by
      cases r <;> rfl
    rw [List.foldl_cons, ih, hguard, List.foldl_cons]

end Rule

theorem LeafDecl.guard_foldl_require (p : LeafDecl) (cs : List StateGuard) :
    (cs.foldl LeafDecl.require p).guard = cs.foldl (Guard.require StateTest.declared) p.guard := by
  induction cs generalizing p with
  | nil => rfl
  | cons g rest ih => exact ih (p.require g)

namespace EventGuard

theorem keep_always (c : Setting) (s : Snapshot) (e : Event) :
    Guard.Keep EventTest.declared (EventTest.ask c s e) always.tests := by
  intro t ht o ho
  obtain rfl := List.mem_singleton.mp ht
  cases ho
  rfl

end EventGuard

namespace StateGuard

theorem keep_always (c : Setting) (s : Snapshot) :
    Guard.Keep StateTest.declared (StateTest.ask c s) always.tests := by
  intro t ht o ho
  obtain rfl := List.mem_singleton.mp ht
  cases ho
  rfl

theorem isAlwaysValid_iff {g : StateGuard} {c : Setting} {s : Snapshot}
    (hkeep : Guard.Keep StateTest.declared (StateTest.ask c s) g.tests) :
    isAlwaysValid g = true ↔
      (∀ t ∈ g.tests, t.declared.isSome = true) ∧ (ask c s g).value.isValid = true := by
  rw [isAlwaysValid, decide_eq_true_eq, Verdict.isValid, decide_eq_true_eq]
  exact Guard.settled?_eq_some_iff hkeep

end StateGuard

theorem Blueprint.lists_of_build {b : Blueprint} {start : Session} {agenda : Agenda}
    (h : b.build = .ok start) (hagenda : start.engine.agenda = some agenda) :
    agenda.Lists b.config.indexTypes start.engine.phases.leaves := by
  rw [agenda_of_build h] at hagenda
  obtain ⟨-, hplanned⟩ := Option.ite_none_right_eq_some.mp hagenda
  cases hplanned
  exact Agenda.lists_ofPhase start.engine.phases b.config.indexTypes

/-- Whatever is required of a rule or of a phase, one guard after another, its guard runs as the
conjunction of them. An agenda takes a phase to apply always just if its guard, made in that way, holds no
test but such as declare what they answer, and is valid. -/
theorem requirements_conjoin :
    (∀ cs : List EventGuard, (∀ g ∈ cs, ∀ t ∈ g.tests, t.KeepsDeclared) →
      ∀ r : Rule, r.Fresh → ∀ c s e,
        Guard.Conjoins EventTest.declared (EventTest.ask c s e) (cs.foldl Rule.require r).guard cs) ∧
    ∀ cs : List StateGuard, (∀ g ∈ cs, ∀ t ∈ g.tests, t.KeepsDeclared) →
      ∀ (id : PhaseId) (rule : Rule),
        let p := cs.foldl LeafDecl.require { id, rule }
        (∀ c s, Guard.Conjoins StateTest.declared (StateTest.ask c s) p.guard cs) ∧
        ∀ (b : Blueprint) (start : Session) (agenda : Agenda), b.build = .ok start →
          p ∈ PhaseDecl.leavesOf b.phases → start.engine.agenda = some agenda →
          (∃ entry ∈ agenda.entries, entry.phase.decl = p) ∧
          ∀ entry ∈ agenda.entries, entry.phase.decl = p → ∀ c s,
            (entry.alwaysActive = true ↔ (∀ t ∈ p.guard.tests, t.declared.isSome = true) ∧
              (StateGuard.ask c s p.guard).value.isValid = true) := by
  constructor
  · intro cs hcs r hr c s e
    rw [Rule.guard_foldl_require, hr.guard_eq]
    have halways := EventGuard.keep_always c s e
    have hkeep : ∀ g ∈ cs, Guard.Keep EventTest.declared (EventTest.ask c s e) g.tests :=
      fun g hg t ht o ho => hcs g hg t ht c s e o ho
    exact Guard.conjoins_foldl_require (Guard.conjoins_nil halways rfl) halways hkeep
  · intro cs hcs id rule p
    have hguard : p.guard = cs.foldl (Guard.require StateTest.declared) StateGuard.always :=
      LeafDecl.guard_foldl_require _ cs
    have hkeep : ∀ c s, ∀ g ∈ cs, Guard.Keep StateTest.declared (StateTest.ask c s) g.tests :=
      fun c s g hg t ht o ho => hcs g hg t ht c s o ho
    refine ⟨fun c s => ?_, fun b start agenda hbuild hp hagenda => ⟨?_, ?_⟩⟩
    · have halways := StateGuard.keep_always c s
      rw [hguard]
      exact Guard.conjoins_foldl_require (Guard.conjoins_nil halways rfl) halways (hkeep c s)
    · have hlists := Blueprint.lists_of_build hbuild hagenda
      rw [← Blueprint.map_decl_leaves_of_build hbuild, ← hlists.map_phase, List.map_map] at hp
      obtain ⟨entry, hentry, hdecl⟩ := List.mem_map.mp hp
      exact ⟨entry, hentry, hdecl⟩
    · intro entry hentry hdecl c s
      obtain ⟨q, i, rfl⟩ := (Blueprint.lists_of_build hbuild hagenda).eq_entryOf hentry
      have hflag : (Agenda.entryOf q i).alwaysActive = StateGuard.isAlwaysValid p.guard :=
        congrArg (fun d : LeafDecl => StateGuard.isAlwaysValid d.guard) hdecl
      rw [hflag]
      apply StateGuard.isAlwaysValid_iff
      rw [hguard]
      exact Guard.keep_foldl_require (StateGuard.keep_always c s) (hkeep c s)

/-- No opinion before dusk, and it is never dusk. -/
def dusk : EventTest := .custom { name := "dusk", judge := fun _ _ _ => .ignoring "too early" }

/-- The first guard is settled and the second a conjunction. -/
def curfew : List EventGuard := [.any [.test .never, .test .always], .all [.test dusk], .test .never]

theorem curfew_keepsDeclared : ∀ g ∈ curfew, ∀ t ∈ g.tests, t.KeepsDeclared := by
  intro g hg t ht c s e o ho
  have htests : ∀ g ∈ curfew, ∀ t ∈ g.tests, t = .never ∨ t = .always ∨ t = dusk := by
    simp [curfew, Guard.tests, Guard.testsOf]
  rcases htests g hg t ht with rfl | rfl | rfl <;> cases ho <;> rfl

/-- Nothing in the guard of this phase is open to question. -/
def nightGuards : List StateGuard := [.test .always, .none [.test .never]]

/-- A phase that applies always, and one that depends on whose turn it is. -/
def vigil : Blueprint where
  players := ["white"]
  phases := [
    .leaf (nightGuards.foldl LeafDecl.require { id := "night", rule := Rule.new "sleep" }),
    .leaf { id := "day", guard := .test (.activePlayerIs "white"), rule := Rule.new "work" }]

/-- The first guard of the curfew is dropped and the second extended; it runs as the conjunction of all
three. The night is taken to apply always. -/
theorem vigil_conjoins :
    (∀ g ∈ curfew, ∀ t ∈ g.tests, t.KeepsDeclared) ∧
    (curfew.foldl Rule.require (Rule.on .endTurn "pass")).guard = .all [.test dusk, .test .never] ∧
    (∀ c s e, Guard.Conjoins EventTest.declared (EventTest.ask c s e)
      (.all [.test dusk, .test .never]) curfew) ∧
    ∃ start agenda, vigil.build = .ok start ∧ start.engine.agenda = some agenda ∧
      ∃ entry ∈ agenda.entries, entry.phase.id = "night" ∧ entry.alwaysActive = true := by
  obtain ⟨hrules, hphases⟩ := requirements_conjoin
  have hnight : ∀ g ∈ nightGuards, ∀ t ∈ g.tests, t.KeepsDeclared := by
    intro g hg t ht
    apply StateTest.keepsDeclared_of_builtin
    have htests : ∀ g ∈ nightGuards, ∀ t ∈ g.tests, t = .always ∨ t = .never := by
      simp [nightGuards, Guard.tests, Guard.testsOf]
    rcases htests g hg t ht with rfl | rfl <;> simp
  refine ⟨curfew_keepsDeclared, rfl, fun c s e => ?_, _, _, rfl, rfl, ?_⟩
  · exact hrules curfew curfew_keepsDeclared (Rule.on .endTurn "pass") (.on _ _) c s e
  · obtain ⟨-, hflags⟩ := hphases nightGuards hnight "night" (Rule.new "sleep")
    obtain ⟨⟨entry, hentry, hdecl⟩, hflag⟩ :=
      hflags vigil _ _ rfl (List.mem_cons_self ..) rfl
    refine ⟨entry, hentry, congrArg LeafDecl.id hdecl, ?_⟩
    refine (hflag entry hentry hdecl ⟨{}, fun _ _ _ => none⟩ (.seeded 0)).mpr ⟨?_, by decide⟩
    intro t ht
    obtain rfl := List.mem_singleton.mp ht
    rfl

end BoardGame
