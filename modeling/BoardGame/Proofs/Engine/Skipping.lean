import BoardGame.Proofs.Engine.Trace
import BoardGame.Proofs.Setup.Requirements

/-!
Asking in spite of the agenda. An agenda marks the phases whose guards are settled on being valid, and an
event gets to their rules without asking the guards. Asking all the same comes to the answer that the guard
is settled on and tells an observer nothing, so an engine that goes back to asking any of these guards
evaluates every event to the same end, with the same notices. Only the notes of the tests show that it did.
-/

namespace BoardGame

namespace Noted

variable {α β σ : Type}

/-- The same result and the same notices, whatever tests have been asked on the way. -/
structure SeenAlike (x y : Noted Note α) : Prop where
  value_eq : x.value = y.value
  notices_eq : x.notices = y.notices

namespace SeenAlike

variable {x y : Noted Note α}

theorem refl (x : Noted Note α) : x.SeenAlike x := ⟨rfl, rfl⟩

theorem bind {f g : α → Noted Note β} (h : x.SeenAlike y) (hfg : ∀ a, (f a).SeenAlike (g a)) :
    (x >>= f).SeenAlike (y >>= g) := by
  obtain ⟨hvalue, hnotices⟩ := h
  constructor
  · rw [value_bind, value_bind, hvalue, (hfg y.value).value_eq]
  · rw [notices_bind, notices_bind, hvalue, hnotices, (hfg y.value).notices_eq]

theorem asking_bind (x : Noted String α) (f : α → Noted Note β) :
    (x.asking >>= f).SeenAlike (f x.value) := by
  constructor
  · rw [value_bind]
    rfl
  · rw [notices_bind, notices_asking, List.nil_append]
    rfl

theorem foldlM_map {f : σ → α → Noted Note σ} {r : α → α} {l : List α}
    (h : ∀ a ∈ l, ∀ x, (f x (r a)).SeenAlike (f x a)) (x : σ) :
    ((l.map r).foldlM f x).SeenAlike (l.foldlM f x) := by
  induction l generalizing x with
  | nil => exact refl _
  | cons a rest ih =>
    obtain ⟨ha, hrest⟩ := List.forall_mem_cons.mp h
    rw [List.map_cons, List.foldlM_cons, List.foldlM_cons]
    exact (ha x).bind (ih hrest)

end SeenAlike

end Noted

/-- The entry, with its guard to be asked each time if it is among those chosen. -/
def AgendaEntry.asking (chosen : AgendaEntry → Bool) (entry : AgendaEntry) : AgendaEntry :=
  { entry with alwaysActive := entry.alwaysActive && !chosen entry }

namespace Agenda

variable {agenda : Agenda} {chosen : AgendaEntry → Bool}

def asking (chosen : AgendaEntry → Bool) (agenda : Agenda) : Agenda :=
  { agenda with entries := agenda.entries.map (AgendaEntry.asking chosen) }

theorem candidates_asking (type : EventType) : (agenda.asking chosen).candidates type =
    (agenda.candidates type).map (AgendaEntry.asking chosen) := by
  have hcursor : (agenda.asking chosen).cursor type = agenda.cursor type := rfl
  rw [candidates, candidates, hcursor, List.map_filterMap]
  refine List.filterMap_congr fun i _ => ?_
  exact List.getElem?_map

theorem mem_entries_of_mem_candidates {type : EventType} {entry : AgendaEntry}
    (h : entry ∈ agenda.candidates type) : entry ∈ agenda.entries := by
  obtain ⟨i, -, hi⟩ := List.mem_filterMap.mp h
  exact List.mem_of_getElem? hi

end Agenda

namespace Engine

variable {e : Engine} {s : Snapshot} {event : Event} {agenda : Agenda} {chosen : AgendaEntry → Bool}

def asking (chosen : AgendaEntry → Bool) (e : Engine) : Engine :=
  { e with agenda := e.agenda.map (Agenda.asking chosen) }

/-- The marked entries among those chosen are valid whatever they are asked about. -/
def SkipsValid (e : Engine) (agenda : Agenda) (chosen : AgendaEntry → Bool) : Prop :=
  ∀ entry ∈ agenda.entries, entry.alwaysActive = true → chosen entry = true →
    ∀ s, e.applies s entry.phase = true

theorem visit_asking {entry : AgendaEntry} {scan : Scan}
    (hvalid : entry.alwaysActive = true → chosen entry = true → e.applies s entry.phase = true) :
    (e.visit s event scan (entry.asking chosen)).SeenAlike (e.visit s event scan entry) := by
  have hphase : (entry.asking chosen).phase = entry.phase := rfl
  have hflag : (entry.asking chosen).alwaysActive = (entry.alwaysActive && !chosen entry) := rfl
  rw [visit, visit, hphase, hflag]
  by_cases hasked : entry.alwaysActive = true ∧ chosen entry = true
  · obtain ⟨hmarked, hchosen⟩ := hasked
    have hasks : (entry.phase.ask e.setting s).value.isValid = true := hvalid hmarked hchosen
    rw [hmarked, hchosen, Bool.not_true, Bool.and_false, if_neg Bool.false_ne_true, if_pos rfl]
    have hseen := Noted.SeenAlike.asking_bind (entry.phase.ask e.setting s) fun v =>
      if v.isValid then e.consider s event scan entry.phase
      else do
        Noted.note (.notice (.inactive entry.phase.id v))
        pure scan
    rwa [if_pos hasks] at hseen
  · have hsame : (entry.alwaysActive && !chosen entry) = entry.alwaysActive := by
      cases hmarked : entry.alwaysActive with
      | false => rfl
      | true =>
        have hspared : chosen entry = false :=
          eq_false_of_ne_true fun hchosen => hasked ⟨hmarked, hchosen⟩
        rw [hspared]
        rfl
    rw [hsame]
    exact .refl _

theorem scan_asking (hagenda : e.agenda = some agenda) (hvalid : e.SkipsValid agenda chosen) :
    ((e.asking chosen).scan s event).SeenAlike (e.scan s event) := by
  have hvisit : (e.asking chosen).visit s event = e.visit s event := rfl
  have hasked : (e.asking chosen).agenda = some (agenda.asking chosen) :=
    congrArg (Option.map (Agenda.asking chosen)) hagenda
  rw [scan, scan, hasked, hagenda]
  dsimp only
  rw [Agenda.candidates_asking, hvisit]
  refine .foldlM_map (fun entry hentry scan => visit_asking fun hmarked hchosen => ?_) _
  exact hvalid entry (Agenda.mem_entries_of_mem_candidates hentry) hmarked hchosen s

/-- After the scan nothing looks at the agenda. -/
theorem evaluate_asking (hagenda : e.agenda = some agenda) (hvalid : e.SkipsValid agenda chosen) :
    ((e.asking chosen).evaluate s event).SeenAlike (e.evaluate s event) :=
  (scan_asking hagenda hvalid).bind fun _ => .refl _

theorem interchangeable_asking (hagenda : e.agenda = some agenda)
    (hvalid : e.SkipsValid agenda chosen) : e.Interchangeable (e.asking chosen) :=
  ⟨fun _ _ => (evaluate_asking hagenda hvalid).value_eq, fun _ _ _ => rfl⟩

end Engine

/-- A guard is settled exactly when each of its tests declares what it answers, and then it is settled on
the outcome that asking it has, whatever it is asked about. So nothing is lost by not asking the phases
that an agenda marks: an engine that asks any number of them all the same takes every event to the same end
with the same notices, and every run to the same reports. -/
theorem settled_guards_need_no_asking :
    (∀ g : StateGuard,
      ((StateGuard.settled? g).isSome = true ↔ ∀ t ∈ g.tests, t.declared.isSome = true) ∧
      ((∀ t ∈ g.tests, t.KeepsDeclared) → ∀ o, StateGuard.settled? g = some o →
        ∀ c s, (StateGuard.ask c s g).value.outcome = o)) ∧
    (∀ g : EventGuard,
      ((EventGuard.settled? g).isSome = true ↔ ∀ t ∈ g.tests, t.declared.isSome = true) ∧
      ((∀ t ∈ g.tests, t.KeepsDeclared) → ∀ o, EventGuard.settled? g = some o →
        ∀ c s e, (EventGuard.ask c s e g).value.outcome = o)) ∧
    ∀ (b : Blueprint) (start : Session) (agenda : Agenda), b.build = .ok start →
      start.engine.agenda = some agenda → ∀ chosen : AgendaEntry → Bool,
        (∀ entry ∈ agenda.entries, entry.alwaysActive = true → chosen entry = true →
          ∀ t ∈ entry.phase.guard.tests, t.KeepsDeclared) →
        (∀ entry ∈ agenda.entries, entry.alwaysActive = true → chosen entry = true →
          ∀ c s, (entry.phase.ask c s).value.isValid = true) ∧
        ∀ p : Session, p.engine = start.engine → let p' := p.under (p.engine.asking chosen)
          (∀ call event,
            (p'.handle call event).value = (p.handle call event).value.map (·.under p'.engine) ∧
            (p'.handle call event).notices = (p.handle call event).notices) ∧
          ∀ call inputs, p'.run call inputs = p.run call inputs := by
  refine ⟨fun g => ⟨Guard.isSome_settled?_iff g, ?_⟩, fun g => ⟨Guard.isSome_settled?_iff g, ?_⟩, ?_⟩
  · intro hkeep o ho c s
    exact Guard.outcome_of_settled? g ho fun t ht o ho => hkeep t ht c s o ho
  · intro hkeep o ho c s e
    exact Guard.outcome_of_settled? g ho fun t ht o ho => hkeep t ht c s e o ho
  · intro b start agenda hbuild hagenda chosen hkeep
    have hlists := Blueprint.lists_of_build hbuild hagenda
    have hvalid : ∀ entry ∈ agenda.entries, entry.alwaysActive = true → chosen entry = true →
        ∀ c s, (entry.phase.ask c s).value.isValid = true := by
      intro entry hentry hmarked hchosen
      have hguard := hkeep entry hentry hmarked hchosen
      -- the mark is what the guard of the entry's leaf is settled on
      obtain ⟨q, i, rfl⟩ := hlists.eq_entryOf hentry
      exact StateGuard.isValid_of_isAlwaysValid hmarked hguard
    refine ⟨hvalid, fun p hengine => ?_⟩
    rw [← hengine] at hagenda
    have hskips : p.engine.SkipsValid agenda chosen := fun entry hentry hmarked hchosen =>
      hvalid entry hentry hmarked hchosen p.engine.setting
    have hinterchangeable := Engine.interchangeable_asking hagenda hskips
    refine ⟨fun call event => ⟨Session.value_handle_under hinterchangeable event, ?_⟩,
      fun call inputs => Session.run_interchanged hinterchangeable inputs⟩
    rw [Session.notices_handle, Session.notices_handle]
    exact (Engine.evaluate_asking hagenda hskips).notices_eq

/-- A door that is never shut, which notes each time that somebody looks. -/
def openDoor : CustomStateTest where
  name := "door"
  declared := some .valid
  watched := true
  judge := fun _ _ => .valid

/-- Of its parts the first is invalid and the last is never reached; neither has any tests. -/
def doorway : StateGuard := .any [.none [.all []], .test (.custom openDoor), .all []]

theorem doorway_keepsDeclared : ∀ t ∈ doorway.tests, t.KeepsDeclared := by
  intro t ht c s o ho
  obtain rfl := List.mem_singleton.mp ht
  exact Option.some.inj ho

/-- Valid because none of its parts is: two have no opinion and one rejects. -/
def unhindered : EventGuard := .none [.test .abstain, .any [], .test .never]

def hallway : Blueprint where
  phases := [
    .leaf { id := "hall", guard := doorway, rule := (Rule.on .endTurn "enter").require unhindered },
    .leaf { id := "vault", guard := .test .never, rule := Rule.on .endTurn "break in" }]

theorem hallway_keepsDeclared {start : Session} {agenda : Agenda} (hbuild : hallway.build = .ok start)
    (hagenda : start.engine.agenda = some agenda) : ∀ entry ∈ agenda.entries,
      entry.alwaysActive = true → ∀ t ∈ entry.phase.guard.tests, t.KeepsDeclared := by
  cases hbuild
  cases hagenda
  intro entry hentry hmarked
  rcases List.mem_cons.mp hentry with rfl | hentry
  · exact doorway_keepsDeclared
  · obtain rfl := List.mem_singleton.mp hentry
    cases hmarked

/-- Handling the end of a turn, nobody looks at the door. With an engine that asks every guard somebody
does, and otherwise sees the same. -/
theorem hallway_asked : StateGuard.settled? doorway = some .valid ∧
    EventGuard.settled? unhindered = some .valid ∧
    (∀ c s, (StateGuard.ask c s doorway).value.outcome = .valid) ∧
    (∀ c s e, (EventGuard.ask c s e unhindered).value.outcome = .valid) ∧
    ∃ start agenda, hallway.build = .ok start ∧ start.engine.agenda = some agenda ∧
      agenda.entries.map AgendaEntry.alwaysActive = [true, false] ∧
      let asking := start.under (start.engine.asking fun _ => true)
      (start.handle 1 .endTurn).notes.filterMap Note.asked? = [] ∧
      (asking.handle 1 .endTurn).notes.filterMap Note.asked? = ["door"] ∧
      (asking.handle 1 .endTurn).notices = (start.handle 1 .endTurn).notices ∧
      asking.run 1 [.event .endTurn, .event .endTurn] = start.run 1 [.event .endTurn, .event .endTurn] ∧
      (start.run 1 [.event .endTurn, .event .endTurn]).map Report.applied = [1, 2] := by
  obtain ⟨hstate, hevent, hplan⟩ := settled_guards_need_no_asking
  have hunhindered : ∀ t ∈ unhindered.tests, t.KeepsDeclared := by
    intro t ht c s e o ho
    have htests : t = .abstain ∨ t = .never := by
      simpa [unhindered, Guard.tests, Guard.testsOf] using ht
    rcases htests with rfl | rfl <;> cases ho <;> rfl
  refine ⟨rfl, rfl, (hstate doorway).2 doorway_keepsDeclared .valid rfl,
    (hevent unhindered).2 hunhindered .valid rfl, _, _, rfl, rfl, rfl, by decide +kernel,
    by decide +kernel, ?_⟩
  obtain ⟨-, hsessions⟩ := hplan hallway _ _ rfl rfl (fun _ => true) fun entry hentry hmarked _ =>
    hallway_keepsDeclared rfl rfl entry hentry hmarked
  obtain ⟨hevents, hruns⟩ := hsessions _ rfl
  exact ⟨(hevents 1 .endTurn).2, hruns 1 _, by decide +kernel⟩

end BoardGame
