import BoardGame.Proofs.Engine.Acceleration
import BoardGame.Proofs.Engine.Applied

/-!
What an observer is told. Handling an event tells one thing about each leaf that is considered, in order:
that its phase does not apply, or the verdict of its rule. Then it tells how the event ended, and of an
event that is applied which rules were carried out. An index only saves an observer the leaves that are
made for another type of event.
-/

namespace BoardGame

namespace Noted

variable {α β σ : Type}

def notices (x : Noted Note α) : List Notice := x.notes.filterMap Note.notice?

@[simp] theorem notices_pure (a : α) : (pure a : Noted Note α).notices = [] := rfl

@[simp] theorem notices_bind (x : Noted Note α) (f : α → Noted Note β) :
    (x >>= f).notices = x.notices ++ (f x.value).notices := List.filterMap_append

@[simp] theorem notices_notice (n : Notice) : (note (.notice n)).notices = [n] := rfl

@[simp] theorem notices_concluded (c : Conclusion) : (note (.concluded c)).notices = [] := rfl

/-- Asking tests tells an observer nothing. -/
@[simp] theorem notices_asking (x : Noted String α) : x.asking.notices = [] := by
  rw [notices, asking, notes_mapNotes, List.filterMap_map, List.filterMap_eq_nil_iff]
  exact fun _ _ => rfl

/-- Steps that each give one notice, whatever they start from, give one after the other. -/
theorem notices_foldlM {f : σ → α → Noted Note σ} {g : α → Notice} {l : List α}
    (h : ∀ a ∈ l, ∀ x, (f x a).notices = [g a]) (x : σ) : (l.foldlM f x).notices = l.map g := by
  induction l generalizing x with
  | nil => rfl
  | cons a rest ih =>
    obtain ⟨ha, hrest⟩ := List.forall_mem_cons.mp h
    rw [List.foldlM_cons, notices_bind, ha, ih hrest]
    rfl

end Noted

theorem Verdict.isIgnore_of_not {v : Verdict} (hvalid : v.isValid = false)
    (hinvalid : v.isInvalid = false) : v.isIgnore = true := by
  simp only [isValid, isInvalid, isIgnore, decide_eq_false_iff_not, decide_eq_true_eq] at *
  cases ho : v.outcome with
  | ignore => rfl
  | valid => exact absurd ho hvalid
  | invalid => exact absurd ho hinvalid

namespace Engine

variable {e : Engine} {s t : Snapshot} {event : Event} {p : LeafPhase}

def considered (e : Engine) (s : Snapshot) (event : Event) : List LeafPhase :=
  match e.agenda with
  | some agenda => (agenda.candidates event.type).map AgendaEntry.phase
  | none => (e.active s).take 1

/-- What an observer is told of a leaf that is considered. -/
def remark (e : Engine) (s : Snapshot) (event : Event) (p : LeafPhase) : Notice :=
  if e.admits s p then .evaluated p.id p.rule.id event (e.answer s event p)
  else .inactive p.id (p.ask e.setting s).value

/-- What an observer is told of the end of an evaluation. -/
def closing (event : Event) : Except Failure Evaluation → List Notice
  | .ok .ignored => [.ignored event]
  | .ok (.applied _ decision) => .decided event decision :: decision.selected.map (.applied event)
  | .error (.rejected r) => [.rejected r]
  | .error (.conflict _) => []

theorem admits_of_applies (h : e.applies s p = true) : e.admits s p = true := by
  rw [admits, h, Bool.or_true]

theorem mem_considered_of_walk (h : e.agenda = none) (hp : p ∈ e.considered s event) :
    p ∈ e.phases.leaves ∧ e.applies s p = true := by
  rw [considered, h] at hp
  exact List.mem_filter.mp (List.mem_of_mem_take hp)

theorem Planned.eq_entryOf (h : e.Planned) {agenda : Agenda} (hagenda : e.agenda = some agenda)
    {entry : AgendaEntry} (hentry : entry ∈ agenda.candidates event.type) :
    ∃ i, entry = Agenda.entryOf entry.phase i ∧ entry.phase ∈ e.phases.leaves := by
  obtain ⟨agenda', indexed, hagenda', hlists⟩ := h.agenda_lists
  obtain rfl : agenda' = agenda := Option.some.inj (hagenda'.symm.trans hagenda)
  rw [hlists.candidates_eq] at hentry
  have hmem := (List.mem_filter.mp hentry).1
  obtain ⟨p, i, rfl⟩ := hlists.eq_entryOf hmem
  refine ⟨i, rfl, ?_⟩
  rw [← hlists.map_phase]
  exact List.mem_map_of_mem hmem

theorem mem_leaves_of_mem_considered (h : e.agenda = none ∨ e.Planned)
    (hp : p ∈ e.considered s event) : p ∈ e.phases.leaves := by
  rcases h with hwalk | hplanned
  · exact (mem_considered_of_walk hwalk hp).1
  · obtain ⟨agenda, indexed, hagenda, -⟩ := hplanned.agenda_lists
    rw [considered, hagenda] at hp
    obtain ⟨entry, hentry, rfl⟩ := List.mem_map.mp hp
    obtain ⟨i, -, hleaf⟩ := hplanned.eq_entryOf hagenda hentry
    exact hleaf

theorem notices_consider {scan : Scan} : (e.consider s event scan p).notices =
    [.evaluated p.id p.rule.id event (e.answer s event p)] := by
  simp [consider, answer]
  rfl

theorem notices_visit {scan : Scan} {i : Nat} :
    (e.visit s event scan (Agenda.entryOf p i)).notices = [e.remark s event p] := by
  have halways : (Agenda.entryOf p i).alwaysActive = StateGuard.isAlwaysValid p.guard := rfl
  have hask : ((Agenda.entryOf p i).phase.ask e.setting s).asking.value.isValid = e.applies s p :=
    rfl
  rw [visit, remark, admits, halways]
  by_cases hskip : StateGuard.isAlwaysValid p.guard = true
  · rw [if_pos hskip, hskip, Bool.true_or, if_pos rfl]
    exact notices_consider
  · rw [if_neg hskip, Noted.notices_bind, Noted.notices_asking, List.nil_append, hask,
      eq_false_of_ne_true hskip, Bool.false_or]
    by_cases happlies : e.applies s p = true
    · rw [if_pos happlies, if_pos happlies]
      exact notices_consider
    · rw [if_neg happlies, if_neg happlies]
      rfl

theorem notices_scan (h : e.agenda = none ∨ e.Planned) :
    (e.scan s event).notices = (e.considered s event).map (e.remark s event) := by
  rcases h with hwalk | hplanned
  · have hasked : ((e.phases.activeLeaf? e.setting s).asking).value = (e.active s).head? :=
      value_activeLeaf?_eq e s
    have happlies : ∀ p ∈ e.active s, e.remark s event p =
        .evaluated p.id p.rule.id event (e.answer s event p) := fun p hp =>
      if_pos (admits_of_applies (List.mem_filter.mp hp).2)
    rw [scan, considered, hwalk]
    dsimp only
    rw [Noted.notices_bind, Noted.notices_asking, hasked]
    cases hactive : e.active s with
    | nil => rfl
    | cons p rest =>
      have hremark := happlies p (hactive ▸ List.mem_cons_self)
      exact notices_consider.trans (congrArg ([·]) hremark.symm)
  · obtain ⟨agenda, indexed, hagenda, -⟩ := hplanned.agenda_lists
    rw [scan, considered, hagenda, List.map_map]
    refine Noted.notices_foldlM (fun entry hentry scan => ?_) _
    obtain ⟨i, heq, -⟩ := hplanned.eq_entryOf hagenda hentry
    rw [heq]
    exact notices_visit

theorem value_scan_considered (h : e.agenda = none ∨ e.Planned) :
    (e.scan s event).value = e.found s event ((e.considered s event).filter (e.admits s)) := by
  rcases h with hwalk | hplanned
  · have hadmits : (e.considered s event).filter (e.admits s) = e.considered s event :=
      List.filter_eq_self.mpr fun p hp =>
        admits_of_applies (mem_considered_of_walk hwalk hp).2
    rw [hadmits, value_scan_of_walk hwalk, considered, hwalk]
  · obtain ⟨agenda, indexed, hagenda, -⟩ := hplanned.agenda_lists
    have hvisit : ∀ scan, ∀ entry ∈ agenda.candidates event.type,
        (e.visit s event scan entry).value = e.scanLeaf s event scan entry.phase := by
      intro scan entry hentry
      obtain ⟨i, heq, -⟩ := hplanned.eq_entryOf hagenda hentry
      rw [heq]
      exact value_visit
    rw [scan, considered, hagenda]
    calc ((agenda.candidates event.type).foldlM (e.visit s event) {}).value
        = (agenda.candidates event.type).foldl
            (fun scan entry => e.scanLeaf s event scan entry.phase) {} := by
          rw [Noted.value_foldlM]
          exact List.foldl_ext _ _ _ hvisit
      _ = (((agenda.candidates event.type).map AgendaEntry.phase).filter (e.admits s)).foldl
            (fun scan p => scan.record p (e.answer s event p)) {} := by
          rw [List.foldl_filter, List.foldl_map]
          rfl
      _ = e.found s event
            (((agenda.candidates event.type).map AgendaEntry.phase).filter (e.admits s)) := by
          rw [foldl_record]
          rfl

/-! ### The end of an evaluation -/

theorem LaidOut.notices_perform (h : e.LaidOut) (hp : p ∈ e.phases.leaves) :
    (e.perform event s (Candidate.ofLeaf p)).notices = [.applied event (Candidate.ofLeaf p)] := by
  have hfound : e.leaves[(Candidate.ofLeaf p).position]? = some p :=
    h.numbered.getElem?_ordinal (h.leaves_eq ▸ hp)
  rw [perform, hfound]
  simp

/-- After the remarks on the leaves considered, an observer is told the end and nothing else. -/
theorem notices_evaluate (h : e.agenda = none ∨ e.Planned) (hleaves : e.LaidOut) :
    (e.evaluate s event).notices =
      (e.considered s event).map (e.remark s event) ++ closing event (e.evaluate s event).value := by
  have hvalid : ∀ c ∈ (e.scan s event).value.candidates,
      ∃ p ∈ e.phases.leaves, c = Candidate.ofLeaf p := by
    intro c hc
    obtain ⟨p, hp, rfl⟩ := List.mem_map.mp (mem_candidates_scan h hc)
    exact ⟨p, (List.mem_filter.mp hp).1, rfl⟩
  rw [evaluate, Noted.notices_bind, notices_scan h, Noted.value_bind]
  congr 1
  -- the end is told from the value of the scan, whatever leaves it has asked
  generalize (e.scan s event).value = scan at hvalid
  obtain ⟨candidates, rejection⟩ := scan
  cases candidates with
  | nil =>
    cases rejection with
    | none => rfl
    | some first => rfl
  | cons c rest =>
    simp only [List.isEmpty_cons, Bool.false_eq_true, if_false]
    cases hselect : e.config.strategy.select (c :: rest) with
    | error conflict => rfl
    | ok decision =>
      have hperform : ∀ c ∈ decision.selected, ∀ s,
          (e.perform event s c).notices = [.applied event c] := by
        intro c hc s
        obtain ⟨p, hp, rfl⟩ := hvalid c (Strategy.mem_of_mem_select hselect hc)
        exact hleaves.notices_perform hp
      simp only [Noted.notices_bind, Noted.notices_notice, Noted.notices_foldlM hperform,
        Noted.notices_pure, List.append_nil, Noted.value_bind, Noted.value_pure, closing]
      rfl

/-- How the end of an evaluation goes with the verdicts of the leaves whose rules were asked. -/
def Accords (e : Engine) (s : Snapshot) (event : Event) (heard : List LeafPhase) :
    Except Failure Evaluation → Prop
  | .ok .ignored => ∀ p ∈ heard, (e.answer s event p).isIgnore = true
  | .ok (.applied _ decision) => (decision.selected ++ decision.rejected).Perm
      ((heard.filter fun p => (e.answer s event p).isValid).map Candidate.ofLeaf)
  | .error (.rejected r) =>
    (∀ p ∈ heard, (e.answer s event p).isValid = false) ∧
      ∃ p, heard.find? (fun p => (e.answer s event p).isInvalid) = some p ∧
        r = { event, verdict := e.answer s event p, phase := p.id, rule := p.rule.id, snapshot := s }
  | .error (.conflict c) =>
    let valid := heard.filter fun p => (e.answer s event p).isValid
    c = { event, rules := valid.map fun p => p.rule.id, phases := valid.map LeafPhase.id }

theorem accords_conclude (e : Engine) (s : Snapshot) (event : Event) (heard : List LeafPhase) :
    e.Accords s event heard (e.conclude s event (e.found s event heard)) := by
  by_cases hnone : (e.found s event heard).candidates = []
  · have hinvalid : ∀ p ∈ heard, (e.answer s event p).isValid = false := by
      intro p hp
      rw [found, List.map_eq_nil_iff, List.filter_eq_nil_iff] at hnone
      exact eq_false_of_ne_true (hnone p hp)
    have hrejection : (e.found s event heard).rejection =
        (heard.find? fun p => (e.answer s event p).isInvalid).map
          fun p => (p, e.answer s event p) := rfl
    cases hfirst : heard.find? fun p => (e.answer s event p).isInvalid with
    | none =>
      simp only [conclude, hnone, hrejection, hfirst, Option.map_none, Accords]
      intro p hp
      have hpasses := List.find?_eq_none.mp hfirst p hp
      exact Verdict.isIgnore_of_not (hinvalid p hp) (eq_false_of_ne_true hpasses)
    | some p =>
      simp only [conclude, hnone, hrejection, hfirst, Option.map_some, Accords]
      exact ⟨hinvalid, p, rfl, rfl⟩
  · rw [conclude_of_candidates hnone, resolve]
    cases hselect : e.config.strategy.select (e.found s event heard).candidates with
    | error conflict =>
      obtain ⟨-, -, rfl⟩ := Strategy.select_eq_error_iff.mp hselect
      simp only [Accords, found, List.map_map]
      rfl
    | ok decision => exact Strategy.perm_of_select hselect

theorem accords_evaluate (h : e.agenda = none ∨ e.Planned) :
    e.Accords s event ((e.considered s event).filter (e.admits s)) (e.evaluate s event).value := by
  rw [value_evaluate, value_scan_considered h]
  exact accords_conclude e s event _

theorem length_considered_of_walk (h : e.agenda = none) : (e.considered s event).length ≤ 1 := by
  rw [considered, h]
  exact List.length_take_le 1 _

theorem remark_of_not_admits (h : p.rule.head.admits event = false) :
    e.remark s event p = .inactive p.id (p.ask e.setting s).value ∨
      e.remark s event p = .evaluated p.id p.rule.id event .ignore := by
  rw [remark, answer, Rule.value_check_of_not_admits h]
  split
  · exact Or.inr rfl
  · exact Or.inl rfl

theorem Agree.remark_eq {e' : Engine} (h : e.Agree e') : e'.remark s event = e.remark s event := by
  funext p
  rw [remark, remark, admits_congr h.setting_eq, answer_congr h.setting_eq, h.setting_eq]

theorem considered_eq {indexed : Bool} (h : e.agenda = some (Agenda.ofPhase e.phases indexed)) :
    e.considered s event = e.phases.leaves.filter fun p => !indexed || p.rule.head.admits event := by
  have hlists := Agenda.lists_ofPhase e.phases indexed
  have hentry : ∀ entry ∈ (Agenda.ofPhase e.phases indexed).entries,
      (entry.isFiledUnder indexed event.type || entry.isUnfiled indexed) =
        ((fun p : LeafPhase => !indexed || p.rule.head.admits event) ∘ AgendaEntry.phase) entry := by
    intro entry hentry
    obtain ⟨p, i, rfl⟩ := hlists.eq_entryOf hentry
    have htype : (Agenda.entryOf p i).type = p.rule.head.type := rfl
    have hphase : (Agenda.entryOf p i).phase = p := rfl
    simp only [AgendaEntry.isFiledUnder, AgendaEntry.isUnfiled, Function.comp_apply, htype, hphase,
      RuleHead.admits]
    cases indexed <;> cases p.rule.head.type <;> simp [eq_comm]
  rw [considered, h]
  dsimp only
  rw [hlists.candidates_eq, List.filter_congr hentry, ← List.filter_map, hlists.map_phase]

end Engine

namespace Session

variable {p : Session} {call : Nat} {event : Event}

theorem notices_handle :
    (p.handle call event).notices = (p.engine.evaluate p.snapshot event).notices := by
  rw [handle, Noted.notices_bind]
  cases (p.engine.evaluate p.snapshot event).value with
  | error failure => simp
  | ok evaluation =>
    cases evaluation with
    | ignored => simp
    | applied snapshot decision => simp

end Session

namespace Blueprint

variable {b : Blueprint} {start p : Session} {call : Nat} {event : Event}

/-- Another acceleration makes another engine, and nothing else. -/
theorem exists_build_accelerated (h : b.build = .ok start) (hagenda : b.config.useAgenda = true)
    (indexTypes useRays : Bool) :
    ∃ other, (b.accelerated indexTypes useRays).build = .ok (start.under other) ∧
      start.engine.Agree other ∧ other.agenda = some (Agenda.ofPhase other.phases indexTypes) := by
  have hplanned := planned_of_build h hagenda
  have hboard := board_wellFormed_of_build h
  obtain ⟨game, snapshot, phases, hgame, hsnapshot, hroot, rfl⟩ := build_eq_ok_iff.mp h
  let other := Engine.ofGame game phases (b.accelerated indexTypes useRays).config
    (b.observer.getD .logging)
  have hother : (b.accelerated indexTypes useRays).build = .ok { engine := other, snapshot } :=
    build_eq_ok_iff.mpr ⟨game, snapshot, phases, hgame, hsnapshot, hroot, rfl⟩
  exact ⟨other, hother, ⟨hplanned, planned_of_build hother hagenda, rfl,
    Engine.setting_ofGame hboard, rfl⟩, if_pos hagenda⟩

/-- Handling an event tells an observer one thing about each leaf considered, in order, and then how the
event ended, which goes with the verdicts told. With an agenda the leaves considered are those that an
index does not leave out, and doing without the index adds remarks on these others alone. Without an
agenda it is at most one leaf, whose phase applies. -/
theorem trace_tells_evaluation (hbuild : b.build = .ok start) (hengine : p.engine = start.engine)
    (call : Nat) (event : Event) :
    let e := start.engine
    let s := p.snapshot
    let outcome := (e.evaluate s event).value
    let considered := e.considered s event
    (p.handle call event).notices = considered.map (e.remark s event) ++ Engine.closing event outcome ∧
    (p.handle call event).value =
      (match outcome with
      | .ok .ignored => .ok p
      | .ok (.applied snapshot decision) => .ok (p.advance call event snapshot decision)
      | .error failure => .error failure) ∧
    e.Accords s event (considered.filter (e.admits s)) outcome ∧
    (∀ q ∈ considered, e.admits s q = false → e.applies s q = false) ∧
    (e.KeepsDeclared → ∀ q ∈ considered, e.admits s q = e.applies s q) ∧
    (b.config.useAgenda = true →
      considered = e.phases.leaves.filter fun q => !b.config.indexTypes || q.rule.head.admits event) ∧
    (b.config.useAgenda = false → considered.length ≤ 1 ∧
      ∀ q ∈ considered, e.remark s event q = .evaluated q.id q.rule.id event (e.answer s event q)) ∧
    (b.config.useAgenda = true → ∃ other,
      (b.accelerated false b.config.useRays).build = .ok (start.under other) ∧
      ((p.under other).handle call event).notices =
        e.phases.leaves.map (e.remark s event) ++ Engine.closing event outcome ∧
      ∀ q ∈ e.phases.leaves, q.rule.head.admits event = false →
        (∃ type, q.rule.type = some type ∧ event.type ≠ type) ∧
        (e.remark s event q = .inactive q.id (q.ask e.setting s).value ∨
          e.remark s event q = .evaluated q.id q.rule.id event .ignore)) := by
  intro e s outcome considered
  have hscans := scans_of_build hbuild
  have hagenda := agenda_of_build hbuild
  refine ⟨?_, ?_, ?_, ?_, ?_, ?_, ?_, ?_⟩
  · rw [Session.notices_handle, hengine]
    exact Engine.notices_evaluate hscans (laidOut_of_build hbuild)
  · have hvalue : (p.handle call event).value = _ := Session.value_handle
    rw [hengine] at hvalue
    exact hvalue
  · exact Engine.accords_evaluate hscans
  · intro q _ hpassed
    exact (Bool.or_eq_false_iff.mp hpassed).2
  · intro hkeep q hq
    exact Engine.admits_eq_applies hkeep (Engine.mem_leaves_of_mem_considered hscans hq)
  · intro hplan
    rw [hplan, if_pos rfl] at hagenda
    exact Engine.considered_eq hagenda
  · intro hwalk
    rw [hwalk, if_neg Bool.false_ne_true] at hagenda
    refine ⟨Engine.length_considered_of_walk hagenda, fun q hq => ?_⟩
    exact if_pos (Engine.admits_of_applies (Engine.mem_considered_of_walk hagenda hq).2)
  · intro hplan
    obtain ⟨other, hother, hagree, hagenda'⟩ :=
      exists_build_accelerated hbuild hplan false b.config.useRays
    have hall : other.considered s event = e.phases.leaves := by
      rw [Engine.considered_eq hagenda', hagree.phases_eq]
      exact List.filter_eq_self.mpr fun _ _ => rfl
    have htrace : ((p.under other).handle call event).notices = (other.evaluate s event).notices :=
      Session.notices_handle
    refine ⟨other, hother, ?_, fun q _ hpassed =>
      ⟨RuleHead.admits_eq_false_iff.mp hpassed, Engine.remark_of_not_admits hpassed⟩⟩
    rw [htrace, Engine.notices_evaluate (Or.inr hagree.planned') (laidOut_of_build hother), hall,
      hagree.remark_eq, hagree.value_evaluate_eq]

/-- Rules for the end of a turn, of which one refuses it and one belongs to a phase that does not apply,
and among them a rule for moves. -/
def watched : Blueprint where
  phases := [
    .leaf { id := "gate", rule := (Rule.on .endTurn "hold").require (.test .never) },
    .leaf { id := "way", rule := Rule.on .move "go" },
    .leaf { id := "ruin", guard := .test .never, rule := Rule.on .endTurn "fall" },
    .leaf { id := "open", rule := Rule.on .endTurn "pass" }]

/-- Without its index the game tells of the rule for moves too, and otherwise the same. -/
theorem watched_trace : ∃ start other, watched.build = .ok start ∧
    (watched.accelerated false watched.config.useRays).build = .ok (start.under other) ∧
    (start.handle 1 .endTurn).notices.map Notice.line =
      ["evaluated gate/hold EndTurnEvent Invalid: never", "inactive ruin Invalid: never",
        "evaluated open/pass EndTurnEvent Valid",
        "decision EndTurnEvent FirstWins: open/pass (Normal) (single candidate; 0 rejected)",
        "applied EndTurnEvent open/pass (Normal)"] ∧
    ((start.under other).handle 1 .endTurn).notices.map Notice.line =
      ["evaluated gate/hold EndTurnEvent Invalid: never", "evaluated way/go EndTurnEvent Ignore",
        "inactive ruin Invalid: never", "evaluated open/pass EndTurnEvent Valid",
        "decision EndTurnEvent FirstWins: open/pass (Normal) (single candidate; 0 rejected)",
        "applied EndTurnEvent open/pass (Normal)"] := by
  obtain ⟨start, hbuild⟩ : ∃ start, watched.build = .ok start := ⟨_, rfl⟩
  obtain ⟨htrace, -, -, -, -, -, -, hindex⟩ := trace_tells_evaluation hbuild rfl 1 .endTurn
  obtain ⟨other, hother, htrace', -⟩ := hindex rfl
  refine ⟨start, other, hbuild, hother, ?_, ?_⟩
  · rw [htrace]
    cases hbuild
    decide +kernel
  · rw [htrace']
    cases hbuild
    decide +kernel

end Blueprint

end BoardGame
