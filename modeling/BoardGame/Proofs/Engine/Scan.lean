import BoardGame.Engine.Evaluation
import BoardGame.Proofs.Guard.Settled
import BoardGame.Proofs.Phase.Agenda
import BoardGame.Proofs.Rule.Check
import BoardGame.Proofs.Setup.Engine

/-!
What a scan finds. An engine with an agenda leaves out the leaves that are made for another type of event
and does not ask the guards that are always valid. A rule made for another type has no opinion, and a
guard that is always valid need not be asked, so the scan still finds what asking every leaf of the tree
would: the valid rules of the phases that apply, in order, and the first rejection among them.
-/

namespace BoardGame

namespace Engine

variable (e : Engine) (s : Snapshot) (event : Event)

def applies (p : LeafPhase) : Bool := (p.ask e.setting s).value.isValid

def answer (p : LeafPhase) : Verdict := (p.rule.check e.setting s event).value

def active : List LeafPhase := e.phases.leaves.filter (e.applies s)

def accepting : List LeafPhase := (e.active s).filter fun p => (e.answer s event p).isValid

/-- The first leaf that applies and whose rule rejects the event. -/
def refusing? : Option LeafPhase := (e.active s).find? fun p => (e.answer s event p).isInvalid

/-- An engine that considers all its leaves, which are those of its tree, numbered in order. -/
structure Planned (e : Engine) : Prop where
  leaves_eq : e.leaves = e.phases.leaves
  numbered : Numbered 0 e.leaves
  agenda_lists : ∃ agenda indexed, e.agenda = some agenda ∧ agenda.Lists indexed e.phases.leaves

/-- No test that a game defines belies the outcome that it declares. -/
def KeepsDeclared (e : Engine) : Prop :=
  ∀ p ∈ e.phases.leaves, ∀ t, StateTest.custom t ∈ p.guard.tests →
    (StateTest.custom t).KeepsDeclared

end Engine

theorem Blueprint.planned_of_build {b : Blueprint} {start : Session} (h : b.build = .ok start)
    (hagenda : b.config.useAgenda = true) : start.engine.Planned := by
  obtain ⟨game, snapshot, phases, -, -, hroot, rfl⟩ := build_eq_ok_iff.mp h
  refine ⟨rfl, numbered_of_buildRoot hroot, ?_⟩
  exact ⟨_, b.config.indexTypes, if_pos hagenda, Agenda.lists_ofPhase phases _⟩

namespace Engine

variable {e : Engine} {s : Snapshot} {event : Event} {p : LeafPhase}

/-- Whether an event gets to the rule of a leaf that it considers. -/
def admits (e : Engine) (s : Snapshot) (p : LeafPhase) : Bool :=
  StateGuard.isAlwaysValid p.guard || e.applies s p

/-! Engines with the same setting ask a leaf the same, and get the same answers. -/

theorem applies_congr {e' : Engine} (h : e'.setting = e.setting) (s : Snapshot) :
    e'.applies s = e.applies s := by
  funext p
  rw [applies, applies, h]

theorem answer_congr {e' : Engine} (h : e'.setting = e.setting) (s : Snapshot) (event : Event) :
    e'.answer s event = e.answer s event := by
  funext p
  rw [answer, answer, h]

theorem admits_congr {e' : Engine} (h : e'.setting = e.setting) (s : Snapshot) :
    e'.admits s = e.admits s := by
  funext p
  rw [admits, admits, applies_congr h]

theorem admits_eq_applies (h : e.KeepsDeclared) (hp : p ∈ e.phases.leaves) :
    e.admits s p = e.applies s p := by
  have hkeep : ∀ t ∈ p.guard.tests, t.KeepsDeclared := by
    intro t ht
    by_cases hcustom : ∃ u, t = .custom u
    · obtain ⟨u, rfl⟩ := hcustom
      exact h p hp u ht
    · exact StateTest.keepsDeclared_of_builtin fun u hu => hcustom ⟨u, hu⟩
  rw [admits]
  cases halways : StateGuard.isAlwaysValid p.guard with
  | false => rfl
  | true => exact (StateGuard.isValid_of_isAlwaysValid halways hkeep e.setting s).symm

theorem answer_of_type_ne {type : EventType} (htype : p.rule.type = some type)
    (hne : event.type ≠ type) : e.answer s event p = .ignore := by
  apply Rule.value_check_of_not_admits
  rw [Bool.eq_false_iff, Ne, RuleHead.admits_iff]
  exact fun hall => hne (hall type htype)

theorem record_of_ignore {scan : Scan} {v : Verdict} (h : v.outcome = .ignore) :
    scan.record p v = scan := by
  rw [Scan.record, h]

def scanLeaf (e : Engine) (s : Snapshot) (event : Event) (scan : Scan) (p : LeafPhase) : Scan :=
  if e.admits s p then scan.record p (e.answer s event p) else scan

theorem value_visit {scan : Scan} {i : Nat} :
    (e.visit s event scan (Agenda.entryOf p i)).value = e.scanLeaf s event scan p := by
  have halways : (Agenda.entryOf p i).alwaysActive = StateGuard.isAlwaysValid p.guard := rfl
  have hask : ((Agenda.entryOf p i).phase.ask e.setting s).asking.value.isValid = e.applies s p :=
    rfl
  rw [visit, scanLeaf, admits, halways]
  by_cases hskip : StateGuard.isAlwaysValid p.guard = true
  · rw [if_pos hskip, hskip, Bool.true_or, if_pos rfl]
    rfl
  · rw [if_neg hskip, Noted.value_bind, hask, eq_false_of_ne_true hskip, Bool.false_or]
    by_cases happlies : e.applies s p = true
    · rw [if_pos happlies, if_pos happlies]
      rfl
    · rw [if_neg happlies, if_neg happlies]
      rfl

theorem scanLeaf_of_type_ne {scan : Scan} {type : EventType} (htype : p.rule.type = some type)
    (hne : event.type ≠ type) : e.scanLeaf s event scan p = scan := by
  rw [scanLeaf, answer_of_type_ne htype hne, record_of_ignore rfl, ite_self]

theorem Planned.value_scan (h : e.Planned) :
    (e.scan s event).value = e.phases.leaves.foldl (e.scanLeaf s event) {} := by
  obtain ⟨agenda, indexed, hagenda, hlists⟩ := h.agenda_lists
  -- a leaf that the index leaves out is made for another type, and a scan passes over it
  have hleaf : ∀ scan, ∀ entry ∈ agenda.entries,
      (if entry.isFiledUnder indexed event.type || entry.isUnfiled indexed
        then (e.visit s event scan entry).value else scan) =
        e.scanLeaf s event scan entry.phase := by
    intro scan entry hentry
    obtain ⟨p, i, rfl⟩ := hlists.eq_entryOf hentry
    rw [value_visit]
    split
    · rfl
    · rename_i hout
      obtain ⟨type, htype, hne⟩ := AgendaEntry.type_ne_of_left_out hout
      exact (scanLeaf_of_type_ne htype hne).symm
  rw [scan, hagenda]
  calc ((agenda.candidates event.type).foldlM (e.visit s event) {}).value
      = (agenda.entries.filter fun entry => entry.isFiledUnder indexed event.type ||
          entry.isUnfiled indexed).foldl (fun scan entry => (e.visit s event scan entry).value) {} := by
        rw [Noted.value_foldlM, hlists.candidates_eq]
    _ = agenda.entries.foldl (fun scan entry => e.scanLeaf s event scan entry.phase) {} := by
        rw [List.foldl_filter]
        exact List.foldl_ext _ _ _ hleaf
    _ = e.phases.leaves.foldl (e.scanLeaf s event) {} := by
        rw [← hlists.map_phase, List.foldl_map]

theorem Planned.value_scan_admits (h : e.Planned) : (e.scan s event).value =
    (e.phases.leaves.filter (e.admits s)).foldl
      (fun scan p => scan.record p (e.answer s event p)) {} := by
  rw [h.value_scan, List.foldl_filter]
  rfl

theorem foldl_record {answer : LeafPhase → Verdict} (l : List LeafPhase) (scan : Scan) :
    l.foldl (fun scan p => scan.record p (answer p)) scan =
      { candidates :=
          scan.candidates ++ (l.filter fun p => (answer p).isValid).map Candidate.ofLeaf
        rejection := scan.rejection <|>
          (l.find? fun p => (answer p).isInvalid).map fun p => (p, answer p) } := by
  -- the candidates grow at the end, and only the first rejection is kept
  induction l generalizing scan with
  | nil => simp
  | cons p rest ih =>
    rw [List.foldl_cons, ih]
    cases hv : (answer p).outcome with
    | valid => simp [Scan.record, hv, Verdict.isValid, Verdict.isInvalid]
    | ignore => simp [Scan.record, hv, Verdict.isValid, Verdict.isInvalid]
    | invalid =>
      cases hrejection : scan.rejection with
      | none => simp [Scan.record, hv, hrejection, Verdict.isValid, Verdict.isInvalid]
      | some first => simp [Scan.record, hv, hrejection, Verdict.isValid, Verdict.isInvalid]

/-- A scan finds the valid rules of the leaves that apply, and the first rejection among them. -/
theorem Planned.value_scan_eq (h : e.Planned) (hkeep : e.KeepsDeclared) :
    (e.scan s event).value =
      { candidates := (e.accepting s event).map Candidate.ofLeaf
        rejection := (e.refusing? s event).map fun p => (p, e.answer s event p) } := by
  have hactive : e.phases.leaves.filter (e.admits s) = e.active s :=
    List.filter_congr fun _ hp => admits_eq_applies hkeep hp
  rw [h.value_scan_admits, hactive, foldl_record]
  rfl

end Engine

end BoardGame
