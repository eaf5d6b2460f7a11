import BoardGame.Proofs.Engine.Conservation

/-!
Replaying events. Handling a list of events is handling its parts one after the other, so a run can be cut
anywhere. An event is ignored at its position if it is ignored by the session that the events before it
lead to; such an event leaves that session as it is, and the run is the same without it. The others each
count as one applied event, and what a session remembers is the last of them.
-/

namespace BoardGame

namespace Engine

variable {e : Engine} {s : Snapshot} {event : Event}

theorem failure_of_evaluate {failure : Failure}
    (h : (e.evaluate s event).value = .error failure) :
    failure.event = event ∧ ∀ r, failure = .rejected r → r.snapshot = s := by
  rw [value_evaluate] at h
  unfold conclude resolve at h
  split at h
  · cases h
  · cases h
    refine ⟨rfl, ?_⟩
    rintro r ⟨⟩
    rfl
  · split at h
    · cases h
      exact ⟨rfl, nofun⟩
    · cases h

end Engine

namespace Session

variable {p q : Session} {call : Nat} {event : Event} {events rest : List Event} {i : Nat}

def ignores (p : Session) (event : Event) : Bool :=
  match (p.engine.evaluate p.snapshot event).value with
  | .ok .ignored => true
  | _ => false

/-- Whether the event at a position is ignored by the session that those before it lead to. -/
def ignoredAt (p : Session) (call : Nat) (events : List Event) (i : Nat) : Bool :=
  match (p.handleAll call (events.take i)).value, events[i]? with
  | .ok q, some event => q.ignores event
  | _, _ => false

/-- The positions of the events that are not ignored. -/
def appliedAt (p : Session) (call : Nat) (events : List Event) : List Nat :=
  (List.range events.length).filter fun i => !p.ignoredAt call events i

def kept (keep : Nat → Bool) (events : List Event) : List Event :=
  (events.zipIdx.filter fun x => keep x.2).map Prod.fst

/-- Applying the event at a position, to the session that those before it lead to, makes a session. -/
def MadeAt (p : Session) (call : Nat) (events : List Event) (k : Nat) (q : Session) : Prop :=
  ∃ before event snapshot decision, events[k]? = some event ∧
    (p.handleAll call (events.take k)).value = .ok before ∧
    (before.engine.evaluate before.snapshot event).value = .ok (.applied snapshot decision) ∧
    q = before.advance call event snapshot decision

/-- The event at a position fails, those before it do not, and those after it do not matter. -/
structure FailsAt (p : Session) (call : Nat) (events : List Event) (k : Nat) (i : Interruption) :
    Prop where
  event_at : events[k]? = some i.failure.event
  before : (p.handleAll call (events.take k)).value = .ok i.session
  fails : (i.session.handle call i.failure.event).value = .error i.failure
  after : ∀ others, (p.handleAll call (events.take (k + 1) ++ others)).value = .error i

/-- What a run comes to, whichever calls have made it. -/
def ending : Except Interruption Session → Except Failure Session
  | .ok q => .ok { q with origin := 0 }
  | .error i => .error i.failure

/-! ### One event -/

theorem handle_outcome (p : Session) (call : Nat) (event : Event) :
    (p.ignores event = true ∧ (p.handle call event).value = .ok p) ∨
    (p.ignores event = false ∧ ∃ snapshot decision,
      (p.engine.evaluate p.snapshot event).value = .ok (.applied snapshot decision) ∧
      (p.handle call event).value = .ok (p.advance call event snapshot decision)) ∨
    (p.ignores event = false ∧ ∃ failure,
      (p.engine.evaluate p.snapshot event).value = .error failure ∧
      (p.handle call event).value = .error failure) := by
  rw [value_handle, ignores]
  match (p.engine.evaluate p.snapshot event).value with
  | .ok .ignored => exact Or.inl ⟨rfl, rfl⟩
  | .ok (.applied snapshot decision) => exact Or.inr (Or.inl ⟨rfl, snapshot, decision, rfl, rfl⟩)
  | .error failure => exact Or.inr (Or.inr ⟨rfl, failure, rfl, rfl⟩)

theorem failure_of_handle {failure : Failure} (h : (p.handle call event).value = .error failure) :
    failure.event = event ∧ ∀ r, failure = .rejected r → r.snapshot = p.snapshot := by
  rcases p.handle_outcome call event with ⟨-, hnext⟩ | ⟨-, snapshot, decision, -, hnext⟩ |
    ⟨-, _, hvalue, hfailed⟩
  · rw [hnext] at h
    cases h
  · rw [hnext] at h
    cases h
  · rw [hfailed] at h
    cases h
    exact Engine.failure_of_evaluate hvalue

theorem value_handleAll_cons (p : Session) (call : Nat) (event : Event) (rest : List Event) :
    (p.handleAll call (event :: rest)).value =
      match (p.handle call event).value with
      | .ok next => (next.handleAll call rest).value
      | .error failure => .error ⟨p, failure⟩ := by
  rw [handleAll, Noted.value_bind]
  cases (p.handle call event).value with
  | error failure => rfl
  | ok next => rfl

/-- A run in which no event fails, so that it comes to the last session. -/
inductive Completes (call : Nat) (q : Session) : Session → List Event → Prop where
  | done : Completes call q q []
  | ignored {p : Session} {event : Event} {rest : List Event} :
    p.ignores event = true → (p.handle call event).value = .ok p →
    Completes call q p rest → Completes call q p (event :: rest)
  | applied {p : Session} {event : Event} {rest : List Event} {snapshot : Snapshot}
      {decision : Decision} :
    p.ignores event = false →
    (p.engine.evaluate p.snapshot event).value = .ok (.applied snapshot decision) →
    (p.handle call event).value = .ok (p.advance call event snapshot decision) →
    Completes call q (p.advance call event snapshot decision) rest →
    Completes call q p (event :: rest)

theorem completes_iff : Completes call q p events ↔ (p.handleAll call events).value = .ok q := by
  constructor
  · intro h
    induction h with
    | done => rfl
    | ignored _ hnext _ ih =>
      rw [value_handleAll_cons, hnext]
      exact ih
    | applied _ _ hnext _ ih =>
      rw [value_handleAll_cons, hnext]
      exact ih
  · intro h
    induction events generalizing p with
    | nil =>
      cases h
      exact .done
    | cons event rest ih =>
      rw [value_handleAll_cons] at h
      rcases p.handle_outcome call event with ⟨hignored, hnext⟩ |
        ⟨happlied, snapshot, decision, hvalue, hnext⟩ | ⟨-, failure, -, hfailed⟩
      · rw [hnext] at h
        exact .ignored hignored hnext (ih h)
      · rw [hnext] at h
        exact .applied happlied hvalue hnext (ih h)
      · rw [hfailed] at h
        cases h

/-! ### Cutting a run -/

theorem value_handleAll_append (p : Session) (call : Nat) (xs ys : List Event) :
    (p.handleAll call (xs ++ ys)).value =
      match (p.handleAll call xs).value with
      | .ok q => (q.handleAll call ys).value
      | .error i => .error i := by
  induction xs generalizing p with
  | nil => rfl
  | cons event rest ih =>
    rw [List.cons_append, value_handleAll_cons, value_handleAll_cons]
    cases (p.handle call event).value with
    | error failure => rfl
    | ok next => exact ih next

/-- The marks that sessions bear, and the numbers of calls, show in nothing but such marks. -/
theorem ending_handleAll (p : Session) (origin call call' : Nat) (events : List Event) :
    ending (({ p with origin } : Session).handleAll call events).value =
      ending (p.handleAll call' events).value := by
  -- an event that is applied sets the mark anew, so the marks of the two runs differ all along
  induction events generalizing p origin with
  | nil => rfl
  | cons event rest ih =>
    rw [value_handleAll_cons, value_handleAll_cons, value_handle, value_handle]
    dsimp only
    match (p.engine.evaluate p.snapshot event).value with
    | .ok .ignored => exact ih p origin
    | .ok (.applied snapshot decision) => exact ih (p.advance call' event snapshot decision) call
    | .error failure => rfl

theorem ending_handleAll_append (p : Session) (call first second : Nat) (xs ys : List Event) :
    ending (p.handleAll call (xs ++ ys)).value =
      match (p.handleAll first xs).value with
      | .ok q => ending (q.handleAll second ys).value
      | .error i => .error i.failure := by
  have hsame : ending (p.handleAll call (xs ++ ys)).value =
      ending (p.handleAll first (xs ++ ys)).value := ending_handleAll p p.origin call first (xs ++ ys)
  rw [hsame, value_handleAll_append]
  cases (p.handleAll first xs).value with
  | error i => rfl
  | ok q => exact ending_handleAll q q.origin first second ys

/-! ### Ignored events -/

theorem ignoredAt_zero : p.ignoredAt call (event :: rest) 0 = p.ignores event := rfl

theorem ignoredAt_succ (h : (p.handle call event).value = .ok q) :
    p.ignoredAt call (event :: rest) (i + 1) = q.ignoredAt call rest i := by
  rw [ignoredAt, ignoredAt, List.take_succ_cons, value_handleAll_cons, h, List.getElem?_cons_succ]

theorem ignoredAt_of_dropped_succ {keep : Nat → Bool} (h : (p.handle call event).value = .ok q)
    (hdropped : ∀ i < (event :: rest).length, keep i = false →
      p.ignoredAt call (event :: rest) i = true) :
    ∀ i < rest.length, keep (i + 1) = false → q.ignoredAt call rest i = true := by
  intro i hi hkeep
  rw [← ignoredAt_succ h]
  exact hdropped (i + 1) (Nat.succ_lt_succ hi) hkeep

theorem appliedAt_cons (h : (p.handle call event).value = .ok q) :
    p.appliedAt call (event :: rest) =
      (if p.ignores event then [] else [0]) ++ (q.appliedAt call rest).map (· + 1) := by
  have hrest : (fun i => !p.ignoredAt call (event :: rest) i) ∘ Nat.succ =
      fun i => !q.ignoredAt call rest i := by
    funext i
    exact congrArg (!·) (ignoredAt_succ h)
  rw [appliedAt, List.length_cons, List.range_succ_eq_map, List.filter_cons, List.filter_map, hrest,
    ignoredAt_zero, appliedAt]
  cases p.ignores event <;> rfl

theorem mem_appliedAt_iff :
    i ∈ p.appliedAt call events ↔ i < events.length ∧ p.ignoredAt call events i = false := by
  simp [appliedAt]

theorem appliedAt_eq_nil_iff : p.appliedAt call events = [] ↔
    ∀ i < events.length, p.ignoredAt call events i = true := by
  simp [appliedAt, List.filter_eq_nil_iff]

theorem MadeAt.cons {next : Session} {k : Nat} (h : (p.handle call event).value = .ok next)
    (hmade : next.MadeAt call rest k q) : p.MadeAt call (event :: rest) (k + 1) q := by
  obtain ⟨before, last, snapshot, decision, hk, hbefore, hvalue, rfl⟩ := hmade
  refine ⟨before, last, snapshot, decision, hk, ?_, hvalue, rfl⟩
  rw [List.take_succ_cons, value_handleAll_cons, h]
  exact hbefore

theorem kept_cons (keep : Nat → Bool) (event : Event) (rest : List Event) :
    kept keep (event :: rest) =
      (if keep 0 then [event] else []) ++ kept (fun i => keep (i + 1)) rest := by
  rw [kept, kept, List.zipIdx_cons, List.filter_cons, List.zipIdx_succ, List.filter_map]
  cases keep 0 <;> simp [Function.comp_def]

namespace Completes

theorem applied_eq (h : Completes call q p events) :
    q.applied = p.applied + (p.appliedAt call events).length := by
  induction h with
  | done => rfl
  | ignored hignored hnext _ ih =>
    rw [appliedAt_cons hnext, hignored, ih]
    simp
  | applied happlied _ hnext _ ih =>
    rw [appliedAt_cons hnext, happlied, ih]
    simp [advance]
    omega

theorem eq_of_appliedAt_eq_nil (h : Completes call q p events)
    (hnone : p.appliedAt call events = []) : q = p := by
  induction h with
  | done => rfl
  | ignored hignored hnext _ ih =>
    rw [appliedAt_cons hnext, hignored] at hnone
    exact ih (by simpa using hnone)
  | applied happlied _ hnext _ _ =>
    rw [appliedAt_cons hnext, happlied] at hnone
    cases hnone

theorem madeAt_last {k : Nat} (h : Completes call q p events)
    (hlast : (p.appliedAt call events).getLast? = some k) : p.MadeAt call events k q := by
  induction h generalizing k with
  | done => cases hlast
  | ignored hignored hnext _ ih =>
    rw [appliedAt_cons hnext, hignored, if_pos rfl, List.nil_append, List.getLast?_map] at hlast
    obtain ⟨j, hj, rfl⟩ := Option.map_eq_some_iff.mp hlast
    exact (ih hj).cons hnext
  | @applied p event rest snapshot decision happlied hvalue hnext hrest ih =>
    rw [appliedAt_cons hnext, happlied, List.getLast?_append, List.getLast?_map] at hlast
    cases hlater : ((p.advance call event snapshot decision).appliedAt call rest).getLast? with
    | none =>
      rw [hlater] at hlast
      cases hlast
      -- nothing is applied any more, so the run comes to what this event makes
      have hstay := hrest.eq_of_appliedAt_eq_nil (List.getLast?_eq_none_iff.mp hlater)
      exact ⟨p, event, snapshot, decision, rfl, rfl, hvalue, hstay⟩
    | some j =>
      rw [hlater] at hlast
      cases hlast
      exact (ih hlater).cons hnext

theorem kept (h : Completes call q p events) {keep : Nat → Bool}
    (hdropped : ∀ i < events.length, keep i = false → p.ignoredAt call events i = true) :
    Completes call q p (kept keep events) := by
  induction h generalizing keep with
  | done => exact .done
  | ignored hignored hnext _ ih =>
    have hrest := ih (ignoredAt_of_dropped_succ hnext hdropped)
    rw [kept_cons]
    cases keep 0 with
    | true => exact .ignored hignored hnext hrest
    | false => exact hrest
  | applied happlied hvalue hnext _ ih =>
    have hrest := ih (ignoredAt_of_dropped_succ hnext hdropped)
    have hkeep : keep 0 = true := by
      by_contra hdrop
      have hignored := hdropped 0 (Nat.succ_pos _) (eq_false_of_ne_true hdrop)
      rw [ignoredAt_zero, happlied] at hignored
      cases hignored
    rw [kept_cons, hkeep]
    exact .applied happlied hvalue hnext hrest

end Completes

/-! ### Failures -/

theorem FailsAt.cons {next : Session} {k : Nat} {i : Interruption}
    (h : (p.handle call event).value = .ok next) (hfails : next.FailsAt call rest k i) :
    p.FailsAt call (event :: rest) (k + 1) i := by
  refine ⟨hfails.event_at, ?_, hfails.fails, fun others => ?_⟩
  · rw [List.take_succ_cons, value_handleAll_cons, h]
    exact hfails.before
  · rw [List.take_succ_cons, List.cons_append, value_handleAll_cons, h]
    exact hfails.after others

theorem exists_failsAt {i : Interruption} (h : (p.handleAll call events).value = .error i) :
    ∃ k, p.FailsAt call events k i := by
  induction events generalizing p with
  | nil => cases h
  | cons event rest ih =>
    rw [value_handleAll_cons] at h
    cases hnext : (p.handle call event).value with
    | ok next =>
      rw [hnext] at h
      obtain ⟨k, hk⟩ := ih h
      exact ⟨k + 1, hk.cons hnext⟩
    | error failure =>
      rw [hnext] at h
      cases h
      have hevent : failure.event = event := (failure_of_handle hnext).1
      refine ⟨0, ⟨congrArg some hevent.symm, rfl, hevent ▸ hnext, fun others => ?_⟩⟩
      rw [List.take_succ_cons, List.take_zero, List.cons_append, value_handleAll_cons, hnext]

/-- Runs can be cut anywhere, even into calls of their own. A run that comes to a session has counted the
events that are not ignored at their positions, remembers the last of them and is the same without any of
the others; the session is the very same as to begin with only if all are ignored. A run that fails does
so at one event, which meets the snapshot that the events before it lead to. -/
theorem handleAll_replays (p : Session) (call : Nat) :
    (∀ xs ys, (p.handleAll call (xs ++ ys)).value =
      match (p.handleAll call xs).value with
      | .ok q => (q.handleAll call ys).value
      | .error i => .error i) ∧
    (∀ first second xs ys, ending (p.handleAll call (xs ++ ys)).value =
      match (p.handleAll first xs).value with
      | .ok q => ending (q.handleAll second ys).value
      | .error i => .error i.failure) ∧
    (∀ events q, (p.handleAll call events).value = .ok q →
      q.applied = p.applied + (p.appliedAt call events).length ∧
      (∀ k, (p.appliedAt call events).getLast? = some k → p.MadeAt call events k q) ∧
      ((p.appliedAt call events).getLast? = none → q = p) ∧
      (q.isSame p = true ↔ ∀ i < events.length, p.ignoredAt call events i = true) ∧
      ∀ keep, (∀ i < events.length, keep i = false → p.ignoredAt call events i = true) →
        (p.handleAll call (kept keep events)).value = .ok q) ∧
    ∀ events i, (p.handleAll call events).value = .error i →
      ∃ k, p.FailsAt call events k i ∧
        ∀ r, i.failure = .rejected r → r.snapshot = i.session.snapshot := by
  refine ⟨value_handleAll_append p call, ending_handleAll_append p call, fun events q hq => ?_,
    fun events i hi => ?_⟩
  · have h : Completes call q p events := completes_iff.mpr hq
    refine ⟨h.applied_eq, fun k => h.madeAt_last, fun hnone => ?_, ?_, fun keep hdropped => ?_⟩
    · exact h.eq_of_appliedAt_eq_nil (List.getLast?_eq_none_iff.mp hnone)
    · rw [← appliedAt_eq_nil_iff]
      constructor
      · intro hsame
        have hcount : q.applied = p.applied := by
          simp only [isSame, Bool.and_eq_true, decide_eq_true_eq] at hsame
          exact hsame.2
        have hlength := h.applied_eq
        rw [hcount] at hlength
        exact List.length_eq_zero_iff.mp (by omega)
      · intro hnone
        rw [h.eq_of_appliedAt_eq_nil hnone]
        simp [isSame]
    · exact completes_iff.mp (h.kept hdropped)
  · obtain ⟨k, hk⟩ := exists_failsAt hi
    exact ⟨k, hk, (failure_of_handle hk.fails).2⟩

end Session

namespace Blueprint

/-- A tick that changes nothing is applied all the same; what no rule is made for is not, and may be left
out. -/
theorem replays_wrapped :
    let events := [.endTurn, tick, .endTurn]
    ∃ start q, wrapped.build = .ok start ∧ (start.handleAll 1 events).value = .ok q ∧
      start.appliedAt 1 events = [1] ∧ q.snapshot = start.snapshot ∧ q.isSame start = false ∧
      (start.handleAll 1 [tick]).value = .ok q := by
  intro events
  have hrun : ∃ start q, wrapped.build = .ok start ∧ (start.handleAll 1 events).value = .ok q ∧
      start.appliedAt 1 events = [1] ∧ q.snapshot = start.snapshot ∧ q.isSame start = false :=
    ⟨_, _, rfl, rfl, by decide, by decide, by decide⟩
  obtain ⟨start, q, hbuild, hq, happlied, hsnapshot, hmark⟩ := hrun
  obtain ⟨-, -, hcompletes, -⟩ := Session.handleAll_replays start 1
  obtain ⟨-, -, -, -, hkept⟩ := hcompletes events q hq
  refine ⟨start, q, hbuild, hq, happlied, hsnapshot, hmark, hkept (fun i => i = 1) ?_⟩
  intro i hi hdropped
  by_contra hcounted
  have hmem := Session.mem_appliedAt_iff.mpr ⟨hi, eq_false_of_ne_true hcounted⟩
  rw [happlied, List.mem_singleton] at hmem
  exact of_decide_eq_false hdropped hmem

end Blueprint

end BoardGame
