import BoardGame.Rule.Decision
import Mathlib.Data.List.Basic
import Mathlib.Data.List.Perm.Basic

/-!
A strategy selects among the candidates that it was given, and it refuses to select only if it is the
exclusive one and there are several. What it does not select, it rejects. The search for the highest
priority keeps the earliest best candidate of those it has seen.
-/

namespace BoardGame.Strategy

variable {strategy : Strategy} {candidates conflict seen rest : List Candidate} {d : Decision}
  {c later : Candidate} {i : Nat}

theorem mem_of_mem_byPriority (h : c ∈ byPriority candidates) : c ∈ candidates := by
  obtain ⟨p, -, hp⟩ := List.mem_flatMap.mp h
  exact (List.mem_filter.mp hp).1

theorem mem_of_mem_pick {i : Nat} {reason : String}
    (h : c ∈ (strategy.pick candidates i reason).selected) : c ∈ candidates := by
  unfold pick at h
  cases hi : candidates[i]? with
  | none =>
    rw [hi] at h
    cases h
  | some picked =>
    rw [hi] at h
    obtain rfl := List.mem_singleton.mp h
    exact List.mem_of_getElem? hi

theorem select_eq_error_iff :
    strategy.select candidates = .error conflict ↔
      strategy = .exclusive ∧ 1 < candidates.length ∧ conflict = candidates := by
  match candidates with
  | [] => cases strategy <;> simp [select]
  | [c] => simp [select]
  | c :: d :: rest => cases strategy <;> simp [select, eq_comm]

theorem mem_of_mem_select (h : strategy.select candidates = .ok d) (hc : c ∈ d.selected) :
    c ∈ candidates := by
  unfold select at h
  split at h
  · cases h
    exact hc
  · split at h
    · cases h
      exact mem_of_mem_pick hc
    · cases h
      exact mem_of_mem_pick hc
    · cases h
      exact mem_of_mem_pick hc
    · split at h
      · cases h
        exact mem_of_mem_pick hc
      · cases h
    · cases h
      exact mem_of_mem_byPriority hc

/-! ### The highest priority -/

/-- A candidate that no other outranks, at the first position of its priority. -/
structure EarliestBest (candidates : List Candidate) (i : Nat) (c : Candidate) : Prop where
  found : candidates[i]? = some c
  outranks : ∀ j d, j < i → candidates[j]? = some d → d.priority.level < c.priority.level
  unsurpassed : ∀ d ∈ candidates, d.priority.level ≤ c.priority.level

namespace EarliestBest

theorem lt_length (h : EarliestBest seen i c) : i < seen.length :=
  (List.getElem?_eq_some_iff.mp h.found).1

theorem singleton (c : Candidate) : EarliestBest [c] 0 c := by
  constructor
  · rfl
  · intro j d hj
    exact absurd hj (Nat.not_lt_zero j)
  · intro d hd
    obtain rfl := List.mem_singleton.mp hd
    exact Nat.le_refl _

/-- A later candidate takes over only if it outranks the best one seen. -/
theorem overtaken (h : EarliestBest seen i c) (hlt : c.priority.level < later.priority.level) :
    EarliestBest (seen ++ [later]) seen.length later := by
  constructor
  · rw [List.getElem?_append_right (Nat.le_refl _), Nat.sub_self]
    rfl
  · intro j x hj hx
    rw [List.getElem?_append_left hj] at hx
    exact Nat.lt_of_le_of_lt (h.unsurpassed x (List.mem_of_getElem? hx)) hlt
  · intro x hx
    rcases List.mem_append.mp hx with hx | hx
    · exact Nat.le_of_lt (Nat.lt_of_le_of_lt (h.unsurpassed x hx) hlt)
    · obtain rfl := List.mem_singleton.mp hx
      exact Nat.le_refl _

theorem kept (h : EarliestBest seen i c) (hle : later.priority.level ≤ c.priority.level) :
    EarliestBest (seen ++ [later]) i c := by
  constructor
  · rw [List.getElem?_append_left h.lt_length]
    exact h.found
  · intro j x hj hx
    rw [List.getElem?_append_left (Nat.lt_trans hj h.lt_length)] at hx
    exact h.outranks j x hj hx
  · intro x hx
    rcases List.mem_append.mp hx with hx | hx
    · exact h.unsurpassed x hx
    · rwa [List.mem_singleton.mp hx]

theorem bestFrom (h : EarliestBest seen i c) : ∃ best,
    EarliestBest (seen ++ rest) (bestFrom i c.priority.level seen.length rest) best := by
  induction rest generalizing seen i c with
  | nil =>
    rw [List.append_nil]
    exact ⟨c, h⟩
  | cons later rest ih =>
    have hlength : seen.length + 1 = (seen ++ [later]).length := by simp
    rw [Strategy.bestFrom, List.append_cons, hlength]
    split
    · rename_i hlt
      exact ih (h.overtaken hlt)
    · rename_i hnot
      exact ih (h.kept (Nat.le_of_not_lt hnot))

end EarliestBest

theorem exists_earliestBest (hsome : candidates ≠ []) :
    ∃ c, EarliestBest candidates (best candidates) c := by
  cases candidates with
  | nil => exact absurd rfl hsome
  | cons c rest => exact (EarliestBest.singleton c).bestFrom

/-! ### Nothing is lost -/

theorem perm_pick {i : Nat} {reason : String} (hi : i < candidates.length) :
    ((strategy.pick candidates i reason).selected ++
      (strategy.pick candidates i reason).rejected).Perm candidates := by
  rw [pick, List.getElem?_eq_getElem hi]
  exact List.getElem_cons_eraseIdx_perm hi

theorem perm_byPriority : (byPriority candidates).Perm candidates := by
  rw [List.perm_iff_count]
  intro c
  have hfilter : ∀ p, (candidates.filter fun d => d.priority = p).count c =
      if c.priority = p then candidates.count c else 0 := by
    intro p
    split
    · rename_i hp
      exact List.count_filter (decide_eq_true hp)
    · rename_i hp
      exact List.count_eq_zero.mpr fun hc => hp (of_decide_eq_true (List.mem_filter.mp hc).2)
  simp only [byPriority, Priority.descending, List.flatMap_cons, List.flatMap_nil,
    List.count_append, List.count_nil, hfilter]
  cases c.priority <;> simp

/-- A decision is on the given candidates: each of them is selected or rejected, and none twice. -/
theorem perm_of_select (h : strategy.select candidates = .ok d) :
    (d.selected ++ d.rejected).Perm candidates := by
  match candidates with
  | [] =>
    cases strategy <;> cases h <;> exact List.Perm.refl []
  | [c] =>
    cases h
    exact List.Perm.refl [c]
  | c :: c' :: rest =>
    have hsome : c :: c' :: rest ≠ [] := List.cons_ne_nil _ _
    cases strategy with
    | firstWins =>
      cases h
      exact perm_pick (List.length_pos_of_ne_nil hsome)
    | lastWins =>
      cases h
      exact perm_pick (Nat.sub_one_lt_of_lt (List.length_pos_of_ne_nil hsome))
    | highestPriority =>
      cases h
      obtain ⟨top, htop⟩ := exists_earliestBest hsome
      exact perm_pick htop.lt_length
    | exclusive => cases h
    | applyAll =>
      cases h
      rw [List.append_nil]
      exact perm_byPriority

end BoardGame.Strategy
