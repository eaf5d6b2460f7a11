import BoardGame.Proofs.Rule.Decision

/-!
What each strategy selects. Going through the priorities from the highest down lists the candidates by
priority without changing the order within one. So the candidate that the search for the highest priority
finds is the first of this list: the one that wins alone is the one that is applied first of all.
-/

namespace BoardGame

theorem Priority.level_injective {p q : Priority} (h : p.level = q.level) : p = q := by
  cases p <;> cases q <;> first | rfl | cases h

theorem Priority.descending_sorted : Priority.descending.Pairwise fun p q => q.level < p.level := by
  decide

namespace Strategy

variable {candidates : List Candidate} {strategy : Strategy} {c : Candidate} {i : Nat}

/-! ### By priority -/

theorem pairwise_byPriority (candidates : List Candidate) :
    (byPriority candidates).Pairwise fun c d => d.priority.level ≤ c.priority.level := by
  have hof : ∀ {p c}, c ∈ candidates.filter (fun c => c.priority = p) → c.priority = p :=
    fun hc => of_decide_eq_true (List.mem_filter.mp hc).2
  rw [byPriority, List.pairwise_flatMap]
  constructor
  · intro p _
    refine List.pairwise_of_forall_mem_list fun c hc d hd => ?_
    exact Nat.le_of_eq (congrArg Priority.level ((hof hd).trans (hof hc).symm))
  · refine Priority.descending_sorted.imp fun {p q} hlt c hc d hd => ?_
    rw [hof hc, hof hd]
    exact Nat.le_of_lt hlt

theorem filter_byPriority (candidates : List Candidate) (p : Priority) :
    (byPriority candidates).filter (fun c => c.priority = p) =
      candidates.filter fun c => c.priority = p := by
  have hfilter : ∀ q, (candidates.filter fun c => c.priority = q).filter (fun c => c.priority = p) =
      if q = p then candidates.filter (fun c => c.priority = p) else [] := by
    intro q
    split
    · rename_i hq
      rw [hq, List.filter_filter]
      simp
    · rename_i hq
      refine List.filter_eq_nil_iff.mpr fun c hc hp => hq ?_
      exact (of_decide_eq_true (List.mem_filter.mp hc).2).symm.trans (of_decide_eq_true hp)
  simp only [byPriority, Priority.descending, List.flatMap_cons, List.flatMap_nil,
    List.filter_append, List.filter_nil, hfilter]
  cases p <;> simp

theorem EarliestBest.head?_byPriority (h : EarliestBest candidates i c) :
    (byPriority candidates).head? = some c := by
  have hc : c ∈ byPriority candidates := perm_byPriority.mem_iff.mpr (List.mem_of_getElem? h.found)
  cases hsorted : byPriority candidates with
  | nil =>
    rw [hsorted] at hc
    cases hc
  | cons first others =>
    have hpairwise := pairwise_byPriority candidates
    have hwithin := filter_byPriority candidates c.priority
    rw [hsorted] at hc hpairwise hwithin
    -- nothing outranks the first, and nothing outranks the best
    have hlevel : first.priority = c.priority := by
      have hfirst : first ∈ candidates := perm_byPriority.mem_iff.mp (hsorted ▸ List.mem_cons_self)
      refine Priority.level_injective (Nat.le_antisymm (h.unsurpassed first hfirst) ?_)
      rcases List.mem_cons.mp hc with rfl | hc
      · exact Nat.le_refl _
      · exact (List.pairwise_cons.mp hpairwise).1 c hc
    have hfind : candidates.find? (fun d => d.priority = c.priority) = some c := by
      obtain ⟨hi, hget⟩ := List.getElem?_eq_some_iff.mp h.found
      refine List.find?_eq_some_iff_getElem.mpr ⟨decide_eq_true rfl, i, hi, hget, fun j hj => ?_⟩
      have hlt := h.outranks j _ hj (List.getElem?_eq_getElem (Nat.lt_trans hj hi))
      simpa using fun heq => Nat.ne_of_lt hlt (congrArg Priority.level heq)
    rw [List.head?_cons, ← hfind, ← List.head?_filter, ← hwithin,
      List.filter_cons, if_pos (decide_eq_true hlevel), List.head?_cons]

/-! ### Each strategy -/

/-- A decision for the candidate at one position alone, against all others as they were. -/
def Picks (d : Decision) (candidates : List Candidate) (i : Nat) : Prop :=
  (∃ c, candidates[i]? = some c ∧ d.selected = [c]) ∧ d.rejected = candidates.eraseIdx i

theorem picks_pick (strategy : Strategy) (reason : String) (hi : i < candidates.length) :
    Picks (strategy.pick candidates i reason) candidates i := by
  have hfound := List.getElem?_eq_getElem hi
  unfold Picks
  rw [pick, hfound]
  exact ⟨⟨_, rfl, rfl⟩, rfl⟩

theorem select_of_several (h : 1 < candidates.length) : strategy.select candidates =
    match strategy with
    | firstWins => .ok (strategy.pick candidates 0 "first in plan order")
    | lastWins => .ok (strategy.pick candidates (candidates.length - 1) "last in plan order")
    | highestPriority =>
      .ok (strategy.pick candidates (best candidates) "highest priority, earliest on ties")
    | exclusive => .error candidates
    | applyAll => .ok ⟨strategy, byPriority candidates, [], "apply all by priority"⟩ := by
  match candidates with
  | [] => exact absurd h (Nat.not_lt_zero 1)
  | [c] => exact absurd h (Nat.lt_irrefl 1)
  | c :: c' :: rest => cases strategy <;> rfl

theorem exists_select_of_ne_exclusive (hne : strategy ≠ exclusive) (candidates : List Candidate) :
    ∃ d, strategy.select candidates = .ok d := by
  cases hselect : strategy.select candidates with
  | ok d => exact ⟨d, rfl⟩
  | error conflict => exact absurd (select_eq_error_iff.mp hselect).1 hne

/-- Alone or among several, an earliest best candidate is selected by highest priority. -/
theorem exists_select_highestPriority (hsome : candidates ≠ []) : ∃ d i c,
    highestPriority.select candidates = .ok d ∧ d.selected = [c] ∧ EarliestBest candidates i c := by
  match candidates with
  | [] => exact absurd rfl hsome
  | [c] => exact ⟨_, 0, c, rfl, rfl, EarliestBest.singleton c⟩
  | c :: c' :: rest =>
    obtain ⟨top, htop⟩ := exists_earliestBest (List.cons_ne_nil c (c' :: rest))
    obtain ⟨⟨picked, hpicked, hselected⟩, -⟩ :=
      picks_pick highestPriority "highest priority, earliest on ties" htop.lt_length
    obtain rfl := Option.some.inj (htop.found.symm.trans hpicked)
    exact ⟨_, _, top, rfl, hselected, htop⟩

theorem exists_select_applyAll (candidates : List Candidate) : ∃ d,
    applyAll.select candidates = .ok d ∧ d.selected = byPriority candidates := by
  match candidates with
  | [] => exact ⟨_, rfl, rfl⟩
  | [c] => exact ⟨_, rfl, (List.perm_singleton.mp perm_byPriority).symm⟩
  | c :: c' :: rest => exact ⟨_, rfl, rfl⟩

/-- The winner by highest priority is what would be applied first by priority. -/
theorem winner_of_highestPriority (hsome : candidates ≠ []) : ∃ d all c,
    highestPriority.select candidates = .ok d ∧ applyAll.select candidates = .ok all ∧
      d.winner? = some c ∧ all.winner? = some c := by
  obtain ⟨d, i, c, hselect, hselected, hbest⟩ := exists_select_highestPriority hsome
  obtain ⟨all, hall, hsorted⟩ := exists_select_applyAll candidates
  refine ⟨d, all, c, hselect, hall, ?_, ?_⟩
  · rw [Decision.winner?, hselected]
    rfl
  · rw [Decision.winner?, hsorted]
    exact hbest.head?_byPriority

/-- A lone candidate is selected and no candidate is no conflict, whatever the strategy. Of several, the
exclusive strategy makes a conflict of all as they are; each other strategy selects or rejects every one
of them, once: the first, the last, or the earliest of highest priority against all others in their order,
or all by priority and in their order within a priority. -/
theorem select_loses_no_candidate (candidates : List Candidate) :
    (∀ (strategy : Strategy) c, ∃ d, strategy.select [c] = .ok d ∧ d.selected = [c] ∧
      d.rejected = []) ∧
    (∀ strategy : Strategy, ∃ d, strategy.select [] = .ok d ∧ d.selected = [] ∧ d.rejected = []) ∧
    (1 < candidates.length →
      exclusive.select candidates = .error candidates ∧
      (∀ strategy ≠ exclusive, ∃ d, strategy.select candidates = .ok d ∧
        (d.selected ++ d.rejected).Perm candidates) ∧
      (∃ d, firstWins.select candidates = .ok d ∧ Picks d candidates 0) ∧
      (∃ d, lastWins.select candidates = .ok d ∧ Picks d candidates (candidates.length - 1)) ∧
      (∃ d i c, highestPriority.select candidates = .ok d ∧ Picks d candidates i ∧
        EarliestBest candidates i c) ∧
      ∃ d, applyAll.select candidates = .ok d ∧ d.rejected = [] ∧
        d.selected.Perm candidates ∧
        d.selected.Pairwise (fun a b => b.priority.level ≤ a.priority.level) ∧
        ∀ p, d.selected.filter (fun c => c.priority = p) =
          candidates.filter fun c => c.priority = p) ∧
    (candidates ≠ [] → ∃ d all c, highestPriority.select candidates = .ok d ∧
      applyAll.select candidates = .ok all ∧ d.winner? = some c ∧ all.winner? = some c) := by
  refine ⟨fun strategy c => ⟨_, rfl, rfl, rfl⟩, fun strategy => ?_, fun hseveral => ?_,
    winner_of_highestPriority⟩
  · cases strategy <;> exact ⟨_, rfl, rfl, rfl⟩
  have hpos : 0 < candidates.length := Nat.lt_trans Nat.zero_lt_one hseveral
  refine ⟨select_of_several hseveral, fun strategy hne => ?_, ?_, ?_, ?_, ?_⟩
  · obtain ⟨d, hselect⟩ := exists_select_of_ne_exclusive hne candidates
    exact ⟨d, hselect, perm_of_select hselect⟩
  · exact ⟨_, select_of_several hseveral, picks_pick _ _ hpos⟩
  · exact ⟨_, select_of_several hseveral, picks_pick _ _ (Nat.sub_one_lt_of_lt hpos)⟩
  · obtain ⟨c, hbest⟩ := exists_earliestBest (List.ne_nil_of_length_pos hpos)
    exact ⟨_, _, c, select_of_several hseveral, picks_pick _ _ hbest.lt_length, hbest⟩
  · exact ⟨_, select_of_several hseveral, rfl, perm_byPriority, pairwise_byPriority candidates,
      filter_byPriority candidates⟩

/-- Two candidates of the highest priority, behind and before others. -/
def contenders : List Candidate :=
  [⟨"calm", "a", .low, 0⟩, ⟨"bold", "b", .high, 1⟩, ⟨"brisk", "c", .high, 2⟩, ⟨"mild", "d", .low, 3⟩]

/-- The earlier of the two wins alone against the other three, and is applied first of all four. -/
theorem contenders_won_by_bold : 1 < contenders.length ∧ contenders ≠ [] ∧ ∃ d all,
    highestPriority.select contenders = .ok d ∧ (d.selected ++ d.rejected).Perm contenders ∧
    d.rejected.map Candidate.rule = ["calm", "brisk", "mild"] ∧
    applyAll.select contenders = .ok all ∧ all.rules = ["bold", "brisk", "calm", "mild"] ∧
    ∃ c, d.winner? = some c ∧ all.winner? = some c := by
  have hseveral : 1 < contenders.length := by decide
  have hsome : contenders ≠ [] := by decide
  obtain ⟨-, -, hcases, hwinner⟩ := select_loses_no_candidate contenders
  obtain ⟨-, hperm, -⟩ := hcases hseveral
  obtain ⟨d, hselect, hlost⟩ := hperm highestPriority (by decide)
  obtain ⟨d', all, c, hd, hall, hwon, hfirst⟩ := hwinner hsome
  obtain rfl : d = d' := Except.ok.inj (hselect.symm.trans hd)
  refine ⟨hseveral, hsome, d, all, hd, hlost, ?_, hall, ?_, c, hwon, hfirst⟩
  · cases hd
    rfl
  · cases hall
    rfl

end Strategy

end BoardGame
