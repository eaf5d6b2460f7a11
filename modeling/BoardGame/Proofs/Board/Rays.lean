import BoardGame.Board.Rays
import BoardGame.Board.Walk
import BoardGame.Proofs.Board.WellFormed

/-!
Rays and walks. A ray is what a slide in its direction goes over, and cutting it at the first relation that
arrives is sliding until arrival. Exits of a well-formed board are declared, so a ray that the table lacks
is empty, and where the table has none a walk has no route either.
-/

namespace BoardGame

namespace Board

variable {b : Board} {source target tile : ArtifactId} {direction : DirectionId} {n : Nat}

theorem throughFirst?_ray :
    throughFirst? (fun r => decide (r.target = target)) (b.ray direction n tile) =
      b.slide direction target n tile := by
  induction n generalizing tile with
  | zero => rfl
  | succ n ih =>
    rw [ray, slide]
    cases b.step? tile direction with
    | none => rfl
    | some r =>
      simp only [throughFirst?, Option.bind_eq_bind, Option.bind_some, decide_eq_true_eq]
      by_cases harrived : r.target = target
      · rw [if_pos harrived, if_pos harrived]
        rfl
      · rw [if_neg harrived, if_neg harrived, ih]
        cases b.slide direction target n r.target <;> rfl

theorem take_one_ray : (b.ray direction (n + 1) tile).take 1 = b.ray direction 1 tile := by
  cases hstep : b.step? tile direction <;> simp [ray, hstep]

theorem exists_reach_eq : ∃ n, b.reach = n + 1 := by
  have hpos : 1 ≤ b.reach := Nat.le_max_right _ _
  exact ⟨b.reach - 1, by omega⟩

theorem ray_reach_eq_nil_iff :
    b.ray direction b.reach tile = [] ↔ b.step? tile direction = none := by
  obtain ⟨n, hn⟩ := b.exists_reach_eq
  rw [hn, ray]
  cases b.step? tile direction <;> simp

namespace WellFormed

theorem mem_rays_iff (hb : b.WellFormed) :
    (∃ e ∈ (Rays.ofBoard b).table, e.1 = (tile, direction)) ↔
      b.ray direction b.reach tile ≠ [] := by
  constructor
  · rintro ⟨e, he, hkey⟩
    obtain ⟨hmem, hray⟩ := List.mem_filter.mp he
    obtain ⟨t, -, ht⟩ := List.mem_flatMap.mp hmem
    obtain ⟨d, -, rfl⟩ := List.mem_map.mp ht
    obtain ⟨rfl, rfl⟩ := Prod.mk.inj hkey
    simpa using hray
  · intro hray
    have hstep := mt ray_reach_eq_nil_iff.mpr hray
    have htile : tile ∈ b.tiles := by
      by_contra hout
      exact hstep (hb.step?_of_undeclared_tile hout)
    have hdirection : direction ∈ b.directions := by
      by_contra hout
      exact hstep (hb.step?_of_undeclared_direction hout)
    refine ⟨((tile, direction), b.ray direction b.reach tile), List.mem_filter.mpr ⟨?_, ?_⟩, rfl⟩
    · exact List.mem_flatMap.mpr ⟨tile, htile, List.mem_map.mpr ⟨direction, hdirection, rfl⟩⟩
    · simpa using hray

theorem lookup_rays (hb : b.WellFormed) :
    Entries.lookup (tile, direction) (Rays.ofBoard b).table =
      if b.ray direction b.reach tile ≠ [] then some (b.ray direction b.reach tile) else none := by
  have hfunction : ∀ e ∈ (Rays.ofBoard b).table, e.2 = b.ray e.1.2 b.reach e.1.1 := by
    intro e he
    obtain ⟨t, -, ht⟩ := List.mem_flatMap.mp (List.mem_filter.mp he).1
    obtain ⟨d, -, rfl⟩ := List.mem_map.mp ht
    rfl
  rw [Entries.lookup_of_function (f := fun k => b.ray k.2 b.reach k.1) hfunction]
  simp only [hb.mem_rays_iff]

theorem cutAlong_eq (hb : b.WellFormed) {repeatable : Bool} :
    (Rays.ofBoard b).cutAlong source target repeatable direction =
      b.walkAlong source target repeatable direction := by
  obtain ⟨n, hn⟩ := b.exists_reach_eq
  unfold Rays.cutAlong walkAlong
  rw [hb.lookup_rays]
  by_cases hray : b.ray direction b.reach source = []
  · -- nothing leaves the tile in this direction, however far a walk may go
    have hstep := ray_reach_eq_nil_iff.mp hray
    rw [if_neg (not_not_intro hray)]
    cases repeatable <;> simp [hn, slide, hstep]
  · rw [if_pos hray]
    cases repeatable with
    | true => simp only [Option.bind_eq_bind, Option.bind_some, if_true, throughFirst?_ray]
    | false =>
      rw [hn]
      simp only [Option.bind_eq_bind, Option.bind_some, Bool.false_eq_true, if_false, take_one_ray,
        throughFirst?_ray]

theorem cut_eq_walk (hb : b.WellFormed) {m : Movement} (hm : ∀ steps, m ≠ .jump steps) :
    (Rays.ofBoard b).cut m source target = b.walk m source target := by
  unfold Rays.cut walk
  by_cases hsame : source = target
  · rw [if_pos hsame, if_pos hsame]
  · rw [if_neg hsame, if_neg hsame]
    cases m with
    | still => rfl
    | along direction repeatable => exact hb.cutAlong_eq
    | alongAny directions repeatable =>
      exact congrArg (directions.findSome? ·) (funext fun direction => hb.cutAlong_eq)
    | jump steps => exact absurd rfl (hm steps)

/-- Looking at the rays first never changes the route that walking finds. -/
theorem cut_orElse_walk (hb : b.WellFormed) (m : Movement) :
    ((Rays.ofBoard b).cut m source target <|> b.walk m source target) =
      b.walk m source target := by
  by_cases hjump : ∃ steps, m = .jump steps
  · obtain ⟨steps, rfl⟩ := hjump
    have hnone : (Rays.ofBoard b).cut (.jump steps) source target = none := ite_self _
    rw [hnone]
    rfl
  · rw [hb.cut_eq_walk fun steps hsteps => hjump ⟨steps, hsteps⟩]
    cases b.walk m source target <;> rfl

end WellFormed

end Board

end BoardGame
