import BoardGame.Proofs.Setup.Acceptance

/-!
Drafts over a whole sequence of calls. Declarations of different kinds commute, so a blueprint does not
remember more of their order than that within each kind. The first compilation freezes a draft: what it
gave is given ever after, and every declaration is refused and changes nothing.
-/

namespace BoardGame

/-- The kinds of declarations. Statuses are of one kind, whatever they are about. -/
inductive DeclarationKind where
  | tile
  | direction
  | relation
  | player
  | dice
  | piece
  | custom
  | status
  | activePlayer
  | extra
  | phase
  | config
  | observer
  deriving DecidableEq, Repr

def Declaration.kind : Declaration → DeclarationKind
  | tile _ => .tile
  | direction _ => .direction
  | relation _ => .relation
  | player _ => .player
  | dice .. => .dice
  | piece _ => .piece
  | custom .. => .custom
  | status _ => .status
  | activePlayer _ => .activePlayer
  | extra .. => .extra
  | phase _ => .phase
  | config _ => .config
  | observer _ => .observer

def Declaration.ofKind (kind : DeclarationKind) (l : List Declaration) : List Declaration :=
  l.filter fun x => x.kind = kind

theorem Declaration.ofKind_append (kind : DeclarationKind) (l m : List Declaration) :
    ofKind kind (l ++ m) = ofKind kind l ++ ofKind kind m := List.filter_append ..

namespace Blueprint

variable {x y : Declaration}

/-- Each kind of declaration has a place of its own in the blueprint. -/
theorem add_comm (b : Blueprint) (h : x.kind ≠ y.kind) : (b.add x).add y = (b.add y).add x := by
  cases x <;> cases y <;> first | rfl | exact absurd rfl h

theorem foldl_add_comm (b : Blueprint) {l : List Declaration} (h : ∀ y ∈ l, y.kind ≠ x.kind) :
    l.foldl add (b.add x) = (l.foldl add b).add x := by
  induction l generalizing b with
  | nil => rfl
  | cons y rest ih =>
    obtain ⟨hy, hrest⟩ := List.forall_mem_cons.mp h
    rw [List.foldl_cons, List.foldl_cons, ← b.add_comm hy, ih (b.add y) hrest]

theorem foldl_add_eq_of_kinds (b : Blueprint) {l m : List Declaration}
    (h : ∀ kind, Declaration.ofKind kind l = Declaration.ofKind kind m) :
    l.foldl add b = m.foldl add b := by
  induction l generalizing b m with
  | nil =>
    cases m with
    | nil => rfl
    | cons y rest =>
      have hnone := h y.kind
      simp [Declaration.ofKind] at hnone
  | cons x rest ih =>
    -- the first declaration of its kind in the other sequence is the same one, and it can be made first
    have hfirst : Declaration.ofKind x.kind m = x :: Declaration.ofKind x.kind rest := by
      rw [← h x.kind]
      simp [Declaration.ofKind]
    obtain ⟨front, back, rfl, hfront, -, hback⟩ := List.filter_eq_cons_iff.mp hfirst
    have hothers : ∀ y ∈ front, y.kind ≠ x.kind := by simpa using hfront
    have hnone : Declaration.ofKind x.kind front = [] := List.filter_eq_nil_iff.mpr hfront
    have hrest : ∀ kind, Declaration.ofKind kind rest = Declaration.ofKind kind (front ++ back) := by
      intro kind
      by_cases hkind : x.kind = kind
      · subst hkind
        rw [Declaration.ofKind_append, hnone, List.nil_append]
        exact hback.symm
      · have hsame := h kind
        simpa [Declaration.ofKind, hkind] using hsame
    calc (x :: rest).foldl add b = (front ++ back).foldl add (b.add x) := ih (b.add x) hrest
      _ = back.foldl add ((front.foldl add b).add x) := by
        rw [List.foldl_append, b.foldl_add_comm hothers]
      _ = (front ++ x :: back).foldl add b := by rw [List.foldl_append, List.foldl_cons]

end Blueprint

inductive DraftCall where
  | declare (x : Declaration)
  | compile

inductive DraftAnswer where
  | declared
  | refused (e : DraftError)
  | compiled (result : Except BuildError Session)

namespace Draft

def answer (d : Draft) : DraftCall → DraftAnswer
  | .declare x =>
    match d.declare x with
    | .ok _ => .declared
    | .error e => .refused e
  | .compile => .compiled d.compile.value.1

/-- A declaration that is refused leaves no other draft than the one there was. -/
def after (d : Draft) : DraftCall → Draft
  | .declare x =>
    match d.declare x with
    | .ok next => next
    | .error _ => d
  | .compile => d.compile.value.2

def afterAll (d : Draft) (calls : List DraftCall) : Draft := calls.foldl after d

variable {d : Draft} {calls : List DraftCall}

theorem afterAll_cons (d : Draft) (call : DraftCall) (rest : List DraftCall) :
    d.afterAll (call :: rest) = (d.after call).afterAll rest := rfl

theorem afterAll_append (d : Draft) (calls more : List DraftCall) :
    d.afterAll (calls ++ more) = (d.afterAll calls).afterAll more := List.foldl_append

/-! ### Open drafts -/

theorem isCompiled_eq_false_iff : d.isCompiled = false ↔ d.result = none := by
  rw [isCompiled, Option.isSome_eq_false_iff, Option.isNone_iff_eq_none]

theorem declare_of_open (h : d.isCompiled = false) (x : Declaration) :
    d.declare x = .ok { d with blueprint := d.blueprint.add x } := by
  rw [declare, h]
  rfl

theorem after_declare_of_open (h : d.isCompiled = false) (x : Declaration) :
    d.after (.declare x) = { d with blueprint := d.blueprint.add x } := by
  rw [after, declare_of_open h]

theorem compile_of_open (h : d.isCompiled = false) : d.compile =
    ⟨(d.blueprint.build, { d with result := some d.blueprint.build }), [.ofBuild d.blueprint.build]⟩ := by
  rw [compile, isCompiled_eq_false_iff.mp h]

theorem afterAll_declare (h : d.isCompiled = false) (declarations : List Declaration) :
    d.afterAll (declarations.map .declare) =
      { d with blueprint := declarations.foldl Blueprint.add d.blueprint } := by
  induction declarations generalizing d with
  | nil => rfl
  | cons x rest ih =>
    rw [List.map_cons, afterAll_cons, after_declare_of_open h]
    exact ih h

/-! ### Frozen drafts -/

theorem declare_of_compiled (h : d.isCompiled = true) (x : Declaration) :
    d.declare x = .error .frozen := if_pos h

theorem compile_of_compiled (h : d.isCompiled = true) :
    ∃ result, d.compile = pure (result, d) := by
  obtain ⟨result, hresult⟩ := Option.isSome_iff_exists.mp h
  refine ⟨result, ?_⟩
  rw [compile, hresult]

theorem after_of_compiled (h : d.isCompiled = true) (call : DraftCall) : d.after call = d := by
  cases call with
  | declare x => rw [after, declare_of_compiled h]
  | compile =>
    obtain ⟨result, hcompile⟩ := compile_of_compiled h
    rw [after, hcompile]
    rfl

theorem afterAll_of_compiled (h : d.isCompiled = true) (calls : List DraftCall) :
    d.afterAll calls = d := by
  induction calls with
  | nil => rfl
  | cons call rest ih => rw [afterAll_cons, after_of_compiled h, ih]

theorem isCompiled_after_compile (d : Draft) : (d.after .compile).isCompiled = true := by
  cases hcompiled : d.isCompiled with
  | true => rw [after_of_compiled hcompiled, hcompiled]
  | false =>
    rw [after, compile_of_open hcompiled]
    rfl

theorem answer_after_compile (d : Draft) : (d.after .compile).answer .compile = d.answer .compile := by
  cases hcompiled : d.isCompiled with
  | true => rw [after_of_compiled hcompiled]
  | false =>
    rw [after, answer, answer, compile_of_open hcompiled]
    rfl

theorem isCompiled_afterAll (h : d.isCompiled = false) :
    (d.afterAll calls).isCompiled = true ↔ .compile ∈ calls := by
  induction calls generalizing d with
  | nil => simp [afterAll, h]
  | cons call rest ih =>
    rw [afterAll_cons]
    cases call with
    | declare x =>
      have hopen : (d.after (.declare x)).isCompiled = false := by
        rw [after_declare_of_open h]
        exact h
      simpa using ih hopen
    | compile =>
      rw [afterAll_of_compiled d.isCompiled_after_compile, d.isCompiled_after_compile]
      simp

/-- Declarations add up to the same draft in whatever order they are made, if only it is kept within each
kind, and compiling it gives the same session or the same error. A draft is compiled from the first time on
that it is compiled, and takes every declaration until then. The first compilation is noted. Ever after,
compiling gives what it gave then and notes nothing, and every declaration is refused and changes nothing. -/
theorem forgets_order_and_freezes :
    (∀ l m : List Declaration, (∀ kind, Declaration.ofKind kind l = Declaration.ofKind kind m) →
      let d := afterAll {} (l.map .declare)
      let d' := afterAll {} (m.map .declare)
      d = d' ∧ d.answer .compile = d'.answer .compile) ∧
    (∀ calls, (afterAll {} calls).isCompiled = true ↔ .compile ∈ calls) ∧
    ∀ first later, .compile ∉ first →
      let fresh := afterAll {} first
      let frozen := afterAll {} (first ++ .compile :: later)
      (∀ x, fresh.answer (.declare x) = .declared) ∧
      frozen = fresh.after .compile ∧ frozen.answer .compile = fresh.answer .compile ∧
      fresh.compile.notes = [.ofBuild fresh.compile.value.1] ∧ frozen.compile.notes = [] ∧
      ∀ x, frozen.answer (.declare x) = .refused .frozen ∧ frozen.after (.declare x) = frozen := by
  have hnew : isCompiled {} = false := rfl
  refine ⟨fun l m hkinds => ?_, fun calls => isCompiled_afterAll hnew, fun first later hfirst => ?_⟩
  · intro d d'
    have hsame : d = d' := by
      simp only [d, d', afterAll_declare hnew]
      rw [Blueprint.foldl_add_eq_of_kinds {} hkinds]
    exact ⟨hsame, congrArg (answer · .compile) hsame⟩
  · intro fresh frozen
    have hopen : fresh.isCompiled = false := by
      rw [← Bool.not_eq_true, isCompiled_afterAll hnew]
      exact hfirst
    have hcompiled : (fresh.after .compile).isCompiled = true := fresh.isCompiled_after_compile
    have hfrozen : frozen = fresh.after .compile := by
      simp only [frozen, afterAll_append, afterAll_cons]
      exact afterAll_of_compiled hcompiled later
    rw [hfrozen]
    refine ⟨fun x => ?_, rfl, fresh.answer_after_compile, ?_, ?_, fun x => ⟨?_, ?_⟩⟩
    · rw [answer, declare_of_open hopen]
    · rw [compile_of_open hopen]
    · obtain ⟨result, hcompile⟩ := compile_of_compiled hcompiled
      rw [hcompile]
      rfl
    · rw [answer, declare_of_compiled hcompiled]
    · exact after_of_compiled hcompiled _

/-- A pawn that is placed before anything is declared that it could stand on, and then placed again. -/
def hasty : List Declaration :=
  [.pieceAt "pawn" "a1", .piece { id := "pawn", owner := some "white" }, .config { seed := 3 },
    .tile "a1", .pieceAt "pawn" "a2", .player "white", .config { seed := 5 }, .tile "a2"]

/-- The same declarations, each kind at its time. -/
def orderly : List Declaration :=
  [.tile "a1", .tile "a2", .player "white", .piece { id := "pawn", owner := some "white" },
    .pieceAt "pawn" "a1", .pieceAt "pawn" "a2", .config { seed := 3 }, .config { seed := 5 }]

/-- Either way the pawn ends up on the second tile. A third tile comes too late. -/
theorem hasty_like_orderly :
    (∀ kind, Declaration.ofKind kind hasty = Declaration.ofKind kind orderly) ∧
    ∃ start, start.snapshot.tileOf? "pawn" = some "a2" ∧
      (afterAll {} (hasty.map .declare)).answer .compile = .compiled (.ok start) ∧
      (afterAll {} (orderly.map .declare)).answer .compile = .compiled (.ok start) ∧
      .compile ∉ hasty.map DraftCall.declare ∧
      let frozen := afterAll {} (hasty.map .declare ++ .compile :: [.declare (.tile "a3"), .compile])
      frozen.answer .compile = .compiled (.ok start) ∧ frozen.compile.notes = [] ∧
      frozen.answer (.declare (.tile "a3")) = .refused .frozen := by
  have hkinds : ∀ kind, Declaration.ofKind kind hasty = Declaration.ofKind kind orderly := by
    intro kind
    cases kind <;> rfl
  have hopen : .compile ∉ hasty.map DraftCall.declare := by simp
  obtain ⟨horder, -, hfreezes⟩ := forgets_order_and_freezes
  obtain ⟨-, hsame⟩ := horder hasty orderly hkinds
  obtain ⟨-, -, hagain, -, hsilent, hrefused⟩ := hfreezes _ [.declare (.tile "a3"), .compile] hopen
  exact ⟨hkinds, _, rfl, rfl, hsame.symm.trans rfl, hopen, hagain.trans rfl, hsilent,
    (hrefused _).1⟩

end Draft

end BoardGame
