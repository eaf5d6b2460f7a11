/-!
Results together with the notes taken on the way to them. Notes never influence a result; sequencing
appends the notes of the second step to those of the first.
-/

namespace BoardGame

structure Noted (ν α : Type) where
  value : α
  notes : List ν
  deriving DecidableEq, Repr

namespace Noted

variable {ν μ α β : Type}

instance : Monad (Noted ν) where
  pure a := ⟨a, []⟩
  bind x f := ⟨(f x.value).value, x.notes ++ (f x.value).notes⟩

def note (n : ν) : Noted ν Unit := ⟨(), [n]⟩

def mapNotes (f : ν → μ) (x : Noted ν α) : Noted μ α := ⟨x.value, x.notes.map f⟩

@[simp] theorem value_pure (a : α) : (pure a : Noted ν α).value = a := rfl
@[simp] theorem notes_pure (a : α) : (pure a : Noted ν α).notes = [] := rfl

@[simp] theorem value_bind (x : Noted ν α) (f : α → Noted ν β) :
    (x >>= f).value = (f x.value).value := rfl
@[simp] theorem notes_bind (x : Noted ν α) (f : α → Noted ν β) :
    (x >>= f).notes = x.notes ++ (f x.value).notes := rfl

@[simp] theorem value_note (n : ν) : (note n).value = () := rfl
@[simp] theorem notes_note (n : ν) : (note n).notes = [n] := rfl

@[simp] theorem value_mapNotes (f : ν → μ) (x : Noted ν α) : (x.mapNotes f).value = x.value := rfl
@[simp] theorem notes_mapNotes (f : ν → μ) (x : Noted ν α) :
    (x.mapNotes f).notes = x.notes.map f := rfl

theorem value_foldlM {σ : Type} (f : σ → α → Noted ν σ) (l : List α) (x : σ) :
    (l.foldlM f x).value = l.foldl (fun x a => (f x a).value) x := by
  induction l generalizing x with
  | nil => rfl
  | cons a rest ih =>
    rw [List.foldlM_cons, value_bind, ih]
    rfl

end Noted

end BoardGame
