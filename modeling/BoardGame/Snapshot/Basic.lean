import BoardGame.Dice.Roll
import BoardGame.Snapshot.Status

/-!
Snapshots of everything that changes during play: the statuses of artifacts, named extras, and the
position of the dice stream. Two indexes are kept beside the statuses: which pieces stand on a tile and
which artifacts carry an aspect. Sets without members are not stored, so the indexes too are the same
for the same statuses. Operations return new snapshots; storing, removing and recording change what is
found at one key alone.
-/

namespace BoardGame

structure Snapshot where
  statuses : SortedMap (ArtifactId × Aspect) Status := .empty
  occupancy : SortedMap ArtifactId (SortedSet ArtifactId) := .empty
  carriers : SortedMap Aspect (SortedSet ArtifactId) := .empty
  extras : SortedMap String Value := .empty
  rolls : RollState := {}
  deriving DecidableEq, Inhabited

namespace Snapshot

/-- Nothing placed and nothing recorded, with dice of the given seed. -/
def seeded (seed : UInt64) : Snapshot := { rolls := RollState.seeded seed }

section Index

variable {κ : Type} [KeyOrder κ] [DecidableEq κ]

def members (index : SortedMap κ (SortedSet ArtifactId)) (k : κ) : List ArtifactId :=
  ((index.get? k).getD .empty).keys

def addMember (index : SortedMap κ (SortedSet ArtifactId)) (k : κ) (artifact : ArtifactId) :
    SortedMap κ (SortedSet ArtifactId) :=
  index.insert k (((index.get? k).getD .empty).insert artifact ())

/-- Takes a member out of a set, and the set out of the index when that was the last one. -/
def dropMember (index : SortedMap κ (SortedSet ArtifactId)) (k : κ) (artifact : ArtifactId) :
    SortedMap κ (SortedSet ArtifactId) :=
  match index.get? k with
  | none => index
  | some set =>
    let set := set.erase artifact
    if set.isEmpty then index.erase k else index.insert k set

end Index

section Lookup

variable (s : Snapshot)

def get? (artifact : ArtifactId) (aspect : Aspect) : Option Status :=
  s.statuses.get? (artifact, aspect)

/-- Whether an artifact has a status of an aspect, as the index knows it. -/
def has (artifact : ArtifactId) (aspect : Aspect) : Bool :=
  match s.carriers.get? aspect with
  | some set => set.contains artifact
  | none => false

def tileOf? (piece : ArtifactId) : Option ArtifactId :=
  match s.get? piece .piece with
  | some (.piece _ tile) => some tile
  | _ => none

/-- The pieces on a tile, in the order of their names. -/
def piecesOn (tile : ArtifactId) : List ArtifactId := members s.occupancy tile

def isOccupied (tile : ArtifactId) : Bool :=
  match s.occupancy.get? tile with
  | some set => !set.isEmpty
  | none => false

/-- The face that a die shows; none before its first roll. -/
def faceOf? (dice : ArtifactId) : Option Int64 :=
  match s.get? dice .dice with
  | some (.dice _ face) => face
  | _ => none

/-- The artifacts with a status of an aspect, in the order of their names. -/
def carriersOf (aspect : Aspect) : List ArtifactId := members s.carriers aspect

def isActive (player : ArtifactId) : Bool :=
  match s.get? player .activePlayer with
  | some (.activePlayer _ active) => active
  | _ => false

/-- The first player, in the order of their names, who is to act. -/
def activePlayer? : Option ArtifactId := (s.carriersOf .activePlayer).find? s.isActive

def isCaptured (piece : ArtifactId) : Bool := s.has piece .captured

def customValue? (artifact : ArtifactId) (name : String) : Option Value :=
  match s.get? artifact (.custom name) with
  | some (.custom _ _ value) => some value
  | _ => none

/-- The statuses of an aspect, in the order of their artifacts. -/
def statusesOf (aspect : Aspect) : List Status :=
  (s.carriersOf aspect).filterMap fun artifact => s.get? artifact aspect

/-- Every status, by artifact and then by aspect. -/
def allStatuses : List Status := s.statuses.values

def extra? (key : String) : Option Value := s.extras.get? key

end Lookup

/-- Takes a piece off the tile that it stands on, in the index of tiles. -/
def vacate (s : Snapshot) (piece : ArtifactId) : Snapshot :=
  match s.tileOf? piece with
  | some tile => { s with occupancy := dropMember s.occupancy tile piece }
  | none => s

/-- Enters a piece into the index of tiles in place of the tile it was on. -/
def settle (s : Snapshot) : Status → Snapshot
  | .piece piece tile =>
    let s := s.vacate piece
    { s with occupancy := addMember s.occupancy tile piece }
  | _ => s

/-- Stores a status in place of the artifact's former one of the same aspect. -/
def put (s : Snapshot) (status : Status) : Snapshot :=
  if s.statuses.get? status.key = some status then s
  else
    let s := s.settle status
    { s with
      carriers := addMember s.carriers status.aspect status.artifact
      statuses := s.statuses.insert status.key status }

def putAll (s : Snapshot) (statuses : List Status) : Snapshot := statuses.foldl put s

/-- Removes the status that an artifact has of an aspect, if any. -/
def remove (s : Snapshot) (artifact : ArtifactId) (aspect : Aspect) : Snapshot :=
  match s.get? artifact aspect with
  | none => s
  | some _ =>
    { s with
      statuses := s.statuses.erase (artifact, aspect)
      occupancy := if aspect = .piece then (s.vacate artifact).occupancy else s.occupancy
      carriers := dropMember s.carriers aspect artifact }

def setExtra (s : Snapshot) (key : String) (value : Value) : Snapshot :=
  if s.extras.get? key = some value then s
  else { s with extras := s.extras.insert key value }

def setRolls (s : Snapshot) (rolls : RollState) : Snapshot := { s with rolls }

@[simp] theorem statuses_vacate (s : Snapshot) (piece : ArtifactId) :
    (s.vacate piece).statuses = s.statuses := by
  unfold vacate
  split <;> rfl

@[simp] theorem carriers_vacate (s : Snapshot) (piece : ArtifactId) :
    (s.vacate piece).carriers = s.carriers := by
  unfold vacate
  split <;> rfl

@[simp] theorem extras_vacate (s : Snapshot) (piece : ArtifactId) :
    (s.vacate piece).extras = s.extras := by
  unfold vacate
  split <;> rfl

@[simp] theorem rolls_vacate (s : Snapshot) (piece : ArtifactId) :
    (s.vacate piece).rolls = s.rolls := by
  unfold vacate
  split <;> rfl

@[simp] theorem statuses_settle (s : Snapshot) (status : Status) :
    (s.settle status).statuses = s.statuses := by
  cases status <;> simp [settle]

@[simp] theorem carriers_settle (s : Snapshot) (status : Status) :
    (s.settle status).carriers = s.carriers := by
  cases status <;> simp [settle]

@[simp] theorem extras_settle (s : Snapshot) (status : Status) :
    (s.settle status).extras = s.extras := by
  cases status <;> simp [settle]

@[simp] theorem rolls_settle (s : Snapshot) (status : Status) :
    (s.settle status).rolls = s.rolls := by
  cases status <;> simp [settle]

@[simp] theorem extras_put (s : Snapshot) (status : Status) : (s.put status).extras = s.extras := by
  unfold put
  split <;> simp

@[simp] theorem rolls_put (s : Snapshot) (status : Status) : (s.put status).rolls = s.rolls := by
  unfold put
  split <;> simp

@[simp] theorem extras_putAll (s : Snapshot) (statuses : List Status) :
    (s.putAll statuses).extras = s.extras := by
  induction statuses generalizing s with
  | nil => rfl
  | cons status rest ih => exact (ih (s.put status)).trans (s.extras_put status)

@[simp] theorem rolls_putAll (s : Snapshot) (statuses : List Status) :
    (s.putAll statuses).rolls = s.rolls := by
  induction statuses generalizing s with
  | nil => rfl
  | cons status rest ih => exact (ih (s.put status)).trans (s.rolls_put status)

@[simp] theorem extras_remove (s : Snapshot) (artifact : ArtifactId) (aspect : Aspect) :
    (s.remove artifact aspect).extras = s.extras := by
  unfold remove
  split <;> rfl

@[simp] theorem rolls_remove (s : Snapshot) (artifact : ArtifactId) (aspect : Aspect) :
    (s.remove artifact aspect).rolls = s.rolls := by
  unfold remove
  split <;> rfl

/-- Storing a status changes what is found at its own key alone. -/
theorem get?_put (s : Snapshot) (status : Status) (artifact : ArtifactId) (aspect : Aspect) :
    (s.put status).get? artifact aspect =
      if (artifact, aspect) = status.key then some status else s.get? artifact aspect := by
  unfold put get?
  split
  · rename_i h
    by_cases hk : (artifact, aspect) = status.key
    · simp [hk, h]
    · simp [hk]
  · simp [SortedMap.get?_insert]

/-- After a list of changes the last one to a key is found there, and what was there before where
none of them belongs. -/
theorem get?_putAll (s : Snapshot) (statuses : List Status) (artifact : ArtifactId)
    (aspect : Aspect) :
    (s.putAll statuses).get? artifact aspect =
      (statuses.reverse.find? fun status => status.key = (artifact, aspect)).or
        (s.get? artifact aspect) := by
  induction statuses generalizing s with
  | nil => rfl
  | cons status rest ih =>
    rw [show s.putAll (status :: rest) = (s.put status).putAll rest from rfl, ih, get?_put,
      List.reverse_cons, List.find?_append, Option.or_assoc]
    congr 1
    by_cases hkey : status.key = (artifact, aspect)
    · simp [hkey]
    · simp [hkey, Ne.symm hkey]

/-- Removing a status changes what is found at its own key alone. -/
theorem get?_remove (s : Snapshot) (artifact id : ArtifactId) (aspect a : Aspect) :
    (s.remove artifact aspect).get? id a =
      if (id, a) = (artifact, aspect) then none else s.get? id a := by
  unfold remove
  split
  · rename_i h
    by_cases hk : (id, a) = (artifact, aspect)
    · cases hk
      simp [h]
    · simp [hk]
  · simp only [get?, SortedMap.get?_erase]

theorem extra?_setExtra (s : Snapshot) (key k : String) (value : Value) :
    (s.setExtra key value).extra? k = if k = key then some value else s.extra? k := by
  unfold setExtra extra?
  split
  · rename_i h
    by_cases hk : k = key
    · simp [hk, h]
    · simp [hk]
  · simp [SortedMap.get?_insert]

theorem putAll_append (s : Snapshot) (l m : List Status) :
    s.putAll (l ++ m) = (s.putAll l).putAll m := List.foldl_append

end Snapshot

instance : Binary Snapshot where
  encode s :=
    encode s.statuses ++ encode s.occupancy ++ encode s.carriers ++ encode s.extras ++
      encode s.rolls
  decode :=
    return ⟨← Binary.decode, ← Binary.decode, ← Binary.decode, ← Binary.decode, ← Binary.decode⟩

instance : Digestible Snapshot where
  absorb h s :=
    absorb (absorb (absorb (absorb (absorb h s.statuses) s.occupancy) s.carriers) s.extras) s.rolls

namespace Snapshot

def fingerprint (s : Snapshot) : UInt64 := Digest.ofValue s

/-- Reads a snapshot from the front of some bytes; what follows it is ignored. -/
def decode (bytes : Bytes) : Except DecodeError Snapshot :=
  match (Binary.decode : Decoder Snapshot) bytes with
  | .ok (s, _) => .ok s
  | .error e => .error e

end Snapshot

end BoardGame
