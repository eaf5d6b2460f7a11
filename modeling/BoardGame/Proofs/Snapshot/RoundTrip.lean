import BoardGame.Proofs.Binary.RoundTrip
import BoardGame.Snapshot.Edit

/-!
Snapshots are read back as they were written, indexes included. Values nest records to any depth; they are
read with as much depth as the input has bytes, which is enough, since every level takes some.
-/

namespace BoardGame

open Binary

/-! ### Values -/

namespace Datum

mutual

def lengths : Datum → List Nat
  | .int n => Measured.lengths n
  | .flag b => Measured.lengths b
  | .text s => Measured.lengths s
  | .ints items => Measured.lengths items
  | .texts items => Measured.lengths items
  | .record fields => fields.length :: fieldLengths fields

def fieldLengths : List (String × Datum) → List Nat
  | [] => []
  | (k, x) :: rest => Measured.lengths k ++ lengths x ++ fieldLengths rest

end

instance : Measured Datum := ⟨lengths⟩

/-- One field of a record, whose value is nested at most `depth` deep. -/
def fieldOfBytes (depth : Nat) : Decoder (String × Datum) := do
  let key ← Binary.decode
  let x ← ofBytes depth
  return (key, x)

def fieldToBytes (e : String × Datum) : Bytes := encode e.1 ++ toBytes e.2

theorem fieldsToBytes_eq_flatMap (fields : List (String × Datum)) :
    fieldsToBytes fields = fields.flatMap fieldToBytes := by
  induction fields with
  | nil => rfl
  | cons e rest ih => rw [fieldsToBytes, ih, List.flatMap_cons, fieldToBytes]

theorem fieldLengths_eq_flatMap (fields : List (String × Datum)) :
    fieldLengths fields = fields.flatMap fun e => Measured.lengths e.1 ++ lengths e.2 := by
  induction fields with
  | nil => rfl
  | cons e rest ih => rw [fieldLengths, ih, List.flatMap_cons]

theorem length_fieldToBytes_pos (e : String × Datum) : 0 < (fieldToBytes e).length := by
  have hkey := Tangible.length_pos e.1
  rw [fieldToBytes, List.length_append]
  omega

theorem length_toBytes_pos (x : Datum) : 0 < (toBytes x).length := by
  cases x with
  | record fields =>
    rw [toBytes, List.append_assoc]
    exact length_case_pos 5 _
  | _ => exact length_case_pos _ _

theorem writable_record_iff {fields : List (String × Datum)} :
    Writable (record fields) ↔
      fields.length < 1 <<< 64 ∧ ∀ e ∈ fields, Writable e.1 ∧ Writable e.2 := by
  rw [Writable, show Measured.lengths (record fields) = fields.length :: fieldLengths fields from rfl,
    List.forall_mem_cons, fieldLengths_eq_flatMap, List.forall_mem_flatMap]
  simp only [List.forall_mem_append]
  rfl

theorem length_toBytes_le_of_mem {e : String × Datum} {fields : List (String × Datum)}
    (h : e ∈ fields) : (toBytes e.2).length ≤ (fieldsToBytes fields).length := by
  rw [fieldsToBytes_eq_flatMap]
  have hmem : fieldToBytes e ∈ fields.map fieldToBytes := List.mem_map_of_mem h
  have hle := (List.sublist_flatten_of_mem hmem).length_le
  rw [← List.flatMap_def, fieldToBytes, List.length_append] at hle
  omega

def ofCase (depth : Nat) : Nat → Decoder Datum
  | 0 => Binary.decode >>= fun n => pure (.int n)
  | 1 => Binary.decode >>= fun b => pure (.flag b)
  | 2 => Binary.decode >>= fun s => pure (.text s)
  | 3 => Binary.decode >>= fun items => pure (.ints items)
  | 4 => Binary.decode >>= fun items => pure (.texts items)
  | 5 =>
    decodeEntries (fieldOfBytes depth) (Footprint.size (String × Datum)) >>= fun fields =>
      pure (.record fields)
  | _ => Binary.fail .badCase

theorem ofBytes_succ (depth : Nat) : ofBytes (depth + 1) = decodeCase >>= ofCase depth := by
  rw [ofBytes]
  congr 1

/-- Data is read back with any depth that is no less than the number of its bytes. -/
theorem reads_toBytes {x : Datum} {depth : Nat} (hx : Writable x)
    (hdepth : (toBytes x).length ≤ depth) : Reads (ofBytes depth) (toBytes x) x := by
  induction depth generalizing x with
  | zero => exact absurd (length_toBytes_pos x) (Nat.not_lt.mpr hdepth)
  | succ depth ih =>
    rw [ofBytes_succ]
    cases x with
    | int n => exact ((reads_encode n hx).map Datum.int).afterCase (by decide) rfl
    | flag b => exact ((reads_encode b hx).map Datum.flag).afterCase (by decide) rfl
    | text s => exact ((reads_encode s hx).map Datum.text).afterCase (by decide) rfl
    | ints items => exact ((reads_encode items hx).map Datum.ints).afterCase (by decide) rfl
    | texts items => exact ((reads_encode items hx).map Datum.texts).afterCase (by decide) rfl
    | record fields =>
      obtain ⟨hlength, hfields⟩ := writable_record_iff.mp hx
      rw [toBytes, List.append_assoc] at hdepth ⊢
      have hentries : ∀ e ∈ fields, Reads (fieldOfBytes depth) (fieldToBytes e) e := by
        intro e he
        obtain ⟨hkey, hvalue⟩ := hfields e he
        have hle := length_toBytes_le_of_mem he
        have hsmaller : (toBytes e.2).length ≤ depth := by
          rw [List.length_append, List.length_append, encodeCase, length_littleEndian] at hdepth
          omega
        exact (reads_encode e.1 hkey).bind ((ih hvalue hsmaller).map fun x => (e.1, x))
      rw [fieldsToBytes_eq_flatMap]
      exact ((reads_entries (Footprint.size (String × Datum)) hlength
        (fun e _ => length_fieldToBytes_pos e) hentries).map Datum.record).afterCase (by decide) rfl

end Datum

instance : Measured Value := ⟨fun v => lengths v.datum⟩

instance : RoundTrips Value where
  reads_encode v hv rest := by
    have hread : Reads (Datum.ofBytes (encode v ++ rest).length >>= fun x => pure (Value.ofDatum x))
        (encode v) (Value.ofDatum v.datum) :=
      (Datum.reads_toBytes hv (by rw [List.length_append]; exact Nat.le_add_right _ _)).map _
    rw [Value.ofDatum_datum] at hread
    exact hread rest

/-! ### Statuses -/

instance : Measured Aspect where
  lengths
    | .custom name => lengths name
    | _ => []

instance : Tangible Aspect where
  length_pos a := by
    cases a with
    | custom name => exact length_case_pos 4 (encode name)
    | _ => exact length_case_pos _ []

instance : RoundTrips Aspect where
  reads_encode a ha := by
    cases a with
    | piece => exact (reads_pure Aspect.piece).afterCase (by decide) rfl
    | dice => exact (reads_pure Aspect.dice).afterCase (by decide) rfl
    | activePlayer => exact (reads_pure Aspect.activePlayer).afterCase (by decide) rfl
    | captured => exact (reads_pure Aspect.captured).afterCase (by decide) rfl
    | custom name => exact ((reads_encode name ha).map Aspect.custom).afterCase (by decide) rfl

instance : Measured Status where
  lengths
    | .piece piece tile => lengths piece ++ lengths tile
    | .dice dice face => lengths dice ++ lengths face
    | .activePlayer player active => lengths player ++ lengths active
    | .captured piece => lengths piece
    | .custom artifact name value => lengths artifact ++ lengths name ++ lengths value

instance : RoundTrips Status where
  reads_encode s hs := by
    cases s with
    | piece piece tile =>
      obtain ⟨hpiece, htile⟩ := List.forall_mem_append.mp hs
      exact reads_case_two Status.piece hpiece htile (by decide) rfl
    | dice dice face =>
      obtain ⟨hdice, hface⟩ := List.forall_mem_append.mp hs
      exact reads_case_two Status.dice hdice hface (by decide) rfl
    | activePlayer player active =>
      obtain ⟨hplayer, hactive⟩ := List.forall_mem_append.mp hs
      exact reads_case_two Status.activePlayer hplayer hactive (by decide) rfl
    | captured piece =>
      exact ((reads_encode piece hs).map Status.captured).afterCase (by decide) rfl
    | custom artifact name value =>
      obtain ⟨hid, hvalue⟩ := List.forall_mem_append.mp hs
      obtain ⟨hartifact, hname⟩ := List.forall_mem_append.mp hid
      have hread : Reads
          (decode >>= fun artifact => decode >>= fun name => decode >>= fun value =>
            pure (Status.custom artifact name value))
          (encode artifact ++ (encode name ++ encode value)) (.custom artifact name value) := by
        refine (reads_encode artifact hartifact).bind ?_
        refine (reads_encode name hname).bind ?_
        exact (reads_encode value hvalue).map fun value => Status.custom artifact name value
      rw [show encode (Status.custom artifact name value) =
        encodeCase 4 ++ (encode artifact ++ (encode name ++ encode value)) from
          (List.append_assoc ..).trans (List.append_assoc ..)]
      exact hread.afterCase (by decide) rfl

/-! ### Snapshots -/

instance : Measured RollState := ⟨fun _ => []⟩

instance : RoundTrips RollState where
  reads_encode s _ :=
    (reads_encode s.seed (List.forall_mem_nil _)).bind
      ((reads_encode s.position (List.forall_mem_nil _)).map (RollState.mk s.seed))

instance : Measured Snapshot where
  lengths s :=
    lengths s.statuses ++ (lengths s.occupancy ++ (lengths s.carriers ++
      (lengths s.extras ++ lengths s.rolls)))

instance : RoundTrips Snapshot where
  reads_encode s hs := by
    obtain ⟨hstatuses, hs⟩ := List.forall_mem_append.mp hs
    obtain ⟨hoccupancy, hs⟩ := List.forall_mem_append.mp hs
    obtain ⟨hcarriers, hs⟩ := List.forall_mem_append.mp hs
    obtain ⟨hextras, hrolls⟩ := List.forall_mem_append.mp hs
    have hbytes : encode s = encode s.statuses ++ (encode s.occupancy ++ (encode s.carriers ++
        (encode s.extras ++ encode s.rolls))) := by
      simp only [← List.append_assoc]
      rfl
    rw [hbytes]
    exact (reads_encode s.statuses hstatuses).bind <| (reads_encode s.occupancy hoccupancy).bind <|
      (reads_encode s.carriers hcarriers).bind <| (reads_encode s.extras hextras).bind <|
        (reads_encode s.rolls hrolls).map fun rolls =>
          Snapshot.mk s.statuses s.occupancy s.carriers s.extras rolls

namespace Snapshot

theorem decode_encode {s : Snapshot} (h : Writable s) (rest : Bytes) :
    decode (encode s ++ rest) = .ok s := by
  rw [decode, reads_encode s h rest]

theorem encode_injective {s t : Snapshot} (hs : Writable s) (ht : Writable t)
    (h : encode s = encode t) : s = t := by
  have hread : decode (encode s ++ []) = .ok t := by rw [h, decode_encode ht]
  rw [decode_encode hs] at hread
  exact Except.ok.inj hread

/-- A snapshot whose lengths fit their eight bytes is read back from the bytes written for it, whatever
follows them; so two such snapshots are written alike only if they are the same. This asks nothing of
how they were made, so it holds of all that changes to a fresh snapshot lead to. -/
theorem encoding_round_trips (s : Snapshot) (hs : Writable s) :
    (∀ rest, decode (encode s ++ rest) = .ok s) ∧
    ∀ t, Writable t → (encode s = encode t ↔ s = t) := by
  refine ⟨decode_encode hs, ?_⟩
  intro t ht
  constructor
  · exact encode_injective hs ht
  · exact congrArg encode

/-- A status of every case, records within records, and a dice stream in the middle of a block. -/
def midgame : Snapshot :=
  (seeded 5).editAll
    [.put [.piece "rook" "a1", .captured "pawn", .dice "d6" (some (-4)), .dice "d8" none,
      .activePlayer "white" true, .custom "rook" "worn" (.texts ["", "é"])],
    .extra "log" (Value.emptyRecord.withField "b" (Value.emptyRecord.withField "a" (.ints [3, -1]))),
    .rolls ⟨5, 1 <<< 64 + 7⟩, .remove "d8" .dice, .put [.piece "rook" "h8"]]

theorem midgame_round_trips :
    Writable midgame ∧ Writable (midgame.remove "pawn" .captured) ∧
    (∀ rest, decode (encode midgame ++ rest) = .ok midgame) ∧
    (encode midgame = encode (midgame.remove "pawn" .captured) ↔
      midgame = midgame.remove "pawn" .captured) := by
  have hs : Writable midgame := by decide +kernel
  have ht : Writable (midgame.remove "pawn" .captured) := by decide +kernel
  obtain ⟨hread, hinjective⟩ := encoding_round_trips midgame hs
  exact ⟨hs, ht, hread, hinjective _ ht⟩

end Snapshot

end BoardGame
