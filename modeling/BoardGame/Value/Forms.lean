import BoardGame.Value.Basic
import BoardGame.Digest
import BoardGame.Json

/-!
The document, binary and digest forms of payload values. Readers take the data as written and then
canonicalize it, so of several fields of one name the last one wins.
-/

namespace BoardGame

/-- A case and its widest contents, a text or list with its capacity. -/
instance : Footprint Datum := ⟨32⟩

/-- A value in a map is held as a place. -/
instance : Footprint Value := ⟨8⟩

namespace Datum

mutual

def toDocument : Datum → Json
  | .int n => .tagged "Int" (toJson n)
  | .flag b => .tagged "Bool" (toJson b)
  | .text s => .tagged "Text" (toJson s)
  | .ints items => .tagged "IntList" (toJson items)
  | .texts items => .tagged "TextList" (toJson items)
  | .record fields => .tagged "Record" (.object (fieldsToDocument fields))

def fieldsToDocument : List (String × Datum) → List (String × Json)
  | [] => []
  | (k, x) :: rest => (k, toDocument x) :: fieldsToDocument rest

end

mutual

def ofDocument? : Json → Option Datum
  | .object [("Record", .object fields)] => (fieldsOfDocument? fields).map .record
  | .object [("Int", carried)] => (ofJson? carried).map .int
  | .object [("Bool", carried)] => (ofJson? carried).map .flag
  | .object [("Text", carried)] => (ofJson? carried).map .text
  | .object [("IntList", carried)] => (ofJson? carried).map .ints
  | .object [("TextList", carried)] => (ofJson? carried).map .texts
  | _ => none

def fieldsOfDocument? : List (String × Json) → Option (List (String × Datum))
  | [] => some []
  | (k, document) :: rest => do
    let x ← ofDocument? document
    let rest ← fieldsOfDocument? rest
    return (k, x) :: rest

end

mutual

def toBytes : Datum → Bytes
  | .int n => Binary.encodeCase 0 ++ encode n
  | .flag b => Binary.encodeCase 1 ++ encode b
  | .text s => Binary.encodeCase 2 ++ encode s
  | .ints items => Binary.encodeCase 3 ++ encode items
  | .texts items => Binary.encodeCase 4 ++ encode items
  | .record fields =>
    Binary.encodeCase 5 ++ Binary.encodeLength fields.length ++ fieldsToBytes fields

def fieldsToBytes : List (String × Datum) → Bytes
  | [] => []
  | (k, x) :: rest => encode k ++ toBytes x ++ fieldsToBytes rest

end

/-- Data nested at most `depth` deep. Every level takes some bytes, so with the length of the input
as depth the input ends no later than the depth does. -/
def ofBytes : Nat → Decoder Datum
  | 0 => Binary.fail .endOfInput
  | depth + 1 => do
    match ← Binary.decodeCase with
    | 0 => return .int (← Binary.decode)
    | 1 => return .flag (← Binary.decode)
    | 2 => return .text (← Binary.decode)
    | 3 => return .ints (← Binary.decode)
    | 4 => return .texts (← Binary.decode)
    | 5 =>
      let field : Decoder (String × Datum) := do
        let key ← Binary.decode
        let x ← ofBytes depth
        return (key, x)
      return .record (← Binary.decodeEntries field (Footprint.size (String × Datum)))
    | _ => Binary.fail .badCase

mutual

def absorbed (h : UInt64) : Datum → UInt64
  | .int n => absorb (Digest.caseOf h 0) n
  | .flag b => absorb (Digest.caseOf h 1) b
  | .text s => absorb (Digest.caseOf h 2) s
  | .ints items => absorb (Digest.caseOf h 3) items
  | .texts items => absorb (Digest.caseOf h 4) items
  | .record fields => absorbedFields (Digest.caseOf h 5) fields

def absorbedFields (h : UInt64) : List (String × Datum) → UInt64
  | [] => h
  | (k, x) :: rest => absorbedFields (absorbed (absorb h k) x) rest

end

end Datum

instance : JsonForm Value where
  toJson v := v.datum.toDocument
  ofJson? document := (Datum.ofDocument? document).map Value.ofDatum

instance : Binary Value where
  encode v := v.datum.toBytes
  decode := do
    let input ← get
    return Value.ofDatum (← Datum.ofBytes input.length)

instance : Digestible Value := ⟨fun h v => v.datum.absorbed h⟩

end BoardGame
