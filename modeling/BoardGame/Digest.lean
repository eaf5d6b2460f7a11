import BoardGame.Binary.Codec

/-!
A 64-bit digest of structured values. Every word of a value is mixed in with a rotation, an exclusive
or and a multiplication; a sum contributes the position of its case first. Ordered maps and sets
contribute their entries alone, lists their length as well.
-/

namespace BoardGame

class Digestible (α : Type) where
  /-- The digest so far, extended by a value. -/
  absorb : UInt64 → α → UInt64

export Digestible (absorb)

namespace Digest

/-- One word: rotate the digest by five bits, exclusive-or, multiply. -/
def word (h w : UInt64) : UInt64 :=
  (((h <<< 5) ||| (h >>> 59)) ^^^ w) * 0x517cc1b727220a95

/-- The position of a case in its sum. -/
def caseOf (h : UInt64) (n : Nat) : UInt64 := word h (UInt64.ofNat n)

def chunk (h : UInt64) (bytes : Bytes) : UInt64 :=
  word h (UInt64.ofNat (Binary.ofLittleEndian bytes))

/-- A chunk of the given size if that many bytes are left. -/
def chunkIf (size : Nat) (p : UInt64 × Bytes) : UInt64 × Bytes :=
  if size ≤ p.2.length then (chunk p.1 (p.2.take size), p.2.drop size) else p

/-- Bytes go in as chunks of eight, then at most one each of four, two and one. -/
def bytes (h : UInt64) : Bytes → UInt64
  | a :: b :: c :: d :: e :: f :: g :: i :: rest => bytes (chunk h [a, b, c, d, e, f, g, i]) rest
  | rest => (chunkIf 1 (chunkIf 2 (chunkIf 4 (h, rest)))).1

def ofValue {α : Type} [Digestible α] (x : α) : UInt64 := absorb 0 x

end Digest

open Digest

instance : Digestible Unit := ⟨fun h _ => h⟩
instance : Digestible Bool := ⟨fun h b => word h (if b then 1 else 0)⟩
instance : Digestible UInt64 := ⟨word⟩
instance : Digestible Int64 := ⟨fun h n => word h n.toUInt64⟩

/-- The low half goes in before the high half. -/
instance : Digestible (BitVec 128) where
  absorb h n := word (word h (UInt64.ofBitVec (n.setWidth 64))) (UInt64.ofBitVec (n.extractLsb' 64 64))

/-- Texts are closed by a word that no text contains. -/
instance : Digestible String where
  absorb h s := word (bytes h s.toUTF8.toList) 0xff

instance {α : Type} [Digestible α] : Digestible (Option α) where
  absorb h
    | none => caseOf h 0
    | some x => absorb (caseOf h 1) x

instance {α : Type} [Digestible α] : Digestible (List α) where
  absorb h items := items.foldl absorb (word h (UInt64.ofNat items.length))

instance {α β : Type} [Digestible α] [Digestible β] : Digestible (α × β) where
  absorb h p := absorb (absorb h p.1) p.2

instance {κ α : Type} [KeyOrder κ] [Digestible κ] [Digestible α] : Digestible (SortedMap κ α) where
  absorb h m := m.entries.foldl absorb h

end BoardGame
