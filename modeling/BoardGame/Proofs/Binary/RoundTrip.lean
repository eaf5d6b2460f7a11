import BoardGame.Binary.Codec

/-!
What is written can be read back, whatever follows it. Nothing in the bytes says where a value ends, so a
decoder has to take exactly the bytes that were written for the value and leave the rest; then reading one
value after another undoes writing one after another. All this is under the proviso that the lengths
written before texts, lists, maps and sets fit their eight bytes.
-/

namespace BoardGame

/-- The lengths that are written with a value. -/
class Measured (α : Type) where
  lengths : α → List Nat

export Measured (lengths)

/-- All lengths fit their eight bytes. -/
def Writable {α : Type} [Measured α] (x : α) : Prop := ∀ n ∈ lengths x, n < 1 <<< 64

instance {α : Type} [Measured α] (x : α) : Decidable (Writable x) :=
  inferInstanceAs (Decidable (∀ n ∈ lengths x, n < 1 <<< 64))

namespace Binary

variable {α β γ : Type}

/-- A decoder takes some bytes for a value and leaves what follows them. -/
def Reads (d : Decoder α) (bytes : Bytes) (x : α) : Prop := ∀ rest, d (bytes ++ rest) = .ok (x, rest)

section Sequence

variable {d : Decoder α} {next : α → Decoder β} {bytes more : Bytes} {x : α} {y : β}

theorem reads_pure (x : α) : Reads (pure x) [] x := fun _ => rfl

theorem Reads.bind (h : Reads d bytes x) (hnext : Reads (next x) more y) :
    Reads (d >>= next) (bytes ++ more) y := by
  intro rest
  have hrun : (d >>= next) (bytes ++ more ++ rest) =
      (d (bytes ++ (more ++ rest)) >>= fun p => next p.1 p.2) := by
    rw [List.append_assoc]
    rfl
  rw [hrun, h]
  exact hnext rest

/-- What comes after the last bytes of a value takes none. -/
theorem Reads.last (h : Reads d bytes x) (hnext : Reads (next x) [] y) :
    Reads (d >>= next) bytes y := by
  have hall := h.bind hnext
  rwa [List.append_nil] at hall

theorem Reads.map (h : Reads d bytes x) (f : α → β) :
    Reads (d >>= fun x => pure (f x)) bytes (f x) :=
  Reads.last h (reads_pure (f x))

end Sequence

/-- Every writable value is read back from the bytes written for it. -/
class RoundTrips (α : Type) [Binary α] [Measured α] : Prop where
  reads_encode : ∀ x : α, Writable x → Reads decode (encode x) x

export RoundTrips (reads_encode)

/-- No value is written as nothing. -/
class Tangible (α : Type) [Binary α] : Prop where
  length_pos : ∀ x : α, 0 < (encode x).length

/-! ### Words -/

theorem length_littleEndian (width n : Nat) : (littleEndian width n).length = width := by
  induction width generalizing n with
  | zero => rfl
  | succ width ih => rw [littleEndian, List.length_cons, ih]

theorem reads_byte (b : UInt8) : Reads decodeByte [b] b := fun _ => rfl

theorem reads_word (width : Nat) {n : Nat} (h : n < 1 <<< (8 * width)) :
    Reads (decodeWord width) (littleEndian width n) n := by
  induction width generalizing n with
  | zero =>
    obtain rfl : n = 0 := Nat.lt_one_iff.mp h
    exact reads_pure 0
  | succ width ih =>
    have hhigh : n / 256 < 1 <<< (8 * width) := by
      rw [Nat.div_lt_iff_lt_mul (by decide)]
      rwa [Nat.mul_succ, Nat.shiftLeft_add, Nat.shiftLeft_eq _ 8] at h
    have hlow : (UInt8.ofNat (n % 256)).toNat = n % 256 :=
      UInt8.toNat_ofNat_of_lt' (Nat.mod_lt n (by decide))
    have hrest := (ih hhigh).map fun high => (UInt8.ofNat (n % 256)).toNat + 256 * high
    have hwhole : (UInt8.ofNat (n % 256)).toNat + 256 * (n / 256) = n := by
      rw [hlow, Nat.mod_add_div]
    rw [hwhole] at hrest
    exact Reads.bind (reads_byte (UInt8.ofNat (n % 256))) hrest

theorem reads_length {n : Nat} (h : n < 1 <<< 64) : Reads decodeLength (encodeLength n) n :=
  reads_word 8 h

theorem length_case_pos (n : Nat) (more : Bytes) : 0 < (encodeCase n ++ more).length := by
  rw [List.length_append, encodeCase, length_littleEndian]
  omega

/-- The position of a case chooses what is read after it. -/
theorem Reads.afterCase {d : Decoder α} {next : Nat → Decoder α} {n : Nat} {more : Bytes} {x : α}
    (h : Reads d more x) (hn : n < 1 <<< 32) (hnext : next n = d) :
    Reads (decodeCase >>= next) (encodeCase n ++ more) x := by
  subst hnext
  exact Reads.bind (reads_word 4 hn) h

theorem reads_case_two [Binary α] [Measured α] [RoundTrips α] [Binary β] [Measured β] [RoundTrips β]
    {next : Nat → Decoder γ} {n : Nat} (make : α → β → γ) {x : α} {y : β} (hx : Writable x)
    (hy : Writable y) (hn : n < 1 <<< 32)
    (hnext : next n = (decode >>= fun x => decode >>= fun y => pure (make x y))) :
    Reads (decodeCase >>= next) (encodeCase n ++ encode x ++ encode y) (make x y) := by
  rw [List.append_assoc]
  exact (Reads.bind (reads_encode x hx) ((reads_encode y hy).map (make x))).afterCase hn hnext

/-! ### Lists -/

theorem reads_many {item : Decoder α} {write : α → Bytes} {l : List α}
    (h : ∀ x ∈ l, Reads item (write x) x) :
    Reads (decodeMany item l.length) (l.flatMap write) l := by
  induction l with
  | nil => exact reads_pure []
  | cons x l ih =>
    obtain ⟨hx, hl⟩ := List.forall_mem_cons.mp h
    rw [List.flatMap_cons]
    exact hx.bind ((ih hl).map (x :: ·))

theorem length_le_length_flatMap {write : α → Bytes} {l : List α}
    (h : ∀ x ∈ l, 0 < (write x).length) : l.length ≤ (l.flatMap write).length := by
  induction l with
  | nil => exact Nat.le_refl 0
  | cons x l ih =>
    obtain ⟨hx, hl⟩ := List.forall_mem_cons.mp h
    have hrest := ih hl
    rw [List.flatMap_cons, List.length_append, List.length_cons]
    omega

/-- Entries that are all there have room, so that they are read one by one. -/
theorem reads_entries {entry : Decoder α} {write : α → Bytes} {l : List α} (size : Nat)
    (hlength : l.length < 1 <<< 64) (hpos : ∀ x ∈ l, 0 < (write x).length)
    (h : ∀ x ∈ l, Reads entry (write x) x) :
    Reads (decodeEntries entry size) (encodeLength l.length ++ l.flatMap write) l := by
  refine (reads_length hlength).bind fun rest => ?_
  have hroom : checkRoom l.length size (l.flatMap write ++ rest) =
      .ok ((), l.flatMap write ++ rest) := by
    have hthere : ¬ (l.flatMap write ++ rest).length < l.length := by
      have hall := length_le_length_flatMap hpos
      rw [List.length_append]
      omega
    rw [checkRoom, if_neg fun hsmall => hthere hsmall.1]
  have hrun : (checkRoom l.length size >>= fun _ => decodeMany entry l.length)
      (l.flatMap write ++ rest) =
      (checkRoom l.length size (l.flatMap write ++ rest) >>= fun p =>
        decodeMany entry l.length p.2) := rfl
  rw [hrun, hroom]
  exact reads_many h rest

end Binary

open Binary

/-! ### Instances -/

instance : Measured Unit := ⟨fun _ => []⟩
instance : Measured UInt64 := ⟨fun _ => []⟩
instance : Measured Int64 := ⟨fun _ => []⟩
instance : Measured (BitVec 128) := ⟨fun _ => []⟩
instance : Measured Bool := ⟨fun _ => []⟩
instance : Measured String := ⟨fun s => [s.toUTF8.size]⟩

section Composite

variable {κ α β : Type} [Measured α] [Measured β]

instance : Measured (Option α) where
  lengths
    | none => []
    | some x => lengths x

instance : Measured (List α) := ⟨fun l => l.length :: l.flatMap lengths⟩
instance : Measured (α × β) := ⟨fun p => lengths p.1 ++ lengths p.2⟩
instance [KeyOrder κ] [Measured κ] : Measured (SortedMap κ α) := ⟨fun m => lengths m.entries⟩

end Composite

section Writable

variable {α β : Type} [Measured α] [Measured β] {x : α} {y : β} {l : List α}

theorem writable_pair_iff : Writable (x, y) ↔ Writable x ∧ Writable y := List.forall_mem_append

theorem writable_list_iff : Writable l ↔ l.length < 1 <<< 64 ∧ ∀ x ∈ l, Writable x := by
  rw [Writable, show lengths l = l.length :: l.flatMap lengths from rfl, List.forall_mem_cons,
    List.forall_mem_flatMap]
  rfl

end Writable

instance : RoundTrips Unit := ⟨fun x _ => reads_pure x⟩

instance : RoundTrips UInt64 where
  reads_encode n _ := by
    have hread := (reads_word 8 n.toNat_lt).map UInt64.ofNat
    rwa [UInt64.ofNat_toNat] at hread

instance : RoundTrips Int64 where
  reads_encode n _ := by
    have hread := (reads_word 8 n.toUInt64.toNat_lt).map fun w => (UInt64.ofNat w).toInt64
    rwa [UInt64.ofNat_toNat, Int64.toInt64_toUInt64] at hread

instance : RoundTrips (BitVec 128) where
  reads_encode n _ := by
    have hread := (reads_word 16 n.isLt).map (BitVec.ofNat 128)
    rwa [BitVec.ofNat_toNat, BitVec.setWidth_eq] at hread

instance : RoundTrips Bool where
  reads_encode b _ := by
    cases b with
    | false => exact fun _ => rfl
    | true => exact fun _ => rfl

/-! ### Texts -/

theorem toList_loop_eq (b : ByteArray) (i : Nat) (taken : List UInt8) :
    ByteArray.toList.loop b i taken = taken.reverse ++ b.data.toList.drop i := by
  -- the loop goes up to the size of the array
  induction hleft : b.size - i generalizing i taken with
  | zero =>
    have hend : b.data.toList.length ≤ i := Nat.le_of_sub_eq_zero hleft
    rw [ByteArray.toList.loop, if_neg (by omega), List.drop_eq_nil_of_le hend, List.append_nil]
  | succ left ih =>
    have hi : i < b.data.toList.length := by
      have hsize : b.data.toList.length = b.size := rfl
      omega
    have hget : b.get! i = b.data.toList[i] := by
      rw [Array.getElem_toList]
      exact getElem!_pos b.data i hi
    rw [ByteArray.toList.loop, if_pos (by omega), ih (i + 1) _ (by omega), List.reverse_cons,
      List.append_assoc, List.drop_eq_getElem_cons hi, hget]
    rfl

theorem toList_toUTF8 (s : String) : s.toUTF8.toList = s.toUTF8.data.toList := by
  rw [ByteArray.toList, toList_loop_eq]
  rfl

theorem reads_take (bytes : Bytes) : Reads (takeBytes bytes.length) bytes bytes := by
  intro rest
  rw [takeBytes, if_neg (by simp), List.take_left, List.drop_left]

theorem fromUTF8?_toUTF8 (s : String) : String.fromUTF8? s.toUTF8 = some s := dif_pos s.isValidUTF8

instance : RoundTrips String where
  reads_encode s hs := by
    have hbytes : s.toUTF8.toList = s.toUTF8.data.toList := toList_toUTF8 s
    have hsize : s.toUTF8.size < 1 <<< 64 := hs _ (List.mem_singleton.mpr rfl)
    have htext : String.fromUTF8? ⟨s.toUTF8.toList.toArray⟩ = some s := by
      rw [hbytes, Array.toArray_toList]
      exact fromUTF8?_toUTF8 s
    have hcontents : Reads (takeBytes s.toUTF8.size) s.toUTF8.toList s.toUTF8.toList := by
      rw [show s.toUTF8.size = s.toUTF8.toList.length by rw [hbytes]; rfl]
      exact reads_take _
    refine (reads_length hsize).bind (hcontents.last ?_)
    simp only [htext]
    exact reads_pure s

instance : Tangible String := ⟨fun s => by
  rw [show encode s = encodeLength s.toUTF8.size ++ s.toUTF8.toList from rfl, List.length_append,
    encodeLength, length_littleEndian]
  omega⟩

section Composite

variable {κ α β : Type} [Binary α] [Measured α] [RoundTrips α] [Binary β] [Measured β] [RoundTrips β]

instance : RoundTrips (Option α) where
  reads_encode o ho := by
    cases o with
    | none => exact fun _ => rfl
    | some x => exact (reads_byte 1).bind ((reads_encode x ho).map some)

instance : RoundTrips (α × β) where
  reads_encode p hp := by
    obtain ⟨hx, hy⟩ := writable_pair_iff.mp hp
    exact (reads_encode p.1 hx).bind ((reads_encode p.2 hy).map fun y => (p.1, y))

instance [Tangible α] : Tangible (α × β) where
  length_pos p := by
    have hx := Tangible.length_pos p.1
    rw [show encode p = encode p.1 ++ encode p.2 from rfl, List.length_append]
    omega

instance : RoundTrips (List α) where
  reads_encode l hl := by
    obtain ⟨hlength, hitems⟩ := writable_list_iff.mp hl
    exact (reads_length hlength).bind (reads_many fun x hx => reads_encode x (hitems x hx))

/-- The entries of a map are written in their order, so reading them writes them into the map again. -/
instance [KeyOrder κ] [Binary κ] [Measured κ] [RoundTrips κ] [Tangible κ] [Footprint κ]
    [Footprint α] : RoundTrips (SortedMap κ α) where
  reads_encode m hm := by
    obtain ⟨hlength, hentries⟩ := writable_list_iff.mp hm
    have hread := (reads_entries (Footprint.size (κ × α)) hlength
      (fun e _ => Tangible.length_pos e) fun e he => reads_encode e (hentries e he)).map
        (SortedMap.ofList (κ := κ) (α := α))
    have hself : SortedMap.ofList m.entries = m :=
      SortedMap.ext_entries (Entries.ofList_eq_self m.sorted)
    rw [hself] at hread
    exact hread

end Composite

end BoardGame
