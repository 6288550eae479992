import BackupEngine.Cpp.Vector

/-!
# Bytes of values

`memcpy` and asio copy the object representation of a value. `StandardLayout` is that representation: a number of bytes for
the type, the bytes of each value, and the value the bytes stand for.
-/

namespace Cpp

/-- A type whose values are copied byte by byte. -/
class StandardLayout (α : Type) where
  /-- `sizeof`. -/
  sizeof : Nat
  toBytes : α → List UInt8
  ofBytes : List UInt8 → α
  length_toBytes : ∀ a, (toBytes a).length = sizeof
  ofBytes_toBytes : ∀ a, ofBytes (toBytes a) = a
  sizeof_pos : 0 < sizeof

export StandardLayout (sizeof toBytes ofBytes)

attribute [simp] StandardLayout.length_toBytes StandardLayout.ofBytes_toBytes

/-! ## Little endian -/

/-- The lowest `w` bytes of a number, the lowest first. -/
def toLE : Nat → Nat → List UInt8
  | 0, _ => []
  | w + 1, n => UInt8.ofNat n :: toLE w (n / 256)

/-- The number some bytes stand for. -/
def ofLE : List UInt8 → Nat
  | [] => 0
  | b :: bs => b.toNat + 256 * ofLE bs

@[simp] theorem length_toLE (w n : Nat) : (toLE w n).length = w := by
  induction w generalizing n with
  | zero => rfl
  | succ w ih => simp [toLE, ih]

/-- The bytes of a number stand for it, up to the width. -/
theorem ofLE_toLE (w n : Nat) : ofLE (toLE w n) = n % 256 ^ w := by
  induction w generalizing n with
  | zero => simp [toLE, ofLE, Nat.mod_one]
  | succ w ih =>
    have hbyte : (UInt8.ofNat n).toNat = n % 256 := UInt8.toNat_ofNat'
    rw [toLE, ofLE, ih, hbyte, Nat.pow_succ, Nat.mul_comm (256 ^ w), Nat.mod_mul]

/-- The layout of an unsigned type of `w` bytes, read and written through the number it holds. -/
@[reducible] def StandardLayout.ofNat {α : Type} (w : Nat) (toNat : α → Nat) (ofNat : Nat → α) (hw : 0 < w)
    (hlt : ∀ a, toNat a < 256 ^ w) (hinv : ∀ a, ofNat (toNat a) = a) : StandardLayout α where
  sizeof := w
  toBytes := fun a => toLE w (toNat a)
  ofBytes := fun bs => ofNat (ofLE bs)
  length_toBytes := fun a => length_toLE w (toNat a)
  ofBytes_toBytes := fun a => by rw [ofLE_toLE, Nat.mod_eq_of_lt (hlt a), hinv]
  sizeof_pos := hw

/-- `uint8_t` and `char`. -/
instance : StandardLayout UInt8 :=
  StandardLayout.ofNat 1 UInt8.toNat UInt8.ofNat (by decide) UInt8.toNat_lt (fun _ => UInt8.ofNat_toNat)

/-- `uint32_t`, and the bit pattern of `float`. -/
instance : StandardLayout UInt32 :=
  StandardLayout.ofNat 4 UInt32.toNat UInt32.ofNat (by decide) UInt32.toNat_lt (fun _ => UInt32.ofNat_toNat)

/-- `size_t`. -/
instance : StandardLayout UInt64 :=
  StandardLayout.ofNat 8 UInt64.toNat UInt64.ofNat (by decide) UInt64.toNat_lt (fun _ => UInt64.ofNat_toNat)

/-- `int`, in two's complement. -/
instance : StandardLayout Int32 :=
  StandardLayout.ofNat 4 (fun n => n.toUInt32.toNat) (fun n => (UInt32.ofNat n).toInt32) (by decide)
    (fun n => n.toUInt32.toNat_lt) (fun n => by simp)

/-- `bool`: one byte. -/
instance : StandardLayout Bool :=
  StandardLayout.ofNat 1 Bool.toNat (fun n => n != 0) (by decide) (fun b => by cases b <;> decide)
    (fun b => by cases b <;> rfl)

/-- A struct of two members without padding between them. -/
instance {α β : Type} [StandardLayout α] [StandardLayout β] : StandardLayout (α × β) where
  sizeof := sizeof α + sizeof β
  toBytes := fun p => toBytes p.1 ++ toBytes p.2
  ofBytes := fun bs => (ofBytes (bs.take (sizeof α)), ofBytes (bs.drop (sizeof α)))
  length_toBytes := fun p => by simp
  ofBytes_toBytes := fun p => by
    have h : (toBytes p.1).length = sizeof α := StandardLayout.length_toBytes p.1
    rw [← h, List.take_left, List.drop_left]
    simp
  sizeof_pos := Nat.add_pos_left StandardLayout.sizeof_pos _

/-! ## Copying -/

/-- `memcpy` of `n` bytes from an offset of a buffer. -/
def copyFrom (src : List UInt8) (i : Int) (n : Nat) : Comp (List UInt8) :=
  if 0 ≤ i ∧ i + n ≤ src.length then .ok ((src.drop i.toNat).take n) else .error .badAccess

/-- `memcpy` of some bytes to an offset of a buffer. -/
def copyTo (dst : List UInt8) (i : Int) (src : List UInt8) : Comp (List UInt8) :=
  if 0 ≤ i ∧ i + src.length ≤ dst.length then
    .ok (dst.take i.toNat ++ src ++ dst.drop (i.toNat + src.length))
  else .error .badAccess

theorem copyFrom_eq_ok {src bs : List UInt8} {i : Int} {n : Nat} :
    copyFrom src i n = .ok bs ↔ (0 ≤ i ∧ i + n ≤ src.length) ∧ (src.drop i.toNat).take n = bs := by
  unfold copyFrom
  split
  · rename_i h
    simp [h]
  · rename_i h
    simp [h]

theorem copyTo_eq_ok {dst src bs : List UInt8} {i : Int} :
    copyTo dst i src = .ok bs ↔
      (0 ≤ i ∧ i + src.length ≤ dst.length) ∧
        dst.take i.toNat ++ src ++ dst.drop (i.toNat + src.length) = bs := by
  unfold copyTo
  split
  · rename_i h
    simp [h]
  · rename_i h
    simp [h]

theorem eq_badAccess_of_copyFrom {src : List UInt8} {i : Int} {n : Nat} {e : Fault} (h : copyFrom src i n = .error e) :
    e = .badAccess := by
  unfold copyFrom at h
  split at h
  · cases h
  · cases h
    rfl

theorem eq_badAccess_of_copyTo {dst src : List UInt8} {i : Int} {e : Fault} (h : copyTo dst i src = .error e) :
    e = .badAccess := by
  unfold copyTo at h
  split at h
  · cases h
  · cases h
    rfl

theorem length_copyTo {dst src bs : List UInt8} {i : Int} (h : copyTo dst i src = .ok bs) : bs.length = dst.length := by
  obtain ⟨⟨h0, hle⟩, rfl⟩ := copyTo_eq_ok.mp h
  simp only [List.length_append, List.length_take, List.length_drop]
  omega

/-- The bytes that lie between what is below and what is above them. -/
theorem copyFrom_append (below bs above : List UInt8) :
    copyFrom (below ++ bs ++ above) below.length bs.length = .ok bs := by
  refine copyFrom_eq_ok.mpr ⟨⟨Int.natCast_nonneg _, ?_⟩, ?_⟩
  · simp only [List.length_append]
    omega
  · simp

/-- Bytes copied over as many others. -/
theorem copyTo_append (below old above bs : List UInt8) (h : old.length = bs.length) :
    copyTo (below ++ old ++ above) below.length bs = .ok (below ++ bs ++ above) := by
  refine copyTo_eq_ok.mpr ⟨⟨Int.natCast_nonneg _, ?_⟩, ?_⟩
  · simp only [List.length_append]
    omega
  · rw [Int.toNat_natCast, ← h, ← List.length_append, List.drop_left, List.append_assoc below old, List.take_left]

end Cpp
