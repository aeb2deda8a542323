import Mathlib.Data.List.Basic
import Mathlib.Tactic.NormNum
import Mathlib.Tactic.Ring

/-!
# Writing and reading bytes

Numbers written to and read from a buffer in a fixed number of bytes, in either byte order.
A reader returns what is left of the buffer and fails when the buffer is too short. A codec
is a writer with a reader that gets back exactly what was written, or all of it but a length.
-/

namespace Ns3Fancy.Buffer
set_option autoImplicit false

abbrev Bytes := List UInt8

/-- The `k` low bytes of `n`, lowest first. -/
def writeLE : Nat → Nat → Bytes
  | 0, _ => []
  | k + 1, n => UInt8.ofNat n :: writeLE k (n / 256)

/-- The `k` low bytes of `n`, highest first. -/
def writeBE (k n : Nat) : Bytes := (writeLE k n).reverse

/-- The number whose bytes, lowest first, are given. -/
def valueLE : Bytes → Nat
  | [] => 0
  | b :: bs => b.toNat + 256 * valueLE bs

def readLE (k : Nat) (bs : Bytes) : Option (Nat × Bytes) :=
  if k ≤ bs.length then some (valueLE (bs.take k), bs.drop k) else none

def readBE (k : Nat) (bs : Bytes) : Option (Nat × Bytes) :=
  if k ≤ bs.length then some (valueLE (bs.take k).reverse, bs.drop k) else none

/-- `n` reads, one after the other. -/
def readMany {α : Type} (read : Bytes → Option (α × Bytes)) : Nat → Bytes → Option (List α × Bytes)
  | 0, bs => some ([], bs)
  | n + 1, bs => (read bs).bind fun x => (readMany read n x.2).map fun xs => (x.1 :: xs.1, xs.2)

@[simp] theorem length_writeLE (k n : Nat) : (writeLE k n).length = k := by
  induction k generalizing n with
  | zero => rfl
  | succ k ih => simp [writeLE, ih]

@[simp] theorem length_writeBE (k n : Nat) : (writeBE k n).length = k := by simp [writeBE]

theorem valueLE_writeLE (k n : Nat) : valueLE (writeLE k n) = n % 256 ^ k := by
  induction k generalizing n with
  | zero => simp [writeLE, valueLE, Nat.mod_one]
  | succ k ih =>
    calc valueLE (writeLE (k + 1) n) = n % 2 ^ 8 + 256 * (n / 256 % 256 ^ k) := by
          rw [writeLE, valueLE, ih, UInt8.toNat_ofNat']
      _ = n % (256 * 256 ^ k) := (Nat.mod_mul (x := n) (a := 256) (b := 256 ^ k)).symm
      _ = n % 256 ^ (k + 1) := by rw [pow_succ']

/-- A number of `k` bytes at the end of a buffer is read off the buffer. -/
theorem append_writeLE_inj {k m n : Nat} {bs bs' : Bytes} (fits : m < 256 ^ k) (fits' : n < 256 ^ k)
    (same : bs ++ writeLE k m = bs' ++ writeLE k n) : bs = bs' ∧ m = n := by
  obtain ⟨before, last⟩ := List.append_inj' same (by simp only [length_writeLE])
  refine ⟨before, ?_⟩
  have value := congrArg valueLE last
  rwa [valueLE_writeLE, valueLE_writeLE, Nat.mod_eq_of_lt fits, Nat.mod_eq_of_lt fits'] at value

theorem append_uint16_inj {x y : UInt16} {bs bs' : Bytes} (same : bs ++ writeLE 2 x.toNat = bs' ++ writeLE 2 y.toNat) :
    bs = bs' ∧ x = y := by
  obtain ⟨before, value⟩ := append_writeLE_inj x.toNat_lt y.toNat_lt same
  exact ⟨before, UInt16.toNat.inj value⟩

theorem append_uint32_inj {x y : UInt32} {bs bs' : Bytes} (same : bs ++ writeLE 4 x.toNat = bs' ++ writeLE 4 y.toNat) :
    bs = bs' ∧ x = y := by
  obtain ⟨before, value⟩ := append_writeLE_inj x.toNat_lt y.toNat_lt same
  exact ⟨before, UInt32.toNat.inj value⟩

@[simp] theorem readLE_writeLE (k n : Nat) (rest : Bytes) :
    readLE k (writeLE k n ++ rest) = some (n % 256 ^ k, rest) := by
  have take : (writeLE k n ++ rest).take k = writeLE k n := by
    rw [List.take_append_of_le_length (by simp), List.take_of_length_le (by simp)]
  have drop : (writeLE k n ++ rest).drop k = rest := by
    rw [List.drop_append_of_le_length (by simp), List.drop_of_length_le (by simp), List.nil_append]
  simp [readLE, take, drop, valueLE_writeLE]

@[simp] theorem readBE_writeBE (k n : Nat) (rest : Bytes) :
    readBE k (writeBE k n ++ rest) = some (n % 256 ^ k, rest) := by
  have take : (writeBE k n ++ rest).take k = writeBE k n := by
    rw [List.take_append_of_le_length (by simp), List.take_of_length_le (by simp)]
  have drop : (writeBE k n ++ rest).drop k = rest := by
    rw [List.drop_append_of_le_length (by simp), List.drop_of_length_le (by simp), List.nil_append]
  have fits : k ≤ (writeBE k n ++ rest).length := by simp
  rw [readBE, if_pos fits, take, drop]
  simp [writeBE, valueLE_writeLE]

/-- Reading back what was written piece by piece. -/
theorem readMany_flatMap {α : Type} {read : Bytes → Option (α × Bytes)} {write : α → Bytes} {xs : List α}
    (exact : ∀ x ∈ xs, ∀ rest, read (write x ++ rest) = some (x, rest)) (rest : Bytes) :
    readMany read xs.length (xs.flatMap write ++ rest) = some (xs, rest) := by
  induction xs with
  | nil => simp [readMany]
  | cons x xs ih =>
    have tail := ih fun y mem => exact y (by simp [mem])
    simp only [List.flatMap_cons, List.append_assoc, List.length_cons, readMany, exact x (by simp),
      Option.bind_some, tail, Option.map_some]

/-- As many are read as were asked for. -/
theorem length_readMany {α : Type} {read : Bytes → Option (α × Bytes)} {n : Nat} {bs : Bytes} {r : List α × Bytes}
    (result : readMany read n bs = some r) : r.1.length = n := by
  induction n generalizing bs r with
  | zero =>
    obtain rfl := Option.some.inj result
    rfl
  | succ n ih =>
    obtain ⟨x, -, rest⟩ := Option.bind_eq_some_iff.1 result
    obtain ⟨xs, more, rfl⟩ := Option.map_eq_some_iff.1 rest
    rw [List.length_cons, ih more]

/-- A writer and the reader that undoes it. -/
structure Codec (α : Type) where
  write : α → Bytes
  read : Bytes → Option (α × Bytes)
  read_write : ∀ x rest, read (write x ++ rest) = some (x, rest)

/-- A writer that also says how much follows, and a reader. What is read differs from what was written, but only in this
length: both have the same normal form. -/
structure LengthCodec (α : Type) where
  write : α → Bytes → Bytes
  read : Bytes → Option (α × Bytes)
  reread : α → Bytes → α
  sansLength : α → α
  read_write : ∀ x rest, read (write x rest ++ rest) = some (reread x rest, rest)
  sansLength_reread : ∀ x rest, sansLength (reread x rest) = sansLength x

end Ns3Fancy.Buffer
