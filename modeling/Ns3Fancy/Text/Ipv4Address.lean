import Mathlib.Data.List.Basic
import Mathlib.Tactic.Ring

/-!
# Addresses written with dots

The reader of dotted addresses: octets in decimals, each in a byte of its own, so what stands behind the last dot is in the
last byte only.
-/

namespace Ns3Fancy.Text
set_option autoImplicit false

/-- The characters of a string, without the zero behind them. -/
abbrev Chars := List UInt8

def dot : UInt8 := 0x2e

/-- One character more in the byte of an octet. -/
def octetStep (byte c : UInt8) : UInt8 := byte * 10 + (c - 0x30)

/-- One octet more in the address. -/
def hostStep (host : UInt32) (byte : UInt8) : UInt32 := host <<< 8 ||| byte.toUInt32

/-- The loop of `AsciiToIpv4Host`, from a character on. No result is an assertion that fires: a dot behind a dot or at the end,
or not three dots. -/
def asciiLoop : Chars → UInt8 → UInt32 → UInt8 → Option UInt32
  | [], byte, host, numberOfDots => if numberOfDots = 3 then some (hostStep host byte) else none
  | c :: rest, byte, host, numberOfDots =>
    if c = dot then
      if rest = [] ∨ rest.head? = some dot then none else asciiLoop rest 0 (hostStep host byte) (numberOfDots + 1)
    else asciiLoop rest (octetStep byte c) host numberOfDots

def asciiToIpv4Host (address : Chars) : Option UInt32 :=
  if address.head? = some dot then none else asciiLoop address 0 0 0

/-- Digits that are a number of a byte. -/
structure Octet where
  digits : Chars
  decimal : ∀ c ∈ digits, 0x30 ≤ c ∧ c ≤ 0x39
  written : digits ≠ []
  value : UInt8
  value_eq : digits.foldl (fun n c => 10 * n + (c.toNat - 0x30)) 0 = value.toNat

/-- The byte that the characters between two dots are read into. -/
def byteOf (part : Chars) : UInt8 := part.foldl octetStep 0

section
variable {part rest : Chars} {byte : UInt8} {host : UInt32} {numberOfDots : UInt8}

/-- Reading up to a dot. -/
theorem asciiLoop_append (plain : ∀ c ∈ part, c ≠ dot) :
    asciiLoop (part ++ rest) byte host numberOfDots = asciiLoop rest (part.foldl octetStep byte) host numberOfDots := by
  induction part generalizing byte with
  | nil => rfl
  | cons c part ih =>
    rw [List.cons_append, asciiLoop, if_neg (plain c List.mem_cons_self), List.foldl_cons]
    exact ih fun d mem => plain d (List.mem_cons_of_mem c mem)

/-- Reading one part and the dot behind it. -/
theorem asciiLoop_part (plain : ∀ c ∈ part, c ≠ dot) (some_ : rest ≠ []) (next : rest.head? ≠ some dot) :
    asciiLoop (part ++ dot :: rest) 0 host numberOfDots =
      asciiLoop rest 0 (hostStep host (byteOf part)) (numberOfDots + 1) := by
  rw [asciiLoop_append plain, asciiLoop, if_pos rfl, if_neg (not_or.2 ⟨some_, next⟩)]
  rfl

theorem head_ne_dot {more : Chars} (some_ : part ≠ []) (plain : ∀ c ∈ part, c ≠ dot) :
    (part ++ more).head? ≠ some dot := by
  cases part with
  | nil => exact absurd rfl some_
  | cons c part =>
    intro same
    exact plain c List.mem_cons_self (Option.some.inj same)

/-- **Four parts**: the address has their bytes. -/
theorem asciiToIpv4Host_parts {a b c d : Chars} (a_ : ∀ x ∈ a, x ≠ dot) (b_ : ∀ x ∈ b, x ≠ dot) (c_ : ∀ x ∈ c, x ≠ dot)
    (d_ : ∀ x ∈ d, x ≠ dot) (some_ : a ≠ [] ∧ b ≠ [] ∧ c ≠ [] ∧ d ≠ []) :
    asciiToIpv4Host (a ++ dot :: (b ++ dot :: (c ++ dot :: d))) =
      some (hostStep (hostStep (hostStep (hostStep 0 (byteOf a)) (byteOf b)) (byteOf c)) (byteOf d)) := by
  obtain ⟨someA, someB, someC, someD⟩ := some_
  have nonempty : ∀ (part more : Chars), part ≠ [] → part ++ more ≠ [] := fun part more some_ => by simp [some_]
  have last : asciiLoop d 0 (hostStep (hostStep (hostStep 0 (byteOf a)) (byteOf b)) (byteOf c)) 3 =
      some (hostStep (hostStep (hostStep (hostStep 0 (byteOf a)) (byteOf b)) (byteOf c)) (byteOf d)) := by
    have read : asciiLoop (d ++ []) 0 (hostStep (hostStep (hostStep 0 (byteOf a)) (byteOf b)) (byteOf c)) 3 =
        asciiLoop [] (byteOf d) (hostStep (hostStep (hostStep 0 (byteOf a)) (byteOf b)) (byteOf c)) 3 := asciiLoop_append d_
    rw [List.append_nil] at read
    exact read
  have dHead : d.head? ≠ some dot := by
    have head : (d ++ []).head? ≠ some dot := head_ne_dot someD d_
    rw [List.append_nil] at head
    exact head
  rw [asciiToIpv4Host, if_neg (head_ne_dot someA a_), asciiLoop_part a_ (nonempty _ _ someB) (head_ne_dot someB b_),
    asciiLoop_part b_ (nonempty _ _ someC) (head_ne_dot someC c_), asciiLoop_part c_ someD dHead]
  exact last

end

/-- The byte of an octet is its value. -/
theorem byteOf_octet (o : Octet) : byteOf o.digits = o.value := by
  have fold : ∀ (digits : Chars) (byte : UInt8) (n : Nat), (∀ c ∈ digits, 0x30 ≤ c ∧ c ≤ 0x39) → byte.toNat = n % 256 →
      (digits.foldl octetStep byte).toNat = digits.foldl (fun n c => 10 * n + (c.toNat - 0x30)) n % 256 := by
    intro digits
    induction digits with
    | nil => exact fun byte n _ same => same
    | cons c digits ih =>
      intro byte n decimal same
      obtain ⟨low, high⟩ := decimal c List.mem_cons_self
      rw [UInt8.le_iff_toNat_le] at low high
      have low : 48 ≤ c.toNat := low
      refine ih _ _ (fun d mem => decimal d (List.mem_cons_of_mem c mem)) ?_
      have digit : (c - 0x30).toNat = c.toNat - 48 := UInt8.toNat_sub_of_le c 0x30 (UInt8.le_iff_toNat_le.2 low)
      have ten : (10 : UInt8).toNat = 10 := rfl
      show (octetStep byte c).toNat = (10 * n + (c.toNat - 48)) % 256
      rw [octetStep, UInt8.toNat_add, UInt8.toNat_mul, digit, ten]
      omega
  apply UInt8.toNat_inj.1
  have read := fold o.digits 0 0 o.decimal rfl
  have small := o.value.toNat_lt
  rw [byteOf, read, o.value_eq]
  omega

theorem Octet.plain (o : Octet) : ∀ c ∈ o.digits, c ≠ dot := by
  rintro c mem rfl
  exact absurd (o.decimal dot mem).1 (by decide)

/-- The number of an address with one octet more. -/
theorem toNat_hostStep {host : UInt32} {byte : UInt8} (room : host.toNat < 2 ^ 24) :
    (hostStep host byte).toNat = host.toNat * 256 + byte.toNat := by
  have small := byte.toNat_lt
  have shifted : (host <<< 8).toNat = host.toNat <<< 8 := by
    rw [UInt32.toNat_shiftLeft]
    have eight : (8 : UInt32).toNat % 32 = 8 := rfl
    rw [eight, Nat.shiftLeft_eq]
    omega
  rw [hostStep, UInt32.toNat_or, shifted, UInt8.toNat_toUInt32, ← Nat.shiftLeft_add_eq_or_of_lt small, Nat.shiftLeft_eq]

/-- The address of a /24 as a number. -/
theorem toNat_slash24 (ip : UInt32) : (ip &&& 0xffffff00).toNat = ip.toNat / 256 * 256 := by
  have mask : (0xffffff00 : UInt32).toNat = (2 ^ 24 - 1) <<< 8 := rfl
  have small := ip.toNat_lt
  rw [UInt32.toNat_and, mask]
  apply Nat.eq_of_testBit_eq
  intro i
  have high : 32 ≤ i → ip.toNat.testBit i = false := fun above =>
    Nat.testBit_lt_two_pow (small.trans_le (Nat.pow_le_pow_right (by decide) above))
  have right : (ip.toNat / 256 * 256).testBit i = (decide (8 ≤ i) && ip.toNat.testBit i) := by
    rw [show (256 : Nat) = 2 ^ 8 from rfl, Nat.testBit_mul_two_pow, Nat.testBit_div_two_pow]
    by_cases enough : 8 ≤ i
    · rw [Nat.sub_add_cancel enough]
    · simp [enough]
  rw [right, Nat.testBit_and, Nat.testBit_shiftLeft, Nat.testBit_two_pow_sub_one]
  by_cases enough : 8 ≤ i
  · by_cases above : 32 ≤ i
    · simp [high above]
    · have below : i - 8 < 24 := by omega
      simp [enough, below]
  · simp [enough]

end Ns3Fancy.Text
