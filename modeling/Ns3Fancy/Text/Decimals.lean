import Mathlib.Data.List.Basic

/-!
# Numbers written one after the other

A list of numbers written in decimals with a blank behind each number but the last can be read in one way only.
-/

namespace Ns3Fancy.Text
set_option autoImplicit false

/-- A text without blanks ends at the first blank. -/
theorem append_blank_inj {word word' rest rest' : List Char} (noBlank : ' ' ∉ word) (noBlank' : ' ' ∉ word')
    (same : word ++ ' ' :: rest = word' ++ ' ' :: rest') : word = word' ∧ rest = rest' := by
  induction word generalizing word' with
  | nil =>
    cases word' with
    | nil => exact ⟨rfl, (List.cons.inj same).2⟩
    | cons c word' => exact absurd (List.cons.inj same).1 fun blank => noBlank' (blank ▸ List.mem_cons_self)
  | cons c word ih =>
    cases word' with
    | nil => exact absurd (List.cons.inj same).1 fun blank => noBlank (blank ▸ List.mem_cons_self)
    | cons c' word' =>
      obtain ⟨head, tail⟩ := List.cons.inj same
      obtain ⟨words, rests⟩ := ih (fun mem => noBlank (List.mem_cons_of_mem _ mem))
        (fun mem => noBlank' (List.mem_cons_of_mem _ mem)) tail
      exact ⟨by rw [head, words], rests⟩

theorem blank_notMem_toDigits (n : Nat) : ' ' ∉ Nat.toDigits 10 n := by
  intro mem
  exact absurd (Nat.isDigit_of_mem_toDigits (by decide) (by decide) mem) (by decide)

theorem toDigits_inj {m n : Nat} (same : Nat.toDigits 10 m = Nat.toDigits 10 n) : m = n := by
  rw [← @Nat.ofDigitChars_ten_toDigits m, same, Nat.ofDigitChars_ten_toDigits]

/-- Numbers in decimals, a blank between two of them. -/
def spaced : List Nat → List Char
  | [] => []
  | [n] => Nat.toDigits 10 n
  | n :: m :: ns => Nat.toDigits 10 n ++ ' ' :: spaced (m :: ns)

/-- **Equal texts of equally many numbers** are texts of the same numbers. -/
theorem spaced_inj {ns ns' : List Nat} (length : ns.length = ns'.length) (same : spaced ns = spaced ns') : ns = ns' := by
  induction ns generalizing ns' with
  | nil => exact (List.length_eq_zero_iff.1 length.symm).symm
  | cons n ns ih =>
    obtain ⟨n', ns', rfl⟩ := List.exists_cons_of_length_eq_add_one length.symm
    rw [List.length_cons, List.length_cons, Nat.add_right_cancel_iff] at length
    cases ns with
    | nil =>
      rw [List.length_nil] at length
      obtain rfl := List.length_eq_zero_iff.1 length.symm
      rw [toDigits_inj same]
    | cons m ns =>
      obtain ⟨m', ns', rfl⟩ := List.exists_cons_of_length_eq_add_one length.symm
      obtain ⟨first, rest⟩ := append_blank_inj (blank_notMem_toDigits n) (blank_notMem_toDigits n') same
      rw [toDigits_inj first, ih length rest]

end Ns3Fancy.Text
