import DvbGseTunnel.Lib.CString
import Mathlib.Data.List.Induction

/-!
# Numerals

Bytes in wire order as a number, and numbers as decimal text: what is read back
from a numeral is the number, also where numerals stand between separators.
-/

namespace DvbGseTunnel.Lib

/-- The number whose base-256 digits are the bytes, most significant first. -/
def bigEndian (bytes : List UInt8) : Nat := bytes.foldl (fun v b => 256 * v + b.toNat) 0

theorem bigEndian_concat (bytes : List UInt8) (b : UInt8) :
    bigEndian (bytes ++ [b]) = 256 * bigEndian bytes + b.toNat := by
  unfold bigEndian
  rw [List.foldl_append, List.foldl_cons, List.foldl_nil]

theorem bigEndian_lt (bytes : List UInt8) : bigEndian bytes < 256 ^ bytes.length := by
  induction bytes using List.reverseRecOn with
  | nil => decide
  | append_singleton bytes b ih =>
    have hb := b.toNat_lt
    rw [bigEndian_concat, List.length_append, List.length_singleton, Nat.pow_succ]
    omega

theorem bigEndian_cons (b : UInt8) (bytes : List UInt8) :
    bigEndian (b :: bytes) = 256 ^ bytes.length * b.toNat + bigEndian bytes := by
  induction bytes using List.reverseRecOn with
  | nil =>
    change 256 * 0 + b.toNat = 256 ^ 0 * b.toNat + 0
    omega
  | append_singleton bytes c ih =>
    rw [← List.cons_append, bigEndian_concat, bigEndian_concat, ih, List.length_append,
      List.length_singleton, Nat.pow_succ, Nat.mul_add, ← Nat.mul_assoc, Nat.mul_comm 256,
      Nat.add_assoc]

/-- The `width` last base-256 digits of a number, most significant first. -/
def bytesOf : Nat → Nat → List UInt8
  | 0, _ => []
  | width + 1, n => bytesOf width (n / 256) ++ [UInt8.ofNat n]

theorem bigEndian_bytesOf {width n : Nat} (h : n < 256 ^ width) :
    bigEndian (bytesOf width n) = n := by
  induction width generalizing n with
  | zero =>
    rw [Nat.pow_zero] at h
    exact (Nat.lt_one_iff.mp h).symm
  | succ width ih =>
    rw [Nat.pow_succ] at h
    have hhigh := ih (Nat.div_lt_of_lt_mul (Nat.mul_comm _ _ ▸ h))
    rw [bytesOf, bigEndian_concat, hhigh, UInt8.toNat_ofNat']
    omega

theorem bytesOf_bigEndian (bytes : List UInt8) :
    bytesOf bytes.length (bigEndian bytes) = bytes := by
  induction bytes using List.reverseRecOn with
  | nil => rfl
  | append_singleton bytes b ih =>
    have hb := b.toNat_lt
    have hhigh : (256 * bigEndian bytes + b.toNat) / 256 = bigEndian bytes := by omega
    have hlow : UInt8.ofNat (256 * bigEndian bytes + b.toNat) = b := by
      rw [← UInt8.toNat_inj, UInt8.toNat_ofNat']
      omega
    rw [List.length_append, List.length_singleton, bytesOf, bigEndian_concat, hhigh, ih, hlow]

/-! ### Decimal text -/

theorem decimalValue_toDigits (n : Nat) : decimalValue (Nat.toDigits 10 n) = n := by
  have hvalue : decimalValue (Nat.toDigits 10 n) = Nat.ofDigitChars 10 (Nat.toDigits 10 n) 0 := by
    rw [Nat.ofDigitChars_eq_foldl]
    rfl
  rw [hvalue, Nat.ofDigitChars_ten_toDigits]

theorem isDigit_of_mem_decimal {n : Nat} {c : Char} (h : c ∈ Nat.toDigits 10 n) : c.isDigit :=
  Nat.isDigit_of_mem_toDigits (by decide) (by decide) h

theorem toDigits_injective : Function.Injective (Nat.toDigits 10) := by
  intro n m h
  rw [← decimalValue_toDigits n, h, decimalValue_toDigits]

theorem mem_intercalate {α : Type*} {separator a : α} {texts : List (List α)}
    (h : a ∈ [separator].intercalate texts) : a = separator ∨ ∃ text ∈ texts, a ∈ text := by
  induction texts with
  | nil => exact absurd h List.not_mem_nil
  | cons text texts ih =>
    by_cases hnil : texts = []
    · rw [hnil, List.intercalate_singleton] at h
      exact Or.inr ⟨text, List.mem_cons_self, h⟩
    · rw [List.intercalate_cons_of_ne_nil hnil, List.mem_append, List.mem_append] at h
      rcases h with (htext | hseparator) | hrest
      · exact Or.inr ⟨text, List.mem_cons_self, htext⟩
      · exact Or.inl (List.mem_singleton.mp hseparator)
      · rcases ih hrest with heq | ⟨text', htext', hmem⟩
        · exact Or.inl heq
        · exact Or.inr ⟨text', List.mem_cons_of_mem _ htext', hmem⟩

/-- Texts between separators are told apart where no text contains the separator. -/
theorem intercalate_injective {α : Type*} [BEq α] [LawfulBEq α] {separator : α}
    {texts texts' : List (List α)} (hne : texts ≠ []) (hne' : texts' ≠ [])
    (htexts : ∀ text ∈ texts, separator ∉ text) (htexts' : ∀ text ∈ texts', separator ∉ text)
    (h : [separator].intercalate texts = [separator].intercalate texts') : texts = texts' := by
  rw [← List.splitOn_intercalate separator htexts hne, h,
    List.splitOn_intercalate separator htexts' hne']

end DvbGseTunnel.Lib
