import Mathlib.Algebra.Order.Ring.Nat
import Mathlib.Data.List.TakeWhile

/-!
# Functions of the C library on strings

`strtoul` in base 10 and `strtok`, on strings given by their characters (without
the terminating null), as the C standard describes them for a 64-bit
`unsigned long`.
-/

namespace DvbGseTunnel.Lib

def ULONG_MAX : Nat := 2 ^ 64 - 1

/-- The value of a sequence of decimal digits. -/
def decimalValue (digits : List Char) : Nat :=
  digits.foldl (fun v c => 10 * v + (c.toNat - '0'.toNat)) 0

/-- `isspace` in the C locale. -/
def isspace (c : Char) : Bool :=
  c = ' ' || c = '\t' || c = '\n' || c = '\x0b' || c = '\x0c' || c = '\r'

/-- The value and what is left of the string (`*endptr`). -/
structure Strtoul where
  value : Nat
  rest : List Char
deriving DecidableEq, Repr

/-- `strtoul(s, &end, 10)`: blanks, an optional sign and digits. Without a digit
    nothing is consumed; a value that does not fit is `ULONG_MAX`; a minus sign
    negates modulo 2^64. -/
def strtoul (s : List Char) : Strtoul :=
  let afterBlanks := s.dropWhile isspace
  let negative := afterBlanks.head? = some '-'
  let afterSign :=
    if afterBlanks.head? = some '-' ∨ afterBlanks.head? = some '+' then afterBlanks.tail
    else afterBlanks
  let digits := afterSign.takeWhile Char.isDigit
  if digits = [] then ⟨0, s⟩
  else
    let value := decimalValue digits
    let rest := afterSign.dropWhile Char.isDigit
    if ULONG_MAX < value then ⟨ULONG_MAX, rest⟩
    else if negative then ⟨(2 ^ 64 - value) % 2 ^ 64, rest⟩
    else ⟨value, rest⟩

/-- `strtok` with a single delimiter: the next token and the string the next call
    goes on with, or no token. -/
def strtok (delimiter : Char) (s : List Char) : Option (List Char × List Char) :=
  let s := s.dropWhile (· = delimiter)
  if s = [] then none
  else some (s.takeWhile (· ≠ delimiter), (s.dropWhile (· ≠ delimiter)).tail)

/-! ### Tokens -/

section

variable {α : Type*}

/-- Maximal munch: a prefix of elements that satisfy `p`, up to one that does not. -/
theorem takeWhile_dropWhile_append {p : α → Bool} {taken rest : List α}
    (htaken : ∀ a ∈ taken, p a) (hrest : ∀ a, rest.head? = some a → ¬p a) :
    (taken ++ rest).takeWhile p = taken ∧ (taken ++ rest).dropWhile p = rest := by
  rw [List.takeWhile_append_of_pos htaken, List.dropWhile_append_of_pos htaken]
  cases rest with
  | nil => exact ⟨List.append_nil _, rfl⟩
  | cons a rest =>
    have ha := hrest a rfl
    rw [List.takeWhile_cons_of_neg ha, List.dropWhile_cons_of_neg ha]
    exact ⟨List.append_nil _, rfl⟩

/-- Every list splits at the first element that does not satisfy `p`. -/
theorem exists_takeWhile_dropWhile (p : α → Bool) (l : List α) :
    ∃ taken rest, l = taken ++ rest ∧ (∀ a ∈ taken, p a) ∧
      ∀ a, rest.head? = some a → ¬p a := by
  refine ⟨l.takeWhile p, l.dropWhile p, List.takeWhile_append_dropWhile.symm, ?_, ?_⟩
  · intro a ha
    exact List.mem_takeWhile_imp ha
  · intro a ha
    have hnot := List.head?_dropWhile_not p l
    rw [ha] at hnot
    simpa using hnot

end

theorem strtok_replicate (d : Char) (n : Nat) : strtok d (List.replicate n d) = none := by
  unfold strtok
  rw [List.dropWhile_eq_nil_iff.mpr]
  · exact if_pos rfl
  · intro c hc
    exact decide_eq_true (List.eq_of_mem_replicate hc)

/-- The next token ends at a delimiter, which is consumed, or at the end. -/
theorem strtok_token {d : Char} {token : List Char} (hne : token ≠ []) (hd : d ∉ token)
    (n : Nat) {tail : List Char} (htail : ∀ c, tail.head? = some c → c = d) :
    strtok d (List.replicate n d ++ (token ++ tail)) = some (token, tail.tail) := by
  have hskip : (List.replicate n d ++ (token ++ tail)).dropWhile (fun c => decide (c = d)) =
      token ++ tail := by
    apply (takeWhile_dropWhile_append ?_ ?_).2
    · intro c hc
      exact decide_eq_true (List.eq_of_mem_replicate hc)
    · intro c hc
      obtain ⟨first, token', rfl⟩ := List.exists_cons_of_ne_nil hne
      obtain rfl := Option.some.inj hc
      intro heq
      exact hd (of_decide_eq_true heq ▸ List.mem_cons_self)
  have hsplit : (token ++ tail).takeWhile (fun c => decide (c ≠ d)) = token ∧
      (token ++ tail).dropWhile (fun c => decide (c ≠ d)) = tail := by
    apply takeWhile_dropWhile_append
    · intro c hc
      apply decide_eq_true
      rintro rfl
      exact hd hc
    · intro c hc
      simp [htail c hc]
  unfold strtok
  simp only [hskip]
  rw [if_neg (by simp [hne]), hsplit.1, hsplit.2]

/-- What is left after a token starts with a delimiter, if anything is left. -/
theorem eq_cons_tail {d : Char} {tail : List Char} (hhead : ∀ c, tail.head? = some c → c = d)
    (hne : tail ≠ []) : tail = d :: tail.tail := by
  obtain ⟨c, rest, rfl⟩ := List.exists_cons_of_ne_nil hne
  rw [hhead c rfl, List.tail_cons]

theorem eq_replicate_of_tail {d : Char} {tail : List Char} {n : Nat}
    (hhead : ∀ c, tail.head? = some c → c = d) (htail : tail.tail = List.replicate n d) :
    ∃ m, tail = List.replicate m d := by
  by_cases hnil : tail = []
  · exact ⟨0, hnil⟩
  · refine ⟨n + 1, ?_⟩
    rw [eq_cons_tail hhead hnil, htail, List.replicate_succ]

theorem strtok_eq_none {d : Char} {s : List Char} (h : strtok d s = none) :
    ∃ n, s = List.replicate n d := by
  unfold strtok at h
  simp only at h
  split at h
  · rename_i hnil
    refine ⟨s.length, List.eq_replicate_iff.mpr ⟨rfl, ?_⟩⟩
    intro c hc
    exact of_decide_eq_true (List.dropWhile_eq_nil_iff.mp hnil c hc)
  · cases h

theorem strtok_eq_some {d : Char} {s token rest : List Char}
    (h : strtok d s = some (token, rest)) :
    token ≠ [] ∧ d ∉ token ∧ ∃ n tail, s = List.replicate n d ++ (token ++ tail) ∧
      (∀ c, tail.head? = some c → c = d) ∧ rest = tail.tail := by
  obtain ⟨skipped, left, rfl, hskipped, hleft⟩ :=
    exists_takeWhile_dropWhile (fun c => decide (c = d)) s
  obtain ⟨token', tail, rfl, htoken, htail⟩ :=
    exists_takeWhile_dropWhile (fun c => decide (c ≠ d)) left
  have hskip := (takeWhile_dropWhile_append hskipped hleft).2
  have hsplit := takeWhile_dropWhile_append htoken htail
  have hall : skipped = List.replicate skipped.length d :=
    List.eq_replicate_iff.mpr ⟨rfl, fun c hc => of_decide_eq_true (hskipped c hc)⟩
  unfold strtok at h
  simp only [hskip, hsplit] at h
  split at h
  · cases h
  · rename_i hne
    obtain ⟨rfl, rfl⟩ := Prod.mk.inj (Option.some.inj h)
    refine ⟨?_, ?_, skipped.length, tail, by rw [← hall], ?_, rfl⟩
    · rintro rfl
      cases tail with
      | nil => exact hne rfl
      | cons c tail => exact hleft c rfl (by simpa using htail c rfl)
    · intro hd
      exact absurd rfl (of_decide_eq_true (htoken d hd))
    · intro c hc
      have := htail c hc
      simpa using this

/-! ### Numerals -/

/-- What `strtoul` reads to the end of a string. -/
structure IsNumeral (blanks sign digits : List Char) : Prop where
  blanks : ∀ c ∈ blanks, isspace c
  sign : sign = [] ∨ sign = ['+'] ∨ sign = ['-']
  ne_nil : digits ≠ []
  digits : ∀ c ∈ digits, c.isDigit

def numeralValue (sign digits : List Char) : Nat :=
  if ULONG_MAX < decimalValue digits then ULONG_MAX
  else if sign = ['-'] then (2 ^ 64 - decimalValue digits) % 2 ^ 64
  else decimalValue digits

theorem not_isspace_of_isDigit {c : Char} (h : c.isDigit) : ¬isspace c := by
  intro hspace
  unfold isspace at hspace
  simp only [Bool.or_eq_true, decide_eq_true_eq] at hspace
  rcases hspace with ((((rfl | rfl) | rfl) | rfl) | rfl) | rfl <;> exact absurd h (by decide)

theorem IsNumeral.head_digits {blanks sign digits : List Char}
    (h : IsNumeral blanks sign digits) : ∃ c rest, digits = c :: rest ∧ c.isDigit := by
  obtain ⟨c, rest, rfl⟩ := List.exists_cons_of_ne_nil h.ne_nil
  exact ⟨c, rest, rfl, h.digits c List.mem_cons_self⟩

theorem IsNumeral.append_ne_nil {blanks sign digits : List Char}
    (h : IsNumeral blanks sign digits) : blanks ++ (sign ++ digits) ≠ [] := by
  intro hnil
  exact h.ne_nil (List.append_eq_nil_iff.mp (List.append_eq_nil_iff.mp hnil).2).2

theorem IsNumeral.not_mem {blanks sign digits : List Char} (h : IsNumeral blanks sign digits)
    {d : Char} (hspace : ¬isspace d) (hdigit : ¬d.isDigit) (hsign : d ∉ ['+', '-']) :
    d ∉ blanks ++ (sign ++ digits) := by
  intro hmem
  rcases List.mem_append.mp hmem with hmem | hmem
  · exact hspace (h.blanks d hmem)
  · rcases List.mem_append.mp hmem with hmem | hmem
    · rcases h.sign with rfl | rfl | rfl
      · exact absurd hmem List.not_mem_nil
      · exact hsign (List.mem_cons.mpr (Or.inl (List.mem_singleton.mp hmem)))
      · exact hsign (List.mem_cons_of_mem _ hmem)
    · exact hdigit (h.digits d hmem)

theorem strtoul_numeral {blanks sign digits : List Char} (h : IsNumeral blanks sign digits) :
    strtoul (blanks ++ (sign ++ digits)) = ⟨numeralValue sign digits, []⟩ := by
  obtain ⟨c, rest, hdigits, hc⟩ := h.head_digits
  have hminus : c ≠ '-' := by
    rintro rfl
    exact absurd hc (by decide)
  have hplus : c ≠ '+' := by
    rintro rfl
    exact absurd hc (by decide)
  have hblanks : (blanks ++ (sign ++ digits)).dropWhile isspace = sign ++ digits := by
    apply (takeWhile_dropWhile_append h.blanks ?_).2
    intro a ha
    rcases h.sign with rfl | rfl | rfl
    · rw [hdigits] at ha
      obtain rfl := Option.some.inj ha
      exact not_isspace_of_isDigit hc
    · obtain rfl := Option.some.inj ha
      decide
    · obtain rfl := Option.some.inj ha
      decide
  have htake : digits.takeWhile Char.isDigit = digits := List.takeWhile_eq_self_iff.mpr h.digits
  have hdrop : digits.dropWhile Char.isDigit = [] := List.dropWhile_eq_nil_iff.mpr h.digits
  have hhead : digits.head? = some c := by rw [hdigits, List.head?_cons]
  have hne := h.ne_nil
  unfold strtoul numeralValue
  rw [hblanks]
  rcases h.sign with rfl | rfl | rfl
  · simp [hhead, hminus, hplus, htake, hdrop, hne]
    split <;> rfl
  · simp [htake, hdrop, hne]
    split <;> rfl
  · simp [htake, hdrop, hne]
    split <;> rfl

/-- The sign is what stands before the digits. -/
theorem exists_sign (s : List Char) : ∃ sign,
    (sign = [] ∨ sign = ['+'] ∨ sign = ['-']) ∧
      s = sign ++ if s.head? = some '-' ∨ s.head? = some '+' then s.tail else s := by
  cases s with
  | nil => exact ⟨[], Or.inl rfl, rfl⟩
  | cons c rest =>
    by_cases hsign : c = '-' ∨ c = '+'
    · refine ⟨[c], ?_, ?_⟩
      · rcases hsign with rfl | rfl
        · exact Or.inr (Or.inr rfl)
        · exact Or.inr (Or.inl rfl)
      · simp [hsign]
    · exact ⟨[], Or.inl rfl, by simp [hsign]⟩

theorem strtoul_rest_nil {s : List Char} (h : (strtoul s).rest = []) :
    s = [] ∨ ∃ blanks sign digits,
      s = blanks ++ (sign ++ digits) ∧ IsNumeral blanks sign digits := by
  obtain ⟨sign, hsign, hafter⟩ := exists_sign (s.dropWhile isspace)
  unfold strtoul at h
  simp only at h
  set afterSign := if (s.dropWhile isspace).head? = some '-' ∨
    (s.dropWhile isspace).head? = some '+' then (s.dropWhile isspace).tail
    else s.dropWhile isspace with hdef
  by_cases hdigits : afterSign.takeWhile Char.isDigit = []
  · rw [if_pos hdigits] at h
    exact Or.inl h
  · right
    have hrest : afterSign.dropWhile Char.isDigit = [] := by
      rw [if_neg hdigits] at h
      split at h
      · exact h
      · split at h <;> exact h
    refine ⟨s.takeWhile isspace, sign, afterSign, ?_, ?_, hsign, ?_, ?_⟩
    · rw [← hafter, List.takeWhile_append_dropWhile]
    · intro c hc
      exact List.mem_takeWhile_imp hc
    · rintro hnil
      rw [hnil] at hdigits
      exact hdigits rfl
    · exact List.dropWhile_eq_nil_iff.mp hrest

/-! ### Values -/

theorem le_decimalFold (digits : List Char) (v : Nat) :
    v ≤ digits.foldl (fun v c => 10 * v + (c.toNat - '0'.toNat)) v := by
  induction digits generalizing v with
  | nil => exact Nat.le_refl v
  | cons c digits ih =>
    have hstep := ih (10 * v + (c.toNat - '0'.toNat))
    rw [List.foldl_cons]
    omega

/-- A numeral without a leading zero has a positive value. -/
theorem decimalValue_pos {c : Char} {digits : List Char} (hc : c.isDigit) (h0 : c ≠ '0') :
    0 < decimalValue (c :: digits) := by
  have hle := le_decimalFold digits (10 * 0 + (c.toNat - '0'.toNat))
  have hfirst : '0'.toNat < c.toNat := by
    have hge : '0'.toNat ≤ c.toNat := by
      unfold Char.isDigit at hc
      simp only [Bool.and_eq_true, decide_eq_true_eq] at hc
      exact hc.1
    rcases Nat.lt_or_eq_of_le hge with hlt | heq
    · exact hlt
    · exact absurd (Char.toNat_inj.mp heq.symm) h0
  unfold decimalValue
  rw [List.foldl_cons]
  omega

theorem numeralValue_eq_zero {sign digits : List Char} :
    numeralValue sign digits = 0 ↔ decimalValue digits = 0 := by
  unfold numeralValue ULONG_MAX
  split
  · omega
  · split <;> omega

theorem numeralValue_plain {digits : List Char} (h : decimalValue digits < 2 ^ 64) :
    numeralValue [] digits = decimalValue digits := by
  have hfits : ¬ULONG_MAX < decimalValue digits := by
    unfold ULONG_MAX
    omega
  unfold numeralValue
  rw [if_neg hfits, if_neg (List.cons_ne_nil _ _).symm]

/-- A numeral that is all digits has neither blanks nor a sign. -/
theorem IsNumeral.plain {blanks sign digits : List Char} (h : IsNumeral blanks sign digits)
    (hall : ∀ c ∈ blanks ++ (sign ++ digits), c.isDigit) : blanks = [] ∧ sign = [] := by
  constructor
  · apply List.eq_nil_iff_forall_not_mem.mpr
    intro c hc
    exact not_isspace_of_isDigit (hall c (List.mem_append_left _ hc)) (h.blanks c hc)
  · rcases h.sign with rfl | rfl | rfl
    · rfl
    · exact absurd (hall '+' (by simp)) (by decide)
    · exact absurd (hall '-' (by simp)) (by decide)

end DvbGseTunnel.Lib
