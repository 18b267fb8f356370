import DvbGseTunnel.Arguments

/-!
# Numbers and addresses on the command line

`parse_unsigned_long` against unsigned decimal numerals and `parse_udp_arguments`
against the documented `ADDRESS:PORT`. Both are as lenient as `strtoul` and
`strtok` are, so each is exact on the strings without blanks, signs and extra
colons only.
-/

namespace DvbGseTunnel

open Lib

/-! ### `parse_unsigned_long` -/

/-- A decimal numeral without superfluous leading zeros. -/
def Canonical (s : List Char) : Prop :=
  s ≠ [] ∧ (∀ c ∈ s, c.isDigit) ∧ (s.head? = some '0' → s = ['0'])

/-- What `parse_unsigned_long` should make of a string. -/
structure ParsesExactly (s : List Char) : Prop where
  sound : (parseUnsignedLong s).1 = 0 →
    s ≠ [] ∧ (∀ c ∈ s, c.isDigit) ∧ decimalValue s = (parseUnsignedLong s).2
  complete : Canonical s → decimalValue s < 2 ^ 64 → (parseUnsignedLong s).1 = 0

/-- A numeral of `strtoul` is accepted with the value `strtoul` gives it, 0 aside. -/
theorem parseUnsignedLong_numeral {blanks sign digits : List Char}
    (h : IsNumeral blanks sign digits) (hvalue : decimalValue digits ≠ 0) :
    parseUnsignedLong (blanks ++ (sign ++ digits)) = (0, numeralValue sign digits) := by
  have hzero : blanks ++ (sign ++ digits) ≠ ['0'] := by
    intro heq
    have hall : ∀ c ∈ blanks ++ (sign ++ digits), c.isDigit := by
      rw [heq]
      exact List.all_eq_true.mp rfl
    obtain ⟨rfl, rfl⟩ := h.plain hall
    rw [List.nil_append, List.nil_append] at heq
    exact hvalue (by rw [heq]; decide)
  have hne : numeralValue sign digits ≠ 0 := mt numeralValue_eq_zero.mp hvalue
  unfold parseUnsignedLong
  rw [if_neg hzero]
  simp only [strtoul_numeral h]
  rw [if_pos ⟨Nat.le_refl 0, hne⟩]

theorem parseUnsignedLong_accepted {s : List Char} (h : (parseUnsignedLong s).1 = 0) :
    s = ['0'] ∨ ∃ blanks sign digits, s = blanks ++ (sign ++ digits) ∧
      IsNumeral blanks sign digits ∧ decimalValue digits ≠ 0 := by
  by_cases hzero : s = ['0']
  · exact Or.inl hzero
  · right
    unfold parseUnsignedLong at h
    rw [if_neg hzero] at h
    simp only at h
    split at h
    · rename_i haccept
      have hrest : (strtoul s).rest = [] := List.length_eq_zero_iff.mp (Nat.le_zero.mp haccept.1)
      rcases strtoul_rest_nil hrest with rfl | ⟨blanks, sign, digits, rfl, hnumeral⟩
      · exact absurd rfl haccept.2
      · rw [strtoul_numeral hnumeral] at haccept
        exact ⟨blanks, sign, digits, rfl, hnumeral, mt numeralValue_eq_zero.mpr haccept.2⟩
    · cases h

/-- Every canonical numeral that fits is accepted. -/
theorem parseUnsignedLong_canonical {s : List Char} (h : Canonical s)
    (hfits : decimalValue s < 2 ^ 64) : parseUnsignedLong s = (0, decimalValue s) := by
  obtain ⟨hne, hdigits, hzero⟩ := h
  by_cases h0 : s = ['0']
  · rw [h0]
    decide
  · obtain ⟨c, rest, rfl⟩ := List.exists_cons_of_ne_nil hne
    have hc : c ≠ '0' := by
      rintro rfl
      exact h0 (hzero rfl)
    have hpos : 0 < decimalValue (c :: rest) := decimalValue_pos (hdigits c List.mem_cons_self) hc
    have hnumeral : IsNumeral [] [] (c :: rest) :=
      ⟨fun _ hmem => absurd hmem List.not_mem_nil, Or.inl rfl, hne, hdigits⟩
    have hparse := parseUnsignedLong_numeral hnumeral (Nat.ne_of_gt hpos)
    rw [numeralValue_plain hfits] at hparse
    exact hparse

/-- **When `parse_unsigned_long` is exact.** On every string that is not a numeral of
    `strtoul` of another value than 0 with blanks, a sign or a value from 2^64 on. -/
theorem parseUnsignedLong_exact_iff (s : List Char) :
    ParsesExactly s ↔ ∀ blanks sign digits, s = blanks ++ (sign ++ digits) →
      IsNumeral blanks sign digits → decimalValue digits ≠ 0 →
      blanks = [] ∧ sign = [] ∧ decimalValue digits < 2 ^ 64 := by
  constructor
  · rintro ⟨hsound, -⟩ blanks sign digits rfl hnumeral hvalue
    rw [parseUnsignedLong_numeral hnumeral hvalue] at hsound
    obtain ⟨-, hall, hexact⟩ := hsound rfl
    obtain ⟨rfl, rfl⟩ := hnumeral.plain hall
    refine ⟨rfl, rfl, ?_⟩
    -- a saturated value is `ULONG_MAX`, not the value of the digits
    by_contra hlarge
    unfold numeralValue at hexact
    rw [List.nil_append, List.nil_append, if_pos] at hexact
    · rw [hexact] at hlarge
      exact hlarge (by decide)
    · unfold ULONG_MAX
      omega
  · intro hplain
    constructor
    · intro hret
      rcases parseUnsignedLong_accepted hret with
        rfl | ⟨blanks, sign, digits, rfl, hnumeral, hvalue⟩
      · exact ⟨List.cons_ne_nil _ _, List.all_eq_true.mp rfl, by decide⟩
      · obtain ⟨rfl, rfl, hfits⟩ := hplain blanks sign digits rfl hnumeral hvalue
        rw [parseUnsignedLong_numeral hnumeral hvalue, numeralValue_plain hfits]
        exact ⟨hnumeral.ne_nil, hnumeral.digits, rfl⟩
    · intro hcanonical hfits
      rw [parseUnsignedLong_canonical hcanonical hfits]

/-- `-1` is accepted as 18446744073709551615. -/
theorem negative_and_saturated_accepted :
    parseUnsignedLong ['-', '1'] = (0, 18446744073709551615) ∧
      ¬ParsesExactly ['-', '1'] := by
  refine ⟨by decide, ?_⟩
  rintro ⟨hsound, -⟩
  have hdigits := (hsound (by decide)).2.1
  exact absurd (hdigits '-' List.mem_cons_self) (by decide)

/-! ### `parse_udp_arguments` -/

/-- The documented format: an address, a colon and a port in digits. -/
structure Documented (host : ArgumentsHost) (s address digits : List Char) (a : UInt32) : Prop where
  split : s = address ++ ':' :: digits
  no_colon : ':' ∉ address
  inetAton : host.inetAton address = some a
  ne_nil : digits ≠ []
  all_digits : ∀ c ∈ digits, c.isDigit
  port : 1 ≤ decimalValue digits ∧ decimalValue digits ≤ 65535

/-- What `parse_udp_arguments` should make of a string. -/
structure AcceptsDocumented (host : ArgumentsHost) (s : List Char) : Prop where
  accepts : ∀ addr, (parseUdpArguments host s addr).1 = 0 ↔
    ∃ address digits a, Documented host s address digits a
  stores : ∀ address digits a, Documented host s address digits a →
    ∀ addr, (parseUdpArguments host s addr).2.addr = a ∧
      (parseUdpArguments host s addr).2.port.toNat = decimalValue digits

/-- What the code accepts: colons before, between and after, and a port as `strtoul`
    reads it. -/
structure AcceptedForm (host : ArgumentsHost) (s : List Char) (before : Nat)
    (address : List Char) (a : UInt32) (between : Nat) (blanks sign digits : List Char)
    (after : Nat) : Prop where
  split : s = List.replicate before ':' ++ (address ++ (List.replicate (between + 1) ':' ++
    (blanks ++ (sign ++ digits) ++ List.replicate after ':')))
  ne_nil : address ≠ []
  no_colon : ':' ∉ address
  inetAton : host.inetAton address = some a
  numeral : IsNumeral blanks sign digits
  port : 1 ≤ numeralValue sign digits ∧ numeralValue sign digits ≤ USHRT_MAX

theorem parseUdpArguments_form {host : ArgumentsHost} {s address blanks sign digits : List Char}
    {before between after : Nat} {a : UInt32}
    (h : AcceptedForm host s before address a between blanks sign digits after) (addr : UdpAddr) :
    parseUdpArguments host s addr = (0, ⟨a, UInt16.ofNat (numeralValue sign digits)⟩) := by
  have hcolon : ∀ (n : Nat) (tail : List Char), ∀ c,
      (List.replicate (n + 1) ':' ++ tail).head? = some c → c = ':' := by
    intro n tail c hc
    exact (Option.some.inj hc).symm
  have hfirst := strtok_token h.ne_nil h.no_colon before
    (hcolon between (blanks ++ (sign ++ digits) ++ List.replicate after ':'))
  have hafter : ∀ c, (List.replicate after ':').head? = some c → c = ':' := by
    intro c hc
    exact List.eq_of_mem_replicate (List.mem_of_head? hc)
  have hsecond := strtok_token h.numeral.append_ne_nil
    (h.numeral.not_mem (by decide) (by decide) (by decide)) between hafter
  have hvalue : ¬(([] : List Char).length > 0 ∨ numeralValue sign digits = 0 ∨
      numeralValue sign digits > USHRT_MAX) := by
    have hport := h.port
    rw [List.length_nil]
    omega
  have hthird : strtok ':' (List.replicate after ':').tail = none := by
    rw [List.tail_replicate]
    exact strtok_replicate ':' (after - 1)
  unfold parseUdpArguments
  rw [h.split, hfirst]
  simp only [h.inetAton]
  rw [List.replicate_succ, List.cons_append, List.tail_cons, hsecond]
  simp only [strtoul_numeral h.numeral, if_neg hvalue, if_pos hthird]

theorem exists_acceptedForm {host : ArgumentsHost} {s : List Char} {addr : UdpAddr}
    (h : (parseUdpArguments host s addr).1 = 0) :
    ∃ before address a between blanks sign digits after,
      AcceptedForm host s before address a between blanks sign digits after := by
  unfold parseUdpArguments at h
  rcases hfirst : strtok ':' s with _ | ⟨address, rest⟩
  · simp [hfirst] at h
  rcases haddr : host.inetAton address with _ | a
  · simp [hfirst, haddr] at h
  rcases hsecond : strtok ':' rest with _ | ⟨port, rest'⟩
  · simp [hfirst, haddr, hsecond] at h
  simp only [hfirst, haddr, hsecond] at h
  split at h
  · cases h
  rename_i hvalue
  split at h
  case isFalse => cases h
  rename_i hthird
  obtain ⟨hne, hcolon, before, tail, rfl, htail, rfl⟩ := strtok_eq_some hfirst
  obtain ⟨hne', hcolon', between, tail', hrest, htail', rfl⟩ := strtok_eq_some hsecond
  obtain ⟨after, hafter⟩ := strtok_eq_none hthird
  -- the address is followed by a colon, since a port follows it
  have hbetween : tail = List.replicate (between + 1) ':' ++ (port ++ tail') := by
    have hnonempty : tail ≠ [] := by
      rintro rfl
      rw [List.tail_nil] at hrest
      exact hne' (List.append_eq_nil_iff.mp (List.append_eq_nil_iff.mp hrest.symm).2).1
    rw [eq_cons_tail htail hnonempty, hrest, List.replicate_succ, List.cons_append]
  obtain ⟨n, rfl⟩ := eq_replicate_of_tail htail' hafter
  have hvalue := not_or.mp hvalue
  have hrestNil : (strtoul port).rest = [] := by
    apply List.length_eq_zero_iff.mp
    have := hvalue.1
    omega
  rcases strtoul_rest_nil hrestNil with rfl | ⟨blanks, sign, digits, rfl, hnumeral⟩
  · exact absurd rfl hne'
  · rw [strtoul_numeral hnumeral] at hvalue
    have hport := not_or.mp hvalue.2
    refine ⟨before, address, a, between, blanks, sign, digits, n, ?_, hne, hcolon, haddr,
      hnumeral, ?_⟩
    · rw [hbetween]
    · simp only at hport
      omega

/-- A form without leniency is the documented format. -/
theorem AcceptedForm.documented {host : ArgumentsHost} {s address digits : List Char} {a : UInt32}
    (h : AcceptedForm host s 0 address a 0 [] [] digits 0) :
    Documented host s address digits a := by
  have hport := h.port
  have hvalue : numeralValue [] digits = decimalValue digits := by
    apply numeralValue_plain
    by_contra hlarge
    unfold numeralValue USHRT_MAX ULONG_MAX at hport
    split at hport <;> omega
  rw [hvalue] at hport
  have hsplit := h.split
  rw [List.replicate_zero, List.append_nil] at hsplit
  exact ⟨hsplit, h.no_colon, h.inetAton, h.numeral.ne_nil, h.numeral.digits, hport⟩

theorem Documented.numeral {host : ArgumentsHost} {s address digits : List Char} {a : UInt32}
    (h : Documented host s address digits a) :
    IsNumeral [] [] digits ∧ numeralValue [] digits = decimalValue digits := by
  have hport := h.port
  refine ⟨⟨fun _ hmem => absurd hmem List.not_mem_nil, Or.inl rfl, h.ne_nil, h.all_digits⟩, ?_⟩
  apply numeralValue_plain
  omega

theorem Documented.form_of_ne_nil {host : ArgumentsHost} {s address digits : List Char}
    {a : UInt32} (h : Documented host s address digits a) (hne : address ≠ []) :
    AcceptedForm host s 0 address a 0 [] [] digits 0 := by
  obtain ⟨hnumeral, hvalue⟩ := h.numeral
  refine ⟨?_, hne, h.no_colon, h.inetAton, hnumeral, ?_⟩
  · rw [h.split, List.replicate_zero, List.append_nil]
    rfl
  · rw [hvalue]
    exact h.port

/-- The documented format is accepted; the C library takes no address for empty. -/
theorem Documented.form {host : ArgumentsHost} (hempty : host.inetAton [] = none)
    {s address digits : List Char} {a : UInt32} (h : Documented host s address digits a) :
    AcceptedForm host s 0 address a 0 [] [] digits 0 := by
  apply h.form_of_ne_nil
  rintro rfl
  have haddr := h.inetAton
  rw [hempty] at haddr
  cases haddr

/-- A string of the documented format has one colon, and what surrounds it is
    determined. -/
theorem AcceptedForm.plain {host : ArgumentsHost}
    {s address address' blanks sign digits digits' : List Char} {before between after : Nat}
    {a a' : UInt32} (h : AcceptedForm host s before address a between blanks sign digits after)
    (hdoc : Documented host s address' digits' a') :
    before = 0 ∧ between = 0 ∧ after = 0 ∧ blanks = [] ∧ sign = [] := by
  have hdigits' : ':' ∉ digits' := fun hmem => absurd (hdoc.all_digits ':' hmem) (by decide)
  have hport : ':' ∉ blanks ++ (sign ++ digits) :=
    h.numeral.not_mem (by decide) (by decide) (by decide)
  have hone : s.count ':' = 1 := by
    rw [hdoc.split, List.count_append, List.count_cons_self,
      List.count_eq_zero_of_not_mem hdoc.no_colon, List.count_eq_zero_of_not_mem hdigits']
  have hcount : s.count ':' = before + (between + 1) + after := by
    rw [h.split, List.count_append, List.count_append, List.count_append, List.count_append,
      List.count_replicate_self, List.count_replicate_self, List.count_replicate_self,
      List.count_eq_zero_of_not_mem h.no_colon, List.count_eq_zero_of_not_mem hport]
    omega
  obtain ⟨rfl, rfl, rfl⟩ : before = 0 ∧ between = 0 ∧ after = 0 := by omega
  refine ⟨rfl, rfl, rfl, ?_⟩
  have hsplit := h.split
  rw [List.replicate_zero, List.append_nil, List.nil_append, hdoc.split] at hsplit
  -- what follows the first colon of the string
  have hcut : ∀ l rest : List Char, ':' ∉ l →
      (l ++ ':' :: rest).dropWhile (fun c => decide (c ≠ ':')) = ':' :: rest := by
    intro l rest hl
    apply (takeWhile_dropWhile_append ?_ ?_).2
    · intro c hc
      apply decide_eq_true
      rintro rfl
      exact hl hc
    · intro c hc
      simp [← Option.some.inj hc]
  have hright := hcut address' digits' hdoc.no_colon
  have hleft := hcut address (blanks ++ (sign ++ digits)) h.no_colon
  rw [hsplit] at hright
  have htail := (List.cons.inj (hleft.symm.trans hright)).2
  apply h.numeral.plain
  rw [htail]
  exact hdoc.all_digits

/-- **When `parse_udp_arguments` is exact.** On every string that is not of the accepted
    form with a colon more, blanks or a sign. -/
theorem parseUdpArguments_exact_iff (host : ArgumentsHost) (hempty : host.inetAton [] = none)
    (s : List Char) :
    AcceptsDocumented host s ↔ ∀ before address a between blanks sign digits after,
      AcceptedForm host s before address a between blanks sign digits after →
      before = 0 ∧ between = 0 ∧ after = 0 ∧ blanks = [] ∧ sign = [] := by
  constructor
  · intro h before address a between blanks sign digits after hform
    have hret := congrArg Prod.fst (parseUdpArguments_form hform ⟨0, 0⟩)
    obtain ⟨address', digits', a', hdoc⟩ := (h.accepts ⟨0, 0⟩).mp hret
    exact hform.plain hdoc
  · intro hplain
    constructor
    · intro addr
      constructor
      · intro hret
        obtain ⟨before, address, a, between, blanks, sign, digits, after, hform⟩ :=
          exists_acceptedForm hret
        obtain ⟨rfl, rfl, rfl, rfl, rfl⟩ :=
          hplain before address a between blanks sign digits after hform
        exact ⟨address, digits, a, hform.documented⟩
      · rintro ⟨address, digits, a, hdoc⟩
        rw [parseUdpArguments_form (hdoc.form hempty)]
    · intro address digits a hdoc addr
      have hport := hdoc.port
      rw [parseUdpArguments_form (hdoc.form hempty), hdoc.numeral.2]
      refine ⟨rfl, ?_⟩
      rw [UInt16.toNat_ofNat']
      omega

def loopback : List Char := ['1', '2', '7', '.', '0', '.', '0', '.', '1']

/-- A host without interfaces, whose `inet_aton` knows one address. -/
def loopbackHost : ArgumentsHost where
  ifNametoindex _ := 0
  inetAton s := if s = loopback then some 0x0100007f else none
  ifNametoindex_length _ h := absurd rfl h

/-- `127.0.0.1:80`. -/
theorem parseUdpArguments_exact_loopback :
    AcceptsDocumented loopbackHost (loopback ++ [':', '8', '0']) := by
  apply (parseUdpArguments_exact_iff loopbackHost (by decide) (loopback ++ [':', '8', '0'])).mpr
  intro before address a between blanks sign digits after hform
  have hdoc : Documented loopbackHost (loopback ++ [':', '8', '0']) loopback ['8', '0']
      0x0100007f :=
    ⟨rfl, by decide, by decide, by decide, List.all_eq_true.mp rfl, by decide⟩
  exact hform.plain hdoc

/-- `127.0.0.1::+80` is accepted. -/
theorem colons_and_sign_accepted :
    (parseUdpArguments loopbackHost (loopback ++ [':', ':', '+', '8', '0']) ⟨0, 0⟩).1 = 0 ∧
      ¬AcceptsDocumented loopbackHost (loopback ++ [':', ':', '+', '8', '0']) := by
  have hret : (parseUdpArguments loopbackHost (loopback ++ [':', ':', '+', '8', '0'])
      ⟨0, 0⟩).1 = 0 := by
    decide
  refine ⟨hret, fun hexact => ?_⟩
  obtain ⟨address, digits, a, hdoc⟩ := (hexact.accepts ⟨0, 0⟩).mp hret
  have hform : AcceptedForm loopbackHost (loopback ++ [':', ':', '+', '8', '0']) 0 loopback
      0x0100007f 1 [] ['+'] ['8', '0'] 0 :=
    ⟨rfl, by decide, by decide, by decide,
      ⟨List.all_eq_true.mp rfl, by decide, by decide, List.all_eq_true.mp rfl⟩, by decide⟩
  exact absurd (hform.plain hdoc).2.1 (by decide)

end DvbGseTunnel
