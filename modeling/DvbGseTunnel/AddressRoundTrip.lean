import DvbGseTunnel.ArgumentStrings
import DvbGseTunnel.PktHeader

/-!
# Printing and parsing addresses

`ipv4_address_str` prints the bytes an address has in the memory of a little-endian
host, and `inet_aton` stores those it reads there. So the text `ADDRESS:PORT` that
`create_send_ctxt` prints for an address is one that `parse_udp_arguments` takes back.
-/

namespace DvbGseTunnel

open Lib

/-- The bytes in the memory of a little-endian host, by increasing address. -/
def memoryBytes (value : UInt32) : List UInt8 := (bytesOf 4 value.toNat).reverse

/-- `inet_aton` gives the value whose bytes in memory are those of the text. -/
def ReadsDottedDecimal (host : ArgumentsHost) : Prop :=
  ∀ b c d e, ∃ value, host.inetAton (dottedDecimal [b, c, d, e]) = some value ∧
    memoryBytes value = [b, c, d, e]

/-- `%s:%u` of an address and a port. -/
def udpAddressStr (addr : UInt32) (port : Nat) : List Char :=
  ipv4AddressStr addr ++ ':' :: Nat.toDigits 10 port

theorem bigEndian_reverse_memoryBytes (value : UInt32) :
    bigEndian (memoryBytes value).reverse = value.toNat := by
  unfold memoryBytes
  rw [List.reverse_reverse]
  exact bigEndian_bytesOf value.toNat_lt

theorem memoryBytes_injective : Function.Injective memoryBytes := by
  intro value value' h
  apply UInt32.toNat_inj.mp
  rw [← bigEndian_reverse_memoryBytes value, h, bigEndian_reverse_memoryBytes]

/-! ### Printing -/

theorem ipv4AddressStr_memory (addr : UInt32) :
    ipv4AddressStr addr = dottedDecimal (memoryBytes addr) :=
  ipv4AddressStr_bigEndian (bigEndian_reverse_memoryBytes addr).symm

theorem colon_not_mem_dottedDecimal (bytes : List UInt8) : ':' ∉ dottedDecimal bytes := by
  intro hmem
  rcases mem_intercalate hmem with heq | ⟨text, htext, hmem⟩
  · exact absurd heq (by decide)
  · obtain ⟨b, -, rfl⟩ := List.mem_map.mp htext
    exact absurd (isDigit_of_mem_decimal hmem) (by decide)

theorem dottedDecimal_ne_nil (b : UInt8) (bytes : List UInt8) :
    dottedDecimal (b :: bytes) ≠ [] := by
  have hne : Nat.toDigits 10 b.toNat ≠ [] := Nat.toDigits_ne_nil
  unfold dottedDecimal
  cases bytes with
  | nil =>
    rw [List.map_singleton, List.intercalate_singleton]
    exact hne
  | cons c bytes =>
    rw [List.map_cons, List.map_cons, List.intercalate_cons_cons]
    intro hnil
    exact hne (List.append_eq_nil_iff.mp (List.append_eq_nil_iff.mp hnil).1).1

/-! ### Parsing -/

/-- `inet_aton` takes back what `ipv4_address_str` prints. -/
theorem inetAton_ipv4AddressStr {host : ArgumentsHost} (hinet : ReadsDottedDecimal host)
    (addr : UInt32) : host.inetAton (ipv4AddressStr addr) = some addr := by
  rw [ipv4AddressStr_memory]
  obtain ⟨b, c, d, e, hmemory⟩ : ∃ b c d e, memoryBytes addr = [b, c, d, e] :=
    ⟨_, _, _, _, rfl⟩
  obtain ⟨value, hvalue, hbytes⟩ := hinet b c d e
  rw [hmemory, hvalue, memoryBytes_injective (hbytes.trans hmemory.symm)]

theorem documented_udpAddressStr {host : ArgumentsHost} (hinet : ReadsDottedDecimal host)
    (addr : UInt32) {port : Nat} (hport : 1 ≤ port ∧ port ≤ 65535) :
    Documented host (udpAddressStr addr port) (ipv4AddressStr addr) (Nat.toDigits 10 port)
      addr where
  split := rfl
  no_colon := by
    rw [ipv4AddressStr_memory]
    exact colon_not_mem_dottedDecimal _
  inetAton := inetAton_ipv4AddressStr hinet addr
  ne_nil := Nat.toDigits_ne_nil
  all_digits := fun _ hc => isDigit_of_mem_decimal hc
  port := by
    rw [decimalValue_toDigits]
    exact hport

/-- **Round trip of a configured address.** On a little-endian host every address is read
    back, with its port, from the text printed for it. -/
theorem parseUdpArguments_udpAddressStr {host : ArgumentsHost} (hinet : ReadsDottedDecimal host)
    (addr : UInt32) (port : Nat) (hport : 1 ≤ port ∧ port ≤ 65535) (previous : UdpAddr) :
    ∃ parsed, parseUdpArguments host (udpAddressStr addr port) previous = (0, parsed) ∧
      parsed.addr = addr ∧ parsed.port.toNat = port := by
  have hdoc := documented_udpAddressStr hinet addr hport
  have hne : ipv4AddressStr addr ≠ [] := dottedDecimal_ne_nil _ _
  have hvalue := hdoc.numeral.2
  rw [decimalValue_toDigits] at hvalue
  refine ⟨_, parseUdpArguments_form (hdoc.form_of_ne_nil hne) previous, rfl, ?_⟩
  rw [hvalue, UInt16.toNat_ofNat']
  omega

/-! ### A reference for `inet_aton` -/

namespace Reference

/-- A decimal numeral without superfluous zeros. -/
def octet (text : List Char) : Option UInt8 :=
  if text = Nat.toDigits 10 (decimalValue text) ∧ decimalValue text < 256 then
    some (UInt8.ofNat (decimalValue text))
  else none

/-- The notation with four decimal numbers; the other ones are left out. -/
def inetAton (s : List Char) : Option UInt32 :=
  match (s.splitOn '.').map octet with
  | [some b, some c, some d, some e] => some (compileIpv4Address e d c b)
  | _ => none

def littleEndianHost : ArgumentsHost :=
  { loopbackHost with inetAton := inetAton }

theorem octet_toDigits (b : UInt8) : octet (Nat.toDigits 10 b.toNat) = some b := by
  unfold octet
  rw [decimalValue_toDigits, if_pos ⟨rfl, b.toNat_lt⟩, UInt8.ofNat_toNat]

theorem memoryBytes_compileIpv4Address (b c d e : UInt8) :
    memoryBytes (compileIpv4Address e d c b) = [b, c, d, e] := by
  unfold memoryBytes
  rw [compileIpv4Address_toNat]
  exact congrArg List.reverse (bytesOf_bigEndian [e, d, c, b])

theorem littleEndianHost_readsDottedDecimal : ReadsDottedDecimal littleEndianHost := by
  intro b c d e
  refine ⟨compileIpv4Address e d c b, ?_, memoryBytes_compileIpv4Address b c d e⟩
  change inetAton (dottedDecimal [b, c, d, e]) = _
  unfold inetAton dottedDecimal
  rw [List.splitOn_intercalate '.' (dot_not_mem_octets _) (by simp)]
  simp only [List.map_cons, List.map_nil, octet_toDigits]

/-- The address 192.168.0.200, as `inet_aton` stores it, and the last port. -/
theorem parseUdpArguments_udpAddressStr_private :
    udpAddressStr 0xc800a8c0 65535 =
        ['1', '9', '2', '.', '1', '6', '8', '.', '0', '.', '2', '0', '0', ':',
          '6', '5', '5', '3', '5'] ∧
      ∃ parsed, parseUdpArguments littleEndianHost (udpAddressStr 0xc800a8c0 65535) ⟨0, 0⟩ =
          (0, parsed) ∧ parsed.addr = 0xc800a8c0 ∧ parsed.port.toNat = 65535 := by
  refine ⟨by decide, ?_⟩
  exact parseUdpArguments_udpAddressStr littleEndianHost_readsDottedDecimal 0xc800a8c0 65535
    (by decide) ⟨0, 0⟩

end Reference

end DvbGseTunnel
