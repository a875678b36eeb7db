import FangaOS.Net.Ip
import FangaOS.Lib.InternetChecksum

/-! The checksums of `ipv4.rs`, `tcp.rs` and `udp.rs` against RFC 1071.  They add
words into a `u32`, which loses an end-around carry once a sum reaches
`2 ^ 32`. -/

namespace FangaOS.Net

open InternetChecksum

/-! ### The loops compute the library's sums -/

theorem toNat_fromBeBytes_pair (high low : UInt8) :
    (UInt16.fromBeBytes [high, low]).toNat = high.toNat * 256 + low.toNat := by
  have highByte := high.toNat_lt
  have lowByte := low.toNat_lt
  simp only [UInt16.fromBeBytes, BigEndian.decode, List.foldl_cons, List.foldl_nil,
    UInt16.toNat_ofNat']
  omega

theorem toNat_sumWords (sum : UInt32) (data : List UInt8) :
    (sumWords sum data).toNat = (sum.toNat + wordSum data) % 2 ^ 32 := by
  induction sum, data using sumWords.induct with
  | case1 sum =>
      rw [sumWords, wordSum, Nat.add_zero, Nat.mod_eq_of_lt sum.toNat_lt]
  | case2 sum last =>
      have byte := last.toNat_lt
      rw [sumWords, wordSum, UInt32.toNat_add, UInt32.toNat_shiftLeft, UInt8.toNat_toUInt32,
        Nat.shiftLeft_eq]
      congr 2
      simp only [show (8 : UInt32).toNat % 32 = 8 from rfl]
      omega
  | case3 sum high low rest ih =>
      rw [sumWords, ih, wordSum, UInt32.toNat_add, UInt16.toNat_toUInt32,
        toNat_fromBeBytes_pair, Nat.mod_add_mod]
      congr 1
      omega

theorem toNat_shiftRight_sixteen (sum : UInt32) : (sum >>> 16).toNat = sum.toNat / 65536 := by
  rw [UInt32.toNat_shiftRight, Nat.shiftRight_eq_div_pow]
  rfl

theorem toNat_and_low (sum : UInt32) : (sum &&& (0xFFFF : UInt32)).toNat = sum.toNat % 65536 := by
  rw [UInt32.toNat_and, show (0xFFFF : UInt32).toNat = 2 ^ 16 - 1 from rfl,
    Nat.and_two_pow_sub_one_eq_mod]

theorem toNat_foldCarries (sum : UInt32) : (foldCarries sum).toNat = endAroundCarry sum.toNat := by
  induction sum using foldCarries.induct with
  | case1 sum carry ih =>
      have high := toNat_shiftRight_sixteen sum
      have large : ¬ sum.toNat < 65536 := by
        intro small
        exact carry (UInt32.toNat_inj.mp (by rw [high, Nat.div_eq_of_lt small]; rfl))
      have bound := sum.toNat_lt
      rw [foldCarries, if_pos carry, ih, UInt32.toNat_add, toNat_and_low, high,
        Nat.mod_eq_of_lt (by omega)]
      conv_rhs => rw [endAroundCarry, if_neg large]
  | case2 sum noCarry =>
      have small : sum.toNat < 65536 := by
        have zero := congrArg UInt32.toNat (not_not.mp noCarry)
        rw [toNat_shiftRight_sixteen] at zero
        exact Nat.lt_of_div_eq_zero (by decide) zero
      rw [foldCarries, if_neg noCarry, endAroundCarry, if_pos small]

theorem toNat_finishChecksum (sum : UInt32) (data : List UInt8) :
    (finishChecksum sum data).toNat =
      65535 - endAroundCarry ((sum.toNat + wordSum data) % 2 ^ 32) := by
  have folded := endAroundCarry_le ((sum.toNat + wordSum data) % 2 ^ 32)
  rw [finishChecksum, UInt32.toNat_toUInt16, UInt32.toNat_not, toNat_foldCarries,
    toNat_sumWords]
  change (2 ^ 32 - 1 - _) % 2 ^ 16 = _
  omega

theorem Ipv4Parser.calculateChecksum_eq (header : List UInt8) :
    Ipv4Parser.calculateChecksum header = finishChecksum 0 header :=
  rfl

/-! ### A written checksum verifies -/

theorem wordSum_toBeBytes (value : UInt16) : wordSum value.toBeBytes = value.toNat := by
  obtain ⟨high, low, pair⟩ := List.length_eq_two.mp value.length_toBeBytes
  have decoded := UInt16.fromBeBytes_toBeBytes value
  rw [pair] at decoded ⊢
  rw [← decoded, toNat_fromBeBytes_pair, wordSum, wordSum, Nat.add_zero]

theorem finishChecksum_overwrite (sum : UInt32) {data : List UInt8} {offset : Nat}
    (even : offset % 2 = 0) (zeroWord : data.extract offset (offset + 2) = [0, 0]) :
    finishChecksum sum (Slice.overwrite data offset (finishChecksum sum data).toBeBytes) = 0 := by
  obtain ⟨high, low, pair⟩ :=
    List.length_eq_two.mp (finishChecksum sum data).length_toBeBytes
  have written := wordSum_overwrite even zeroWord high low
  have word : high.toNat * 256 + low.toNat = (finishChecksum sum data).toNat := by
    rw [← wordSum_toBeBytes, pair, wordSum, wordSum, Nat.add_zero]
  -- the sum of the data as the code reduces it, and the checksum computed from it
  set reduced := (sum.toNat + wordSum data) % 2 ^ 32 with reducedIs
  have fits : reduced + (65535 - endAroundCarry reduced) < 2 ^ 32 :=
    add_complement_lt (Nat.mod_lt _ (by decide))
  have sameSum : (sum.toNat + (wordSum data + (65535 - endAroundCarry reduced))) % 2 ^ 32 =
      reduced + (65535 - endAroundCarry reduced) := by
    generalize 65535 - endAroundCarry reduced = complement at fits ⊢
    omega
  apply UInt16.toNat_inj.mp
  rw [pair, toNat_finishChecksum, written, word, toNat_finishChecksum, ← reducedIs, sameSum,
    endAroundCarry_add_complement]
  rfl

theorem length_overwrite_toBeBytes {data : List UInt8} {offset : Nat}
    (zeroWord : data.extract offset (offset + 2) = [0, 0]) (value : UInt16) :
    (Slice.overwrite data offset value.toBeBytes).length = data.length :=
  Slice.length_overwrite (by rw [UInt16.length_toBeBytes]; exact (eq_of_extract_zero zeroWord).1)

/-! ### The pseudo-header -/

/-- The pseudo-header of RFC 793 and RFC 768 before a segment or a datagram. -/
def pseudoHeader (srcIp dstIp : Ipv4Address) (protocol : UInt8) (length : Nat) : List UInt8 :=
  srcIp.octets.toList ++ dstIp.octets.toList ++ [0, protocol] ++ (UInt16.ofNat length).toBeBytes

theorem Ipv4Address.toList_octets (address : Ipv4Address) :
    address.octets.toList =
      [address.octets.get 0, address.octets.get 1, address.octets.get 2, address.octets.get 3] := by
  obtain ⟨⟨octets, four⟩⟩ := address
  match octets, four with
  | [_, _, _, _], _ => rfl

theorem length_pseudoHeader (srcIp dstIp : Ipv4Address) (protocol : UInt8) (length : Nat) :
    (pseudoHeader srcIp dstIp protocol length).length = 12 := by
  simp [pseudoHeader]

theorem toNat_pseudoHeaderSum {protocol : UInt8} {length : Nat} (short : length < 65536)
    (srcIp dstIp : Ipv4Address) :
    (pseudoHeaderSum protocol.toUInt32 srcIp dstIp length).toNat =
      wordSum (pseudoHeader srcIp dstIp protocol length) := by
  have words : ∀ high low : UInt8, (UInt16.fromBeBytes [high, low]).toNat < 65536 :=
    fun _ _ => UInt16.toNat_lt _
  obtain ⟨high, low, pair⟩ := List.length_eq_two.mp (UInt16.ofNat length).length_toBeBytes
  have lengthWord : high.toNat * 256 + low.toNat = length := by
    rw [← toNat_fromBeBytes_pair, ← pair, UInt16.fromBeBytes_toBeBytes, UInt16.toNat_ofNat',
      Nat.mod_eq_of_lt short]
  have protocolByte := protocol.toNat_lt
  have srcHigh := words (srcIp.octets.get 0) (srcIp.octets.get 1)
  have srcLow := words (srcIp.octets.get 2) (srcIp.octets.get 3)
  have dstHigh := words (dstIp.octets.get 0) (dstIp.octets.get 1)
  have dstLow := words (dstIp.octets.get 2) (dstIp.octets.get 3)
  simp only [pseudoHeaderSum, UInt32.toNat_add, UInt16.toNat_toUInt32, UInt8.toNat_toUInt32,
    Nat.toUInt32_eq, UInt32.toNat_ofNat', pseudoHeader, Ipv4Address.toList_octets, pair,
    List.cons_append, List.nil_append, wordSum, UInt32.toNat_zero, UInt8.toNat_zero,
    toNat_fromBeBytes_pair] at srcHigh srcLow dstHigh dstLow ⊢
  omega

/-! ### Against RFC 1071 -/

theorem Ipv4Parser.toNat_calculateChecksum {header : List UInt8} (short : header.length ≤ 131074) :
    (Ipv4Parser.calculateChecksum header).toNat = checksum header := by
  have small : wordSum header < 2 ^ 32 :=
    calc wordSum header ≤ 65535 * ((header.length + 1) / 2) := wordSum_le header
      _ ≤ 65535 * 65537 := Nat.mul_le_mul_left _ (by omega)
      _ < 2 ^ 32 := by decide
  rw [calculateChecksum_eq, toNat_finishChecksum, UInt32.toNat_zero, Nat.zero_add,
    Nat.mod_eq_of_lt small]
  rfl

theorem toNat_pseudoHeaderChecksum {protocol : UInt8} {packet : List UInt8}
    (short : packet.length ≤ 65535) (srcIp dstIp : Ipv4Address) :
    (pseudoHeaderChecksum protocol.toUInt32 srcIp dstIp packet).toNat =
      checksum (pseudoHeader srcIp dstIp protocol packet.length ++ packet) := by
  have headerSum := wordSum_le (pseudoHeader srcIp dstIp protocol packet.length)
  have packetSum := wordSum_le packet
  rw [length_pseudoHeader] at headerSum
  have packetWords : (packet.length + 1) / 2 ≤ 32768 := by omega
  have small : wordSum (pseudoHeader srcIp dstIp protocol packet.length) + wordSum packet < 2 ^ 32 :=
    calc _ ≤ 65535 * ((12 + 1) / 2) + 65535 * ((packet.length + 1) / 2) :=
          Nat.add_le_add headerSum packetSum
      _ ≤ 65535 * 6 + 65535 * 32768 := by omega
      _ < 2 ^ 32 := by decide
  rw [pseudoHeaderChecksum, toNat_finishChecksum, toNat_pseudoHeaderSum (by omega),
    Nat.mod_eq_of_lt small, checksum, wordSum_append (by rw [length_pseudoHeader])]

theorem TcpParser.toNat_calculateChecksum {segment : List UInt8} (short : segment.length ≤ 65535)
    (srcIp dstIp : Ipv4Address) : (TcpParser.calculateChecksum srcIp dstIp segment).toNat =
      checksum (pseudoHeader srcIp dstIp 6 segment.length ++ segment) := by
  rw [TcpParser.calculateChecksum, show (6 : UInt32) = (6 : UInt8).toUInt32 by decide]
  exact toNat_pseudoHeaderChecksum short srcIp dstIp

theorem UdpParser.toNat_calculateChecksum {datagram : List UInt8} (short : datagram.length ≤ 65535)
    (srcIp dstIp : Ipv4Address) : (UdpParser.calculateChecksum srcIp dstIp datagram).toNat =
      checksum (pseudoHeader srcIp dstIp 17 datagram.length ++ datagram) := by
  rw [UdpParser.calculateChecksum, show (17 : UInt32) = (17 : UInt8).toUInt32 by decide]
  exact toNat_pseudoHeaderChecksum short srcIp dstIp

theorem checksums_verify_and_match_rfc1071 :
    (∀ header : List UInt8, 20 ≤ header.length → header.extract 10 12 = [0, 0] →
        Ipv4Parser.calculateChecksum
          (Slice.overwrite header 10 (Ipv4Parser.calculateChecksum header).toBeBytes) = 0) ∧
      (∀ (srcIp dstIp : Ipv4Address) (segment : List UInt8), 20 ≤ segment.length →
        segment.extract 16 18 = [0, 0] →
        TcpParser.calculateChecksum srcIp dstIp (Slice.overwrite segment 16
          (TcpParser.calculateChecksum srcIp dstIp segment).toBeBytes) = 0) ∧
      (∀ (srcIp dstIp : Ipv4Address) (datagram : List UInt8), 8 ≤ datagram.length →
        datagram.extract 6 8 = [0, 0] →
        UdpParser.calculateChecksum srcIp dstIp (Slice.overwrite datagram 6
          (UdpParser.calculateChecksum srcIp dstIp datagram).toBeBytes) = 0) ∧
      (∀ header : List UInt8, header.length ≤ 131074 →
        (Ipv4Parser.calculateChecksum header).toNat = checksum header) ∧
      (∀ (srcIp dstIp : Ipv4Address) (segment : List UInt8), segment.length ≤ 65535 →
        (TcpParser.calculateChecksum srcIp dstIp segment).toNat =
          checksum (pseudoHeader srcIp dstIp 6 segment.length ++ segment)) ∧
      (∀ (srcIp dstIp : Ipv4Address) (datagram : List UInt8), datagram.length ≤ 65535 →
        (UdpParser.calculateChecksum srcIp dstIp datagram).toNat =
          checksum (pseudoHeader srcIp dstIp 17 datagram.length ++ datagram)) := by
  refine ⟨fun header _ zeroWord => ?_, fun srcIp dstIp segment _ zeroWord => ?_,
    fun srcIp dstIp datagram _ zeroWord => ?_,
    fun _ short => Ipv4Parser.toNat_calculateChecksum short,
    fun srcIp dstIp _ short => TcpParser.toNat_calculateChecksum short srcIp dstIp,
    fun srcIp dstIp _ short => UdpParser.toNat_calculateChecksum short srcIp dstIp⟩
  · exact finishChecksum_overwrite 0 (by decide) zeroWord
  · -- the write keeps the length, so the pseudo-header sum is the same before and after
    rw [TcpParser.calculateChecksum, pseudoHeaderChecksum, length_overwrite_toBeBytes zeroWord]
    exact finishChecksum_overwrite _ (by decide) zeroWord
  · rw [UdpParser.calculateChecksum, pseudoHeaderChecksum, length_overwrite_toBeBytes zeroWord]
    exact finishChecksum_overwrite _ (by decide) zeroWord

/-- An IPv4 "header" of 131076 bytes `0xFF`: its words sum to `65538 * 65535`,
past `2 ^ 32`, and the `u32` drops the carry, so the code returns `1` where RFC
1071 gives `0`. -/
theorem ipv4_checksum_drops_wrapped_carry :
    let header : List UInt8 := List.replicate 131076 0xFF
    (Ipv4Parser.calculateChecksum header).toNat = 1 ∧ checksum header = 0 := by
  intro header
  have words : wordSum header = 65538 * 65535 := wordSum_replicate 65538 0xFF
  refine ⟨?_, ?_⟩
  · rw [Ipv4Parser.calculateChecksum_eq, toNat_finishChecksum, words, endAroundCarry_eq]
    decide
  · rw [checksum, words, endAroundCarry_eq]
    decide

end FangaOS.Net
