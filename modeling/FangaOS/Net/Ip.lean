import FangaOS.Net.Link

/-! IPv4, UDP and TCP headers of `net/ipv4.rs`, `net/udp.rs` and `net/tcp.rs`. -/

namespace FangaOS.Net

inductive IpProtocol
  | icmp
  | tcp
  | udp
  deriving DecidableEq, Repr

def IpProtocol.fromU8 (value : UInt8) : Option IpProtocol :=
  if value = 1 then some .icmp
  else if value = 6 then some .tcp
  else if value = 17 then some .udp
  else none

/-- `protocol as u8`. -/
def IpProtocol.toU8 : IpProtocol → UInt8
  | .icmp => 1
  | .tcp => 6
  | .udp => 17

structure Ipv4Header where
  versionIhl : UInt8
  tos : UInt8
  totalLength : UInt16
  identification : UInt16
  flagsFragment : UInt16
  ttl : UInt8
  protocol : UInt8
  checksum : UInt16
  srcAddr : List.Vector UInt8 4
  dstAddr : List.Vector UInt8 4
  deriving DecidableEq

def Ipv4Header.version (header : Ipv4Header) : UInt8 :=
  header.versionIhl >>> 4

/-- `((version_ihl & 0x0F) * 4) as usize`. -/
def Ipv4Header.headerLength (header : Ipv4Header) : Nat :=
  ((header.versionIhl &&& 0x0F) * 4).toNat

def Ipv4Parser.parse (data : List UInt8) : Except String (Ipv4Header × List UInt8) :=
  if short : data.length < 20 then .error "IPv4 packet too short"
  else
    let header : Ipv4Header :=
      { versionIhl := data.getD 0 0
        tos := data.getD 1 0
        totalLength := UInt16.fromBeBytes [data.getD 2 0, data.getD 3 0]
        identification := UInt16.fromBeBytes [data.getD 4 0, data.getD 5 0]
        flagsFragment := UInt16.fromBeBytes [data.getD 6 0, data.getD 7 0]
        ttl := data.getD 8 0
        protocol := data.getD 9 0
        checksum := UInt16.fromBeBytes [data.getD 10 0, data.getD 11 0]
        srcAddr := ⟨data.extract 12 16, by simp; omega⟩
        dstAddr := ⟨data.extract 16 20, by simp; omega⟩ }
    if header.version ≠ 4 then .error "Invalid IP version"
    else if data.length < header.headerLength then .error "Truncated IP header"
    else .ok (header, data.drop header.headerLength)

/-- The word loop of `calculate_checksum`: big-endian words are added to a
`u32` in order, and an odd last byte is the high byte of a word. -/
def sumWords (sum : UInt32) : List UInt8 → UInt32
  | [] => sum
  | [last] => sum + (last.toUInt32 <<< 8)
  | high :: low :: rest => sumWords (sum + (UInt16.fromBeBytes [high, low]).toUInt32) rest

/-- The carry loop of `calculate_checksum`; each round lowers the sum while a
carry is left. -/
def foldCarries (sum : UInt32) : UInt32 :=
  if sum >>> 16 ≠ 0 then foldCarries ((sum &&& (0xFFFF : UInt32)) + (sum >>> 16)) else sum
termination_by sum.toNat
decreasing_by
  rename_i carry
  have high : (sum >>> 16).toNat = sum.toNat / 65536 := by
    rw [UInt32.toNat_shiftRight, Nat.shiftRight_eq_div_pow]
    rfl
  have low : (sum &&& (0xFFFF : UInt32)).toNat = sum.toNat % 65536 := by
    rw [UInt32.toNat_and, show (0xFFFF : UInt32).toNat = 2 ^ 16 - 1 from rfl,
      Nat.and_two_pow_sub_one_eq_mod]
  have positive : sum.toNat / 65536 ≠ 0 := by
    rw [← high]
    exact fun zero => carry (UInt32.toNat_inj.mp (by rw [zero]; rfl))
  have bound := sum.toNat_lt
  have small : sum.toNat % 65536 + sum.toNat / 65536 < 2 ^ 32 := by omega
  rw [UInt32.toNat_add, low, high, Nat.mod_eq_of_lt small]
  omega

def Ipv4Parser.calculateChecksum (header : List UInt8) : UInt16 :=
  (~~~(foldCarries (sumWords 0 header))).toUInt16

/-- The tail that the three `calculate_checksum` functions share: the words of
the data added to `sum`, the carries folded, and `!sum as u16`. -/
def finishChecksum (sum : UInt32) (data : List UInt8) : UInt16 :=
  (~~~(foldCarries (sumWords sum data))).toUInt16

/-- The pseudo-header sum of `tcp.rs` and `udp.rs`: the two addresses as two
words each, the protocol number and `len() as u32`, added to a `u32` from zero. -/
def pseudoHeaderSum (protocol : UInt32) (srcIp dstIp : Ipv4Address) (length : Nat) : UInt32 :=
  let sum : UInt32 := 0
  let sum := sum + (UInt16.fromBeBytes [srcIp.octets.get 0, srcIp.octets.get 1]).toUInt32
  let sum := sum + (UInt16.fromBeBytes [srcIp.octets.get 2, srcIp.octets.get 3]).toUInt32
  let sum := sum + (UInt16.fromBeBytes [dstIp.octets.get 0, dstIp.octets.get 1]).toUInt32
  let sum := sum + (UInt16.fromBeBytes [dstIp.octets.get 2, dstIp.octets.get 3]).toUInt32
  let sum := sum + protocol
  sum + length.toUInt32

/-- The `calculate_checksum` of `tcp.rs` and `udp.rs`, which differ only in the
protocol number. -/
def pseudoHeaderChecksum (protocol : UInt32) (srcIp dstIp : Ipv4Address) (packet : List UInt8) :
    UInt16 :=
  finishChecksum (pseudoHeaderSum protocol srcIp dstIp packet.length) packet

/-- `build`: the twenty header bytes with a zero checksum, the checksum of those
bytes written at offset ten, then the payload. -/
def Ipv4Parser.build (srcAddr dstAddr : Ipv4Address) (protocol : IpProtocol)
    (payload : List UInt8) : List UInt8 :=
  let totalLength := 20 + payload.length
  let packet : List UInt8 :=
    [0x45, 0] ++ (UInt16.ofNat totalLength).toBeBytes ++ (0 : UInt16).toBeBytes ++
      (0x4000 : UInt16).toBeBytes ++ [64, protocol.toU8] ++ [0, 0] ++ srcAddr.octets.toList ++
      dstAddr.octets.toList
  let checksum := Ipv4Parser.calculateChecksum (packet.extract 0 20)
  let packet := packet.take 10 ++ checksum.toBeBytes ++ packet.drop 12
  packet ++ payload

structure UdpHeader where
  srcPort : UInt16
  dstPort : UInt16
  length : UInt16
  checksum : UInt16
  deriving DecidableEq

def UdpParser.parse (data : List UInt8) : Except String (UdpHeader × List UInt8) :=
  if data.length < 8 then .error "UDP packet too short"
  else
    .ok ({ srcPort := UInt16.fromBeBytes [data.getD 0 0, data.getD 1 0]
           dstPort := UInt16.fromBeBytes [data.getD 2 0, data.getD 3 0]
           length := UInt16.fromBeBytes [data.getD 4 0, data.getD 5 0]
           checksum := UInt16.fromBeBytes [data.getD 6 0, data.getD 7 0] },
      data.drop 8)

def UdpParser.build (srcPort dstPort : UInt16) (payload : List UInt8) : List UInt8 :=
  let length := 8 + payload.length
  srcPort.toBeBytes ++ dstPort.toBeBytes ++ (UInt16.ofNat length).toBeBytes ++
    (0 : UInt16).toBeBytes ++ payload

/-- `UdpParser::calculate_checksum`: protocol 17. -/
def UdpParser.calculateChecksum (srcIp dstIp : Ipv4Address) (udpPacket : List UInt8) : UInt16 :=
  pseudoHeaderChecksum 17 srcIp dstIp udpPacket

structure TcpHeader where
  srcPort : UInt16
  dstPort : UInt16
  seqNum : UInt32
  ackNum : UInt32
  dataOffsetFlags : UInt16
  windowSize : UInt16
  checksum : UInt16
  urgentPtr : UInt16
  deriving DecidableEq

def TcpHeader.dataOffset (header : TcpHeader) : UInt8 :=
  ((header.dataOffsetFlags >>> 12) &&& 0x0F).toUInt8

def TcpHeader.headerLength (header : TcpHeader) : Nat :=
  (header.dataOffset * 4).toNat

def TcpHeader.flags (header : TcpHeader) : UInt8 :=
  (header.dataOffsetFlags &&& 0x3F).toUInt8

def TcpParser.parse (data : List UInt8) : Except String (TcpHeader × List UInt8) :=
  if data.length < 20 then .error "TCP packet too short"
  else
    let header : TcpHeader :=
      { srcPort := UInt16.fromBeBytes [data.getD 0 0, data.getD 1 0]
        dstPort := UInt16.fromBeBytes [data.getD 2 0, data.getD 3 0]
        seqNum := UInt32.fromBeBytes [data.getD 4 0, data.getD 5 0, data.getD 6 0, data.getD 7 0]
        ackNum :=
          UInt32.fromBeBytes [data.getD 8 0, data.getD 9 0, data.getD 10 0, data.getD 11 0]
        dataOffsetFlags := UInt16.fromBeBytes [data.getD 12 0, data.getD 13 0]
        windowSize := UInt16.fromBeBytes [data.getD 14 0, data.getD 15 0]
        checksum := UInt16.fromBeBytes [data.getD 16 0, data.getD 17 0]
        urgentPtr := UInt16.fromBeBytes [data.getD 18 0, data.getD 19 0] }
    if data.length < header.headerLength then .error "Truncated TCP header"
    else .ok (header, data.drop header.headerLength)

/-- `build`: a data offset of five words, no checksum and no urgent pointer. -/
def TcpParser.build (srcPort dstPort : UInt16) (seqNum ackNum : UInt32) (flags : UInt8)
    (windowSize : UInt16) (payload : List UInt8) : List UInt8 :=
  let dataOffsetFlags : UInt16 := ((5 : UInt16) <<< 12) ||| flags.toUInt16
  srcPort.toBeBytes ++ dstPort.toBeBytes ++ seqNum.toBeBytes ++ ackNum.toBeBytes ++
    dataOffsetFlags.toBeBytes ++ windowSize.toBeBytes ++ (0 : UInt16).toBeBytes ++
    (0 : UInt16).toBeBytes ++ payload

/-- `TcpParser::calculate_checksum`: protocol 6. -/
def TcpParser.calculateChecksum (srcIp dstIp : Ipv4Address) (tcpPacket : List UInt8) : UInt16 :=
  pseudoHeaderChecksum 6 srcIp dstIp tcpPacket

/-! ### What a parser accepts -/

/-- A header-length field below five is accepted: twenty bytes whose IHL, or
whose TCP data offset, is zero parse with a header length of zero, and the
payload returned is the whole input, header included. -/
theorem parsers_accept_short_header :
    (Ipv4Parser.parse (0x40 :: List.replicate 19 0)).map
        (fun result => (result.1.headerLength, result.2)) =
      .ok (0, 0x40 :: List.replicate 19 0) ∧
    (TcpParser.parse (List.replicate 20 0)).map
        (fun result => (result.1.headerLength, result.2)) =
      .ok (0, List.replicate 20 0) := by
  decide

/-! ### Round trips -/

theorem IpProtocol.fromU8_toU8 (protocol : IpProtocol) :
    IpProtocol.fromU8 protocol.toU8 = some protocol := by
  cases protocol <;> rfl

theorem Ipv4Parser.parse_build (srcAddr dstAddr : Ipv4Address) (protocol : IpProtocol)
    (payload : List UInt8) (fits : 20 + payload.length ≤ 65535) :
    (Ipv4Parser.parse (Ipv4Parser.build srcAddr dstAddr protocol payload)).map
        (fun result => (result.1.version, result.1.headerLength, result.1.totalLength.toNat,
          IpProtocol.fromU8 result.1.protocol, result.1.srcAddr, result.1.dstAddr, result.2)) =
      .ok (4, 20, 20 + payload.length, some protocol, srcAddr.octets, dstAddr.octets,
        payload) := by
  have long : ¬(Ipv4Parser.build srcAddr dstAddr protocol payload).length < 20 := by
    simp [Ipv4Parser.build]
    omega
  -- `total_length as u16` keeps its value below 65536.
  have total : (20 + UInt16.ofNat payload.length).toNat = 20 + payload.length := by
    rw [UInt16.toNat_add, UInt16.toNat_ofNat', Nat.mod_eq_of_lt (by omega : payload.length < 2 ^ 16)]
    exact Nat.mod_eq_of_lt (by simp; omega)
  have versionFour : (0x45 : UInt8) >>> 4 = 4 := by decide
  obtain ⟨⟨src, srcLength⟩⟩ := srcAddr
  obtain ⟨⟨dst, dstLength⟩⟩ := dstAddr
  unfold Ipv4Parser.parse
  rw [dif_neg long]
  simp [Ipv4Parser.build, srcLength, dstLength, List.getElem?_append, List.drop_append,
    List.drop_eq_nil_of_le, List.getElem_pair, List.take_of_length_le, Ipv4Header.version,
    Ipv4Header.headerLength]
  rw [if_pos versionFour, if_neg (by omega)]
  simp [Except.map, total, IpProtocol.fromU8_toU8, versionFour]

theorem UdpParser.parse_build (srcPort dstPort : UInt16) (payload : List UInt8)
    (fits : 8 + payload.length ≤ 65535) :
    (UdpParser.parse (UdpParser.build srcPort dstPort payload)).map
        (fun result => (result.1.srcPort, result.1.dstPort, result.1.length.toNat, result.2)) =
      .ok (srcPort, dstPort, 8 + payload.length, payload) := by
  have long : ¬(UdpParser.build srcPort dstPort payload).length < 8 := by
    simp [UdpParser.build]
    omega
  have length : (8 + UInt16.ofNat payload.length).toNat = 8 + payload.length := by
    rw [UInt16.toNat_add, UInt16.toNat_ofNat', Nat.mod_eq_of_lt (by omega : payload.length < 2 ^ 16)]
    exact Nat.mod_eq_of_lt (by simp; omega)
  unfold UdpParser.parse
  rw [if_neg long]
  simp [UdpParser.build, List.getElem?_append, List.drop_append, List.drop_eq_nil_of_le,
    List.getElem_pair, Except.map, length]

theorem tcpDataOffsetFlags_fields (flags : UInt8) (sixBits : flags < 64) :
    (((5 : UInt16) <<< 12 ||| flags.toUInt16) >>> 12 &&& 0x0F).toUInt8 = 5 ∧
      (((5 : UInt16) <<< 12 ||| flags.toUInt16) &&& 0x3F).toUInt8 = flags := by
  have flagBound : flags.toNat < 64 := UInt8.lt_iff_toNat_lt.mp sixBits
  -- The flags sit below bit twelve, so the or is a sum.
  have word : ((5 : UInt16) <<< 12 ||| flags.toUInt16).toNat = 20480 + flags.toNat := by
    rw [UInt16.toNat_or, UInt8.toNat_toUInt16,
      show ((5 : UInt16) <<< 12).toNat = 5 <<< 12 from rfl,
      ← Nat.shiftLeft_add_eq_or_of_lt (by omega : flags.toNat < 2 ^ 12)]
    rfl
  constructor
  · apply UInt8.toNat_inj.mp
    rw [UInt16.toNat_toUInt8, UInt16.toNat_and, UInt16.toNat_shiftRight, word,
      show (0x0F : UInt16).toNat = 2 ^ 4 - 1 from rfl, Nat.and_two_pow_sub_one_eq_mod,
      Nat.shiftRight_eq_div_pow]
    show (20480 + flags.toNat) / 4096 % 16 % 256 = 5
    omega
  · apply UInt8.toNat_inj.mp
    rw [UInt16.toNat_toUInt8, UInt16.toNat_and, word,
      show (0x3F : UInt16).toNat = 2 ^ 6 - 1 from rfl, Nat.and_two_pow_sub_one_eq_mod]
    show (20480 + flags.toNat) % 64 % 256 = flags.toNat
    omega

theorem TcpParser.parse_build (srcPort dstPort : UInt16) (seqNum ackNum : UInt32) (flags : UInt8)
    (windowSize : UInt16) (payload : List UInt8) (sixBits : flags < 64) :
    (TcpParser.parse (TcpParser.build srcPort dstPort seqNum ackNum flags windowSize payload)).map
        (fun result => (result.1.srcPort, result.1.dstPort, result.1.seqNum, result.1.ackNum,
          result.1.flags, result.1.windowSize, result.1.headerLength, result.2)) =
      .ok (srcPort, dstPort, seqNum, ackNum, flags, windowSize, 20, payload) := by
  obtain ⟨offsetFive, flagsKept⟩ := tcpDataOffsetFlags_fields flags sixBits
  have long : ¬(TcpParser.build srcPort dstPort seqNum ackNum flags windowSize payload).length < 20 := by
    simp [TcpParser.build]
    omega
  have twenty : ((5 : UInt8) * 4).toNat = 20 := rfl
  unfold TcpParser.parse
  rw [if_neg long]
  simp [TcpParser.build, List.getElem?_append, List.drop_append, List.getElem_pair,
    List.getElem_quad]
  simp only [TcpHeader.headerLength, TcpHeader.dataOffset, offsetFive, twenty]
  rw [if_neg (by omega)]
  simp [Except.map, TcpHeader.flags, offsetFive, flagsKept, List.drop_eq_nil_of_le]

/-- Each builder's packet is parsed back: Ethernet gives back its addresses,
type and payload; ARP requests and replies their operation and addresses; and
IPv4, UDP and TCP packets whose lengths fit their 16-bit fields, and TCP flags
that fit their six bits, give back their fields, a twenty-byte (eight for UDP)
header and the payload. -/
theorem network_builders_round_trip :
    (∀ (dstMac srcMac : MacAddress) (ethertype : EtherType) (payload : List UInt8),
      EthernetParser.parse (EthernetParser.build dstMac srcMac ethertype payload) =
        .ok (dstMac, srcMac, ethertype, payload)) ∧
    (∀ (senderMac : MacAddress) (senderIp targetIp : Ipv4Address),
      (ArpParser.parse (ArpParser.buildRequest senderMac senderIp targetIp).toList).map
          (fun packet => (ArpOperation.fromU16 packet.operation, packet.senderHwAddr,
            packet.senderProtoAddr, packet.targetHwAddr, packet.targetProtoAddr)) =
        .ok (some .request, senderMac.bytes, senderIp.octets, List.Vector.replicate 6 0,
          targetIp.octets)) ∧
    (∀ (senderMac : MacAddress) (senderIp : Ipv4Address) (targetMac : MacAddress)
        (targetIp : Ipv4Address),
      (ArpParser.parse (ArpParser.buildReply senderMac senderIp targetMac targetIp).toList).map
          (fun packet => (ArpOperation.fromU16 packet.operation, packet.senderHwAddr,
            packet.senderProtoAddr, packet.targetHwAddr, packet.targetProtoAddr)) =
        .ok (some .reply, senderMac.bytes, senderIp.octets, targetMac.bytes, targetIp.octets)) ∧
    (∀ (srcAddr dstAddr : Ipv4Address) (protocol : IpProtocol) (payload : List UInt8),
      20 + payload.length ≤ 65535 →
      (Ipv4Parser.parse (Ipv4Parser.build srcAddr dstAddr protocol payload)).map
          (fun result => (result.1.version, result.1.headerLength, result.1.totalLength.toNat,
            IpProtocol.fromU8 result.1.protocol, result.1.srcAddr, result.1.dstAddr, result.2)) =
        .ok (4, 20, 20 + payload.length, some protocol, srcAddr.octets, dstAddr.octets, payload)) ∧
    (∀ (srcPort dstPort : UInt16) (payload : List UInt8), 8 + payload.length ≤ 65535 →
      (UdpParser.parse (UdpParser.build srcPort dstPort payload)).map
          (fun result => (result.1.srcPort, result.1.dstPort, result.1.length.toNat, result.2)) =
        .ok (srcPort, dstPort, 8 + payload.length, payload)) ∧
    (∀ (srcPort dstPort : UInt16) (seqNum ackNum : UInt32) (flags : UInt8) (windowSize : UInt16)
        (payload : List UInt8), flags < 64 →
      (TcpParser.parse (TcpParser.build srcPort dstPort seqNum ackNum flags windowSize payload)).map
          (fun result => (result.1.srcPort, result.1.dstPort, result.1.seqNum, result.1.ackNum,
            result.1.flags, result.1.windowSize, result.1.headerLength, result.2)) =
        .ok (srcPort, dstPort, seqNum, ackNum, flags, windowSize, 20, payload)) :=
  ⟨EthernetParser.parse_build, ArpParser.parse_buildRequest, ArpParser.parse_buildReply,
    Ipv4Parser.parse_build, UdpParser.parse_build, TcpParser.parse_build⟩

end FangaOS.Net
