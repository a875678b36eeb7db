import Mathlib.Data.Vector.Basic
import FangaOS.Lib.Bytes

/-! Ethernet frames and ARP packets of `net/ethernet.rs` and `net/arp.rs`.
`data[i]` is `data.getD i 0` and `&data[a..b]` is `data.extract a b`. -/

namespace FangaOS.Net

inductive EtherType
  | ipv4
  | arp
  | ipv6
  deriving DecidableEq, Repr

def EtherType.fromU16 (value : UInt16) : Option EtherType :=
  if value = 0x0800 then some .ipv4
  else if value = 0x0806 then some .arp
  else if value = 0x86DD then some .ipv6
  else none

/-- `to_be_u16`: the discriminant, `self as u16`. -/
def EtherType.toBeU16 : EtherType → UInt16
  | .ipv4 => 0x0800
  | .arp => 0x0806
  | .ipv6 => 0x86DD

structure MacAddress where
  bytes : List.Vector UInt8 6
  deriving DecidableEq

structure Ipv4Address where
  octets : List.Vector UInt8 4
  deriving DecidableEq

def EthernetParser.parse (data : List UInt8) :
    Except String (MacAddress × MacAddress × EtherType × List UInt8) :=
  if short : data.length < 14 then .error "Frame too short"
  else
    let dstMac : MacAddress := ⟨⟨data.extract 0 6, by simp; omega⟩⟩
    let srcMac : MacAddress := ⟨⟨data.extract 6 12, by simp; omega⟩⟩
    let ethertype := UInt16.fromBeBytes [data.getD 12 0, data.getD 13 0]
    match EtherType.fromU16 ethertype with
    | none => .error "Unknown EtherType"
    | some ethertype => .ok (dstMac, srcMac, ethertype, data.drop 14)

def EthernetParser.build (dstMac srcMac : MacAddress) (ethertype : EtherType)
    (payload : List UInt8) : List UInt8 :=
  dstMac.bytes.toList ++ srcMac.bytes.toList ++ ethertype.toBeU16.toBeBytes ++ payload

inductive ArpOperation
  | request
  | reply
  deriving DecidableEq, Repr

def ArpOperation.fromU16 (value : UInt16) : Option ArpOperation :=
  if value = 1 then some .request
  else if value = 2 then some .reply
  else none

structure ArpPacket where
  hwType : UInt16
  protoType : UInt16
  hwAddrLen : UInt8
  protoAddrLen : UInt8
  operation : UInt16
  senderHwAddr : List.Vector UInt8 6
  senderProtoAddr : List.Vector UInt8 4
  targetHwAddr : List.Vector UInt8 6
  targetProtoAddr : List.Vector UInt8 4
  deriving DecidableEq

def ArpParser.parse (data : List UInt8) : Except String ArpPacket :=
  if short : data.length < 28 then .error "ARP packet too short"
  else
    .ok { hwType := UInt16.fromBeBytes [data.getD 0 0, data.getD 1 0]
          protoType := UInt16.fromBeBytes [data.getD 2 0, data.getD 3 0]
          hwAddrLen := data.getD 4 0
          protoAddrLen := data.getD 5 0
          operation := UInt16.fromBeBytes [data.getD 6 0, data.getD 7 0]
          senderHwAddr := ⟨data.extract 8 14, by simp; omega⟩
          senderProtoAddr := ⟨data.extract 14 18, by simp; omega⟩
          targetHwAddr := ⟨data.extract 18 24, by simp; omega⟩
          targetProtoAddr := ⟨data.extract 24 28, by simp; omega⟩ }

/-- The 28-byte packet that `build_request` and `build_reply` fill: the copied
ranges tile the array, so it is their concatenation. -/
def arpPacket (operation : UInt16) (senderMac : MacAddress) (senderIp : Ipv4Address)
    (targetMac : List.Vector UInt8 6) (targetIp : Ipv4Address) : List.Vector UInt8 28 :=
  ⟨(1 : UInt16).toBeBytes ++ (0x0800 : UInt16).toBeBytes ++ [6, 4] ++ operation.toBeBytes ++
      senderMac.bytes.toList ++ senderIp.octets.toList ++ targetMac.toList ++
      targetIp.octets.toList,
    by simp⟩

/-- `build_request`: the target hardware address is unknown and left zero. -/
def ArpParser.buildRequest (senderMac : MacAddress) (senderIp targetIp : Ipv4Address) :
    List.Vector UInt8 28 :=
  arpPacket 1 senderMac senderIp (List.Vector.replicate 6 0) targetIp

def ArpParser.buildReply (senderMac : MacAddress) (senderIp : Ipv4Address)
    (targetMac : MacAddress) (targetIp : Ipv4Address) : List.Vector UInt8 28 :=
  arpPacket 2 senderMac senderIp targetMac.bytes targetIp

/-! ### Round trips -/

theorem EtherType.fromU16_toBeU16 (ethertype : EtherType) :
    EtherType.fromU16 ethertype.toBeU16 = some ethertype := by
  cases ethertype <;> rfl

theorem EthernetParser.parse_build (dstMac srcMac : MacAddress) (ethertype : EtherType)
    (payload : List UInt8) :
    EthernetParser.parse (EthernetParser.build dstMac srcMac ethertype payload) =
      .ok (dstMac, srcMac, ethertype, payload) := by
  have long : ¬(EthernetParser.build dstMac srcMac ethertype payload).length < 14 := by
    simp only [EthernetParser.build, List.length_append, List.Vector.toList_length,
      UInt16.length_toBeBytes]
    omega
  obtain ⟨⟨dst, dstLength⟩⟩ := dstMac
  obtain ⟨⟨src, srcLength⟩⟩ := srcMac
  unfold EthernetParser.parse
  rw [dif_neg long]
  simp [EthernetParser.build, dstLength, srcLength, List.getElem?_append, List.drop_append,
    List.drop_eq_nil_of_le, List.getElem_pair, EtherType.fromU16_toBeU16]

theorem ArpParser.parse_arpPacket (operation : UInt16) (senderMac : MacAddress)
    (senderIp : Ipv4Address) (targetMac : List.Vector UInt8 6) (targetIp : Ipv4Address) :
    ArpParser.parse (arpPacket operation senderMac senderIp targetMac targetIp).toList =
      .ok { hwType := 1, protoType := 0x0800, hwAddrLen := 6, protoAddrLen := 4,
            operation := operation, senderHwAddr := senderMac.bytes,
            senderProtoAddr := senderIp.octets, targetHwAddr := targetMac,
            targetProtoAddr := targetIp.octets } := by
  obtain ⟨⟨senderHw, senderHwLength⟩⟩ := senderMac
  obtain ⟨⟨senderProto, senderProtoLength⟩⟩ := senderIp
  obtain ⟨targetHw, targetHwLength⟩ := targetMac
  obtain ⟨⟨targetProto, targetProtoLength⟩⟩ := targetIp
  have long : ¬(arpPacket operation ⟨⟨senderHw, senderHwLength⟩⟩ ⟨⟨senderProto, senderProtoLength⟩⟩
      ⟨targetHw, targetHwLength⟩ ⟨⟨targetProto, targetProtoLength⟩⟩).toList.length < 28 := by
    simp
  unfold ArpParser.parse
  rw [dif_neg long]
  simp [arpPacket, senderHwLength, senderProtoLength, targetHwLength, targetProtoLength,
    List.drop_append, List.drop_eq_nil_of_le, List.getElem_pair, List.take_of_length_le]

theorem ArpParser.parse_buildRequest (senderMac : MacAddress) (senderIp targetIp : Ipv4Address) :
    (ArpParser.parse (ArpParser.buildRequest senderMac senderIp targetIp).toList).map
        (fun packet => (ArpOperation.fromU16 packet.operation, packet.senderHwAddr,
          packet.senderProtoAddr, packet.targetHwAddr, packet.targetProtoAddr)) =
      .ok (some .request, senderMac.bytes, senderIp.octets, List.Vector.replicate 6 0,
        targetIp.octets) := by
  rw [ArpParser.buildRequest, ArpParser.parse_arpPacket]
  rfl

theorem ArpParser.parse_buildReply (senderMac : MacAddress) (senderIp : Ipv4Address)
    (targetMac : MacAddress) (targetIp : Ipv4Address) :
    (ArpParser.parse (ArpParser.buildReply senderMac senderIp targetMac targetIp).toList).map
        (fun packet => (ArpOperation.fromU16 packet.operation, packet.senderHwAddr,
          packet.senderProtoAddr, packet.targetHwAddr, packet.targetProtoAddr)) =
      .ok (some .reply, senderMac.bytes, senderIp.octets, targetMac.bytes, targetIp.octets) := by
  rw [ArpParser.buildReply, ArpParser.parse_arpPacket]
  rfl

end FangaOS.Net
