import FangaOS.Net.Ip
import FangaOS.Lib.Run

/-! The TCP connection state machine of `net/tcp.rs`.  `has_flag` holds when any
bit of its mask is set, so the tests of `SYN | ACK` and `FIN | ACK` hold on one
flag alone.  Sequence numbers are `u32`, whose `+ 1` wraps. -/

namespace FangaOS.Net

open StepMachine

inductive TcpState
  | closed
  | listen
  | synSent
  | synReceived
  | established
  | finWait1
  | finWait2
  | closeWait
  | closing
  | lastAck
  | timeWait
  deriving DecidableEq, Repr

def TcpFlags.fin : UInt8 := 0x01

def TcpFlags.syn : UInt8 := 0x02

def TcpFlags.ack : UInt8 := 0x10

def TcpHeader.hasFlag (header : TcpHeader) (flag : UInt8) : Bool :=
  header.flags &&& flag != 0

/-- `TcpConnection`, with the fields that the state machine reads and writes. -/
structure TcpConnection where
  state : TcpState
  sendSeq : UInt32
  recvSeq : UInt32
  deriving DecidableEq, Repr

def TcpConnection.new : TcpConnection :=
  ⟨.closed, 0, 0⟩

/-- `handle_packet`; the payload is not read. -/
def TcpConnection.handlePacket (conn : TcpConnection) (header : TcpHeader) : TcpConnection :=
  match conn.state with
  | .closed => conn
  | .listen =>
      if header.hasFlag TcpFlags.syn then
        { conn with state := .synReceived, recvSeq := header.seqNum + 1 }
      else conn
  | .synSent =>
      if header.hasFlag (TcpFlags.syn ||| TcpFlags.ack) then
        { conn with state := .established, recvSeq := header.seqNum + 1 }
      else conn
  | .synReceived =>
      if header.hasFlag TcpFlags.ack then { conn with state := .established } else conn
  | .established =>
      if header.hasFlag TcpFlags.fin then
        { conn with state := .closeWait, recvSeq := header.seqNum + 1 }
      else conn
  | .finWait1 =>
      if header.hasFlag (TcpFlags.fin ||| TcpFlags.ack) then { conn with state := .timeWait }
      else if header.hasFlag TcpFlags.ack then { conn with state := .finWait2 }
      else conn
  | .finWait2 =>
      if header.hasFlag TcpFlags.fin then { conn with state := .timeWait } else conn
  | _ => conn

/-- `connect`: the initial send sequence number is 1000. -/
def TcpConnection.connect (conn : TcpConnection) : TcpConnection :=
  { conn with state := .synSent, sendSeq := 1000 }

def TcpConnection.close (conn : TcpConnection) : TcpConnection :=
  match conn.state with
  | .established => { conn with state := .finWait1 }
  | .closeWait => { conn with state := .lastAck }
  | _ => conn

inductive TcpOp
  | handlePacket (header : TcpHeader)
  | connect
  | close

def TcpConnection.step (conn : TcpConnection) : TcpOp → TcpConnection
  | .handlePacket header => conn.handlePacket header
  | .connect => conn.connect
  | .close => conn.close

/-! ### Flag tests -/

section Transitions

variable {conn : TcpConnection}

end Transitions

/-! ### Runs -/

theorem tcp_single_flag_transitions :
    let synAck : TcpHeader := ⟨80, 1024, 2000, 1001, 0x5012, 8192, 0, 0⟩
    let ackOnly : TcpHeader := ⟨80, 1024, 2001, 1001, 0x5010, 8192, 0, 0⟩
    let opened : TcpConnection :=
      run TcpConnection.step TcpConnection.new [.connect, .handlePacket ackOnly]
    let closed : TcpConnection := run TcpConnection.step TcpConnection.new
      [.connect, .handlePacket synAck, .close, .handlePacket ackOnly]
    ackOnly.hasFlag TcpFlags.syn = false ∧ ackOnly.hasFlag TcpFlags.fin = false ∧
      opened.state = .established ∧ closed.state = .timeWait := by
  decide

end FangaOS.Net
