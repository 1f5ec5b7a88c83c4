import RdtProtocol.Shared.Packet
import RdtProtocol.Util.OrderedSet

/-!
This module contains the state that the two client strategies share and what they inherit from
`client_rdt_strategy`.
-/

structure ClientRdtStrategy where
  window : List DataPacket
  windowSize : Int
  expectedSeqno : UInt32
  output : Bytes
  done : Bool
  -- The arguments of `send_ack` so far.
  acks : List AckPacket

namespace ClientRdtStrategy

def new (windowSize : Int) (expectedSeqno : UInt32) : ClientRdtStrategy :=
  {
    window := []
    windowSize
    expectedSeqno
    output := []
    done := false
    acks := []
  }

def sendAck (c : ClientRdtStrategy) (packet : AckPacket) : ClientRdtStrategy :=
  { c with acks := c.acks ++ [packet] }

def isTerminalPkt (packet : DataPacket) : Bool :=
  packet.data.length = 0

def writeData (c : ClientRdtStrategy) (packet : DataPacket) : ClientRdtStrategy :=
  { c with output := c.output ++ packet.data, expectedSeqno := c.expectedSeqno + 1 }

-- A datagram is cut off behind `MAX_PKT_SIZE` bytes. Undefined where the unpacking throws.
def recvPacket (datagram : Bytes) : Option DataPacket :=
  DataPacket.unpack (datagram.take MAX_PKT_SIZE)

end ClientRdtStrategy
