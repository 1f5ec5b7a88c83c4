import RdtProtocol.Client.Strategy.Basic

namespace ClientGoBackN

open ClientRdtStrategy

def new (windowSize : Int) : ClientRdtStrategy :=
  ClientRdtStrategy.new windowSize 0

def deliverPacket (c : ClientRdtStrategy) (pkt : DataPacket) : ClientRdtStrategy :=
  c.writeData pkt

-- The end of the window is computed in 32 bits.
def inWindow (c : ClientRdtStrategy) (seqno : UInt32) : Prop :=
  c.expectedSeqno ≤ seqno ∧ seqno < c.expectedSeqno + uint32 c.windowSize

instance (c : ClientRdtStrategy) (seqno : UInt32) : Decidable (inWindow c seqno) :=
  inferInstanceAs (Decidable (_ ∧ _))

-- Nothing has been received when the unpacking has thrown, so that its length need not be tested.
def receive (c : ClientRdtStrategy) (packetReceived : DataPacket) : ClientRdtStrategy :=
  let seqno := packetReceived.seqno
  if inWindow c seqno then
    if isTerminalPkt packetReceived then
      { c with done := true }
    else if seqno = c.expectedSeqno ∧ packetReceived.calculateChecksum = packetReceived.cksum then
      (deliverPacket c packetReceived).sendAck (AckPacket.new packetReceived.seqno)
    else
      c.sendAck (AckPacket.new (c.expectedSeqno - 1))
  else
    c

def run (c : ClientRdtStrategy) (datagram : Bytes) : Option ClientRdtStrategy :=
  (recvPacket datagram).map (receive c)

end ClientGoBackN
