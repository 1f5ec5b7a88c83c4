import RdtProtocol.Client.Strategy.Basic

namespace ClientSelectiveRepeat

open ClientRdtStrategy

def new (windowSize : Int) : ClientRdtStrategy :=
  ClientRdtStrategy.new windowSize 1

def deliverBufferedPackets (c : ClientRdtStrategy) : ClientRdtStrategy :=
  go c c.window
where
  go (c : ClientRdtStrategy) : List DataPacket → ClientRdtStrategy
    | [] => { c with window := [] }
    | pkt :: window =>
      if pkt.seqno = c.expectedSeqno then
        go (c.writeData pkt) window
      else
        { c with window := pkt :: window }

-- The end of the window is computed in 64 bits.
def inWindow (c : ClientRdtStrategy) (seqno : UInt32) : Prop :=
  c.expectedSeqno ≤ seqno
    ∧ seqno.toNat < (c.expectedSeqno.toNat + sizeT c.windowSize) % 2 ^ 64

instance (c : ClientRdtStrategy) (seqno : UInt32) : Decidable (inWindow c seqno) :=
  inferInstanceAs (Decidable (_ ∧ _))

def receive (c : ClientRdtStrategy) (packetReceived : DataPacket) : ClientRdtStrategy :=
  let seqno := packetReceived.seqno
  let corrupted := packetReceived.cksum ≠ packetReceived.calculateChecksum
  if inWindow c seqno ∧ ¬ corrupted then
    if isTerminalPkt packetReceived then
      { c with done := true }
    else if OrderedSet.contains (·.seqno.toNat) packetReceived c.window then
      c
    else
      let c :=
        { c with window := OrderedSet.insert (·.seqno.toNat) packetReceived c.window }
      let c := if seqno = c.expectedSeqno then deliverBufferedPackets c else c
      c.sendAck (AckPacket.new packetReceived.seqno)
  else if seqno < c.expectedSeqno ∧ ¬ corrupted then
    c.sendAck (AckPacket.new packetReceived.seqno)
  else
    c

def run (c : ClientRdtStrategy) (datagram : Bytes) : Option ClientRdtStrategy :=
  (recvPacket datagram).map (receive c)

end ClientSelectiveRepeat
