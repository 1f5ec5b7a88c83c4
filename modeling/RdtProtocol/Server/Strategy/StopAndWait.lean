import RdtProtocol.Server.Strategy.Basic

namespace StopAndWait

def new (file : File) (windowSize maxWindowSize : Int) : RdtStrategy :=
  RdtStrategy.new file 1 windowSize maxWindowSize maxWindowSize

def sendPacket (env : Env) (s : RdtStrategy) (packet : PacketPtr) : RdtStrategy :=
  s.transmit env packet

def start (env : Env) (s : RdtStrategy) : RdtStrategy :=
  s.window.foldl (sendPacket env) s

def acknowledgePacket (env : Env) (s : RdtStrategy) (ackPkt : AckPacket) : RdtStrategy :=
  match s.window.find? (fun p => ackPkt.ackno = p.packet.seqno) with
  | some p =>
    if s.heap.isAcked p then
      s
    else
      let isBegin := s.window.head? = some p
      let s := s.setAck p true
      let s := s.eraseUnacked p
      if isBegin then s.advanceWindow env else s
  | none => s

-- The pass of the loop of `handle_time_out` that finds the first packet overdue.
def handleTimeOut (env : Env) (s : RdtStrategy) : RdtStrategy :=
  match s.unackedPackets with
  | [] => s
  | firstUnackedPkt :: _ => sendPacket env (s.eraseUnacked firstUnackedPkt) firstUnackedPkt

end StopAndWait
