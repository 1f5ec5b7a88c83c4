import RdtProtocol.Server.Strategy.Basic

namespace GoBackN

def DEFAULT_WINDOW_SIZE : Int := 200

-- The constructor leaves `next_seq_number`, `max_window_size` and `threshold` as they are in memory.
def new (file : File) (nextSeqNumber : UInt32) (maxWindowSize threshold : Int) : RdtStrategy :=
  RdtStrategy.new file nextSeqNumber DEFAULT_WINDOW_SIZE maxWindowSize threshold

def sendPacket (env : Env) (s : RdtStrategy) (packet : PacketPtr) : RdtStrategy :=
  s.transmit env packet

def start (env : Env) (s : RdtStrategy) : RdtStrategy :=
  s.window.foldl (fun s p => (sendPacket env s p).setTimeStamp env p) s

def acknowledgePacket (env : Env) (s : RdtStrategy) (ackPkt : AckPacket) : RdtStrategy :=
  match s.window.findIdx? (fun p => ackPkt.ackno = p.packet.seqno) with
  | some i =>
    -- `back_it` walks from the acknowledged packet back to the front.
    let s := (s.window.take (i + 1)).reverse.foldl (fun s p => (s.setAck p true).eraseUnacked p) s
    s.advanceWindow env
  | none => s

def resend (env : Env) (s : RdtStrategy) (packet : PacketPtr) : RdtStrategy :=
  sendPacket env (s.setTimeStamp env packet) packet

-- A time-out ends in `send_packet` of the first packet, which waits for the mutex that the timer thread has
-- locked itself.
def timeOut (env : Env) (s : RdtStrategy) (firstUnackedPkt : PacketPtr) : RdtStrategy :=
  (s.setTimeStamp env firstUnackedPkt).stamp env firstUnackedPkt

end GoBackN
