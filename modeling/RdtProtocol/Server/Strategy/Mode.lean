import RdtProtocol.Server.Strategy.GoBackN
import RdtProtocol.Server.Strategy.SelectiveRepeat
import RdtProtocol.Server.Strategy.StopAndWait

/-!
This module contains the choice that `handle_worker_thread` makes between the three strategies, and the
calls of their virtual functions.
-/

inductive Mode where
  | stopAndWait
  | selectiveRepeat
  | goBackN
  deriving DecidableEq, Repr

namespace Mode

/--
The constructor of `go_back_N_strategy` leaves `next_seq_number`, `max_window_size` and `threshold` as they
are in memory. The other two set what they do not take from here.
-/
def newStrategy (mode : Mode) (file : File) (nextSeqNumber : UInt32) (maxWindowSize threshold : Int)
    : RdtStrategy :=
  match mode with
  | .stopAndWait => StopAndWait.new file 1 1
  | .selectiveRepeat => SelectiveRepeat.new file maxWindowSize
  | .goBackN => GoBackN.new file nextSeqNumber maxWindowSize threshold

def firstSeqNumber (mode : Mode) (nextSeqNumber : UInt32) : UInt32 :=
  match mode with
  | .stopAndWait => 1
  | .selectiveRepeat => 1
  | .goBackN => nextSeqNumber

def firstWindowSize (mode : Mode) : Int :=
  match mode with
  | .stopAndWait => 1
  | .selectiveRepeat => SelectiveRepeat.DEFAULT_WINDOW_SIZE
  | .goBackN => GoBackN.DEFAULT_WINDOW_SIZE

def start (mode : Mode) (env : Env) (s : RdtStrategy) : RdtStrategy :=
  match mode with
  | .stopAndWait => StopAndWait.start env s
  | .selectiveRepeat => SelectiveRepeat.start env s
  | .goBackN => GoBackN.start env s

def acknowledgePacket (mode : Mode) (env : Env) (s : RdtStrategy) (ackPkt : AckPacket)
    : RdtStrategy :=
  match mode with
  | .stopAndWait => StopAndWait.acknowledgePacket env s ackPkt
  | .selectiveRepeat => SelectiveRepeat.acknowledgePacket env s ackPkt
  | .goBackN => GoBackN.acknowledgePacket env s ackPkt

-- Go back N has no single packet to time out, it resends packets of the window one by one.
def handleTimeOut (mode : Mode) (env : Env) (s : RdtStrategy) : RdtStrategy :=
  match mode with
  | .stopAndWait => StopAndWait.handleTimeOut env s
  | .selectiveRepeat => SelectiveRepeat.handleTimeOut env s
  | .goBackN => s

end Mode
