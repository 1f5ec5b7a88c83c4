import RdtProtocol.Server.Strategy.Mode
import RdtProtocol.Util.StepFn

/-!
This module contains the stop and wait and the selective repeat sender as two threads, the worker and the
timer, that share the state of the strategy. A step is a stretch of code between two operations on a
mutex, or what is done under `set_mutex`. What a thread does under `wnd_mutex` the other one cannot see
as far as it is about the windows, so that only the accesses to `unacked_packets` split it up.
-/

-- In the ticks of the clock, which are nanoseconds.
def PACKET_TIME_OUT : Nat := 1000000000

namespace RdtStrategy

def pushBack (s : RdtStrategy) (p : PacketPtr) : RdtStrategy :=
  { s with window := s.window ++ [p] }

end RdtStrategy

namespace Interleaving

-- What is done next in `handle_time_out`, `send` and `insert` only by stop and wait, `list` and `front`
-- only by selective repeat.
inductive Timer where
  | test
  | begin
  | compare (firstUnackedPkt : PacketPtr)
  | erase (firstUnackedPkt : PacketPtr)
  | send (firstUnackedPkt : PacketPtr)
  | insert (firstUnackedPkt : PacketPtr)
  | list
  | front
  deriving DecidableEq, Repr

-- What is done next in `acknowledge_packet`. `sent` is where `send_packet` has unlocked `set_mutex`, and
-- `shrink` has the packets that `shrink_window` still has to take out of `unacked_packets`.
inductive Worker where
  | idle
  | erase (p : PacketPtr)
  | advance (p : PacketPtr)
  | insert (p : PacketPtr) (tripleDupAck : Bool)
  | sent (tripleDupAck : Bool)
  | shrink (moved : List PacketPtr)
  deriving DecidableEq, Repr

inductive Fault where
  | emptySet
  | emptyString
  | emptyWindow
  | deleted
  deriving DecidableEq, Repr

structure State where
  strategy : RdtStrategy
  timer : Timer
  worker : Worker
  -- What the timer has done wrong, if anything. Nothing is defined after that.
  fault : Option Fault

inductive Event where
  | acknowledge (ackPkt : AckPacket)
  | worker
  | timer
  deriving DecidableEq, Repr

variable (mode : Mode) (env : Env)

def find (s : RdtStrategy) (ackPkt : AckPacket) : Option PacketPtr :=
  if mode = .selectiveRepeat ∧ ackPkt.cksum ≠ ackPkt.calculateChecksum then
    none
  else
    match s.window.find? (fun p => ackPkt.ackno = p.packet.seqno) with
    | some p => if s.heap.isAcked p then none else some p
    | none => none

-- `expand_window` up to where `send_packet` locks `set_mutex`.
def expand (s : RdtStrategy) : RdtStrategy × Worker :=
  if s.window.length < sizeT s.windowSize then
    match SelectiveRepeat.takeNext s with
    | some (p, s) =>
      let s := (s.setAck p false).pushBack p
      (s.stamp env p, .insert p (s.tripleDupAck env))
    | none => (s, .idle)
  else
    (s, .idle)

-- `shrink_window` without what it does to `unacked_packets`.
def shrink (s : RdtStrategy) (newSize : Int) : RdtStrategy × Worker :=
  let newThreshold := s.windowSize.tdiv 2
  let size := if newSize < 1 then 1 else newSize
  let moved := s.window.drop (sizeT size)
  let s :=
    {
      s with
        threshold := if newThreshold < 1 then 1 else newThreshold
        windowSize := size
        auxWindow :=
          moved.foldl (fun aux p => OrderedSet.insert (·.packet.seqno.toNat) p aux) s.auxWindow
        window := s.window.take (sizeT size)
    }
  (s, .shrink moved)

-- The loop of `stop_and_wait_strategy::advance_window` up to where `send_packet` locks `set_mutex`.
def advance (s : RdtStrategy) : RdtStrategy × Worker :=
  match _hw : s.window with
  | [] => (s, .idle)
  | p :: _ =>
    if s.heap.isAcked p then
      if s.pktBuilder.hasNext then
        match s.popFront.getNextPacket with
        | some (q, s') => ((s'.pushBack q).stamp env q, .insert q false)
        | none => (s.popFront, .idle)
      else
        advance s.popFront
    else
      (s, .idle)
termination_by s.window.length
decreasing_by
  simp only [RdtStrategy.popFront, _hw, List.length_cons, List.tail_cons]
  omega

def resume (s : RdtStrategy) : RdtStrategy × Worker :=
  match mode with
  | .stopAndWait => advance env s
  | .selectiveRepeat => expand env s
  | .goBackN => (s, .idle)

def acked (s : RdtStrategy) (p : PacketPtr) : RdtStrategy × Worker :=
  match mode with
  | .stopAndWait => if s.window.head? = some p then advance env s else (s, .idle)
  | .selectiveRepeat =>
    let s := if s.window.head? = some p then SelectiveRepeat.advanceWindow s else s
    expand env (SelectiveRepeat.adjustWindowSize s)
  | .goBackN => (s, .idle)

def stepWorker (s : RdtStrategy) : Worker → RdtStrategy × Worker
  | .idle => (s, .idle)
  | .erase p => (s.eraseUnacked p, .advance p)
  | .advance p => acked mode env s p
  | .insert p tripleDupAck => (s.insertUnacked p, .sent tripleDupAck)
  | .sent tripleDupAck => if tripleDupAck then shrink s (s.windowSize.tdiv 2) else resume mode env s
  | .shrink (p :: moved) => (s.eraseUnacked p, .shrink moved)
  | .shrink [] => resume mode env s

-- Whether a packet is used that `advance_window` has deleted, `p` or one that it is compared with.
def deleted (s : RdtStrategy) (p : PacketPtr) : Bool :=
  (p :: s.unackedPackets).any (· ∈ s.popped)

def faulty (c : State) (fault : Fault) : State :=
  { c with fault := some fault }

def stepTimer (c : State) : Option State :=
  let s := c.strategy
  match c.timer with
  | .test => some { c with timer := if s.unackedPackets.isEmpty then .test else .begin }
  | .begin =>
    match s.unackedPackets with
    | [] => some (faulty c .emptySet)
    | p :: _ => some { c with timer := .compare p }
  | .compare p =>
    if p ∈ s.popped then
      some (faulty c .deleted)
    else
      let overdue := ¬ env.now s.clockReads < s.heap.timeStamp p + PACKET_TIME_OUT
      let s := { s with clockReads := s.clockReads + 1 }
      -- It sleeps before the next test of `unacked_packets`.
      some { c with strategy := s, timer := if overdue then .erase p else .test }
  | .erase p =>
    -- Selective repeat prints the packets, and takes the last two characters off the text first.
    if mode = .selectiveRepeat ∧ s.unackedPackets = [] then
      some (faulty c .emptyString)
    else if deleted s p then
      some (faulty c .deleted)
    else
      let timer := if mode = .selectiveRepeat then .list else .send p
      some { c with strategy := s.eraseUnacked p, timer }
  | .send p =>
    if p ∈ s.popped then
      some (faulty c .deleted)
    else
      some { c with strategy := s.stamp env p, timer := .insert p }
  | .insert p =>
    if deleted s p then
      some (faulty c .deleted)
    else
      some { c with strategy := s.insertUnacked p, timer := .test }
  -- `wnd_mutex` is free only between two calls of `acknowledge_packet`.
  | .list =>
    if c.worker = .idle then
      if s.window = [] then some (faulty c .emptyString) else some { c with timer := .front }
    else
      none
  | .front =>
    if c.worker = .idle then
      let s := SelectiveRepeat.shrinkWindow s 1
      match s.window with
      | [] => some (faulty c .emptyWindow)
      | p :: _ =>
        if deleted s p then
          some (faulty c .deleted)
        else
          some { c with strategy := SelectiveRepeat.sendPacket env s p, timer := .test }
    else
      none

/--
A step of one of the two threads, or the next ACK for a worker that has none. A fault is the last step.
-/
def step (c : State) (e : Event) : Option State :=
  if c.fault.isSome then
    none
  else
    match e with
    | .acknowledge ackPkt =>
      if c.worker = .idle then
        match find mode c.strategy ackPkt with
        | some p => some { c with strategy := c.strategy.setAck p true, worker := .erase p }
        | none => some c
      else
        none
    | .worker =>
      if c.worker = .idle then
        none
      else
        let next := stepWorker mode env c.strategy c.worker
        some { c with strategy := next.1, worker := next.2 }
    | .timer => stepTimer mode env c

def init (file : Bytes) (nextSeqNumber : UInt32) (maxWindowSize threshold : Int) : State :=
  {
    strategy :=
      mode.start env (mode.newStrategy (File.regular file) nextSeqNumber maxWindowSize threshold)
    timer := .test
    worker := .idle
    fault := none
  }

end Interleaving
