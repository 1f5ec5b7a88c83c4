import Mathlib.Logic.Function.Basic
import Mathlib.Order.Basic
import RdtProtocol.Server.PacketBuilderLemmas
import RdtProtocol.Util.OrderedSet

/-!
This module contains the state that the three server strategies share and what they inherit from
`rdt_strategy`. The clock and the results of `packet_sender::send_packet` are oracles that answer the
`i`-th call, so that a run of a strategy is a function of them and of the ACKs.
-/

structure Env where
  now : Nat → Nat
  tripleDupAck : Nat → Bool

structure PacketAttr where
  acked : Bool := false
  timeStamp : Nat := 0
  deriving DecidableEq, Repr

abbrev Heap := Nat → PacketAttr

namespace Heap

variable (heap : Heap) (p q : PacketPtr) (acked : Bool) (time : Nat)

def isAcked : Bool :=
  (heap p.addr).acked

def timeStamp : Nat :=
  (heap p.addr).timeStamp

def setAck : Heap :=
  Function.update heap p.addr { heap p.addr with acked }

def setTimeStamp : Heap :=
  Function.update heap p.addr { heap p.addr with timeStamp := time }

@[simp]
theorem isAcked_setAck
    : (heap.setAck p acked).isAcked q = if q.addr = p.addr then acked else heap.isAcked q := by
  simp only [isAcked, setAck, Function.update_apply]
  split <;> rfl

@[simp]
theorem isAcked_setTimeStamp : (heap.setTimeStamp p time).isAcked q = heap.isAcked q := by
  simp only [isAcked, setTimeStamp, Function.update_apply]
  split
  . next h => rw [h]
  . rfl

@[simp]
theorem timeStamp_setAck : (heap.setAck p acked).timeStamp q = heap.timeStamp q := by
  simp only [timeStamp, setAck, Function.update_apply]
  split
  . next h => rw [h]
  . rfl

@[simp]
theorem timeStamp_setTimeStamp
    : (heap.setTimeStamp p time).timeStamp q
        = if q.addr = p.addr then time else heap.timeStamp q := by
  simp only [timeStamp, setTimeStamp, Function.update_apply]
  split <;> rfl

end Heap

structure RdtStrategy where
  pktBuilder : PacketBuilder
  nextSeqNumber : UInt32
  windowSize : Int
  maxWindowSize : Int
  threshold : Int
  window : List PacketPtr
  auxWindow : List PacketPtr
  unackedPackets : List PacketPtr
  heap : Heap
  -- The packets taken off the window so far.
  popped : List PacketPtr
  -- The arguments of `packet_sender::send_packet` so far.
  sent : List PacketPtr
  clockReads : Nat

namespace RdtStrategy

def setAck (s : RdtStrategy) (p : PacketPtr) (acked : Bool) : RdtStrategy :=
  { s with heap := s.heap.setAck p acked }

def setTimeStamp (s : RdtStrategy) (env : Env) (p : PacketPtr) : RdtStrategy :=
  { s with heap := s.heap.setTimeStamp p (env.now s.clockReads), clockReads := s.clockReads + 1 }

def insertUnacked (s : RdtStrategy) (p : PacketPtr) : RdtStrategy :=
  { s with unackedPackets := OrderedSet.insert s.heap.timeStamp p s.unackedPackets }

def eraseUnacked (s : RdtStrategy) (p : PacketPtr) : RdtStrategy :=
  { s with unackedPackets := OrderedSet.erase s.heap.timeStamp p s.unackedPackets }

def tripleDupAck (s : RdtStrategy) (env : Env) : Bool :=
  env.tripleDupAck s.sent.length

def stamp (s : RdtStrategy) (env : Env) (p : PacketPtr) : RdtStrategy :=
  { s with sent := s.sent ++ [p] }.setTimeStamp env p

-- What every `send_packet` does before it looks at the answer.
def transmit (s : RdtStrategy) (env : Env) (p : PacketPtr) : RdtStrategy :=
  let s := { s with sent := s.sent ++ [p] }
  let s := s.setTimeStamp env p
  s.insertUnacked p

section

variable (env : Env) (s : RdtStrategy) (p : PacketPtr) (acked : Bool)

@[simp]
theorem pktBuilder_transmit : (s.transmit env p).pktBuilder = s.pktBuilder := by
  rfl

@[simp]
theorem nextSeqNumber_transmit : (s.transmit env p).nextSeqNumber = s.nextSeqNumber := by
  rfl

@[simp]
theorem windowSize_transmit : (s.transmit env p).windowSize = s.windowSize := by
  rfl

@[simp]
theorem maxWindowSize_transmit : (s.transmit env p).maxWindowSize = s.maxWindowSize := by
  rfl

@[simp]
theorem threshold_transmit : (s.transmit env p).threshold = s.threshold := by
  rfl

@[simp]
theorem window_transmit : (s.transmit env p).window = s.window := by
  rfl

@[simp]
theorem auxWindow_transmit : (s.transmit env p).auxWindow = s.auxWindow := by
  rfl

@[simp]
theorem popped_transmit : (s.transmit env p).popped = s.popped := by
  rfl

@[simp]
theorem sent_transmit : (s.transmit env p).sent = s.sent ++ [p] := by
  rfl

@[simp]
theorem clockReads_transmit : (s.transmit env p).clockReads = s.clockReads + 1 := by
  rfl

@[simp]
theorem heap_transmit : (s.transmit env p).heap = s.heap.setTimeStamp p (env.now s.clockReads) := by
  rfl

@[simp]
theorem pktBuilder_setAck : (s.setAck p acked).pktBuilder = s.pktBuilder := by
  rfl

@[simp]
theorem nextSeqNumber_setAck : (s.setAck p acked).nextSeqNumber = s.nextSeqNumber := by
  rfl

@[simp]
theorem windowSize_setAck : (s.setAck p acked).windowSize = s.windowSize := by
  rfl

@[simp]
theorem maxWindowSize_setAck : (s.setAck p acked).maxWindowSize = s.maxWindowSize := by
  rfl

@[simp]
theorem threshold_setAck : (s.setAck p acked).threshold = s.threshold := by
  rfl

@[simp]
theorem window_setAck : (s.setAck p acked).window = s.window := by
  rfl

@[simp]
theorem auxWindow_setAck : (s.setAck p acked).auxWindow = s.auxWindow := by
  rfl

@[simp]
theorem popped_setAck : (s.setAck p acked).popped = s.popped := by
  rfl

@[simp]
theorem sent_setAck : (s.setAck p acked).sent = s.sent := by
  rfl

@[simp]
theorem clockReads_setAck : (s.setAck p acked).clockReads = s.clockReads := by
  rfl

@[simp]
theorem unackedPackets_setAck : (s.setAck p acked).unackedPackets = s.unackedPackets := by
  rfl

@[simp]
theorem heap_setAck : (s.setAck p acked).heap = s.heap.setAck p acked := by
  rfl

@[simp]
theorem pktBuilder_eraseUnacked : (s.eraseUnacked p).pktBuilder = s.pktBuilder := by
  rfl

@[simp]
theorem nextSeqNumber_eraseUnacked : (s.eraseUnacked p).nextSeqNumber = s.nextSeqNumber := by
  rfl

@[simp]
theorem windowSize_eraseUnacked : (s.eraseUnacked p).windowSize = s.windowSize := by
  rfl

@[simp]
theorem maxWindowSize_eraseUnacked : (s.eraseUnacked p).maxWindowSize = s.maxWindowSize := by
  rfl

@[simp]
theorem threshold_eraseUnacked : (s.eraseUnacked p).threshold = s.threshold := by
  rfl

@[simp]
theorem window_eraseUnacked : (s.eraseUnacked p).window = s.window := by
  rfl

@[simp]
theorem auxWindow_eraseUnacked : (s.eraseUnacked p).auxWindow = s.auxWindow := by
  rfl

@[simp]
theorem popped_eraseUnacked : (s.eraseUnacked p).popped = s.popped := by
  rfl

@[simp]
theorem sent_eraseUnacked : (s.eraseUnacked p).sent = s.sent := by
  rfl

@[simp]
theorem clockReads_eraseUnacked : (s.eraseUnacked p).clockReads = s.clockReads := by
  rfl

@[simp]
theorem heap_eraseUnacked : (s.eraseUnacked p).heap = s.heap := by
  rfl

@[simp]
theorem unackedPackets_eraseUnacked
    : (s.eraseUnacked p).unackedPackets = OrderedSet.erase s.heap.timeStamp p s.unackedPackets := by
  rfl

@[simp]
theorem unackedPackets_transmit
    : (s.transmit env p).unackedPackets
        = OrderedSet.insert (s.heap.setTimeStamp p (env.now s.clockReads)).timeStamp p
            s.unackedPackets := by
  rfl

end

def isDone (s : RdtStrategy) : Bool :=
  s.window.isEmpty

def sendEmptyPacket (s : RdtStrategy) : DataPacket :=
  DataPacket.new [] s.nextSeqNumber

def getNextPacket (s : RdtStrategy) : Option (PacketPtr × RdtStrategy) :=
  (s.pktBuilder.getNextPacket s.nextSeqNumber).map
    (fun next => (next.1, { s with pktBuilder := next.2.1, nextSeqNumber := next.2.2 }))

theorem getNextPacket_eq_some {s s' : RdtStrategy} {p : PacketPtr}
    (h : s.getNextPacket = some (p, s'))
    : ∃ b n, s.pktBuilder.getNextPacket s.nextSeqNumber = some (p, b, n)
        ∧ s' = { s with pktBuilder := b, nextSeqNumber := n } := by
  simp only [getNextPacket, Option.map_eq_some_iff, Prod.mk.injEq, Prod.exists] at h
  obtain ⟨q, b, n, hnext, rfl, rfl⟩ := h
  exact ⟨b, n, hnext, rfl⟩

def fillWindow (s : RdtStrategy) : RdtStrategy :=
  if s.window.length < sizeT s.windowSize ∧ s.pktBuilder.hasNext then
    match _h : s.getNextPacket with
    | some (p, s') => fillWindow { s' with window := s.window ++ [p] }
    | none => s
  else
    s
termination_by sizeT s.windowSize - s.window.length
decreasing_by
  obtain ⟨_, _, _, rfl⟩ := getNextPacket_eq_some (by assumption)
  simp only [List.length_append, List.length_singleton]
  omega

def new (file : File) (first : UInt32) (windowSize maxWindowSize threshold : Int) : RdtStrategy :=
  fillWindow {
    pktBuilder := PacketBuilder.new file windowSize
    nextSeqNumber := first
    windowSize
    maxWindowSize
    threshold
    window := []
    auxWindow := []
    unackedPackets := []
    heap := fun _ => {}
    popped := []
    sent := []
    clockReads := 0
  }

-- The loops that take in packets leave the window like this where they call `front` on an empty queue.
def ranDry (s : RdtStrategy) : Bool :=
  s.window.length < sizeT s.windowSize && s.pktBuilder.hasNext && s.getNextPacket.isNone

def popFront (s : RdtStrategy) : RdtStrategy :=
  { s with window := s.window.tail, popped := s.popped ++ s.window.take 1 }

-- The loop of `advance_window` that takes in a packet for each one it pops. It is the same in
-- `stop_and_wait_strategy` and `go_back_N_strategy`, only the former deletes what it pops.
def advanceWindow (s : RdtStrategy) (env : Env) : RdtStrategy :=
  match _hw : s.window with
  | [] => s
  | p :: _ =>
    if s.heap.isAcked p then
      if s.pktBuilder.hasNext then
        match _h : s.popFront.getNextPacket with
        | some (q, s') => advanceWindow ({ s' with window := s'.window ++ [q] }.transmit env q) env
        | none => s.popFront
      else
        advanceWindow s.popFront env
    else
      s
termination_by s.pktBuilder.size + s.window.length
decreasing_by
  . obtain ⟨_, _, hnext, rfl⟩ := getNextPacket_eq_some (by assumption)
    have := PacketBuilder.getNextPacket_size_lt hnext
    simp only [popFront, transmit, setTimeStamp, insertUnacked, List.length_append,
      List.length_nil, _hw, List.length_cons, List.tail_cons] at this ⊢
    omega
  . simp only [popFront, _hw, List.length_cons, List.tail_cons]
    omega

end RdtStrategy
