import RdtProtocol.Server.Strategy.Basic

namespace SelectiveRepeat

def DEFAULT_WINDOW_SIZE : Int := 1

def new (file : File) (maxWindowSize : Int) : RdtStrategy :=
  RdtStrategy.new file 1 DEFAULT_WINDOW_SIZE maxWindowSize (maxWindowSize.tdiv 2)

def shrinkWindow (s : RdtStrategy) (newSize : Int) : RdtStrategy :=
  let newThreshold := s.windowSize.tdiv 2
  let s :=
    {
      s with
        threshold := if newThreshold < 1 then 1 else newThreshold
        windowSize := if newSize < 1 then 1 else newSize
    }
  let moved := s.window.drop (sizeT s.windowSize)
  -- The loop is not entered when nothing is behind the new end of the window.
  let s := moved.foldl RdtStrategy.eraseUnacked s
  {
    s with
      auxWindow :=
        moved.foldl (fun aux p => OrderedSet.insert (·.packet.seqno.toNat) p aux) s.auxWindow
      window := s.window.take (sizeT s.windowSize)
  }

theorem foldl_eraseUnacked (s : RdtStrategy) (moved : List PacketPtr)
    : moved.foldl RdtStrategy.eraseUnacked s
        = { s with unackedPackets :=
              moved.foldl (fun l p => OrderedSet.erase s.heap.timeStamp p l) s.unackedPackets } := by
  induction moved generalizing s with
  | nil => rfl
  | cons p moved ih =>
    rw [List.foldl_cons, ih]
    rfl

theorem window_shrinkWindow (s : RdtStrategy) (newSize : Int)
    : (shrinkWindow s newSize).window
        = s.window.take (sizeT (if newSize < 1 then 1 else newSize)) := by
  simp only [shrinkWindow, foldl_eraseUnacked]

@[simp]
theorem windowSize_shrinkWindow (s : RdtStrategy) (newSize : Int)
    : (shrinkWindow s newSize).windowSize = if newSize < 1 then 1 else newSize := by
  simp only [shrinkWindow, foldl_eraseUnacked]

def sendPacket (env : Env) (s : RdtStrategy) (packet : PacketPtr) : RdtStrategy :=
  let tripleDupAck := s.tripleDupAck env
  let s := s.transmit env packet
  if tripleDupAck then
    shrinkWindow s (s.windowSize.tdiv 2)
  else
    s

theorem sendPacket_cases (env : Env) (s : RdtStrategy) (p : PacketPtr)
    : sendPacket env s p = s.transmit env p
        ∨ sendPacket env s p = shrinkWindow (s.transmit env p) (s.windowSize.tdiv 2) := by
  unfold sendPacket
  dsimp only
  split
  . exact .inr rfl
  . exact .inl rfl

def advanceWindow (s : RdtStrategy) : RdtStrategy :=
  {
    s with
      window := s.window.dropWhile s.heap.isAcked
      popped := s.popped ++ s.window.takeWhile s.heap.isAcked
  }

def adjustWindowSize (s : RdtStrategy) : RdtStrategy :=
  let newSize :=
    if s.windowSize < s.threshold then
      int32 (s.windowSize * 2)
    else
      int32 (s.windowSize + 1)
  { s with windowSize := if newSize > s.maxWindowSize then s.maxWindowSize else newSize }

-- The packet that the loop of `expand_window` goes on with, if there is one.
def takeNext (s : RdtStrategy) : Option (PacketPtr × RdtStrategy) :=
  match s.auxWindow with
  | p :: aux => some (p, { s with auxWindow := aux })
  | [] => if s.pktBuilder.hasNext then s.getNextPacket else none

def pushAndSend (env : Env) (s : RdtStrategy) (p : PacketPtr) : RdtStrategy :=
  let s := s.setAck p false
  let s := { s with window := s.window ++ [p] }
  sendPacket env s p

theorem takeNext_eq_some {s s' : RdtStrategy} {p : PacketPtr} (h : takeNext s = some (p, s'))
    : ∃ aux b n, s' = { s with auxWindow := aux, pktBuilder := b, nextSeqNumber := n } := by
  unfold takeNext at h
  split at h
  . cases h
    exact ⟨_, _, _, rfl⟩
  . split at h
    . obtain ⟨_, _, _, rfl⟩ := RdtStrategy.getNextPacket_eq_some h
      exact ⟨_, _, _, rfl⟩
    . contradiction

theorem takeNext_window {s s' : RdtStrategy} {p : PacketPtr} (h : takeNext s = some (p, s'))
    : s'.window = s.window ∧ s'.windowSize = s.windowSize := by
  obtain ⟨_, _, _, rfl⟩ := takeNext_eq_some h
  exact ⟨rfl, rfl⟩

theorem pushAndSend_room_lt (env : Env) (s : RdtStrategy) (p : PacketPtr)
    (h : s.window.length < sizeT s.windowSize)
    : sizeT (pushAndSend env s p).windowSize - (pushAndSend env s p).window.length
        < sizeT s.windowSize - s.window.length := by
  have hle : sizeT (if s.windowSize.tdiv 2 < 1 then 1 else s.windowSize.tdiv 2)
      ≤ sizeT s.windowSize := by
    rw [tdiv_two_eq]
    unfold sizeT at *
    grind
  unfold pushAndSend
  dsimp only
  cases
    sendPacket_cases env { s.setAck p false with window := (s.setAck p false).window ++ [p] } p with
  | inl heq =>
    rw [heq]
    simp only [RdtStrategy.window_transmit, RdtStrategy.windowSize_transmit,
      RdtStrategy.window_setAck, RdtStrategy.windowSize_setAck, List.length_append,
      List.length_singleton]
    omega
  | inr heq =>
    rw [heq]
    simp only [window_shrinkWindow, windowSize_shrinkWindow, RdtStrategy.window_transmit,
      RdtStrategy.window_setAck, RdtStrategy.windowSize_setAck, List.length_take,
      List.length_append, List.length_singleton]
    omega

def expandWindow (env : Env) (s : RdtStrategy) : RdtStrategy :=
  if s.window.length < sizeT s.windowSize then
    match _h : takeNext s with
    | some (p, s') => expandWindow env (pushAndSend env s' p)
    | none => s
  else
    s
termination_by sizeT s.windowSize - s.window.length
decreasing_by
  obtain ⟨hwindow, hsize⟩ := takeNext_window (by assumption)
  rw [← hwindow, ← hsize]
  apply pushAndSend_room_lt
  rw [hwindow, hsize]
  assumption

-- What `acknowledge_packet` does with the packet it has found, up to `adjust_window_size`.
def setAcked (s : RdtStrategy) (p : PacketPtr) : RdtStrategy :=
  let isBegin := s.window.head? = some p
  let s := s.setAck p true
  let s := s.eraseUnacked p
  if isBegin then advanceWindow s else s

def acknowledgePacket (env : Env) (s : RdtStrategy) (ackPkt : AckPacket) : RdtStrategy :=
  if ackPkt.cksum = ackPkt.calculateChecksum then
    match s.window.find? (fun p => ackPkt.ackno = p.packet.seqno) with
    | some p =>
      if s.heap.isAcked p then
        s
      else
        let s := setAcked s p
        let s := adjustWindowSize s
        expandWindow env s
    | none => s
  else
    s

-- Nothing is sent while the window is being walked over that changes it, it has one packet at most.
def start (env : Env) (s : RdtStrategy) : RdtStrategy :=
  s.window.foldl (sendPacket env) s

def timeOut (env : Env) (s : RdtStrategy) (firstUnackedPkt : PacketPtr) : RdtStrategy :=
  let s := s.eraseUnacked firstUnackedPkt
  let s := shrinkWindow s 1
  match s.window with
  -- The front of an empty window is undefined.
  | [] => s
  | p :: _ => sendPacket env s p

def handleTimeOut (env : Env) (s : RdtStrategy) : RdtStrategy :=
  match s.unackedPackets with
  | [] => s
  | firstUnackedPkt :: _ => timeOut env s firstUnackedPkt

end SelectiveRepeat
