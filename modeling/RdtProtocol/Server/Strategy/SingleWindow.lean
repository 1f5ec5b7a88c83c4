import RdtProtocol.Server.Strategy.ModeRuns

/-!
This module proves that selective repeat with windows of one packet is stop and wait. The states of the two
senders only differ in the threshold, which does not matter to a window that cannot grow.
-/

namespace RdtStrategy

def withThreshold (s : RdtStrategy) (threshold : Int) : RdtStrategy :=
  { s with threshold }

section

variable {s s' : RdtStrategy} {p : PacketPtr} {threshold : Int}

theorem getNextPacket_withThreshold (s : RdtStrategy) (threshold : Int)
    : (s.withThreshold threshold).getNextPacket
        = s.getNextPacket.map (fun next => (next.1, next.2.withThreshold threshold)) := by
  simp [getNextPacket, withThreshold, Option.map_map, Function.comp_def]

theorem fillWindow_withThreshold (s : RdtStrategy) (threshold : Int)
    : (s.withThreshold threshold).fillWindow = s.fillWindow.withThreshold threshold := by
  induction s using RdtStrategy.fillWindow.induct with
  | case1 s hc p s' hget ih =>
    have hget' : (s.withThreshold threshold).getNextPacket = some (p, s'.withThreshold threshold) := by
      rw [getNextPacket_withThreshold, hget]
      rfl
    rw [fillWindow_of_some hc hget, ← ih, fillWindow_of_some (s := s.withThreshold threshold) hc hget']
    rfl
  | case2 s hc hget =>
    rw [fillWindow_of_none (.inr hget), fillWindow_of_none]
    right
    rw [getNextPacket_withThreshold, hget]
    rfl
  | case3 s hc =>
    rw [fillWindow_of_none (s := s) (.inl hc), fillWindow_of_none]
    exact .inl hc

theorem new_withThreshold (file : File) (first : UInt32) (windowSize maxWindowSize k threshold : Int)
    : new file first windowSize maxWindowSize threshold
        = (new file first windowSize maxWindowSize k).withThreshold threshold := by
  unfold new
  rw [← fillWindow_withThreshold]
  rfl

theorem maxWindowSize_advanceWindow (env : Env) (s : RdtStrategy)
    : (s.advanceWindow env).maxWindowSize = s.maxWindowSize := by
  apply advanceWindow_induction (P := fun t => t.maxWindowSize = s.maxWindowSize)
  . exact fun _ => id
  . intro t q t' hget ht
    obtain ⟨_, _, _, rfl⟩ := getNextPacket_eq_some hget
    exact ht
  . rfl

theorem maxWindowSize_new (file : File) (first : UInt32) (windowSize maxWindowSize threshold : Int)
    : (new file first windowSize maxWindowSize threshold).maxWindowSize = maxWindowSize := by
  apply fillWindow_induction (P := fun s => s.maxWindowSize = maxWindowSize)
  . intro s p s' _ _ hget hs
    obtain ⟨_, _, _, rfl⟩ := getNextPacket_eq_some hget
    exact hs
  . rfl

end

end RdtStrategy

theorem Heap.setAck_eq_self {heap : Heap} {p : PacketPtr} {acked : Bool} (h : heap.isAcked p = acked)
    : heap.setAck p acked = heap := by
  unfold setAck
  rw [← h]
  exact Function.update_eq_self _ _

namespace SelectiveRepeat

variable {env : Env} {s : RdtStrategy} {p : PacketPtr} {threshold newSize : Int}

theorem shrinkWindow_withThreshold (hsize : s.windowSize = 1) (hwindow : s.window.length ≤ 1)
    (hnew : newSize ≤ 1) (threshold : Int)
    : shrinkWindow (s.withThreshold threshold) newSize = s.withThreshold 1 := by
  have hone : (if newSize < 1 then 1 else newSize) = 1 := by
    split <;> omega
  have hunit : sizeT 1 = 1 := rfl
  have htdiv : Int.tdiv 1 2 = 0 := rfl
  cases s
  simp only at hsize hwindow
  subst hsize
  rw [shrinkWindow_eq]
  simp [RdtStrategy.withThreshold, hone, hunit, htdiv, List.drop_eq_nil_of_le hwindow,
    List.take_of_length_le hwindow]

theorem sendPacket_withThreshold (env : Env) (hsize : s.windowSize = 1) (hwindow : s.window.length ≤ 1)
    (hthreshold : threshold ≤ 1) (p : PacketPtr)
    : ∃ k ≤ 1, sendPacket env (s.withThreshold threshold) p = (s.transmit env p).withThreshold k := by
  unfold sendPacket
  dsimp only
  split
  . refine ⟨1, Int.le_refl 1, ?_⟩
    apply shrinkWindow_withThreshold (s := s.transmit env p) hsize hwindow
    simp only [RdtStrategy.windowSize_transmit, RdtStrategy.withThreshold, hsize]
    decide
  . exact ⟨threshold, hthreshold, rfl⟩

theorem adjustWindowSize_withThreshold (hsize : s.windowSize = 1) (hmax : s.maxWindowSize = 1)
    (threshold : Int)
    : adjustWindowSize (s.withThreshold threshold) = s.withThreshold threshold := by
  have hint : int32 2 = 2 := by decide
  cases s
  simp only at hsize hmax
  subst hsize hmax
  simp [adjustWindowSize, RdtStrategy.withThreshold, hint]

structure Alike (env : Env) (file : Bytes) (s t : RdtStrategy) : Prop where
  inOrder : s.InOrder 1 file 1
  fresh : s.Fresh
  timerInv : s.TimerInv env
  maxWindowSize_eq : s.maxWindowSize = 1
  eq_withThreshold : ∃ threshold ≤ 1, t = s.withThreshold threshold

variable {file : Bytes} {t : RdtStrategy}

theorem alike_start (hclock : StrictMono env.now) (file : Bytes)
    : Alike env file (StopAndWait.start env (StopAndWait.new (File.regular file) 1 1))
        (start env (new (File.regular file) 1)) := by
  obtain ⟨hinv, hfresh, hunacked⟩ := StopAndWait.inOrder_new file
  obtain ⟨hinv', hfresh'⟩ := StopAndWait.inOrder_start hinv hfresh env
  have htimer := StopAndWait.timerInv_start hinv hfresh hunacked hclock
  have hnew : new (File.regular file) 1 = (StopAndWait.new (File.regular file) 1 1).withThreshold 0 := by
    apply RdtStrategy.new_withThreshold
  have hmax : (StopAndWait.new (File.regular file) 1 1).maxWindowSize = 1 := by
    apply RdtStrategy.maxWindowSize_new
  generalize StopAndWait.new (File.regular file) 1 1 = s at *
  have hwindow : (s.withThreshold 0).window = s.window := rfl
  unfold start
  rw [hnew, hwindow]
  cases StopAndWait.start_cases hinv env with
  | inl hempty =>
    rw [hempty.2] at hinv' hfresh' htimer ⊢
    refine ⟨hinv', hfresh', htimer, hmax, 0, by decide, ?_⟩
    rw [hempty.1]
    rfl
  | inr hex =>
    obtain ⟨p, hsingle, heq⟩ := hex
    rw [heq] at hinv' hfresh' htimer ⊢
    refine ⟨hinv', hfresh', htimer, hmax, ?_⟩
    rw [hsingle, List.foldl_cons, List.foldl_nil]
    apply sendPacket_withThreshold
    . exact hinv.windowSize_eq
    . simp [hsingle]
    . decide

theorem alike_handleTimeOut (hclock : StrictMono env.now) (h : Alike env file s t)
    : Alike env file (StopAndWait.handleTimeOut env s) (handleTimeOut env t) := by
  obtain ⟨hinv, hfresh, htimer, hmax, threshold, hthreshold, rfl⟩ := h
  obtain ⟨hinv', hfresh'⟩ := StopAndWait.inOrder_handleTimeOut hinv hfresh env
  have htimer' := StopAndWait.timerInv_handleTimeOut hinv hfresh htimer hclock
  have hunacked := StopAndWait.unackedPackets_eq hfresh htimer
  have hunacked' : (s.withThreshold threshold).unackedPackets = s.window := hunacked
  unfold handleTimeOut
  cases hwindow : s.window with
  | nil =>
    rw [hwindow] at hunacked hunacked'
    have heq : StopAndWait.handleTimeOut env s = s := by
      unfold StopAndWait.handleTimeOut
      rw [hunacked]
    rw [hunacked', heq]
    exact ⟨hinv, hfresh, htimer, hmax, threshold, hthreshold, rfl⟩
  | cons p rest =>
    have hsingle := StopAndWait.window_eq_singleton hinv (p := p) (by simp [hwindow])
    have heq := StopAndWait.handleTimeOut_of_singleton hfresh htimer hsingle
    rw [heq] at hinv' hfresh' htimer' ⊢
    refine ⟨hinv', hfresh', htimer', hmax, ?_⟩
    rw [hunacked', hwindow]
    have hshrink : shrinkWindow ((s.withThreshold threshold).eraseUnacked p) 1
        = (s.eraseUnacked p).withThreshold 1 := by
      apply shrinkWindow_withThreshold (s := s.eraseUnacked p) hinv.windowSize_eq
      . simp [hsingle]
      . decide
    have hfront : ((s.eraseUnacked p).withThreshold 1).window = [p] := hsingle
    simp only [timeOut, hshrink, hfront]
    apply sendPacket_withThreshold
    . exact hinv.windowSize_eq
    . simp [hsingle]
    . decide

theorem takeNext_withThreshold (haux : s.auxWindow = []) (threshold : Int)
    : takeNext (s.withThreshold threshold)
        = if s.pktBuilder.hasNext = true then
            s.getNextPacket.map (fun next => (next.1, next.2.withThreshold threshold))
          else
            none := by
  rw [← RdtStrategy.getNextPacket_withThreshold]
  unfold takeNext
  split
  . next haux' => simp [RdtStrategy.withThreshold, haux] at haux'
  . rfl

theorem length_window_lt_iff (hsize : s.windowSize = 1)
    : s.window.length < sizeT s.windowSize ↔ s.window = [] := by
  have hunit : sizeT 1 = 1 := rfl
  rw [hsize, hunit, Nat.lt_one_iff, List.length_eq_zero_iff]

theorem pushAndSend_withThreshold (env : Env) (hsize : s.windowSize = 1) (hwindow : s.window = [])
    (hacked : s.heap.isAcked p = false) (hthreshold : threshold ≤ 1)
    : ∃ k ≤ 1, pushAndSend env (s.withThreshold threshold) p
        = ({ s with window := s.window ++ [p] }.transmit env p).withThreshold k := by
  have hack : (s.withThreshold threshold).setAck p false = s.withThreshold threshold := by
    unfold RdtStrategy.setAck
    rw [Heap.setAck_eq_self]
    exact hacked
  unfold pushAndSend
  rw [hack]
  apply sendPacket_withThreshold (s := { s with window := s.window ++ [p] }) env hsize
  . simp [hwindow]
  . exact hthreshold

theorem expandWindow_popFront (env : Env) (h : s.Inv 1 file) (hwindow : s.window = [p])
    (hacked : s.heap.isAcked p = true) (hpending : ∀ q ∈ s.pending, s.heap.isAcked q = false)
    (haux : s.auxWindow = []) (hsize : s.windowSize = 1) (hthreshold : threshold ≤ 1)
    : ∃ k ≤ 1, expandWindow env (s.popFront.withThreshold threshold)
        = (s.advanceWindow env).withThreshold k := by
  have hempty : s.popFront.window = [] := by simp [RdtStrategy.popFront, hwindow]
  have hnext := takeNext_withThreshold (s := s.popFront) haux threshold
  have hsame : s.popFront.pktBuilder.hasNext = s.pktBuilder.hasNext := rfl
  rw [hsame] at hnext
  cases hhas : s.pktBuilder.hasNext with
  | false =>
    have hend : s.popFront.advanceWindow env = s.popFront := by
      apply RdtStrategy.advanceWindow_of_front
      simp [hempty]
    rw [if_neg (by simp [hhas])] at hnext
    rw [RdtStrategy.advanceWindow_of_end hwindow hacked hhas, hend, expandWindow_of_none (.inr hnext)]
    exact ⟨threshold, hthreshold, rfl⟩
  | true =>
    obtain ⟨q, s', hget, hrest, _⟩ :=
      (RdtStrategy.inv_popFront h hwindow hacked).getNextPacket haux hhas
    rw [if_pos hhas, hget, Option.map_some] at hnext
    obtain ⟨b, n, _, rfl⟩ := RdtStrategy.getNextPacket_eq_some hget
    have hq : s.heap.isAcked q = false := by
      apply hpending
      change q ∈ s.popFront.pending
      simp [hrest]
    obtain ⟨k, hk, hpush⟩ := pushAndSend_withThreshold env
      (s := { s.popFront with pktBuilder := b, nextSeqNumber := n }) hsize hempty hq hthreshold
    refine ⟨k, hk, ?_⟩
    rw [RdtStrategy.advanceWindow_of_some hwindow hacked hhas hget, RdtStrategy.advanceWindow_of_front]
    . have hroom := (length_window_lt_iff (s := s.popFront.withThreshold threshold) hsize).mpr hempty
      rw [expandWindow_of_some hroom hnext, hpush]
      apply expandWindow_of_none
      left
      rw [length_window_lt_iff]
      . simp [RdtStrategy.withThreshold]
      . exact hsize
    . intro r hr
      simp only [RdtStrategy.window_transmit, hempty, List.nil_append, List.head?_cons, Option.mem_def,
        Option.some.injEq] at hr
      rw [RdtStrategy.heap_transmit, Heap.isAcked_setTimeStamp, ← hr]
      exact hq

theorem alike_acknowledgePacket (hclock : StrictMono env.now) (h : Alike env file s t)
    {ackPkt : AckPacket} (hcksum : ackPkt.cksum = ackPkt.calculateChecksum)
    : Alike env file (StopAndWait.acknowledgePacket env s ackPkt) (acknowledgePacket env t ackPkt) := by
  obtain ⟨hinv, hfresh, htimer, hmax, threshold, hthreshold, rfl⟩ := h
  obtain ⟨hinv', hfresh'⟩ := StopAndWait.inOrder_acknowledgePacket hinv hfresh env ackPkt
  have htimer' := StopAndWait.timerInv_acknowledgePacket hinv hfresh htimer hclock ackPkt
  have hwindow : (s.withThreshold threshold).window = s.window := rfl
  unfold acknowledgePacket
  rw [if_pos hcksum, hwindow]
  cases StopAndWait.acknowledgePacket_cases hinv hfresh env ackPkt with
  | inl heq =>
    obtain ⟨heq, hne⟩ := heq
    rw [heq]
    have hfind : s.window.find? (fun p => ackPkt.ackno = p.packet.seqno) = none := by
      rw [List.find?_eq_none]
      intro p hp
      simpa [eq_comm] using hne p hp
    rw [hfind]
    exact ⟨hinv, hfresh, htimer, hmax, threshold, hthreshold, rfl⟩
  | inr hex =>
    obtain ⟨p, hsingle, hseqno, heq⟩ := hex
    have hp : p ∈ s.window := by simp [hsingle]
    have hsplit : s.window = [p] ++ [] := hsingle
    have hpre := hinv.ackedPrefix_setAcks hfresh hsplit (fun _ => Iff.rfl)
    rw [heq] at hinv' hfresh' htimer' ⊢
    refine ⟨hinv', hfresh', htimer', ?_, ?_⟩
    . rw [RdtStrategy.maxWindowSize_advanceWindow]
      exact hmax
    . have hfind : s.window.find? (fun p => ackPkt.ackno = p.packet.seqno) = some p := by
        simp [hsingle, hseqno]
      have hacked : (s.withThreshold threshold).heap.isAcked p = false := hfresh.not_acked p (by simp [hp])
      have hset : setAcked (s.withThreshold threshold) p
          = ((s.setAck p true).eraseUnacked p).popFront.withThreshold threshold := by
        simp [setAcked, advanceWindow, RdtStrategy.popFront, RdtStrategy.withThreshold, hsingle,
          RdtStrategy.setAck, RdtStrategy.eraseUnacked]
      have hadjust := adjustWindowSize_withThreshold
        (s := ((s.setAck p true).eraseUnacked p).popFront) hinv.windowSize_eq hmax threshold
      simp only [hfind, hacked, hset, hadjust]
      apply expandWindow_popFront env (hinv.setAck hp).toInv
      . exact hsingle
      . exact hpre.acked p (by simp)
      . exact fun q hq => hpre.not_acked q (by simpa using hq)
      . exact hinv.auxWindow_eq
      . exact hinv.windowSize_eq
      . exact hthreshold

def Regular : Mode.Event → Prop
  | .acknowledge ackPkt => ackPkt.cksum = ackPkt.calculateChecksum
  | .timeOut => True
  | .resend _ => False

instance : DecidablePred Regular := fun e =>
  match e with
  | .acknowledge _ => inferInstanceAs (Decidable (_ = _))
  | .timeOut => inferInstanceAs (Decidable True)
  | .resend _ => inferInstanceAs (Decidable False)

theorem alike_step (hclock : StrictMono env.now) (h : Alike env file s t) {e : Mode.Event}
    (he : Regular e)
    : Option.Rel (Alike env file) (Mode.step .stopAndWait env s e)
        (Mode.step .selectiveRepeat env t e) := by
  cases e with
  | acknowledge ackPkt => exact .some (alike_acknowledgePacket hclock h he)
  | timeOut =>
    have hunacked : t.unackedPackets = s.unackedPackets := by
      obtain ⟨_, _, rfl⟩ := h.eq_withThreshold
      rfl
    unfold Mode.step
    dsimp only
    rw [hunacked]
    split
    . exact .none
    . exact .some (alike_handleTimeOut hclock h)
  | resend index => contradiction

/--
What a sender has sent, what it waits for, and what it sends in the end.
-/
structure Observation where
  sent : List (UInt32 × Bytes)
  window : List UInt32
  isDone : Bool
  emptyPacket : DataPacket
  deriving DecidableEq, Repr

def observe (s : RdtStrategy) : Observation :=
  {
    sent := s.sent.map (fun p => (p.packet.seqno, p.packet.data))
    window := s.window.map (·.packet.seqno)
    isDone := s.isDone
    emptyPacket := s.sendEmptyPacket
  }

theorem Alike.observe_eq (h : Alike env file s t) : observe t = observe s := by
  obtain ⟨_, _, rfl⟩ := h.eq_withThreshold
  rfl

theorem observe_run_eq (hclock : StrictMono env.now) (file : Bytes) {es : List Mode.Event}
    (hes : ∀ e ∈ es, Regular e)
    : (StepFn.run (Mode.step .selectiveRepeat env) (start env (new (File.regular file) 1)) es).map observe
        =
      (StepFn.run (Mode.step .stopAndWait env)
        (StopAndWait.start env (StopAndWait.new (File.regular file) 1 1)) es).map observe := by
  have hstep : ∀ s t e, Alike env file s t → Regular e → Option.Rel (Alike env file)
      (Mode.step .stopAndWait env s e) (Mode.step .selectiveRepeat env t e) := by
    intro s t e h he
    exact alike_step hclock h he
  have hrel := StepFn.run_rel hstep es hes (alike_start hclock file)
  generalize StepFn.run (Mode.step .stopAndWait env) _ es = s at *
  generalize StepFn.run (Mode.step .selectiveRepeat env) _ es = t at *
  cases hrel with
  | none => rfl
  | some h => exact congrArg some h.observe_eq

def dupEnv : Env :=
  { now := id, tripleDupAck := fun n => n = 1 }

theorem observe_run_dupEnv
    : (StepFn.run (Mode.step .selectiveRepeat dupEnv)
          (start dupEnv (new (File.regular [7]) 1))
          [.timeOut, .acknowledge (AckPacket.new 1)]).map observe
        =
      (StepFn.run (Mode.step .stopAndWait dupEnv)
        (StopAndWait.start dupEnv (StopAndWait.new (File.regular [7]) 1 1))
        [.timeOut, .acknowledge (AckPacket.new 1)]).map observe
      ∧ (StepFn.run (Mode.step .stopAndWait dupEnv)
        (StopAndWait.start dupEnv (StopAndWait.new (File.regular [7]) 1 1))
        [.timeOut, .acknowledge (AckPacket.new 1)]).isSome = true :=
  ⟨observe_run_eq strictMono_id [7] (by decide), by decide +kernel⟩

end SelectiveRepeat
