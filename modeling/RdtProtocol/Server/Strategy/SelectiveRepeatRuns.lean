import RdtProtocol.Server.Strategy.SelectiveRepeatLemmas
import RdtProtocol.Util.StepFn

/-!
This module contains the runs of the selective repeat sender on its own, that is with ACKs and time-outs
that need not have anything to do with what it has sent, and what holds all along them.
-/

namespace SelectiveRepeat

inductive Event where
  | acknowledge (ackPkt : AckPacket)
  | timeOut (firstUnackedPkt : PacketPtr)

def step (env : Env) (s : RdtStrategy) : Event → Option RdtStrategy
  | .acknowledge ackPkt => some (acknowledgePacket env s ackPkt)
  | .timeOut firstUnackedPkt =>
    if s.window = [] then
      none
    else
      some (timeOut env s firstUnackedPkt)

variable {file : Bytes} {maxWindowSize : Int} {env : Env} {s init : RdtStrategy}

theorem inv_step (hN : (file.chunks MAX_DATA_SIZE).length < 2 ^ 32 - 1)
    (hmax : maxWindowSize < 2 ^ 31 - 1) (h : Inv file maxWindowSize s ∧ Settled s) {e : Event}
    {s' : RdtStrategy} (hstep : step env s e = some s')
    : Inv file maxWindowSize s' ∧ Settled s' := by
  cases e with
  | acknowledge ackPkt =>
    cases hstep
    exact inv_acknowledgePacket h.1 h.2 hN hmax env ackPkt
  | timeOut first =>
    simp only [step] at hstep
    split at hstep
    . contradiction
    . cases hstep
      exact inv_timeOut h.1 h.2 hN env first

theorem inv_of_reachable (hN : (file.chunks MAX_DATA_SIZE).length < 2 ^ 32 - 1)
    (hone : 1 ≤ maxWindowSize) (hmax : maxWindowSize < 2 ^ 31 - 1)
    (hinit : init = new (File.regular file) maxWindowSize
      ∨ init = start env (new (File.regular file) maxWindowSize))
    (h : StepFn.Reachable (step env) init s)
    : Inv file maxWindowSize s ∧ Settled s := by
  obtain ⟨hinv, hset, hlen, _⟩ := inv_new file hone
  apply h.invariant
  . cases hinit with
    | inl hinit => exact hinit ▸ ⟨hinv, hset⟩
    | inr hinit => exact hinit ▸ inv_start hinv hset hlen hN env
  . intro s e s' hs hstep
    exact inv_step hN hmax hs hstep

theorem representation_of_reachable (hN : (file.chunks MAX_DATA_SIZE).length < 2 ^ 32 - 1)
    (hone : 1 ≤ maxWindowSize) (hmax : maxWindowSize < 2 ^ 31 - 1)
    (hinit : init = new (File.regular file) maxWindowSize
      ∨ init = start env (new (File.regular file) maxWindowSize))
    (h : StepFn.Reachable (step env) init s)
    : (1 ≤ s.windowSize ∧ s.windowSize ≤ maxWindowSize)
        ∧ (s.window.length : Int) ≤ s.windowSize
        ∧ (s.popped ++ (s.window ++ (s.auxWindow ++ s.pending))).map (·.packet.seqno.toNat)
            = List.range' 1 (file.chunks MAX_DATA_SIZE).length
        ∧ (∀ p ∈ s.window.head?, s.heap.isAcked p = false)
        ∧ (s.isDone = true → s.auxWindow = [] ∧ s.pktBuilder.hasNext = false) := by
  obtain ⟨hinv, hset⟩ := inv_of_reachable hN hone hmax hinit h
  refine ⟨⟨hinv.one_le_windowSize, hinv.windowSize_le⟩, hinv.length_window_le, ?_, hset.front, ?_⟩
  . rw [hinv.content]
    apply map_seqno_packets
    simp
    omega
  . intro hdone
    obtain ⟨haux, hpending⟩ := hset.empty (List.isEmpty_iff.mp hdone)
    refine ⟨haux, ?_⟩
    rw [← Bool.not_eq_true, hinv.hasNext_iff, hpending]
    simp

def sampleEnv : Env :=
  { now := id, tripleDupAck := fun i => i = 1 }

def sampleFile : Bytes :=
  List.replicate 1200 7

def sampleState : RdtStrategy :=
  acknowledgePacket sampleEnv (start sampleEnv (new (File.regular sampleFile) 4)) (AckPacket.new 1)

theorem representation_sampleState
    : (sampleState.popped ++ (sampleState.window ++ (sampleState.auxWindow ++ sampleState.pending))).map
        (·.packet.seqno.toNat)
        = [1, 2, 3] := by
  have hreach : StepFn.Reachable (step sampleEnv)
      (start sampleEnv (new (File.regular sampleFile) 4)) sampleState := by
    apply StepFn.reachable_of_run [.acknowledge (AckPacket.new 1)] .init
    rfl
  have hlength : (sampleFile.chunks MAX_DATA_SIZE).length = 3 := by decide +kernel
  have h := representation_of_reachable (by rw [hlength]; decide) (by decide) (by decide) (.inr rfl)
    hreach
  rw [h.2.2.1, hlength]
  rfl

end SelectiveRepeat
