import RdtProtocol.Server.Strategy.ModeLemmas
import RdtProtocol.Server.Strategy.StopAndWaitLemmas
import RdtProtocol.Util.StepFn

/-!
This module contains the runs of a server strategy on its own, with any ACKs at all, and what an ACK whose
checksum is wrong does to it.
-/

namespace Mode

inductive Event where
  | acknowledge (ackPkt : AckPacket)
  | timeOut
  | resend (index : Nat)
  deriving DecidableEq, Repr

variable (mode : Mode) (env : Env)

-- A time-out needs a packet that has timed out.
def step (s : RdtStrategy) : Event → Option RdtStrategy
  | .acknowledge ackPkt => some (mode.acknowledgePacket env s ackPkt)
  | .timeOut => if s.unackedPackets = [] then none else some (mode.handleTimeOut env s)
  | .resend index =>
    if mode = .goBackN then s.window[index]?.map (GoBackN.resend env s) else none

def Orderly (first : UInt32) (file : Bytes) (s : RdtStrategy) : Prop :=
  match mode with
  | .stopAndWait => s.InOrder 1 file 1 ∧ s.Fresh
  | .selectiveRepeat => True
  | .goBackN => s.InOrder first file GoBackN.DEFAULT_WINDOW_SIZE ∧ s.Fresh

variable {mode env} {first : UInt32} {file : Bytes} {maxWindowSize threshold : Int} {s t init : RdtStrategy}

theorem orderly_newStrategy (mode : Mode) (first : UInt32) (file : Bytes)
    (maxWindowSize threshold : Int)
    : Orderly mode first file
        (mode.newStrategy (File.regular file) first maxWindowSize threshold) := by
  cases mode with
  | stopAndWait =>
    obtain ⟨hinv, hfresh, _⟩ := StopAndWait.inOrder_new file
    exact ⟨hinv, hfresh⟩
  | selectiveRepeat => trivial
  | goBackN =>
    obtain ⟨hinv, hfresh, _⟩ := GoBackN.inOrder_new first file maxWindowSize threshold
    exact ⟨hinv, hfresh⟩

theorem orderly_start (h : Orderly mode first file s) (env : Env) : Orderly mode first file (mode.start env s) := by
  cases mode with
  | stopAndWait => exact StopAndWait.inOrder_start h.1 h.2 env
  | selectiveRepeat => trivial
  | goBackN => exact GoBackN.inOrder_start h.1 h.2 env

theorem orderly_step (h : Orderly mode first file s) {e : Event} (hstep : step mode env s e = some t)
    : Orderly mode first file t := by
  cases mode with
  | stopAndWait =>
    cases e with
    | acknowledge ackPkt =>
      cases hstep
      exact StopAndWait.inOrder_acknowledgePacket h.1 h.2 env ackPkt
    | timeOut =>
      simp only [step, Option.ite_none_left_eq_some, Option.some.injEq] at hstep
      obtain ⟨_, rfl⟩ := hstep
      exact StopAndWait.inOrder_handleTimeOut h.1 h.2 env
    | resend index => simp [step] at hstep
  | selectiveRepeat => trivial
  | goBackN =>
    cases e with
    | acknowledge ackPkt =>
      cases hstep
      exact GoBackN.inOrder_acknowledgePacket h.1 h.2 env ackPkt
    | timeOut =>
      simp only [step, Option.ite_none_left_eq_some, Option.some.injEq] at hstep
      obtain ⟨_, rfl⟩ := hstep
      exact h
    | resend index =>
      simp only [step, ↓reduceIte, Option.map_eq_some_iff] at hstep
      obtain ⟨p, hp, rfl⟩ := hstep
      exact GoBackN.inOrder_resend h.1 h.2 env (List.mem_of_getElem? hp)

/--
Nothing that decides what is sent later on has changed.
-/
structure Unaffected (s t : RdtStrategy) : Prop where
  window_eq : t.window = s.window
  auxWindow_eq : t.auxWindow = s.auxWindow
  unackedPackets_eq : t.unackedPackets = s.unackedPackets
  isAcked_eq : ∀ p, t.heap.isAcked p = s.heap.isAcked p
  pktBuilder_eq : t.pktBuilder = s.pktBuilder
  nextSeqNumber_eq : t.nextSeqNumber = s.nextSeqNumber
  windowSize_eq : t.windowSize = s.windowSize
  threshold_eq : t.threshold = s.threshold
  sent_eq : t.sent = s.sent

theorem unaffected_of_eq (h : t = s) : Unaffected s t := by
  subst h
  exact ⟨rfl, rfl, rfl, fun _ => rfl, rfl, rfl, rfl, rfl, rfl⟩

theorem not_unaffected_of_popped {p : PacketPtr} (ht : t.Inv first file)
    (hp : p ∈ s.window) (hpopped : p ∈ t.popped)
    : ¬ Unaffected s t := by
  intro h
  have hmem : p ∈ t.window := h.window_eq ▸ hp
  have := ht.addr_popped_lt hpopped (p := p) (by simp [hmem])
  omega

theorem unaffected_iff
    (hinit : init = mode.newStrategy (File.regular file) first maxWindowSize threshold
      ∨ init = mode.start env (mode.newStrategy (File.regular file) first maxWindowSize threshold))
    (h : StepFn.Reachable (step mode env) init s) {ackPkt : AckPacket}
    (hcksum : ackPkt.cksum ≠ ackPkt.calculateChecksum)
    : Unaffected s (mode.acknowledgePacket env s ackPkt)
        ↔ (mode = .selectiveRepeat ∨ ∀ p ∈ s.window, p.packet.seqno ≠ ackPkt.ackno) := by
  have horderly : Orderly mode first file s := by
    apply h.invariant
    . have hnew := orderly_newStrategy mode first file maxWindowSize threshold
      cases hinit with
      | inl hinit => exact hinit ▸ hnew
      | inr hinit => exact hinit ▸ orderly_start hnew env
    . intro s e t hs hstep
      exact orderly_step hs hstep
  cases mode with
  | stopAndWait =>
    simp only [reduceCtorEq, false_or]
    cases StopAndWait.acknowledgePacket_cases horderly.1 horderly.2 env ackPkt with
    | inl heq => exact iff_of_true (unaffected_of_eq heq.1) heq.2
    | inr hex =>
      obtain ⟨p, hwindow, hseqno, heq⟩ := hex
      obtain ⟨hinv, _, hpopped, _⟩ := StopAndWait.advanceWindow_setAck horderly.1 horderly.2 hwindow env
      have hp : p ∈ s.window := by simp [hwindow]
      rw [← heq] at hinv hpopped
      have hmem : p ∈ (StopAndWait.acknowledgePacket env s ackPkt).popped := by simp [hpopped]
      apply iff_of_false
      . exact not_unaffected_of_popped hinv.toInv hp hmem
      . exact fun hne => hne p hp hseqno
  | selectiveRepeat =>
    simp only [true_or, iff_true]
    apply unaffected_of_eq
    simp only [acknowledgePacket, SelectiveRepeat.acknowledgePacket, if_neg hcksum]
  | goBackN =>
    simp only [reduceCtorEq, false_or]
    cases GoBackN.acknowledgePacket_cases env s ackPkt with
    | inl heq => exact iff_of_true (unaffected_of_eq heq.1) heq.2
    | inr hex =>
      obtain ⟨xs, p, rest, hwindow, hseqno, heq⟩ := hex
      obtain ⟨hinv, _, hpopped, _⟩ :=
        GoBackN.advanceWindow_setAcks horderly.1 horderly.2 hwindow env
      have hp : p ∈ s.window := by simp [hwindow]
      rw [← heq] at hinv hpopped
      have hmem : p ∈ (GoBackN.acknowledgePacket env s ackPkt).popped := by simp [hpopped]
      apply iff_of_false
      . exact not_unaffected_of_popped hinv.toInv hp hmem
      . exact fun hne => hne p hp hseqno

def sampleStarted (mode : Mode) : RdtStrategy :=
  mode.start ⟨id, fun _ => false⟩ (mode.newStrategy (File.regular [7]) 0 1 0)

theorem unaffected_sampleStarted
    : Unaffected (sampleStarted .stopAndWait)
          (acknowledgePacket .stopAndWait ⟨id, fun _ => false⟩ (sampleStarted .stopAndWait) ⟨0, 8, 5⟩)
        ↔ (Mode.stopAndWait = .selectiveRepeat
          ∨ ∀ p ∈ (sampleStarted .stopAndWait).window, p.packet.seqno ≠ 5) :=
  unaffected_iff (.inr rfl) .init (by decide)

theorem affected_sampleStarted
    : ¬ Unaffected (sampleStarted .stopAndWait)
          (acknowledgePacket .stopAndWait ⟨id, fun _ => false⟩ (sampleStarted .stopAndWait) ⟨0, 8, 1⟩)
      ∧ ¬ Unaffected (sampleStarted .goBackN)
          (acknowledgePacket .goBackN ⟨id, fun _ => false⟩ (sampleStarted .goBackN) ⟨0, 8, 0⟩)
      ∧ (⟨0, 8, 1⟩ : AckPacket).cksum ≠ (⟨0, 8, 1⟩ : AckPacket).calculateChecksum
      ∧ (⟨0, 8, 0⟩ : AckPacket).cksum ≠ (⟨0, 8, 0⟩ : AckPacket).calculateChecksum := by
  refine ⟨?_, ?_, by decide, by decide⟩
  . intro h
    exact absurd h.window_eq (by decide +kernel)
  . intro h
    exact absurd h.window_eq (by decide +kernel)

end Mode
