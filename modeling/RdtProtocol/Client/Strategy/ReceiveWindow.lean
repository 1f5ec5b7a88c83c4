import RdtProtocol.Client.Strategy.GoBackNLemmas
import RdtProtocol.Client.Strategy.SelectiveRepeatLemmas

/-!
This module contains the window of sequence numbers that a receiver is meant to accept, against the
tests with which the two strategies decide about it. They compute the end of the window in a different
number of bits.
-/

namespace ClientRdtStrategy

def InReceiveWindow (c : ClientRdtStrategy) (seqno : UInt32) : Prop :=
  (c.expectedSeqno.toNat : Int) ≤ seqno.toNat
    ∧ (seqno.toNat : Int) < c.expectedSeqno.toNat + c.windowSize

instance (c : ClientRdtStrategy) (seqno : UInt32) : Decidable (InReceiveWindow c seqno) :=
  inferInstanceAs (Decidable (_ ∧ _))

structure Decided (c : ClientRdtStrategy) (seqno : UInt32) : Prop where
  goBackN : ClientGoBackN.inWindow c seqno ↔ InReceiveWindow c seqno
  selectiveRepeat : ClientSelectiveRepeat.inWindow c seqno ↔ InReceiveWindow c seqno

variable {c : ClientRdtStrategy} {seqno : UInt32}

theorem inReceiveWindow_expectedSeqno (hone : 1 ≤ c.windowSize)
    : InReceiveWindow c c.expectedSeqno := by
  constructor
  . apply Int.le_refl
  . omega

end ClientRdtStrategy

open ClientRdtStrategy

namespace ClientGoBackN

variable {c : ClientRdtStrategy} {seqno : UInt32}

theorem inWindow_iff_inReceiveWindow (hone : 1 ≤ c.windowSize) (hsize : c.windowSize < 2 ^ 31)
    (hfits : c.expectedSeqno.toNat + c.windowSize < 2 ^ 32)
    : inWindow c seqno ↔ InReceiveWindow c seqno := by
  by_cases hle : c.expectedSeqno ≤ seqno
  . rw [inWindow_iff hone hsize hle]
    rw [UInt32.le_iff_toNat_le] at hle
    unfold InReceiveWindow
    omega
  . apply iff_of_false
    . intro h
      exact hle h.1
    . intro h
      rw [UInt32.le_iff_toNat_le] at hle
      have := h.1
      omega

theorem not_inWindow_of_wrapped (hone : 1 ≤ c.windowSize) (hsize : c.windowSize < 2 ^ 31)
    (hwrapped : 2 ^ 32 ≤ c.expectedSeqno.toNat + c.windowSize) (seqno : UInt32)
    : ¬ inWindow c seqno := by
  intro h
  rw [inWindow_iff hone hsize h.1] at h
  omega

theorem foldl_receive_of_wrapped (hone : 1 ≤ c.windowSize) (hsize : c.windowSize < 2 ^ 31)
    (hwrapped : 2 ^ 32 ≤ c.expectedSeqno.toNat + c.windowSize) (packets : List DataPacket)
    : packets.foldl receive c = c := by
  induction packets with
  | nil => rfl
  | cons packet packets ih =>
    have hreceive : receive c packet = c := by
      unfold receive
      rw [if_neg (not_inWindow_of_wrapped hone hsize hwrapped packet.seqno)]
    rw [List.foldl_cons, hreceive]
    exact ih

end ClientGoBackN

namespace ClientRdtStrategy

variable {c : ClientRdtStrategy}

theorem decided_iff (hone : 1 ≤ c.windowSize) (hsize : c.windowSize < 2 ^ 31) (seqno : UInt32)
    : (Decided c seqno
          ↔ c.expectedSeqno.toNat + c.windowSize < 2 ^ 32 ∨ seqno < c.expectedSeqno)
        ∧ (ClientGoBackN.inWindow c c.expectedSeqno
              ∧ ClientSelectiveRepeat.inWindow c c.expectedSeqno
            ↔ c.expectedSeqno.toNat + c.windowSize < 2 ^ 32) := by
  have hsr (n : UInt32) : ClientSelectiveRepeat.inWindow c n ↔ InReceiveWindow c n :=
    ClientSelectiveRepeat.inWindow_iff hone hsize
  by_cases hfits : c.expectedSeqno.toNat + c.windowSize < 2 ^ 32
  . have hgbn (n : UInt32) : ClientGoBackN.inWindow c n ↔ InReceiveWindow c n :=
      ClientGoBackN.inWindow_iff_inReceiveWindow hone hsize hfits
    have hexpected := inReceiveWindow_expectedSeqno hone
    constructor
    . exact iff_of_true ⟨hgbn seqno, hsr seqno⟩ (.inl hfits)
    . exact iff_of_true ⟨(hgbn _).mpr hexpected, (hsr _).mpr hexpected⟩ hfits
  . have hnot := ClientGoBackN.not_inWindow_of_wrapped hone hsize (Int.not_lt.mp hfits)
    have hmax := seqno.toNat_lt
    constructor
    . constructor
      . intro h
        right
        -- All numbers from the expected one on are in the window, but the test says none is.
        apply UInt32.not_le.mp
        intro hle
        rw [UInt32.le_iff_toNat_le] at hle
        apply hnot seqno
        apply h.goBackN.mpr
        unfold InReceiveWindow
        omega
      . intro h
        have hlt := UInt32.lt_iff_toNat_lt.mp (h.resolve_left hfits)
        have hout : ¬ InReceiveWindow c seqno := by
          unfold InReceiveWindow
          omega
        exact ⟨iff_of_false (hnot seqno) hout, hsr seqno⟩
    . apply iff_of_false _ hfits
      intro h
      exact hnot _ h.1

theorem decided_iff_of_four
    : (Decided (ClientGoBackN.new 4) 3
          ↔ (ClientGoBackN.new 4).expectedSeqno.toNat + (ClientGoBackN.new 4).windowSize < 2 ^ 32
            ∨ 3 < (ClientGoBackN.new 4).expectedSeqno)
        ∧ (ClientGoBackN.inWindow (ClientGoBackN.new 4) (ClientGoBackN.new 4).expectedSeqno
              ∧ ClientSelectiveRepeat.inWindow (ClientGoBackN.new 4)
                (ClientGoBackN.new 4).expectedSeqno
            ↔ (ClientGoBackN.new 4).expectedSeqno.toNat + (ClientGoBackN.new 4).windowSize
                < 2 ^ 32) :=
  decided_iff (by decide) (by decide) 3

def lastExpected : ClientRdtStrategy :=
  ClientRdtStrategy.new 1 0xFFFFFFFF

theorem not_decided_lastExpected
    : ¬ Decided lastExpected 0xFFFFFFFF
        ∧ InReceiveWindow lastExpected lastExpected.expectedSeqno
        ∧ ClientSelectiveRepeat.inWindow lastExpected lastExpected.expectedSeqno
        ∧ ¬ ClientGoBackN.inWindow lastExpected lastExpected.expectedSeqno := by
  have hnot : ¬ ClientGoBackN.inWindow lastExpected 0xFFFFFFFF := by decide
  refine ⟨?_, by decide, by decide, hnot⟩
  intro h
  apply hnot
  apply h.goBackN.mpr
  decide

end ClientRdtStrategy
