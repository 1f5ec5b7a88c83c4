import RdtProtocol.Transfer.GoBackNSafety
import RdtProtocol.Transfer.Safety

/-!
This module contains what a data packet whose checksum is wrong does to a client.
-/

namespace Transfer

open ClientRdtStrategy

/--
Nothing of what the client has received has changed, and it has not acknowledged anything new.
-/
structure ClientUnaffected (c c' : ClientRdtStrategy) : Prop where
  expectedSeqno_eq : c'.expectedSeqno = c.expectedSeqno
  window_eq : c'.window = c.window
  output_eq : c'.output = c.output
  done_eq : c'.done = c.done
  acks
    : c'.acks = c.acks
      ∨ ∃ n, c'.acks = c.acks ++ [AckPacket.new n]
        ∧ (n < c.expectedSeqno ∨ n = c.expectedSeqno - 1)

variable {c : ClientRdtStrategy} {p : DataPacket}

theorem clientUnaffected_refl (c : ClientRdtStrategy) : ClientUnaffected c c :=
  ⟨rfl, rfl, rfl, rfl, .inl rfl⟩

theorem clientUnaffected_receive_goBackN_iff (hcksum : p.cksum ≠ p.calculateChecksum)
    : ClientUnaffected c (ClientGoBackN.receive c p)
        ↔ (c.done = true ∨ p.data ≠ [] ∨ ¬ ClientGoBackN.inWindow c p.seqno) := by
  rw [ClientGoBackN.receive_of_corrupted hcksum]
  split
  . next hwindow =>
    split
    . next hdata =>
      have hiff : ClientUnaffected c { c with done := true } ↔ c.done = true := by
        constructor
        . intro h
          exact h.done_eq.symm
        . intro hdone
          exact ⟨rfl, rfl, rfl, hdone.symm, .inl rfl⟩
      simp [hiff, hdata, hwindow]
    . next hdata =>
      apply iff_of_true
      . exact ⟨rfl, rfl, rfl, rfl, .inr ⟨_, rfl, .inr rfl⟩⟩
      . exact .inr (.inl hdata)
  . next hwindow =>
    apply iff_of_true
    . apply clientUnaffected_refl
    . exact .inr (.inr hwindow)

theorem clientUnaffected_iff (cfg : Config) (c : ClientRdtStrategy) {datagram : Bytes}
    (hlen : HEADER_SIZE ≤ datagram.length)
    : ∃ p c',
        recvPacket datagram = some p
          ∧ runClient cfg c datagram = some c'
          ∧ (p.cksum ≠ p.calculateChecksum →
              (ClientUnaffected c c'
                ↔ (cfg.mode ≠ .goBackN ∨ c.done = true ∨ p.data ≠ []
                  ∨ ¬ ClientGoBackN.inWindow c p.seqno))) := by
  obtain ⟨p, hp⟩ := Option.isSome_iff_exists.mp (recvPacket_isSome hlen)
  by_cases hmode : cfg.mode = .goBackN
  . refine ⟨p, ClientGoBackN.receive c p, hp, ?_, ?_⟩
    . simp [runClient, hmode, ClientGoBackN.run, hp]
    . intro hcksum
      rw [clientUnaffected_receive_goBackN_iff hcksum]
      simp [hmode]
  . refine ⟨p, ClientSelectiveRepeat.receive c p, hp, ?_, ?_⟩
    . rw [runClient_eq hmode, ClientSelectiveRepeat.run, hp]
      rfl
    . intro hcksum
      rw [ClientSelectiveRepeat.receive_of_corrupted hcksum]
      exact iff_of_true (clientUnaffected_refl c) (.inl hmode)

def corruptedPacket : DataPacket :=
  { cksum := 0, len := 8, seqno := 0, data := [] }

theorem clientUnaffected_sampleConfig
    : ∃ p c',
        recvPacket corruptedPacket.pack = some p
          ∧ runClient sampleConfig (newClientStrategy sampleConfig) corruptedPacket.pack = some c'
          ∧ (p.cksum ≠ p.calculateChecksum →
              (ClientUnaffected (newClientStrategy sampleConfig) c'
                ↔ (sampleConfig.mode ≠ .goBackN ∨ (newClientStrategy sampleConfig).done = true
                  ∨ p.data ≠ []
                  ∨ ¬ ClientGoBackN.inWindow (newClientStrategy sampleConfig) p.seqno))) :=
  clientUnaffected_iff sampleConfig (newClientStrategy sampleConfig) (by decide)

theorem clientAffected_goBackN
    : recvPacket corruptedPacket.pack = some corruptedPacket
      ∧ corruptedPacket.cksum ≠ corruptedPacket.calculateChecksum
      ∧ ∃ c',
          runClient sampleGbnConfig (newClientStrategy sampleGbnConfig) corruptedPacket.pack = some c'
            ∧ ¬ ClientUnaffected (newClientStrategy sampleGbnConfig) c' := by
  refine ⟨by decide, by decide, Option.get _ ?_, (Option.some_get _).symm, ?_⟩
  . decide
  . intro h
    exact absurd h.done_eq (by decide)

end Transfer
