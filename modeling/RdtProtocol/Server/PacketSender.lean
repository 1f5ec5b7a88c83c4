import RdtProtocol.Shared.Packet
import RdtProtocol.Util.StepFn

/-!
This module contains `packet_sender`, which loses datagrams at random and tells its caller when the
loss sequence has it that three duplicate ACKs have come in. The numbers that the distribution yields
are given from outside.
-/

structure PacketSenderConfig (α : Type) where
  lossSequence : List Int
  lossProbability : α
  distribution : Nat → α

structure PacketSender where
  packetNumber : UInt64
  lossSequenceIndex : Nat
  drawn : Nat
  datagrams : List Bytes

namespace PacketSender

variable {α : Type} [LT α] [DecidableLT α]

def init : PacketSender :=
  {
    packetNumber := 1
    lossSequenceIndex := 0
    drawn := 0
    datagrams := []
  }

-- Undefined where the index is out of range, and where the remainder is by zero. The sequence has been
-- counted with an `int` when it was read, so that its length is one.
def sendPacket (cfg : PacketSenderConfig α) (s : PacketSender) (packet : DataPacket)
    : Option (Bool × PacketSender) :=
  match cfg.lossSequence[s.lossSequenceIndex]? with
  | none => none
  | some modulus =>
    if uint64 modulus = 0 then
      none
    else if s.packetNumber % uint64 modulus ≠ 0 then
      let sent :=
        if cfg.distribution s.drawn > cfg.lossProbability then
          s.datagrams ++ [packet.pack]
        else
          s.datagrams
      some (
        false,
        { s with packetNumber := s.packetNumber + 1, drawn := s.drawn + 1, datagrams := sent }
      )
    else
      some (
        true,
        {
          s with
            packetNumber := 1
            lossSequenceIndex := (s.lossSequenceIndex + 1) % cfg.lossSequence.length
            datagrams := s.datagrams ++ [packet.pack]
        }
      )

def sendAll (cfg : PacketSenderConfig α) (s : PacketSender) (packets : List DataPacket)
    : Option PacketSender :=
  StepFn.run (fun s packet => (sendPacket cfg s packet).map (·.2)) s packets

def run (cfg : PacketSenderConfig α) (packets : List DataPacket) : Option PacketSender :=
  sendAll cfg init packets

end PacketSender
