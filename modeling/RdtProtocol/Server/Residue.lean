import RdtProtocol.Server.Routing
import RdtProtocol.Shared.PacketLemmas

/-!
This module compares what two runs of the server that receive datagrams of different contents make of
the same datagram. The buffer still has what an earlier datagram left behind the received bytes.
-/

namespace Server

def Event.erase : Event → Event
  | .recvfrom address _ tid => .recvfrom address [] tid
  | e => e

def queued (s s' : Server) (tid : Nat) : List AckPacket :=
  (s'.workerThreadsAcks tid).drop (s.workerThreadsAcks tid).length

def Determined (cfg : Config) (buffer : Nat → UInt8) (address : Address) (datagram : Bytes) : Prop :=
  ∀ es1 es2 s1 s2 s1' s2' tid t1 t2, es1.map Event.erase = es2.map Event.erase
    → StepFn.run (step cfg) (init buffer) es1 = some s1
    → StepFn.run (step cfg) (init buffer) es2 = some s2
    → s1.registeredClients address = some t1 → s2.registeredClients address = some t2
    → step cfg s1 (.recvfrom address datagram tid) = some s1'
    → step cfg s2 (.recvfrom address datagram tid) = some s2'
    → queued s1 s1' t1 = queued s2 s2' t2

variable {cfg : Config} {buffer : Nat → UInt8} {s s' : Server} {address : Address} {datagram : Bytes}
variable {tid t : Nat}

theorem queued_recvfrom (ht : s.registeredClients address = some t)
    (h : step cfg s (.recvfrom address datagram tid) = some s')
    : queued s s' t = [ackPacket (s.recvfrom datagram).buffer] := by
  cases Step.of_step h with
  | ack _ ht' =>
    rw [ht] at ht'
    cases ht'
    simp [queued, pushAck, recvfrom]
  | request _ hnone => simp [ht] at hnone
  | malformed _ hnone => simp [ht] at hnone
  | crash _ hcrash => cases hcrash

theorem ackPacket_recvfrom (s1 s2 : Server) (h : ACK_PKT_LEN ≤ datagram.length)
    : ackPacket (s1.recvfrom datagram).buffer = ackPacket (s2.recvfrom datagram).buffer := by
  have hlen : ACK_PKT_LEN ≤ (truncate datagram).length := by
    rw [truncate, List.length_take]
    simp only [ACK_PKT_LEN, MAX_UDP_BUFFER_SIZE] at *
    omega
  simp only [ackPacket, recvfrom, string_fill _ hlen]

theorem cksum_ackPacket (buffer : Nat → UInt8)
    : (ackPacket buffer).cksum = unpack16 (buffer 6) (buffer 7) := by
  rfl

def headerRequest (last : UInt8) : Bytes :=
  [0, 0, 0, 0, 0, 0, 0, last]

theorem run_register (cfg : Config) (buffer : Nat → UInt8) (address : Address) (last : UInt8)
    : ∃ s, StepFn.run (step cfg) (init buffer)
          [.recvfrom address (headerRequest last) 0, .register, .insert] = some s
        ∧ s.running = true ∧ s.mainThread = .receiving ∧ s.registeredClients address = some 0
        ∧ s.buffer = fill buffer (headerRequest last) :=
  ⟨_, rfl, rfl, rfl, Function.update_self _ _ _, rfl⟩

theorem step_registered (hrun : s.running = true) (hmain : s.mainThread = .receiving)
    (ht : s.registeredClients address = some t)
    : step cfg s (.recvfrom address datagram tid)
        = some ((s.recvfrom datagram).pushAck address t (ackPacket (s.recvfrom datagram).buffer)) := by
  have hreg : (s.recvfrom datagram).registeredClients address = some t := ht
  simp [step, hrun, Event.worker, stepMain, hmain, start, hreg]

theorem cksum_of_short (h : datagram.length < ACK_PKT_LEN) (last : UInt8)
    (hbuffer : s.buffer = fill buffer (headerRequest last))
    : (ackPacket (s.recvfrom datagram).buffer).cksum
        = unpack16 ((truncate datagram)[6]?.getD 0) last := by
  have hlen : (truncate datagram).length ≤ 7 := by
    rw [truncate, List.length_take]
    simp only [ACK_PKT_LEN] at h
    omega
  simp [cksum_ackPacket, recvfrom, fill, hbuffer, headerRequest, hlen]

theorem length_le_of_determined (h : Determined cfg buffer address datagram)
    : ACK_PKT_LEN ≤ datagram.length := by
  by_contra hlt
  obtain ⟨s1, hrun1, hrunning1, hmain1, hreg1, hbuffer1⟩ := run_register cfg buffer address 0
  obtain ⟨s2, hrun2, hrunning2, hmain2, hreg2, hbuffer2⟩ := run_register cfg buffer address 1
  have hstep1 : step cfg s1 (.recvfrom address datagram 0) = _ :=
    step_registered hrunning1 hmain1 hreg1
  have hstep2 : step cfg s2 (.recvfrom address datagram 0) = _ :=
    step_registered hrunning2 hmain2 hreg2
  have hqueued := h [.recvfrom address (headerRequest 0) 0, .register, .insert]
    [.recvfrom address (headerRequest 1) 0, .register, .insert] s1 s2 _ _ 0 0 0 rfl hrun1 hrun2 hreg1
    hreg2 hstep1 hstep2
  rw [queued_recvfrom hreg1 hstep1, queued_recvfrom hreg2 hstep2, List.singleton_inj] at hqueued
  have hcksum := congrArg AckPacket.cksum hqueued
  rw [cksum_of_short (Nat.lt_of_not_le hlt) 0 hbuffer1,
    cksum_of_short (Nat.lt_of_not_le hlt) 1 hbuffer2, ← UInt16.toNat_inj, toNat_unpack16,
    toNat_unpack16] at hcksum
  simp at hcksum

theorem determined_iff (cfg : Config) (buffer : Nat → UInt8) (address : Address) (datagram : Bytes)
    : Determined cfg buffer address datagram ↔ ACK_PKT_LEN ≤ datagram.length := by
  constructor
  . intro h
    exact length_le_of_determined h
  . intro hlen es1 es2 s1 s2 s1' s2' tid t1 t2 _ _ _ hreg1 hreg2 hstep1 hstep2
    rw [queued_recvfrom hreg1 hstep1, queued_recvfrom hreg2 hstep2, ackPacket_recvfrom s1 s2 hlen]

theorem not_determined_empty
    : ¬ ∀ datagram, Determined sampleConfig (fun _ => 0) (sampleClient 1) datagram := by
  intro h
  have hlen := length_le_of_determined (h [])
  simp [ACK_PKT_LEN] at hlen

end Server
