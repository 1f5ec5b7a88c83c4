import RdtProtocol.Client.Strategy.SelectiveRepeatOrder

/-!
This module contains what the selective repeat receiver does with a packet that it has accepted before.
-/

namespace ClientSelectiveRepeat

open ClientRdtStrategy

variable {t t' : Trace} {c c' : ClientRdtStrategy} {p : DataPacket} {windowSize : Int}

theorem delivered_append_window (c : ClientRdtStrategy) (window : List DataPacket)
    : delivered c window ++ (deliverBufferedPackets.go c window).window = window := by
  induction window generalizing c with
  | nil => rfl
  | cons q window ih =>
    unfold delivered deliverBufferedPackets.go
    split
    . rw [List.cons_append, ih]
    . rfl

theorem expectedSeqno_go (c : ClientRdtStrategy) (window : List DataPacket)
    : (deliverBufferedPackets.go c window).expectedSeqno
        = c.expectedSeqno + UInt32.ofNat (delivered c window).length := by
  induction window generalizing c with
  | nil => simp [deliverBufferedPackets.go, delivered]
  | cons q window ih =>
    unfold delivered deliverBufferedPackets.go
    split
    . rw [ih, List.length_cons, PacketPtr.add_ofNat_add_one]
      rfl
    . simp

theorem mem_of_mem_receive {packet : DataPacket}
    (hp : p ∈ (t.receive packet).written ++ (t.receive packet).client.window)
    : p ∈ t.written ++ t.client.window ∨ p = packet ∧ Buffers t.client packet := by
  by_cases hb : Buffers t.client packet
  . have hsplit : p ∈ t.written ++ (buffer t.client packet).window := by
      simp only [Trace.receive, writes, hb, true_and, receive_of_buffers hb] at hp
      split at hp
      . simp only [sendAck, deliverBufferedPackets] at hp
        rwa [List.append_assoc, delivered_append_window] at hp
      . rwa [List.append_nil] at hp
    rw [List.mem_append] at hsplit
    cases hsplit with
    | inl hp => exact .inl (List.mem_append_left _ hp)
    | inr hp =>
      cases OrderedSet.mem_or_eq_of_mem_insert hp with
      | inl hp => exact .inr ⟨hp, hb⟩
      | inr hp => exact .inl (List.mem_append_right _ hp)
  . obtain ⟨done, acks, heq, _⟩ := ClientSelectiveRepeat.receive_of_not_buffers hb
    have hwrites : writes t.client packet = [] := by
      rw [writes, if_neg (fun hboth => hb hboth.1)]
    simp only [Trace.receive, heq, hwrites, List.append_nil] at hp
    exact .inl hp

theorem intact_of_accepted (h : StepFn.Reachable Trace.run (Trace.new windowSize) t)
    : ∀ p ∈ t.written ++ t.client.window, p.cksum = p.calculateChecksum ∧ p.data ≠ [] := by
  apply h.invariant (P := fun s => ∀ p ∈ s.written ++ s.client.window,
    p.cksum = p.calculateChecksum ∧ p.data ≠ [])
  . intro p hp
    simp [Trace.new, ClientSelectiveRepeat.new, ClientRdtStrategy.new] at hp
  . intro s datagram s' ih hrun p hp
    rw [Trace.run, Option.map_eq_some_iff] at hrun
    obtain ⟨packet, _, rfl⟩ := hrun
    cases mem_of_mem_receive hp with
    | inl hp => exact ih p hp
    | inr hp =>
      obtain ⟨rfl, _, hcksum, hdata, _⟩ := hp
      exact ⟨hcksum, hdata⟩

/--
The ACK of `p` is sent once more, and nothing else happens.
-/
structure Reacknowledged (c : ClientRdtStrategy) (p : DataPacket) (c' : ClientRdtStrategy) : Prop where
  acks_eq : c'.acks = c.acks ++ [AckPacket.new p.seqno]
  expectedSeqno_eq : c'.expectedSeqno = c.expectedSeqno
  window_eq : c'.window = c.window
  output_eq : c'.output = c.output

theorem not_reacknowledged_of_buffers (h : Buffers c p) : ¬ Reacknowledged c p (receive c p) := by
  intro hre
  have hlength : (buffer c p).window.length = c.window.length + 1 :=
    (OrderedSet.perm_insert h.2.2.2).length_eq
  have hwindow := congrArg List.length hre.window_eq
  rw [receive_of_buffers h] at hwindow
  by_cases hseqno : p.seqno = c.expectedSeqno
  . have hexpected := hre.expectedSeqno_eq
    have hsplit := congrArg List.length (delivered_append_window (buffer c p) (buffer c p).window)
    rw [receive_of_buffers h, if_pos hseqno] at hexpected
    rw [if_pos hseqno] at hwindow
    simp only [sendAck, deliverBufferedPackets, expectedSeqno_go] at hwindow hexpected
    rw [List.length_append, hwindow, hlength] at hsplit
    have hone : (delivered (buffer c p) (buffer c p).window).length = 1 := by omega
    rw [hone] at hexpected
    have hnat := congrArg UInt32.toNat hexpected
    have hlt := c.expectedSeqno.toNat_lt
    rw [UInt32.toNat_add] at hnat
    simp only [buffer, UInt32.reduceOfNat, UInt32.reduceToNat] at hnat
    omega
  . rw [if_neg hseqno] at hwindow
    simp only [sendAck] at hwindow
    omega

theorem reacknowledged_receive_iff (hcksum : p.cksum = p.calculateChecksum)
    : Reacknowledged c p (receive c p) ↔ p.seqno < c.expectedSeqno := by
  constructor
  . intro hre
    by_cases hb : Buffers c p
    . exact absurd hre (not_reacknowledged_of_buffers hb)
    . obtain ⟨done, acks, heq, hacks⟩ := ClientSelectiveRepeat.receive_of_not_buffers hb
      cases hacks with
      | inl hacks =>
        rw [heq, hacks] at hre
        have := congrArg List.length hre.acks_eq
        simp at this
      | inr hacks => exact hacks.1
  . intro hlt
    rw [receive_of_lt hlt hcksum]
    exact ⟨rfl, rfl, rfl, rfl⟩

theorem run_accepted_iff (h : StepFn.Reachable Trace.run (Trace.new windowSize) t)
    (hp : p ∈ t.written ++ t.client.window) {datagram : Bytes}
    (hcopy : recvPacket datagram = some p)
    : ∃ c', run t.client datagram = some c'
        ∧ (Reacknowledged t.client p c' ↔ p.seqno < t.client.expectedSeqno) := by
  obtain ⟨hcksum, _⟩ := intact_of_accepted h p hp
  refine ⟨receive t.client p, ?_, reacknowledged_receive_iff hcksum⟩
  rw [run, hcopy, Option.map_some]

theorem lt_expectedSeqno_iff_mem_written (hsize : 0 ≤ windowSize)
    (h : StepFn.Reachable Trace.run (Trace.new windowSize) t) (hlt : t.written.length < 2 ^ 32 - 1)
    (hp : p ∈ t.written ++ t.client.window)
    : p.seqno < t.client.expectedSeqno ↔ p ∈ t.written := by
  obtain ⟨hinv, _⟩ := (TraceInv.new windowSize).of_reachable hsize h hlt
  have hdelivered := hinv.deliveredFrom
  rw [UInt32.lt_iff_toNat_lt, hdelivered.toNat_expectedSeqno (by omega)]
  constructor
  . intro hbefore
    cases List.mem_append.mp hp with
    | inl hp => exact hp
    | inr hp =>
      have := hdelivered.lower p hp
      omega
  . intro hp
    exact hdelivered.lt_of_mem_written hp

theorem run_accepted_sampleDelivered
    : ∃ c', run sampleDelivered.client (DataPacket.new [20] 2).pack = some c'
        ∧ (Reacknowledged sampleDelivered.client (DataPacket.new [20] 2) c'
          ↔ (DataPacket.new [20] 2).seqno < sampleDelivered.client.expectedSeqno) := by
  have h : StepFn.Reachable Trace.run (Trace.new 2) sampleDelivered :=
    .step (.step .init trivial (Option.some_get _).symm) trivial (Option.some_get _).symm
  exact run_accepted_iff h (by decide +kernel) (by decide +kernel)

theorem not_reacknowledged_sampleBuffered
    : StepFn.Reachable Trace.run (Trace.new 2) sampleBuffered
        ∧ sampleBuffered.client.done = false
        ∧ DataPacket.new [20] 2 ∈ sampleBuffered.written ++ sampleBuffered.client.window
        ∧ recvPacket (DataPacket.new [20] 2).pack = some (DataPacket.new [20] 2)
        ∧ ¬ ∃ c', run sampleBuffered.client (DataPacket.new [20] 2).pack = some c'
          ∧ Reacknowledged sampleBuffered.client (DataPacket.new [20] 2) c' := by
  refine ⟨.step .init trivial (Option.some_get _).symm, by decide +kernel, by decide +kernel,
    by decide +kernel, ?_⟩
  intro ⟨c', hrun, hre⟩
  have hsame : (run sampleBuffered.client (DataPacket.new [20] 2).pack).map (·.acks)
      = some sampleBuffered.client.acks := by
    decide +kernel
  rw [hrun, Option.map_some, Option.some.injEq] at hsame
  have := congrArg List.length hre.acks_eq
  rw [hsame, List.length_append, List.length_singleton] at this
  omega

end ClientSelectiveRepeat
