import RdtProtocol.Client.Strategy.SelectiveRepeatLemmas
import RdtProtocol.Util.StepFn

/-!
This module contains the selective repeat receiver together with the packets that it has written so far,
and what holds of them whatever datagrams arrive.
-/

namespace ClientSelectiveRepeat

open ClientRdtStrategy

-- The packets that `deliverBufferedPackets.go` writes.
def delivered (c : ClientRdtStrategy) : List DataPacket → List DataPacket
  | [] => []
  | pkt :: window =>
    if pkt.seqno = c.expectedSeqno then
      pkt :: delivered (c.writeData pkt) window
    else
      []

def Buffers (c : ClientRdtStrategy) (packet : DataPacket) : Prop :=
  inWindow c packet.seqno ∧ packet.cksum = packet.calculateChecksum ∧ packet.data ≠ []
    ∧ OrderedSet.contains (·.seqno.toNat) packet c.window = false

instance (c : ClientRdtStrategy) (packet : DataPacket) : Decidable (Buffers c packet) :=
  inferInstanceAs (Decidable (_ ∧ _))

def buffer (c : ClientRdtStrategy) (packet : DataPacket) : ClientRdtStrategy :=
  { c with window := OrderedSet.insert (·.seqno.toNat) packet c.window }

def writes (c : ClientRdtStrategy) (packet : DataPacket) : List DataPacket :=
  if Buffers c packet ∧ packet.seqno = c.expectedSeqno then
    delivered (buffer c packet) (buffer c packet).window
  else
    []

structure Trace where
  client : ClientRdtStrategy
  written : List DataPacket

namespace Trace

def new (windowSize : Int) : Trace :=
  { client := ClientSelectiveRepeat.new windowSize, written := [] }

def receive (t : Trace) (packet : DataPacket) : Trace :=
  {
    client := ClientSelectiveRepeat.receive t.client packet
    written := t.written ++ writes t.client packet
  }

def run (t : Trace) (datagram : Bytes) : Option Trace :=
  (recvPacket datagram).map t.receive

theorem client_run (t : Trace) (datagram : Bytes)
    : (t.run datagram).map (·.client) = ClientSelectiveRepeat.run t.client datagram := by
  unfold run ClientSelectiveRepeat.run
  rw [Option.map_map]
  rfl

end Trace

theorem receive_of_buffers {c : ClientRdtStrategy} {packet : DataPacket} (h : Buffers c packet)
    : receive c packet
        =
      (if packet.seqno = c.expectedSeqno then
          deliverBufferedPackets (buffer c packet)
        else
          buffer c packet).sendAck (AckPacket.new packet.seqno) := by
  obtain ⟨hwindow, hcksum, hdata, hnew⟩ := h
  simp [receive, buffer, isTerminalPkt, hwindow, hcksum, hdata, hnew]

theorem receive_of_not_buffers {c : ClientRdtStrategy} {packet : DataPacket}
    (h : ¬ Buffers c packet)
    : ∃ done acks,
        receive c packet = { c with done, acks }
          ∧ (acks = c.acks
            ∨ packet.seqno < c.expectedSeqno ∧ acks = c.acks ++ [AckPacket.new packet.seqno]) := by
  unfold receive
  dsimp only
  split
  . next hwindow =>
    split
    . exact ⟨true, c.acks, rfl, .inl rfl⟩
    . next hdata =>
      split
      . exact ⟨c.done, c.acks, rfl, .inl rfl⟩
      . next hnew =>
        apply absurd _ h
        simp only [isTerminalPkt, decide_eq_true_eq, List.length_eq_zero_iff] at hdata
        exact ⟨hwindow.1, by simpa using hwindow.2, hdata, by simpa using hnew⟩
  . split
    . next hlt => exact ⟨c.done, _, rfl, .inr ⟨hlt.1, rfl⟩⟩
    . exact ⟨c.done, c.acks, rfl, .inl rfl⟩

variable {first n : Nat} {output : Bytes} {t t' : Trace} {c : ClientRdtStrategy}

theorem toNat_eq_of_seqno_eq {packet : DataPacket} (hle : n ≤ packet.seqno.toNat)
    (heq : packet.seqno = UInt32.ofNat n)
    : packet.seqno.toNat = n := by
  have := packet.seqno.toNat_lt
  rw [heq, UInt32.toNat_ofNat', Nat.mod_eq_of_lt (by omega)]

theorem deliverBufferedPackets.go_eq (window : List DataPacket)
    (hexpected : c.expectedSeqno = UInt32.ofNat n)
    (hsorted : OrderedSet.Sorted (·.seqno.toNat) window) (hlower : ∀ q ∈ window, n ≤ q.seqno.toNat)
    : ∃ rest,
        window = delivered c window ++ rest
          ∧ deliverBufferedPackets.go c window
              =
            {
              c with
                window := rest
                expectedSeqno := UInt32.ofNat (n + (delivered c window).length)
                output := c.output ++ (delivered c window).flatMap (·.data)
            }
          ∧ (delivered c window).map (·.seqno.toNat) = List.range' n (delivered c window).length
          ∧ ∀ q ∈ rest, n + (delivered c window).length < q.seqno.toNat := by
  induction window generalizing c n with
  | nil => exact ⟨[], by simp [delivered, deliverBufferedPackets.go, ← hexpected]⟩
  | cons q window ih =>
    simp only [OrderedSet.Sorted, List.pairwise_cons] at hsorted
    have hle := hlower q (by simp)
    by_cases hseqno : q.seqno = c.expectedSeqno
    . have hnat := toNat_eq_of_seqno_eq hle (hseqno.trans hexpected)
      have hnext : (c.writeData q).expectedSeqno = UInt32.ofNat (n + 1) := by
        simp only [writeData, hexpected, UInt32.ofNat_add]
        rfl
      have hrest : ∀ r ∈ window, n + 1 ≤ r.seqno.toNat := by
        intro r hr
        have := hsorted.1 r hr
        omega
      obtain ⟨rest, hwindow, hgo, hseqnos, habove⟩ := ih hnext hsorted.2 hrest
      refine ⟨rest, ?_, ?_, ?_, ?_⟩
      . rw [delivered, if_pos hseqno, List.cons_append, ← hwindow]
      . rw [deliverBufferedPackets.go, if_pos hseqno, hgo, delivered, if_pos hseqno]
        simp [writeData, Nat.add_assoc, Nat.add_comm 1]
      . rw [delivered, if_pos hseqno, List.map_cons, hseqnos, hnat, List.length_cons,
          List.range'_succ]
      . intro r hr
        have := habove r hr
        rw [delivered, if_pos hseqno, List.length_cons]
        omega
    . have hlt : n < q.seqno.toNat := by
        apply Nat.lt_of_le_of_ne hle
        intro heq
        apply hseqno
        rw [hexpected, heq, UInt32.ofNat_toNat]
      refine ⟨q :: window, ?_, ?_, ?_, ?_⟩
      . rw [delivered, if_neg hseqno, List.nil_append]
      . rw [deliverBufferedPackets.go, if_neg hseqno, delivered, if_neg hseqno]
        simp [← hexpected]
      . rw [delivered, if_neg hseqno]
        rfl
      . rw [delivered, if_neg hseqno]
        intro r hr
        rw [List.mem_cons] at hr
        cases hr with
        | inl hr => exact hr ▸ hlt
        | inr hr => exact Nat.lt_trans hlt (hsorted.1 r hr)

/--
The packets from the number `first` on have been written, behind what was in the file before.
-/
structure DeliveredFrom (first : Nat) (output : Bytes) (t : Trace) : Prop where
  expectedSeqno_eq : t.client.expectedSeqno = UInt32.ofNat (first + t.written.length)
  seqnos_eq : t.written.map (·.seqno.toNat) = List.range' first t.written.length
  output_eq : t.client.output = output ++ t.written.flatMap (·.data)
  sorted : OrderedSet.Sorted (·.seqno.toNat) t.client.window
  lower : ∀ q ∈ t.client.window, first + t.written.length < q.seqno.toNat
  upper
    : ∀ q ∈ t.client.window,
        (q.seqno.toNat : Int) < first + t.written.length + t.client.windowSize

theorem DeliveredFrom.new (windowSize : Int) : DeliveredFrom 1 [] (Trace.new windowSize) := by
  constructor
  . rfl
  . rfl
  . rfl
  . simp [Trace.new, ClientSelectiveRepeat.new, ClientRdtStrategy.new, OrderedSet.Sorted]
  . simp [Trace.new, ClientSelectiveRepeat.new, ClientRdtStrategy.new]
  . simp [Trace.new, ClientSelectiveRepeat.new, ClientRdtStrategy.new]

theorem DeliveredFrom.toNat_expectedSeqno (h : DeliveredFrom first output t)
    (hlt : first + t.written.length < 2 ^ 32)
    : t.client.expectedSeqno.toNat = first + t.written.length := by
  rw [h.expectedSeqno_eq, UInt32.toNat_ofNat', Nat.mod_eq_of_lt hlt]

theorem lt_of_inWindow {seqno : UInt32} (hsize : 0 ≤ c.windowSize) (h : inWindow c seqno)
    : (seqno.toNat : Int) < c.expectedSeqno.toNat + c.windowSize := by
  have hlt := Nat.lt_of_lt_of_le h.2 (Nat.mod_le _ _)
  rw [sizeT_of_nonneg hsize] at hlt
  omega

theorem DeliveredFrom.window_buffer (h : DeliveredFrom first output t) (hsize : 0 ≤ t.client.windowSize)
    (hlt : first + t.written.length < 2 ^ 32) {packet : DataPacket} (hb : Buffers t.client packet)
    : let window := (buffer t.client packet).window
      OrderedSet.Sorted (·.seqno.toNat) window
        ∧ window.Perm (packet :: t.client.window)
        ∧ (∀ q ∈ window, first + t.written.length ≤ q.seqno.toNat)
        ∧ ∀ q ∈ window,
            (q.seqno.toNat : Int) < first + t.written.length + t.client.windowSize := by
  have hperm := OrderedSet.perm_insert hb.2.2.2
  have hexpected := h.toNat_expectedSeqno hlt
  refine ⟨h.sorted.insert, hperm, ?_, ?_⟩
  . intro q hq
    have hle := UInt32.le_iff_toNat_le.mp hb.1.1
    cases List.mem_cons.mp (hperm.mem_iff.mp hq) with
    | inl heq => exact heq ▸ hexpected ▸ hle
    | inr hmem => exact Nat.le_of_lt (h.lower q hmem)
  . intro q hq
    have hupper := lt_of_inWindow hsize hb.1
    cases List.mem_cons.mp (hperm.mem_iff.mp hq) with
    | inl heq =>
      rw [heq]
      omega
    | inr hmem => exact h.upper q hmem

theorem DeliveredFrom.receive_of_buffers (h : DeliveredFrom first output t)
    (hsize : 0 ≤ t.client.windowSize) (hlt : first + t.written.length < 2 ^ 32)
    {packet : DataPacket} (hb : Buffers t.client packet)
    : DeliveredFrom first output (t.receive packet)
        ∧ ((t.receive packet).written ++ (t.receive packet).client.window).Perm
            (packet :: (t.written ++ t.client.window))
        ∧ (t.receive packet).client.acks = t.client.acks ++ [AckPacket.new packet.seqno] := by
  obtain ⟨hsorted, hperm, hlower, hupper⟩ := h.window_buffer hsize hlt hb
  have hmiddle : (t.written ++ (buffer t.client packet).window).Perm
      (packet :: (t.written ++ t.client.window)) :=
    (hperm.append_left _).trans List.perm_middle
  simp only [Trace.receive, ClientSelectiveRepeat.receive_of_buffers hb]
  by_cases hseqno : packet.seqno = t.client.expectedSeqno
  . obtain ⟨rest, hwindow, hgo, hseqnos, habove⟩ :=
      deliverBufferedPackets.go_eq (c := buffer t.client packet) _ h.expectedSeqno_eq hsorted hlower
    have hwrites : writes t.client packet
        = delivered (buffer t.client packet) (buffer t.client packet).window := by
      rw [writes, if_pos ⟨hb, hseqno⟩]
    rw [if_pos hseqno, deliverBufferedPackets, hgo, ← hwrites]
    rw [← hwrites] at hwindow hseqnos habove
    rw [hwindow] at hsorted hupper hmiddle
    refine ⟨⟨?_, ?_, ?_, ?_, ?_, ?_⟩, ?_, rfl⟩
    . simp only [sendAck, List.length_append, Nat.add_assoc]
    . simp only [List.map_append, h.seqnos_eq, hseqnos, List.length_append, List.range'_append_1]
    . simp only [sendAck, ClientSelectiveRepeat.buffer, h.output_eq, List.flatMap_append,
        List.append_assoc]
    . exact (List.pairwise_append.mp hsorted).2.1
    . intro q hq
      have := habove q hq
      rw [List.length_append]
      omega
    . intro q hq
      have := hupper q (List.mem_append_right _ hq)
      simp only [sendAck, ClientSelectiveRepeat.buffer, List.length_append]
      omega
    . simpa only [List.append_assoc, sendAck] using hmiddle
  . have hwrites : writes t.client packet = [] := by
      rw [writes, if_neg (fun hboth => hseqno hboth.2)]
    rw [if_neg hseqno, hwrites, List.append_nil]
    refine ⟨⟨h.expectedSeqno_eq, h.seqnos_eq, h.output_eq, hsorted, ?_, hupper⟩, hmiddle, rfl⟩
    intro q hq
    apply Nat.lt_of_le_of_ne (hlower q hq)
    intro heq
    cases List.mem_cons.mp (hperm.mem_iff.mp hq) with
    | inl hself =>
      apply hseqno
      rw [h.expectedSeqno_eq, heq, hself, UInt32.ofNat_toNat]
    | inr hmem =>
      have := h.lower q hmem
      omega

theorem DeliveredFrom.receive_of_not_buffers (h : DeliveredFrom first output t)
    {packet : DataPacket} (hb : ¬ Buffers t.client packet)
    : DeliveredFrom first output (t.receive packet)
        ∧ (t.receive packet).written = t.written
        ∧ (t.receive packet).client.window = t.client.window
        ∧ ((t.receive packet).client.acks = t.client.acks
          ∨ packet.seqno < t.client.expectedSeqno
            ∧ (t.receive packet).client.acks
                = t.client.acks ++ [AckPacket.new packet.seqno]) := by
  obtain ⟨done, acks, heq, hacks⟩ := ClientSelectiveRepeat.receive_of_not_buffers hb
  have hwrites : writes t.client packet = [] := by
    rw [writes, if_neg (fun hboth => hb hboth.1)]
  simp only [Trace.receive, heq, hwrites, List.append_nil]
  exact ⟨⟨h.expectedSeqno_eq, h.seqnos_eq, h.output_eq, h.sorted, h.lower, h.upper⟩, trivial, trivial,
    hacks⟩

theorem DeliveredFrom.receive (h : DeliveredFrom first output t) (hsize : 0 ≤ t.client.windowSize)
    (hlt : first + t.written.length < 2 ^ 32) (packet : DataPacket)
    : DeliveredFrom first output (t.receive packet)
        ∧ t.written.length ≤ (t.receive packet).written.length
        ∧ ∀ q ∈ t.written ++ t.client.window,
            q ∈ (t.receive packet).written ++ (t.receive packet).client.window := by
  have hlength : t.written.length ≤ (t.receive packet).written.length := by
    simp [Trace.receive]
  by_cases hb : Buffers t.client packet
  . obtain ⟨hinv, hperm, _⟩ := h.receive_of_buffers hsize hlt hb
    refine ⟨hinv, hlength, ?_⟩
    intro q hq
    exact hperm.mem_iff.mpr (List.mem_cons_of_mem _ hq)
  . obtain ⟨hinv, hwritten, hwindow, _⟩ := h.receive_of_not_buffers hb
    refine ⟨hinv, hlength, ?_⟩
    intro q hq
    rw [hwritten, hwindow]
    exact hq

theorem DeliveredFrom.mem_written (h : DeliveredFrom first output t) {k : Nat} (hle : first ≤ k)
    (hlt : k < first + t.written.length)
    : ∃ p ∈ t.written, p.seqno.toNat = k := by
  have hmem : k ∈ t.written.map (·.seqno.toNat) := by
    rw [h.seqnos_eq, List.mem_range'_1]
    exact ⟨hle, hlt⟩
  simpa only [List.mem_map] using hmem

-- What holds from the first call of `run` on. The number 0 is none of a packet that can be delivered.
structure TraceInv (windowSize : Int) (t : Trace) : Prop where
  deliveredFrom : DeliveredFrom 1 [] t
  windowSize_eq : t.client.windowSize = windowSize
  acknowledged
    : ∀ a ∈ t.client.acks, 1 ≤ a.ackno → ∃ p ∈ t.written ++ t.client.window, p.seqno = a.ackno

theorem TraceInv.new (windowSize : Int) : TraceInv windowSize (Trace.new windowSize) := by
  refine ⟨DeliveredFrom.new windowSize, rfl, ?_⟩
  intro a ha
  simp [Trace.new, ClientSelectiveRepeat.new, ClientRdtStrategy.new] at ha

variable {windowSize : Int}

theorem TraceInv.receive (h : TraceInv windowSize t) (hsize : 0 ≤ windowSize)
    (hlt : t.written.length < 2 ^ 32 - 1) (packet : DataPacket)
    : TraceInv windowSize (t.receive packet) := by
  have hnext : 1 + t.written.length < 2 ^ 32 := by omega
  rw [← h.windowSize_eq] at hsize
  obtain ⟨hinv, _, hkept⟩ := h.deliveredFrom.receive hsize hnext packet
  refine ⟨hinv, (windowSize_receive _ _).trans h.windowSize_eq, ?_⟩
  intro a ha hone
  have hold (hmem : a ∈ t.client.acks) : ∃ p ∈ (t.receive packet).written
      ++ (t.receive packet).client.window, p.seqno = a.ackno := by
    obtain ⟨p, hp, hseqno⟩ := h.acknowledged a hmem hone
    exact ⟨p, hkept p hp, hseqno⟩
  by_cases hb : Buffers t.client packet
  . obtain ⟨_, hperm, hacks⟩ := h.deliveredFrom.receive_of_buffers hsize hnext hb
    rw [hacks, List.mem_append, List.mem_singleton] at ha
    cases ha with
    | inl hmem => exact hold hmem
    | inr heq =>
      refine ⟨packet, hperm.mem_iff.mpr List.mem_cons_self, ?_⟩
      rw [heq]
      rfl
  . obtain ⟨_, _, _, hacks⟩ := h.deliveredFrom.receive_of_not_buffers hb
    cases hacks with
    | inl hsame => exact hold (hsame ▸ ha)
    | inr hagain =>
      obtain ⟨hbefore, hacks⟩ := hagain
      rw [hacks, List.mem_append, List.mem_singleton] at ha
      cases ha with
      | inl hmem => exact hold hmem
      | inr heq =>
        have hackno : a.ackno = packet.seqno := by
          rw [heq]
          rfl
        rw [UInt32.lt_iff_toNat_lt, h.deliveredFrom.toNat_expectedSeqno hnext] at hbefore
        rw [hackno, UInt32.le_iff_toNat_le] at hone
        obtain ⟨p, hp, hseqno⟩ := h.deliveredFrom.mem_written hone hbefore
        refine ⟨p, hkept p (List.mem_append_left _ hp), ?_⟩
        rw [hackno]
        exact UInt32.toNat_inj.mp hseqno

theorem Trace.length_written_run {datagram : Bytes} (h : t.run datagram = some t')
    : t.written.length ≤ t'.written.length := by
  rw [Trace.run, Option.map_eq_some_iff] at h
  obtain ⟨packet, _, rfl⟩ := h
  simp [Trace.receive]

theorem Trace.length_written_le (h : StepFn.Reachable Trace.run t t')
    : t.written.length ≤ t'.written.length := by
  apply h.invariant (P := fun s => t.written.length ≤ s.written.length) (Nat.le_refl _)
  intro s datagram s' hle hrun
  exact Nat.le_trans hle (Trace.length_written_run hrun)

theorem TraceInv.of_reachable (hsize : 0 ≤ windowSize) (h : TraceInv windowSize t)
    (hreach : StepFn.Reachable Trace.run t t') (hlt : t'.written.length < 2 ^ 32 - 1)
    : TraceInv windowSize t'
        ∧ ∀ q ∈ t.written ++ t.client.window, q ∈ t'.written ++ t'.client.window := by
  revert hlt
  apply hreach.invariant (P := fun s => s.written.length < 2 ^ 32 - 1 → TraceInv windowSize s
    ∧ ∀ q ∈ t.written ++ t.client.window, q ∈ s.written ++ s.client.window)
  . intro _
    exact ⟨h, fun _ => id⟩
  . intro s datagram s' ih hrun hlt
    have hbefore := Nat.lt_of_le_of_lt (Trace.length_written_run hrun) hlt
    have hnext : 1 + s.written.length < 2 ^ 32 := by omega
    obtain ⟨hinv, hkept⟩ := ih hbefore
    rw [Trace.run, Option.map_eq_some_iff] at hrun
    obtain ⟨packet, _, rfl⟩ := hrun
    obtain ⟨_, _, hmem⟩ :=
      hinv.deliveredFrom.receive (hinv.windowSize_eq.symm ▸ hsize) hnext packet
    exact ⟨hinv.receive hsize hbefore packet, fun q hq => hmem q (hkept q hq)⟩

theorem TraceInv.length_window_le (h : TraceInv windowSize t) (hsize : 1 ≤ windowSize)
    : (t.client.window.length : Int) ≤ windowSize - 1 := by
  have hle : (1 + t.written.length + 1) + t.client.window.length
      ≤ 1 + t.written.length + windowSize.toNat := by
    apply h.deliveredFrom.sorted.length_add_le
    . exact h.deliveredFrom.lower
    . intro q hq
      have := h.deliveredFrom.upper q hq
      rw [h.windowSize_eq] at this
      omega
    . omega
  omega

theorem invariants_of_reachable (hsize : 1 ≤ windowSize)
    (h : StepFn.Reachable Trace.run (Trace.new windowSize) t)
    (h' : StepFn.Reachable Trace.run t t') (hlt : t'.written.length < 2 ^ 32 - 1)
    : t.written.map (·.seqno.toNat) = List.range' 1 (t.client.expectedSeqno.toNat - 1)
        ∧ t.client.output = t.written.flatMap (·.data)
        ∧ (∀ q ∈ t.client.window,
            t.client.expectedSeqno.toNat < q.seqno.toNat
              ∧ (q.seqno.toNat : Int) < t.client.expectedSeqno.toNat + windowSize)
        ∧ (t.client.window.length : Int) ≤ windowSize - 1
        ∧ ∀ a ∈ t.client.acks, 1 ≤ a.ackno
            → ∃ p ∈ t.written ++ t.client.window,
                p.seqno = a.ackno ∧ p ∈ t'.written ++ t'.client.window := by
  have hlt1 := Nat.lt_of_le_of_lt (Trace.length_written_le h') hlt
  have hnonneg : 0 ≤ windowSize := by omega
  obtain ⟨hinv, _⟩ := (TraceInv.new windowSize).of_reachable hnonneg h hlt1
  obtain ⟨_, hkept⟩ := hinv.of_reachable hnonneg h' hlt
  have hexpected := hinv.deliveredFrom.toNat_expectedSeqno (by omega)
  refine ⟨?_, ?_, ?_, hinv.length_window_le hsize, ?_⟩
  . rw [hexpected, hinv.deliveredFrom.seqnos_eq, Nat.add_sub_cancel_left]
  . rw [hinv.deliveredFrom.output_eq, List.nil_append]
  . intro q hq
    have hlower := hinv.deliveredFrom.lower q hq
    have hupper := hinv.deliveredFrom.upper q hq
    rw [hinv.windowSize_eq] at hupper
    omega
  . intro a ha hone
    obtain ⟨p, hp, hseqno⟩ := hinv.acknowledged a ha hone
    exact ⟨p, hp, hseqno, hkept p hp⟩

def sampleBuffered : Trace :=
  ((Trace.new 2).run (DataPacket.new [20] 2).pack).get (by decide +kernel)

def sampleDelivered : Trace :=
  (sampleBuffered.run (DataPacket.new [10] 1).pack).get (by decide +kernel)

theorem invariants_sampleBuffered
    : sampleBuffered.written.map (·.seqno.toNat)
          = List.range' 1 (sampleBuffered.client.expectedSeqno.toNat - 1)
        ∧ sampleBuffered.client.output = sampleBuffered.written.flatMap (·.data)
        ∧ (∀ q ∈ sampleBuffered.client.window,
            sampleBuffered.client.expectedSeqno.toNat < q.seqno.toNat
              ∧ (q.seqno.toNat : Int) < sampleBuffered.client.expectedSeqno.toNat + 2)
        ∧ (sampleBuffered.client.window.length : Int) ≤ 2 - 1
        ∧ ∀ a ∈ sampleBuffered.client.acks, 1 ≤ a.ackno
            → ∃ p ∈ sampleBuffered.written ++ sampleBuffered.client.window,
                p.seqno = a.ackno ∧ p ∈ sampleDelivered.written ++ sampleDelivered.client.window :=
  invariants_of_reachable (by decide) (.step .init trivial (Option.some_get _).symm)
    (.step .init trivial (Option.some_get _).symm) (by decide +kernel)

end ClientSelectiveRepeat
