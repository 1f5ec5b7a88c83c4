import Mathlib.Order.Bounds.Basic
import RdtProtocol.Client.Strategy.SelectiveRepeatTrace

/-!
This module contains that the selective repeat receiver ends in the same state in whatever order, and
however often, the packets of its window arrive.
-/

namespace ClientSelectiveRepeat

open ClientRdtStrategy

variable {first : Nat} {output : Bytes} {t t' : Trace} {c : ClientRdtStrategy} {windowSize : Int}

theorem DeliveredFrom.add_length_le (h : DeliveredFrom first output t) (hfirst : first < 2 ^ 32)
    : first + t.written.length ≤ 2 ^ 32 := by
  cases hlength : t.written.length with
  | zero => omega
  | succ n =>
    obtain ⟨p, _, hseqno⟩ := h.mem_written (k := first + n) (by omega) (by omega)
    have := p.seqno.toNat_lt
    omega

theorem DeliveredFrom.lt_of_mem_written (h : DeliveredFrom first output t) {q : DataPacket}
    (hq : q ∈ t.written)
    : q.seqno.toNat < first + t.written.length := by
  have hmem : q.seqno.toNat ∈ t.written.map (·.seqno.toNat) := List.mem_map_of_mem hq
  rw [h.seqnos_eq, List.mem_range'_1] at hmem
  exact hmem.2

def restart (c : ClientRdtStrategy) : Trace :=
  { client := c, written := [] }

theorem DeliveredFrom.restart (h : DeliveredFrom first output t)
    : DeliveredFrom t.client.expectedSeqno.toNat t.client.output (restart t.client) := by
  have hexpected : ∀ q ∈ t.client.window,
      t.client.expectedSeqno.toNat = first + t.written.length := by
    intro q hq
    have hlower := h.lower q hq
    have := q.seqno.toNat_lt
    apply h.toNat_expectedSeqno
    omega
  constructor
  . simp [ClientSelectiveRepeat.restart]
  . rfl
  . simp [ClientSelectiveRepeat.restart]
  . exact h.sorted
  . intro q hq
    have hlower := h.lower q hq
    rw [← hexpected q hq] at hlower
    exact hlower
  . intro q hq
    have hupper := h.upper q hq
    have := hexpected q hq
    simp only [ClientSelectiveRepeat.restart, List.length_nil]
    omega

theorem deliveredFrom_of_reachable (hsize : 0 ≤ windowSize)
    (h : StepFn.Reachable run (new windowSize) c)
    : DeliveredFrom c.expectedSeqno.toNat c.output (restart c) ∧ c.windowSize = windowSize := by
  apply h.invariant
    (P := fun c => DeliveredFrom c.expectedSeqno.toNat c.output (restart c) ∧ c.windowSize = windowSize)
  . exact ⟨(DeliveredFrom.new windowSize).restart, rfl⟩
  . intro c datagram c' ih hrun
    obtain ⟨hinv, hwindow⟩ := ih
    rw [run, Option.map_eq_some_iff] at hrun
    obtain ⟨packet, _, rfl⟩ := hrun
    refine ⟨?_, (windowSize_receive _ _).trans hwindow⟩
    have hlt : c.expectedSeqno.toNat + (restart c).written.length < 2 ^ 32 := c.expectedSeqno.toNat_lt
    obtain ⟨hnext, _⟩ := hinv.receive (hwindow.symm ▸ hsize) hlt packet
    exact hnext.restart

structure Fits (c : ClientRdtStrategy) (packet : DataPacket) : Prop where
  cksum_eq : packet.cksum = packet.calculateChecksum
  data_ne_nil : packet.data ≠ []
  le : c.expectedSeqno ≤ packet.seqno
  lt : (packet.seqno.toNat : Int) < c.expectedSeqno.toNat + c.windowSize

structure Processed (c : ClientRdtStrategy) (packets : List DataPacket) (t : Trace) : Prop where
  deliveredFrom : DeliveredFrom c.expectedSeqno.toNat c.output t
  windowSize_eq : t.client.windowSize = c.windowSize
  mem_of : ∀ q ∈ t.written ++ t.client.window, q ∈ packets ++ c.window
  seqno_of : ∀ p ∈ packets ++ c.window, ∃ q ∈ t.written ++ t.client.window, q.seqno = p.seqno
  lt : ∀ q ∈ packets ++ c.window, (q.seqno.toNat : Int) < c.expectedSeqno.toNat + c.windowSize

theorem Processed.restart (h : DeliveredFrom c.expectedSeqno.toNat c.output (restart c))
    : Processed c [] (restart c) := by
  refine ⟨h, rfl, fun _ => id, fun p hp => ⟨p, hp, rfl⟩, ?_⟩
  intro q hq
  have := h.upper q hq
  simpa [ClientSelectiveRepeat.restart] using this

variable {packets packets' : List DataPacket} {packet : DataPacket}

theorem inWindow_of_bounds (hsize : c.windowSize < 2 ^ 31) (hle : c.expectedSeqno ≤ packet.seqno)
    (hlt : (packet.seqno.toNat : Int) < c.expectedSeqno.toNat + c.windowSize)
    : inWindow c packet.seqno := by
  rw [UInt32.le_iff_toNat_le] at hle
  rw [inWindow_iff (by omega) hsize]
  omega

theorem Processed.not_inWindow (h : Processed c packets t) (hsize : c.windowSize < 2 ^ 31)
    (hwrapped : 2 ^ 32 ≤ c.expectedSeqno.toNat + t.written.length) (hfits : Fits c packet)
    : ¬ inWindow t.client packet.seqno := by
  have hfirst := c.expectedSeqno.toNat_lt
  have htotal := h.deliveredFrom.add_length_le hfirst
  have hzero : t.client.expectedSeqno.toNat = 0 := by
    have heq : c.expectedSeqno.toNat + t.written.length = 2 ^ 32 := by omega
    rw [h.deliveredFrom.expectedSeqno_eq, heq]
    rfl
  obtain ⟨q, hq, hlast⟩ := h.deliveredFrom.mem_written (k := 2 ^ 32 - 1) (by omega) (by omega)
  have hupper := h.lt q (h.mem_of q (List.mem_append_left _ hq))
  have hle := UInt32.le_iff_toNat_le.mp hfits.le
  intro hin
  have hlt := lt_of_inWindow (by rw [h.windowSize_eq]; omega) hin
  rw [h.windowSize_eq] at hlt
  omega

theorem Processed.received_of_not_buffers (h : Processed c packets t) (hsize : c.windowSize < 2 ^ 31)
    (hfits : Fits c packet) (hb : ¬ Buffers t.client packet)
    : ∃ q ∈ t.written ++ t.client.window, q.seqno = packet.seqno := by
  have hle := UInt32.le_iff_toNat_le.mp hfits.le
  have hupper := hfits.lt
  cases hnew : OrderedSet.contains (·.seqno.toNat) packet t.client.window with
  | true =>
    simp only [OrderedSet.contains, List.any_eq_true, decide_eq_true_eq] at hnew
    obtain ⟨q, hq, hseqno⟩ := hnew
    exact ⟨q, List.mem_append_right _ hq, UInt32.toNat_inj.mp hseqno⟩
  | false =>
    have hout : ¬ inWindow t.client packet.seqno :=
      fun hin => hb ⟨hin, hfits.cksum_eq, hfits.data_ne_nil, hnew⟩
    have hbefore : packet.seqno.toNat < c.expectedSeqno.toNat + t.written.length := by
      rw [← Nat.not_le]
      intro hahead
      have hnext := h.deliveredFrom.toNat_expectedSeqno
        (Nat.lt_of_le_of_lt hahead packet.seqno.toNat_lt)
      apply hout
      apply inWindow_of_bounds
      . rw [h.windowSize_eq]
        exact hsize
      . rw [UInt32.le_iff_toNat_le, hnext]
        exact hahead
      . rw [h.windowSize_eq, hnext]
        omega
    obtain ⟨q, hq, hseqno⟩ := h.deliveredFrom.mem_written hle hbefore
    exact ⟨q, List.mem_append_left _ hq, UInt32.toNat_inj.mp hseqno⟩

theorem Processed.receive (h : Processed c packets t) (hsize : c.windowSize < 2 ^ 31)
    (hfits : Fits c packet)
    : Processed c (packets ++ [packet]) (t.receive packet) := by
  have hfirst := c.expectedSeqno.toNat_lt
  have hle := UInt32.le_iff_toNat_le.mp hfits.le
  have hupper := hfits.lt
  have hlt : ∀ q ∈ packets ++ [packet] ++ c.window,
      (q.seqno.toNat : Int) < c.expectedSeqno.toNat + c.windowSize := by
    intro q hq
    simp only [List.mem_append, List.mem_singleton] at hq
    have hold := h.lt q
    simp only [List.mem_append] at hold
    cases hq with
    | inl hq =>
      cases hq with
      | inl hq => exact hold (.inl hq)
      | inr hq => exact hq ▸ hupper
    | inr hq => exact hold (.inr hq)
  have hwindow : (t.receive packet).client.windowSize = c.windowSize :=
    (windowSize_receive _ _).trans h.windowSize_eq
  by_cases hb : Buffers t.client packet
  . have hnext : c.expectedSeqno.toNat + t.written.length < 2 ^ 32 := by
      rw [← Nat.not_le]
      intro hwrapped
      exact h.not_inWindow hsize hwrapped hfits hb.1
    obtain ⟨hinv, hperm, _⟩ :=
      h.deliveredFrom.receive_of_buffers (by rw [h.windowSize_eq]; omega) hnext hb
    refine ⟨hinv, hwindow, ?_, ?_, hlt⟩
    . intro q hq
      have hmem := h.mem_of q
      have hnew := hperm.mem_iff.mp hq
      simp only [List.mem_append, List.mem_cons, List.not_mem_nil, or_false] at hmem hnew ⊢
      grind
    . intro p hp
      have hseqno := h.seqno_of p
      have hiff : ∀ q, q ∈ (t.receive packet).written ++ (t.receive packet).client.window
          ↔ q = packet ∨ q ∈ t.written ++ t.client.window := by
        intro q
        rw [hperm.mem_iff, List.mem_cons]
      simp only [hiff]
      simp only [List.mem_append, List.mem_singleton] at hp hseqno ⊢
      grind
  . obtain ⟨hinv, hwritten, hsame, _⟩ := h.deliveredFrom.receive_of_not_buffers hb
    have hreceived := h.received_of_not_buffers hsize hfits hb
    refine ⟨hinv, hwindow, ?_, ?_, hlt⟩
    . intro q hq
      rw [hwritten, hsame] at hq
      have hmem := h.mem_of q hq
      simp only [List.mem_append, List.mem_singleton] at hmem ⊢
      grind
    . intro p hp
      rw [hwritten, hsame]
      have hseqno := h.seqno_of p
      simp only [List.mem_append, List.mem_singleton] at hp hseqno hreceived ⊢
      grind

theorem Processed.foldl (h : Processed c packets t) (hsize : c.windowSize < 2 ^ 31)
    (hfits : ∀ p ∈ packets', Fits c p)
    : Processed c (packets ++ packets') (packets'.foldl Trace.receive t) := by
  induction packets' generalizing packets t with
  | nil => simpa using h
  | cons packet packets' ih =>
    have hrest : ∀ p ∈ packets', Fits c p := fun p hp => hfits p (List.mem_cons_of_mem _ hp)
    have hnext := ih (h.receive hsize (hfits packet List.mem_cons_self)) hrest
    simpa only [List.foldl_cons, List.append_assoc, List.singleton_append] using hnext

theorem Processed.isLeast (h : Processed c packets t)
    : IsLeast {n | c.expectedSeqno.toNat ≤ n ∧ ∀ p ∈ packets ++ c.window, p.seqno.toNat ≠ n}
        (c.expectedSeqno.toNat + t.written.length) := by
  constructor
  . refine ⟨Nat.le_add_right _ _, ?_⟩
    intro p hp
    obtain ⟨q, hq, hseqno⟩ := h.seqno_of p hp
    rw [← hseqno]
    cases List.mem_append.mp hq with
    | inl hwritten => exact Nat.ne_of_lt (h.deliveredFrom.lt_of_mem_written hwritten)
    | inr hwindow => exact Nat.ne_of_gt (h.deliveredFrom.lower q hwindow)
  . intro n hn
    rw [← Nat.not_lt]
    intro hlt
    obtain ⟨q, hq, hseqno⟩ := h.deliveredFrom.mem_written hn.1 hlt
    exact hn.2 q (h.mem_of q (List.mem_append_left _ hq)) hseqno

theorem Processed.mem_window (h : Processed c packets t) (h' : Processed c packets' t')
    (hmem : ∀ p, p ∈ packets ++ c.window → p ∈ packets' ++ c.window)
    (hlength : t'.written.length = t.written.length)
    : ∀ p ∈ t.client.window, ∃ q ∈ t'.client.window, q.seqno.toNat = p.seqno.toNat := by
  intro p hp
  have hlower := h.deliveredFrom.lower p hp
  obtain ⟨q, hq, hseqno⟩ := h'.seqno_of p (hmem p (h.mem_of p (List.mem_append_right _ hp)))
  cases List.mem_append.mp hq with
  | inl hwritten =>
    have := h'.deliveredFrom.lt_of_mem_written hwritten
    rw [hseqno] at this
    omega
  | inr hwindow => exact ⟨q, hwindow, congrArg UInt32.toNat hseqno⟩

theorem Processed.unique {β : Type} {f : DataPacket → β} (h : Processed c packets t)
    (h' : Processed c packets' t')
    (hmem : ∀ p, p ∈ packets ++ c.window ↔ p ∈ packets' ++ c.window)
    (hf : ∀ p ∈ packets ++ c.window, ∀ q ∈ packets ++ c.window, p.seqno = q.seqno
      → f p = f q)
    : t'.written.length = t.written.length
        ∧ t'.written.map f = t.written.map f
        ∧ t'.client.window.map f = t.client.window.map f := by
  have hleast := h'.isLeast
  simp only [← hmem] at hleast
  have hlength : t'.written.length = t.written.length := by
    have := hleast.unique h.isLeast
    omega
  have hsame : ∀ p ∈ t'.written ++ t'.client.window, ∀ q ∈ t.written ++ t.client.window,
      p.seqno.toNat = q.seqno.toNat → f p = f q := by
    intro p hp q hq hseqno
    exact hf p ((hmem p).mpr (h'.mem_of p hp)) q (h.mem_of q hq) (UInt32.toNat_inj.mp hseqno)
  have hwritten : t'.written.map (·.seqno.toNat) = t.written.map (·.seqno.toNat) := by
    rw [h'.deliveredFrom.seqnos_eq, h.deliveredFrom.seqnos_eq, hlength]
  have hwindow : t'.client.window.map (·.seqno.toNat) = t.client.window.map (·.seqno.toNat) := by
    apply h'.deliveredFrom.sorted.map_key_eq h.deliveredFrom.sorted
    . exact h'.mem_window h (fun p => (hmem p).mpr) hlength.symm
    . exact h.mem_window h' (fun p => (hmem p).mp) hlength
  refine ⟨hlength, ?_, ?_⟩
  . apply OrderedSet.map_eq_map_of_key hwritten
    intro p hp q hq
    exact hsame p (List.mem_append_left _ hp) q (List.mem_append_left _ hq)
  . apply OrderedSet.map_eq_map_of_key hwindow
    intro p hp q hq
    exact hsame p (List.mem_append_right _ hp) q (List.mem_append_right _ hq)

theorem run_of_mapM {datagrams : List Bytes} (h : datagrams.mapM recvPacket = some packets)
    : StepFn.run run c datagrams = some (packets.foldl receive c) := by
  induction datagrams generalizing c packets with
  | nil =>
    cases h
    rfl
  | cons datagram datagrams ih =>
    simp only [List.mapM_cons, Option.bind_eq_bind, Option.bind_eq_some_iff] at h
    obtain ⟨packet, hpacket, rest, hrest, hpackets⟩ := h
    cases hpackets
    rw [StepFn.run_cons, run, hpacket, Option.map_some, Option.bind_some, ih hrest, List.foldl_cons]

theorem Trace.client_foldl (packets : List DataPacket) (t : Trace)
    : (packets.foldl Trace.receive t).client = packets.foldl ClientSelectiveRepeat.receive t.client := by
  induction packets generalizing t with
  | nil => rfl
  | cons packet packets ih =>
    rw [List.foldl_cons, List.foldl_cons, ih]
    rfl

theorem processed_foldl (hsize : 0 ≤ windowSize) (hlt : windowSize < 2 ^ 31)
    (h : StepFn.Reachable run (new windowSize) c) (hfits : ∀ p ∈ packets, Fits c p)
    : ∃ t, Processed c packets t ∧ t.client = packets.foldl receive c := by
  obtain ⟨hinv, hwindow⟩ := deliveredFrom_of_reachable hsize h
  refine ⟨packets.foldl Trace.receive (restart c), ?_, ?_⟩
  . simpa using (Processed.restart hinv).foldl (hwindow ▸ hlt) hfits
  . apply Trace.client_foldl

theorem order_independent (hsize : 1 ≤ windowSize) (hlt : windowSize < 2 ^ 31)
    (h : StepFn.Reachable run (new windowSize) c) {datagrams datagrams' : List Bytes}
    (hpackets : datagrams.mapM recvPacket = some packets)
    (hpackets' : datagrams'.mapM recvPacket = some packets')
    (hmem : ∀ p, p ∈ packets ↔ p ∈ packets') (hfits : ∀ p ∈ packets, Fits c p)
    (hdata : ∀ p ∈ packets ++ c.window, ∀ q ∈ packets ++ c.window, p.seqno = q.seqno
      → p.data = q.data)
    : ∃ d d' n,
        StepFn.run run c datagrams = some d
          ∧ StepFn.run run c datagrams' = some d'
          ∧ d'.expectedSeqno = d.expectedSeqno
          ∧ d'.output = d.output
          ∧ d'.window.map (fun p => (p.seqno, p.data)) = d.window.map (fun p => (p.seqno, p.data))
          ∧ ((∀ p ∈ packets ++ c.window, ∀ q ∈ packets ++ c.window, p.seqno = q.seqno → p = q)
              → d'.window = d.window)
          ∧ d.expectedSeqno = UInt32.ofNat n
          ∧ IsLeast {n | c.expectedSeqno.toNat ≤ n ∧ ∀ p ∈ packets ++ c.window, p.seqno.toNat ≠ n}
              n := by
  have hfits' : ∀ p ∈ packets', Fits c p := fun p hp => hfits p ((hmem p).mpr hp)
  obtain ⟨t, ht, hclient⟩ := processed_foldl (by omega) hlt h hfits
  obtain ⟨t', ht', hclient'⟩ := processed_foldl (by omega) hlt h hfits'
  have hsame : ∀ p, p ∈ packets ++ c.window ↔ p ∈ packets' ++ c.window := by
    intro p
    rw [List.mem_append, List.mem_append, hmem]
  obtain ⟨hlength, hwritten, _⟩ := ht.unique ht' hsame hdata
  refine ⟨t.client, t'.client, c.expectedSeqno.toNat + t.written.length, ?_, ?_, ?_, ?_, ?_, ?_,
    ht.deliveredFrom.expectedSeqno_eq, ht.isLeast⟩
  . rw [hclient, run_of_mapM hpackets]
  . rw [hclient', run_of_mapM hpackets']
  . rw [ht'.deliveredFrom.expectedSeqno_eq, ht.deliveredFrom.expectedSeqno_eq, hlength]
  . rw [ht'.deliveredFrom.output_eq, ht.deliveredFrom.output_eq, List.flatMap, List.flatMap, hwritten]
  . obtain ⟨_, _, hwindow⟩ := ht.unique (f := fun p => (p.seqno, p.data)) ht' hsame (by
      intro p hp q hq hseqno
      rw [hseqno, hdata p hp q hq hseqno])
    exact hwindow
  . intro heq
    obtain ⟨_, _, hwindow⟩ := ht.unique (f := id) ht' hsame heq
    simpa using hwindow

def samplePackets : List DataPacket :=
  [DataPacket.new [10] 1, DataPacket.new [20] 2]

def sampleReordered : List DataPacket :=
  [DataPacket.new [20] 2, DataPacket.new [10] 1, DataPacket.new [20] 2]

theorem order_independent_sampleBuffered
    : ∃ d d' n,
        StepFn.run run sampleBuffered.client (samplePackets.map (·.pack)) = some d
          ∧ StepFn.run run sampleBuffered.client (sampleReordered.map (·.pack)) = some d'
          ∧ d'.expectedSeqno = d.expectedSeqno
          ∧ d'.output = d.output
          ∧ d'.window.map (fun p => (p.seqno, p.data)) = d.window.map (fun p => (p.seqno, p.data))
          ∧ ((∀ p ∈ samplePackets ++ sampleBuffered.client.window,
                ∀ q ∈ samplePackets ++ sampleBuffered.client.window, p.seqno = q.seqno → p = q)
              → d'.window = d.window)
          ∧ d.expectedSeqno = UInt32.ofNat n
          ∧ IsLeast
              {n | sampleBuffered.client.expectedSeqno.toNat ≤ n
                ∧ ∀ p ∈ samplePackets ++ sampleBuffered.client.window, p.seqno.toNat ≠ n}
              n := by
  have hreach : StepFn.Reachable run (new 2) sampleBuffered.client :=
    .step (e := (DataPacket.new [20] 2).pack) .init trivial rfl
  have hread : (sampleReordered.map (·.pack)).mapM recvPacket = some sampleReordered := by
    decide +kernel
  apply order_independent (by decide) (by decide) hreach (by decide +kernel) hread
  . intro p
    simp only [samplePackets, sampleReordered, List.mem_cons, List.not_mem_nil, or_false]
    grind
  . intro p hp
    simp only [samplePackets, List.mem_cons, List.not_mem_nil, or_false] at hp
    cases hp with
    | inl hp =>
      subst hp
      constructor <;> decide +kernel
    | inr hp =>
      subst hp
      constructor <;> decide +kernel
  . decide +kernel

end ClientSelectiveRepeat
