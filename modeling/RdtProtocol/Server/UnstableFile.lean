import RdtProtocol.Server.PacketBuilderLemmas
import RdtProtocol.Util.StepFn

/-!
This module contains the reader on a file that changes after `stat` has told its size, so that each
`fread` may return any bytes.
-/

namespace PacketBuilder

def needsRead (b : PacketBuilder) : Bool :=
  b.dataNotRead > 0 && b.packetsReadQueue.isEmpty

-- `get_next_packet` when `fread` returns `read`. Undefined where it reads from a closed file, and where
-- it calls `front` on an empty queue.
def getNextPacketOf (b : PacketBuilder) (nextSeqNum : UInt32) (read : Bytes)
    : Option (PacketPtr × PacketBuilder × UInt32) :=
  if b.needsRead then
    if b.closed then
      none
    else
      let res := b.push nextSeqNum read
      res.1.pop.map (fun next => (next.1, next.2, res.2))
  else
    b.pop.map (fun next => (next.1, next.2, nextSeqNum))

theorem getNextPacket_eq_getNextPacketOf {b : PacketBuilder} (n : UInt32) (h : b.closed = false)
    : b.getNextPacket n
        = (if b.needsRead then { b with fp := b.fp.drop b.bufferSize } else b).getNextPacketOf n
            (b.fp.take b.bufferSize) := by
  have hiff : b.needsRead = true ↔ b.dataNotRead > 0 ∧ b.packetsReadQueue.isEmpty = true := by
    simp [needsRead]
  unfold getNextPacket read getNextPacketOf
  by_cases hread : b.needsRead = true
  . have hread' : needsRead { b with fp := b.fp.drop b.bufferSize } = true := hread
    rw [if_pos (hiff.mp hread), if_pos hread, if_pos hread']
    simp only [h, Bool.false_eq_true, if_false]
  . rw [if_neg (hiff.not.mp hread), if_neg hread, if_neg hread]

theorem getNextPacketOf_spec {b b' : PacketBuilder} {n n' : UInt32} {read : Bytes} {p : PacketPtr}
    (h : b.getNextPacketOf n read = some (p, b', n'))
    : p :: b'.packetsReadQueue
          = b.packetsReadQueue
            ++ (if b.needsRead then PacketPtr.number b.allocated n (read.chunks MAX_DATA_SIZE) else [])
        ∧ (b'.closed = true ↔ b.closed = true ∨ b'.hasNext = false) := by
  unfold getNextPacketOf at h
  split at h
  . next hread =>
    split at h
    . contradiction
    . simp only [Option.map_eq_some_iff, Prod.mk.injEq, Prod.exists] at h
      obtain ⟨_, _, hpop, rfl, rfl, _⟩ := h
      obtain ⟨hqueue, _, hclosed⟩ := pop_spec hpop
      rw [if_pos hread, ← hqueue]
      exact ⟨rfl, hclosed⟩
  . next hread =>
    simp only [Option.map_eq_some_iff, Prod.mk.injEq, Prod.exists] at h
    obtain ⟨_, _, hpop, rfl, rfl, _⟩ := h
    obtain ⟨hqueue, _, hclosed⟩ := pop_spec hpop
    rw [if_neg hread, List.append_nil, hqueue]
    exact ⟨rfl, hclosed⟩

end PacketBuilder

structure FileReader where
  builder : PacketBuilder
  nextSeqNum : UInt32
  received : Bytes
  returned : List PacketPtr

namespace FileReader

open PacketBuilder

def new (size queueSize : Int) (first : UInt32) : FileReader :=
  {
    builder := PacketBuilder.new ⟨size, []⟩ queueSize
    nextSeqNum := first
    received := []
    returned := []
  }

-- Nothing is called any more when `has_next` is false.
def step (r : FileReader) (read : Bytes) : Option FileReader :=
  if r.builder.hasNext then
    (r.builder.getNextPacketOf r.nextSeqNum read).map (fun next =>
      {
        builder := next.2.1
        nextSeqNum := next.2.2
        received := if r.builder.needsRead then r.received ++ read else r.received
        returned := r.returned ++ [next.1]
      })
  else
    some r

def FromFile (r : FileReader) : Prop :=
  (r.returned.map (·.packet.data)).flatten <+: r.received ∧ ∀ p ∈ r.returned, p.packet.data ≠ []

def Fed (r : FileReader) (read : Bytes) : Prop :=
  r.builder.hasNext = true → r.builder.packetsReadQueue = [] → read ≠ []

structure Inv (r : FileReader) : Prop where
  content
    : ((r.returned ++ r.builder.packetsReadQueue).map (·.packet.data)).flatten = r.received
  nonempty : ∀ p ∈ r.returned ++ r.builder.packetsReadQueue, p.packet.data ≠ []
  closed : r.builder.closed = true → r.builder.hasNext = false

theorem inv_new (size queueSize : Int) (first : UInt32) : (new size queueSize first).Inv := by
  refine ⟨rfl, ?_, ?_⟩
  . simp [new, PacketBuilder.new]
  . simp [new, PacketBuilder.new]

theorem Inv.fromFile {r : FileReader} (h : r.Inv) : r.FromFile := by
  constructor
  . rw [← h.content, List.map_append, List.flatten_append]
    apply List.prefix_append
  . intro p hp
    exact h.nonempty p (List.mem_append_left _ hp)

theorem needsRead_iff {b : PacketBuilder} (h : b.hasNext = true)
    : b.needsRead = true ↔ b.packetsReadQueue = [] := by
  simp only [hasNext, Bool.or_eq_true, Bool.not_eq_true'] at h
  simp only [needsRead, Bool.and_eq_true, List.isEmpty_iff]
  constructor
  . intro hread
    exact hread.2
  . intro hqueue
    simpa [hqueue] using h

theorem number_eq_nil_iff {addr : Nat} {n : UInt32} {read : Bytes}
    : PacketPtr.number addr n (read.chunks MAX_DATA_SIZE) = [] ↔ read = [] := by
  rw [← List.length_eq_zero_iff, PacketPtr.length_number, List.length_eq_zero_iff,
    List.chunks_eq_nil_iff MAX_DATA_SIZE_pos]

theorem step_isSome_iff {r : FileReader} (h : r.Inv) (read : Bytes)
    : (r.step read).isSome = true ↔ r.Fed read := by
  unfold step Fed
  by_cases hnext : r.builder.hasNext = true
  . have hclosed : r.builder.closed = false := by
      have := h.closed
      simpa [hnext] using this
    have hread := needsRead_iff hnext
    rw [if_pos hnext, Option.isSome_map]
    simp only [hnext, forall_const]
    unfold getNextPacketOf
    by_cases hqueue : r.builder.packetsReadQueue = []
    . rw [if_pos (hread.mpr hqueue), hclosed, if_neg Bool.false_ne_true, Option.isSome_map,
        pop_isSome_iff]
      simp only [push, hqueue, List.nil_append, Ne, number_eq_nil_iff, forall_const]
    . rw [if_neg (hread.not.mpr hqueue), Option.isSome_map, pop_isSome_iff]
      simp [hqueue]
  . rw [if_neg hnext]
    simp [hnext]

theorem inv_step {r r' : FileReader} {read : Bytes} (h : r.Inv) (hstep : r.step read = some r')
    : r'.Inv := by
  unfold step at hstep
  split at hstep
  . next hnext =>
    simp only [Option.map_eq_some_iff, Prod.exists] at hstep
    obtain ⟨p, b, n, hget, rfl⟩ := hstep
    obtain ⟨hqueue, hclosed⟩ := getNextPacketOf_spec hget
    refine ⟨?_, ?_, ?_⟩
    . simp only [List.append_assoc, List.singleton_append, hqueue]
      rw [← List.append_assoc, List.map_append, List.flatten_append, h.content]
      split
      . rw [PacketPtr.map_data_number, List.flatten_chunks MAX_DATA_SIZE_pos]
      . simp
    . intro q hq
      simp only [List.append_assoc, List.singleton_append, hqueue] at hq
      rw [← List.append_assoc, List.mem_append] at hq
      cases hq with
      | inl hq => exact h.nonempty q hq
      | inr hq =>
        split at hq
        . have hdata := List.mem_map_of_mem (f := (·.packet.data)) hq
          rw [PacketPtr.map_data_number] at hdata
          exact List.length_pos_iff.mp (List.length_pos_of_mem_chunks MAX_DATA_SIZE_pos hdata)
        . simp at hq
    . intro hc
      cases hclosed.mp hc with
      | inl hc =>
        have := h.closed hc
        simp [hnext] at this
      | inr hc => exact hc
  . injection hstep with hstep
    exact hstep ▸ h

theorem run_fromFile_iff (size queueSize : Int) (first : UInt32) (reads : List Bytes)
    : (∃ r, StepFn.run step (new size queueSize first) reads = some r ∧ r.FromFile)
        ↔ StepFn.Throughout step Fed (new size queueSize first) reads := by
  rw [← StepFn.run_isSome_iff (P := Inv) (fun _ _ _ h hstep => inv_step h hstep)
    (fun _ read h => step_isSome_iff h read) (inv_new size queueSize first), Option.isSome_iff_exists]
  constructor
  . intro ⟨r, hrun, _⟩
    exact ⟨r, hrun⟩
  . intro ⟨r, hrun⟩
    have hinv : r.Inv := by
      apply StepFn.Reachable.invariant (inv_new size queueSize first) _
        (StepFn.reachable_of_run reads .init hrun)
      intro s read s' h hstep
      exact inv_step h hstep
    exact ⟨r, hrun, hinv.fromFile⟩

theorem run_truncated
    : ¬ ∃ r, StepFn.run step (new 1000 1 1) [[]] = some r ∧ r.FromFile := by
  intro ⟨r, hrun, _⟩
  have hnone : StepFn.run step (new 1000 1 1) [[]] = none := by
    decide
  rw [hnone] at hrun
  contradiction

end FileReader
