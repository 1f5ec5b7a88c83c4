import RdtProtocol.Shared.PacketLemmas
import RdtProtocol.Server.PacketBuilder

/-!
This module contains the proof that the packets a builder returns for a file that does not change are
the numbered pieces of the file, one after the other and without an end before the last one.
-/

theorem MAX_DATA_SIZE_pos : 0 < MAX_DATA_SIZE := by
  decide

namespace PacketPtr

@[simp]
theorem length_number (addr : Nat) (seqno : UInt32) (data : List Bytes)
    : (number addr seqno data).length = data.length := by
  induction data generalizing addr seqno with
  | nil => rfl
  | cons _ _ ih => simp [number, ih]

theorem add_ofNat_add_one (seqno : UInt32) (n : Nat)
    : seqno + UInt32.ofNat (n + 1) = seqno + 1 + UInt32.ofNat n := by
  rw [UInt32.ofNat_add, UInt32.add_comm (UInt32.ofNat n), ← UInt32.add_assoc]
  rfl

theorem number_append (addr : Nat) (seqno : UInt32) (xs ys : List Bytes)
    : number addr seqno (xs ++ ys)
        = number addr seqno xs
          ++ number (addr + xs.length) (seqno + UInt32.ofNat xs.length) ys := by
  induction xs generalizing addr seqno with
  | nil => simp [number]
  | cons x xs ih =>
    simp only [List.cons_append, number, ih, List.length_cons]
    rw [add_ofNat_add_one, Nat.add_right_comm, Nat.add_assoc addr]

theorem getElem?_number (addr : Nat) (seqno : UInt32) (data : List Bytes) (i : Nat)
    : (number addr seqno data)[i]?
        = data[i]?.map (fun d => ⟨addr + i, DataPacket.new d (seqno + UInt32.ofNat i)⟩) := by
  induction data generalizing addr seqno i with
  | nil => simp [number]
  | cons _ _ ih =>
    cases i with
    | zero => simp [number]
    | succ i =>
      simp only [number, List.getElem?_cons_succ, ih]
      rw [add_ofNat_add_one, Nat.add_right_comm, Nat.add_assoc addr]

@[simp]
theorem map_data_number (addr : Nat) (seqno : UInt32) (data : List Bytes)
    : (number addr seqno data).map (·.packet.data) = data := by
  induction data generalizing addr seqno with
  | nil => rfl
  | cons _ _ ih => simp [number, ih]

end PacketPtr

/--
The packets of a file when the first one has the number `first`.
-/
def packets (first : UInt32) (file : Bytes) : List PacketPtr :=
  PacketPtr.number 0 first (file.chunks MAX_DATA_SIZE)

namespace PacketBuilder

-- The file has the size that `stat` reported, and the product in `BUFFER_SIZE` fits into an `int`.
structure WF (b : PacketBuilder) : Prop where
  dataNotRead_eq : b.dataNotRead = b.fp.length
  queueSize_pos : 0 < b.queueSize
  queueSize_le : MAX_DATA_SIZE * b.queueSize < 2 ^ 31

def pending (b : PacketBuilder) (nextSeqNum : UInt32) : List PacketPtr :=
  b.packetsReadQueue ++ PacketPtr.number b.allocated nextSeqNum (b.fp.chunks MAX_DATA_SIZE)

def endSeqNum (b : PacketBuilder) (nextSeqNum : UInt32) : UInt32 :=
  nextSeqNum + UInt32.ofNat (b.fp.chunks MAX_DATA_SIZE).length

theorem wf_new {file : Bytes} {queueSize : Int} (hpos : 0 < queueSize)
    (hle : MAX_DATA_SIZE * queueSize < 2 ^ 31)
    : (new (File.regular file) queueSize).WF :=
  ⟨rfl, hpos, hle⟩

theorem pending_new (file : Bytes) (queueSize : Int) (first : UInt32)
    : (new (File.regular file) queueSize).pending first = packets first file := by
  rfl

theorem hasNext_iff {b : PacketBuilder} (hwf : b.WF) (nextSeqNum : UInt32)
    : b.hasNext = true ↔ b.pending nextSeqNum ≠ [] := by
  have hlen : b.dataNotRead > 0 ↔ b.fp ≠ [] := by
    rw [hwf.dataNotRead_eq, ← List.length_pos_iff]
    omega
  have hnum : PacketPtr.number b.allocated nextSeqNum (b.fp.chunks MAX_DATA_SIZE) = []
      ↔ b.fp = [] := by
    rw [← List.length_eq_zero_iff, PacketPtr.length_number, List.length_eq_zero_iff,
      List.chunks_eq_nil_iff MAX_DATA_SIZE_pos]
  simp only [hasNext, pending, Bool.or_eq_true, decide_eq_true_eq, hlen, ne_eq,
    List.append_eq_nil_iff, hnum, Bool.not_eq_true', List.isEmpty_eq_false_iff]
  by_cases hq : b.packetsReadQueue = [] <;> simp [hq]

theorem bufferSize_eq {b : PacketBuilder} (hwf : b.WF)
    : b.bufferSize = MAX_DATA_SIZE * b.queueSize.toNat := by
  have hpos := hwf.queueSize_pos
  have hle := hwf.queueSize_le
  unfold bufferSize
  simp only [MAX_DATA_SIZE] at *
  rw [int32_of_bounds (by omega) (by omega), sizeT_of_nonneg] <;> omega

theorem read_spec {b b' : PacketBuilder} {n n' : UInt32} (hwf : b.WF) (h : b.read n = (b', n'))
    : b'.WF ∧ b'.pending n' = b.pending n ∧ b'.endSeqNum n' = b.endSeqNum n
        ∧ (b'.packetsReadQueue = [] → b'.fp = []) := by
  have hcut := List.chunks_take_append_chunks_drop MAX_DATA_SIZE_pos b.queueSize.toNat b.fp
  rw [← bufferSize_eq hwf] at hcut
  unfold read at h
  split at h
  . next hc =>
    obtain ⟨hpos, hqueue⟩ := hc
    have hqueue : b.packetsReadQueue = [] := by simpa using hqueue
    simp only [push, Prod.mk.injEq] at h
    obtain ⟨rfl, rfl⟩ := h
    refine ⟨⟨?_, hwf.queueSize_pos, hwf.queueSize_le⟩, ?_, ?_, ?_⟩
    . simp only [hwf.dataNotRead_eq, List.length_drop, List.length_take]
      omega
    . simp only [pending, hqueue, List.nil_append]
      rw [← hcut, PacketPtr.number_append]
    . simp only [endSeqNum]
      rw [← hcut, List.length_append, UInt32.ofNat_add, UInt32.add_assoc]
    . intro hnil
      have hfp : b.fp ≠ [] := by
        rw [← List.length_pos_iff]
        have := hwf.dataNotRead_eq
        omega
      have hbuf : 0 < b.bufferSize := by
        have := hwf.queueSize_pos
        rw [bufferSize_eq hwf]
        simp only [MAX_DATA_SIZE]
        omega
      simp only [hqueue, List.nil_append, ← List.length_eq_zero_iff, PacketPtr.length_number] at hnil
      rw [List.length_eq_zero_iff, List.chunks_eq_nil_iff MAX_DATA_SIZE_pos,
        List.take_eq_nil_iff] at hnil
      cases hnil with
      | inl hnil => omega
      | inr hnil => contradiction
  . next hc =>
    simp only [Prod.mk.injEq] at h
    obtain ⟨rfl, rfl⟩ := h
    refine ⟨hwf, rfl, rfl, ?_⟩
    intro hnil
    have := hwf.dataNotRead_eq
    simp only [hnil, List.isEmpty_nil, and_true] at hc
    rw [← List.length_eq_zero_iff]
    omega

theorem getNextPacket_spec {b : PacketBuilder} {n : UInt32} {p : PacketPtr} {rest : List PacketPtr}
    (hwf : b.WF) (h : b.pending n = p :: rest)
    : ∃ b' n', b.getNextPacket n = some (p, b', n') ∧ b'.WF ∧ b'.pending n' = rest
        ∧ b'.endSeqNum n' = b.endSeqNum n := by
  generalize hread : b.read n = res
  obtain ⟨b1, n1⟩ := res
  obtain ⟨hwf1, hpending, hend, hempty⟩ := read_spec hwf hread
  rw [h] at hpending
  cases hqueue : b1.packetsReadQueue with
  | nil =>
    simp [pending, hqueue, hempty hqueue, List.chunks_nil, PacketPtr.number] at hpending
  | cons q queue =>
    simp only [pending, hqueue, List.cons_append, List.cons.injEq] at hpending
    obtain ⟨rfl, hrest⟩ := hpending
    simp only [getNextPacket, hread, pop, hqueue, Option.map_some, Option.some.injEq, Prod.mk.injEq,
      true_and]
    refine ⟨_, _, ⟨rfl, rfl⟩, ?_, ?_, ?_⟩
    . split
      . exact ⟨hwf1.dataNotRead_eq, hwf1.queueSize_pos, hwf1.queueSize_le⟩
      . exact ⟨hwf1.dataNotRead_eq, hwf1.queueSize_pos, hwf1.queueSize_le⟩
    . split <;> exact hrest
    . split <;> exact hend

theorem exists_getNextPacket {b : PacketBuilder} (hwf : b.WF) (h : b.hasNext = true) (n : UInt32)
    : ∃ p b' n', b.getNextPacket n = some (p, b', n') ∧ b'.WF
        ∧ b.pending n = p :: b'.pending n' ∧ b'.endSeqNum n' = b.endSeqNum n := by
  obtain ⟨p, rest, hpending⟩ := List.exists_cons_of_ne_nil ((hasNext_iff hwf n).mp h)
  obtain ⟨b', n', hget, hwf', hrest, hend⟩ := getNextPacket_spec hwf hpending
  refine ⟨p, b', n', hget, hwf', ?_, hend⟩
  rw [hpending, hrest]

theorem getNextPacket_isSome {b : PacketBuilder} (hwf : b.WF) (h : b.hasNext = true) (n : UInt32)
    : (b.getNextPacket n).isSome := by
  obtain ⟨_, _, _, hget, _⟩ := exists_getNextPacket hwf h n
  rw [hget]
  rfl

theorem wf_getNextPacket {b b' : PacketBuilder} {n n' : UInt32} {p : PacketPtr} (hwf : b.WF)
    (h : b.hasNext = true) (hget : b.getNextPacket n = some (p, b', n'))
    : b'.WF := by
  obtain ⟨_, _, _, hget', hwf', _⟩ := exists_getNextPacket hwf h n
  rw [hget] at hget'
  cases hget'
  exact hwf'

theorem pop_isSome_iff {b : PacketBuilder} : b.pop.isSome = true ↔ b.packetsReadQueue ≠ [] := by
  unfold pop
  cases b.packetsReadQueue <;> simp

theorem pop_spec {b b' : PacketBuilder} {p : PacketPtr} (h : b.pop = some (p, b'))
    : b.packetsReadQueue = p :: b'.packetsReadQueue ∧ b'.dataNotRead = b.dataNotRead
        ∧ (b'.closed = true ↔ b.closed = true ∨ b'.hasNext = false) := by
  unfold pop at h
  split at h
  . contradiction
  . next q queue hqueue =>
    simp only [Option.some.injEq, Prod.mk.injEq] at h
    obtain ⟨rfl, rfl⟩ := h
    split
    . next hnext =>
      refine ⟨hqueue, rfl, ?_⟩
      constructor
      . exact .inl
      . intro h
        cases h with
        | inl h => exact h
        | inr h =>
          rw [hnext] at h
          contradiction
    . next hnext => exact ⟨hqueue, rfl, iff_of_true rfl (.inr ((Bool.not_eq_true _).mp hnext))⟩

theorem fp_pop {b b' : PacketBuilder} {p : PacketPtr} (h : b.pop = some (p, b')) : b'.fp = b.fp := by
  unfold pop at h
  split at h
  . contradiction
  . simp only [Option.some.injEq, Prod.mk.injEq] at h
    rw [← h.2]
    split <;> rfl

theorem getNextPacket_size_lt {b b' : PacketBuilder} {n n' : UInt32} {p : PacketPtr}
    (h : b.getNextPacket n = some (p, b', n'))
    : b'.size < b.size := by
  have hread : (b.read n).1.size ≤ b.size := by
    unfold read
    split
    . have := List.length_chunks_le MAX_DATA_SIZE_pos (b.fp.take b.bufferSize)
      simp only [List.length_take] at this
      simp only [size, push, List.length_append, PacketPtr.length_number, List.length_drop]
      omega
    . exact Nat.le_refl _
  generalize hres : b.read n = res at hread
  simp only [getNextPacket, hres, pop, Option.map_eq_some_iff] at h
  obtain ⟨next, hpop, hnext⟩ := h
  cases hqueue : res.1.packetsReadQueue with
  | nil => simp [hqueue] at hpop
  | cons q queue =>
    simp only [hqueue, Option.some.injEq] at hpop
    subst hpop
    simp only [Prod.mk.injEq] at hnext
    obtain ⟨_, rfl, _⟩ := hnext
    simp only [size, hqueue, List.length_cons] at hread ⊢
    split <;> simp only <;> omega

end PacketBuilder
