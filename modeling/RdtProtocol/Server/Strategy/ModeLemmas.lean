import RdtProtocol.Server.Strategy.GoBackNLemmas
import RdtProtocol.Server.Strategy.Mode
import RdtProtocol.Server.Strategy.SelectiveRepeatLemmas

/-!
This module contains what holds of the three strategies alike, whatever the file is like and whatever the
values of the parameters are that their constructors take over without a test.
-/

/--
The first read is as large as the window. What it returns is enough if it fills the window or if all of
the file has been read.
-/
def File.Readable (file : File) (windowSize : Int) : Prop :=
  file.content.length < file.size → MAX_DATA_SIZE * (windowSize - 1) < file.content.length

namespace RdtStrategy

section

variable (file : File) (first : UInt32) {windowSize : Int} (maxWindowSize threshold : Int)

inductive Filling (windowSize : Int) (s : RdtStrategy) : Prop where
  | unread
      : s.window = [] → s.nextSeqNumber = first → s.pktBuilder = PacketBuilder.new file windowSize
          → Filling windowSize s
  | read
      : 0 < file.size
          → s.window ++ s.pktBuilder.packetsReadQueue
              = packets first (file.content.take (MAX_DATA_SIZE * windowSize.toNat))
          → s.pktBuilder.fp = file.content.drop (MAX_DATA_SIZE * windowSize.toNat)
          → s.pktBuilder.dataNotRead
              = file.size - (file.content.take (MAX_DATA_SIZE * windowSize.toNat)).length
          → Filling windowSize s

variable {file first}

theorem length_packets_take (first : UInt32) (content : Bytes) (k : Nat)
    : (packets first (content.take (MAX_DATA_SIZE * k))).length ≤ k
        ∧ (k ≤ (packets first (content.take (MAX_DATA_SIZE * k))).length
          ↔ k = 0 ∨ MAX_DATA_SIZE * (k - 1) < content.length) := by
  rw [packets, PacketPtr.length_number, List.length_chunks MAX_DATA_SIZE_pos, List.length_take]
  rw [Nat.div_le_iff_le_mul_add_pred MAX_DATA_SIZE_pos, Nat.le_div_iff_mul_le MAX_DATA_SIZE_pos]
  cases k with
  | zero => simp [MAX_DATA_SIZE]
  | succ k =>
    simp only [MAX_DATA_SIZE]
    omega

variable {s s' : RdtStrategy} {p : PacketPtr}

theorem bufferSize_new (hpos : 0 < windowSize) (hle : MAX_DATA_SIZE * windowSize < 2 ^ 31)
    : (PacketBuilder.new file windowSize).bufferSize = MAX_DATA_SIZE * windowSize.toNat := by
  unfold PacketBuilder.bufferSize PacketBuilder.new
  simp only [MAX_DATA_SIZE] at *
  rw [int32_of_bounds (by omega) (by omega), sizeT_of_nonneg] <;> omega

theorem Filling.step (hpos : 0 < windowSize) (hle : MAX_DATA_SIZE * windowSize < 2 ^ 31)
    (h : Filling file first windowSize s) (hroom : s.window.length < sizeT windowSize)
    (hnext : s.pktBuilder.hasNext = true) (hget : s.getNextPacket = some (p, s'))
    : Filling file first windowSize { s' with window := s.window ++ [p] } := by
  obtain ⟨b, n, hbuilder, rfl⟩ := getNextPacket_eq_some hget
  simp only [PacketBuilder.getNextPacket, Option.map_eq_some_iff, Prod.mk.injEq, Prod.exists]
    at hbuilder
  obtain ⟨q, b', hpop, rfl, rfl, rfl⟩ := hbuilder
  obtain ⟨hqueue, hdata, _⟩ := PacketBuilder.pop_spec hpop
  have hfp := PacketBuilder.fp_pop hpop
  cases h with
  | unread hwindow hseqno hbuilder =>
    have hsize : 0 < file.size := by
      simpa [hbuilder, PacketBuilder.hasNext, PacketBuilder.new] using hnext
    have hread : (s.pktBuilder.read s.nextSeqNumber).1
        = ({ PacketBuilder.new file windowSize with
            fp := file.content.drop (MAX_DATA_SIZE * windowSize.toNat) }.push first
              (file.content.take (MAX_DATA_SIZE * windowSize.toNat))).1 := by
      rw [hbuilder, hseqno, PacketBuilder.read, if_pos, bufferSize_new hpos hle]
      . rfl
      . simpa [PacketBuilder.new] using hsize
    rw [hread] at hqueue hdata hfp
    refine .read hsize ?_ hfp hdata
    simp only [hwindow, List.nil_append, List.singleton_append, ← hqueue]
    rfl
  | read hsize hwindow hrest hleft =>
    by_cases hempty : s.pktBuilder.packetsReadQueue = []
    . -- The window is all that could be read.
      have hlen := length_packets_take first file.content windowSize.toNat
      rw [hempty, List.append_nil] at hwindow
      rw [sizeT_of_nonneg (Int.le_of_lt hpos), hwindow] at hroom
      have hall : file.content.length ≤ MAX_DATA_SIZE * windowSize.toNat := by
        have := hlen.2.not.mp (Nat.not_le_of_lt hroom)
        simp only [MAX_DATA_SIZE] at *
        omega
      rw [List.drop_eq_nil_of_le hall] at hrest
      have hread : (s.pktBuilder.read s.nextSeqNumber).1.packetsReadQueue = [] := by
        unfold PacketBuilder.read
        split
        . simp [PacketBuilder.push, hrest, hempty, List.chunks_nil, PacketPtr.number]
        . exact hempty
      rw [hread] at hqueue
      contradiction
    . have hread : (s.pktBuilder.read s.nextSeqNumber).1 = s.pktBuilder := by
        rw [PacketBuilder.read, if_neg]
        simp [hempty]
      rw [hread] at hqueue hdata hfp
      refine .read hsize ?_ (hfp.trans hrest) (hdata.trans hleft)
      rw [← hwindow, hqueue]
      simp

variable (maxWindowSize threshold : Int)

theorem filling_new (file : File) (first : UInt32) (hpos : 0 < windowSize) (hle : MAX_DATA_SIZE * windowSize < 2 ^ 31)
    : let s := new file first windowSize maxWindowSize threshold
      Filling file first windowSize s ∧ s.windowSize = windowSize ∧ s.unackedPackets = []
        ∧ s.popped = [] ∧ s.sent = [] ∧ s.heap = fun _ => {} := by
  apply fillWindow_induction (P := fun s => Filling file first windowSize s
    ∧ s.windowSize = windowSize ∧ s.unackedPackets = [] ∧ s.popped = [] ∧ s.sent = []
    ∧ s.heap = fun _ => {})
  . intro s p s' hroom hnext hget h
    refine ⟨h.1.step hpos hle (h.2.1 ▸ hroom) hnext hget, ?_⟩
    obtain ⟨_, _, _, rfl⟩ := getNextPacket_eq_some hget
    exact h.2
  . exact ⟨.unread rfl rfl rfl, rfl, rfl, rfl, rfl, rfl⟩

theorem ranDry_eq_true_iff
    : s.ranDry = true
        ↔ s.window.length < sizeT s.windowSize ∧ s.pktBuilder.hasNext = true
          ∧ s.getNextPacket = none := by
  simp only [ranDry, Bool.and_eq_true, decide_eq_true_eq, Option.isNone_iff_eq_none, and_assoc]

theorem ranDry_of_wf (h : s.pktBuilder.WF) : s.ranDry = false := by
  rw [← Bool.not_eq_true, ranDry_eq_true_iff]
  rintro ⟨_, hnext, hnone⟩
  obtain ⟨_, _, _, hget, _⟩ := PacketBuilder.exists_getNextPacket h hnext s.nextSeqNumber
  simp [getNextPacket, hget] at hnone

theorem new_of_size_nonpos (hpos : 0 < windowSize) (hle : MAX_DATA_SIZE * windowSize < 2 ^ 31)
    (hsize : ¬ 0 < file.size)
    : let s := new file first windowSize maxWindowSize threshold
      s.ranDry = false ∧ s.window = [] := by
  intro s
  obtain ⟨hfilling, _⟩ := filling_new maxWindowSize threshold file first hpos hle
  cases hfilling with
  | unread hwindow _ hbuilder =>
    refine ⟨?_, hwindow⟩
    rw [← Bool.not_eq_true, ranDry_eq_true_iff]
    intro hdry
    simp [s, hbuilder, PacketBuilder.hasNext, PacketBuilder.new, hsize] at hdry
  | read hsize' => contradiction

theorem new_of_size_pos (hpos : 0 < windowSize) (hle : MAX_DATA_SIZE * windowSize < 2 ^ 31)
    (hsize : 0 < file.size)
    : let s := new file first windowSize maxWindowSize threshold
      (s.ranDry = true ↔ ¬ file.Readable windowSize)
        ∧ (s.ranDry = false
          → s.window = packets first (file.content.take (MAX_DATA_SIZE * windowSize.toNat))) := by
  intro s
  obtain ⟨hfilling, hws, _⟩ := filling_new maxWindowSize threshold file first hpos hle
  have hexit : ¬ (s.window.length < sizeT s.windowSize ∧ s.pktBuilder.hasNext = true)
      ∨ s.getNextPacket = none := by
    apply fillWindow_exit
  have hws : s.windowSize = windowSize := hws
  rw [ranDry_eq_true_iff, ← Bool.not_eq_true, ranDry_eq_true_iff, hws, File.Readable]
  rw [hws] at hexit
  rw [sizeT_of_nonneg (Int.le_of_lt hpos)] at hexit ⊢
  have hlen := length_packets_take first file.content windowSize.toNat
  cases hfilling with
  | unread hwindow _ hbuilder =>
    have hwindow : s.window = [] := hwindow
    have hroom : s.window.length < windowSize.toNat := by
      rw [hwindow, List.length_nil]
      omega
    have hnext : s.pktBuilder.hasNext = true := by
      simp [s, hbuilder, PacketBuilder.hasNext, PacketBuilder.new, hsize]
    have hnone : s.getNextPacket = none := hexit.resolve_left (fun h => h ⟨hroom, hnext⟩)
    have hcontent : file.content = [] := by
      have hpop : ¬ (s.pktBuilder.read s.nextSeqNumber).1.pop.isSome = true := by
        simpa [getNextPacket, PacketBuilder.getNextPacket] using hnone
      have hread : (s.pktBuilder.read s.nextSeqNumber).1.packetsReadQueue
          = packets s.nextSeqNumber (file.content.take (MAX_DATA_SIZE * windowSize.toNat)) := by
        have hbuilder : s.pktBuilder = PacketBuilder.new file windowSize := hbuilder
        rw [hbuilder, PacketBuilder.read, if_pos, bufferSize_new hpos hle]
        . rfl
        . simpa [PacketBuilder.new] using hsize
      rw [PacketBuilder.pop_isSome_iff, not_not, hread, packets_eq_nil_iff, List.take_eq_nil_iff]
        at hpop
      apply hpop.resolve_left
      simp only [MAX_DATA_SIZE]
      omega
    have hdry : ¬ (file.content.length < file.size
        → MAX_DATA_SIZE * (windowSize - 1) < file.content.length) := by
      simp only [hcontent, List.length_nil, MAX_DATA_SIZE]
      omega
    exact ⟨iff_of_true ⟨hroom, hnext, hnone⟩ hdry, fun h => absurd ⟨hroom, hnext, hnone⟩ h⟩
  | read hsize hwindow hrest hleft =>
    have hwindow : s.window ++ s.pktBuilder.packetsReadQueue = _ := hwindow
    have hleft : s.pktBuilder.dataNotRead = _ := hleft
    have hqueue : s.pktBuilder.packetsReadQueue = [] := by
      by_contra hne
      have hnext : s.pktBuilder.hasNext = true := by
        simp [PacketBuilder.hasNext, hne]
      have hread : (s.pktBuilder.read s.nextSeqNumber).1 = s.pktBuilder := by
        rw [PacketBuilder.read, if_neg]
        simp [hne]
      have hsome : ¬ s.getNextPacket = none := by
        have := PacketBuilder.pop_isSome_iff.mpr hne
        rw [Option.isSome_iff_ne_none] at this
        simpa [getNextPacket, PacketBuilder.getNextPacket, hread] using this
      have hfull : ¬ s.window.length < windowSize.toNat :=
        fun h => hexit.resolve_right hsome ⟨h, hnext⟩
      have hlen' := congrArg List.length hwindow
      have := List.length_pos_of_ne_nil hne
      rw [List.length_append] at hlen'
      omega
    rw [hqueue, List.append_nil] at hwindow
    refine ⟨?_, fun _ => hwindow⟩
    rw [hwindow]
    rw [List.length_take] at hleft
    constructor
    . rintro ⟨hroom, hnext, _⟩ hreadable
      have hshort := hlen.2.not.mp (Nat.not_le_of_lt hroom)
      simp only [PacketBuilder.hasNext, hqueue, List.isEmpty_nil, Bool.not_true, Bool.or_false,
        decide_eq_true_eq, hleft] at hnext
      simp only [MAX_DATA_SIZE] at *
      omega
    . intro hreadable
      have hshort : ¬ windowSize.toNat
          ≤ (packets first (file.content.take (MAX_DATA_SIZE * windowSize.toNat))).length := by
        rw [hlen.2]
        simp only [MAX_DATA_SIZE] at *
        omega
      have hroom := Nat.lt_of_not_le hshort
      have hnext : s.pktBuilder.hasNext = true := by
        simp only [PacketBuilder.hasNext, hqueue, List.isEmpty_nil, Bool.not_true, Bool.or_false,
          decide_eq_true_eq, hleft]
        omega
      refine ⟨hroom, hnext, hexit.resolve_left ?_⟩
      rw [hwindow]
      exact fun h => h ⟨hroom, hnext⟩

end

end RdtStrategy

namespace Mode

variable (mode : Mode) (env : Env) (s : RdtStrategy) (nextSeqNumber : UInt32)
variable (maxWindowSize threshold : Int)

def firstWindow (content : Bytes) : List PacketPtr :=
  packets (mode.firstSeqNumber nextSeqNumber)
    (content.take (MAX_DATA_SIZE * mode.firstWindowSize.toNat))

theorem firstWindowSize_bounds
    : 0 < mode.firstWindowSize ∧ MAX_DATA_SIZE * mode.firstWindowSize < 2 ^ 31 := by
  cases mode <;> decide

theorem newStrategy_eq (file : File)
    : ∃ maxWindowSize' threshold',
        mode.newStrategy file nextSeqNumber maxWindowSize threshold
          = RdtStrategy.new file (mode.firstSeqNumber nextSeqNumber) mode.firstWindowSize maxWindowSize'
              threshold' := by
  cases mode
  all_goals exact ⟨_, _, rfl⟩

theorem newStrategy_spec (file : File)
    : let s := mode.newStrategy file nextSeqNumber maxWindowSize threshold
      s.unackedPackets = [] ∧ s.popped = [] ∧ s.sent = [] ∧ s.heap = fun _ => {} := by
  obtain ⟨m, t, heq⟩ := mode.newStrategy_eq nextSeqNumber maxWindowSize threshold file
  obtain ⟨hpos, hle⟩ := mode.firstWindowSize_bounds
  rw [heq]
  exact (RdtStrategy.filling_new m t file _ hpos hle).2.2

theorem length_firstWindow_le (content : Bytes)
    : (mode.firstWindow nextSeqNumber content).length ≤ mode.firstWindowSize.toNat :=
  (RdtStrategy.length_packets_take _ content _).1

theorem newStrategy_of_size_nonpos {file : File} (hsize : ¬ 0 < file.size)
    : let s := mode.newStrategy file nextSeqNumber maxWindowSize threshold
      s.ranDry = false ∧ s.window = [] := by
  obtain ⟨m, t, heq⟩ := mode.newStrategy_eq nextSeqNumber maxWindowSize threshold file
  obtain ⟨hpos, hle⟩ := mode.firstWindowSize_bounds
  rw [heq]
  exact RdtStrategy.new_of_size_nonpos m t hpos hle hsize

theorem newStrategy_of_size_pos {file : File} (hsize : 0 < file.size)
    : let s := mode.newStrategy file nextSeqNumber maxWindowSize threshold
      (s.ranDry = true ↔ ¬ file.Readable mode.firstWindowSize)
        ∧ (s.ranDry = false → s.window = mode.firstWindow nextSeqNumber file.content) := by
  obtain ⟨m, t, heq⟩ := mode.newStrategy_eq nextSeqNumber maxWindowSize threshold file
  obtain ⟨hpos, hle⟩ := mode.firstWindowSize_bounds
  rw [heq]
  exact RdtStrategy.new_of_size_pos m t hpos hle hsize

theorem firstWindow_ne_nil {file : File} (hsize : 0 < file.size)
    (hreadable : file.Readable mode.firstWindowSize)
    : mode.firstWindow nextSeqNumber file.content ≠ [] := by
  obtain ⟨hpos, _⟩ := mode.firstWindowSize_bounds
  rw [firstWindow, ne_eq, packets_eq_nil_iff, List.take_eq_nil_iff, not_or,
    ← List.length_eq_zero_iff]
  unfold File.Readable at hreadable
  simp only [MAX_DATA_SIZE] at *
  omega

theorem ranDry_newStrategy_regular (file : Bytes)
    : (mode.newStrategy (File.regular file) nextSeqNumber maxWindowSize threshold).ranDry = false := by
  by_cases hsize : 0 < (File.regular file).size
  . rw [← Bool.not_eq_true, (newStrategy_of_size_pos _ _ _ _ hsize).1, not_not]
    intro hlt
    simp [File.regular] at hlt
  . exact (newStrategy_of_size_nonpos _ _ _ _ hsize).1

theorem head?_handleTimeOut : (mode.handleTimeOut env s).window.head? = s.window.head? := by
  cases mode with
  | stopAndWait =>
    simp only [handleTimeOut, StopAndWait.handleTimeOut]
    split <;> rfl
  | selectiveRepeat =>
    simp only [handleTimeOut, SelectiveRepeat.handleTimeOut]
    split
    . rfl
    . simp only [SelectiveRepeat.timeOut]
      split <;> simp
  | goBackN => rfl

end Mode
