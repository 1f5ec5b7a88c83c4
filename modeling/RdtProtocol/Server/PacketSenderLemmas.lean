import RdtProtocol.Server.PacketSender
import RdtProtocol.Util.CyclicSum

/-!
This module contains when `packet_sender::send_packet` reports three duplicate ACKs, and when it can be
called at all.
-/

namespace PacketSender

variable {α : Type} [LT α] [DecidableLT α] {cfg : PacketSenderConfig α}

theorem run_concat (packets : List DataPacket) (packet : DataPacket)
    : run cfg (packets ++ [packet])
        = (run cfg packets).bind (fun s => (sendPacket cfg s packet).map (·.2)) :=
  StepFn.run_concat _ _ _

theorem sendPacket_of_getElem? {s : PacketSender} {modulus : Int} (packet : DataPacket)
    (hget : cfg.lossSequence[s.lossSequenceIndex]? = some modulus) (hne : uint64 modulus ≠ 0)
    : ∃ res s', sendPacket cfg s packet = some (res, s')
        ∧ (res = true ↔ s.packetNumber % uint64 modulus = 0)
        ∧ (res = true →
            s'.packetNumber = 1
              ∧ s'.lossSequenceIndex = (s.lossSequenceIndex + 1) % cfg.lossSequence.length
              ∧ s'.drawn = s.drawn ∧ s'.datagrams = s.datagrams ++ [packet.pack])
        ∧ (res = false →
            s'.packetNumber = s.packetNumber + 1 ∧ s'.lossSequenceIndex = s.lossSequenceIndex
              ∧ s'.drawn = s.drawn + 1
              ∧ s'.datagrams
                = if cfg.distribution s.drawn > cfg.lossProbability then
                    s.datagrams ++ [packet.pack]
                  else
                    s.datagrams) := by
  unfold sendPacket
  simp only [hget, if_neg hne]
  split
  . next hmod =>
    refine ⟨_, _, rfl, ?_, ?_, ?_⟩
    . simpa using hmod
    . simp
    . intro _
      exact ⟨rfl, rfl, rfl, rfl⟩
  . next hmod =>
    refine ⟨_, _, rfl, ?_, ?_, ?_⟩
    . simpa using hmod
    . intro _
      exact ⟨rfl, rfl, rfl, rfl⟩
    . simp

section

variable {s t : PacketSender}

theorem sendPacket_rel (cfg : PacketSenderConfig α) (p q : DataPacket)
    (hnumber : s.packetNumber = t.packetNumber)
    (hindex : s.lossSequenceIndex = t.lossSequenceIndex)
    : Option.Rel (fun a b => a.2.packetNumber = b.2.packetNumber
        ∧ a.2.lossSequenceIndex = b.2.lossSequenceIndex) (sendPacket cfg s p) (sendPacket cfg t q) := by
  unfold sendPacket
  rw [← hindex, ← hnumber]
  cases cfg.lossSequence[s.lossSequenceIndex]? with
  | none => exact .none
  | some modulus =>
    dsimp only
    split
    . exact .none
    . split
      . exact .some ⟨rfl, rfl⟩
      . exact .some ⟨rfl, rfl⟩

theorem isSome_sendAll_congr (cfg : PacketSenderConfig α) {xs ys : List DataPacket}
    (h : xs.length = ys.length) (s : PacketSender)
    : (sendAll cfg s xs).isSome = (sendAll cfg s ys).isSome := by
  suffices hrel : ∀ t : PacketSender, s.packetNumber = t.packetNumber
      → s.lossSequenceIndex = t.lossSequenceIndex
      → (sendAll cfg s xs).isSome = (sendAll cfg t ys).isSome from hrel s rfl rfl
  unfold sendAll
  induction xs generalizing s ys with
  | nil =>
    rw [List.eq_nil_of_length_eq_zero h.symm]
    exact fun _ _ _ => rfl
  | cons p xs ih =>
    cases ys with
    | nil => contradiction
    | cons q ys =>
      intro t hnumber hindex
      rw [StepFn.run_cons, StepFn.run_cons]
      have hp := sendPacket_rel cfg p q hnumber hindex
      cases hs : sendPacket cfg s p with
      | none =>
        cases ht : sendPacket cfg t q with
        | none => rfl
        | some b =>
          rw [hs, ht] at hp
          cases hp
      | some a =>
        cases ht : sendPacket cfg t q with
        | none =>
          rw [hs, ht] at hp
          cases hp
        | some b =>
          rw [hs, ht] at hp
          cases hp with
          | some hab => exact ih (Nat.succ.inj h) a.2 b.2 hab.1 hab.2

theorem sendAll_append (s : PacketSender) (xs ys : List DataPacket)
    : sendAll cfg s (xs ++ ys) = (sendAll cfg s xs).bind (sendAll cfg · ys) :=
  StepFn.run_append s xs ys

theorem isSome_sendAll_of_length_le {s : PacketSender} {xs ys : List DataPacket}
    (hlen : xs.length ≤ ys.length) (h : (sendAll cfg s ys).isSome = true)
    : (sendAll cfg s xs).isSome = true := by
  have htake : xs.length = (ys.take xs.length).length := by
    rw [List.length_take, min_eq_left hlen]
  rw [← List.take_append_drop xs.length ys, sendAll_append] at h
  rw [isSome_sendAll_congr cfg htake]
  exact Option.isSome_of_isSome_bind h

end

structure Passed (cfg : PacketSenderConfig α) (n k : Nat) (s : PacketSender) : Prop where
  lossSequenceIndex_eq : s.lossSequenceIndex = k % cfg.lossSequence.length
  le : cfg.lossSequence.cyclicSum k ≤ n
  lt : n < cfg.lossSequence.cyclicSum (k + 1)
  packetNumber_eq : s.packetNumber.toNat = n - cfg.lossSequence.cyclicSum k + 1

omit [LT α] [DecidableLT α] in
theorem passed_init (hL : cfg.lossSequence ≠ []) (hpos : ∀ x ∈ cfg.lossSequence, 0 < x)
    : Passed cfg 0 0 init := by
  refine ⟨by simp [init], by simp, ?_, by simp [init]⟩
  rw [List.cyclicSum_succ]
  have := hpos _ (List.getD_mod_mem hL 0)
  simpa using this

theorem sendPacket_spec (hL : cfg.lossSequence ≠ [])
    (hpos : ∀ x ∈ cfg.lossSequence, 0 < x ∧ x < 2 ^ 31) {n k : Nat} {s : PacketSender}
    (h : Passed cfg n k s) (packet : DataPacket)
    : ∃ res s', sendPacket cfg s packet = some (res, s')
        ∧ (res = true ↔ ((n + 1 : Nat) : Int) = cfg.lossSequence.cyclicSum (k + 1))
        ∧ (res = true →
            Passed cfg (n + 1) (k + 1) s'
              ∧ s'.drawn = s.drawn ∧ s'.datagrams = s.datagrams ++ [packet.pack])
        ∧ (res = false →
            Passed cfg (n + 1) k s'
              ∧ s'.drawn = s.drawn + 1
              ∧ s'.datagrams
                = if cfg.distribution s.drawn > cfg.lossProbability then
                    s.datagrams ++ [packet.pack]
                  else
                    s.datagrams) := by
  obtain ⟨hindex, hle, hlt, hnumber⟩ := h
  have hmem := List.getD_mod_mem hL k
  have hget : cfg.lossSequence[s.lossSequenceIndex]?
      = some (cfg.lossSequence.getD (k % cfg.lossSequence.length) 0) := by
    have hlen : k % cfg.lossSequence.length < cfg.lossSequence.length :=
      Nat.mod_lt _ (List.length_pos_iff.mpr hL)
    rw [hindex, List.getD_eq_getElem?_getD, List.getElem?_eq_getElem hlen, Option.getD_some]
  have hsucc := List.cyclicSum_succ cfg.lossSequence k
  have hsucc' := List.cyclicSum_succ cfg.lossSequence (k + 1)
  have hmem' := List.getD_mod_mem hL (k + 1)
  generalize cfg.lossSequence.getD (k % cfg.lossSequence.length) 0 = x at *
  generalize cfg.lossSequence.getD ((k + 1) % cfg.lossSequence.length) 0 = y at *
  have hx := hpos x hmem
  have hy := hpos y hmem'
  have hmod : (uint64 x).toNat = x.toNat := toNat_uint64_of_nonneg (by omega) (by omega)
  have hne : uint64 x ≠ 0 := uint64_ne_zero (by omega) (by omega) (by omega)
  obtain ⟨res, s', heq, hres, htrue, hfalse⟩ := sendPacket_of_getElem? packet hget hne
  have hiff : res = true ↔ ((n + 1 : Nat) : Int) = cfg.lossSequence.cyclicSum (k + 1) := by
    rw [hres, ← UInt64.toNat_inj, UInt64.toNat_mod, hmod, UInt64.toNat_zero]
    constructor
    . intro h0
      have := Nat.le_of_dvd (by omega) (Nat.dvd_of_mod_eq_zero h0)
      omega
    . intro h0
      have : s.packetNumber.toNat = x.toNat := by omega
      rw [this, Nat.mod_self]
  refine ⟨res, s', heq, hiff, ?_, ?_⟩
  . intro hr
    obtain ⟨hnumber', hindex', hrest⟩ := htrue hr
    refine ⟨⟨?_, ?_, ?_, ?_⟩, hrest⟩
    . rw [hindex', hindex, Nat.mod_add_mod]
    . exact Int.le_of_eq (hiff.mp hr).symm
    . have := hiff.mp hr
      omega
    . have := hiff.mp hr
      rw [hnumber', UInt64.toNat_one]
      omega
  . intro hr
    obtain ⟨hnumber', hindex', hrest⟩ := hfalse hr
    have hnot : ¬ ((n + 1 : Nat) : Int) = cfg.lossSequence.cyclicSum (k + 1) := by
      rw [← hiff, hr]
      exact Bool.false_ne_true
    refine ⟨⟨?_, ?_, ?_, ?_⟩, hrest⟩
    . rw [hindex', hindex]
    . omega
    . omega
    . rw [hnumber', UInt64.toNat_add, UInt64.toNat_one]
      omega

theorem passed_run (hL : cfg.lossSequence ≠ [])
    (hpos : ∀ x ∈ cfg.lossSequence, 0 < x ∧ x < 2 ^ 31) (packets : List DataPacket)
    : ∃ s k, run cfg packets = some s ∧ Passed cfg packets.length k s := by
  induction packets using List.reverseRecOn with
  | nil => exact ⟨init, 0, rfl, passed_init hL (fun x hx => (hpos x hx).1)⟩
  | append_singleton packets packet ih =>
    obtain ⟨s, k, hrun, h⟩ := ih
    obtain ⟨res, s', hsend, _, htrue, hfalse⟩ := sendPacket_spec hL hpos h packet
    have hrun' : run cfg (packets ++ [packet]) = some s' := by
      rw [run_concat, hrun, Option.bind_some, hsend, Option.map_some]
    rw [List.length_append, List.length_singleton]
    cases res with
    | true => exact ⟨s', k + 1, hrun', (htrue rfl).1⟩
    | false => exact ⟨s', k, hrun', (hfalse rfl).1⟩

theorem sendPacket_on_schedule (hL : cfg.lossSequence ≠ [])
    (hpos : ∀ x ∈ cfg.lossSequence, 0 < x ∧ x < 2 ^ 31) (packets : List DataPacket)
    (packet : DataPacket)
    : ∃ s res s', run cfg packets = some s ∧ sendPacket cfg s packet = some (res, s')
        ∧ (res = true
          ↔ ∃ j, ((packets.length + 1 : Nat) : Int) = cfg.lossSequence.cyclicSum (j + 1))
        ∧ (res = true → s'.datagrams = s.datagrams ++ [packet.pack] ∧ s'.drawn = s.drawn)
        ∧ (res = false →
            s'.datagrams
                = (if cfg.distribution s.drawn > cfg.lossProbability then
                    s.datagrams ++ [packet.pack]
                  else
                    s.datagrams)
              ∧ s'.drawn = s.drawn + 1) := by
  obtain ⟨s, k, hrun, h⟩ := passed_run hL hpos packets
  obtain ⟨res, s', hsend, hres, htrue, hfalse⟩ := sendPacket_spec hL hpos h packet
  refine ⟨s, res, s', hrun, hsend, ?_, ?_, ?_⟩
  . have hiff := List.exists_cyclicSum_eq_iff hL (fun x hx => (hpos x hx).1) h.le h.lt
    rw [hres]
    exact hiff.symm
  . intro hr
    exact ⟨(htrue hr).2.2, (htrue hr).2.1⟩
  . intro hr
    exact ⟨(hfalse hr).2.2, (hfalse hr).2.1⟩

def samplePacketSenderConfig : PacketSenderConfig Nat :=
  {
    lossSequence := [2, 3]
    lossProbability := 50
    distribution := fun i => 30 * i
  }

theorem sendPacket_on_schedule_fifth
    : ∃ s res s',
        run samplePacketSenderConfig (List.replicate 4 (DataPacket.new [] 1)) = some s
          ∧ sendPacket samplePacketSenderConfig s (DataPacket.new [] 1) = some (res, s')
          ∧ (res = true ↔ ∃ j, (5 : Int) = samplePacketSenderConfig.lossSequence.cyclicSum (j + 1)) := by
  have hL : samplePacketSenderConfig.lossSequence ≠ [] := by decide
  have hpos : ∀ x ∈ samplePacketSenderConfig.lossSequence, 0 < x ∧ x < 2 ^ 31 := by decide
  obtain ⟨s, res, s', hrun, hsend, hres, _⟩ :=
    sendPacket_on_schedule hL hpos (List.replicate 4 (DataPacket.new [] 1)) (DataPacket.new [] 1)
  exact ⟨s, res, s', hrun, hsend, hres⟩

theorem sendAll_of_ne_zero (hne : ∀ x ∈ cfg.lossSequence, uint64 x ≠ 0) (packets : List DataPacket)
    {s : PacketSender} (hs : s.lossSequenceIndex < cfg.lossSequence.length)
    : ∃ s', sendAll cfg s packets = some s' ∧ s'.lossSequenceIndex < cfg.lossSequence.length := by
  induction packets generalizing s with
  | nil => exact ⟨s, rfl, hs⟩
  | cons packet packets ih =>
    obtain ⟨res, s', heq, _, htrue, hfalse⟩ := sendPacket_of_getElem? packet
      (List.getElem?_eq_getElem hs) (hne _ (List.getElem_mem hs))
    have hs' : s'.lossSequenceIndex < cfg.lossSequence.length := by
      cases res with
      | true =>
        rw [(htrue rfl).2.1]
        exact Nat.mod_lt _ (by omega)
      | false =>
        rw [(hfalse rfl).2.1]
        exact hs
    obtain ⟨s'', hrest, hs''⟩ := ih hs'
    refine ⟨s'', ?_, hs''⟩
    rw [sendAll, StepFn.run_cons, heq]
    exact hrest

theorem run_isSome (hL : cfg.lossSequence ≠ [])
    (hne : ∀ x ∈ cfg.lossSequence, x ≠ 0 ∧ -2 ^ 31 ≤ x ∧ x < 2 ^ 31) (packets : List DataPacket)
    : (run cfg packets).isSome = true := by
  have hne : ∀ x ∈ cfg.lossSequence, uint64 x ≠ 0 := by
    intro x hx
    obtain ⟨h0, hlo, hhi⟩ := hne x hx
    exact uint64_ne_zero (by omega) (by omega) h0
  obtain ⟨s, hrun, _⟩ := sendAll_of_ne_zero hne packets (s := init) (List.length_pos_iff.mpr hL)
  rw [run, hrun]
  rfl

section

variable {packets : List DataPacket} {s : PacketSender}

theorem exists_modulus (hdef : ∀ packets, (run cfg packets).isSome = true)
    (hrun : run cfg packets = some s)
    : ∃ modulus, cfg.lossSequence[s.lossSequenceIndex]? = some modulus ∧ uint64 modulus ≠ 0 := by
  have h := hdef (packets ++ [DataPacket.new [] 1])
  rw [run_concat, hrun, Option.bind_some, Option.isSome_map] at h
  unfold sendPacket at h
  split at h
  . contradiction
  . next modulus hget =>
    refine ⟨modulus, hget, ?_⟩
    intro h0
    simp [h0] at h

theorem exists_run_count (hrun : run cfg packets = some s) (hnumber : s.packetNumber = 1)
    {modulus : Int} (hget : cfg.lossSequence[s.lossSequenceIndex]? = some modulus)
    (hne : uint64 modulus ≠ 0) (k : Nat) (hk : k < (uint64 modulus).toNat)
    : ∃ packets' s', run cfg packets' = some s' ∧ s'.lossSequenceIndex = s.lossSequenceIndex
        ∧ s'.packetNumber.toNat = k + 1 := by
  induction k with
  | zero => exact ⟨packets, s, hrun, rfl, by simp [hnumber]⟩
  | succ k ih =>
    obtain ⟨packets', s', hrun', hindex, hcount⟩ := ih (by omega)
    rw [← hindex] at hget
    obtain ⟨res, s1, hsend, hres, _, hfalse⟩ := sendPacket_of_getElem? (DataPacket.new [] 1) hget hne
    have hr : res = false := by
      rw [← Bool.not_eq_true, hres, ← UInt64.toNat_inj, UInt64.toNat_mod, hcount,
        Nat.mod_eq_of_lt hk]
      simp
    obtain ⟨hnumber', hindex', _⟩ := hfalse hr
    refine ⟨packets' ++ [DataPacket.new [] 1], s1, ?_, hindex'.trans hindex, ?_⟩
    . rw [run_concat, hrun', Option.bind_some, hsend, Option.map_some]
    . have := (uint64 modulus).toNat_lt
      rw [hnumber', UInt64.toNat_add, hcount, UInt64.toNat_one]
      omega

theorem exists_run_next (hdef : ∀ packets, (run cfg packets).isSome = true)
    (hrun : run cfg packets = some s) (hnumber : s.packetNumber = 1)
    : ∃ packets' s', run cfg packets' = some s' ∧ s'.packetNumber = 1
        ∧ s'.lossSequenceIndex = (s.lossSequenceIndex + 1) % cfg.lossSequence.length := by
  obtain ⟨modulus, hget, hne⟩ := exists_modulus hdef hrun
  have hpos : 0 < (uint64 modulus).toNat := by
    apply Nat.pos_of_ne_zero
    intro h0
    exact hne (UInt64.toNat_inj.mp h0)
  obtain ⟨packets', s', hrun', hindex, hcount⟩ :=
    exists_run_count hrun hnumber hget hne ((uint64 modulus).toNat - 1) (by omega)
  rw [← hindex] at hget
  obtain ⟨res, s1, hsend, hres, htrue, _⟩ := sendPacket_of_getElem? (DataPacket.new [] 1) hget hne
  have hr : res = true := by
    rw [hres, ← UInt64.toNat_inj, UInt64.toNat_mod, hcount, Nat.sub_add_cancel hpos, Nat.mod_self]
    rfl
  obtain ⟨hnumber', hindex', _⟩ := htrue hr
  refine ⟨packets' ++ [DataPacket.new [] 1], s1, ?_, hnumber', ?_⟩
  . rw [run_concat, hrun', Option.bind_some, hsend, Option.map_some]
  . rw [hindex', hindex]

end

theorem run_isSome_iff (hint : ∀ x ∈ cfg.lossSequence, -2 ^ 31 ≤ x ∧ x < 2 ^ 31)
    : (∀ packets, (run cfg packets).isSome = true)
        ↔ cfg.lossSequence ≠ [] ∧ 0 ∉ cfg.lossSequence := by
  constructor
  . intro hdef
    have hreach (i : Nat) (hi : i < cfg.lossSequence.length)
        : ∃ packets s, run cfg packets = some s ∧ s.packetNumber = 1 ∧ s.lossSequenceIndex = i := by
      induction i with
      | zero => exact ⟨[], init, rfl, rfl, rfl⟩
      | succ i ih =>
        obtain ⟨packets, s, hrun, hnumber, hindex⟩ := ih (by omega)
        obtain ⟨packets', s', hrun', hnumber', hindex'⟩ := exists_run_next hdef hrun hnumber
        refine ⟨packets', s', hrun', hnumber', ?_⟩
        rw [hindex', hindex, Nat.mod_eq_of_lt hi]
    constructor
    . intro hempty
      obtain ⟨modulus, hget, _⟩ := exists_modulus hdef (show run cfg [] = some init from rfl)
      simp [hempty] at hget
    . intro hzero
      obtain ⟨i, hi, h0⟩ := List.mem_iff_getElem.mp hzero
      obtain ⟨packets, s, hrun, _, hindex⟩ := hreach i hi
      obtain ⟨modulus, hget, hne⟩ := exists_modulus hdef hrun
      rw [hindex, List.getElem?_eq_getElem hi, h0, Option.some.injEq] at hget
      subst hget
      exact hne rfl
  . intro ⟨hL, hzero⟩ packets
    apply run_isSome hL
    intro x hx
    refine ⟨?_, hint x hx⟩
    intro h0
    exact hzero (h0 ▸ hx)

end PacketSender
