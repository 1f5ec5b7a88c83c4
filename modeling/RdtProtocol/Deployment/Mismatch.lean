import RdtProtocol.Client.Strategy.Mismatch
import RdtProtocol.Deployment.Safety
import RdtProtocol.Server.Strategies

/-!
This module contains what a client gets that has been started with a mode of the other kind than the
server. Nothing in the protocol tells the two that they do not fit together.
-/

namespace Deployment

variable {cfg : Config} {cc : ClientConfig} {address : Address} {file : Bytes}
variable {buffer : Nat → UInt8} {s s' : State} {e : Event}

def firstSeqno (cfg : Config) : UInt32 :=
  if cfg.server.mode = .goBackN then 0 else 1

def StrategyInv (cfg : Config) (cc : ClientConfig) (file : Bytes) (id : Nat) (filePath : Bytes)
    (rdt : RdtStrategy)
    : Prop :=
  cfg.server.files filePath = .whole file
    → Transfer.ServerInv (transferConfig cfg cc id file) rdt

theorem preserves_strategyInv (hvalid : Valid cfg cc file)
    : Server.Preserves cfg.server (StrategyInv cfg cc file) := by
  refine ⟨?_, ?_, ?_⟩
  . intro id filePath f hfopen hfile
    rw [hfile, FileStatus.whole, FileStatus.fopen, Option.some.injEq] at hfopen
    rw [← hfopen]
    exact Transfer.serverInv_start (hvalid id)
  . intro id filePath rdt ack h hfile
    exact Transfer.serverInv_acknowledgePacket (hvalid id) (h hfile) ack
  . intro id filePath rdt next h htimer hfile
    unfold Server.timer at htimer
    cases hunacked : rdt.unackedPackets with
    | nil => simp [hunacked] at htimer
    | cons p rest =>
      cases hmode : cfg.server.mode with
      | stopAndWait | selectiveRepeat =>
        simp only [hunacked, hmode, Option.some.injEq] at htimer
        rw [← htimer]
        have hinv := Transfer.serverInv_handleTimeOut (hvalid id) (h hfile)
        simpa only [Transfer.handleTimeOut, transferConfig, hmode] using hinv
      | goBackN =>
        simp only [hunacked, hmode, Option.some.injEq] at htimer
        rw [← htimer]
        exact Transfer.serverInv_timeOut hmode (h hfile) (by simp [hunacked])

theorem sent_mem_of_strategyInv {id : Nat} {filePath : Bytes} {rdt : RdtStrategy}
    (h : StrategyInv cfg cc file id filePath rdt) (hfile : cfg.server.files filePath = .whole file)
    : ∀ p ∈ rdt.sent, p ∈ packets (firstSeqno cfg) file := by
  have hinv := h hfile
  unfold firstSeqno
  by_cases hmode : cfg.server.mode = .goBackN
  . have hgbn : (transferConfig cfg cc id file).mode = .goBackN := hmode
    simp only [Transfer.ServerInv, hgbn] at hinv
    rw [if_pos hmode]
    exact hinv.1.sent_mem
  . rw [if_neg hmode]
    have hne : (transferConfig cfg cc id file).mode ≠ .goBackN := hmode
    exact (Transfer.inv_of_serverInv hne hinv).sent_mem

structure Heard (cfg : Config) (cc : ClientConfig) (address : Address) (file : Bytes) (s : State)
    : Prop where
  consistent : Server.Consistent s.server
  strategies : Server.AllStrategies (StrategyInv cfg cc file) s.server
  receiving : (∀ u ∈ s.server.workers, u.address ≠ address) → (s.clients address).receiving = false
  sent : (∀ u ∈ s.server.workers, u.address ≠ address)
    → ∀ b ∈ (s.clients address).sent, b = cc.createReqDatagram
  silent : (∀ u ∈ s.server.workers, u.address ≠ address) → ∀ b, (address, b) ∉ s.server.outgoing
  outgoing : ∀ b, (address, b) ∈ s.server.outgoing → ∃ n, b = (DataPacket.new [] n).pack
  file : ∀ u ∈ s.server.workers, u.address = address → cfg.server.files u.filePath = .whole file

theorem Heard.toClient (h : Heard cfg cc address file s) {b : Bytes} (hb : b ∈ s.toClient address)
    : (∃ n, b = (DataPacket.new [] n).pack)
        ∨ ∃ p ∈ packets (firstSeqno cfg) file, b = p.packet.pack := by
  cases mem_toClient.mp hb with
  | inl hout => exact .inl (h.outgoing b hout)
  | inr hsent =>
    obtain ⟨u, hu, ha, p, hp, rfl⟩ := hsent
    right
    cases hrdt : u.rdt with
    | none => simp [hrdt] at hp
    | some rdt =>
      rw [hrdt, Option.elim_some] at hp
      obtain ⟨id, hid⟩ := List.mem_iff_getElem?.mp hu
      have hinv := h.strategies id u rdt hid hrdt
      exact ⟨p, sent_mem_of_strategyInv hinv (h.file u hu ha) p hp, rfl⟩

theorem Heard.toClient_eq_nil (h : Heard cfg cc address file s)
    (hnone : ∀ u ∈ s.server.workers, u.address ≠ address) (b : Bytes)
    : b ∉ s.toClient address := by
  intro hb
  cases mem_toClient.mp hb with
  | inl hout => exact h.silent hnone b hout
  | inr hsent =>
    obtain ⟨u, hu, ha, _⟩ := hsent
    exact hnone u hu ha

theorem Heard.request (h : Heard cfg cc address file s) (hcc : cfg.clients address = some cc)
    (hfile : requested cfg cc = .whole file) {e : Server.Event}
    (harrives : arrives cfg s e = true) {filePath : Bytes}
    (hrequests : Server.Requests s.server e address filePath)
    : cfg.server.files filePath = .whole file := by
  obtain ⟨hmain, hnone, datagram, tid, request, rfl, hunpack, rfl⟩ := hrequests
  have hne := Server.address_ne_of_unregistered h.consistent hmain hnone
  simp only [arrives, hcc, Option.isNone_some, Bool.false_or, List.contains_iff_mem] at harrives
  rw [h.sent hne datagram harrives, truncate_createReqDatagram] at hunpack
  obtain ⟨request', hrequest, hregular⟩ := unpack_createReqDatagram hfile
  rw [hunpack, Option.some.injEq] at hrequest
  rw [hrequest]
  exact hregular

theorem heard_server (hvalid : Valid cfg cc file) (hcc : cfg.clients address = some cc)
    (hfile : requested cfg cc = .whole file) (h : Heard cfg cc address file s)
    {e : Server.Event} {server : Server} (harrives : arrives cfg s e = true)
    (hs : Server.Step cfg.server s.server e server)
    : Heard cfg cc address file { s with server } := by
  -- No worker ever goes away.
  have hold (hnone : ∀ u ∈ server.workers, u.address ≠ address)
      : ∀ u ∈ s.server.workers, u.address ≠ address := by
    intro u hu heq
    obtain ⟨id, hid⟩ := List.mem_iff_getElem?.mp hu
    obtain ⟨u', hu', ha, _⟩ := Server.worker_of_step hs hid
    exact hnone u' (List.mem_of_getElem? hu') (ha.trans heq)
  refine ⟨h.consistent.step hs, h.strategies.step (preserves_strategyInv hvalid) hs, ?_, ?_, ?_, ?_, ?_⟩
  . exact fun hnone => h.receiving (hold hnone)
  . exact fun hnone => h.sent (hold hnone)
  . intro hnone b hb
    obtain hout | ⟨_, filePath, hrequests⟩ | ⟨u, hu, ha, _⟩ := Server.outgoing_origin hs hb
    . exact h.silent (hold hnone) b hout
    . obtain ⟨_, hreg, datagram, tid, request, rfl, _⟩ := hrequests
      cases hs with
      | ack _ ht => simp [hreg] at ht
      | request => exact hnone _ (List.mem_append_right _ List.mem_cons_self) rfl
      | malformed | crash => exact h.silent (hold hnone) b hb
    . exact hold hnone u hu ha
  . intro b hb
    obtain hout | ⟨rfl, _⟩ | ⟨_, _, _, n, rfl⟩ := Server.outgoing_origin hs hb
    . exact h.outgoing b hout
    . exact ⟨0, AckPacket.pack_new_eq_pack_empty 0⟩
    . exact ⟨n, rfl⟩
  . intro u' hu' ha
    obtain ⟨u, hu, haddress, hpath⟩ | hrequests := Server.worker_origin hs hu'
    . rw [← hpath]
      exact h.file u hu (haddress.trans ha)
    . rw [ha] at hrequests
      exact h.request hcc hfile harrives hrequests

theorem heard_setClient (h : Heard cfg cc address file s) (a : Address) (c : Client)
    (hc : a = address → (∀ u ∈ s.server.workers, u.address ≠ address)
      → c.receiving = false ∧ ∀ b ∈ c.sent, b = cc.createReqDatagram)
    : Heard cfg cc address file (s.setClient a c) := by
  have hboth (hnone : ∀ u ∈ s.server.workers, u.address ≠ address)
      : ((s.setClient a c).clients address).receiving = false
        ∧ ∀ b ∈ ((s.setClient a c).clients address).sent, b = cc.createReqDatagram := by
    simp only [State.setClient]
    by_cases ha : address = a
    . subst ha
      rw [Function.update_self]
      exact hc rfl hnone
    . rw [Function.update_of_ne ha]
      exact ⟨h.receiving hnone, h.sent hnone⟩
  exact ⟨h.consistent, h.strategies, fun hnone => (hboth hnone).1, fun hnone => (hboth hnone).2,
    h.silent, h.outgoing, h.file⟩

theorem heard_step (hvalid : Valid cfg cc file) (hcc : cfg.clients address = some cc)
    (hfile : requested cfg cc = .whole file) (h : Heard cfg cc address file s)
    (hgenuine : Genuine address e) (hs : Step cfg s e s')
    : Heard cfg cc address file s' := by
  cases hs with
  | server harrives hserver => exact heard_server hvalid hcc hfile h harrives hserver
  | @sendRequest a cc' hcc' _ hreceiving =>
    apply heard_setClient h
    intro ha hnone
    subst ha
    rw [hcc, Option.some.injEq] at hcc'
    refine ⟨hreceiving, ?_⟩
    intro b hb
    rw [List.mem_append, List.mem_singleton, ← hcc'] at hb
    exact hb.elim (h.sent hnone b) id
  | @handshake a _ datagram _ _ _ hmem =>
    apply heard_setClient h
    intro ha hnone
    subst ha
    exact absurd hmem (h.toClient_eq_nil hnone datagram)
  | @run a _ datagram _ _ _ _ hmem =>
    apply heard_setClient h
    intro ha hnone
    subst ha
    exact absurd hmem (h.toClient_eq_nil hnone datagram)
  | drop => exact h
  | foreign =>
    apply heard_setClient h
    intro ha
    exact absurd ha hgenuine

theorem heard_init (hcc : cfg.clients address = some cc) (buffer : Nat → UInt8)
    : Heard cfg cc address file (init cfg buffer) := by
  refine ⟨Server.consistent_init, Server.allStrategies_init, ?_, ?_, ?_, ?_, ?_⟩
  all_goals simp [init, hcc, Client.new, Server.init]

def Lost (cc : ClientConfig) (file : Bytes) (c : ClientRdtStrategy) : Prop :=
  match cc.mode with
  | .stopAndWait => ClientSelectiveRepeat.Inv (file.drop MAX_DATA_SIZE) c
  | .selectiveRepeat => ClientSelectiveRepeat.Inv (file.drop MAX_DATA_SIZE) c
  | .goBackN => ClientGoBackN.Waiting c

theorem lost_new (cc : ClientConfig) (file : Bytes) : Lost cc file cc.newStrategy := by
  unfold Lost ClientConfig.newStrategy
  cases cc.mode with
  | stopAndWait => exact ClientSelectiveRepeat.inv_new _ _
  | selectiveRepeat => exact ClientSelectiveRepeat.inv_new _ _
  | goBackN => exact ⟨rfl, rfl⟩

theorem lost_run (hmode : ¬ Compatible cfg cc) (hN : (file.chunks MAX_DATA_SIZE).length < 2 ^ 32 - 1)
    (hheard : Heard cfg cc address file s) {c c' : ClientRdtStrategy} (h : Lost cc file c)
    {datagram : Bytes} (hmem : datagram ∈ s.toClient address)
    (hrun : cc.run c datagram = some c')
    : Lost cc file c' := by
  unfold Compatible at hmode
  have hfrom := hheard.toClient hmem
  unfold firstSeqno at hfrom
  unfold Lost ClientConfig.run at *
  cases hcc : cc.mode with
  | stopAndWait | selectiveRepeat =>
    simp only [hcc, reduceCtorEq, false_iff, not_not] at hmode h hrun ⊢
    rw [if_pos hmode] at hfrom
    simp only [ClientSelectiveRepeat.run, Option.map_eq_some_iff] at hrun
    obtain ⟨q, hq, rfl⟩ := hrun
    obtain ⟨n, rfl⟩ | ⟨p, hp, rfl⟩ := hfrom
    . rw [ClientRdtStrategy.recvPacket_empty, Option.some.injEq] at hq
      rw [← hq]
      exact ClientSelectiveRepeat.inv_receive_empty h n
    . rw [ClientRdtStrategy.recvPacket_of_mem_packets hp, Option.some.injEq] at hq
      rw [← hq]
      exact ClientSelectiveRepeat.inv_receive_zero h hN hp
  | goBackN =>
    simp only [hcc, true_iff] at hmode h hrun ⊢
    rw [if_neg hmode] at hfrom
    simp only [ClientGoBackN.run, Option.map_eq_some_iff] at hrun
    obtain ⟨q, hq, rfl⟩ := hrun
    obtain ⟨n, rfl⟩ | ⟨p, hp, rfl⟩ := hfrom
    . rw [ClientRdtStrategy.recvPacket_empty, Option.some.injEq] at hq
      rw [← hq]
      exact ClientGoBackN.waiting_receive_empty h n
    . rw [ClientRdtStrategy.recvPacket_of_mem_packets hp, Option.some.injEq] at hq
      rw [← hq]
      exact ClientGoBackN.waiting_receive h hN hp

theorem lost_read (hmode : ¬ Compatible cfg cc) (hN : (file.chunks MAX_DATA_SIZE).length < 2 ^ 32 - 1)
    (hheard : Heard cfg cc address file s) {c : Client} (h : Lost cc file c.rdt) {datagram : Bytes}
    (hmem : datagram ∈ s.toClient address)
    : Lost cc file (c.read cc datagram).rdt := by
  unfold Client.read
  split
  . next rdt hrun => exact lost_run hmode hN hheard h hmem hrun
  . exact h

theorem lost_step (hmode : ¬ Compatible cfg cc) (hN : (file.chunks MAX_DATA_SIZE).length < 2 ^ 32 - 1)
    (hcc : cfg.clients address = some cc) (hheard : Heard cfg cc address file s)
    (h : Lost cc file (s.clients address).rdt) (hgenuine : Genuine address e) (hs : Step cfg s e s')
    : Lost cc file (s'.clients address).rdt := by
  have hset (a : Address) (c : Client) (hc : a = address → Lost cc file c.rdt)
      : Lost cc file ((s.setClient a c).clients address).rdt := by
    simp only [State.setClient]
    by_cases ha : address = a
    . subst ha
      rw [Function.update_self]
      exact hc rfl
    . rw [Function.update_of_ne ha]
      exact h
  cases hs with
  | server => exact h
  | sendRequest => exact hset _ _ (fun ha => ha ▸ h)
  | handshake => exact hset _ _ (fun ha => ha ▸ h)
  | @run a _ datagram hcc' _ _ _ hmem =>
    apply hset
    intro ha
    subst ha
    rw [hcc, Option.some.injEq] at hcc'
    subst hcc'
    exact lost_read hmode hN hheard h hmem
  | drop => exact h
  | foreign => exact hset _ _ (fun ha => absurd ha hgenuine)

theorem output_of_lost {c : ClientRdtStrategy} (h : Lost cc file c)
    : c.output <+: if cc.mode = .goBackN then [] else file.drop MAX_DATA_SIZE := by
  unfold Lost at h
  cases hcc : cc.mode with
  | stopAndWait | selectiveRepeat =>
    simp only [hcc] at h
    rw [h.output_eq, if_neg (by simp)]
    exact List.flatten_take_chunks_prefix MAX_DATA_SIZE_pos _ _
  | goBackN =>
    simp only [hcc] at h
    rw [h.2, if_pos rfl]

theorem mismatched_of_reachable (hmode : ¬ Compatible cfg cc) (hcc : cfg.clients address = some cc)
    (hfile : requested cfg cc = .whole file) (hvalid : Valid cfg cc file)
    (h : StepFn.ReachableWhen (step cfg) (fun _ e => Genuine address e) (init cfg buffer) s)
    : (s.clients address).rdt.output
          <+: (if cc.mode = .goBackN then [] else file.drop MAX_DATA_SIZE)
        ∧ (file ≠ [] → (s.clients address).rdt.output ≠ file) := by
  have hinv : Heard cfg cc address file s ∧ Lost cc file (s.clients address).rdt := by
    apply h.invariant
      (P := fun s => Heard cfg cc address file s ∧ Lost cc file (s.clients address).rdt)
    . refine ⟨heard_init hcc buffer, ?_⟩
      simp only [init, hcc]
      exact lost_new cc file
    . intro s e s' hs hgenuine hstep
      have hstep := Step.of_step hstep
      have hN := (hvalid 0).length_chunks_lt
      exact ⟨heard_step hvalid hcc hfile hs.1 hgenuine hstep,
        lost_step hmode hN hcc hs.1 hs.2 hgenuine hstep⟩
  have hsub := output_of_lost hinv.2
  refine ⟨hsub, ?_⟩
  intro hne heq
  have hpos := List.length_pos_of_ne_nil hne
  have hle := hsub.length_le
  have hcut : (if cc.mode = .goBackN then [] else file.drop MAX_DATA_SIZE).length < file.length := by
    split
    . exact hpos
    . rw [List.length_drop]
      have := MAX_DATA_SIZE_pos
      omega
  rw [heq] at hle
  omega

def sampleMismatch : Config :=
  { sampleConfig with server := { sampleConfig.server with mode := .goBackN } }

def sampleLostRun : List Event :=
  let client := Server.sampleClient 1
  [
    .sendRequest client, .server (.recvfrom client (Server.sampleRequest [1]) 5), .server .register,
    .server .insert, .server (.construct 0), .handshake client (AckPacket.new 0).pack,
    .run client (DataPacket.new [10, 20] 0).pack,
    .server (.recvfrom client (AckPacket.new 0).pack 7), .server (.takeAck 0), .server (.finish 0),
    .run client (DataPacket.new [] 1).pack
  ]

def lostState : State :=
  (StepFn.run (StepFn.guarded (step sampleMismatch) (fun _ e => Genuine (Server.sampleClient 1) e))
    (init sampleMismatch (fun _ => 0)) sampleLostRun).get (by decide +kernel)

theorem reachable_lostState
    : StepFn.ReachableWhen (step sampleMismatch) (fun _ e => Genuine (Server.sampleClient 1) e)
        (init sampleMismatch (fun _ => 0)) lostState := by
  apply StepFn.reachableWhen_of_guarded
  apply StepFn.reachable_get_run

theorem mismatched_lostState
    : (lostState.clients (Server.sampleClient 1)).rdt.done = true
      ∧ (lostState.clients (Server.sampleClient 1)).rdt.output ≠ [10, 20] := by
  have hcc : sampleMismatch.clients (Server.sampleClient 1) = some sampleClientConfig := by decide
  have hvalid : Valid sampleMismatch sampleClientConfig [10, 20] := by
    intro id
    refine ⟨fun _ => rfl, ?_, ?_, ?_, ?_⟩
    all_goals
      simp only [transferConfig]
      decide
  have hlost := mismatched_of_reachable (by decide) hcc (by decide) hvalid reachable_lostState
  exact ⟨by decide +kernel, hlost.2 (by decide)⟩

end Deployment
