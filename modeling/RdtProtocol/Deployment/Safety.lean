import RdtProtocol.Deployment.Refinement
import RdtProtocol.Transfer.Written

/-!
This module contains what the clients of a deployment get, whatever the others do in the meantime.
-/

namespace Deployment

variable {cfg : Config} {cc : ClientConfig} {address : Address} {file : Bytes}
variable {buffer : Nat → UInt8} {s : State}

def Valid (cfg : Config) (cc : ClientConfig) (file : Bytes) : Prop :=
  ∀ id, (transferConfig cfg cc id file).Valid

theorem exists_servedBy (h : Ordered s.server) (address : Address)
    : ∃ id, ServedBy address id s.server := by
  by_cases hex : ∃ (id : Nat) (u : Worker), s.server.workers[id]? = some u ∧ u.address = address
  . obtain ⟨id, u, hu, ha⟩ := hex
    refine ⟨id, ?_⟩
    intro id' u' hu' ha'
    obtain ⟨hlt, hget⟩ := List.getElem?_eq_some_iff.mp hu
    obtain ⟨hlt', hget'⟩ := List.getElem?_eq_some_iff.mp hu'
    have hpairwise := List.pairwise_iff_getElem.mp h.distinct
    cases Nat.lt_trichotomy id id' with
    | inl hlt'' =>
      have := hpairwise id id' hlt hlt' hlt''
      simp [hget, hget', ha, ha'] at this
    | inr hge =>
      cases hge with
      | inl heq => exact heq.symm
      | inr hgt =>
        have := hpairwise id' id hlt' hlt hgt
        simp [hget, hget', ha, ha'] at this
  . refine ⟨0, ?_⟩
    intro id u hu ha
    exact absurd ⟨id, u, hu, ha⟩ hex

theorem refines_transfer (hmode : Compatible cfg cc) (hcc : cfg.clients address = some cc)
    (hfile : requested cfg cc = .whole file)
    (hsizes : cfg.server.mode = .selectiveRepeat → Valid cfg cc file)
    (h : StepFn.ReachableWhen (step cfg) (Undisturbed address) (init cfg buffer) s)
    : ∃ id w, ServedBy address id s.server
        ∧ StepFn.Reachable (Transfer.step (transferConfig cfg cc id file))
            (Transfer.init (transferConfig cfg cc id file)) w
        ∧ Projects cfg (transferConfig cfg cc id file) address s w := by
  obtain ⟨id, hid⟩ := exists_servedBy (ordered_of_reachable h) address
  obtain ⟨w, hw⟩ := simulated_of_reachable hmode hcc hfile (fun id hsr => hsizes hsr id) h hid
  exact ⟨id, w, hid, hw⟩

def sampleConfig : Config :=
  {
    server := {
      mode := .stopAndWait
      env := fun _ => { now := id, tripleDupAck := fun _ => false }
      packetSender := { lossSequence := [10], lossProbability := 0, distribution := fun _ => 1 }
      files := fun path => .whole (if path = [1] then [10, 20] else [30])
      nextSeqNumber := fun _ => 0
      maxWindowSize := 1
      threshold := 1
    }
    clients := fun address =>
      if address = Server.sampleClient 1 then
        some { mode := .stopAndWait, reqFileName := [1], defaultWindowSize := 5 }
      else if address = Server.sampleClient 2 then
        some { mode := .stopAndWait, reqFileName := [2], defaultWindowSize := 5 }
      else
        none
  }

def sampleRun : List Event :=
  let client1 := Server.sampleClient 1
  let client2 := Server.sampleClient 2
  [
    .sendRequest client1, .sendRequest client2,
    .server (.recvfrom client1 (Server.sampleRequest [1]) 5), .server .register, .server .insert,
    .server (.recvfrom client2 (Server.sampleRequest [2]) 6), .server .register,
    .server (.construct 1), .server .insert, .server (.construct 0),
    .handshake client2 (AckPacket.new 0).pack, .handshake client1 (AckPacket.new 0).pack,
    .run client1 (DataPacket.new [10, 20] 1).pack, .run client2 (DataPacket.new [30] 1).pack,
    .server (.recvfrom client1 (AckPacket.new 1).pack 7), .server (.takeAck 0),
    .server (.finish 0), .run client1 (DataPacket.new [] 2).pack
  ]

def sampleState : State :=
  (StepFn.run (StepFn.guarded (step sampleConfig) (Undisturbed (Server.sampleClient 1)))
    (init sampleConfig (fun _ => 0)) sampleRun).get (by decide +kernel)

theorem reachable_sampleState
    : StepFn.ReachableWhen (step sampleConfig) (Undisturbed (Server.sampleClient 1))
        (init sampleConfig (fun _ => 0)) sampleState := by
  apply StepFn.reachableWhen_of_guarded
  apply StepFn.reachable_get_run

def sampleClientConfig : ClientConfig :=
  { mode := .stopAndWait, reqFileName := [1], defaultWindowSize := 5 }

theorem clients_sampleConfig
    : sampleConfig.clients (Server.sampleClient 1) = some sampleClientConfig := by
  decide

theorem refines_sampleState
    : ∃ id w, ServedBy (Server.sampleClient 1) id sampleState.server
        ∧ StepFn.Reachable (Transfer.step (transferConfig sampleConfig sampleClientConfig id [10, 20]))
            (Transfer.init (transferConfig sampleConfig sampleClientConfig id [10, 20])) w
        ∧ Projects sampleConfig (transferConfig sampleConfig sampleClientConfig id [10, 20])
            (Server.sampleClient 1) sampleState w :=
  refines_transfer (by decide) clients_sampleConfig (by decide) (fun hsr => absurd hsr (by decide))
    reachable_sampleState

/--
Whether the worker of an address has sent the terminal packet.
-/
def Finished (s : State) (address : Address) : Prop :=
  ∃ u ∈ s.server.workers, u.address = address ∧ (u.phase = .finalizing ∨ u.phase = .ended)

instance (s : State) (address : Address) : Decidable (Finished s address) :=
  inferInstanceAs (Decidable (∃ u ∈ s.server.workers, _))

theorem stage_of_finished {tcfg : Transfer.Config} {w : Transfer.World} (h : Finished s address)
    (hw : Projects cfg tcfg address s w)
    : w.stage = .finished := by
  obtain ⟨u, hu, ha, hphase⟩ := h
  rw [(hw.served u hu ha).1]
  cases hphase with
  | inl hphase => rw [hphase, stage]
  | inr hphase => rw [hphase, stage]

theorem delivered_of_reachable (hmode : Compatible cfg cc) (hcc : cfg.clients address = some cc)
    (hfile : requested cfg cc = .whole file) (hvalid : Valid cfg cc file)
    (h : StepFn.ReachableWhen (step cfg) (Undisturbed address) (init cfg buffer) s)
    : (s.clients address).rdt.output <+: file
        ∧ (cfg.server.mode ≠ .goBackN
            → (s.clients address).rdt.done = true ∨ Finished s address
              → (s.clients address).rdt.output = file) := by
  obtain ⟨id, hid⟩ := exists_servedBy (ordered_of_reachable h) address
  obtain ⟨w, hreach, hw⟩ := simulated_of_reachable hmode hcc hfile (fun id _ => hvalid id) h hid
  rw [← hw.client]
  constructor
  . obtain ⟨n, hn⟩ := Transfer.written_of_reachable (hvalid id) hreach
    rw [hn]
    exact List.flatten_take_chunks_prefix MAX_DATA_SIZE_pos file n
  . intro hsr hend
    have hlinked := Transfer.linked_of_reachable hsr (hvalid id) hreach
    have hstage : w.stage = .finished := by
      cases hend with
      | inl hdone => exact hlinked.done hdone
      | inr hfinished => exact stage_of_finished hfinished hw
    apply ClientSelectiveRepeat.output_eq_file hlinked.client
    exact Transfer.lt_expectedSeqno_of_finished hsr (hvalid id) hlinked hstage

theorem valid_sampleConfig : Valid sampleConfig sampleClientConfig [10, 20] := by
  intro id
  refine ⟨fun _ => rfl, ?_, ?_, ?_, ?_⟩
  all_goals
    simp only [transferConfig]
    decide

theorem delivered_sampleState
    : (sampleState.clients (Server.sampleClient 1)).rdt.output = [10, 20] := by
  have hdelivered := delivered_of_reachable (by decide) clients_sampleConfig (by decide)
    valid_sampleConfig reachable_sampleState
  have hdone : (sampleState.clients (Server.sampleClient 1)).rdt.done = true := by decide +kernel
  exact hdelivered.2 (by decide) (.inl hdone)

end Deployment
