import RdtProtocol.Deployment.Playing
import RdtProtocol.Transfer.Recovery

/-!
This module contains the converse of the refinement: from wherever a deployment has got to, it can go
through whatever the transfer of one client allows, and so complete it, without any help from others.
-/

namespace Deployment

open StepFn (CanReach)

variable {cfg : Config} {cc : ClientConfig} {address : Address} {id : Nat} {file : Bytes}
variable {buffer : Nat → UInt8} {s s' : State} {w w' : Transfer.World}

def Quiet (address : Address) (s : State) : Prop :=
  ∀ u ∈ s.server.workers, u.address = address
    → u.phase ≠ .created
      ∧ (u.phase = .running → ∀ rdt, u.rdt = some rdt → rdt.isDone = false
          → s.server.workerThreadsAcks u.tid = [])

theorem exists_playing (hop : Operable cfg cc file) (hmode : Compatible cfg cc)
    (hcc : cfg.clients address = some cc) (hfile : requested cfg cc = .whole file)
    (h : StepFn.ReachableWhen (step cfg) (Undisturbed address) (init cfg buffer) s)
    (hrunning : s.server.running = true) (hmain : s.server.mainThread = .receiving)
    (hquiet : Quiet address s)
    : ∃ id w, Playing cfg cc address id file buffer s w := by
  obtain ⟨id, hid, hnext⟩ : ∃ id, ServedBy address id s.server
      ∧ ((∀ u ∈ s.server.workers, u.address ≠ address) → s.server.workers.length = id) := by
    by_cases hne : ∀ u ∈ s.server.workers, u.address ≠ address
    . refine ⟨_, ?_, fun _ => rfl⟩
      intro id u hu ha
      exact absurd ha (hne u (List.mem_of_getElem? hu))
    . obtain ⟨id, hid⟩ := exists_servedBy (ordered_of_reachable h) address
      exact ⟨id, hid, fun hne' => absurd hne' hne⟩
  have hserver := operational_of_reachable hop h
  obtain ⟨w, hworld, hw⟩ := simulated_of_reachable hmode hcc hfile (fun id _ => hop.valid id) h hid
  refine ⟨id, w, h, hworld, hrunning, hmain, hw, hid, hnext, ?_⟩
  intro u hu ha hstage
  obtain ⟨i, hi⟩ := List.mem_iff_getElem?.mp hu
  obtain rfl := hid i u hi ha
  obtain ⟨hcreated, hqueue⟩ := hquiet u hu ha
  have hstage' := (hw.served u hu ha).1
  cases hstage with
  | inl hstage =>
    rw [hstage] at hstage'
    cases hphase : u.phase <;> simp [hphase, stage] at hstage' hcreated
  | inr hstage =>
    have hphase := phase_eq_running hserver hi (hstage'.symm.trans hstage.1)
    obtain ⟨hrdt, _⟩ :=
      hw.started hserver hi ha (by simp [Transfer.World.started, hstage.1])
    exact hqueue hphase w.server hrdt hstage.2

structure Draining (cfg : Config) (address : Address) (buffer : Nat → UInt8) (id tid : Nat) (s : State)
    : Prop where
  reachable : StepFn.ReachableWhen (step cfg) (Undisturbed address) (init cfg buffer) s
  running : s.server.running = true
  mainThread : s.server.mainThread = .receiving
  worker : ∃ u rdt, s.server.workers[id]? = some u ∧ u.address = address ∧ u.tid = tid
    ∧ u.phase = .running ∧ u.rdt = some rdt

theorem servedBy_of_worker (h : Ordered s.server) {u : Worker} (hu : s.server.workers[id]? = some u)
    (ha : u.address = address)
    : ServedBy address id s.server := by
  obtain ⟨id', hid'⟩ := exists_servedBy h address
  rw [hid' id u hu ha]
  exact hid'

theorem Draining.progress (hop : Operable cfg cc file) (hmode : Compatible cfg cc)
    (hcc : cfg.clients address = some cc) (hfile : requested cfg cc = .whole file) {tid : Nat}
    (h : Draining cfg address buffer id tid s) (hquiet : ¬ Quiet address s)
    : CanReach (stepOwn cfg address) s (fun s' => Draining cfg address buffer id tid s'
        ∧ (s'.server.workerThreadsAcks tid).length < (s.server.workerThreadsAcks tid).length) := by
  obtain ⟨u, rdt, hu, ha, htid, hphase, hrdt⟩ := h.worker
  have hordered := ordered_of_reachable h.reachable
  have hserver := operational_of_reachable hop h.reachable
  have hbusy : rdt.isDone = false ∧ s.server.workerThreadsAcks tid ≠ [] := by
    by_contra hnot
    apply hquiet
    intro v hv hva
    have heq := Server.eq_of_address_eq hordered.distinct hv (List.mem_of_getElem? hu) (hva.trans ha.symm)
    subst heq
    refine ⟨by simp [hphase], ?_⟩
    intro _ rdt' hrdt' hdone
    rw [hrdt, Option.some.injEq] at hrdt'
    subst hrdt'
    rw [htid]
    by_contra hqueue
    exact hnot ⟨hdone, hqueue⟩
  obtain ⟨a, acks, hacks⟩ := List.exists_cons_of_ne_nil hbusy.2
  have hid := servedBy_of_worker hordered hu ha
  obtain ⟨w, hworld, hw⟩ :=
    simulated_of_reachable hmode hcc hfile (fun id _ => hop.valid id) h.reachable hid
  have hstage : w.stage = .running := by
    rw [(hw.served u (List.mem_of_getElem? hu) ha).1, hphase, stage]
  obtain ⟨hrdt', _⟩ := hw.started hserver hu ha (by simp [Transfer.World.started, hstage])
  have hinv := (Transfer.linked_of_reachable (hop.ne_goBackN id) (hop.valid id) hworld).server
  rw [hrdt, Option.some.injEq] at hrdt'
  rw [← hrdt'] at hinv
  obtain ⟨sender, hs⟩ := exists_takeAck hop hserver hu hphase hrdt hinv hbusy.1 (htid ▸ hacks)
  apply CanReach.of_own hs h.running ⟨trivial, trivial⟩ (own_of_worker rfl hu ha)
  apply CanReach.refl
  refine ⟨⟨h.reachable.step (e := Event.server (.takeAck id)) ⟨trivial, trivial⟩ (hs.step_eq h.running),
    h.running, h.mainThread, ?_⟩, ?_⟩
  . have hlt := (List.getElem?_eq_some_iff.mp hu).1
    exact ⟨_, _, List.getElem?_set_self hlt, ha, htid, hphase, rfl⟩
  . simp [tookAck, Server.setWorker, Server.pop, htid, hacks]

structure Settled (cfg : Config) (address : Address) (buffer : Nat → UInt8) (s : State) : Prop where
  reachable : StepFn.ReachableWhen (step cfg) (Undisturbed address) (init cfg buffer) s
  running : s.server.running = true
  mainThread : s.server.mainThread = .receiving
  quiet : Quiet address s

theorem Draining.settle (hop : Operable cfg cc file) (hmode : Compatible cfg cc)
    (hcc : cfg.clients address = some cc) (hfile : requested cfg cc = .whole file) {tid : Nat}
    (h : Draining cfg address buffer id tid s)
    : CanReach (stepOwn cfg address) s (Settled cfg address buffer) := by
  have hreach : CanReach (stepOwn cfg address) s (fun s' => Draining cfg address buffer id tid s'
      ∧ Quiet address s') := by
    apply CanReach.of_progress _ h
    . exact fun s => (s.server.workerThreadsAcks tid).length
    . exact fun s hs hquiet => hs.progress hop hmode hcc hfile hquiet
  apply hreach.imp
  intro s' hs'
  exact ⟨hs'.1.reachable, hs'.1.running, hs'.1.mainThread, hs'.2⟩

theorem settle_of_receiving (hop : Operable cfg cc file) (hmode : Compatible cfg cc)
    (hcc : cfg.clients address = some cc) (hfile : requested cfg cc = .whole file)
    (h : StepFn.ReachableWhen (step cfg) (Undisturbed address) (init cfg buffer) s)
    (hrunning : s.server.running = true) (hmain : s.server.mainThread = .receiving)
    : CanReach (stepOwn cfg address) s (Settled cfg address buffer) := by
  have hordered := ordered_of_reachable h
  have hserver := operational_of_reachable hop h
  by_cases hex : ∃ (id : Nat) (u : Worker), s.server.workers[id]? = some u ∧ u.address = address
  . obtain ⟨id, u, hu, ha⟩ := hex
    have hid := servedBy_of_worker hordered hu ha
    obtain ⟨w, _, hw⟩ := simulated_of_reachable hmode hcc hfile (fun id _ => hop.valid id) h hid
    obtain ⟨hstage, hpath, _⟩ := hw.served u (List.mem_of_getElem? hu) ha
    have hlt := (List.getElem?_eq_some_iff.mp hu).1
    cases hphase : u.phase with
    | created =>
      obtain ⟨sender, hs⟩ := exists_construct hop hserver hu hphase hpath
      apply CanReach.of_own hs hrunning ⟨trivial, trivial⟩ (own_of_worker rfl hu ha)
      have hdraining : Draining cfg address buffer id u.tid _ :=
        ⟨h.step (e := Event.server (.construct id)) ⟨trivial, trivial⟩ (hs.step_eq hrunning), hrunning,
          hmain, _, _, List.getElem?_set_self hlt, ha, rfl, rfl, rfl⟩
      exact hdraining.settle hop hmode hcc hfile
    | running =>
      rw [hphase, stage] at hstage
      obtain ⟨hrdt, _⟩ := hw.started hserver hu ha (by simp [Transfer.World.started, hstage])
      have hdraining : Draining cfg address buffer id u.tid s :=
        ⟨h, hrunning, hmain, u, w.server, hu, ha, rfl, hphase, hrdt⟩
      exact hdraining.settle hop hmode hcc hfile
    | blocked => exact absurd hphase (hserver.free u (List.mem_of_getElem? hu)).2
    | finalizing | ended =>
      refine CanReach.refl ⟨h, hrunning, hmain, ?_⟩
      intro v hv hva
      have hv := Server.eq_of_address_eq hordered.distinct hv (List.mem_of_getElem? hu) (hva.trans ha.symm)
      simp [hv, hphase]
  . refine CanReach.refl ⟨h, hrunning, hmain, ?_⟩
    intro u hu ha
    obtain ⟨id, hid⟩ := List.mem_iff_getElem?.mp hu
    exact absurd ⟨id, u, hid, ha⟩ hex

theorem settle_of_reachable (hop : Operable cfg cc file) (hmode : Compatible cfg cc)
    (hcc : cfg.clients address = some cc) (hfile : requested cfg cc = .whole file)
    (h : StepFn.ReachableWhen (step cfg) (Undisturbed address) (init cfg buffer) s)
    (hrunning : s.server.running = true)
    : CanReach (stepOwn cfg address) s (Settled cfg address buffer) := by
  cases hmain : s.server.mainThread with
  | receiving => exact settle_of_receiving hop hmode hcc hfile h hrunning hmain
  | registering a tid =>
    apply CanReach.of_registering h hrunning hmain
    intro hreach
    exact settle_of_receiving hop hmode hcc hfile hreach hrunning rfl
  | inserting tid =>
    have hs : Step cfg s (.server .insert) (inserted s tid) := .server rfl (.insert hmain)
    have hreach := h.step (e := Event.server .insert) ⟨trivial, trivial⟩ (hs.step_eq hrunning)
    apply CanReach.of_own hs hrunning ⟨trivial, trivial⟩ (by simp [Own, Server.Event.worker])
    exact settle_of_receiving hop hmode hcc hfile hreach hrunning rfl

def sampleWaitingConfig : ClientConfig :=
  { mode := .stopAndWait, reqFileName := [2], defaultWindowSize := 5 }

def waitingState : State :=
  (StepFn.run (StepFn.guarded (step sampleConfig) (Undisturbed (Server.sampleClient 2)))
    (init sampleConfig (fun _ => 0)) sampleRun).get (by decide +kernel)

theorem reachable_waitingState
    : StepFn.ReachableWhen (step sampleConfig) (Undisturbed (Server.sampleClient 2))
        (init sampleConfig (fun _ => 0)) waitingState := by
  apply StepFn.reachableWhen_of_guarded
  apply StepFn.reachable_get_run

theorem clients_waiting
    : sampleConfig.clients (Server.sampleClient 2) = some sampleWaitingConfig := by
  decide

theorem operable_sampleConfig : Operable sampleConfig sampleWaitingConfig [30] := by
  refine ⟨by decide, ?_, fun _ => strictMono_id, ⟨by decide, by decide⟩⟩
  intro id
  refine ⟨fun _ => rfl, ?_, ?_, ?_, ?_⟩
  all_goals
    simp only [transferConfig]
    decide

end Deployment
