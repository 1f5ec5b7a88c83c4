import RdtProtocol.Server.Strategy.InterleavingTimer
import RdtProtocol.Transfer.Progress
import RdtProtocol.Transfer.Regular

/-!
This module contains the transfer whose server has the worker and the timer as two threads. It shows that
such a transfer does nothing to the client that one with atomic operations cannot do.
-/

namespace Transfer

open ClientSelectiveRepeat (Accepted)

/--
`world.server` is what the threads share.
-/
structure Threaded where
  world : World
  timer : Interleaving.Timer
  worker : Interleaving.Worker
  fault : Option Interleaving.Fault

inductive ThreadedEvent where
  | world (e : Event)
  | worker
  | timer
  deriving DecidableEq, Repr

namespace Threaded

def state (c : Threaded) : Interleaving.State :=
  { strategy := c.world.server, timer := c.timer, worker := c.worker, fault := c.fault }

-- A packet enters the network in the middle of `send_packet`.
def withState (c : Threaded) (t : Interleaving.State) : Threaded :=
  {
    world := c.world.withServer t.strategy
    timer := t.timer
    worker := t.worker
    fault := t.fault
  }

def withWorld (c : Threaded) (world : World) : Threaded :=
  { c with world }

end Threaded

-- The worker takes the next ACK when it is through with the one before, and what is done on a time-out is
-- up to the timer.
def stepWorld (cfg : Config) (c : Threaded) (e : Event) : Option Threaded :=
  match e with
  | .ack datagram =>
    if c.world.stage = .running ∧ c.world.server.isDone = false ∧ datagram ∈ c.world.toServer then
      (AckPacket.unpack (datagram.bytes cfg)).bind fun ack =>
        (Interleaving.step cfg.mode cfg.env c.state (.acknowledge ack)).map c.withState
    else
      none
  | .finish => if c.worker = .idle then (step cfg c.world .finish).map c.withWorld else none
  | .timeOut => none
  | .resend _ => none
  | e => (step cfg c.world e).map c.withWorld

-- The threads of the server start with the strategy, and the timer never ends.
def stepThreaded (cfg : Config) (c : Threaded) (e : ThreadedEvent) : Option Threaded :=
  if c.fault.isSome then
    none
  else
    match e with
    | .world e => stepWorld cfg c e
    | .worker => (Interleaving.step cfg.mode cfg.env c.state .worker).map c.withState
    | .timer =>
      if c.world.started then
        (Interleaving.step cfg.mode cfg.env c.state .timer).map c.withState
      else
        none

def initThreaded (cfg : Config) : Threaded :=
  { world := init cfg, timer := .test, worker := .idle, fault := none }

variable {cfg : Config} {c c' : Threaded} {w w' : World} {e : Event}

def Config.atomic (cfg : Config) : Config :=
  { cfg with env := { cfg.env with now := id } }

/--
What the worker still has to do has been done in `w`.
-/
structure Linearized (cfg : Config) (c : Threaded) (w : World) : Prop where
  stage_eq : w.stage = c.world.stage
  receiving_eq : w.receiving = c.world.receiving
  client_eq : w.client = c.world.client
  toServer_eq : w.toServer = c.world.toServer
  toClient_subset : c.world.toClient ⊆ w.toClient
  windows
    : ∃ s, Interleaving.SameWindows cfg.mode c.world.server s
        ∧ Interleaving.Finishes cfg.mode cfg.atomic.env
            { strategy := s, timer := .test, worker := c.worker, fault := none } w.server
  idle : c.world.stage = .unregistered ∨ c.world.stage = .created → c.worker = .idle
  place : Interleaving.TimerPlace cfg.mode c.state

theorem Linearized.sameWindows (h : Linearized cfg c w) (hidle : c.worker = .idle)
    : Interleaving.SameWindows cfg.mode c.world.server w.server := by
  obtain ⟨s, hsame, hfinish⟩ := h.windows
  rw [hfinish.eq_of_idle hidle]
  exact hsame

theorem toClient_subset_withServer {v : World} (hsub : v.toClient ⊆ w.toClient) (hemits : Emits w)
    {t : RdtStrategy} (hsent : t.sent ⊆ w.server.sent)
    : (v.withServer t).toClient ⊆ w.toClient := by
  intro d hd
  simp only [World.withServer, List.mem_append, List.mem_map] at hd
  cases hd with
  | inl hd => exact hsub hd
  | inr hd =>
    obtain ⟨p, hp, rfl⟩ := hd
    exact hemits p (hsent (List.mem_of_mem_drop hp))

theorem Linearized.withState (h : Linearized cfg c w) (hw : w' = w ∨ ∃ t, w' = w.withServer t)
    (hemits : Emits w') {st : Interleaving.State}
    (hwindows : ∃ s, Interleaving.SameWindows cfg.mode st.strategy s
      ∧ Interleaving.Finishes cfg.mode cfg.atomic.env
          { strategy := s, timer := .test, worker := st.worker, fault := none } w'.server)
    (hidle : c.world.stage = .unregistered ∨ c.world.stage = .created → st.worker = .idle)
    (hplace : Interleaving.TimerPlace cfg.mode st)
    : Linearized cfg (c.withState st) w' := by
  have hsent : st.strategy.sent ⊆ w'.server.sent := by
    obtain ⟨s, hsame, hfinish⟩ := hwindows
    exact List.Subset.trans hsame.sent_subset hfinish.onward.sent_kept.subset
  have hclient : c.world.toClient ⊆ w'.toClient := by
    obtain rfl | ⟨t, rfl⟩ := hw
    . exact h.toClient_subset
    . exact fun d hd => List.mem_append_left _ (h.toClient_subset hd)
  have htoClient := toClient_subset_withServer hclient hemits hsent
  obtain rfl | ⟨t, rfl⟩ := hw
  . exact ⟨h.stage_eq, h.receiving_eq, h.client_eq, h.toServer_eq, htoClient, hwindows, hidle, hplace⟩
  . exact ⟨h.stage_eq, h.receiving_eq, h.client_eq, h.toServer_eq, htoClient, hwindows, hidle, hplace⟩

theorem Linearized.toClient_concat (h : Linearized cfg c w) (d : ServerDatagram)
    : c.world.toClient ++ [d] ⊆ w.toClient ++ [d] :=
  List.append_subset.mpr
    ⟨List.subset_append_of_subset_left _ h.toClient_subset, List.subset_append_right _ _⟩

theorem linearized_world (h : Linearized cfg c w) {v : World} (hstep : step cfg c.world e = some v)
    (he : e ≠ .start ∧ (∀ d, e ≠ .ack d) ∧ e ≠ .timeOut ∧ (∀ i, e ≠ .resend i))
    (hfinish : e = .finish → c.worker = .idle)
    : ∃ w', step cfg.atomic w e = some w' ∧ Linearized cfg (c.withWorld v) w' := by
  have hserver := h.toServer_eq
  cases Step.of_step hstep with
  | sendRequest hr =>
    refine ⟨{ w with toServer := w.toServer ++ [.request] }, ?_, ?_⟩
    . simp [step, h.receiving_eq, hr]
    . refine { h with toServer_eq := ?_ }
      simp only [Threaded.withWorld, hserver]
  | @request d hs hd =>
    simp only [step, hs, hd, and_self, if_true, Option.map_eq_some_iff] at hstep
    obtain ⟨q, hq, _⟩ := hstep
    refine ⟨{ w with stage := .created, toClient := w.toClient ++ [.requestAck] }, ?_, ?_⟩
    . simp only [step, h.stage_eq, hs, hserver, hd, and_self, if_true, Option.map_eq_some_iff]
      exact ⟨q, hq, trivial⟩
    . exact {
        h with
          stage_eq := rfl
          toClient_subset := h.toClient_concat _
          idle := fun _ => h.idle (.inl hs)
      }
  | finish hs hdone =>
    have hsame := h.sameWindows (hfinish rfl)
    have hdone' : w.server.isDone = true := by
      rw [RdtStrategy.isDone, hsame.window_eq]
      exact hdone
    have hempty : w.server.sendEmptyPacket = c.world.server.sendEmptyPacket := by
      simp only [RdtStrategy.sendEmptyPacket, hsame.nextSeqNumber_eq]
    refine ⟨{ w with stage := .finished, toClient := w.toClient ++ [.terminal w.server.sendEmptyPacket] },
      ?_, ?_⟩
    . simp [step, h.stage_eq, hs, hdone']
    . refine { h with stage_eq := rfl, toClient_subset := ?_, idle := fun _ => hfinish rfl }
      rw [hempty]
      exact h.toClient_concat _
  | @handshake d hr hd =>
    refine ⟨{ w with receiving := true }, ?_, ?_⟩
    . simp [step, h.receiving_eq, hr, h.toClient_subset hd]
    . exact { h with receiving_eq := rfl }
  | @run d client hr hdone hd hrun =>
    refine ⟨w.withClient client, ?_, ?_⟩
    . have hrun' : runClient cfg.atomic w.client d.bytes = some client := h.client_eq ▸ hrun
      simp [step, h.receiving_eq, h.client_eq ▸ hdone, hr, h.toClient_subset hd, hrun']
    . refine { h with client_eq := rfl, toServer_eq := ?_ }
      simp only [Threaded.withWorld, World.withClient, hserver, h.client_eq]
  | start _ => exact absurd rfl he.1
  | ack _ _ _ _ => exact absurd rfl (he.2.1 _)
  | timeOut _ _ => exact absurd rfl he.2.2.1
  | resend _ _ _ => exact absurd rfl (he.2.2.2 _)

theorem linearized_start (hmode : cfg.mode ≠ .goBackN) (h : Linearized cfg c w) (hemits : Emits w)
    (hstage : c.world.stage = .created)
    : Linearized cfg
        (c.withWorld { c.world.withServer (start cfg c.world.server) with stage := .running })
        { w.withServer (start cfg.atomic w.server) with stage := .running } := by
  have hidle := h.idle (.inr hstage)
  have hdup : cfg.atomic.env.tripleDupAck = cfg.env.tripleDupAck := rfl
  have hsame := (h.sameWindows hidle).start hmode hdup
  have hemits := hemits.withServer (cfg.mode.sent_prefix_start cfg.atomic.env w.server) .running
  have hsub : c.world.toClient ⊆ (w.withServer (start cfg.atomic w.server)).toClient :=
    List.subset_append_of_subset_left _ h.toClient_subset
  refine ⟨rfl, h.receiving_eq, h.client_eq, h.toServer_eq, ?_, ?_, by simp [Threaded.withWorld], ?_⟩
  . exact toClient_subset_withServer hsub hemits hsame.sent_subset
  . refine ⟨_, hsame, ?_⟩
    simp only [Threaded.withWorld, hidle]
    exact ⟨0, rfl⟩
  . exact Interleaving.timerPlace_start h.place hidle cfg.env

theorem linearized_step (hmode : cfg.mode ≠ .goBackN) (hcfg : cfg.Valid) {e : ThreadedEvent}
    (h : Linearized cfg c w) (hw : StepFn.Reachable (step cfg.atomic) (init cfg.atomic) w)
    (hstep : stepThreaded cfg c e = some c')
    : StepFn.CanReach (step cfg.atomic) w (Linearized cfg c') := by
  have hatomic (e : Event) {w' : World} (hstep : step cfg.atomic w e = some w') : Emits w' :=
    emits_of_reachable (hw.step trivial hstep)
  simp only [stepThreaded, Option.ite_none_left_eq_some] at hstep
  obtain ⟨_, hstep⟩ := hstep
  have hdup : cfg.atomic.env.tripleDupAck = cfg.env.tripleDupAck := rfl
  cases e with
  | world e =>
    cases e with
    | start =>
      simp only [stepWorld, Option.map_eq_some_iff] at hstep
      obtain ⟨v, hv, rfl⟩ := hstep
      cases Step.of_step hv with
      | start hstage =>
        refine .of_step (e := .start) ?_ (.refl (linearized_start hmode h (emits_of_reachable hw) hstage))
        simp [step, h.stage_eq, hstage]
    | ack d =>
      simp only [stepWorld, Option.ite_none_right_eq_some, Option.bind_eq_some_iff,
        Option.map_eq_some_iff] at hstep
      obtain ⟨hguard, a, ha, st, hst, rfl⟩ := hstep
      have hplace := Interleaving.timerPlace_step hmode h.place hst
      simp only [Interleaving.step, Option.ite_none_left_eq_some, Option.ite_none_right_eq_some] at hst
      obtain ⟨_, hidle, hst⟩ := hst
      split at hst
      . next p hfind =>
        cases hst
        have hsame := h.sameWindows hidle
        have hw' : step cfg.atomic w (.ack d)
            = some (w.withServer (acknowledgePacket cfg.atomic w.server a)) := by
          have ha' : AckPacket.unpack (d.bytes cfg.atomic) = some a := ha
          have hdone : w.server.isDone = false := by
            rw [RdtStrategy.isDone, hsame.window_eq]
            exact hguard.2.1
          simp [step, h.stage_eq, hguard.1, hdone, h.toServer_eq, hguard.2.2, ha']
        refine .of_step hw' (.refl (h.withState (.inr ⟨_, rfl⟩) (hatomic _ hw') ?_ ?_ hplace))
        . refine ⟨_, hsame.setAck p true, ?_⟩
          have hfind' : Interleaving.find cfg.mode w.server a = some p := (hsame.find a).trans hfind
          exact Interleaving.finishes_acked (c := ⟨w.server, .test, .idle, none⟩) hmode rfl _ hfind'
        . simp [hguard.1]
      . cases hst
        exact .refl (h.withState (.inl rfl) (emits_of_reachable hw) h.windows h.idle h.place)
    | finish =>
      simp only [stepWorld, Option.ite_none_right_eq_some, Option.map_eq_some_iff] at hstep
      obtain ⟨hidle, v, hv, rfl⟩ := hstep
      obtain ⟨w', hw', hlin⟩ := linearized_world h hv (by simp) (fun _ => hidle)
      exact .of_step hw' (.refl hlin)
    | timeOut => simp [stepWorld] at hstep
    | resend i => simp [stepWorld] at hstep
    | sendRequest | request | handshake | run =>
      simp only [stepWorld, Option.map_eq_some_iff] at hstep
      obtain ⟨v, hv, rfl⟩ := hstep
      obtain ⟨w', hw', hlin⟩ := linearized_world h hv (by simp) (by simp)
      exact .of_step hw' (.refl hlin)
  | worker =>
    simp only [Option.map_eq_some_iff] at hstep
    obtain ⟨st, hst, rfl⟩ := hstep
    have hplace := Interleaving.timerPlace_step hmode h.place hst
    simp only [Interleaving.step, Option.ite_none_left_eq_some] at hst
    obtain ⟨_, hidle, hst⟩ := hst
    cases hst
    refine .refl (h.withState (.inl rfl) (emits_of_reachable hw) ?_ (fun hs => absurd (h.idle hs) hidle)
      hplace)
    obtain ⟨s, hsame, hfinish⟩ := h.windows
    obtain ⟨hnext, hworker⟩ := hsame.stepWorker hmode hdup c.worker
    have hrest := hfinish.worker rfl hidle
    simp only [hworker] at hrest
    exact ⟨_, hnext, hrest⟩
  | timer =>
    simp only [Option.ite_none_right_eq_some, Option.map_eq_some_iff] at hstep
    obtain ⟨hstarted, st, hst, rfl⟩ := hstep
    have hplace := Interleaving.timerPlace_step hmode h.place hst
    simp only [Interleaving.step, Option.ite_none_left_eq_some] at hst
    cases Interleaving.stepTimer_cases h.place hst.2 with
    | inl hstutter =>
      obtain ⟨hworker, hsame⟩ := hstutter
      refine .refl (h.withState (.inl rfl) (emits_of_reachable hw) ?_ (fun hs => hworker ▸ h.idle hs)
        hplace)
      obtain ⟨s, hs, hfinish⟩ := h.windows
      rw [hworker]
      exact ⟨s, hsame s hs, hfinish⟩
    | inr hfront =>
      obtain ⟨hm, hidle, hidle', p, rest, hwindow, hstrategy⟩ := hfront
      have hstarted' : w.started = true := by
        simpa only [World.started, h.stage_eq] using hstarted
      have hmode' : cfg.atomic.mode ≠ .goBackN := hmode
      have hvalid : cfg.atomic.Valid := { hcfg with }
      have hset : w.server.unackedPackets ≠ [] := by
        have hinv := (linked_of_reachable hmode' hvalid hw).server
        have htimer := timerInv_of_reachable hmode' hvalid strictMono_id hw hstarted'
        have hhead := head?_unackedPackets hmode' hinv htimer
        rw [(h.sameWindows hidle).window_eq] at hhead
        intro hnil
        rw [hnil, List.head?_nil, eq_comm, List.head?_eq_none_iff] at hhead
        simp [SelectiveRepeat.window_shrinkWindow, Threaded.state, hhead] at hwindow
      have hw' : step cfg.atomic w .timeOut = some (w.withServer (handleTimeOut cfg.atomic w.server)) := by
        simp [step, hstarted', hset]
      refine .of_step hw' (.refl (h.withState (.inr ⟨_, rfl⟩) (hatomic _ hw') ?_ (fun _ => hidle') hplace))
      have hsame := (hm ▸ h.sameWindows hidle).handleTimeOut hdup hset hwindow
      have heq : handleTimeOut cfg.atomic w.server
          = SelectiveRepeat.handleTimeOut cfg.atomic.env w.server := by
        have hm' : cfg.atomic.mode = .selectiveRepeat := hm
        simp only [handleTimeOut, Mode.handleTimeOut, hm']
      rw [hstrategy, hidle', heq, hm]
      exact ⟨_, hsame, ⟨0, rfl⟩⟩

theorem linearized_init (cfg : Config) : Linearized cfg (initThreaded cfg) (init cfg.atomic) := by
  refine ⟨rfl, rfl, rfl, rfl, fun _ => id, ⟨_, .refl cfg.mode _, ⟨0, rfl⟩⟩, fun _ => rfl, trivial, ?_⟩
  intro _
  refine ⟨?_, ?_, ?_⟩
  . simp [Threaded.state, initThreaded, init, unackedPackets_newStrategy]
  . simp [Threaded.state, initThreaded]
  . simp [Threaded.state, initThreaded, Interleaving.Timer.packet]

theorem linearized_of_reachable (hmode : cfg.mode ≠ .goBackN) (hcfg : cfg.Valid)
    (h : StepFn.Reachable (stepThreaded cfg) (initThreaded cfg) c)
    : ∃ w, StepFn.Reachable (step cfg.atomic) (init cfg.atomic) w ∧ Linearized cfg c w := by
  apply h.simulation (linearized_init cfg)
  intro c e c' w hlin hw _ hstep
  exact linearized_step hmode hcfg hlin hw hstep

theorem atomic_of_threads (hmode : cfg.mode ≠ .goBackN) (hcfg : cfg.Valid)
    (h : StepFn.Reachable (stepThreaded cfg) (initThreaded cfg) c)
    : ∃ w, StepFn.Reachable (step cfg.atomic) (init cfg.atomic) w
        ∧ w.stage = c.world.stage
        ∧ w.receiving = c.world.receiving
        ∧ w.client = c.world.client
        ∧ w.toServer = c.world.toServer
        ∧ c.world.toClient ⊆ w.toClient
        ∧ (c.worker = .idle → Interleaving.SameWindows cfg.mode c.world.server w.server) := by
  obtain ⟨w, hw, hlin⟩ := linearized_of_reachable hmode hcfg h
  exact ⟨w, hw, hlin.stage_eq, hlin.receiving_eq, hlin.client_eq, hlin.toServer_eq, hlin.toClient_subset,
    hlin.sameWindows⟩

def threadedConfig : Config :=
  { sampleConfig with env := { now := fun n => n * 2000000000, tripleDupAck := fun _ => false } }

def threadedRun : List ThreadedEvent :=
  [
    .world .sendRequest, .world (.request .request), .world .start, .timer, .timer, .timer,
    .world (.handshake .requestAck), .timer, .world (.run (.data (DataPacket.new [10, 20] 1))), .timer,
    .timer, .world (.ack (.ack (AckPacket.new 1))), .timer, .worker, .worker, .world .finish,
    .world (.run (.terminal (DataPacket.new [] 2)))
  ]

def sampleThreaded : Threaded :=
  (StepFn.run (stepThreaded threadedConfig) (initThreaded threadedConfig) threadedRun).get
    (by decide +kernel)

theorem reachable_sampleThreaded
    : StepFn.Reachable (stepThreaded threadedConfig) (initThreaded threadedConfig) sampleThreaded := by
  apply StepFn.reachable_get_run

theorem threadedConfig_valid : threadedConfig.Valid := by
  constructor <;> decide

theorem atomic_sampleThreaded
    : ∃ w, StepFn.Reachable (step threadedConfig.atomic) (init threadedConfig.atomic) w
        ∧ w.stage = sampleThreaded.world.stage
        ∧ w.receiving = sampleThreaded.world.receiving
        ∧ w.client = sampleThreaded.world.client
        ∧ w.toServer = sampleThreaded.world.toServer
        ∧ sampleThreaded.world.toClient ⊆ w.toClient
        ∧ (sampleThreaded.worker = .idle
          → Interleaving.SameWindows .selectiveRepeat sampleThreaded.world.server w.server) :=
  atomic_of_threads (by decide) threadedConfig_valid reachable_sampleThreaded

theorem delivered_of_threads (hmode : cfg.mode ≠ .goBackN) (hcfg : cfg.Valid)
    (h : StepFn.Reachable (stepThreaded cfg) (initThreaded cfg) c)
    : c.world.client.output <+: cfg.file
        ∧ (∀ p ∈ c.world.server.popped, Accepted c.world.client p.packet.seqno)
        ∧ (c.world.client.done = true ∨ c.world.stage = .finished → c.world.client.output = cfg.file) := by
  obtain ⟨w, hw, hlin⟩ := linearized_of_reachable hmode hcfg h
  have hmode' : cfg.atomic.mode ≠ .goBackN := hmode
  have hvalid : cfg.atomic.Valid := { hcfg with }
  have hlinked := linked_of_reachable hmode' hvalid hw
  rw [← hlin.client_eq, ← hlin.stage_eq]
  refine ⟨?_, ?_, ?_⟩
  . rw [hlinked.client.output_eq]
    exact List.flatten_take_chunks_prefix MAX_DATA_SIZE_pos cfg.file _
  . intro p hp
    obtain ⟨s, hsame, hfinish⟩ := hlin.windows
    have hpopped := hfinish.onward.popped_kept.subset (hsame.popped_eq ▸ hp)
    have hinv := inv_of_serverInv hmode' hlinked.server
    refine hlinked.accepted p ?_ (hinv.popped_acked p hpopped)
    exact hinv.content ▸ List.mem_append_left _ hpopped
  . intro hend
    have hfinished := hend.elim hlinked.done id
    have hlt := lt_expectedSeqno_of_finished hmode' hvalid hlinked hfinished
    exact ClientSelectiveRepeat.output_eq_file hlinked.client hlt

theorem delivered_sampleThreaded : sampleThreaded.world.client.output = [10, 20] := by
  have hend : sampleThreaded.world.client.done = true := by decide +kernel
  exact (delivered_of_threads (by decide) threadedConfig_valid reachable_sampleThreaded).2.2 (.inl hend)

theorem run_worker {n : Nat} (hfault : c.fault = none) {s : RdtStrategy}
    (h : StepFn.run (Interleaving.step cfg.mode cfg.env) c.state (List.replicate n .worker)
      = some { c.state with strategy := s, worker := .idle })
    : ∃ c', StepFn.run (stepThreaded cfg) c (List.replicate n .worker) = some c'
        ∧ c'.state = { c.state with strategy := s, worker := .idle }
        ∧ c'.world.stage = c.world.stage := by
  induction n generalizing c with
  | zero =>
    rw [List.replicate_zero] at h
    exact ⟨c, rfl, Option.some.inj h, rfl⟩
  | succ n ih =>
    rw [List.replicate_succ, StepFn.run_cons, Option.bind_eq_some_iff] at h
    obtain ⟨st, hst, hrun⟩ := h
    have hnext := hst
    simp only [Interleaving.step, Option.ite_none_left_eq_some, Option.some.injEq] at hnext
    obtain ⟨_, _, hnext⟩ := hnext
    have hsame : { st with strategy := s, worker := .idle }
        = { c.state with strategy := s, worker := .idle } := by
      rw [← hnext]
    have hfault' : (c.withState st).fault = none := by
      rw [Threaded.withState, ← hnext]
      exact hfault
    obtain ⟨c', hrun', hstate, hstage⟩ := ih hfault' (hrun.trans (congrArg some hsame.symm))
    refine ⟨c', ?_, hstate.trans hsame, hstage⟩
    rw [List.replicate_succ, StepFn.run_cons]
    simp only [stepThreaded, hfault, Option.isSome_none, Bool.false_eq_true, if_false, hst, Option.map_some,
      Option.bind_some]
    exact hrun'

theorem released_of_threads (hmode : cfg.mode ≠ .goBackN) (hcfg : cfg.Valid)
    (h : StepFn.Reachable (stepThreaded cfg) (initThreaded cfg) c) (hfault : c.fault = none)
    : ∃ n c', StepFn.run (stepThreaded cfg) c (List.replicate n .worker) = some c'
        ∧ c'.worker = .idle ∧ c'.timer = c.timer ∧ c'.fault = none
        ∧ (c.world.started = true → (stepThreaded cfg c' .timer).isSome = true) := by
  obtain ⟨w, hw, hlin⟩ := linearized_of_reachable hmode hcfg h
  obtain ⟨s, hsame, hfinish⟩ := hlin.windows
  have hdup : cfg.atomic.env.tripleDupAck = cfg.env.tripleDupAck := rfl
  obtain ⟨t, ⟨n, hn⟩, _⟩ := hsame.finishes hmode hdup (c := c.state) hfault hfinish
  obtain ⟨c', hrun, hstate, hstage⟩ := run_worker hfault hn
  have hidle : c'.worker = .idle := congrArg Interleaving.State.worker hstate
  have hfault' : c'.fault = none := (congrArg Interleaving.State.fault hstate).trans hfault
  refine ⟨n, c', hrun, hidle, congrArg Interleaving.State.timer hstate, hfault', ?_⟩
  intro hstarted
  have hstarted' : c'.world.started = true := by
    simpa only [World.started, hstage] using hstarted
  simp only [stepThreaded, hfault', Option.isSome_none, Bool.false_eq_true, if_false, hstarted', if_true,
    Option.isSome_map, Interleaving.step, show c'.state.fault = none from hfault']
  exact Interleaving.stepTimer_isSome hidle

def busyThreaded : Threaded :=
  (StepFn.run (stepThreaded threadedConfig) (initThreaded threadedConfig) (threadedRun.take 13)).get
    (by decide +kernel)

theorem released_busyThreaded
    : ∃ n c', StepFn.run (stepThreaded threadedConfig) busyThreaded (List.replicate n .worker) = some c'
        ∧ c'.worker = .idle ∧ c'.timer = busyThreaded.timer ∧ c'.fault = none
        ∧ (busyThreaded.world.started = true
          → (stepThreaded threadedConfig c' .timer).isSome = true) := by
  have hreach : StepFn.Reachable (stepThreaded threadedConfig) (initThreaded threadedConfig)
      busyThreaded := by
    apply StepFn.reachable_get_run
  exact released_of_threads (by decide) threadedConfig_valid hreach (by decide +kernel)

end Transfer
