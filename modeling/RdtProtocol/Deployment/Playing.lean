import RdtProtocol.Deployment.Safety
import RdtProtocol.Server.Operation
import RdtProtocol.Server.Strategy.ModeLemmas
import RdtProtocol.Server.Threads
import RdtProtocol.Transfer.Progress

/-!
This module shows how a deployment plays the steps of the transfer of one client, when that client and
its worker are on their own.
-/

namespace Deployment

open StepFn (CanReach)

/--
Whether an event is one of the client at `address`, of its worker with its timer, or of the main thread when
it does not receive from another address.
-/
def Own (address : Address) (s : State) : Event → Prop
  | .server (.recvfrom a _ _) => a = address
  | .server e => ∀ id ∈ e.worker, ∀ u ∈ s.server.workers[id]?, u.address = address
  | .sendRequest a => a = address
  | .handshake a _ => a = address
  | .run a _ => a = address
  | .foreign _ _ => False

instance (address : Address) (s : State) (e : Event) : Decidable (Own address s e) := by
  unfold Own
  split <;> infer_instance

/--
The other clients, and their workers, have stopped.
-/
def stepOwn (cfg : Config) (address : Address) : State → Event → Option State :=
  StepFn.guarded (step cfg) (fun s e => Undisturbed address s e ∧ Own address s e)

/--
What a client needs to get its file: a server that does not stop, and a timer that does not lose packets.
-/
structure Operable (cfg : Config) (cc : ClientConfig) (file : Bytes) : Prop where
  mode : cfg.server.mode ≠ .goBackN
  valid : Valid cfg cc file
  clock : ∀ id, StrictMono (cfg.server.env id).now
  packetSender : cfg.server.packetSender.Usable

variable {cfg : Config} {cc : ClientConfig} {address : Address} {id : Nat} {file : Bytes}
variable {buffer : Nat → UInt8} {s s' : State} {w w' : Transfer.World} {e : Event}

theorem Operable.ne_goBackN (h : Operable cfg cc file) (id : Nat)
    : (transferConfig cfg cc id file).mode ≠ .goBackN :=
  h.mode

theorem Step.step_eq (h : Step cfg s e s') (hrunning : s.server.running = true)
    : Deployment.step cfg s e = some s' := by
  cases h with
  | server harrives hserver =>
    simp [Deployment.step, stepServer, harrives, hserver.step_eq hrunning]
  | sendRequest hcc hc hreceiving =>
    simp [Deployment.step, hcc, Deployment.sendRequest, hc, hreceiving]
  | handshake hcc hc hreceiving hmem =>
    simp [Deployment.step, hcc, Deployment.handshake, hc, hreceiving, hmem]
  | run hcc hc hreceiving hdone hmem =>
    simp [Deployment.step, hcc, Deployment.run, hc, hreceiving, hdone, hmem]
  | drop hcc hc hreceiving hdone =>
    simp [Deployment.step, hcc, Deployment.foreign, hc, hreceiving, hdone]
  | foreign hcc hc hreceiving hdone =>
    simp [Deployment.step, hcc, Deployment.foreign, hc, hreceiving, hdone]

theorem CanReach.of_own {Q : State → Prop} (hs : Step cfg s e s') (hrunning : s.server.running = true)
    (hun : Undisturbed address s e) (hown : Own address s e)
    (h : CanReach (stepOwn cfg address) s' Q)
    : CanReach (stepOwn cfg address) s Q := by
  apply CanReach.of_step _ h
  . exact e
  . exact (if_pos ⟨hun, hown⟩).trans (hs.step_eq hrunning)

theorem own_of_worker {e : Server.Event} {u : Worker} (he : e.worker = some id)
    (hu : s.server.workers[id]? = some u) (hmine : u.address = address)
    : Own address s (.server e) := by
  cases e with
  | recvfrom | register | insert => contradiction
  | construct | takeAck | timeOut | race | finish | finalize =>
    cases he
    simp [Own, Server.Event.worker, hu, hmine]

theorem operational_of_reachable (hop : Operable cfg cc file)
    (h : StepFn.ReachableWhen (step cfg) (Undisturbed address) (init cfg buffer) s)
    : Server.Operational cfg.server s.server := by
  apply h.invariant (P := fun s => Server.Operational cfg.server s.server)
    (Server.operational_init hop.packetSender)
  intro s e s' hs _ hstep
  cases Step.of_step hstep with
  | server _ hserver => exact hs.step hop.packetSender hop.mode hserver
  | sendRequest | handshake | run | drop | foreign => exact hs

theorem allotted_of_reachable
    (h : StepFn.ReachableWhen (step cfg) (Undisturbed address) (init cfg buffer) s)
    : Server.Allotted s.server := by
  apply h.invariant (P := fun s => Server.Allotted s.server) Server.allotted_init
  intro s e s' hallotted _ hstep
  cases Step.of_step hstep with
  | server _ hserver => exact hallotted.step hserver
  | sendRequest | handshake | run | drop | foreign => exact hallotted

section

variable {u : Worker} {rdt : RdtStrategy}

def wentOn (s : State) (id : Nat) (u : Worker) (sender : PacketSender) : State :=
  { s with server := { s.server with sender }.setWorker id u }

theorem exists_construct (hop : Operable cfg cc file) (hserver : Server.Operational cfg.server s.server)
    (hu : s.server.workers[id]? = some u) (hphase : u.phase = .created)
    (hpath : cfg.server.files u.filePath = .whole file)
    : ∃ sender, Step cfg s (.server (.construct id))
        (wentOn s id { u with rdt := some (cfg.server.start id (File.regular file)), phase := .running }
          sender) := by
  have hopen : (cfg.server.files u.filePath).fopen = some (File.regular file) := by
    rw [hpath]
    rfl
  have hdry : (cfg.server.newStrategy id (File.regular file)).ranDry = false :=
    Mode.ranDry_newStrategy_regular _ _ _ _ file
  obtain ⟨sender, hsend, _⟩ :=
    hserver.send hop.packetSender 0 (cfg.server.start id (File.regular file))
  exact ⟨sender, .server rfl (.construct hu hphase hopen hdry hsend)⟩

def tookAck (s : State) (id : Nat) (u : Worker) (rdt : RdtStrategy) (a : AckPacket)
    (sender : PacketSender)
    : State :=
  {
    s with
      server := { s.server.pop u.tid with sender }.setWorker id
        { u with taken := u.taken ++ [a], rdt := some rdt }
  }

theorem exists_takeAck (hop : Operable cfg cc file) (hserver : Server.Operational cfg.server s.server)
    (hu : s.server.workers[id]? = some u) (hphase : u.phase = .running) (hrdt : u.rdt = some rdt)
    (hinv : Transfer.ServerInv (transferConfig cfg cc id file) rdt) (hdone : rdt.isDone = false)
    {a : AckPacket} {acks : List AckPacket}
    (hacks : s.server.workerThreadsAcks u.tid = a :: acks)
    : ∃ sender, Step cfg s (.server (.takeAck id))
        (tookAck s id u (cfg.server.acknowledgePacket id rdt a) a sender) := by
  by_cases hnil : Server.acknowledged cfg.server.mode rdt a = []
  . refine ⟨s.server.sender, ?_⟩
    have hself : cfg.server.acknowledgePacket id rdt a = rdt :=
      Server.acknowledgePacket_of_acknowledged_eq_nil hop.mode _ hnil
    rw [hself, tookAck, ← hrdt]
    exact .server rfl (.skip hu hphase hrdt hdone hacks hnil)
  . have hdry : (cfg.server.acknowledgePacket id rdt a).ranDry = false := by
      have hnext := Transfer.serverInv_acknowledgePacket (hop.valid id) hinv a
      have hwf := (Transfer.inv_of_serverInv (hop.ne_goBackN id) hnext).builder
      exact RdtStrategy.ranDry_of_wf hwf
    obtain ⟨sender, hsend, _⟩ :=
      hserver.send hop.packetSender rdt.sent.length (cfg.server.acknowledgePacket id rdt a)
    have hstuck := (hserver.free u (List.mem_of_getElem? hu)).1
    exact ⟨sender, .server rfl (.takeAck hu hphase hrdt hdone hacks hnil hstuck hdry hsend)⟩

theorem timerFails_eq_false (hop : Operable cfg cc file)
    (hreach : StepFn.Reachable (Transfer.step (transferConfig cfg cc id file))
      (Transfer.init (transferConfig cfg cc id file)) w)
    (hstarted : w.started = true)
    : Server.timerFails cfg.server.mode w.server = false := by
  have hmem {p : PacketPtr} (hp : p ∈ w.server.unackedPackets)
      : p ∈ w.server.window ∧ p ∉ w.server.popped :=
    Transfer.mem_window_of_unacked (hop.ne_goBackN id) (hop.valid id) (hop.clock id) hreach hstarted hp
  have hpopped : w.server.unackedPackets.any (· ∈ w.server.popped) = false := by
    rw [List.any_eq_false]
    intro p hp
    simpa using (hmem hp).2
  have hwindow : (!w.server.unackedPackets.isEmpty && w.server.window.isEmpty) = false := by
    cases hunacked : w.server.unackedPackets with
    | nil => rfl
    | cons p rest =>
      have hp := (hmem (p := p) (by simp [hunacked])).1
      simp [List.ne_nil_of_mem hp]
  cases hmode : cfg.server.mode with
  | goBackN => exact absurd hmode hop.mode
  | stopAndWait => simp [Server.timerFails, hpopped]
  | selectiveRepeat => simp only [Server.timerFails, hpopped, decide_true, Bool.true_and, hwindow, Bool.or_self]

theorem exists_timeOut (hop : Operable cfg cc file) (hserver : Server.Operational cfg.server s.server)
    (hu : s.server.workers[id]? = some u) (hrdt : u.rdt = some w.server)
    (hreach : StepFn.Reachable (Transfer.step (transferConfig cfg cc id file))
      (Transfer.init (transferConfig cfg cc id file)) w)
    (hstarted : w.started = true) (hne : w.server.unackedPackets ≠ [])
    : ∃ sender, Step cfg s (.server (.timeOut id))
        (wentOn s id {
          u with
            rdt := some (Transfer.handleTimeOut (transferConfig cfg cc id file) w.server)
            stuck := cfg.server.mode = .goBackN
        } sender) := by
  obtain ⟨p, rest, hunacked⟩ := List.exists_cons_of_ne_nil hne
  have htimer : Server.timer cfg.server id w.server
      = some (Transfer.handleTimeOut (transferConfig cfg cc id file) w.server) := by
    unfold Server.timer
    cases hmode : cfg.server.mode with
    | goBackN => exact absurd hmode hop.mode
    | stopAndWait | selectiveRepeat =>
      simp only [hunacked, Transfer.handleTimeOut, transferConfig, hmode]
  have hsent : w.server.sent ≠ [] := by
    apply Transfer.sent_ne_nil_of_reachable (hop.ne_goBackN id) (hop.valid id) hreach hstarted
    have hp := Transfer.mem_window_of_unacked (hop.ne_goBackN id) (hop.valid id) (hop.clock id) hreach
      hstarted (p := p) (by simp [hunacked])
    exact List.ne_nil_of_mem hp.1
  obtain ⟨sender, hsend, _⟩ := hserver.send hop.packetSender w.server.sent.length
    (Transfer.handleTimeOut (transferConfig cfg cc id file) w.server)
  have hstuck := (hserver.free u (List.mem_of_getElem? hu)).1
  have hfails := timerFails_eq_false hop hreach hstarted
  exact ⟨sender, .server rfl (.timeOut hu hrdt hsent hstuck hfails htimer hsend)⟩

end

/--
The deployment is where the transfer of `address` is in `w`, and neither the main thread nor the worker
has something else to do first.
-/
structure Playing (cfg : Config) (cc : ClientConfig) (address : Address) (id : Nat) (file : Bytes)
    (buffer : Nat → UInt8) (s : State) (w : Transfer.World) : Prop where
  reachable : StepFn.ReachableWhen (step cfg) (Undisturbed address) (init cfg buffer) s
  world : StepFn.Reachable (Transfer.step (transferConfig cfg cc id file))
    (Transfer.init (transferConfig cfg cc id file)) w
  running : s.server.running = true
  mainThread : s.server.mainThread = .receiving
  projects : Projects cfg (transferConfig cfg cc id file) address s w
  servedBy : ServedBy address id s.server
  next : (∀ u ∈ s.server.workers, u.address ≠ address) → s.server.workers.length = id
  queue : ∀ u ∈ s.server.workers, u.address = address
    → w.stage = .created ∨ w.stage = .running ∧ w.server.isDone = false
      → s.server.workerThreadsAcks u.tid = []

theorem Playing.regular (h : Playing cfg cc address id file buffer s w)
    : Transfer.Regular (transferConfig cfg cc id file) w :=
  Transfer.regular_of_reachable h.world

theorem Playing.ordered (h : Playing cfg cc address id file buffer s w) : Ordered s.server :=
  ordered_of_reachable h.reachable

theorem Playing.setClient (h : Playing cfg cc address id file buffer s w) {c : Client}
    (hs : Step cfg s e (s.setClient address c)) (hun : Undisturbed address s e)
    (hown : Own address s e)
    (hw : Projects cfg (transferConfig cfg cc id file) address (s.setClient address c) w')
    (hworld : StepFn.Reachable (Transfer.step (transferConfig cfg cc id file))
      (Transfer.init (transferConfig cfg cc id file)) w')
    (hstage : w'.stage = w.stage) (hserver : w'.server = w.server)
    : CanReach (stepOwn cfg address) s (Playing cfg cc address id file buffer · w') := by
  apply CanReach.of_own hs h.running hun hown
  apply CanReach.refl
  refine ⟨h.reachable.step hun (hs.step_eq h.running), hworld, h.running, h.mainThread, hw, h.servedBy,
    h.next, ?_⟩
  rw [hstage, hserver]
  exact h.queue

theorem Playing.of_setWorker
    (h : StepFn.ReachableWhen (step cfg) (Undisturbed address) (init cfg buffer) s)
    (hrunning : s.server.running = true) (hid : ServedBy address id s.server) {u u' : Worker}
    (hu : s.server.workers[id]? = some u) (hmine : u.address = address)
    {e : Server.Event} (hun : Server.Unmixed s.server e) {t : Server}
    (hs : Step cfg s (.server e) { s with server := t.setWorker id u' })
    (hworkers : t.workers = s.server.workers) (hrunning' : t.running = true)
    (hmain : t.mainThread = .receiving) (haddress : u'.address = u.address) (htid : u'.tid = u.tid)
    (hworld : StepFn.Reachable (Transfer.step (transferConfig cfg cc id file))
      (Transfer.init (transferConfig cfg cc id file)) w')
    (hw : Projects cfg (transferConfig cfg cc id file) address
      { s with server := t.setWorker id u' } w')
    (hqueue : w'.stage = .created ∨ w'.stage = .running ∧ w'.server.isDone = false
      → t.workerThreadsAcks u.tid = [])
    : Playing cfg cc address id file buffer { s with server := t.setWorker id u' } w' := by
  have hd := (ordered_of_reachable h).distinct
  rw [← hworkers] at hd hu
  refine ⟨h.step (e := .server e) ⟨hun, trivial⟩ (hs.step_eq hrunning), hworld, hrunning', hmain, hw, ?_,
    ?_, ?_⟩
  . intro id' v hv ha
    simp only [Server.setWorker, List.getElem?_set] at hv
    split at hv
    . next heq => exact heq.symm
    . exact hid id' v (hworkers ▸ hv) ha
  . intro hnone
    apply absurd (haddress.trans hmine)
    exact hnone u' ((Server.mem_setWorker_iff hu u' hd).mpr (.inl rfl))
  . intro v hv ha hstage
    cases (Server.mem_setWorker_iff hu v hd).mp hv with
    | inl heq =>
      rw [heq, htid]
      exact hqueue hstage
    | inr hother => exact absurd (ha.trans hmine.symm) hother.2

theorem Projects.exists_worker {tcfg : Transfer.Config} (hw : Projects cfg tcfg address s w)
    (hid : ServedBy address id s.server) (hstage : w.stage ≠ .unregistered)
    : ∃ u : Worker, s.server.workers[id]? = some u ∧ u.address = address := by
  by_contra hnot
  apply hstage
  apply hw.unserved
  intro u hu ha
  obtain ⟨i, hi⟩ := List.mem_iff_getElem?.mp hu
  obtain rfl := hid i u hi ha
  exact hnot ⟨u, hi, ha⟩

theorem Projects.started {tcfg : Transfer.Config} (hw : Projects cfg tcfg address s w)
    (hserver : Server.Operational cfg.server s.server) {u : Worker}
    (hu : s.server.workers[id]? = some u) (hmine : u.address = address) (hstarted : w.started = true)
    : u.rdt = some w.server ∧ u.phase ≠ .created ∧ w.stage = stage u.phase := by
  obtain ⟨hstage, _, hserved⟩ := hw.served u (List.mem_of_getElem? hu) hmine
  have hphase : u.phase ≠ .created := by
    intro hphase
    rw [hphase, stage] at hstage
    simp [Transfer.World.started, hstage] at hstarted
  rw [if_neg hphase] at hserved
  have hstuck := (hserver.free u (List.mem_of_getElem? hu)).1
  obtain ⟨_, unackedPackets, hrdt, heq⟩ := hserved
  rw [heq hstuck] at hrdt
  exact ⟨hrdt, hphase, hstage⟩

theorem phase_eq_running {u : Worker} (hserver : Server.Operational cfg.server s.server)
    (hu : s.server.workers[id]? = some u) (hstage : stage u.phase = .running)
    : u.phase = .running := by
  have hblocked := (hserver.free u (List.mem_of_getElem? hu)).2
  cases hphase : u.phase with
  | running => rfl
  | blocked => exact absurd hphase hblocked
  | created | finalizing | ended => simp [hphase, stage] at hstage

theorem Playing.start (hop : Operable cfg cc file) (h : Playing cfg cc address id file buffer s w)
    (hstage : w.stage = .created)
    (hworld : StepFn.Reachable (Transfer.step (transferConfig cfg cc id file))
      (Transfer.init (transferConfig cfg cc id file))
      { w.withServer (Transfer.start (transferConfig cfg cc id file) w.server) with stage := .running })
    : CanReach (stepOwn cfg address) s (Playing cfg cc address id file buffer ·
        { w.withServer (Transfer.start (transferConfig cfg cc id file) w.server)
          with stage := .running }) := by
  have hserver := operational_of_reachable hop h.reachable
  obtain ⟨u, hu, ha⟩ := h.projects.exists_worker h.servedBy (by simp [hstage])
  obtain ⟨hstage', hpath, _⟩ := h.projects.served u (List.mem_of_getElem? hu) ha
  have hphase : u.phase = .created := by
    rw [hstage] at hstage'
    cases hphase : u.phase <;> simp [hphase, stage] at hstage' ⊢
  have hstuck := (hserver.free u (List.mem_of_getElem? hu)).1
  have hd := h.ordered.distinct
  obtain ⟨sender, hs⟩ := exists_construct hop hserver hu hphase hpath
  rw [← start_transferConfig h.regular hstage] at hs
  apply CanReach.of_own hs h.running ⟨trivial, trivial⟩ (own_of_worker rfl hu ha)
  apply CanReach.refl
  refine Playing.of_setWorker (e := .construct id) h.reachable h.running h.servedBy hu ha trivial hs rfl
    h.running h.mainThread rfl rfl hworld ?_ ?_
  . apply h.projects.setStrategy hd hu ha
    all_goals try rfl
    . exact h.projects.sent_eq h.regular (List.mem_of_getElem? hu) ha
    . exact Mode.sent_prefix_start _ _ _
    . simp
    . exact follows_of_not_stuck rfl hstuck
  . intro _
    exact h.queue u (List.mem_of_getElem? hu) ha (.inl hstage)

theorem isDone_eq_of_head?_eq {s t : RdtStrategy} (h : t.window.head? = s.window.head?)
    : t.isDone = s.isDone := by
  rw [RdtStrategy.isDone, RdtStrategy.isDone]
  cases hs : s.window <;> cases ht : t.window <;> simp_all

theorem Playing.timeOut (hop : Operable cfg cc file) (h : Playing cfg cc address id file buffer s w)
    (hstarted : w.stage = .running ∨ w.stage = .finished) (hne : w.server.unackedPackets ≠ [])
    (hworld : StepFn.Reachable (Transfer.step (transferConfig cfg cc id file))
      (Transfer.init (transferConfig cfg cc id file))
      (w.withServer (Transfer.handleTimeOut (transferConfig cfg cc id file) w.server)))
    : CanReach (stepOwn cfg address) s (Playing cfg cc address id file buffer ·
        (w.withServer (Transfer.handleTimeOut (transferConfig cfg cc id file) w.server))) := by
  have hserver := operational_of_reachable hop h.reachable
  have hstarted' : w.started = true := by
    cases hstarted with
    | inl hstage => simp [Transfer.World.started, hstage]
    | inr hstage => simp [Transfer.World.started, hstage]
  obtain ⟨u, hu, ha⟩ := h.projects.exists_worker h.servedBy (by rintro heq; simp [heq] at hstarted)
  obtain ⟨hrdt, hphase, hstage⟩ := h.projects.started hserver hu ha hstarted'
  have hd := h.ordered.distinct
  obtain ⟨sender, hs⟩ := exists_timeOut hop hserver hu hrdt h.world hstarted' hne
  apply CanReach.of_own hs h.running ⟨trivial, trivial⟩ (own_of_worker rfl hu ha)
  apply CanReach.refl
  refine Playing.of_setWorker (e := .timeOut id) h.reachable h.running h.servedBy hu ha trivial hs rfl
    h.running h.mainThread rfl rfl hworld ?_ ?_
  . have hw : Projects cfg (transferConfig cfg cc id file) address
        (wentOn s id {
          u with
            rdt := some (Transfer.handleTimeOut (transferConfig cfg cc id file) w.server)
            stuck := cfg.server.mode = .goBackN
        } sender)
        {
          w.withServer (Transfer.handleTimeOut (transferConfig cfg cc id file) w.server) with
            stage := stage u.phase
        } := by
      apply h.projects.setStrategy hd hu ha
      all_goals try rfl
      . exact h.projects.sent_eq h.regular (List.mem_of_getElem? hu) ha
      . exact Mode.sent_prefix_handleTimeOut _ _ _
      . exact hphase
      . exact follows_of_not_stuck rfl (by simp [hop.mode])
    rw [← hstage] at hw
    exact hw
  . intro hor
    apply h.queue u (List.mem_of_getElem? hu) ha
    have hdone : (Transfer.handleTimeOut (transferConfig cfg cc id file) w.server).isDone
        = w.server.isDone :=
      isDone_eq_of_head?_eq (Mode.head?_handleTimeOut _ _ _)
    rw [← hdone]
    exact hor

def pushedAck (s : State) (address : Address) (b : Bytes) (tid : Nat) (a : AckPacket) : State :=
  { s with server := (s.server.recvfrom b).pushAck address tid a }

theorem Playing.receive (h : Playing cfg cc address id file buffer s w)
    (hcc : cfg.clients address = some cc) (hfile : requested cfg cc = .whole file)
    {u : Worker} (hu : s.server.workers[id]? = some u) (hmine : u.address = address)
    (hlive : u.live = true) {b : Bytes} (hb : b ∈ (s.clients address).sent) {a : AckPacket}
    (hunpack : AckPacket.unpack b = some a)
    : Step cfg s (.server (.recvfrom address b 0)) (pushedAck s address b u.tid a)
        ∧ Unmixed s (.server (.recvfrom address b 0))
        ∧ Projects cfg (transferConfig cfg cc id file) address (pushedAck s address b u.tid a) w := by
  have hregistered : s.server.registeredClients address = some u.tid := by
    have := h.ordered.consistent.registered u (List.mem_of_getElem? hu)
    simpa [hmine, h.mainThread] using this
  have harrives : arrives cfg s (.recvfrom address b 0) = true := by
    simp [arrives, hcc, hb]
  have hack : Server.ackPacket (s.server.recvfrom b).buffer = a := by
    have hb := Server.unpack_ackPacket s.server (AckPacket.length_le_of_unpack hunpack)
    exact Option.some.inj (hb.symm.trans hunpack)
  rw [← hack]
  refine ⟨.server harrives (.ack h.mainThread hregistered), ?_,
    h.projects.pushAck hcc hfile harrives h.regular⟩
  simp only [Unmixed, Server.Unmixed, hregistered]
  intro v hv hlive' htid
  obtain ⟨i, hi⟩ := List.mem_iff_getElem?.mp hv
  have heq := h.ordered.consistent.distinct i id v u hi hu hlive' hlive htid
  rw [heq, hu, Option.some.injEq] at hi
  exact hi ▸ hmine

theorem Projects.takeAck (hw : Projects cfg (transferConfig cfg cc id file) address s w)
    (hregular : Transfer.Regular (transferConfig cfg cc id file) w)
    (hd : s.server.workers.Pairwise (fun u v => u.address ≠ v.address)) {u : Worker}
    (hu : s.server.workers[id]? = some u) (hmine : u.address = address) (hrunning : u.phase = .running)
    (hstuck : u.stuck = false) (hstage : w.stage = stage u.phase) (a : AckPacket)
    (sender : PacketSender)
    : Projects cfg (transferConfig cfg cc id file) address
        (tookAck s id u (cfg.server.acknowledgePacket id w.server a) a sender)
        (w.withServer (Transfer.acknowledgePacket (transferConfig cfg cc id file) w.server a)) := by
  have hw' : Projects cfg (transferConfig cfg cc id file) address
      (tookAck s id u (cfg.server.acknowledgePacket id w.server a) a sender) {
        w.withServer (cfg.server.acknowledgePacket id w.server a)
          with stage := stage u.phase
      } := by
    apply hw.setStrategy hd hu hmine
    all_goals try rfl
    . exact hw.sent_eq hregular (List.mem_of_getElem? hu) hmine
    . exact Mode.sent_prefix_acknowledgePacket _ _ _ _
    . simp [hrunning]
    . exact follows_of_not_stuck rfl hstuck
  rw [← hstage] at hw'
  exact hw'

theorem Playing.ack (hop : Operable cfg cc file) (h : Playing cfg cc address id file buffer s w)
    (hcc : cfg.clients address = some cc) (hfile : requested cfg cc = .whole file)
    (hrunning : w.stage = .running) (hdone : w.server.isDone = false) {d : Transfer.ClientDatagram}
    (hd : d ∈ w.toServer) {a : AckPacket}
    (hunpack : AckPacket.unpack (d.bytes (transferConfig cfg cc id file)) = some a)
    (hworld : StepFn.Reachable (Transfer.step (transferConfig cfg cc id file))
      (Transfer.init (transferConfig cfg cc id file))
      (w.withServer (Transfer.acknowledgePacket (transferConfig cfg cc id file) w.server a)))
    : CanReach (stepOwn cfg address) s (Playing cfg cc address id file buffer ·
        (w.withServer (Transfer.acknowledgePacket (transferConfig cfg cc id file) w.server a))) := by
  have hserver := operational_of_reachable hop h.reachable
  obtain ⟨u, hu, ha⟩ := h.projects.exists_worker h.servedBy (by simp [hrunning])
  obtain ⟨hrdt, hcreated, hstage⟩ :=
    h.projects.started hserver hu ha (by simp [Transfer.World.started, hrunning])
  have hphase := phase_eq_running hserver hu (hstage.symm.trans hrunning)
  have hstuck := (hserver.free u (List.mem_of_getElem? hu)).1
  have hqueue : s.server.workerThreadsAcks u.tid = [] :=
    h.queue u (List.mem_of_getElem? hu) ha (.inr ⟨hrunning, hdone⟩)
  have hb : d.bytes (transferConfig cfg cc id file) ∈ (s.clients address).sent := by
    rw [← h.projects.toServer]
    exact List.mem_map_of_mem hd
  obtain ⟨hs1, hun1, hw1⟩ :=
    h.receive hcc hfile hu ha (by simp [Worker.live, hphase]) hb hunpack
  have hun1 : Undisturbed address s _ := ⟨hun1, trivial⟩
  have hreach1 := h.reachable.step hun1 (hs1.step_eq h.running)
  have hinv := (Transfer.linked_of_reachable (hop.ne_goBackN id) (hop.valid id) h.world).server
  have hacks : (pushedAck s address (d.bytes (transferConfig cfg cc id file)) u.tid
      a).server.workerThreadsAcks u.tid = [a] := by
    simp [pushedAck, Server.pushAck, Server.recvfrom, hqueue]
  obtain ⟨sender, hs2⟩ :=
    exists_takeAck hop (operational_of_reachable hop hreach1) hu hphase hrdt hinv hdone hacks
  apply CanReach.of_own hs1 h.running hun1 rfl
  apply CanReach.of_own hs2 h.running ⟨trivial, trivial⟩ (own_of_worker rfl hu ha)
  apply CanReach.refl
  refine Playing.of_setWorker (e := .takeAck id) hreach1 h.running h.servedBy hu ha trivial hs2 rfl
    h.running h.mainThread rfl rfl hworld ?_ ?_
  . exact hw1.takeAck h.regular h.ordered.distinct hu ha hphase hstuck hstage a sender
  . simp [Server.pop, pushedAck, Server.pushAck, hqueue, Server.recvfrom]

def registered (s : State) (address : Address) (tid : Nat) : State :=
  {
    s with
      server := {
        s.server with
          registeredClients := Function.update s.server.registeredClients address (some tid)
          mainThread := .inserting tid
      }
  }

def inserted (s : State) (tid : Nat) : State :=
  {
    s with
      server := {
        s.server with
          workingThreads := Function.update s.server.workingThreads tid (some ⟨false⟩)
          mainThread := .receiving
      }
  }

theorem CanReach.of_registering {a : Address} {tid : Nat} {Q : State → Prop}
    (h : StepFn.ReachableWhen (step cfg) (Undisturbed address) (init cfg buffer) s)
    (hrunning : s.server.running = true) (hmain : s.server.mainThread = .registering a tid)
    (hQ : StepFn.ReachableWhen (step cfg) (Undisturbed address) (init cfg buffer)
        (inserted (registered s a tid) tid)
      → CanReach (stepOwn cfg address) (inserted (registered s a tid) tid) Q)
    : CanReach (stepOwn cfg address) s Q := by
  have hs1 : Step cfg s (.server .register) (registered s a tid) := .server rfl (.register hmain)
  have hs2 : Step cfg (registered s a tid) (.server .insert) (inserted (registered s a tid) tid) :=
    .server rfl (.insert rfl)
  have hreach1 := h.step (e := Event.server .register) ⟨trivial, trivial⟩ (hs1.step_eq hrunning)
  have hreach2 := hreach1.step (e := Event.server .insert) ⟨trivial, trivial⟩ (hs2.step_eq hrunning)
  apply CanReach.of_own hs1 hrunning ⟨trivial, trivial⟩ (by simp [Own, Server.Event.worker])
  apply CanReach.of_own hs2 hrunning ⟨trivial, trivial⟩ (by simp [Own, Server.Event.worker])
  exact hQ hreach2

theorem Playing.request (h : Playing cfg cc address id file buffer s w)
    (hcc : cfg.clients address = some cc) (hfile : requested cfg cc = .whole file)
    (hstage : w.stage = .unregistered) {d : Transfer.ClientDatagram} (hd : d ∈ w.toServer)
    (hworld : StepFn.Reachable (Transfer.step (transferConfig cfg cc id file))
      (Transfer.init (transferConfig cfg cc id file))
      { w with stage := .created, toClient := w.toClient ++ [.requestAck] })
    : CanReach (stepOwn cfg address) s (Playing cfg cc address id file buffer ·
        { w with stage := .created, toClient := w.toClient ++ [.requestAck] }) := by
  have hne : ∀ u ∈ s.server.workers, u.address ≠ address := by
    intro u hu ha
    have hserved := (h.projects.served u hu ha).1
    rw [hstage] at hserved
    cases hphase : u.phase <;> simp [hphase, stage] at hserved
  have hallotted := allotted_of_reachable h.reachable
  have hnone : s.server.registeredClients address = none := by
    cases hregistered : s.server.registeredClients address with
    | none => rfl
    | some t =>
      obtain ⟨u, hu, ha, _⟩ := hallotted.registered address t hregistered
      exact absurd ha (hne u hu)
  obtain ⟨tid, hfresh, hqueue⟩ := Server.exists_tid h.ordered.consistent hallotted
  obtain ⟨request, hunpack, hpath⟩ := unpack_createReqDatagram hfile
  rw [← truncate_createReqDatagram] at hunpack
  have hb : cc.createReqDatagram ∈ (s.clients address).sent := by
    rw [← h.projects.toServer]
    cases h.regular.request hstage d hd
    exact List.mem_map_of_mem hd
  have hs1 : Step cfg s (.server (.recvfrom address cc.createReqDatagram tid)) _ :=
    .server (by simp [arrives, hcc, hb]) (.request h.mainThread hnone hunpack hfresh)
  have hun1 : Undisturbed address s (.server (.recvfrom address cc.createReqDatagram tid)) := by
    refine ⟨?_, trivial⟩
    simpa [Unmixed, Server.Unmixed, hnone] using hqueue
  have hreach1 := h.reachable.step hun1 (hs1.step_eq h.running)
  apply CanReach.of_own hs1 h.running hun1 rfl
  apply CanReach.of_registering hreach1 h.running rfl
  intro hreach2
  apply CanReach.refl
  refine ⟨hreach2, hworld, h.running, rfl, ?_, ?_, ?_, ?_⟩
  . exact (h.projects.dispatch hne hpath _ tid).congr rfl (fun _ _ => Iff.rfl) (fun _ => Iff.rfl) rfl
  . intro id' u hu ha
    simp only [inserted, registered, Server.dispatch, Server.recvfrom, List.getElem?_append,
      List.getElem?_singleton] at hu
    split at hu
    . exact absurd ha (hne u (List.mem_of_getElem? hu))
    . split at hu
      . next hge hlen =>
        have := h.next hne
        omega
      . contradiction
  . intro hnone'
    apply absurd rfl
    exact hnone' (Worker.new tid address request.data) (List.mem_append_right _ List.mem_cons_self)
  . intro u hu ha _
    simp only [inserted, registered, Server.dispatch, Server.recvfrom, List.mem_append, List.mem_singleton] at hu
    cases hu with
    | inl hu => exact absurd ha (hne u hu)
    | inr hu =>
      rw [hu]
      exact hqueue

theorem Playing.finish (hop : Operable cfg cc file) (h : Playing cfg cc address id file buffer s w)
    (hrunning : w.stage = .running) (hdone : w.server.isDone = true)
    (hworld : StepFn.Reachable (Transfer.step (transferConfig cfg cc id file))
      (Transfer.init (transferConfig cfg cc id file))
      { w with stage := .finished, toClient := w.toClient ++ [.terminal w.server.sendEmptyPacket] })
    : CanReach (stepOwn cfg address) s (Playing cfg cc address id file buffer · {
        w with stage := .finished, toClient := w.toClient ++ [.terminal w.server.sendEmptyPacket]
      }) := by
  have hserver := operational_of_reachable hop h.reachable
  obtain ⟨u, hu, ha⟩ := h.projects.exists_worker h.servedBy (by simp [hrunning])
  obtain ⟨hrdt, _, hstage⟩ :=
    h.projects.started hserver hu ha (by simp [Transfer.World.started, hrunning])
  have hphase := phase_eq_running hserver hu (hstage.symm.trans hrunning)
  have hs : Step cfg s (.server (.finish id)) _ := .server rfl (.finish hu hphase hrdt hdone)
  apply CanReach.of_own hs h.running ⟨trivial, trivial⟩ (own_of_worker rfl hu ha)
  apply CanReach.refl
  refine Playing.of_setWorker (e := .finish id) h.reachable h.running h.servedBy hu ha trivial hs rfl
    h.running h.mainThread rfl rfl hworld (h.projects.finish h.ordered.distinct hu ha hrdt rfl) ?_
  simp

theorem Playing.step (hop : Operable cfg cc file) (hmode : Compatible cfg cc)
    (hcc : cfg.clients address = some cc) (hfile : requested cfg cc = .whole file)
    (h : Playing cfg cc address id file buffer s w) {e : Transfer.Event}
    (hstep : Transfer.step (transferConfig cfg cc id file) w e = some w')
    : CanReach (stepOwn cfg address) s (Playing cfg cc address id file buffer · w') := by
  have hworld := h.world.step trivial hstep
  cases Transfer.Step.of_step hstep with
  | sendRequest hreceiving =>
    exact h.setClient (.sendRequest hcc h.projects.running (h.projects.receiving ▸ hreceiving))
      ⟨trivial, trivial⟩ rfl h.projects.sendRequest hworld rfl rfl
  | request hstage hd => exact h.request hcc hfile hstage hd hworld
  | start hstage => exact h.start hop hstage hworld
  | ack hrunning hdone hd hunpack => exact h.ack hop hcc hfile hrunning hdone hd hunpack hworld
  | timeOut hstarted hne => exact h.timeOut hop hstarted hne hworld
  | resend hgbn _ _ => exact absurd hgbn (hop.ne_goBackN id)
  | finish hrunning hdone => exact h.finish hop hrunning hdone hworld
  | handshake hreceiving hd =>
    have hmem := (h.projects.toClient _).mpr ⟨_, hd, rfl⟩
    exact h.setClient
      (.handshake hcc h.projects.running (h.projects.receiving ▸ hreceiving) hmem) ⟨trivial, trivial⟩ rfl
      h.projects.handshake hworld rfl rfl
  | run hreceiving hdone hd hrun =>
    have hmem := (h.projects.toClient _).mpr ⟨_, hd, rfl⟩
    rw [runClient_transferConfig hmode, h.projects.client] at hrun
    exact h.setClient (.run hcc h.projects.running (h.projects.receiving ▸ hreceiving)
      (h.projects.client ▸ hdone) hmem) ⟨trivial, trivial⟩ rfl (h.projects.run hrun) hworld rfl rfl

theorem Playing.run (hop : Operable cfg cc file) (hmode : Compatible cfg cc)
    (hcc : cfg.clients address = some cc) (hfile : requested cfg cc = .whole file)
    (h : Playing cfg cc address id file buffer s w) {es : List Transfer.Event}
    (hrun : StepFn.run (Transfer.step (transferConfig cfg cc id file)) w es = some w')
    : CanReach (stepOwn cfg address) s (Projects cfg (transferConfig cfg cc id file) address · w') := by
  have hfollow : CanReach (stepOwn cfg address) s (Playing cfg cc address id file buffer · w') := by
    apply CanReach.follow _ es hrun h
    intro s w e w' hs hstep
    exact hs.step hop hmode hcc hfile hstep
  apply hfollow.imp
  intro s' hs'
  exact hs'.projects

end Deployment
