import RdtProtocol.Server.Routing
import RdtProtocol.Server.Serving

/-!
This module contains the exact condition under which a datagram harms neither the server nor the workers
of other clients.
-/

namespace Server

/--
The steps of the main thread and of the worker `id` with its timer that follow the receipt of a
datagram.
-/
def Handling (id : Nat) (e : Event) : Prop :=
  match e with
  | .recvfrom _ _ _ => False
  | .register => True
  | .insert => True
  | .construct i => i = id
  | .takeAck i => i = id
  | .timeOut i => i = id
  | .race i => i = id
  | .finish i => i = id
  | .finalize i => i = id

structure Unharmed (address : Address) (s s' : Server) : Prop where
  running : s'.running = true
  window : ∀ (i : Nat) (u : Worker), s.workers[i]? = some u → u.live = true → u.address ≠ address
    → ∃ u', s'.workers[i]? = some u' ∧ u'.window = u.window
  queue : ∀ u ∈ s.workers, u.live = true → u.address ≠ address
    → s'.workerThreadsAcks u.tid = s.workerThreadsAcks u.tid
  registration : ∀ u ∈ s.workers, u.live = true → u.address ≠ address
    → s'.registeredClients u.address = s.registeredClients u.address

def Config.withClock (cfg : Config) (id : Nat) (now : Nat → Nat) : Config :=
  { cfg with env := Function.update cfg.env id { cfg.env id with now } }

/--
Whatever the clock tells the worker that the datagram has dispatched, and in whatever order the main
thread, that worker and its timer go on.
-/
def Contained (cfg : Config) (s : Server) (address : Address) (datagram : Bytes) (tid : Nat) : Prop :=
  ∀ now es s', Monotone now → (∀ e ∈ es, Handling s.workers.length e)
    → StepFn.run (step (cfg.withClock s.workers.length now)) s (.recvfrom address datagram tid :: es)
        = some s'
    → Unharmed address s s'

/--
Whether `packet_sender` can be called for the packets of the window and for each one that is sent again.
Go back N gets no further than the first one.
-/
def Sendable (cfg : Config) (s : Server) (window : List PacketPtr) : Prop :=
  ∀ packets, (cfg.mode = .goBackN → packets.length ≤ window.length + 1)
    → (PacketSender.sendAll cfg.packetSender s.sender packets).isSome = true

/--
A worker with nothing to send may end before the main thread has made the entry for its thread. Any other
one must get its first window filled, find no ACK for it in the queue of its thread, and be able to send it.
-/
def Harmless (cfg : Config) (s : Server) (address : Address) (datagram : Bytes) (tid : Nat) : Prop :=
  match s.registeredClients address with
  | some t => ∀ u ∈ s.workers, u.live = true → u.tid = t → u.address = address
  | none =>
    match DataPacket.unpack (truncate datagram) with
    | none => False
    | some request =>
      match (cfg.files request.data).fopen with
      | none => False
      | some file =>
        if 0 < file.size then
          file.Readable cfg.mode.firstWindowSize
            ∧ (∀ ack ∈ s.workerThreadsAcks tid,
                ¬ Matches cfg.mode (cfg.firstWindow s.workers.length file) ack)
            ∧ Sendable cfg s (cfg.firstWindow s.workers.length file)
        else
          (s.workingThreads tid).isSome = true

variable {cfg : Config} {buffer : Nat → UInt8} {s0 s s' : Server} {e : Event} {address : Address}
variable {datagram filePath : Bytes} {tid id : Nat} {u : Worker} {rdt : RdtStrategy} {file : File}

section

inductive Progress (cfg : Config) (s0 : Server) (file : File) (s : Server) (u : Worker) : Prop where
  | created
      : u.phase = .created → u.rdt = none → u.stuck = false → s.sender = s0.sender
          → Progress cfg s0 file s u
  | ending {rdt : RdtStrategy}
      : ¬ 0 < file.size → u.phase ≠ .created → u.rdt = some rdt → rdt.window = [] → rdt.sent = []
          → Progress cfg s0 file s u
  | serving {rdt : RdtStrategy} {packets : List DataPacket}
      : 0 < file.size → u.phase = .running → u.rdt = some rdt
          → Serving cfg s0.workers.length file rdt
          → PacketSender.sendAll cfg.packetSender s0.sender packets = some s.sender
          → (cfg.mode = .goBackN → packets.length
              = (cfg.firstWindow s0.workers.length file).length + if u.stuck then 1 else 0)
          → (u.stuck = true → cfg.mode = .goBackN)
          → Progress cfg s0 file s u

structure Handled (cfg : Config) (s0 : Server) (address : Address) (tid : Nat) (filePath : Bytes)
    (file : File) (s : Server) : Prop where
  running : s.running = true
  workers : ∃ u, s.workers = s0.workers ++ [u] ∧ u.tid = tid ∧ u.filePath = filePath
    ∧ Progress cfg s0 file s u
  queue : ∀ t, t ≠ tid → s.workerThreadsAcks t = s0.workerThreadsAcks t
  suffix : s.workerThreadsAcks tid <:+ s0.workerThreadsAcks tid
  entry : (s0.workingThreads tid).isSome = true → (s.workingThreads tid).isSome = true
  registration : ∀ a, a ≠ address → s.registeredClients a = s0.registeredClients a
  mainThread : ∀ a t, s.mainThread = .registering a t → a = address

/--
Where the dispatched worker is harmless.
-/
structure Safe (cfg : Config) (s0 : Server) (tid : Nat) (filePath : Bytes) (file : File) : Prop where
  fopen : (cfg.files filePath).fopen = some file
  readable : 0 < file.size → file.Readable cfg.mode.firstWindowSize
  unanswered : 0 < file.size → ∀ ack ∈ s0.workerThreadsAcks tid,
    ¬ Matches cfg.mode (cfg.firstWindow s0.workers.length file) ack
  sendable : 0 < file.size → Sendable cfg s0 (cfg.firstWindow s0.workers.length file)
  entry : ¬ 0 < file.size → (s0.workingThreads tid).isSome = true

theorem eq_of_workers_eq {workers : List Worker} {v : Worker} (h : s.workers = workers ++ [u])
    (hv : s.workers[workers.length]? = some v)
    : v = u := by
  simpa [h, eq_comm] using hv

theorem set_of_workers_eq {workers : List Worker} (h : s.workers = workers ++ [u]) (v : Worker)
    : (s.setWorker workers.length v).workers = workers ++ [v] := by
  simp [setWorker, h]

theorem Safe.firstWindow_ne_nil (h : Safe cfg s0 tid filePath file) (hsize : 0 < file.size)
    : cfg.firstWindow s0.workers.length file ≠ [] :=
  cfg.mode.firstWindow_ne_nil _ hsize (h.readable hsize)

theorem Safe.file_eq {file' : File} (h : Safe cfg s0 tid filePath file) (hpath : u.filePath = filePath)
    (hfopen : (cfg.files u.filePath).fopen = some file')
    : file' = file := by
  rw [hpath, h.fopen, Option.some.injEq] at hfopen
  exact hfopen.symm

theorem Safe.sendAll_isSome (h : Safe cfg s0 tid filePath file) (hsize : 0 < file.size)
    {sender : PacketSender} {packets more : List DataPacket}
    (hsender : PacketSender.sendAll cfg.packetSender s0.sender packets = some sender)
    (hlen : cfg.mode = .goBackN
      → (packets ++ more).length ≤ (cfg.firstWindow s0.workers.length file).length + 1)
    : (PacketSender.sendAll cfg.packetSender sender more).isSome = true := by
  have := h.sendable hsize (packets ++ more) hlen
  rwa [PacketSender.sendAll_append, hsender, Option.bind_some] at this

theorem Progress.congr (h : Progress cfg s0 file s u) {t : Server} {v : Worker}
    (hsender : t.sender = s.sender) (hphase : v.phase = u.phase) (hrdt : v.rdt = u.rdt)
    (hstuck : v.stuck = u.stuck)
    : Progress cfg s0 file t v := by
  cases h with
  | created h1 h2 h3 h4 =>
    exact .created (hphase.trans h1) (hrdt.trans h2) (hstuck.trans h3) (hsender.trans h4)
  | ending h1 h2 h3 h4 h5 => exact .ending h1 (hphase ▸ h2) (hrdt.trans h3) h4 h5
  | serving h1 h2 h3 h4 h5 h6 h7 =>
    exact .serving h1 (hphase.trans h2) (hrdt.trans h3) h4 (hsender ▸ h5) (hstuck ▸ h6) (hstuck ▸ h7)

theorem Handled.setWorker (h : Handled cfg s0 address tid filePath file s)
    (hw : s.workers = s0.workers ++ [u]) {t : Server} {v : Worker} (hworkers : t.workers = s.workers)
    (hrunning : t.running = s.running) (hmain : t.mainThread = s.mainThread)
    (hregistered : t.registeredClients = s.registeredClients)
    (hthreads : ∀ x, (s.workingThreads x).isSome = true → (t.workingThreads x).isSome = true)
    (hacks : t.workerThreadsAcks = s.workerThreadsAcks
      ∨ t.workerThreadsAcks = (s.pop tid).workerThreadsAcks)
    (htid : v.tid = tid) (hpath : v.filePath = filePath) (hprogress : Progress cfg s0 file t v)
    : Handled cfg s0 address tid filePath file (t.setWorker s0.workers.length v) := by
  refine ⟨hrunning.trans h.running, ⟨v, ?_, htid, hpath, hprogress.congr rfl rfl rfl rfl⟩, ?_, ?_, ?_,
    ?_, ?_⟩
  . exact set_of_workers_eq (hworkers.trans hw) v
  . intro x hx
    rw [← h.queue x hx]
    cases hacks with
    | inl heq => simp only [Server.setWorker, heq]
    | inr heq => simp [Server.setWorker, heq, pop, hx]
  . cases hacks with
    | inl heq =>
      simp only [Server.setWorker, heq]
      exact h.suffix
    | inr heq =>
      simp only [Server.setWorker, heq, pop, Function.update_self]
      exact (List.tail_suffix _).trans h.suffix
  . exact fun hentry => hthreads tid (h.entry hentry)
  . intro a ha
    rw [← h.registration a ha]
    simp only [Server.setWorker, hregistered]
  . intro a x hregistering
    simp only [Server.setWorker, hmain] at hregistering
    exact h.mainThread a x hregistering

theorem Handled.withWorker (h : Handled cfg s0 address tid filePath file s)
    (hw : s.workers = s0.workers ++ [u]) {sender : PacketSender} {v : Worker} (htid : v.tid = tid)
    (hpath : v.filePath = filePath) (hprogress : Progress cfg s0 file { s with sender } v)
    : Handled cfg s0 address tid filePath file ({ s with sender }.setWorker s0.workers.length v) :=
  h.setWorker (t := { s with sender }) hw rfl rfl rfl rfl (fun _ hx => hx) (.inl rfl) htid hpath hprogress

theorem Handled.acknowledged_eq_nil (h : Handled cfg s0 address tid filePath file s)
    (hsafe : Safe cfg s0 tid filePath file) (htid : u.tid = tid) (hprogress : Progress cfg s0 file s u)
    (hphase : u.phase = .running) (hrdt : u.rdt = some rdt) (hdone : rdt.isDone = false)
    {ack : AckPacket} {acks : List AckPacket} (hacks : s.workerThreadsAcks u.tid = ack :: acks)
    : acknowledged cfg.mode rdt ack = [] ∧ rdt.unackedPackets ≠ [] := by
  cases hprogress with
  | created hphase' => simp [hphase] at hphase'
  | ending _ _ hrdt' hwindow =>
    rw [hrdt, Option.some.injEq] at hrdt'
    simp [RdtStrategy.isDone, hrdt', hwindow] at hdone
  | serving hsize _ hrdt' hserving =>
    rw [hrdt, Option.some.injEq] at hrdt'
    subst hrdt'
    refine ⟨hserving.acknowledged_eq.mpr (hsafe.unanswered hsize ack ?_), hserving.unackedPackets⟩
    apply h.suffix.subset
    rw [← htid, hacks]
    exact List.mem_cons_self

theorem still_start (hsize : 0 < file.size) (hreadable : file.Readable cfg.mode.firstWindowSize)
    (hnow : (cfg.env id).now = fun _ => 0)
    : (cfg.start id file).Still := by
  obtain ⟨_, hwindow⟩ := window_newStrategy cfg id hsize hreadable
  obtain ⟨hunacked, _, _, hheap⟩ := cfg.mode.newStrategy_spec (cfg.nextSeqNumber id)
    cfg.maxWindowSize cfg.threshold file
  refine Mode.still_start ⟨?_, ?_⟩ ?_ hnow
  . intro p
    rw [Config.newStrategy, hheap]
    rfl
  . simp [Config.newStrategy, hunacked]
  . rw [hwindow]
    exact length_firstWindow_le cfg id file

theorem start_of_size_nonpos (cfg : Config) (id : Nat) (hsize : ¬ 0 < file.size)
    : (cfg.newStrategy id file).ranDry = false ∧ (cfg.start id file).window = []
        ∧ (cfg.start id file).sent = [] := by
  obtain ⟨hdry, hwindow⟩ := cfg.mode.newStrategy_of_size_nonpos (cfg.nextSeqNumber id)
    cfg.maxWindowSize cfg.threshold hsize
  obtain ⟨_, _, hsent, _⟩ := cfg.mode.newStrategy_spec (cfg.nextSeqNumber id) cfg.maxWindowSize
    cfg.threshold file
  have hwindow : (cfg.newStrategy id file).window = [] := hwindow
  have hstart : (cfg.newStrategy id file).Sends (cfg.start id file) (cfg.newStrategy id file).window :=
    Mode.sends_start (by simp [hwindow]) (cfg.env id)
  rw [hwindow] at hstart
  exact ⟨hdry, hstart.window_eq.trans hwindow, hstart.sent_eq.trans (by rw [List.append_nil]; exact hsent)⟩

theorem Handled.construct (h : Handled cfg s0 address tid filePath file s)
    (hsafe : Safe cfg s0 tid filePath file) (hw : s.workers = s0.workers ++ [u]) (htid : u.tid = tid)
    (hpath : u.filePath = filePath) (hprogress : Progress cfg s0 file s u) (hphase : u.phase = .created)
    : (cfg.newStrategy s0.workers.length file).ranDry = false
        ∧ ∃ sender, s.send cfg 0 (cfg.start s0.workers.length file) = some sender
          ∧ Handled cfg s0 address tid filePath file ({ s with sender }.setWorker s0.workers.length
              { u with rdt := some (cfg.start s0.workers.length file), phase := .running }) := by
  cases hprogress with
  | ending _ hphase' => exact absurd hphase hphase'
  | serving _ hphase' => simp [hphase] at hphase'
  | created _ _ hstuck hsender =>
    by_cases hsize : 0 < file.size
    . obtain ⟨hdry, _⟩ :=
        window_newStrategy cfg s0.workers.length hsize (hsafe.readable hsize)
      obtain ⟨hserving, hsent⟩ :=
        serving_start cfg s0.workers.length hsize (hsafe.readable hsize)
      have hsome := hsafe.sendable hsize ((cfg.firstWindow s0.workers.length file).map (·.packet))
        (by simp)
      rw [Option.isSome_iff_exists] at hsome
      obtain ⟨sender, hsend⟩ := hsome
      refine ⟨hdry, sender, by simp only [send, hsent, List.drop_zero, hsender, hsend], ?_⟩
      refine h.withWorker hw ?_ ?_ (.serving hsize rfl rfl hserving hsend ?_ ?_)
      . exact htid
      . exact hpath
      . simp [hstuck]
      . simp [hstuck]
    . obtain ⟨hdry, hwindow, hsent⟩ :=
        start_of_size_nonpos cfg s0.workers.length hsize
      refine ⟨hdry, s.sender, by simp only [send, hsent]; rfl, ?_⟩
      refine h.withWorker hw ?_ ?_ (.ending hsize (by simp) rfl hwindow hsent)
      . exact htid
      . exact hpath

theorem Handled.timeOut (h : Handled cfg s0 address tid filePath file s)
    (hsafe : Safe cfg s0 tid filePath file) (hw : s.workers = s0.workers ++ [u]) (htid : u.tid = tid)
    (hpath : u.filePath = filePath) (hprogress : Progress cfg s0 file s u) (hrdt : u.rdt = some rdt)
    (hsent : rdt.sent ≠ []) (hstuck : u.stuck = false)
    : timerFails cfg.mode rdt = false
        ∧ ∀ next, timer cfg s0.workers.length rdt = some next
          → ∃ sender, s.send cfg rdt.sent.length next = some sender
            ∧ Handled cfg s0 address tid filePath file ({ s with sender }.setWorker s0.workers.length
                { u with rdt := some next, stuck := cfg.mode = Mode.goBackN }) := by
  cases hprogress with
  | created _ hrdt' => simp [hrdt] at hrdt'
  | ending _ _ hrdt' _ hsent' =>
    rw [hrdt, Option.some.injEq] at hrdt'
    exact absurd (hrdt' ▸ hsent') hsent
  | @serving _ packets hsize hphase hrdt' hserving hsender hcount =>
    rw [hrdt, Option.some.injEq] at hrdt'
    subst hrdt'
    have hwindow := hsafe.firstWindow_ne_nil hsize
    refine ⟨hserving.timerFails_eq hwindow, ?_⟩
    intro next htimer
    obtain ⟨p, hsends⟩ := sends_timer htimer (by rw [hserving.window_eq]; exact hwindow)
      (by rw [hserving.window_eq]; exact length_firstWindow_le cfg _ file)
    have hdrop : (next.sent.drop rdt.sent.length).map (·.packet) = [p.packet] := by
      rw [hsends.sent_eq, List.drop_left, List.map_singleton]
    have hsome : (PacketSender.sendAll cfg.packetSender s.sender [p.packet]).isSome = true := by
      apply hsafe.sendAll_isSome hsize hsender
      intro hmode
      rw [List.length_append, List.length_singleton, hcount hmode, hstuck]
      simp
    rw [Option.isSome_iff_exists] at hsome
    obtain ⟨sender, hsend⟩ := hsome
    have hsender' : PacketSender.sendAll cfg.packetSender s0.sender (packets ++ [p.packet])
        = some sender := by
      rw [PacketSender.sendAll_append, hsender]
      exact hsend
    refine ⟨sender, by rw [send, hdrop, hsend], ?_⟩
    refine h.withWorker hw ?_ ?_
      (.serving hsize hphase rfl (hserving.of_sends hsends) hsender' ?_ ?_)
    . exact htid
    . exact hpath
    . intro hmode
      rw [List.length_append, List.length_singleton, hcount hmode, hstuck]
      simp [hmode]
    . simp

theorem Handled.idle (h : Handled cfg s0 address tid filePath file s)
    (hw : s.workers = s0.workers ++ [u]) (htid : u.tid = tid) (hpath : u.filePath = filePath)
    (hprogress : Progress cfg s0 file s u) (taken : List AckPacket)
    : Handled cfg s0 address tid filePath file
        ((s.pop u.tid).setWorker s0.workers.length { u with taken }) := by
  refine h.setWorker (t := s.pop u.tid) hw rfl rfl rfl rfl (fun _ hx => hx) ?_ ?_ ?_
    (hprogress.congr rfl rfl rfl rfl)
  . exact .inr (by rw [htid])
  . exact htid
  . exact hpath

theorem Progress.ending_of_isDone (h : Progress cfg s0 file s u) (hsafe : Safe cfg s0 tid filePath file)
    (hphase : u.phase = .running) (hrdt : u.rdt = some rdt) (hdone : rdt.isDone = true)
    : ¬ 0 < file.size ∧ rdt.window = [] ∧ rdt.sent = [] := by
  cases h with
  | created hphase' => simp [hphase] at hphase'
  | ending hsize _ hrdt' hwindow hsent =>
    rw [hrdt, Option.some.injEq] at hrdt'
    subst hrdt'
    exact ⟨hsize, hwindow, hsent⟩
  | serving hsize _ hrdt' hserving =>
    rw [hrdt, Option.some.injEq] at hrdt'
    subst hrdt'
    simp [hserving.isDone_eq (hsafe.firstWindow_ne_nil hsize)] at hdone

theorem Progress.ending_of_finalizing (h : Progress cfg s0 file s u) (hphase : u.phase = .finalizing)
    : ¬ 0 < file.size ∧ ∃ rdt, u.rdt = some rdt ∧ rdt.window = [] ∧ rdt.sent = [] := by
  cases h with
  | created hphase' => simp [hphase] at hphase'
  | ending hsize _ hrdt hwindow hsent => exact ⟨hsize, _, hrdt, hwindow, hsent⟩
  | serving _ hphase' => simp [hphase] at hphase'

theorem Handled.not_crash (h : Handled cfg s0 address tid filePath file s)
    (hsafe : Safe cfg s0 tid filePath file) (hw : s.workers = s0.workers ++ [u]) (htid : u.tid = tid)
    (hpath : u.filePath = filePath) (hprogress : Progress cfg s0 file s u)
    : ¬ Crash cfg s s0.workers.length u e := by
  intro hcrash
  cases hcrash with
  | exit _ hnone => simp [hpath, hsafe.fopen] at hnone
  | dry hphase hfile hdry =>
    cases hsafe.file_eq hpath hfile
    obtain ⟨hdry', _⟩ := h.construct hsafe hw htid hpath hprogress hphase
    simp [hdry'] at hdry
  | unsent hphase hfile _ hnone =>
    cases hsafe.file_eq hpath hfile
    obtain ⟨_, sender, hsend, _⟩ := h.construct hsafe hw htid hpath hprogress hphase
    simp [hsend] at hnone
  | ackDry hphase hrdt hdone hacks hne =>
    exact hne (h.acknowledged_eq_nil hsafe htid hprogress hphase hrdt hdone hacks).1
  | ackUnsent hphase hrdt hdone hacks hne =>
    exact hne (h.acknowledged_eq_nil hsafe htid hprogress hphase hrdt hdone hacks).1
  | timer hrdt hsent hstuck hfails =>
    obtain ⟨hfails', _⟩ := h.timeOut hsafe hw htid hpath hprogress hrdt hsent hstuck
    simp [hfails'] at hfails
  | timerUnsent hrdt hsent hstuck _ htimer hnone =>
    obtain ⟨_, hnext⟩ := h.timeOut hsafe hw htid hpath hprogress hrdt hsent hstuck
    obtain ⟨sender, hsend, _⟩ := hnext _ htimer
    simp [hsend] at hnone
  | race hphase hrdt hdone hacks _ hempties =>
    obtain ⟨hnil, _⟩ := h.acknowledged_eq_nil hsafe htid hprogress hphase hrdt hdone hacks
    simp [empties, hnil] at hempties

theorem Handled.step (h : Handled cfg s0 address tid filePath file s)
    (hsafe : Safe cfg s0 tid filePath file) (he : Handling s0.workers.length e) (hs : Step cfg s e s')
    : Handled cfg s0 address tid filePath file s' := by
  obtain ⟨w, hw, htid, hpath, hprogress⟩ := h.workers
  cases hs with
  | ack => exact he.elim
  | request => exact he.elim
  | malformed => exact he.elim
  | register hmain =>
    refine ⟨h.running, ⟨w, hw, htid, hpath, hprogress.congr rfl rfl rfl rfl⟩, h.queue, h.suffix, h.entry,
      ?_, ?_⟩
    . intro a ha
      rw [← h.mainThread _ _ hmain] at ha
      simpa [ha] using h.registration a (h.mainThread _ _ hmain ▸ ha)
    . intro _ _ hmain'
      contradiction
  | insert hmain =>
    refine ⟨h.running, ⟨w, hw, htid, hpath, hprogress.congr rfl rfl rfl rfl⟩, h.queue, h.suffix, ?_,
      h.registration, ?_⟩
    . intro hentry
      have := h.entry hentry
      dsimp only
      rw [Function.update_apply]
      split <;> simp [this]
    . intro _ _ hmain'
      contradiction
  | construct hu hphase hfopen _ hsend =>
    cases he
    cases eq_of_workers_eq hw hu
    cases hsafe.file_eq hpath hfopen
    obtain ⟨_, sender, hsend', hnext⟩ := h.construct hsafe hw htid hpath hprogress hphase
    cases hsend'.symm.trans hsend
    exact hnext
  | skip hu =>
    cases he
    cases eq_of_workers_eq hw hu
    exact h.idle hw htid hpath hprogress _
  | block hu hphase hrdt hdone hacks hne =>
    cases he
    cases eq_of_workers_eq hw hu
    exact absurd (h.acknowledged_eq_nil hsafe htid hprogress hphase hrdt hdone hacks).1 hne
  | takeAck hu hphase hrdt hdone hacks hne =>
    cases he
    cases eq_of_workers_eq hw hu
    exact absurd (h.acknowledged_eq_nil hsafe htid hprogress hphase hrdt hdone hacks).1 hne
  | timeOut hu hrdt hsent hstuck _ htimer hsend =>
    cases he
    cases eq_of_workers_eq hw hu
    obtain ⟨_, hnext⟩ := h.timeOut hsafe hw htid hpath hprogress hrdt hsent hstuck
    obtain ⟨sender, hsend', hnext⟩ := hnext _ htimer
    cases hsend'.symm.trans hsend
    exact hnext
  | finish hu hphase hrdt hdone =>
    cases he
    cases eq_of_workers_eq hw hu
    obtain ⟨hsize, hwindow, hsent⟩ := hprogress.ending_of_isDone hsafe hphase hrdt hdone
    refine h.setWorker (t := { s with outgoing := _ }) hw rfl rfl rfl rfl (fun _ hx => hx) (.inl rfl) ?_ ?_
      (.ending hsize (by simp) hrdt hwindow hsent)
    . exact htid
    . exact hpath
  | finalize hu hphase hth =>
    cases he
    cases eq_of_workers_eq hw hu
    obtain ⟨hsize, rdt, hrdt, hwindow, hsent⟩ := hprogress.ending_of_finalizing hphase
    refine h.setWorker (t := { s with workingThreads := _ }) hw rfl rfl rfl rfl ?_ (.inl rfl) ?_ ?_
      (.ending hsize (by simp) hrdt hwindow hsent)
    . intro x hx
      dsimp only
      rw [Function.update_apply]
      split <;> simp [hx]
    . exact htid
    . exact hpath
  | nullPointer hu hphase hth =>
    cases he
    cases eq_of_workers_eq hw hu
    have hentry := h.entry (hsafe.entry (hprogress.ending_of_finalizing hphase).1)
    simp [← htid, hth] at hentry
  | @crash id u _ hu hcrash =>
    have hid : id = s0.workers.length := by
      cases hcrash <;> exact he
    subst hid
    cases eq_of_workers_eq hw hu
    exact absurd hcrash (h.not_crash hsafe hw htid hpath hprogress)

theorem Handled.unharmed (h : Handled cfg s0 address tid filePath file s) (hfresh : s0.fresh tid = true)
    : Unharmed address s0 s := by
  obtain ⟨w, hw, _⟩ := h.workers
  refine ⟨h.running, ?_, ?_, ?_⟩
  . intro i u hu _ _
    refine ⟨u, ?_, rfl⟩
    rw [hw, List.getElem?_append_left (List.getElem?_eq_some_iff.mp hu).1]
    exact hu
  . intro u hu hlive _
    apply h.queue
    simp only [fresh, List.all_eq_true, decide_eq_true_eq] at hfresh
    exact hfresh u hu hlive
  . intro u _ _ hne
    exact h.registration _ hne

theorem handled_dispatch (datagram : Bytes) (hrun : s.running = true)
    : Handled cfg s address tid filePath file
        ((s.recvfrom datagram).dispatch address tid filePath) := by
  refine ⟨hrun, ⟨_, rfl, rfl, rfl, .created rfl rfl rfl rfl⟩, fun _ _ => rfl, List.suffix_rfl, id,
    fun _ _ => rfl, ?_⟩
  intro a t hmain
  cases hmain
  rfl

theorem not_handling_of_receiving (hmain : s.mainThread = .receiving)
    (he : Handling s.workers.length e) (hs : Step cfg s e s')
    : False := by
  have hnone {u : Worker} : s.workers[s.workers.length]? ≠ some u := by
    simp
  cases hs with
  | ack => exact he
  | request => exact he
  | malformed => exact he
  | register hmain' => simp [hmain] at hmain'
  | insert hmain' => simp [hmain] at hmain'
  | construct hu | skip hu | block hu | takeAck hu | timeOut hu | finish hu | finalize hu
  | nullPointer hu =>
    cases he
    exact hnone hu
  | crash hu hcrash =>
    cases hcrash
    all_goals
      cases he
      exact hnone hu

theorem eq_of_run_receiving (hmain : s.mainThread = .receiving) {es : List Event}
    (hes : ∀ e ∈ es, Handling s.workers.length e) (h : StepFn.run (step cfg) s es = some s')
    : s' = s := by
  apply StepFn.run_invariant (P := (· = s)) _ es hes rfl h
  intro t e t' ht he hstep
  subst ht
  exact (not_handling_of_receiving hmain he (Step.of_step hstep)).elim

theorem unharmed_pushAck {t : Nat} (hrun : s.running = true)
    (h : ∀ u ∈ s.workers, u.live = true → u.tid = t → u.address = address) (ack : AckPacket)
    : Unharmed address s ((s.recvfrom datagram).pushAck address t ack) := by
  refine ⟨hrun, fun i u hu _ _ => ⟨u, hu, rfl⟩, ?_, fun _ _ _ _ => rfl⟩
  intro u hu hlive hne
  have htid : u.tid ≠ t := fun heq => hne (h u hu hlive heq)
  simp [pushAck, recvfrom, htid]

theorem harmless_iff_safe {request : DataPacket} (hnone : s.registeredClients address = none)
    (hunpack : DataPacket.unpack (truncate datagram) = some request)
    : Harmless cfg s address datagram tid ↔ ∃ file, Safe cfg s tid request.data file := by
  simp only [Harmless, hnone, hunpack]
  cases hfopen : (cfg.files request.data).fopen with
  | none =>
    simp only [false_iff, not_exists]
    intro file hsafe
    simp [hsafe.fopen] at hfopen
  | some file =>
    dsimp only
    constructor
    . intro h
      split at h
      . next hsize =>
        exact ⟨file, hfopen, fun _ => h.1, fun _ => h.2.1, fun _ => h.2.2, fun h => absurd hsize h⟩
      . next hsize =>
        refine ⟨file, hfopen, ?_, ?_, ?_, fun _ => h⟩
        all_goals exact fun h => absurd h hsize
    . intro ⟨file', hsafe⟩
      have heq := hsafe.fopen
      rw [hfopen, Option.some.injEq] at heq
      subst heq
      split
      . next hsize => exact ⟨hsafe.readable hsize, hsafe.unanswered hsize, hsafe.sendable hsize⟩
      . next hsize => exact hsafe.entry hsize

theorem contained_of_harmless (hrun : s.running = true) (h : Harmless cfg s address datagram tid)
    : Contained cfg s address datagram tid := by
  intro now es s' _ hes hes'
  rw [StepFn.run_cons, Option.bind_eq_some_iff] at hes'
  obtain ⟨s1, hstep, hes'⟩ := hes'
  -- The condition does not depend on the clock.
  have h : Harmless (cfg.withClock s.workers.length now) s address datagram tid := h
  cases Step.of_step hstep with
  | @ack _ _ _ t hmain ht =>
    simp only [Harmless, ht] at h
    rw [eq_of_run_receiving (s := (s.recvfrom datagram).pushAck _ _ _) hmain hes hes']
    exact unharmed_pushAck hrun h _
  | @request _ _ _ request hmain hnone hunpack hfresh =>
    obtain ⟨file, hsafe⟩ := (harmless_iff_safe hnone hunpack).mp h
    have hend : Handled (cfg.withClock s.workers.length now) s address tid request.data file s' := by
      apply StepFn.run_invariant _ es hes (handled_dispatch datagram hrun) hes'
      intro t e t' ht he hstep
      exact ht.step hsafe he (Step.of_step hstep)
    exact hend.unharmed hfresh
  | malformed _ hnone hunpack => simp [Harmless, hnone, hunpack] at h
  | crash hu hcrash => cases hcrash

def Stoppable (cfg : Config) (handling : Event → Prop) (s : Server) : Prop :=
  ∃ es s', (∀ e ∈ es, handling e) ∧ StepFn.run (step cfg) s es = some s' ∧ s'.running = false

theorem stoppable_of_crash (hrun : s.running = true) (hu : s.workers[id]? = some u)
    (hcrash : Crash cfg s id u e) (he : Handling id e)
    : Stoppable cfg (Handling id) s := by
  refine ⟨[e], s.crash, by simpa using he, ?_, rfl⟩
  rw [StepFn.run_cons, (Step.crash hu hcrash).step_eq hrun]
  rfl

theorem stoppable_of_step (h : Stoppable cfg (Handling id) s') (hrun : s.running = true)
    (hs : Step cfg s e s') (he : Handling id e)
    : Stoppable cfg (Handling id) s := by
  obtain ⟨es, s'', hes, hend, hcrash⟩ := h
  refine ⟨e :: es, s'', ?_, ?_, hcrash⟩
  . simpa using ⟨he, hes⟩
  . rw [StepFn.run_cons, hs.step_eq hrun]
    exact hend

theorem getElem?_setWorker (hu : s.workers[id]? = some u) (v : Worker)
    : (s.setWorker id v).workers[id]? = some v := by
  have hid := (List.getElem?_eq_some_iff.mp hu).1
  simp [setWorker, hid]

-- The worker of an empty transfer runs to its end before the main thread goes on.
theorem stoppable_of_done (hrun : s.running = true) (hu : s.workers[id]? = some u)
    (hphase : u.phase = .running) (hrdt : u.rdt = some rdt) (hdone : rdt.isDone = true)
    (hentry : s.workingThreads u.tid = none)
    : Stoppable cfg (Handling id) s := by
  refine stoppable_of_step ?_ hrun (.finish hu hphase hrdt hdone) rfl
  refine ⟨[.finalize id], (s.finish id u rdt).crash, by simp [Handling], ?_, rfl⟩
  have hcrash : Step cfg (s.finish id u rdt) (.finalize id) (s.finish id u rdt).crash :=
    .nullPointer (getElem?_setWorker hu _) rfl hentry
  rw [StepFn.run_cons, hcrash.step_eq hrun]
  rfl

-- The worker takes ACKs out of its queue until there is one that it goes on with. Then its timer reads
-- `unacked_packets` too late.
theorem stoppable_of_matches (hrun : s.running = true) (hu : s.workers[id]? = some u)
    (hphase : u.phase = .running) (hrdt : u.rdt = some rdt) (hstuck : u.stuck = false)
    (hdone : rdt.isDone = false) (hstill : rdt.Still) (hunacked : rdt.unackedPackets ≠ [])
    (hacks : ∃ ack ∈ s.workerThreadsAcks u.tid, acknowledged cfg.mode rdt ack ≠ [])
    : Stoppable cfg (Handling id) s := by
  generalize hqueue : s.workerThreadsAcks u.tid = queue at hacks
  induction queue generalizing s u with
  | nil => simp at hacks
  | cons ack queue ih =>
    by_cases hack : acknowledged cfg.mode rdt ack = []
    . refine stoppable_of_step ?_ hrun (.skip hu hphase hrdt hdone hqueue hack) rfl
      refine ih hrun (getElem?_setWorker hu _) hphase hrdt hstuck ?_ ?_
      . simp [setWorker, pop, hqueue]
      . simpa [hack] using hacks
    . apply stoppable_of_crash hrun hu (.race hphase hrdt hdone hqueue hstuck ?_) rfl
      simp [empties, hunacked, hstill.foldl_eraseUnacked hack]

theorem stoppable_of_unsendable (hwindow : cfg.firstWindow id file ≠ []) (hrun : s.running = true)
    (hu : s.workers[id]? = some u) (hrdt : u.rdt = some rdt) (hstuck : u.stuck = false)
    (hserving : Serving cfg id file rdt) (hsent : rdt.sent ≠ []) {packets : List DataPacket}
    (hlen : cfg.mode = .goBackN → packets.length ≤ 1)
    (hsend : PacketSender.sendAll cfg.packetSender s.sender packets = none)
    : Stoppable cfg (Handling id) s := by
  induction packets generalizing s u rdt with
  | nil => simp [PacketSender.sendAll, StepFn.run] at hsend
  | cons p packets ih =>
    have hfails := hserving.timerFails_eq hwindow
    obtain ⟨next, htimer⟩ := hserving.exists_timer
    obtain ⟨q, hsends⟩ := sends_timer htimer (by rwa [hserving.window_eq])
      (by rw [hserving.window_eq]; exact length_firstWindow_le cfg id file)
    have hdrop : (next.sent.drop rdt.sent.length).map (·.packet) = [q.packet] := by
      rw [hsends.sent_eq, List.drop_left, List.map_singleton]
    cases hnext : s.send cfg rdt.sent.length next with
    | none =>
      exact stoppable_of_crash hrun hu (.timerUnsent hrdt hsent hstuck hfails htimer hnext) rfl
    | some sender =>
      have hrest : PacketSender.sendAll cfg.packetSender sender packets = none := by
        have hcongr := PacketSender.isSome_sendAll_congr cfg.packetSender
          (show (q.packet :: packets).length = (p :: packets).length from rfl) s.sender
        rw [hsend, ← List.singleton_append, PacketSender.sendAll_append] at hcongr
        rw [send, hdrop] at hnext
        simpa [hnext] using hcongr
      have hmode : cfg.mode ≠ .goBackN := by
        intro hmode
        have hnil : packets = [] := by
          simpa using hlen hmode
        simp [hnil, PacketSender.sendAll, StepFn.run] at hrest
      refine stoppable_of_step ?_ hrun (.timeOut hu hrdt hsent hstuck hfails htimer hnext) rfl
      refine ih hrun (getElem?_setWorker hu _) rfl ?_ (hserving.of_sends hsends) ?_ ?_ hrest
      . simp [hmode]
      . simp [hsends.sent_eq]
      . exact fun h => absurd h hmode

section

variable (hrun : s.running = true) (hu : s.workers[id]? = some (Worker.new tid address filePath))
variable (h : ¬ Stoppable cfg (Handling id) s)

include hrun hu h

theorem fopen_of_not_stoppable : ∃ file, (cfg.files filePath).fopen = some file := by
  rw [← Option.isSome_iff_exists, ← Option.ne_none_iff_isSome]
  intro hnone
  exact h (stoppable_of_crash hrun hu (.exit rfl hnone) rfl)

theorem ranDry_of_not_stoppable (hfopen : (cfg.files filePath).fopen = some file)
    : (cfg.newStrategy id file).ranDry = false := by
  rw [← Bool.not_eq_true]
  intro hdry
  exact h (stoppable_of_crash hrun hu (.dry rfl hfopen hdry) rfl)

theorem construct_of_not_stoppable (hfopen : (cfg.files filePath).fopen = some file)
    : ∃ sender, s.send cfg 0 (cfg.start id file) = some sender
        ∧ ¬ Stoppable cfg (Handling id) ({ s with sender }.setWorker id
          { Worker.new tid address filePath with
              rdt := some (cfg.start id file), phase := .running }) := by
  have hdry := ranDry_of_not_stoppable hrun hu h hfopen
  cases hsend : s.send cfg 0 (cfg.start id file) with
  | none => exact absurd (stoppable_of_crash hrun hu (.unsent rfl hfopen hdry hsend) rfl) h
  | some sender =>
    refine ⟨sender, rfl, ?_⟩
    intro hstop
    exact h (stoppable_of_step hstop hrun (.construct hu rfl hfopen hdry hsend) rfl)

theorem entry_of_not_stoppable (hfopen : (cfg.files filePath).fopen = some file)
    (hsize : ¬ 0 < file.size)
    : (s.workingThreads tid).isSome = true := by
  obtain ⟨sender, _, hnot⟩ := construct_of_not_stoppable hrun hu h hfopen
  by_contra hentry
  rw [Option.not_isSome_iff_eq_none] at hentry
  apply hnot
  refine stoppable_of_done ?_ (getElem?_setWorker hu _) rfl rfl ?_ hentry
  . exact hrun
  . simp [RdtStrategy.isDone, start_of_size_nonpos cfg id hsize]

theorem readable_of_not_stoppable (hfopen : (cfg.files filePath).fopen = some file)
    (hsize : 0 < file.size)
    : file.Readable cfg.mode.firstWindowSize := by
  have hdry := ranDry_of_not_stoppable hrun hu h hfopen
  have hiff := (cfg.mode.newStrategy_of_size_pos (cfg.nextSeqNumber id) cfg.maxWindowSize cfg.threshold
    hsize).1
  rw [← Bool.not_eq_true] at hdry
  exact not_not.mp (hiff.not.mp hdry)

theorem unanswered_of_not_stoppable (hfopen : (cfg.files filePath).fopen = some file)
    (hsize : 0 < file.size) (hnow : (cfg.env id).now = fun _ => 0)
    : ∀ ack ∈ s.workerThreadsAcks tid, ¬ Matches cfg.mode (cfg.firstWindow id file) ack := by
  intro ack hack hmatches
  have hreadable := readable_of_not_stoppable hrun hu h hfopen hsize
  obtain ⟨hserving, _⟩ := serving_start cfg id hsize hreadable
  obtain ⟨sender, _, hnot⟩ := construct_of_not_stoppable hrun hu h hfopen
  have hwindow := cfg.mode.firstWindow_ne_nil (cfg.nextSeqNumber id) hsize hreadable
  apply hnot
  refine stoppable_of_matches ?_ (getElem?_setWorker hu _) rfl rfl rfl (hserving.isDone_eq hwindow)
    (still_start hsize hreadable hnow) hserving.unackedPackets ?_
  . exact hrun
  . exact ⟨ack, hack, hserving.acknowledged_eq.not.mpr (not_not.mpr hmatches)⟩

theorem sendable_of_not_stoppable (hfopen : (cfg.files filePath).fopen = some file)
    (hsize : 0 < file.size)
    : Sendable cfg s (cfg.firstWindow id file) := by
  intro packets hlen
  have hreadable := readable_of_not_stoppable hrun hu h hfopen hsize
  obtain ⟨hserving, hsent⟩ := serving_start cfg id hsize hreadable
  obtain ⟨sender, hsend, hnot⟩ := construct_of_not_stoppable hrun hu h hfopen
  have hwindow := cfg.mode.firstWindow_ne_nil (cfg.nextSeqNumber id) hsize hreadable
  rw [send, hsent, List.drop_zero] at hsend
  by_contra hnone
  rw [Option.not_isSome_iff_eq_none] at hnone
  have hmore : PacketSender.sendAll cfg.packetSender sender
      (packets.drop (cfg.firstWindow id file).length) = none := by
    rw [← Option.bind_some (f := (PacketSender.sendAll cfg.packetSender · _)), ← hsend,
      ← PacketSender.sendAll_append, ← Option.not_isSome_iff_eq_none]
    rw [← Option.not_isSome_iff_eq_none] at hnone
    apply mt _ hnone
    apply PacketSender.isSome_sendAll_of_length_le
    simp
    omega
  apply hnot
  refine stoppable_of_unsendable hwindow ?_ (getElem?_setWorker (s := { s with sender }) hu _) rfl rfl
    hserving ?_ ?_ hmore
  . exact hrun
  . rw [hsent]
    exact hwindow
  . intro hmode
    have := hlen hmode
    rw [List.length_drop]
    omega

end

theorem safe_of_not_stoppable (hnow : (cfg.env s.workers.length).now = fun _ => 0)
    (hrun : s.running = true)
    (h : ¬ Stoppable cfg (Handling s.workers.length)
      ((s.recvfrom datagram).dispatch address tid filePath))
    : ∃ file, Safe cfg s tid filePath file := by
  have hu : ((s.recvfrom datagram).dispatch address tid filePath).workers[s.workers.length]?
      = some (Worker.new tid address filePath) := by
    simp [dispatch, recvfrom]
  have hrun : ((s.recvfrom datagram).dispatch address tid filePath).running = true := hrun
  obtain ⟨file, hfopen⟩ := fopen_of_not_stoppable hrun hu h
  have hentry := fun hsize => entry_of_not_stoppable hrun hu h hfopen hsize
  have hunanswered := fun hsize => unanswered_of_not_stoppable hrun hu h hfopen hsize hnow
  have hsendable := fun hsize => sendable_of_not_stoppable hrun hu h hfopen hsize
  exact ⟨file, hfopen, readable_of_not_stoppable hrun hu h hfopen, hunanswered, hsendable, hentry⟩

theorem harmless_of_contained (hrun : s.running = true) (hmain : s.mainThread = .receiving)
    (hfresh : s.fresh tid = true) (h : Contained cfg s address datagram tid)
    : Harmless cfg s address datagram tid := by
  -- A clock that stands still leaves a single packet in `unacked_packets`.
  let clocked := cfg.withClock s.workers.length (fun _ => 0)
  have hunharmed {s1 s' : Server} {es : List Event}
      (hs : Step clocked s (.recvfrom address datagram tid) s1)
      (hes : ∀ e ∈ es, Handling s.workers.length e) (hend : StepFn.run (step clocked) s1 es = some s')
      : Unharmed address s s' := by
    apply h (fun _ => 0) es s' monotone_const hes
    rw [StepFn.run_cons, hs.step_eq hrun]
    exact hend
  have hstop {s1 : Server} (hs : Step clocked s (.recvfrom address datagram tid) s1)
      : ¬ Stoppable clocked (Handling s.workers.length) s1 := by
    intro ⟨es, s', hes, hend, hcrash⟩
    simpa [hcrash] using (hunharmed hs hes hend).running
  cases ht : s.registeredClients address with
  | some t =>
    simp only [Harmless, ht]
    intro u hu hlive htid
    by_contra hne
    have hqueue := (hunharmed (.ack hmain ht) (List.forall_mem_nil _) rfl).queue u hu hlive hne
    simp [pushAck, recvfrom, htid] at hqueue
  | none =>
    cases hunpack : DataPacket.unpack (truncate datagram) with
    | none => exact absurd ⟨[], _, by simp, rfl, rfl⟩ (hstop (.malformed hmain ht hunpack))
    | some request =>
      show Harmless clocked s address datagram tid
      apply (harmless_iff_safe ht hunpack).mpr
      apply safe_of_not_stoppable _ hrun (hstop (.request hmain ht hunpack hfresh))
      simp only [clocked, Config.withClock, Function.update_self]

end

end Server
