import Mathlib.Logic.Function.Basic
import RdtProtocol.Server.PacketSender
import RdtProtocol.Server.Strategy.Interleaving
import RdtProtocol.Util.StepFn

/-!
This module contains the server as a transition system: the main thread that receives the datagrams of
all clients, and the worker threads with their timers. An event is what one thread does until another
one can see it. The state stops to be `running` where a thread exits or does something undefined.
-/

def MAX_UDP_BUFFER_SIZE : Nat := 65536

structure Address where
  ip : UInt32
  port : UInt16
  deriving DecidableEq, Repr

/--
What `stat`, `fopen` and `fread` say about a path. A directory can be opened but not be read, and the size
that `stat` tells need not be the number of bytes that can be read.
-/
inductive FileStatus where
  | missing
  | unopenable
  | directory (size : Int)
  | regular (size : Int) (content : Bytes)
  deriving DecidableEq, Repr

def FileStatus.whole (content : Bytes) : FileStatus :=
  .regular content.length content

def FileStatus.fopen : FileStatus → Option File
  | .missing => none
  | .unopenable => none
  | .directory size => some ⟨size, []⟩
  | .regular size content => some ⟨size, content⟩

structure WorkerThread where
  done : Bool
  deriving DecidableEq, Repr

-- A worker is blocked that waits for the mutex which its timer has locked for good.
inductive Phase where
  | created
  | running
  | blocked
  | finalizing
  | ended
  deriving DecidableEq, Repr

/--
The local state of `handle_worker_thread`, and the ACKs that it has taken so far.
-/
structure Worker where
  tid : Nat
  address : Address
  filePath : Bytes
  rdt : Option RdtStrategy
  phase : Phase
  -- Whether its timer waits for the mutex that it has locked itself.
  stuck : Bool
  taken : List AckPacket

namespace Worker

def new (tid : Nat) (address : Address) (filePath : Bytes) : Worker :=
  { tid, address, filePath, rdt := none, phase := .created, stuck := false, taken := [] }

-- A thread identifier may be given out again once its thread has ended.
def live (u : Worker) : Bool :=
  u.phase ≠ .ended

def window (u : Worker) : List PacketPtr :=
  match u.rdt with
  | some rdt => rdt.window
  | none => []

end Worker

-- How far the main thread is in `start` and `dispatch_worker_thread`.
inductive MainThread where
  | receiving
  | registering (address : Address) (tid : Nat)
  | inserting (tid : Nat)
  deriving DecidableEq, Repr

structure Server where
  running : Bool
  buffer : Nat → UInt8
  sender : PacketSender
  mainThread : MainThread
  registeredClients : Address → Option Nat
  workerThreadsAcks : Nat → List AckPacket
  workingThreads : Nat → Option WorkerThread
  workers : List Worker
  -- What the server and its workers have sent apart from the packets of the files.
  outgoing : List (Address × Bytes)
  -- The ACKs decoded from what an address has sent since it was registered.
  received : Address → List AckPacket

namespace Server

/--
The clock and the answers of `packet_sender` are given for each worker, whatever the order is in which the
workers call it. Its state only tells whether it can be called. Of the numbers that it draws only their
order against the loss probability matters.
-/
structure Config where
  mode : Mode
  env : Nat → Env
  packetSender : PacketSenderConfig Nat
  files : Bytes → FileStatus
  -- As for `Mode.newStrategy`. Each worker finds its own value in memory.
  nextSeqNumber : Nat → UInt32
  maxWindowSize : Int
  threshold : Int

def Config.newStrategy (cfg : Config) (id : Nat) (file : File) : RdtStrategy :=
  cfg.mode.newStrategy file (cfg.nextSeqNumber id) cfg.maxWindowSize cfg.threshold

def Config.start (cfg : Config) (id : Nat) (file : File) : RdtStrategy :=
  cfg.mode.start (cfg.env id) (cfg.newStrategy id file)

def Config.acknowledgePacket (cfg : Config) (id : Nat) (rdt : RdtStrategy) (ack : AckPacket)
    : RdtStrategy :=
  cfg.mode.acknowledgePacket (cfg.env id) rdt ack

inductive Event where
  | recvfrom (address : Address) (datagram : Bytes) (tid : Nat)
  | register
  | insert
  | construct (id : Nat)
  | takeAck (id : Nat)
  | timeOut (id : Nat)
  -- The timer reads the first of `unacked_packets` when the worker has just taken out the last one.
  | race (id : Nat)
  | finish (id : Nat)
  | finalize (id : Nat)
  deriving DecidableEq, Repr

-- `recvfrom` leaves what is behind the received bytes as it is.
def fill (buffer : Nat → UInt8) (bytes : Bytes) : Nat → UInt8 :=
  fun i => bytes[i]?.getD (buffer i)

-- `std::string(buffer, n)`
def string (buffer : Nat → UInt8) (n : Nat) : Bytes :=
  (List.range n).map buffer

-- `ack_packet(char buffer[])`
def ackPacket (buffer : Nat → UInt8) : AckPacket :=
  (AckPacket.unpack (string buffer ACK_PKT_LEN)).get (by rfl)

def truncate (datagram : Bytes) : Bytes :=
  datagram.take MAX_UDP_BUFFER_SIZE

def recvfrom (s : Server) (datagram : Bytes) : Server :=
  { s with buffer := fill s.buffer (truncate datagram) }

def crash (s : Server) : Server :=
  { s with running := false }

def pushAck (s : Server) (address : Address) (tid : Nat) (ack : AckPacket) : Server :=
  {
    s with
      workerThreadsAcks :=
        Function.update s.workerThreadsAcks tid (s.workerThreadsAcks tid ++ [ack])
      received := Function.update s.received address (s.received address ++ [ack])
  }

def fresh (s : Server) (tid : Nat) : Bool :=
  s.workers.all (fun u => u.live → u.tid ≠ tid)

-- `start` acknowledges the request before `dispatch_worker_thread` creates the thread.
def dispatch (s : Server) (address : Address) (tid : Nat) (filePath : Bytes) : Server :=
  {
    s with
      outgoing := s.outgoing ++ [(address, (AckPacket.new 0).pack)]
      mainThread := .registering address tid
      workers := s.workers ++ [Worker.new tid address filePath]
  }

def start (s : Server) (address : Address) (datagram : Bytes) (tid : Nat) : Option Server :=
  let s := s.recvfrom datagram
  match s.registeredClients address with
  | some workerToAck => some (s.pushAck address workerToAck (ackPacket s.buffer))
  | none =>
    match DataPacket.unpack (string s.buffer (truncate datagram).length) with
    | some request => if s.fresh tid then some (s.dispatch address tid request.data) else none
    | none => some s.crash

def setWorker (s : Server) (id : Nat) (u : Worker) : Server :=
  { s with workers := s.workers.set id u }

def send (cfg : Config) (s : Server) (sent : Nat) (rdt : RdtStrategy) : Option PacketSender :=
  PacketSender.sendAll cfg.packetSender s.sender ((rdt.sent.drop sent).map (·.packet))

def construct (cfg : Config) (s : Server) (id : Nat) (u : Worker) : Server :=
  match (cfg.files u.filePath).fopen with
  | none => s.crash
  | some file =>
    if (cfg.newStrategy id file).ranDry then
      s.crash
    else
      let rdt := cfg.start id file
      match s.send cfg 0 rdt with
      | none => s.crash
      | some sender =>
        { s with sender }.setWorker id { u with rdt := some rdt, phase := .running }

-- The packets that `acknowledge_packet` takes out of `unacked_packets`, for which it locks `set_mutex`.
def acknowledged (mode : Mode) (rdt : RdtStrategy) (ack : AckPacket) : List PacketPtr :=
  match mode with
  | .goBackN =>
    match rdt.window.findIdx? (fun p => ack.ackno = p.packet.seqno) with
    | some i => (rdt.window.take (i + 1)).reverse
    | none => []
  | mode => (Interleaving.find mode rdt ack).toList

def empties (mode : Mode) (rdt : RdtStrategy) (ack : AckPacket) : Bool :=
  !rdt.unackedPackets.isEmpty
    && ((acknowledged mode rdt ack).foldl RdtStrategy.eraseUnacked rdt).unackedPackets.isEmpty

def pop (s : Server) (tid : Nat) : Server :=
  { s with workerThreadsAcks := Function.update s.workerThreadsAcks tid (s.workerThreadsAcks tid).tail }

def takeAck (cfg : Config) (s : Server) (id : Nat) (u : Worker) (rdt : RdtStrategy) (ack : AckPacket)
    : Server :=
  let next := cfg.acknowledgePacket id rdt ack
  let u := { u with taken := u.taken ++ [ack] }
  if acknowledged cfg.mode rdt ack = [] then
    (s.pop u.tid).setWorker id u
  else if u.stuck then
    (s.pop u.tid).setWorker id { u with phase := .blocked }
  else if next.ranDry then
    s.crash
  else
    match s.send cfg rdt.sent.length next with
    | none => s.crash
    | some sender => { s.pop u.tid with sender }.setWorker id { u with rdt := some next }

-- Go back N reads the first of `unacked_packets` without a test. The other two delete what they pop, and
-- selective repeat prints the window.
def timerFails (mode : Mode) (rdt : RdtStrategy) : Bool :=
  match mode with
  | .goBackN => rdt.unackedPackets.isEmpty
  | mode =>
    rdt.unackedPackets.any (· ∈ rdt.popped)
      || (mode = .selectiveRepeat && !rdt.unackedPackets.isEmpty && rdt.window.isEmpty)

def timer (cfg : Config) (id : Nat) (rdt : RdtStrategy) : Option RdtStrategy :=
  match cfg.mode, rdt.unackedPackets with
  | _, [] => none
  | .goBackN, p :: _ => some (GoBackN.timeOut (cfg.env id) rdt p)
  | mode, _ :: _ => some (mode.handleTimeOut (cfg.env id) rdt)

-- There is a timer thread from the first packet on that is sent.
def timeOut (cfg : Config) (s : Server) (id : Nat) (u : Worker) (rdt : RdtStrategy) : Option Server :=
  if rdt.sent = [] ∨ u.stuck then
    none
  else if timerFails cfg.mode rdt then
    some s.crash
  else
    (timer cfg id rdt).map fun next =>
      match s.send cfg rdt.sent.length next with
      | none => s.crash
      | some sender =>
        { s with sender }.setWorker id { u with rdt := some next, stuck := cfg.mode = Mode.goBackN }

def finish (s : Server) (id : Nat) (u : Worker) (rdt : RdtStrategy) : Server :=
  let s := { s with outgoing := s.outgoing ++ [(u.address, rdt.sendEmptyPacket.pack)] }
  s.setWorker id { u with phase := .finalizing }

-- Without an entry, the pointer that `operator[]` inserts for it is null.
def finalize (s : Server) (id : Nat) (u : Worker) : Server :=
  match s.workingThreads u.tid with
  | none => s.crash
  | some th =>
    let workingThreads := Function.update s.workingThreads u.tid (some { th with done := true })
    { s with workingThreads }.setWorker id { u with phase := .ended }

def stepMain (s : Server) : Event → Option Server
  | .recvfrom address datagram tid =>
    if s.mainThread = .receiving then s.start address datagram tid else none
  | .register =>
    match s.mainThread with
    | .registering address tid =>
      let registeredClients := Function.update s.registeredClients address (some tid)
      some { s with registeredClients, mainThread := .inserting tid }
    | _ => none
  | .insert =>
    match s.mainThread with
    | .inserting tid =>
      let workingThreads := Function.update s.workingThreads tid (some ⟨false⟩)
      some { s with workingThreads, mainThread := .receiving }
    | _ => none
  | _ => none

def stepWorker (cfg : Config) (s : Server) (id : Nat) (u : Worker) : Event → Option Server
  | .construct _ => if u.phase = .created then some (s.construct cfg id u) else none
  | .takeAck _ =>
    match u.phase, u.rdt, s.workerThreadsAcks u.tid with
    | .running, some rdt, ack :: _ => if rdt.isDone then none else some (s.takeAck cfg id u rdt ack)
    | _, _, _ => none
  -- The timer thread goes on when the worker has ended.
  | .timeOut _ => u.rdt.bind (s.timeOut cfg id u)
  | .race _ =>
    match u.phase, u.rdt, s.workerThreadsAcks u.tid with
    | .running, some rdt, ack :: _ =>
      if rdt.isDone = false ∧ u.stuck = false ∧ empties cfg.mode rdt ack then some s.crash else none
    | _, _, _ => none
  | .finish _ =>
    match u.phase, u.rdt with
    | .running, some rdt => if rdt.isDone then some (s.finish id u rdt) else none
    | _, _ => none
  | .finalize _ => if u.phase = .finalizing then some (s.finalize id u) else none
  | _ => none

def Event.worker : Event → Option Nat
  | .recvfrom _ _ _ => none
  | .register => none
  | .insert => none
  | .construct id => some id
  | .takeAck id => some id
  | .timeOut id => some id
  | .race id => some id
  | .finish id => some id
  | .finalize id => some id

/--
A step of the main thread, or of a worker or its timer. There is none after the process has stopped.
-/
def step (cfg : Config) (s : Server) (e : Event) : Option Server :=
  if s.running then
    match e.worker with
    | none => s.stepMain e
    | some id => s.workers[id]?.bind (fun u => s.stepWorker cfg id u e)
  else
    none

/--
When a worker or its timer stops the process.
-/
inductive Crash (cfg : Config) (s : Server) (id : Nat) (u : Worker) : Event → Prop where
  | exit
      : u.phase = .created → (cfg.files u.filePath).fopen = none → Crash cfg s id u (.construct id)
  | dry {file : File}
      : u.phase = .created → (cfg.files u.filePath).fopen = some file
          → (cfg.newStrategy id file).ranDry = true → Crash cfg s id u (.construct id)
  | unsent {file : File}
      : u.phase = .created → (cfg.files u.filePath).fopen = some file
          → (cfg.newStrategy id file).ranDry = false → s.send cfg 0 (cfg.start id file) = none
          → Crash cfg s id u (.construct id)
  | ackDry {rdt : RdtStrategy} {a : AckPacket} {acks : List AckPacket}
      : u.phase = .running → u.rdt = some rdt → rdt.isDone = false
          → s.workerThreadsAcks u.tid = a :: acks → acknowledged cfg.mode rdt a ≠ [] → u.stuck = false
          → (cfg.acknowledgePacket id rdt a).ranDry = true → Crash cfg s id u (.takeAck id)
  | ackUnsent {rdt : RdtStrategy} {a : AckPacket} {acks : List AckPacket}
      : u.phase = .running → u.rdt = some rdt → rdt.isDone = false
          → s.workerThreadsAcks u.tid = a :: acks → acknowledged cfg.mode rdt a ≠ [] → u.stuck = false
          → (cfg.acknowledgePacket id rdt a).ranDry = false
          → s.send cfg rdt.sent.length (cfg.acknowledgePacket id rdt a) = none
          → Crash cfg s id u (.takeAck id)
  | timer {rdt : RdtStrategy}
      : u.rdt = some rdt → rdt.sent ≠ [] → u.stuck = false → timerFails cfg.mode rdt = true
          → Crash cfg s id u (.timeOut id)
  | timerUnsent {rdt next : RdtStrategy}
      : u.rdt = some rdt → rdt.sent ≠ [] → u.stuck = false → timerFails cfg.mode rdt = false
          → Server.timer cfg id rdt = some next → s.send cfg rdt.sent.length next = none
          → Crash cfg s id u (.timeOut id)
  | race {rdt : RdtStrategy} {a : AckPacket} {acks : List AckPacket}
      : u.phase = .running → u.rdt = some rdt → rdt.isDone = false
          → s.workerThreadsAcks u.tid = a :: acks → u.stuck = false → empties cfg.mode rdt a = true
          → Crash cfg s id u (.race id)

inductive Step (cfg : Config) (s : Server) : Event → Server → Prop where
  | ack {address : Address} {datagram : Bytes} {tid t : Nat}
      : s.mainThread = .receiving → s.registeredClients address = some t
          → Step cfg s (.recvfrom address datagram tid)
              ((s.recvfrom datagram).pushAck address t (ackPacket (s.recvfrom datagram).buffer))
  | request {address : Address} {datagram : Bytes} {tid : Nat} {request : DataPacket}
      : s.mainThread = .receiving → s.registeredClients address = none
          → DataPacket.unpack (truncate datagram) = some request → s.fresh tid = true
          → Step cfg s (.recvfrom address datagram tid)
              ((s.recvfrom datagram).dispatch address tid request.data)
  | malformed {address : Address} {datagram : Bytes} {tid : Nat}
      : s.mainThread = .receiving → s.registeredClients address = none
          → DataPacket.unpack (truncate datagram) = none
          → Step cfg s (.recvfrom address datagram tid) (s.recvfrom datagram).crash
  | register {address : Address} {tid : Nat}
      : s.mainThread = .registering address tid
          → Step cfg s .register
              {
                s with
                  registeredClients := Function.update s.registeredClients address (some tid)
                  mainThread := .inserting tid
              }
  | insert {tid : Nat}
      : s.mainThread = .inserting tid
          → Step cfg s .insert
              {
                s with
                  workingThreads := Function.update s.workingThreads tid (some ⟨false⟩)
                  mainThread := .receiving
              }
  | construct {id : Nat} {u : Worker} {file : File} {sender : PacketSender}
      : s.workers[id]? = some u → u.phase = .created → (cfg.files u.filePath).fopen = some file
          → (cfg.newStrategy id file).ranDry = false → s.send cfg 0 (cfg.start id file) = some sender
          → Step cfg s (.construct id)
              ({ s with sender }.setWorker id
                { u with rdt := some (cfg.start id file), phase := .running })
  -- The number of the ACK is not in the window, or is acknowledged already.
  | skip {id : Nat} {u : Worker} {rdt : RdtStrategy} {a : AckPacket} {acks : List AckPacket}
      : s.workers[id]? = some u → u.phase = .running → u.rdt = some rdt → rdt.isDone = false
          → s.workerThreadsAcks u.tid = a :: acks → acknowledged cfg.mode rdt a = []
          → Step cfg s (.takeAck id) ((s.pop u.tid).setWorker id { u with taken := u.taken ++ [a] })
  | block {id : Nat} {u : Worker} {rdt : RdtStrategy} {a : AckPacket} {acks : List AckPacket}
      : s.workers[id]? = some u → u.phase = .running → u.rdt = some rdt → rdt.isDone = false
          → s.workerThreadsAcks u.tid = a :: acks → acknowledged cfg.mode rdt a ≠ [] → u.stuck = true
          → Step cfg s (.takeAck id)
              ((s.pop u.tid).setWorker id { u with taken := u.taken ++ [a], phase := .blocked })
  | takeAck {id : Nat} {u : Worker} {rdt : RdtStrategy} {a : AckPacket} {acks : List AckPacket}
      {sender : PacketSender}
      : s.workers[id]? = some u → u.phase = .running → u.rdt = some rdt → rdt.isDone = false
          → s.workerThreadsAcks u.tid = a :: acks → acknowledged cfg.mode rdt a ≠ [] → u.stuck = false
          → (cfg.acknowledgePacket id rdt a).ranDry = false
          → s.send cfg rdt.sent.length (cfg.acknowledgePacket id rdt a) = some sender
          → Step cfg s (.takeAck id)
              ({ s.pop u.tid with sender }.setWorker id
                { u with taken := u.taken ++ [a], rdt := some (cfg.acknowledgePacket id rdt a) })
  | timeOut {id : Nat} {u : Worker} {rdt next : RdtStrategy} {sender : PacketSender}
      : s.workers[id]? = some u → u.rdt = some rdt → rdt.sent ≠ [] → u.stuck = false
          → timerFails cfg.mode rdt = false → timer cfg id rdt = some next
          → s.send cfg rdt.sent.length next = some sender
          → Step cfg s (.timeOut id)
              ({ s with sender }.setWorker id
                { u with rdt := some next, stuck := cfg.mode = Mode.goBackN })
  | finish {id : Nat} {u : Worker} {rdt : RdtStrategy}
      : s.workers[id]? = some u → u.phase = .running → u.rdt = some rdt → rdt.isDone = true
          → Step cfg s (.finish id) (s.finish id u rdt)
  | finalize {id : Nat} {u : Worker} {th : WorkerThread}
      : s.workers[id]? = some u → u.phase = .finalizing → s.workingThreads u.tid = some th
          → Step cfg s (.finalize id)
              ({
                s with
                  workingThreads :=
                    Function.update s.workingThreads u.tid (some { th with done := true })
              }.setWorker id { u with phase := .ended })
  | nullPointer {id : Nat} {u : Worker}
      : s.workers[id]? = some u → u.phase = .finalizing → s.workingThreads u.tid = none
          → Step cfg s (.finalize id) s.crash
  | crash {id : Nat} {u : Worker} {e : Event}
      : s.workers[id]? = some u → Crash cfg s id u e → Step cfg s e s.crash

-- `buffer` is on the stack and not initialised.
def init (buffer : Nat → UInt8) : Server :=
  {
    running := true
    buffer
    sender := PacketSender.init
    mainThread := .receiving
    registeredClients := fun _ => none
    workerThreadsAcks := fun _ => []
    workingThreads := fun _ => none
    workers := []
    outgoing := []
    received := fun _ => []
  }

end Server
