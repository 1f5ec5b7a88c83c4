import RdtProtocol.Client.Strategy.GoBackN
import RdtProtocol.Client.Strategy.SelectiveRepeat
import RdtProtocol.Server.Strategy.Mode
import RdtProtocol.Util.StepFn

/-!
This module contains the transition system of one transfer: the server with the worker of one client,
that client, and the network in between. A datagram that has been sent stays in the network for good,
and either side may receive any of those sent to it at any time, so that datagrams may get lost,
duplicated and reordered in every way.
-/

namespace Transfer

structure Config where
  mode : Mode
  env : Env
  file : Bytes
  reqFileName : Bytes
  -- As for `Mode.newStrategy`.
  nextSeqNumber : UInt32
  maxWindowSize : Int
  threshold : Int
  clientWindowSize : Int

-- A datagram is tagged with what it was sent as, which the receiver cannot see.
inductive ServerDatagram where
  | requestAck
  | data (packet : DataPacket)
  | terminal (packet : DataPacket)
  deriving DecidableEq, Repr

inductive ClientDatagram where
  | request
  | ack (packet : AckPacket)
  deriving DecidableEq, Repr

def ServerDatagram.bytes : ServerDatagram → Bytes
  | .requestAck => (AckPacket.new 0).pack
  | .data packet => packet.pack
  | .terminal packet => packet.pack

def ClientDatagram.bytes (cfg : Config) : ClientDatagram → Bytes
  | .request => (DataPacket.new cfg.reqFileName 0).pack
  | .ack packet => packet.pack

inductive Stage where
  | unregistered
  | created
  | running
  | finished
  deriving DecidableEq, Repr

structure World where
  stage : Stage
  server : RdtStrategy
  receiving : Bool
  client : ClientRdtStrategy
  toClient : List ServerDatagram
  toServer : List ClientDatagram

inductive Event where
  | sendRequest
  | request (datagram : ClientDatagram)
  | start
  | ack (datagram : ClientDatagram)
  | timeOut
  | resend (index : Nat)
  | finish
  | handshake (datagram : ServerDatagram)
  | run (datagram : ServerDatagram)
  deriving DecidableEq, Repr

def newStrategy (cfg : Config) : RdtStrategy :=
  cfg.mode.newStrategy (File.regular cfg.file) cfg.nextSeqNumber cfg.maxWindowSize cfg.threshold

def start (cfg : Config) (s : RdtStrategy) : RdtStrategy :=
  cfg.mode.start cfg.env s

def acknowledgePacket (cfg : Config) (s : RdtStrategy) (ackPkt : AckPacket) : RdtStrategy :=
  cfg.mode.acknowledgePacket cfg.env s ackPkt

def handleTimeOut (cfg : Config) (s : RdtStrategy) : RdtStrategy :=
  cfg.mode.handleTimeOut cfg.env s

def newClientStrategy (cfg : Config) : ClientRdtStrategy :=
  match cfg.mode with
  | .stopAndWait => ClientSelectiveRepeat.new cfg.clientWindowSize
  | .selectiveRepeat => ClientSelectiveRepeat.new cfg.clientWindowSize
  | .goBackN => ClientGoBackN.new cfg.clientWindowSize

def runClient (cfg : Config) (c : ClientRdtStrategy) (datagram : Bytes) : Option ClientRdtStrategy :=
  match cfg.mode with
  | .stopAndWait => ClientSelectiveRepeat.run c datagram
  | .selectiveRepeat => ClientSelectiveRepeat.run c datagram
  | .goBackN => ClientGoBackN.run c datagram

namespace World

def withServer (w : World) (server : RdtStrategy) : World :=
  {
    w with
      server
      toClient :=
        w.toClient ++ (server.sent.drop w.server.sent.length).map (fun p => .data p.packet)
  }

def withClient (w : World) (client : ClientRdtStrategy) : World :=
  {
    w with
      client
      toServer := w.toServer ++ (client.acks.drop w.client.acks.length).map .ack
  }

-- The timer thread goes on when the worker has finished.
def started (w : World) : Bool :=
  w.stage = .running ∨ w.stage = .finished

end World

/--
A step of one of the two sides. What it sends stays in the network, and what it receives is any datagram
from there, so that the network may lose, duplicate and reorder.
-/
def step (cfg : Config) (w : World) : Event → Option World
  | .sendRequest =>
    if w.receiving then
      none
    else
      some { w with toServer := w.toServer ++ [.request] }
  | .request datagram =>
    if w.stage = .unregistered ∧ datagram ∈ w.toServer then
      (DataPacket.unpack (datagram.bytes cfg)).map fun _ =>
        { w with stage := .created, toClient := w.toClient ++ [.requestAck] }
    else
      none
  | .start =>
    if w.stage = .created then
      some { w.withServer (start cfg w.server) with stage := .running }
    else
      none
  | .ack datagram =>
    if w.stage = .running ∧ w.server.isDone = false ∧ datagram ∈ w.toServer then
      (AckPacket.unpack (datagram.bytes cfg)).map fun ack =>
        w.withServer (acknowledgePacket cfg w.server ack)
    else
      none
  | .timeOut =>
    if w.started ∧ w.server.unackedPackets ≠ [] then
      some (w.withServer (handleTimeOut cfg w.server))
    else
      none
  | .resend index =>
    if cfg.mode = .goBackN ∧ w.started then
      w.server.window[index]?.map fun p => w.withServer (GoBackN.resend cfg.env w.server p)
    else
      none
  | .finish =>
    if w.stage = .running ∧ w.server.isDone then
      some {
        w with
          stage := .finished
          toClient := w.toClient ++ [.terminal w.server.sendEmptyPacket]
      }
    else
      none
  | .handshake datagram =>
    if w.receiving = false ∧ datagram ∈ w.toClient then
      some { w with receiving := true }
    else
      none
  | .run datagram =>
    if w.receiving ∧ w.client.done = false ∧ datagram ∈ w.toClient then
      (runClient cfg w.client datagram.bytes).map w.withClient
    else
      none

inductive Step (cfg : Config) (w : World) : Event → World → Prop where
  | sendRequest
      : w.receiving = false → Step cfg w .sendRequest { w with toServer := w.toServer ++ [.request] }
  | request {datagram : ClientDatagram}
      : w.stage = .unregistered → datagram ∈ w.toServer
          → Step cfg w (.request datagram)
              { w with stage := .created, toClient := w.toClient ++ [.requestAck] }
  | start
      : w.stage = .created
          → Step cfg w .start { w.withServer (start cfg w.server) with stage := .running }
  | ack {datagram : ClientDatagram} {a : AckPacket}
      : w.stage = .running → w.server.isDone = false → datagram ∈ w.toServer
          → AckPacket.unpack (datagram.bytes cfg) = some a
          → Step cfg w (.ack datagram) (w.withServer (acknowledgePacket cfg w.server a))
  | timeOut
      : w.stage = .running ∨ w.stage = .finished → w.server.unackedPackets ≠ []
          → Step cfg w .timeOut (w.withServer (handleTimeOut cfg w.server))
  | resend {index : Nat} {p : PacketPtr}
      : cfg.mode = .goBackN → w.stage = .running ∨ w.stage = .finished
          → w.server.window[index]? = some p
          → Step cfg w (.resend index) (w.withServer (GoBackN.resend cfg.env w.server p))
  | finish
      : w.stage = .running → w.server.isDone = true
          → Step cfg w .finish
              {
                w with
                  stage := .finished
                  toClient := w.toClient ++ [.terminal w.server.sendEmptyPacket]
              }
  | handshake {datagram : ServerDatagram}
      : w.receiving = false → datagram ∈ w.toClient
          → Step cfg w (.handshake datagram) { w with receiving := true }
  | run {datagram : ServerDatagram} {c : ClientRdtStrategy}
      : w.receiving = true → w.client.done = false → datagram ∈ w.toClient
          → runClient cfg w.client datagram.bytes = some c
          → Step cfg w (.run datagram) (w.withClient c)

theorem Step.of_step {cfg : Config} {w w' : World} {e : Event} (h : step cfg w e = some w')
    : Step cfg w e w' := by
  cases e with
  | sendRequest =>
    simp only [step, Option.ite_none_left_eq_some, Option.some.injEq] at h
    obtain ⟨hc, rfl⟩ := h
    exact .sendRequest (by simpa using hc)
  | request datagram =>
    simp only [step, Option.ite_none_right_eq_some, Option.map_eq_some_iff] at h
    obtain ⟨hc, _, _, rfl⟩ := h
    exact .request hc.1 hc.2
  | start =>
    simp only [step, Option.ite_none_right_eq_some, Option.some.injEq] at h
    obtain ⟨hc, rfl⟩ := h
    exact .start hc
  | ack datagram =>
    simp only [step, Option.ite_none_right_eq_some, Option.map_eq_some_iff] at h
    obtain ⟨hc, a, ha, rfl⟩ := h
    exact .ack hc.1 hc.2.1 hc.2.2 ha
  | timeOut =>
    simp only [step, World.started, Option.ite_none_right_eq_some, Option.some.injEq,
      decide_eq_true_eq] at h
    obtain ⟨hc, rfl⟩ := h
    exact .timeOut hc.1 hc.2
  | resend index =>
    simp only [step, World.started, Option.ite_none_right_eq_some, Option.map_eq_some_iff,
      decide_eq_true_eq] at h
    obtain ⟨hc, p, hp, rfl⟩ := h
    exact .resend hc.1 hc.2 hp
  | finish =>
    simp only [step, Option.ite_none_right_eq_some, Option.some.injEq] at h
    obtain ⟨hc, rfl⟩ := h
    exact .finish hc.1 hc.2
  | handshake datagram =>
    simp only [step, Option.ite_none_right_eq_some, Option.some.injEq] at h
    obtain ⟨hc, rfl⟩ := h
    exact .handshake hc.1 hc.2
  | run datagram =>
    simp only [step, Option.ite_none_right_eq_some, Option.map_eq_some_iff] at h
    obtain ⟨hc, c, hrun, rfl⟩ := h
    exact .run hc.1 hc.2.1 hc.2.2 hrun

def init (cfg : Config) : World :=
  {
    stage := .unregistered
    server := newStrategy cfg
    receiving := false
    client := newClientStrategy cfg
    toClient := []
    toServer := []
  }

/--
Both strategies have been constructed and nothing of the handshake is left in the network.
-/
def dataPhase (cfg : Config) : World :=
  { init cfg with stage := .created, receiving := true }

end Transfer
