import RdtProtocol.Deployment.Basic
import RdtProtocol.Shared.Conversion

/-!
This module contains `client_parser` and what the client does with its arguments before it sends a
request. The file has words separated by spaces, and nothing tests that an extraction has succeeded.
-/

structure ClientParser where
  serverIp : Bytes
  serverPortNo : Option UInt16
  localPortNo : Option UInt16
  reqFileName : Bytes
  defaultWindowSize : Option Int
  clientMode : Bytes
  deriving DecidableEq, Repr

namespace ClientParser

def new (argsFile : Bytes) : ClientParser :=
  let serverIp := (Istream.new argsFile).extractString
  let serverPortNo := serverIp.2.extractNumber 0 Istream.convertUInt16
  let localPortNo := serverPortNo.2.extractNumber 0 Istream.convertUInt16
  let reqFileName := localPortNo.2.extractString
  let defaultWindowSize := reqFileName.2.extractNumber 0 Istream.convertInt
  let clientMode := defaultWindowSize.2.extractString
  {
    serverIp := serverIp.1
    serverPortNo := serverPortNo.1
    localPortNo := localPortNo.1
    reqFileName := reqFileName.1
    defaultWindowSize := defaultWindowSize.1
    clientMode := clientMode.1
  }

-- To return a number that has never been written to is undefined.
def get {α : Type} (x : Option α) : Except Failure α :=
  match x with
  | some x => .ok x
  | none => .error .undefined

def getServerPortNo (p : ClientParser) : Except Failure UInt16 :=
  get p.serverPortNo

def getLocalPortNo (p : ClientParser) : Except Failure UInt16 :=
  get p.localPortNo

def getDefaultWindowSize (p : ClientParser) : Except Failure Int :=
  get p.defaultWindowSize

end ClientParser

structure ClientSettings where
  serverIp : Bytes
  serverPortNo : UInt16
  localPortNo : UInt16
  config : Deployment.ClientConfig
  deriving DecidableEq, Repr

namespace Client

def setMode (modeStr : Bytes) : Except Failure Mode :=
  if modeStr = ascii "stop_and_wait" then
    .ok .stopAndWait
  else if modeStr = ascii "selective_repeat" then
    .ok .selectiveRepeat
  else if modeStr = ascii "go_back_n" then
    .ok .goBackN
  else
    .error .exitFailure

-- What `receive_datagrams` asks for. Stop and wait has a window size of one.
def windowArgument (p : ClientParser) (mode : Mode) : Except Failure Int :=
  match mode with
  | .stopAndWait => .ok (p.defaultWindowSize.getD 0)
  | .selectiveRepeat => p.getDefaultWindowSize
  | .goBackN => p.getDefaultWindowSize

def init (p : ClientParser) : Except Failure ClientSettings := do
  let localPortNo ← p.getLocalPortNo
  let serverPortNo ← p.getServerPortNo
  let mode ← setMode p.clientMode
  let defaultWindowSize ← windowArgument p mode
  return {
    serverIp := p.serverIp
    serverPortNo
    localPortNo
    config := { mode, reqFileName := p.reqFileName, defaultWindowSize }
  }

end Client
