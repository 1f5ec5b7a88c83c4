import RdtProtocol.Server.Strategy.Mode
import RdtProtocol.Shared.Conversion

/-!
This module contains `server_parser` and the constructor of the server. The file has one argument on
each line, and nothing tests how many lines there are. `stof` and what it yields are given from outside.
-/

def Mode.name (mode : Mode) : Bytes :=
  match mode with
  | .stopAndWait => ascii "stop_and_wait"
  | .selectiveRepeat => ascii "selective_repeat"
  | .goBackN => ascii "go_back_n"

theorem Mode.name_injective : Function.Injective Mode.name := by
  intro a b h
  cases a <;> cases b <;> first | rfl | exact absurd h (by decide)

theorem Mode.ite_name_eq_ok_iff (a b c : Mode) {mode : Mode} (hall : mode = a ∨ mode = b ∨ mode = c)
    {modeStr : Bytes} {failure : Failure}
    : (if modeStr = a.name then .ok a else if modeStr = b.name then .ok b
          else if modeStr = c.name then .ok c else .error failure : Except Failure Mode) = .ok mode
        ↔ modeStr = mode.name := by
  split_ifs with ha hb hc
  . rw [ha, Except.ok.injEq, name_injective.eq_iff]
  . rw [hb, Except.ok.injEq, name_injective.eq_iff]
  . rw [hc, Except.ok.injEq, name_injective.eq_iff]
  . simp only [false_iff]
    rintro rfl
    obtain rfl | rfl | rfl := hall
    . exact ha rfl
    . exact hb rfl
    . exact hc rfl

structure ServerParser where
  serverArgs : List Bytes
  deriving DecidableEq, Repr

namespace ServerParser

-- There are no lines in a file that cannot be opened.
def new (argsFile : Bytes) : ServerParser :=
  { serverArgs := Text.lines argsFile }

def arg (p : ServerParser) (i : Nat) : Except Failure Bytes :=
  match p.serverArgs[i]? with
  | some a => .ok a
  | none => .error .undefined

def getPortNumber (p : ServerParser) : Except Failure Int := do
  stoi (← p.arg 0)

def getMaxWindowSize (p : ServerParser) : Except Failure Int := do
  stoi (← p.arg 1)

def getRandomSeed (p : ServerParser) : Except Failure UInt32 := do
  let seed ← stoul (← p.arg 2)
  return seed.toUInt32

def getLossProbability {α : Type} (stof : Bytes → Except Failure α) (p : ServerParser)
    : Except Failure α := do
  stof (← p.arg 3)

def getServerMode (p : ServerParser) : Except Failure Bytes :=
  p.arg 4

-- The loop counts with an `int`.
def getLossSequence (p : ServerParser) : Except Failure (List Int) :=
  go 5 (p.serverArgs.drop 5)
where
  go (i : Nat) : List Bytes → Except Failure (List Int)
    | [] => .ok []
    | a :: args => do
      let x ← stoi a
      if i + 1 = 2 ^ 31 then
        .error .undefined
      else
        return x :: (← go (i + 1) args)

end ServerParser

namespace Server

structure Settings (α : Type) where
  portNumber : Int
  maxWindowSize : Int
  randomSeed : UInt32
  lossProbability : α
  serverMode : Mode
  lossSequence : List Int
  deriving DecidableEq, Repr

def setMode (modeStr : Bytes) : Except Failure Mode :=
  if modeStr = ascii "selective_repeat" then
    .ok .selectiveRepeat
  else if modeStr = ascii "go_back_n" then
    .ok .goBackN
  else if modeStr = ascii "stop_and_wait" then
    .ok .stopAndWait
  else
    .error .exitFailure

-- The constructor, up to `init`.
def new {α : Type} (stof : Bytes → Except Failure α) (p : ServerParser)
    : Except Failure (Settings α) := do
  let maxWindowSize ← p.getMaxWindowSize
  let portNumber ← p.getPortNumber
  let randomSeed ← p.getRandomSeed
  let lossProbability ← p.getLossProbability stof
  let lossSequence ← p.getLossSequence
  let serverMode ← setMode (← p.getServerMode)
  return { portNumber, maxWindowSize, randomSeed, lossProbability, serverMode, lossSequence }

end Server
