import RdtProtocol.Shared.Packet
import RdtProtocol.Util.Chunks

/-!
This module contains the reader that cuts a file into numbered packets. A `data_packet *` is the
address that `new` returned together with those fields of the packet that nothing writes to after its
construction. The other fields are in the heap of the strategy that the packet belongs to.
-/

structure PacketPtr where
  addr : Nat
  packet : DataPacket
  deriving DecidableEq, Repr

namespace PacketPtr

def number (addr : Nat) (seqno : UInt32) (data : List Bytes) : List PacketPtr :=
  match data with
  | [] => []
  | packetData :: data =>
    ⟨addr, DataPacket.new packetData seqno⟩ :: number (addr + 1) (seqno + 1) data

end PacketPtr

/--
What `stat` and `fread` tell about a file, `size` and the length of `content` need not agree.
-/
structure File where
  size : Int
  content : Bytes

def File.regular (content : Bytes) : File :=
  ⟨content.length, content⟩

structure PacketBuilder where
  fp : Bytes
  closed : Bool
  queueSize : Int
  dataNotRead : Int
  packetsReadQueue : List PacketPtr
  allocated : Nat

namespace PacketBuilder

def new (file : File) (queueSize : Int) : PacketBuilder :=
  {
    fp := file.content
    closed := false
    queueSize
    dataNotRead := file.size
    packetsReadQueue := []
    allocated := 0
  }

def bufferSize (b : PacketBuilder) : Nat :=
  sizeT (int32 (MAX_DATA_SIZE * b.queueSize))

def hasNext (b : PacketBuilder) : Bool :=
  b.dataNotRead > 0 || !b.packetsReadQueue.isEmpty

-- What `get_next_packet` does with the bytes that `fread` returned.
def push (b : PacketBuilder) (nextSeqNum : UInt32) (read : Bytes) : PacketBuilder × UInt32 :=
  let data := read.chunks MAX_DATA_SIZE
  let b :=
    {
      b with
        dataNotRead := b.dataNotRead - read.length
        packetsReadQueue := b.packetsReadQueue ++ PacketPtr.number b.allocated nextSeqNum data
        allocated := b.allocated + data.length
    }
  (b, nextSeqNum + UInt32.ofNat data.length)

-- Undefined where `front` is called on an empty queue.
def pop (b : PacketBuilder) : Option (PacketPtr × PacketBuilder) :=
  match b.packetsReadQueue with
  | [] => none
  | nextPacket :: queue =>
    let b := { b with packetsReadQueue := queue }
    some (nextPacket, if b.hasNext then b else { b with closed := true })

def read (b : PacketBuilder) (nextSeqNum : UInt32) : PacketBuilder × UInt32 :=
  if b.dataNotRead > 0 ∧ b.packetsReadQueue.isEmpty then
    let buffer := b.fp.take b.bufferSize
    { b with fp := b.fp.drop b.bufferSize }.push nextSeqNum buffer
  else
    (b, nextSeqNum)

def getNextPacket (b : PacketBuilder) (nextSeqNum : UInt32)
    : Option (PacketPtr × PacketBuilder × UInt32) :=
  let res := b.read nextSeqNum
  res.1.pop.map (fun next => (next.1, next.2, res.2))

def size (b : PacketBuilder) : Nat :=
  b.packetsReadQueue.length + b.fp.length

end PacketBuilder
