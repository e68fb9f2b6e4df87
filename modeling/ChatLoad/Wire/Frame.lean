import ChatLoad.Wire.Error
import ChatLoad.Wire.Command

/-! Frames: a header of 17 bytes and a body. The header holds the magic number (2 bytes), version (1),
serialisation (1), command (1), request id (8) and body length (4), all big-endian. -/

namespace ChatLoad

/-- A parsed header. The command stays a byte, so that unknown commands remain visible. -/
structure Header where
  magic : UInt16
  version : UInt8
  serial : UInt8
  command : UInt8
  requestId : UInt64
  length : UInt32
  deriving Repr, DecidableEq

structure Frame where
  header : Header
  body : Bytes
  deriving Repr, DecidableEq

namespace Header

def magicNumber : UInt16 := 0xCAFE

def currentVersion : UInt8 := 1

def currentSerial : UInt8 := 1

def size : Nat := 17

/-- The longest body that is read, 16 MiB. -/
def maxBody : Nat := 16 * 1024 * 1024

def number (bytes : Bytes) (start width : Nat) : Nat :=
  Bytes.ofBigEndian ((bytes.drop start).take width)

def decode (bytes : Bytes) : Except WireError Header :=
  if bytes.length < size then .error (.truncated size bytes.length)
  else
    let magic := UInt16.ofNat (number bytes 0 2)
    if magic ≠ magicNumber then .error (.invalidMagic magic)
    else
      .ok {
        magic
        version := UInt8.ofNat (number bytes 2 1)
        serial := UInt8.ofNat (number bytes 3 1)
        command := UInt8.ofNat (number bytes 4 1)
        requestId := UInt64.ofNat (number bytes 5 8)
        length := UInt32.ofNat (number bytes 13 4) }

def kind (header : Header) : Command :=
  Command.ofCode header.command

def frameSize (header : Header) : Nat :=
  size + header.length.toNat

end Header

namespace Frame

def kind (frame : Frame) : Command :=
  frame.header.kind

def requestId (frame : Frame) : UInt64 :=
  frame.header.requestId

/-- The bytes of a frame; its length field is the length of the body modulo `2 ^ 32`. -/
def encodeCode (code : UInt8) (requestId : UInt64) (body : Bytes) : Bytes :=
  Bytes.bigEndian 2 Header.magicNumber.toNat ++
    [Header.currentVersion, Header.currentSerial, code] ++
    Bytes.bigEndian 8 requestId.toNat ++
    Bytes.bigEndian 4 body.length ++
    body

def encode (command : Command) (requestId : UInt64) (body : Bytes) : Bytes :=
  encodeCode command.code requestId body

end Frame

end ChatLoad
