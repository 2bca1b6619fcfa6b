import OrderEngine.Construction.Types
import OrderEngine.Library.LittleEndian

namespace OrderEngine.Proto

open Library

def kMagic : UInt32 := 0x01454D4F

def kVersion : UInt8 := 1

def kHeaderSize : Nat := 8

def kBodySize : Nat := 40

def kFrameSize : Nat := kHeaderSize + kBodySize

/-- The header is packed into eight bytes. -/
structure WireHeader where
  magic : UInt32
  version : UInt8
  action : UInt8
  side : UInt8
  reserved : UInt8
  deriving DecidableEq, Repr

/-- The order is packed into forty bytes after the header. -/
structure WireOrder where
  orderId : UInt64
  originalOrderId : UInt64
  price : Int64
  quantity : UInt64
  timestampNs : UInt64
  deriving DecidableEq, Repr

def WireHeader.read (bytes : List UInt8) : WireHeader where
  magic := UInt32.ofNat (readField bytes 0 4)
  version := UInt8.ofNat (readField bytes 4 1)
  action := UInt8.ofNat (readField bytes 5 1)
  side := UInt8.ofNat (readField bytes 6 1)
  reserved := UInt8.ofNat (readField bytes 7 1)

def WireOrder.read (bytes : List UInt8) : WireOrder where
  orderId := UInt64.ofNat (readField bytes 0 8)
  originalOrderId := UInt64.ofNat (readField bytes 8 8)
  price := (UInt64.ofNat (readField bytes 16 8)).toInt64
  quantity := UInt64.ofNat (readField bytes 24 8)
  timestampNs := UInt64.ofNat (readField bytes 32 8)

def WireHeader.write (header : WireHeader) : List UInt8 :=
  toLittleEndian 4 header.magic.toNat ++
    [header.version, header.action, header.side, header.reserved]

def WireOrder.write (body : WireOrder) : List UInt8 :=
  toLittleEndian 8 body.orderId.toNat ++ toLittleEndian 8 body.originalOrderId.toNat ++
    toLittleEndian 8 body.price.toUInt64.toNat ++ toLittleEndian 8 body.quantity.toNat ++
    toLittleEndian 8 body.timestampNs.toNat

/-- The decoder checks the length, the magic and the version, and it checks no other field. A frame
that it refuses leaves the output message as it was. -/
def decode (buf : List UInt8) (out : OrderMessage) : Bool × OrderMessage :=
  if buf.length < kFrameSize then (false, out)
  else
    let hdr := WireHeader.read buf
    let body := WireOrder.read (buf.drop kHeaderSize)
    if hdr.magic ≠ kMagic then (false, out)
    else if hdr.version ≠ kVersion then (false, out)
    else
      (true,
        { action := ⟨hdr.action⟩
          side := ⟨hdr.side⟩
          orderId := body.orderId
          originalOrderId := body.originalOrderId
          price := body.price.toInt
          quantity := body.quantity
          arrivalCycles := 0 })

/-- The encoder overwrites the first bytes of a buffer. -/
def encode (msg : OrderMessage) (timestampNs : UInt64) (buf : List UInt8) : List UInt8 :=
  let hdr : WireHeader :=
    { magic := kMagic
      version := kVersion
      action := msg.action.byte
      side := msg.side.byte
      reserved := 0 }
  let body : WireOrder :=
    { orderId := msg.orderId
      originalOrderId := msg.originalOrderId
      price := Int64.ofInt msg.price
      quantity := msg.quantity
      timestampNs := timestampNs }
  hdr.write ++ body.write ++ buf.drop kFrameSize

end OrderEngine.Proto
