import OrderEngine.Construction.Protocol

namespace OrderEngine.Proto

open Library

section Layout

/-- The header comes back whatever follows it. -/
theorem WireHeader.read_write (header : WireHeader) (back : List UInt8) :
    WireHeader.read (header.write ++ back) = header := by
  have written : header.write ++ back =
      toLittleEndian 4 header.magic.toNat ++ (toLittleEndian 1 header.version.toNat ++
        (toLittleEndian 1 header.action.toNat ++ (toLittleEndian 1 header.side.toNat ++
          (toLittleEndian 1 header.reserved.toNat ++ back)))) := by
    simp [WireHeader.write, toLittleEndian_one]
  rw [written]
  simp [WireHeader.read, readField_skip, readField_here]

theorem WireOrder.read_write (body : WireOrder) (back : List UInt8) :
    WireOrder.read (body.write ++ back) = body := by
  have written : body.write ++ back =
      toLittleEndian 8 body.orderId.toNat ++ (toLittleEndian 8 body.originalOrderId.toNat ++
        (toLittleEndian 8 body.price.toUInt64.toNat ++ (toLittleEndian 8 body.quantity.toNat ++
          (toLittleEndian 8 body.timestampNs.toNat ++ back)))) := by
    simp [WireOrder.write]
  rw [written]
  simp [WireOrder.read, readField_skip, readField_here]

/-- The header that is read stands in the first bytes. -/
theorem WireHeader.write_read {bytes : List UInt8} (whole : kHeaderSize ≤ bytes.length) :
    (WireHeader.read bytes).write = bytes.take kHeaderSize := by
  change 8 ≤ bytes.length at whole
  have magic : (WireHeader.read bytes).magic.toNat = readField bytes 0 4 :=
    UInt32.toNat_ofNat_of_lt' (readField_lt bytes 0 4)
  have single : ∀ offset, offset < bytes.length →
      [UInt8.ofNat (readField bytes offset 1)] = (bytes.drop offset).take 1 := by
    intro offset inside
    rw [← toLittleEndian_readField (Nat.succ_le_of_lt inside)]
    rfl
  calc (WireHeader.read bytes).write
      = (bytes.drop 0).take 4 ++ ((bytes.drop 4).take 1 ++ ((bytes.drop 5).take 1 ++
          ((bytes.drop 6).take 1 ++ (bytes.drop 7).take 1))) := by
        rw [WireHeader.write, magic, toLittleEndian_readField (by omega), ← single 4 (by omega),
          ← single 5 (by omega), ← single 6 (by omega), ← single 7 (by omega)]
        rfl
    _ = (bytes.drop 0).take (4 + (1 + (1 + (1 + 1)))) := by
        rw [take_fields, take_fields, take_fields, take_fields]

theorem WireOrder.write_read {bytes : List UInt8} (whole : kBodySize ≤ bytes.length) :
    (WireOrder.read bytes).write = bytes.take kBodySize := by
  change 40 ≤ bytes.length at whole
  have word : ∀ offset, offset + 8 ≤ bytes.length →
      toLittleEndian 8 (UInt64.ofNat (readField bytes offset 8)).toNat = (bytes.drop offset).take 8 := by
    intro offset inside
    rw [UInt64.toNat_ofNat_of_lt' (readField_lt bytes offset 8), toLittleEndian_readField inside]
  have price : (WireOrder.read bytes).price.toUInt64 = UInt64.ofNat (readField bytes 16 8) :=
    UInt64.toUInt64_toInt64 _
  calc (WireOrder.read bytes).write
      = (bytes.drop 0).take 8 ++ ((bytes.drop 8).take 8 ++ ((bytes.drop 16).take 8 ++
          ((bytes.drop 24).take 8 ++ (bytes.drop 32).take 8))) := by
        rw [WireOrder.write, price, ← word 0 (by omega), ← word 8 (by omega), ← word 16 (by omega),
          ← word 24 (by omega), ← word 32 (by omega)]
        simp only [WireOrder.read, List.append_assoc]
    _ = (bytes.drop 0).take (8 + (8 + (8 + (8 + 8)))) := by
        rw [take_fields, take_fields, take_fields, take_fields]

theorem WireHeader.write_length (header : WireHeader) : header.write.length = kHeaderSize := by
  simp [WireHeader.write, kHeaderSize]

theorem WireOrder.write_length (body : WireOrder) : body.write.length = kBodySize := by
  simp [WireOrder.write, kBodySize]

end Layout

section Frame

variable {msg out : OrderMessage} {timestampNs : UInt64} {buf scratch : List UInt8}

/-- The encoder writes this header. -/
def headerOf (msg : OrderMessage) : WireHeader where
  magic := kMagic
  version := kVersion
  action := msg.action.byte
  side := msg.side.byte
  reserved := 0

def bodyOf (msg : OrderMessage) (timestampNs : UInt64) : WireOrder where
  orderId := msg.orderId
  originalOrderId := msg.originalOrderId
  price := Int64.ofInt msg.price
  quantity := msg.quantity
  timestampNs := timestampNs

theorem encode_take (msg : OrderMessage) (timestampNs : UInt64) (buf : List UInt8) :
    (encode msg timestampNs buf).take kFrameSize =
      (headerOf msg).write ++ (bodyOf msg timestampNs).write := by
  have whole : ((headerOf msg).write ++ (bodyOf msg timestampNs).write).length = kFrameSize := by
    rw [List.length_append, WireHeader.write_length, WireOrder.write_length, kFrameSize]
  exact List.take_left' whole

/-- The message that the decoder reads off a frame. -/
def messageOf (header : WireHeader) (body : WireOrder) : OrderMessage where
  action := ⟨header.action⟩
  side := ⟨header.side⟩
  orderId := body.orderId
  originalOrderId := body.originalOrderId
  price := body.price.toInt
  quantity := body.quantity
  arrivalCycles := 0

/-- The decoder refuses a frame and leaves the message, or it reads the message off a whole frame. -/
theorem decode_cases (buf : List UInt8) (out : OrderMessage) :
    decode buf out = (false, out) ∨
      kFrameSize ≤ buf.length ∧ (WireHeader.read buf).magic = kMagic ∧
        (WireHeader.read buf).version = kVersion ∧
          decode buf out =
            (true, messageOf (WireHeader.read buf) (WireOrder.read (buf.drop kHeaderSize))) := by
  unfold decode
  by_cases short : buf.length < kFrameSize
  · exact .inl (if_pos short)
  · rw [if_neg short]
    by_cases magic : (WireHeader.read buf).magic = kMagic
    · by_cases version : (WireHeader.read buf).version = kVersion
      · right
        refine ⟨Nat.le_of_not_lt short, magic, version, ?_⟩
        simp only [magic, version, ne_eq, not_true_eq_false, if_false, messageOf]
      · left
        simp only [magic, version, ne_eq, not_true_eq_false, not_false_eq_true, if_false, if_true]
    · left
      simp only [magic, ne_eq, not_false_eq_true, if_true]

/-- A frame with the right magic and version is read whatever follows it. -/
theorem decode_frame {header : WireHeader} (magic : header.magic = kMagic)
    (version : header.version = kVersion) (body : WireOrder) (back : List UInt8) (out : OrderMessage) :
    decode (header.write ++ (body.write ++ back)) out = (true, messageOf header body) := by
  have headerRead := WireHeader.read_write header (body.write ++ back)
  have bodyPlaced : (header.write ++ (body.write ++ back)).drop kHeaderSize = body.write ++ back :=
    List.drop_left' header.write_length
  have long : ¬ (header.write ++ (body.write ++ back)).length < kFrameSize := by
    rw [List.length_append, List.length_append, header.write_length, body.write_length, kFrameSize]
    omega
  unfold decode
  rw [if_neg long, headerRead, bodyPlaced, WireOrder.read_write]
  simp only [magic, version, ne_eq, not_true_eq_false, if_false, messageOf]

/-- What the decoder reads is encoded into the same header, but for the reserved byte. -/
theorem headerOf_messageOf {header : WireHeader} (magic : header.magic = kMagic)
    (version : header.version = kVersion) (body : WireOrder) :
    headerOf (messageOf header body) = { header with reserved := 0 } := by
  simp [headerOf, messageOf, magic, version]

theorem bodyOf_messageOf (header : WireHeader) (body : WireOrder) :
    bodyOf (messageOf header body) body.timestampNs = body := by
  simp [bodyOf, messageOf]

theorem WireHeader.write_reserved (header : WireHeader) :
    ({ header with reserved := 0 } : WireHeader).write = header.write.set 7 0 := by
  simp [WireHeader.write, toLittleEndian]

/-- Any encoded message is decoded to itself without its arrival stamp, whatever the output held and
whatever follows the frame. -/
theorem decode_encode (msg : OrderMessage) (price : Int64) (timestampNs : UInt64) (scratch : List UInt8)
    (out : OrderMessage)
    (encoded : buf.take kFrameSize =
      (encode { msg with price := price.toInt } timestampNs scratch).take kFrameSize) :
    decode buf out = (true, { msg with price := price.toInt, arrivalCycles := 0 }) := by
  rw [encode_take] at encoded
  rw [← List.take_append_drop kFrameSize buf, encoded, List.append_assoc, decode_frame rfl rfl]
  simp [messageOf, headerOf, bodyOf]

/-- An accepted frame is the encoding of what it decodes to, but for the reserved byte. -/
theorem encode_decode (out : OrderMessage) (scratch : List UInt8) (accepted : (decode buf out).1 = true) :
    kFrameSize ≤ buf.length ∧
      (buf.take kFrameSize).set 7 0 =
        (encode (decode buf out).2 (UInt64.ofNat (readField buf 40 8)) scratch).take kFrameSize := by
  rcases decode_cases buf out with refused | ⟨long, magic, version, decoded⟩
  · rw [refused] at accepted
    exact absurd accepted Bool.false_ne_true
  · constructor
    · exact long
    · have split : buf.take kFrameSize = buf.take kHeaderSize ++ (buf.drop kHeaderSize).take kBodySize :=
        List.take_add
      have headerLong : kHeaderSize ≤ buf.length := le_trans (Nat.le_add_right _ _) long
      have bodyLong : kBodySize ≤ (buf.drop kHeaderSize).length := by
        rw [List.length_drop]
        exact Nat.le_sub_of_add_le' long
      have stamp : (WireOrder.read (buf.drop kHeaderSize)).timestampNs = UInt64.ofNat (readField buf 40 8) := by
        simp [WireOrder.read, readField, kHeaderSize]
      rw [decoded, encode_take, ← stamp, headerOf_messageOf magic version, bodyOf_messageOf,
        WireHeader.write_reserved, WireHeader.write_read headerLong, WireOrder.write_read bodyLong, split,
        List.set_append_left]
      rw [List.length_take, min_eq_left headerLong]
      decide

end Frame

/-- The codec is exact in both directions, and a refused frame leaves the output as it was. -/
theorem codec_exact :
    (∀ (msg : OrderMessage) (price : Int64) (timestampNs : UInt64) (scratch buf : List UInt8)
        (out : OrderMessage),
      kFrameSize ≤ buf.length →
        buf.take kFrameSize =
          (encode { msg with price := price.toInt } timestampNs scratch).take kFrameSize →
          decode buf out = (true, { msg with price := price.toInt, arrivalCycles := 0 })) ∧
      (∀ (scratch buf : List UInt8) (out : OrderMessage),
        (decode buf out).1 = true →
          kFrameSize ≤ buf.length ∧
            (buf.take kFrameSize).set 7 0 =
              (encode (decode buf out).2 (UInt64.ofNat (readField buf 40 8)) scratch).take
                kFrameSize) ∧
        ∀ (buf : List UInt8) (out : OrderMessage), (decode buf out).1 = false → (decode buf out).2 = out := by
  refine ⟨?_, ?_, ?_⟩
  · intro msg price timestampNs scratch buf out _ encoded
    exact decode_encode msg price timestampNs scratch out encoded
  · intro scratch buf out accepted
    exact encode_decode out scratch accepted
  · intro buf out refused
    rcases decode_cases buf out with same | ⟨_, _, _, decoded⟩
    · rw [same]
    · rw [decoded] at refused
      exact absurd refused.symm Bool.false_ne_true

/-- A message with undeclared action and side bytes and a negative price. -/
def oddMessage : OrderMessage where
  action := ⟨200⟩
  side := ⟨7⟩
  orderId := 0xFFFFFFFFFFFFFFFF
  originalOrderId := 0x0102030405060708
  price := -5
  quantity := 300
  arrivalCycles := 9

theorem codec_exact_odd :
    decode (encode oddMessage 77 (List.replicate 50 255)) {} = (true, { oddMessage with arrivalCycles := 0 }) :=
  codec_exact.1 oddMessage (-5) 77 (List.replicate 50 255) _ {} (by decide) rfl

end OrderEngine.Proto
