import Opcd.Lib.Words

/-!
# Frames

The wire frame of `frame.c` and `codec.c`: an 8-byte fixed header, a reserve up to byte 64 and a
body. A request without a body is the fixed header alone.

* `frameParse`: the header and the body of a datagram, or nothing when its size is not a frame's or
  its Length field lies.
* `frameBuild`: the frame of a header and a body, or nothing when it does not fit.
* `frameParse_frameBuild`: what is built with a truthful Length is parsed back.
-/

namespace Opcd.Protocol

open Bytes

def fixedHeaderSize : Nat := 8

def headerSize : Nat := 64

def frameMax : Nat := 1424

def payloadMax : Nat := frameMax - headerSize

def protocolVersion : Byte := 1

/-- Command types. -/
def cmdRequest : Byte := 1

def cmdAck : Byte := 2

/-- `opc_header_t`. -/
structure Header where
  protocolVersion : Byte
  commandType : Byte
  reqIndicationId : BitVec 16
  sequenceNumber : BitVec 16
  length : BitVec 16
  deriving DecidableEq, Repr

def fixedHeaderPack (h : Header) : Bytes :=
  [h.protocolVersion, h.commandType] ++ be16Write h.reqIndicationId ++
    be16Write h.sequenceNumber ++ be16Write h.length

/-- The fixed header and the zeroed reserve. -/
def headerPack (h : Header) : Bytes :=
  fixedHeaderPack h ++ List.replicate (headerSize - fixedHeaderSize) 0

def fixedHeaderUnpack (b : Bytes) : Option Header :=
  if b.length < fixedHeaderSize then none
  else some
    { protocolVersion := b.byteAt 0
      commandType := b.byteAt 1
      reqIndicationId := b.be16Read 2
      sequenceNumber := b.be16Read 4
      length := b.be16Read 6 }

/-- `opc_frame_build` into a buffer of `cap` bytes. -/
def frameBuild (cap : Nat) (cmd : Byte) (req seq length : BitVec 16) (body : Bytes) :
    Option Bytes :=
  if body.length > payloadMax then none
  else if cap < headerSize + body.length then none
  else some (headerPack ⟨protocolVersion, cmd, req, seq, length⟩ ++ body)

/-- `opc_frame_parse`: the header and the body. -/
def frameParse (frame : Bytes) : Option (Header × Bytes) :=
  if frame.length < fixedHeaderSize then none
  else if frame.length > frameMax then none
  else if frame.length ≠ fixedHeaderSize ∧ frame.length < headerSize then none
  else
    match fixedHeaderUnpack frame with
    | none => none
    | some h =>
      if h.length.toNat ≠ frame.length - fixedHeaderSize then none
      else some (h, frame.drop headerSize)

@[simp] theorem length_fixedHeaderPack (h : Header) : (fixedHeaderPack h).length = 8 := rfl

@[simp] theorem length_headerPack (h : Header) : (headerPack h).length = 64 := by
  simp [headerPack, headerSize, fixedHeaderSize]

theorem fixedHeaderUnpack_pack (h : Header) (b : Bytes) : fixedHeaderUnpack (fixedHeaderPack h ++ b) = some h := by
  have hlen : ¬ (fixedHeaderPack h ++ b).length < fixedHeaderSize := by
    simp [fixedHeaderSize]
  rw [fixedHeaderUnpack, if_neg hlen]
  cases h
  simp [fixedHeaderPack, be16Read, be16Write, byteAt, append_bytes16]

/-- A frame built with the Length of its size is parsed back. -/
theorem frameParse_frameBuild {cap : Nat} {cmd : Byte} {req seq length : BitVec 16} {body f : Bytes}
    (h : frameBuild cap cmd req seq length body = some f) (hlen : length.toNat = body.length + 56) :
    frameParse f = some (⟨protocolVersion, cmd, req, seq, length⟩, body) := by
  unfold frameBuild at h
  split at h
  · contradiction
  next hpay =>
  split at h
  · contradiction
  obtain rfl := Option.some.inj h
  have hsize : (headerPack ⟨protocolVersion, cmd, req, seq, length⟩ ++ body).length
      = 64 + body.length := by simp
  have hun : fixedHeaderUnpack (headerPack ⟨protocolVersion, cmd, req, seq, length⟩ ++ body)
      = some ⟨protocolVersion, cmd, req, seq, length⟩ := by
    rw [headerPack, List.append_assoc]
    exact fixedHeaderUnpack_pack _ _
  have hdrop : (headerPack ⟨protocolVersion, cmd, req, seq, length⟩ ++ body).drop headerSize
      = body := List.drop_left' (length_headerPack _)
  simp only [payloadMax, frameMax, headerSize] at hpay
  rw [frameParse, hun, hdrop, hsize]
  simp only [fixedHeaderSize, frameMax, headerSize, hlen]
  rw [if_neg (by omega), if_neg (by omega), if_neg (by omega), if_neg (by omega)]

end Opcd.Protocol
