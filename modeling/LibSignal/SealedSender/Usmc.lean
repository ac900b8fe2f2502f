import LibSignal.SealedSender.Certs

/-!
# The content of a sealed sender message

Model of `sealedsender/usmc.go`: the unidentified sender message content with its certificate, hint and group
id.
-/

namespace LibSignal.SealedSender
open Chunked (Bytes)
open Crypto Curve Proto Lib

inductive UsmcErr where
  /-- nil sender certificate -/
  | nilSender
  | unknownMessageType (type : UInt8)
  | unknownProtoType (type : Int32)
  | protobuf
  | missingType
  | missingSender
  | missingContent
  | sender (cause : CertErr)
deriving DecidableEq, Repr

structure UsmcPB where
  type : Option Int32
  senderCertificate : Option Bytes
  content : Option Bytes
  contentHint : Option Int32
  groupId : Option Bytes
deriving DecidableEq, Repr

def messageTypeWhisper : UInt8 := 2
def messageTypePreKey : UInt8 := 3
def messageTypeSenderKey : UInt8 := 7
def messageTypePlaintext : UInt8 := 8

def usmcTypeToProto (msgType : UInt8) : Except UsmcErr Int32 :=
  if msgType = messageTypeWhisper then .ok 2
  else if msgType = messageTypePreKey then .ok 1
  else if msgType = messageTypeSenderKey then .ok 7
  else if msgType = messageTypePlaintext then .ok 8
  else .error (.unknownMessageType msgType)

def usmcTypeFromProto (t : Int32) : Except UsmcErr UInt8 :=
  if t = 2 then .ok messageTypeWhisper
  else if t = 1 then .ok messageTypePreKey
  else if t = 7 then .ok messageTypeSenderKey
  else if t = 8 then .ok messageTypePlaintext
  else .error (.unknownProtoType t)

lemma usmcTypeFromProto_toProto {msgType : UInt8} {t : Int32} (h : usmcTypeToProto msgType = .ok t) :
    usmcTypeFromProto t = .ok msgType := by
  rw [usmcTypeToProto] at h
  split_ifs at h with h2 h3 h7 h8
  · cases h; rw [h2]; rfl
  · cases h; rw [h3]; rfl
  · cases h; rw [h7]; rfl
  · cases h; rw [h8]; rfl

def contentHintToProtoEnum (h : UInt32) : Option Int32 := if h = 0 then none else some h.toInt32

def contentHintFromProto : Option Int32 → UInt32
  | none => 0
  | some v => v.toUInt32

@[simp] lemma contentHintFromProto_toProto (h : UInt32) :
    contentHintFromProto (contentHintToProtoEnum h) = h := by
  rw [contentHintToProtoEnum]
  split
  · rename_i hzero
    rw [hzero]
    rfl
  · exact UInt32.toUInt32_toInt32 h

def nonEmptyClone (b : Bytes) : Option Bytes := if b.length = 0 then none else some b

structure USMC where
  msgType : UInt8
  sender : SenderCertificate
  contents : Option Bytes
  contentHint : UInt32
  groupID : Option Bytes
  serialized : Bytes
deriving DecidableEq, Repr

section
variable [Wire UsmcPB]

/-- Assemble and serialize a content; `none` is a nil argument (`NewUnidentifiedSenderMessageContent`). -/
def newUSMC (msgType : UInt8) (sender : Option SenderCertificate) (contents : Option Bytes)
    (contentHint : UInt32) (groupID : Bytes) : Except UsmcErr USMC := do
  let sender ← orError .nilSender sender
  let protoType ← usmcTypeToProto msgType
  let msg : UsmcPB :=
    { type := some protoType, senderCertificate := some sender.serialized, content := contents,
      contentHint := contentHintToProtoEnum contentHint, groupId := nonEmptyClone groupID }
  return { msgType := msgType, sender := sender, contents := contents, contentHint := contentHint,
           groupID := nonEmptyClone groupID, serialized := marshal msg }

variable [Wire ServerCertificatePB] [Wire ServerCertificateBodyPB] [Wire SenderCertificatePB]
  [Wire SenderCertificateBodyPB]

def deserializeUSMC (data : Bytes) : Except UsmcErr USMC := do
  let pb ← orError .protobuf (unmarshal (α := UsmcPB) data)
  let type ← orError .missingType pb.type
  let msgType ← usmcTypeFromProto type
  let senderCertificate ← orError .missingSender pb.senderCertificate
  let content ← orError .missingContent pb.content
  let sender ← (deserializeSenderCertificate senderCertificate).mapError .sender
  return { msgType := msgType, sender := sender, contents := some content,
           contentHint := contentHintFromProto pb.contentHint,
           groupID := nonEmptyClone (pb.groupId.getD []), serialized := data }

omit [Wire ServerCertificatePB] [Wire ServerCertificateBodyPB] [Wire SenderCertificatePB]
  [Wire SenderCertificateBodyPB] [Wire UsmcPB] in
@[simp] lemma nonEmptyClone_getD (b : Bytes) : nonEmptyClone ((nonEmptyClone b).getD []) = nonEmptyClone b := by
  by_cases h : b.length = 0
  · have hnone : nonEmptyClone b = none := if_pos h
    rw [hnone]
    rfl
  · have hsome : nonEmptyClone b = some b := if_neg h
    rw [hsome]
    exact hsome

omit [Wire ServerCertificatePB] [Wire ServerCertificateBodyPB] [Wire SenderCertificatePB]
  [Wire SenderCertificateBodyPB] in
lemma newUSMC_sender {msgType : UInt8} {sender : SenderCertificate} {contents : Option Bytes}
    {hint : UInt32} {groupID : Bytes} {u : USMC}
    (h : newUSMC msgType (some sender) contents hint groupID = .ok u) : u.sender = sender := by
  obtain ⟨_, hs, h⟩ := bind_eq_ok h
  cases hs
  obtain ⟨_, _, h⟩ := bind_eq_ok h
  cases h
  rfl

lemma newUSMC_reload [XEdDSA] {msgType : UInt8} {sender : SenderCertificate} {contents : Bytes}
    {hint : UInt32} {groupID : Bytes} {u : USMC} (hsender : sender.Made)
    (h : newUSMC msgType (some sender) (some contents) hint groupID = .ok u) :
    deserializeUSMC u.serialized = .ok u := by
  obtain ⟨_, hs, h⟩ := bind_eq_ok h
  cases hs
  obtain ⟨t, ht, h⟩ := bind_eq_ok h
  cases h
  simp [deserializeUSMC, orError, usmcTypeFromProto_toProto ht, hsender.reload]

end

end LibSignal.SealedSender
