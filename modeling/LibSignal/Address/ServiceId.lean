import LibSignal.Crypto.Primitives

/-!
# Service ids

Model of the fixed-width form of `address/serviceid.go`: a kind tag and a 16-byte UUID.
-/

namespace LibSignal.Address
open Chunked (Bytes)

inductive ServiceIDKind where
  | aci
  | pni
deriving DecidableEq, Repr

def ServiceIDKind.tag : ServiceIDKind → UInt8
  | .aci => 0
  | .pni => 1

def uuidLen : Nat := 16
def serviceIDFixedWidthBinaryLen : Nat := 17

structure ServiceID where
  kind : ServiceIDKind
  uuid : Bytes
  length_uuid : uuid.length = uuidLen
deriving DecidableEq, Repr

def ServiceID.serviceIDFixedWidthBinary (s : ServiceID) : Bytes := s.kind.tag :: s.uuid

@[simp] lemma ServiceID.length_fixedWidth (s : ServiceID) : s.serviceIDFixedWidthBinary.length = 17 := by
  rw [serviceIDFixedWidthBinary, List.length_cons, s.length_uuid]
  rfl

/-- Parse the fixed-width form; an unknown tag is rejected. -/
def parseServiceIDFixedWidthBinary (b : Bytes) : Option ServiceID :=
  match b with
  | [] => none
  | t :: uuid =>
    if h : uuid.length = uuidLen then
      if t = ServiceIDKind.aci.tag then some ⟨.aci, uuid, h⟩
      else if t = ServiceIDKind.pni.tag then some ⟨.pni, uuid, h⟩
      else none
    else none

lemma parse_fixedWidth (s : ServiceID) :
    parseServiceIDFixedWidthBinary s.serviceIDFixedWidthBinary = some s := by
  obtain ⟨kind, uuid, hlen⟩ := s
  cases kind with
  | aci => exact dif_pos hlen
  | pni => exact dif_pos hlen

end LibSignal.Address
