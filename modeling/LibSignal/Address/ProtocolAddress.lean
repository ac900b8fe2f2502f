import Mathlib.Init

/-!
# Addresses

Model of the address of a client (`address/address.go`): the name of a user and a device id.
-/

namespace LibSignal.Address

structure DeviceID where
  id : UInt8
deriving DecidableEq, Repr

structure ProtocolAddress where
  name : String
  deviceID : DeviceID
deriving DecidableEq, Repr

end LibSignal.Address
