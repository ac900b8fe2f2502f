import LibSignal.Crypto.Aes
import LibSignal.Lib.ProtoWire

/-!
# Username links

Model of the link functions of `usernames/usernames.go`.
-/

namespace LibSignal.Usernames
open Chunked (Bytes)
open Crypto Lib Lib.ProtoWire

section
variable [Hash]

variable [Aes]

end

/-! ## Encoding and decoding the plaintext -/

variable {username : Bytes}

section
variable [Hash] [Aes]

end

end LibSignal.Usernames
