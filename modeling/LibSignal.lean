import LibSignal.Chunked.Survival
import LibSignal.Chunked.FieldLaws
import LibSignal.Crypto.Polyval
import LibSignal.Crypto.CtrStream
import LibSignal.Crypto.Padding
import LibSignal.Curve.XEdDSA
import LibSignal.Spqr.KeyAgreement
import LibSignal.Spqr.KeyBound
import LibSignal.Spqr.WrapAround
import LibSignal.Spqr.OutOfRange
import LibSignal.Spqr.Live
import LibSignal.Spqr.Framing
import LibSignal.SealedSender.Sent
import LibSignal.SealedSender.Validation
import LibSignal.Groups.Record
import LibSignal.Protocol.Parsing
import LibSignal.Session.Invariant
import LibSignal.Session.OneSession
import LibSignal.Session.SendOnce
import LibSignal.Session.FirstMessage
import LibSignal.Session.Jumps
import LibSignal.Usernames.Candidates
import LibSignal.Usernames.Link
import LibSignal.AccountKeys.MfaMetadata
import LibSignal.Address.Encodings
import LibSignal.Fingerprint.SafetyNumber
import LibSignal.Mlkem.Correctness
