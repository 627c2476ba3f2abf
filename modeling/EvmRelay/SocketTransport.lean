import Mathlib.Data.List.Basic

namespace EvmRelay.Rlpx

inductive SessionError where
  | kNetworkFailure | kAuthenticationFailed | kHandshakeFailed | kInvalidState | kPeerDisconnected | kTimeout
  | kCompressionError | kEncryptionError | kDecryptionError | kInvalidMessage | kInvalidFrameSize | kBufferOverflow
  | kConnectionFailed | kNotConnected | kDisconnected
  deriving DecidableEq

-- A connection: what has been written to it, what it will still deliver before
-- it ends, and whether it refuses to write.
structure SocketTransport where
  sent : List UInt8
  incoming : List UInt8
  writeError : Option SessionError
  deriving DecidableEq

namespace SocketTransport

def writeAll (transport : SocketTransport) (data : List UInt8) : Except SessionError Unit × SocketTransport :=
  match transport.writeError with
  | some error => (.error error,transport)
  | none => (.ok (),{ transport with sent := transport.sent ++ data })

def readExact (transport : SocketTransport) (numBytes : Nat) : Except SessionError (List UInt8) × SocketTransport :=
  if transport.incoming.length < numBytes then (.error .kConnectionFailed,transport)
  else (.ok (transport.incoming.take numBytes),{ transport with incoming := transport.incoming.drop numBytes })

variable {transport : SocketTransport}

theorem writeAll_incoming (wrote : transport.writeAll data = (outcome,after)) : after.incoming = transport.incoming := by
  unfold writeAll at wrote
  split at wrote
  · cases wrote
    rfl
  · cases wrote
    rfl

theorem writeAll_ok (wrote : transport.writeAll data = (.ok done,after)) : after.sent = transport.sent ++ data := by
  unfold writeAll at wrote
  split at wrote
  · cases wrote
  · cases wrote
    rfl

theorem writeAll_error (wrote : transport.writeAll data = (.error error,after)) : after.sent = transport.sent := by
  unfold writeAll at wrote
  split at wrote
  · cases wrote
    rfl
  · cases wrote

theorem readExact_sent (transport : SocketTransport) (numBytes : Nat) :
    (transport.readExact numBytes).2.sent = transport.sent := by
  unfold readExact
  split <;> rfl

theorem readExact_front (sized : front.length = numBytes) (incoming : transport.incoming = front ++ back) :
    transport.readExact numBytes = (.ok front,{ transport with incoming := back }) := by
  subst sized
  simp [readExact,incoming]

theorem readExact_ok (read : transport.readExact numBytes = (.ok data,after)) :
    data.length = numBytes ∧ transport.incoming = data ++ after.incoming := by
  rw [readExact] at read
  split_ifs at read with enough
  · simp at read
  · obtain ⟨rfl,rfl⟩ := read
    exact ⟨List.length_take_of_le (Nat.not_lt.mp enough),(List.take_append_drop ..).symm⟩

end SocketTransport
end EvmRelay.Rlpx
