import NtexAmqp.Basic

namespace NtexAmqp

/-- `ProtocolId`, the header an AMQP connection opens with. -/
inductive ProtocolId
  | amqp
  | amqpTls
  | amqpSasl
  deriving DecidableEq, Repr

/-- The `ProtocolIdError`s the handshake builds itself. -/
inductive ProtocolIdError
  | unexpected (exp got : ProtocolId)
  | disconnected
  deriving DecidableEq, Repr

/-- A frame body as `open_connection` tells them apart: an `Open`, or any other performative. -/
inductive Frame (Op Fr : Type)
  | «open» (o : Op)
  | other (f : Fr)
  deriving DecidableEq, Repr

/-- `HandshakeError`; `transport` is `HandshakeError::from` of what a codec or the socket
reported. -/
inductive HandshakeError (Op Fr ξ : Type)
  | protocolId (e : ProtocolIdError)
  | unexpected (frame : Frame Op Fr)
  | disconnected
  | service
  | transport (e : ξ)
  deriving DecidableEq, Repr

namespace ServerService

/-- Where `ServerService::call` stands, in the order its futures run. -/
inductive Phase (Op Fr ξ : Type)
  | readHeader
  | sendAmqp
  | sendSasl
  | sasl
  | handshake
  | handshakeSend
  | openConnection (sasl : Bool)
  | sendOpen (sasl : Bool) (remote : Op)
  | factory (remote : Op)
  | dispatch (remote : Op)
  | failed (e : HandshakeError Op Fr ξ)
  deriving DecidableEq, Repr

/-- What resolves next: a read on `ProtocolIdCodec` or on `AmqpCodec` (`none` at the end of the
stream; a frame with its channel), a send, `Sasl::new`, or `factory.call(None)`. -/
inductive Input (Op Fr ξ : Type)
  | header (r : Except ξ (Option ProtocolId))
  | frame (r : Except ξ (Option (ℕ × Frame Op Fr)))
  | sent (r : Except ξ Unit)
  | sasl (r : Except (HandshakeError Op Fr ξ) Unit)
  | service (ok : Bool)
  deriving Repr

/-- What the server writes: a protocol header, or a frame on a channel. -/
inductive Write (Op Fr : Type)
  | header (id : ProtocolId)
  | frame (channel : ℕ) (body : Frame Op Fr)
  deriving DecidableEq, Repr

variable {Op Fr ξ : Type}

/-- A finished send goes on to `next`; a failed one ends the handshake with its error. -/
def afterSend (r : Except ξ Unit) (next : Phase Op Fr ξ) : Phase Op Fr ξ :=
  match r with
  | .ok () => next
  | .error e => .failed (.transport e)

/-- One resolved future of `call`, `handshake` and `open_connection`; `localOpen` is
`cfg.to_open(None)`. Reads of the wrong kind for a phase cannot happen and give `none`. -/
def step (localOpen : Op) :
    Phase Op Fr ξ → Input Op Fr ξ → Option (Phase Op Fr ξ × List (Write Op Fr))
  | .readHeader, .header (.ok (some .amqp)) => some (.sendAmqp, [.header .amqp])
  | .readHeader, .header (.ok (some .amqpSasl)) => some (.sendSasl, [.header .amqpSasl])
  | .readHeader, .header (.ok (some .amqpTls)) =>
    some (.failed (.protocolId (.unexpected .amqp .amqpTls)), [])
  | .readHeader, .header (.ok none) => some (.failed .disconnected, [])
  | .readHeader, .header (.error e) => some (.failed (.transport e), [])
  | .sendAmqp, .sent r => some (afterSend r (.openConnection false), [])
  | .sendSasl, .sent r => some (afterSend r .sasl, [])
  | .sasl, .sasl (.ok ()) => some (.handshake, [])
  | .sasl, .sasl (.error e) => some (.failed e, [])
  | .handshake, .header (.ok (some p)) =>
    if p = .amqp then some (.handshakeSend, [.header .amqp])
    else some (.failed (.protocolId (.unexpected .amqp p)), [])
  | .handshake, .header (.ok none) => some (.failed (.protocolId .disconnected), [])
  | .handshake, .header (.error e) => some (.failed (.transport e), [])
  | .handshakeSend, .sent r => some (afterSend r (.openConnection true), [])
  | .openConnection s, .frame (.ok (some (_, .open o))) =>
    some (.sendOpen s o, [.frame 0 (.open localOpen)])
  | .openConnection _, .frame (.ok (some (_, f))) => some (.failed (.unexpected f), [])
  | .openConnection _, .frame (.ok none) => some (.failed .disconnected, [])
  | .openConnection _, .frame (.error e) => some (.failed (.transport e), [])
  | .sendOpen s o, .sent r => some (afterSend r (if s then .dispatch o else .factory o), [])
  | .factory o, .service ok => some (if ok then .dispatch o else .failed .service, [])
  | _, _ => none

def run (localOpen : Op) : Phase Op Fr ξ → List (Input Op Fr ξ) →
    Option (Phase Op Fr ξ × List (Write Op Fr)) :=
  runSteps (step localOpen)

variable {lo r : Op} {ph : Phase Op Fr ξ} {reads : List (Input Op Fr ξ)} {w : List (Write Op Fr)}

end ServerService

end NtexAmqp
