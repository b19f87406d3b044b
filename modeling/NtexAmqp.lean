import NtexAmqp.Basic
import NtexAmqp.SenderLink
import NtexAmqp.SenderRuns
import NtexAmqp.ReceiverLink
import NtexAmqp.ReceiverRuns
import NtexAmqp.LinkPair
import NtexAmqp.Heartbeat
import NtexAmqp.LinkProgress
import NtexAmqp.ServerHandshake
