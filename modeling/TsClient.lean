import TsClient.Rust
import TsClient.Audio.Queue
import TsClient.Audio.Decode
import TsClient.Audio.Invariant
import TsClient.Audio.Output
import TsClient.Audio.Refill
import TsClient.Audio.Window
import TsClient.Audio.Handler
import TsClient.Audio.Talkers
import TsClient.Resend.PacketId
import TsClient.Resend.State
import TsClient.Resend.Fill
import TsClient.Resend.Ack
import TsClient.Resend.Poll
import TsClient.Resend.Schedule
import TsClient.Resend.AckOrder
import TsClient.Resend.Congestion
import TsClient.Resend.Transmit
import TsClient.Resend.Rtt
import TsClient.Resend.SendOrder
import TsClient.Ffigen.RustType
import TsClient.Ffigen.Grammar
import TsClient.Commands.Identity
import TsClient.Sync.Connection
import TsClient.Sync.Answers
