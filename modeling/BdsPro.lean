import BdsPro.Library.Machine
import BdsPro.Library.Map
import BdsPro.Library.Window
import BdsPro.Library.Outbox
import BdsPro.Library.Flight
import BdsPro.Library.Table
import BdsPro.Library.Log
import BdsPro.Udp.Message
import BdsPro.Udp.Sender
import BdsPro.Udp.SenderLaws
import BdsPro.Udp.Receiver
import BdsPro.Udp.AutoSeqLaws
import BdsPro.Udp.ReceiverLaws
import BdsPro.Udp.ReceiveWindowLaws
import BdsPro.Udp.Channel
import BdsPro.Udp.ChannelLaws
import BdsPro.Udp.DeliveryLaws
import BdsPro.Udp.WindowReuseLaws
import BdsPro.Udp.SendMessage
import BdsPro.Udp.SendMessageLaws
import BdsPro.Udp.ReceiveMessage
import BdsPro.Udp.ReceiveMessageLaws
import BdsPro.Udp.Bin.Receiver
import BdsPro.Udp.Bin.ReceiverLaws
import BdsPro.Udp.Bin.ReceiverLog
import BdsPro.Udp.Bin.RequestLaws
import BdsPro.Udp.Bin.OrderLaws
import BdsPro.Udp.Bin.AttemptLedger
import BdsPro.Udp.Bin.AttemptLaws
import BdsPro.Udp.Bin.Exchange
import BdsPro.Udp.Bin.ExchangeLaws
import BdsPro.Udp.SenderProgressLaws
import BdsPro.Udp.Bin.ExchangeProgressLaws
import BdsPro.Udp.Bin.AutoSender
import BdsPro.Udp.Bin.AutoSenderLaws
import BdsPro.Library.FramedWrite
import BdsPro.Network.Protocol
import BdsPro.Network.ProtocolLaws
import BdsPro.Network.Sender.ChannelHandler
import BdsPro.Network.Sender.ChannelHandlerLaws
import BdsPro.Network.Sender.Channel
import BdsPro.Network.Sender.ChannelLaws
import BdsPro.Network.Receiver.ChannelHandler
import BdsPro.Network.DataConnection
import BdsPro.Network.Receiver.ChannelHandlerLaws
import BdsPro.Network.Receiver.AckLaws
import BdsPro.Network.Sender.DeliveryLaws
import BdsPro.Network.DataConnectionLaws
import BdsPro.Network.AgreementLaws
import BdsPro.Network.Receiver.Service
import BdsPro.Network.Receiver.ServiceLaws
import BdsPro.Network.Receiver.EstablishmentLaws
import BdsPro.Network.Receiver.RegistrationLaws
import BdsPro.Network.Receiver.OfferLaws
import BdsPro.Network.Receiver.RecoveryLaws
import BdsPro.Network.Receiver.BindingLaws
import BdsPro.Network.Receiver.Shutdown
import BdsPro.Network.Receiver.ShutdownLaws
import BdsPro.Network.Sender.EndingLaws
import BdsPro.Network.Sender.AckLedger
import BdsPro.Network.Sender.TrackingLaws
import BdsPro.Network.Sender.WindowLaws
import BdsPro.Network.Sender.LedgerLaws
import BdsPro.Network.Sender.BacklogLaws
import BdsPro.Network.Sender.FlushLedger
import BdsPro.Network.Sender.FlushLedgerLaws
import BdsPro.Network.Sender.IssueLaws
import BdsPro.Network.Sender.BackpressureLaws
import BdsPro.Network.Sender.ConnectionHandler
import BdsPro.Network.Sender.ConnectionHandlerLaws
import BdsPro.Network.Sender.GrantLaws
import BdsPro.Network.Sender.CallerLaws
import BdsPro.Network.Sender.NetworkService
import BdsPro.Network.Sender.ConnectionProgressLaws
import BdsPro.Network.Sender.NetworkServiceLaws
import BdsPro.Network.Sender.NetworkServiceProgressLaws
import BdsPro.Library.Progress
import BdsPro.Network.Sender.Progress
import BdsPro.Network.Sender.ProgressLaws
import BdsPro.Network.ChannelStream
import BdsPro.Network.ChannelStreamLaws
import BdsPro.Bridge.Network
import BdsPro.Bridge.NetworkLaws
import BdsPro.Library.Fifo
import BdsPro.Library.Segments
import BdsPro.Library.RefCount
import BdsPro.TestNode.Engine
import BdsPro.TestNode.EngineLaws
import BdsPro.TestNode.Ownership
import BdsPro.TestNode.OwnershipLaws
import BdsPro.TestNode.NetworkSink
import BdsPro.TestNode.NetworkSinkLaws
import BdsPro.Library.Checked
import BdsPro.Library.Ticker
import BdsPro.Library.FirstMissing
import BdsPro.TestNode.SequenceTracker
import BdsPro.TestNode.SequenceTrackerLaws
import BdsPro.TestNode.ClosureLaws
import BdsPro.TestNode.NetworkSource
import BdsPro.TestNode.EmissionLaws
import BdsPro.TestNode.Transfer
import BdsPro.TestNode.TransferLaws
import BdsPro.TestNode.Pipeline
import BdsPro.TestNode.PipelineLaws
import BdsPro.TestNode.TestRun
import BdsPro.TestNode.TestRunLaws
import BdsPro.TestNode.NetworkSourceLaws
import BdsPro.Library.Memory
import BdsPro.Library.Cursor
import BdsPro.TestNode.Generator
import BdsPro.TestNode.GeneratorLaws
import BdsPro.Bridge.TupleBufferBuilder
import BdsPro.Bridge.TupleBufferBuilderLaws
import BdsPro.TestNode.PrintSink
import BdsPro.TestNode.PrintSinkLaws
