import Yolanda.App.Buffer
import Yolanda.App.BufferInvariant
import Yolanda.App.HttpParser
import Yolanda.App.ParserStep
import Yolanda.App.RoundTrip
import Yolanda.App.ParserProgress
import Yolanda.App.Channel
import Yolanda.App.HttpResponse
import Yolanda.Foundation.Run
import Yolanda.App.HttpServer
import Yolanda.App.ConnectionStep
import Yolanda.App.OutputStream
import Yolanda.App.HttpStep
import Yolanda.App.HalfClose
import Yolanda.App.Pipelining
import Yolanda.App.Confinement
import Yolanda.App.EventLoop
import Yolanda.App.RegistryStep
import Yolanda.App.Registration
import Yolanda.App.WriteInterest
import Yolanda.App.SharedLoop
import Yolanda.App.PendingOrder
import Yolanda.App.RunningLoop
import Yolanda.App.Grammar
import Yolanda.App.Rot13Echo
import Yolanda.Foundation.Lines
import Yolanda.App.Framing
import Yolanda.App.Handover
import Yolanda.Foundation.SlotTable
import Yolanda.Lib.ChannelMap
import Yolanda.Lib.EventLoop
import Yolanda.Lib.PollDispatcher
import Yolanda.Lib.PollStep
import Yolanda.Lib.Dispatch
import Yolanda.Lib.Activation
import Yolanda.Lib.EntryFilled
import Yolanda.Lib.RoundStep
import Yolanda.Lib.Interchange
import Yolanda.App.Server
import Yolanda.App.ServerInvariant
import Yolanda.App.ServerStep
import Yolanda.App.Descriptors
import Yolanda.App.LifeCycle
import Yolanda.App.ServerLoop
import Yolanda.App.RequestLine
import Yolanda.App.ByteQueue
import Yolanda.Lib.Buffer
import Yolanda.Lib.ByteQueue
import Yolanda.App.QueuedInterest
import Yolanda.Lib.SendPath
import Yolanda.Foundation.Mirror
import Yolanda.App.ChannelLoop
import Yolanda.Lib.TableMirror
import Yolanda.App.CallbackDelivery
import Yolanda.Foundation.Reader
import Yolanda.App.ResponseReader
import Yolanda.Lib.KeepAlive
import Yolanda.Foundation.Ring
import Yolanda.Chapters.BlockQueue
import Yolanda.Lib.TableRefinement
import Yolanda.Foundation.RoundRobin
import Yolanda.App.LoopPool
import Yolanda.Lib.LoopPool
import Yolanda.App.Acceptance
import Yolanda.App.ReadFailure
import Yolanda.Lib.ReadFailure
import Yolanda.Foundation.Cells
import Yolanda.Lib.HttpParser
import Yolanda.Lib.ParserStep
import Yolanda.Lib.ParserSafety
import Yolanda.Lib.StatusLine
import Yolanda.Lib.HeaderTable
import Yolanda.Lib.HeaderLookup
import Yolanda.Lib.HttpResponse
import Yolanda.Lib.Encoders
import Yolanda.Lib.MapSpace
import Yolanda.Foundation.Pieces
import Yolanda.Lib.FrameReader
import Yolanda.Lib.FrameStream
import Yolanda.Lib.LineReader
import Yolanda.Lib.LineEndings
import Yolanda.Chapters.StreamServer
import Yolanda.Lib.PollScan
import Yolanda.Chapters.EpollPass
import Yolanda.Chapters.SelectServer
import Yolanda.Chapters.QueueThreads
import Yolanda.Lib.ThreadStart
import Yolanda.Chapters.ForkServer
import Yolanda.App.Conversation
import Yolanda.Lib.ParserAgreement
import Yolanda.Chapters.Heartbeat
import Yolanda.Chapters.PollServer
import Yolanda.Lib.HttpServer
import Yolanda.Lib.Conversation
import Yolanda.Chapters.GracefulClose
import Yolanda.Lib.HttpSite
