import LogMetrics.Base.Machine
import LogMetrics.Base.Search
import LogMetrics.Logger.Utility
import LogMetrics.MetricsApplication.Utility
import LogMetrics.Base.Window
import LogMetrics.MetricsApplication.MetricsCollector
import LogMetrics.MetricsApplication.CollectorExact
import LogMetrics.MetricsApplication.LastHour
import LogMetrics.Logger.Sink
import LogMetrics.Logger.SocketSink
import LogMetrics.Logger.ConcurrentLog
import LogMetrics.Base.Segment
import LogMetrics.MetricsApplication.MessageProcessor
import LogMetrics.MetricsApplication.SocketServer
import LogMetrics.Framing
import LogMetrics.MetricsApplication.CountTrigger
import LogMetrics.MetricsApplication.PrintedTotals
import LogMetrics.MetricsApplication.CallbackOutput
import LogMetrics.Base.Lines
import LogMetrics.TestApplication.CommandParser
import LogMetrics.TestApplication.TestApplication
import LogMetrics.TestApplication.Delivery
import LogMetrics.MetricsApplication.LastPrintTime
import LogMetrics.TestApplication.QueueThreads
import LogMetrics.Logger.LevelName
import LogMetrics.MetricsApplication.RecordShape
import LogMetrics.Base.Strip
import LogMetrics.TestApplication.CommandGrammar
import LogMetrics.TypedMessage
import LogMetrics.Logger.SinkRuns
import LogMetrics.TestApplication.ArgumentParser
import LogMetrics.Stoi
import LogMetrics.MetricsApplication.Main
import LogMetrics.NumericArguments
import LogMetrics.Base.Resource
import LogMetrics.MetricsApplication.ServerLife
import LogMetrics.Decimal
import LogMetrics.Logger.Timestamp
import LogMetrics.Base.Logged
import LogMetrics.Cctype
import LogMetrics.CharacterDomain
import LogMetrics.Base.Progress
import LogMetrics.TestApplication.Termination
import LogMetrics.Base.Linearizable
import LogMetrics.Logger.LoggerThreads
import LogMetrics.Logger.FileContents
import LogMetrics.Logger.SocketSinkLife
import LogMetrics.MetricsApplication.MetricsApplication
import LogMetrics.MetricsApplication.ApplicationLife
import LogMetrics.MetricsApplication.ApplicationData
import LogMetrics.MetricsApplication.ApplicationThreads
import LogMetrics.Base.Occurrences
import LogMetrics.CountedRecords
import LogMetrics.EndToEnd
import LogMetrics.TestApplication.Main
import LogMetrics.TypedEntries
import LogMetrics.MetricsApplication.StatsText
import LogMetrics.MetricsApplication.ShownStats
import LogMetrics.TestApplication.Console
import LogMetrics.MetricsApplication.Silence
