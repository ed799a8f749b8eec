import MocksySql.OptionalMetadata
import MocksySql.TableKey
import MocksySql.PacketParsing
import MocksySql.CommandParsing
import MocksySql.Lib.Numerals
import MocksySql.NumericOrder
import MocksySql.Transparency
import MocksySql.ConnectionHandler
import MocksySql.ConnectionInvariant
import MocksySql.AuthGate
import MocksySql.ResultSetRuns
import MocksySql.LegacyEof
import MocksySql.Intercept
import MocksySql.KafkaLog
import MocksySql.DiffLogRace
import MocksySql.ReadYourWrites
import MocksySql.DirectionSeparation
import MocksySql.RowRewriting
import MocksySql.Segmentation
import MocksySql.AuthExchange
import MocksySql.Replay
import MocksySql.InsertIds
import MocksySql.UpdateRecording
import MocksySql.MultiResult
import MocksySql.RowFrame
import MocksySql.EvaluatorLogic
import MocksySql.SqlTruth
import MocksySql.EvaluatorSafety
import MocksySql.Literals
import MocksySql.ConsumeTermination
import MocksySql.SequenceNumbers
import MocksySql.PrepareResponse
import MocksySql.ExecuteResponse
import MocksySql.OutgoingFrames
import MocksySql.LengthEncoding
import MocksySql.HandshakeParsing
import MocksySql.ChunkedReplay
import MocksySql.PreparedStatements
import MocksySql.Session
import MocksySql.TlsSafety
import MocksySql.ReplayProvenance
import MocksySql.Isolation
import MocksySql.RecordReplay
import MocksySql.ProcessReads
import MocksySql.WriteSessions
import MocksySql.CacheTtl
import MocksySql.TlsSession
import MocksySql.ReplaySessions
