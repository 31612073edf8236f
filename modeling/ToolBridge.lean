import ToolBridge.Main
import ToolBridge.Proofs.LiveAccess
import ToolBridge.Proofs.StreamFailure
import ToolBridge.Proofs.StreamIsolation
import ToolBridge.Proofs.StreamOrder
import ToolBridge.Proofs.StreamQueries
import ToolBridge.Proofs.StreamEvents
import ToolBridge.Proofs.Chunking
import ToolBridge.Proofs.Pipelining
import ToolBridge.Proofs.QueueOrder
import ToolBridge.Proofs.Answers
import ToolBridge.Proofs.LateRequests
import ToolBridge.Proofs.StreamHousing
import ToolBridge.Proofs.StreamNotices
import ToolBridge.Proofs.SessionNotices
import ToolBridge.Proofs.StreamedReplies
import ToolBridge.Proofs.ConnectionAnswers
import ToolBridge.Proofs.PlainHeaders
import ToolBridge.Proofs.IntactReplies
import ToolBridge.Proofs.WrittenResponses
import ToolBridge.Proofs.JsonTokens
import ToolBridge.Proofs.WrittenJson
import ToolBridge.Proofs.WrittenFrames
import ToolBridge.Proofs.ReadResponses
import ToolBridge.Proofs.HubLaws
import ToolBridge.Proofs.ServerTurns
import ToolBridge.Proofs.ServerDeeds
import ToolBridge.Proofs.WindingDown
import ToolBridge.Proofs.LifeCycle
import ToolBridge.Proofs.TextBoundaries
import ToolBridge.Proofs.ReadJson
import ToolBridge.Proofs.UnknownSessions
import ToolBridge.Proofs.HubContents
import ToolBridge.Proofs.ServerInvariants
import ToolBridge.Proofs.MintedSessions
import ToolBridge.Proofs.PercentEscapes
import ToolBridge.Proofs.AnnouncedEndpoints
import ToolBridge.Proofs.PublishedTools
import ToolBridge.Proofs.StreamBlocks
import ToolBridge.Proofs.WrittenQueries
import ToolBridge.Proofs.TakenHeads
import ToolBridge.Proofs.TakenBodies
import ToolBridge.Proofs.TakenRequests
import ToolBridge.Proofs.ReaderLimits
import ToolBridge.Proofs.AccessKeys
import ToolBridge.Proofs.SessionHistory
import ToolBridge.Proofs.SessionSweeps
import ToolBridge.Proofs.TickBatches
import ToolBridge.Proofs.MergedHeaders
import ToolBridge.Proofs.DescribedInstants
import ToolBridge.Proofs.SavedConfigs
import ToolBridge.Proofs.ConfigLayers
