import Lineside.Vocabulary.Builtin
import Lineside.Vocabulary.Word
import Lineside.Script.Basic
import Lineside.Number.Binary
import Lineside.Track.Network
import Lineside.Script.Evaluation
import Lineside.Script.Validation
import Lineside.Text.Quoted
import Lineside.Json.Reader
import Lineside.Document.Resolution
import Lineside.Document.Writing
import Lineside.Yaml.Basic
import Lineside.Yaml.Scalar
import Lineside.Yaml.Block
import Lineside.Yaml.Token
import Lineside.Yaml.Reader
import Lineside.Document.OfYaml
import Lineside.Document.Draft
import Lineside.Document.OfJson
import Lineside.Files.Tree
import Lineside.Number.Integer
import Lineside.Number.Duration
import Lineside.Command.Flag
import Lineside.Document.Text
import Lineside.Track.Layout
import Lineside.Text.Utf8
import Lineside.Text.Url
import Lineside.Log.Sink
import Lineside.Log.Logger
import Lineside.Store.Digest
import Lineside.Store.Directory
import Lineside.Engine
import Lineside.Yaml.Writing
import Lineside.Config.Writing
import Lineside.Command.Basic
import Lineside.Main
import Lineside.Proofs.Attachment
import Lineside.Proofs.EvaluationLogic
import Lineside.Proofs.ValidatedRun
import Lineside.Proofs.JsonText
import Lineside.Proofs.DocumentText
import Lineside.Proofs.DocumentRoundTrip
import Lineside.Proofs.Outcomes
import Lineside.Proofs.StoredMeaning
import Lineside.Proofs.BackingTable
import Lineside.Proofs.StoreRefinement
import Lineside.Proofs.CacheQueue
import Lineside.Proofs.ScriptSteps
import Lineside.Proofs.DocumentRun
import Lineside.Proofs.HeadFrame
import Lineside.Proofs.HeadIndependence
import Lineside.Proofs.StoreFailSafe
import Lineside.Proofs.NetworkCoherence
import Lineside.Proofs.FiledStore
import Lineside.Proofs.ByteOrder
import Lineside.Proofs.DirectoryLoad
import Lineside.Proofs.ReturnReached
import Lineside.Proofs.RunPoints
import Lineside.Proofs.NestedBranches
import Lineside.Proofs.EngineTally
import Lineside.Proofs.RunComposition
import Lineside.Proofs.YamlQuotes
import Lineside.Proofs.YamlScalars
import Lineside.Proofs.YamlTokens
import Lineside.Proofs.YamlReading
import Lineside.Proofs.YamlDocument
import Lineside.Proofs.YamlWriting
import Lineside.Proofs.YamlBlocks
import Lineside.Proofs.YamlSheets
import Lineside.Proofs.FileWriting
import Lineside.Proofs.ConfigRoundTrip
import Lineside.Proofs.ReadersAgree
import Lineside.Proofs.TermLevels
import Lineside.Proofs.TermDescent
import Lineside.Proofs.GroupedArithmetic
import Lineside.Proofs.ConditionReading
import Lineside.Proofs.SignalsAhead
import Lineside.Proofs.TrainMovement
import Lineside.Proofs.BlockRelease
import Lineside.Proofs.ValidatorVerdict
import Lineside.Proofs.DocumentFaults
import Lineside.Proofs.DrawStates
import Lineside.Proofs.LayoutBuilding
import Lineside.Proofs.ApproachRequests
import Lineside.Proofs.Reevaluation
