import Lineside.Command.Flag
import Lineside.Document.Resolution
import Lineside.Files.Tree
import Lineside.Log.Sink
import Lineside.Number.Duration
import Lineside.Script.Validation
import Lineside.Track.Network

/-!
Errors: a cause, and the activities during which it arose, outermost first. The message is built from
both, and nothing else decides on the wording.
-/

namespace Lineside

inductive Activity where
  | readingScript (path : String)
  | parsingScript (path : String)
  | listingScripts (directory : String)
  | openingStore
  | startingBatch
  | storingScript (kind : Name)
  | storingDigest (kind : Name)
  | deletingScript (kind : Name)
  | deletingDigest (kind : Name)
  | committing (kind : Name)
  | fetchingScript (kind : Name)
  | fetchingDigest (kind : Name)
  | decodingScript (kind : Name)
  | iteratingScripts
  | watching (directory : String)
  | readingLayout (path : String)
  | parsingLayout (path : String)
  | buildingLayout (path : String)
  | placingSignal (id : String)
  | placingHead (number : Int64)
  | placingTrain
  | readingConfig
  | parsingConfig
  | creatingConfigDirectory
  | writingConfig
  | checkingTickInterval (text : String)
  | checkingCacheLifetime (text : String)
  | loadingScripts
  | creatingLogger
  deriving DecidableEq, Repr

namespace Activity

def text : Activity → String
  | .readingScript path => "failed to read " ++ path
  | .parsingScript path => "failed to parse " ++ path
  | .listingScripts directory => "failed to read script directory " ++ directory
  | .openingStore => "failed to open script realm"
  | .startingBatch => "failed to create batch"
  | .storingScript kind => "failed to store script " ++ kind.text
  | .storingDigest kind => "failed to store checksum of script " ++ kind.text
  | .deletingScript kind => "failed to delete script " ++ kind.text
  | .deletingDigest kind => "failed to delete checksum of script " ++ kind.text
  | .committing kind => "failed to commit script " ++ kind.text
  | .fetchingScript kind => "failed to read script " ++ kind.text
  | .fetchingDigest kind => "failed to read checksum of script " ++ kind.text
  | .decodingScript kind => "failed to decode script " ++ kind.text
  | .iteratingScripts => "failed to iterate scripts"
  | .watching directory => "failed to watch " ++ directory
  | .readingLayout path => "failed to read layout " ++ path
  | .parsingLayout path => "failed to parse layout " ++ path
  | .buildingLayout path => "invalid layout " ++ path
  | .placingSignal id => "signal " ++ id
  | .placingHead number => "head " ++ number.toInt.repr
  | .placingTrain => "train"
  | .readingConfig => "failed to read config"
  | .parsingConfig => "failed to parse config"
  | .creatingConfigDirectory => "failed to create config directory"
  | .writingConfig => "failed to write config"
  | .checkingTickInterval text => "invalid tick interval " ++ Text.quoted text
  | .checkingCacheLifetime text => "invalid cache ttl " ++ Text.quoted text
  | .loadingScripts => "failed to load scripts"
  | .creatingLogger => "failed to create logger"

end Activity

inductive Link where
  | next
  | opposite
  deriving DecidableEq, Repr

namespace Link

def name : Link → String
  | .next => "next"
  | .opposite => "opposite"

end Link

inductive Cause where
  | malformedYaml
  | unfitYaml
  | malformedBlob
  | incomplete (fault : Fault)
  | invalidScript (reason : InvalidScript)
  | misfit (script : Name) (reason : Document.Misfit)
  | namelessScript
  | unknownName (name : String)
  | missingId
  | missingKind
  | danglingLink (signal : String) (link : Link) (other : String)
  | network (reason : NetworkError)
  | scriptNotFound (kind : Name)
  | digestMismatch (kind : Name)
  | storeClosed
  | storeFault
  | path (reason : PathError)
  | unwatchable (problem : PathProblem)
  | negativeTicks (ticks : Int64)
  | duration (reason : DurationError)
  | unknownLevel (level : String)
  | noBindAddress
  | unknownEncoding (name : String)
  | sinks (reasons : List SinkError)
  | canceled
  | writeFailed
  | invalidScripts (names : List String)
  | flag (reason : FlagError)
  | unknownCommand (program name : String) (suggestions : List String)
  deriving DecidableEq, Repr

namespace Cause

def suggestionText : List String → String
  | [] => ""
  | names => "\n\nDid you mean this?\n" ++ String.join (names.map fun name => "\t" ++ name ++ "\n")

def message : Cause → String
  | .malformedYaml => "yaml: malformed document"
  | .unfitYaml => "yaml: unfit value"
  | .malformedBlob => "malformed script"
  | .incomplete _ => "incomplete script"
  | .invalidScript reason => reason.message
  | .misfit script reason =>
    ": ".intercalate (("script " ++ script.text) :: reason.path.map (·.text) ++ [reason.defect.message])
  | .namelessScript => "script document without name"
  | .unknownName name => "unknown identifier: " ++ name
  | .missingId => "missing id"
  | .missingKind => "missing signal type"
  | .danglingLink signal link other => signal ++ ": " ++ link.name ++ " " ++ other ++ ": unknown signal"
  | .network reason => reason.message
  | .scriptNotFound kind => kind.text ++ ": signal script not found"
  | .digestMismatch kind => kind.text ++ ": script checksum mismatch"
  | .storeClosed => "trying to access closed kvstore"
  | .storeFault => "fault"
  | .path reason => reason.message
  | .unwatchable problem => problem.message
  | .negativeTicks ticks => "negative tick count: " ++ ticks.toInt.repr
  | .duration reason => reason.message
  | .unknownLevel level => "invalid log level: " ++ level
  | .noBindAddress => "metrics enabled without bind address"
  | .unknownEncoding name => "no encoder registered for name " ++ Text.quoted name
  | .sinks reasons => "; ".intercalate (reasons.map SinkError.message)
  | .canceled => "context canceled"
  | .writeFailed => "write failed"
  | .invalidScripts names => names.length.repr ++ " invalid scripts: " ++ ", ".intercalate names
  | .flag reason => reason.message
  | .unknownCommand program name suggestions =>
    "unknown command " ++ Text.quoted name ++ " for " ++ Text.quoted program ++ suggestionText suggestions

end Cause

structure Error where
  activities : List Activity := []
  cause : Cause
  deriving DecidableEq, Repr

namespace Error

def context (error : Error) : String := ": ".intercalate (error.activities.map Activity.text)

def message (error : Error) : String :=
  ": ".intercalate (error.activities.map Activity.text ++ [error.cause.message])

end Error

abbrev Outcome := Except Error

namespace Outcome

def fail (cause : Cause) : Outcome α := .error { cause }

/-- Notes the activity during which something goes wrong. -/
def during (activity : Activity) : Outcome α → Outcome α
  | .ok value => .ok value
  | .error error => .error { error with activities := activity :: error.activities }

def because (cause : ε → Cause) : Except ε α → Outcome α
  | .ok value => .ok value
  | .error reason => fail (cause reason)

def require (cause : Cause) : Option α → Outcome α
  | some value => .ok value
  | none => fail cause

end Outcome

end Lineside
