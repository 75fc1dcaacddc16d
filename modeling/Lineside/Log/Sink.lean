import Lineside.Files.Tree
import Lineside.Log
import Lineside.Text.Url

/-!
Where log lines go: to the standard output, to the standard error output, or to a file that is named by a
path or by a URL.
-/

namespace Lineside

inductive Sink where
  | output
  | errorOutput
  | file (path : String)
  deriving DecidableEq, Repr

inductive SinkProblem where
  | notUrl (text : String) (reason : UrlError)
  | unknownScheme (scheme : String)
  | hasUser (url : Url)
  | hasFragment (url : Url)
  | hasQuery (url : Url)
  | hasPort (url : Url)
  | hasHost (url : Url)
  | path (reason : PathError)
  deriving DecidableEq, Repr

namespace SinkProblem

def message : SinkProblem → String
  | .notUrl text reason => "can't parse " ++ Text.quoted text ++ " as a URL: " ++ reason.message
  | .unknownScheme scheme => "no sink found for scheme " ++ Text.quoted scheme
  | .hasUser url => "user and password not allowed with file URLs: got " ++ url.text
  | .hasFragment url => "fragments not allowed with file URLs: got " ++ url.text
  | .hasQuery url => "query parameters not allowed with file URLs: got " ++ url.text
  | .hasPort url => "ports not allowed with file URLs: got " ++ url.text
  | .hasHost url => "file URLs must leave host empty or use localhost: got " ++ url.text
  | .path reason => reason.message

end SinkProblem

structure SinkError where
  name : String
  problem : SinkProblem
  deriving DecidableEq, Repr

namespace SinkError

def message (error : SinkError) : String :=
  "open sink " ++ Text.quoted error.name ++ ": " ++ error.problem.message

end SinkError

namespace Sink

def atPath (path : String) : Sink :=
  if path = "stdout" then .output else if path = "stderr" then .errorOutput else .file path

/-- The sink of a URL, of which only the path may say anything. -/
def ofFileUrl (url : Url) : Except SinkProblem Sink :=
  let (host, port) := url.hostAndPort
  if url.user ≠ none then .error (.hasUser url)
  else if url.fragment ≠ [] then .error (.hasFragment url)
  else if url.query ≠ [] then .error (.hasQuery url)
  else if port ≠ [] then .error (.hasPort url)
  else if host ≠ [] ∧ host ≠ "localhost".toUTF8.toList then .error (.hasHost url)
  else .ok (atPath (Text.ofBytes (ByteArray.mk url.path.toArray)))

/-- The sink of a name: an absolute path, or a URL that is one of a file unless its scheme says
otherwise. -/
def ofName (name : String) : Except SinkProblem Sink :=
  if name.toList.head? = some '/' then .ok (atPath name)
  else match Url.parse name with
    | .error reason => .error (.notUrl name reason)
    | .ok url =>
      if url.scheme = "" ∨ url.scheme = "file" then ofFileUrl { url with scheme := "file" }
      else .error (.unknownScheme url.scheme)

def openIn (tree : FileTree) (name : String) : Except SinkProblem (Sink × FileTree) := do
  match ← ofName name with
  | .file path =>
    match tree.append path "" with
    | .ok tree => return (.file path, tree)
    | .error reason => .error (.path reason)
  | sink => return (sink, tree)

/-- Opens sinks one after the other, and tells of all that cannot be opened. -/
def openAll (tree : FileTree) (names : List String) : List SinkError × List Sink × FileTree :=
  names.foldl (fun (errors, sinks, tree) name =>
    match openIn tree name with
    | .ok (sink, tree) => (errors, sinks ++ [sink], tree)
    | .error problem => (errors ++ [⟨name, problem⟩], sinks, tree)) ([], [], tree)

end Sink

end Lineside
