import ReplicaLag.Deployment.Codec
import ReplicaLag.Toml.Document

/-!
Deployments out of TOML text. A text that cannot be read, a shape that is not that of a deployment
and a deployment with a flaw are told apart.
-/

namespace ReplicaLag

inductive LoadError where
  | missingFile (path : String)
  | unreadable
  | flawed (flaw : Flaw)
  deriving DecidableEq, Repr

namespace LoadError

def kind : LoadError → String
  | missingFile _ => "Io"
  | unreadable => "Parse"
  | flawed _ => "Invalid"

def message : LoadError → String
  | missingFile path =>
    "Failed to read config file '" ++ path ++ "': No such file or directory (os error 2)"
  | unreadable => "Invalid config"
  | flawed f => "Invalid config: " ++ f.text

end LoadError

namespace Deployment

def checked (d : Deployment) : Except LoadError Deployment :=
  match d.flaw? with
  | some f => .error (.flawed f)
  | none => .ok d

/-- The deployment that a TOML text describes. In TOML an array that stands for a record may be
longer than the record. -/
def ofToml (text : String) : Except LoadError Deployment :=
  match (Toml.read? text).bind (ofJson? .leading) with
  | some d => d.checked
  | none => .error .unreadable

end Deployment

end ReplicaLag
