import HomeHub.Entry.Basic

/-!
# Forms and results of config flows

A step of a flow shows a form, produces the data of a new entry, or aborts.
-/

namespace HomeHub.Flow

/-- The step that a flow waits on. -/
inductive Step where
  | user
  | discoveryConfirm
  | authenticate
  deriving DecidableEq, Repr, Inhabited

def Step.text : Step → String
  | .user => "user"
  | .discoveryConfirm => "discovery_confirm"
  | .authenticate => "authenticate"

/-- An error shown on a form. -/
inductive FormError where
  /-- The host name leads to no address. -/
  | resolveError
  /-- The node was not reached for any other reason. -/
  | connectionError
  /-- The password was refused. -/
  | invalidAuth
  deriving DecidableEq, Repr, Inhabited

def FormError.text : FormError → String
  | .resolveError => "resolve_error"
  | .connectionError => "connection_error"
  | .invalidAuth => "invalid_auth"

inductive AbortReason where
  | alreadyConfigured
  | alreadyInProgress
  deriving DecidableEq, Repr, Inhabited

def AbortReason.text : AbortReason → String
  | .alreadyConfigured => "already_configured"
  | .alreadyInProgress => "already_in_progress"

/-- A form by its step: which error it shows, and what it is filled in with. -/
inductive Form where
  | user (host : Option String) (port : UInt16) (error : Option FormError)
  | discoveryConfirm (name : Option String)
  | authenticate (name : Option String) (error : Option FormError)
  deriving DecidableEq, Repr, Inhabited

namespace Form

def step : Form → Step
  | .user .. => .user
  | .discoveryConfirm .. => .discoveryConfirm
  | .authenticate .. => .authenticate

def error? : Form → Option FormError
  | .user _ _ error => error
  | .discoveryConfirm _ => none
  | .authenticate _ error => error

/-- One input of the form, as shown to a front end. -/
def fieldJson (name kind : String) (required : Bool) (preset : Option Json) : Json :=
  .record ([("name", .str name), ("kind", .str kind), ("required", .bool required)] ++
    match preset with
    | some j => [("default", j)]
    | none => [])

def fieldsJson : Form → List Json
  | .user host port _ =>
    [fieldJson "host" "string" true (host.map .str),
      fieldJson "port" "integer" false (some (.nat port.toNat))]
  | .discoveryConfirm _ => []
  | .authenticate .. => [fieldJson "password" "password" true none]

/-- What the description of the form refers to. -/
def placeholdersJson : Form → Json
  | .discoveryConfirm (some name) | .authenticate (some name) _ => .obj [("name", .str name)]
  | _ => .obj []

def errorsJson (f : Form) : Json :=
  match f.error? with
  | some e => .obj [("base", .str e.text)]
  | none => .obj []

def members (f : Form) : List (String × Json) :=
  [("step_id", .str f.step.text), ("data_schema", .arr f.fieldsJson), ("errors", f.errorsJson),
    ("description_placeholders", f.placeholdersJson)]

end Form

/-- The data of the entry that a finished flow produces. -/
structure NewEntry where
  title : String
  data : EntryData
  uniqueId : Option String
  source : Source
  deriving DecidableEq, Repr, Inhabited

namespace NewEntry

def build (n : NewEntry) (fresh : Uuid) (now : Timestamp) : Except Invalid Entry :=
  Entry.Draft.build {
    domain := nativeApiDomain
    title := n.title
    uniqueId := n.uniqueId
    source := n.source
    data := some n.data.toJson } fresh now

def members (n : NewEntry) : List (String × Json) :=
  [("title", .str n.title), ("data", n.data.toJson), ("unique_id", .ofOption .str n.uniqueId),
    ("source", .str n.source.text)]

end NewEntry

/-- The outcome of a step. -/
inductive Result where
  | form (f : Form)
  | createEntry (n : NewEntry)
  | abort (reason : AbortReason)
  deriving DecidableEq, Repr, Inhabited

namespace Result

def toJson : Result → Json
  | .form f => .record (("type", .str "form") :: f.members)
  | .createEntry n => .record (("type", .str "create_entry") :: n.members)
  | .abort reason => .record [("type", .str "abort"), ("reason", .str reason.text)]

instance : ToJson Result := ⟨toJson⟩

def step? : Result → Option Step
  | .form f => some f.step
  | _ => none

def error? : Result → Option FormError
  | .form f => f.error?
  | _ => none

def isFinished : Result → Bool
  | .form _ => false
  | _ => true

end Result

end HomeHub.Flow
