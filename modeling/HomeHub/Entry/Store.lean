import HomeHub.Entry.Basic
import HomeHub.Json.Printer

/-!
# The table of config entries

Entries are stored as rows of texts in the order of their insertion. The key of a row is the text of
its id, and no two rows of one domain have the same unique id. A row that does not read back as an
entry spoils every query that touches it. Queries list entries in the order of the text of their
creation time, ties in the order of insertion.
-/

namespace HomeHub

/-- A stored entry, as texts. -/
structure Row where
  id : String
  domain : String
  title : String
  uniqueId : Option String
  source : String
  data : String
  createdAt : String
  deriving DecidableEq, Inhabited

namespace Row

def ofEntry (e : Entry) : Row where
  id := e.id.text
  domain := e.domain
  title := e.title
  uniqueId := e.uniqueId
  source := e.source.text
  data := e.data.text
  createdAt := e.createdAt.offsetText

def read? (r : Row) : Option Entry := do
  let id ← Uuid.parse? r.id
  let source ← Source.ofText? r.source
  let data ← (Json.ofText r.data).toOption
  let createdAt ← Timestamp.parseStrict? r.createdAt
  return ⟨id, r.domain, r.title, r.uniqueId, source, data, createdAt⟩

/-- Two rows that the unique index keeps apart: of one domain, with the same unique id. -/
def clashes (a b : Row) : Bool :=
  a.domain == b.domain && a.uniqueId.isSome && a.uniqueId == b.uniqueId

end Row

abbrev Rows := List Row

namespace Rows

/-- Appends a row unless its key or its unique id is taken. -/
def insert? (rows : Rows) (r : Row) : Option Rows :=
  if rows.any fun s => s.id == r.id || s.clashes r then none else some (rows ++ [r])

/-- Changes the row with this key as `f` says, unless its unique id would be taken. Also tells
whether there is such a row. -/
def update? (rows : Rows) (id : String) (f : Row → Row) : Option (Bool × Rows) :=
  let others := rows.filter (·.id != id)
  if rows.any fun r => r.id == id && others.any (·.clashes (f r)) then none
  else some (rows.any (·.id == id), rows.map fun r => if r.id == id then f r else r)

def delete (rows : Rows) (id : String) : Rows := rows.filter (·.id != id)

/-- Puts a row before the first one that was created later. -/
def insertByAge (r : Row) : Rows → Rows
  | [] => [r]
  | s :: rest => if r.createdAt < s.createdAt then r :: s :: rest else s :: insertByAge r rest

/-- The rows by creation time. -/
def byAge (rows : Rows) : Rows := rows.foldl (fun acc r => insertByAge r acc) []

/-- The entries of some rows; none if one is unreadable. -/
def readAll? (rows : Rows) : Option (List Entry) := rows.mapM Row.read?

end Rows

/-- The ways in which storage can be made to fail, each with its reason. -/
structure StorageFaults where
  create : Option String := none
  get : Option String := none
  list : Option String := none
  find : Option String := none
  update : Option String := none
  delete : Option String := none
  /-- Someone else stores an entry of the same content just before each creation. -/
  rival : Bool := false
  deriving DecidableEq, Inhabited

/-- Whatever is switched on fails for the same reason. -/
def StorageFaults.only (reason : String) (on : String → Bool) : StorageFaults :=
  let fault (name : String) : Option String := if on name then some reason else none
  { create := fault "fail_create"
    get := fault "fail_get"
    list := fault "fail_list"
    find := fault "fail_find"
    update := fault "fail_update"
    delete := fault "fail_delete"
    rival := on "lose_race" }

/-- The stored rows, and what currently fails. -/
structure Repository where
  rows : Rows := []
  faults : StorageFaults := {}
  deriving Inhabited

namespace Repository

/-- Why a query or statement fails on its own. -/
def databaseError : HubError := .storage "database error"

def guardFault (fault : Option String) : Except HubError Unit :=
  match fault with
  | some reason => .error (.storage reason)
  | none => .ok ()

def ofOption {α : Type} (x : Option α) : Except HubError α :=
  match x with
  | some x => .ok x
  | none => .error databaseError

def insert (r : Repository) (e : Entry) : Except HubError Repository := do
  return { r with rows := ← ofOption (r.rows.insert? (.ofEntry e)) }

/-- The repository after a rival, if there is one, stored its copy under another id. -/
def afterRival (r : Repository) (e : Entry) (supply : Supply) : Except HubError Repository × Supply :=
  if r.faults.rival then
    let (id, supply) := supply.draw
    (r.insert { e with id }, supply)
  else (.ok r, supply)

/-- Stores an entry. A rival that cannot store its copy stops it, before any other fault does. -/
def create (r : Repository) (e : Entry) (supply : Supply) :
    Except HubError Entry × Repository × Supply :=
  match r.afterRival e supply with
  | (.error err, supply) => (.error err, r, supply)
  | (.ok r, supply) =>
    match guardFault r.faults.create with
    | .error err => (.error err, r, supply)
    | .ok () =>
      match r.insert e with
      | .error err => (.error err, r, supply)
      | .ok r => (.ok e, r, supply)

def getById (r : Repository) (id : Uuid) : Except HubError (Option Entry) := do
  guardFault r.faults.get
  match r.rows.find? (·.id == id.text) with
  | none => return none
  | some row => (ofOption row.read?).map some

def all (r : Repository) : Except HubError (List Entry) := do
  guardFault r.faults.list
  ofOption (Rows.readAll? r.rows.byAge)

def ofDomain (r : Repository) (domain : String) : Except HubError (List Entry) := do
  guardFault r.faults.find
  ofOption (Rows.readAll? (Rows.byAge (r.rows.filter (·.domain == domain))))

/-- Replaces what may change of an entry: title, unique id, source and data. -/
def update (r : Repository) (e : Entry) : Except HubError Entry × Repository :=
  match guardFault r.faults.update with
  | .error err => (.error err, r)
  | .ok () =>
    let new := Row.ofEntry e
    let change (old : Row) : Row :=
      { old with title := new.title, uniqueId := new.uniqueId, source := new.source, data := new.data }
    match r.rows.update? new.id change with
    | none => (.error databaseError, r)
    | some (false, _) => (.error (.notFound ⟨"ConfigEntry", e.id.text⟩), r)
    | some (true, rows) => (.ok e, { r with rows })

def delete (r : Repository) (id : Uuid) : Except HubError Unit × Repository :=
  match guardFault r.faults.delete with
  | .error err => (.error err, r)
  | .ok () => (.ok (), { r with rows := r.rows.delete id.text })

/-! ### Use -/

/-- Stores a new entry, which must be valid. -/
def createEntry (r : Repository) (e : Entry) (supply : Supply) :
    Except HubError Entry × Repository × Supply :=
  match e.validate with
  | .error rule => (.error (.invalid rule), r, supply)
  | .ok () => r.create e supply

def getEntry (r : Repository) (id : Uuid) : Except HubError Entry := do
  match ← r.getById id with
  | some e => return e
  | none => throw (.notFound ⟨"ConfigEntry", id.text⟩)

/-- The entry of a domain with this unique id. -/
def findByUniqueId (r : Repository) (domain uniqueId : String) : Except HubError (Option Entry) :=
  (r.ofDomain domain).map fun entries => entries.find? (·.uniqueId == some uniqueId)

/-- Stores changes to an entry, which must be valid. -/
def updateEntry (r : Repository) (e : Entry) : Except HubError Entry × Repository :=
  match e.validate with
  | .error rule => (.error (.invalid rule), r)
  | .ok () => r.update e

/-- Deletes an entry, which must exist. -/
def deleteEntry (r : Repository) (id : Uuid) : Except HubError Unit × Repository :=
  match r.getEntry id with
  | .error err => (.error err, r)
  | .ok _ => r.delete id

end Repository

end HomeHub
