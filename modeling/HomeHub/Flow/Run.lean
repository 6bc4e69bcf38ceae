import HomeHub.Flow.Input
import HomeHub.Hub

/-!
# Running a step of a flow

A step talks to nodes and to the entry store, and other work may go on in between. So a running step
is a `Phase`: what it is about to do next, with all it needs for that. `Phase.step` does it. A call
to a node takes two phases, as its answer is settled when the call is made and comes back later.
`Phase.rank` falls with each step, so a step of a flow always comes to an end.
-/

namespace HomeHub.Flow

/-- On what ground an entry with the flow's unique id is looked for: the node was announced, or it
described itself. -/
inductive Ground where
  | announced (a : Announcement)
  | described (info : DeviceInfo)
  deriving DecidableEq, Inhabited

/-- A running step, by what it does next. -/
inductive Phase where
  /-- Asks the node to describe itself. -/
  | describe (f : Flow)
  /-- Gets the description. -/
  | described (f : Flow) (reply : Except ContactError DeviceInfo)
  | login (f : Flow) (t : Target)
  | loggedIn (f : Flow) (reply : Except ContactError Unit)
  /-- Looks for the entry with the flow's unique id. -/
  | findMatch (f : Flow) (g : Ground)
  /-- Stores a changed entry; its node is configured already. -/
  | update (f : Flow) (e : Entry)
  /-- Looks for an entry of an announced node by other signs. -/
  | listKnown (f : Flow) (a : Announcement)
  | done (f : Flow) (r : Except HubError Result)
  deriving Inhabited

/-- The flow shows a form. -/
def Phase.shown (r : Flow × Result) : Phase := .done r.1 (.ok r.2)

def Phase.fail (f : Flow) (rule : Invalid) : Phase := .done f (.error (.invalid rule))

def Phase.alreadyConfigured (f : Flow) : Phase := .done f (.ok (.abort .alreadyConfigured))

def create (f : Flow) : Phase :=
  match f.newEntry with
  | .ok n => .done f (.ok (.createEntry n))
  | .error rule => .fail f rule

/-- Goes on when no entry has the flow's unique id. -/
def proceed (f : Flow) : Ground → Phase
  | .announced a => .listKnown f a
  | .described info => if info.usesPassword then .shown (f.showAuthenticate none) else create f

def checkMatch (f : Flow) (g : Ground) : Phase :=
  match f.uniqueId with
  | some _ => .findMatch f g
  | none => proceed f g

/-! ### Starting a step -/

/-- Shows the user form, or tries its input. -/
def startUser (f : Flow) : Option UserInput → Phase
  | none => .shown (f.showUser none)
  | some input =>
    match Target.validate ⟨input.host, input.port, ""⟩ with
    | .error rule => .fail f rule
    | .ok () => .describe { f with host := some input.host, port := some input.port }

def startZeroconf (f : Flow) (a : Announcement) : Phase :=
  checkMatch { f with uniqueId := some a.nodeName } (.announced a)

/-- Shows the form for a discovered node, or goes on once it is confirmed. -/
def startConfirm (f : Flow) (confirmed : Bool) : Phase :=
  if confirmed then .describe f else .shown f.showConfirm

/-- Shows the password form, or tries its input. -/
def startAuthenticate (f : Flow) : Option PasswordInput → Phase
  | none => .shown (f.showAuthenticate none)
  | some input =>
    let f := { f with password := some input.password }
    match f.target with
    | .error rule => .fail f rule
    | .ok t => .login f t

/-- Gives the input to the step that the flow waits on. Confirming needs no input. -/
def submit (f : Flow) (input : Json) : Phase :=
  match f.step with
  | .user =>
    match UserInput.parse input with
    | .ok input => startUser f (some input)
    | .error fault => .fail f (.input fault.message)
  | .discoveryConfirm => startConfirm f true
  | .authenticate =>
    match PasswordInput.parse input with
    | .ok input => startAuthenticate f (some input)
    | .error fault => .fail f (.input fault.message)

/-! ### Going on -/

/-- What a matching entry is brought up to date with. -/
def Ground.updates (f : Flow) : Ground → List (String × Json)
  | .announced a => [("host", .str a.host)]
  | .described _ => [("host", .str f.describeTarget.host), ("port", .nat f.describeTarget.port.toNat)]

/-- Whether a field already has this text or integer. -/
def holds (data : Json) (field : String × Json) : Bool :=
  match data.get? field.1, field.2 with
  | some (.str s), .str t => s == t
  | some (.num (.int n)), .num (.int m) => n == m
  | _, _ => false

/-- Whether an entry is about an announced node: it has the node's host, or its loaded node has that
name. -/
def isAbout (loaded : Table Uuid DeviceInfo) (a : Announcement) (e : Entry) : Bool :=
  let named := match loaded.get? e.id with
    | some info => info.name == a.nodeName
    | none => false
  match e.host? with
  | some host => host == a.address || host == a.host || named
  | none => named

/-- What the description of a node leads to. -/
def afterDescription (f : Flow) : Except ContactError DeviceInfo → Phase
  | .error err =>
    .shown (f.showUser (some (if err.isResolve then .resolveError else .connectionError)))
  | .ok info =>
    let id := match f.uniqueId with
      | some id => id
      | none => info.name
    checkMatch { f with name := some info.name, uniqueId := some id } (.described info)

def afterLogin (f : Flow) : Except ContactError Unit → Phase
  | .error _ => .shown (f.showAuthenticate (some .invalidAuth))
  | .ok () => create f

/-- What the entry with the flow's unique id leads to, if there is one. -/
def afterMatch (f : Flow) (g : Ground) : Option Entry → Phase
  | none => proceed f g
  | some e =>
    let updates := g.updates f
    if updates.all (holds e.data) then .alreadyConfigured f else .update f (e.mergeData updates)

/-- What the first entry about an announced node leads to; one without unique id gets the node's
name for it. -/
def afterKnown (f : Flow) (a : Announcement) : Option Entry → Phase
  | none =>
    .shown (showConfirm { f with host := some a.host, port := some a.port, name := some a.nodeName })
  | some e =>
    match e.uniqueId with
    | some _ => .alreadyConfigured f
    | none => .update f { e.mergeData [("host", .str a.host)] with uniqueId := some a.nodeName }

namespace Phase

/-- Does the next thing. -/
def step (h : Hub) : Phase → Phase × Hub
  | .describe f =>
    let (reply, h) := h.describe f.describeTarget
    (.described f reply, h)
  | .described f reply => (afterDescription f reply, h)
  | .login f t =>
    let (reply, h) := h.login t
    (.loggedIn f reply, h)
  | .loggedIn f reply => (afterLogin f reply, h)
  | .findMatch f g =>
    match h.repository.findByUniqueId nativeApiDomain (f.uniqueId.getD "") with
    | .error err => (.done f (.error err), h)
    | .ok e => (afterMatch f g e, h)
  | .update f e =>
    match h.updateEntry e with
    | (.error err, h) => (.done f (.error err), h)
    | (.ok _, h) => (.alreadyConfigured f, h)
  | .listKnown f a =>
    match h.repository.ofDomain nativeApiDomain with
    | .error err => (.done f (.error err), h)
    | .ok entries => (afterKnown f a (entries.find? (isAbout h.loaded a)), h)
  | .done f r => (.done f r, h)

/-- How many steps are left at most. -/
def rank : Phase → Nat
  | .describe _ => 5
  | .described _ _ => 4
  | .login _ _ => 2
  | .loggedIn _ _ => 1
  | .findMatch _ (.announced _) => 3
  | .findMatch _ (.described _) => 2
  | .update _ _ => 1
  | .listKnown _ _ => 2
  | .done _ _ => 0

section Rank

variable (f : Flow)

@[simp] theorem rank_shown (r : Flow × Result) : (Phase.shown r).rank = 0 := rfl
@[simp] theorem rank_fail (rule : Invalid) : (Phase.fail f rule).rank = 0 := rfl
@[simp] theorem rank_alreadyConfigured : (Phase.alreadyConfigured f).rank = 0 := rfl
@[simp] theorem rank_described (r : Except ContactError DeviceInfo) :
    (Phase.described f r).rank = 4 := rfl
@[simp] theorem rank_loggedIn (r : Except ContactError Unit) : (Phase.loggedIn f r).rank = 1 := rfl
@[simp] theorem rank_update (e : Entry) : (Phase.update f e).rank = 1 := rfl
@[simp] theorem rank_listKnown (a : Announcement) : (Phase.listKnown f a).rank = 2 := rfl
@[simp] theorem rank_done (r : Except HubError Result) : (Phase.done f r).rank = 0 := rfl

@[simp] theorem rank_create : (create f).rank = 0 := by
  unfold create
  split <;> rfl

theorem rank_proceed_lt (g : Ground) : (proceed f g).rank < (Phase.findMatch f g).rank := by
  cases g with
  | announced a => exact Nat.lt_succ_self 2
  | described info =>
    have : (proceed f (.described info)).rank = 0 := by
      simp only [proceed]
      split <;> simp
    rw [this]
    exact Nat.two_pos

theorem rank_findMatch_le (g : Ground) : (Phase.findMatch f g).rank ≤ 3 := by
  cases g <;> simp [rank]

theorem one_lt_rank_findMatch (g : Ground) : 1 < (Phase.findMatch f g).rank := by
  cases g <;> simp [rank]

theorem rank_checkMatch_le (g : Ground) : (checkMatch f g).rank ≤ 3 := by
  have := rank_findMatch_le f g
  have := rank_proceed_lt f g
  unfold checkMatch
  split <;> omega

end Rank

theorem rank_le (p : Phase) : p.rank ≤ 5 := by
  unfold rank
  split <;> omega

/-- Only a step that is over has no steps left. -/
theorem eq_done_of_rank {p : Phase} (h : p.rank = 0) : ∃ f r, p = .done f r := by
  cases p with
  | done f r => exact ⟨f, r, rfl⟩
  | findMatch f g => have := one_lt_rank_findMatch f g; omega
  | _ => simp [rank] at h

/-- Every phase but the last comes nearer to the end. -/
theorem rank_step_lt (h : Hub) (p : Phase) (hp : 0 < p.rank) : (p.step h).1.rank < p.rank := by
  cases p with
  | describe f => exact Nat.lt_succ_self 4
  | described f reply =>
    cases reply with
    | error e => simp [step, afterDescription]
    | ok info =>
      simp only [step, afterDescription, rank_described]
      exact Nat.lt_of_le_of_lt (rank_checkMatch_le _ _) (Nat.lt_succ_self 3)
  | login f t => exact Nat.lt_succ_self 1
  | loggedIn f reply => cases reply <;> simp [step, afterLogin]
  | findMatch f g =>
    have pos := one_lt_rank_findMatch f g
    simp only [step]
    split
    · simp only [rank_done]; omega
    · next e _ =>
      cases e with
      | none => exact rank_proceed_lt f g
      | some e =>
        simp only [afterMatch]
        split
        · simp only [rank_alreadyConfigured]; omega
        · simpa using pos
  | update f e => simp only [step]; split <;> simp
  | listKnown f a =>
    simp only [step]
    split
    · simp
    · next es _ =>
      cases es.find? (isAbout h.loaded a) with
      | none => simp [afterKnown]
      | some e => simp only [afterKnown]; split <;> simp
  | done f r => simp at hp

/-- Runs to the end: the flow as the step left it, and the outcome. -/
def runFor : Nat → Phase → Hub → Flow × Except HubError Result × Hub
  | _, .done f r, h => (f, r, h)
  | 0, _, _ => default
  | fuel + 1, p, h =>
    let (p, h) := p.step h
    runFor fuel p h

def run (p : Phase) (h : Hub) : Flow × Except HubError Result × Hub := runFor p.rank p h

end Phase

end HomeHub.Flow
