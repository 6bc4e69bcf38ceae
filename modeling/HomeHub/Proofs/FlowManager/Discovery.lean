import HomeHub.Proofs.FlowManager.Created
import HomeHub.Proofs.FlowManager.Marks

/-!
# One flow for each announced node

A node may be announced any number of times. The first announcement claims the name of the node,
and from then on the claim or the registered flow turns the others away:
`Session.one_discovery_each`. Claim and registration overlap, as the flow is registered before the
claim is given up. A flow that is dropped in the middle of a step would come back behind the back of
a later one, so only flows at rest may be.
-/

namespace HomeHub

namespace Flow

/-- The flow of an announced node of this name. -/
structure IsFor (f : Flow) (name : String) : Prop where
  source : f.source = .zeroconf
  uniqueId : f.uniqueId = some name

/-- The second flow may be the first one some steps later. -/
structure Onward (f g : Flow) : Prop where
  source : g.source = f.source
  uniqueId : ∀ name, f.uniqueId = some name → g.uniqueId = some name

theorem Onward.refl (f : Flow) : f.Onward f := ⟨rfl, fun _ h => h⟩

theorem IsFor.onward {f g : Flow} {name : String} (h : f.IsFor name) (hg : f.Onward g) :
    g.IsFor name := ⟨hg.source.trans h.source, hg.uniqueId name h.uniqueId⟩

/-- The copy of the flow that a step works on. -/
def Phase.flow : Phase → Flow
  | .describe f | .described f _ | .login f _ | .loggedIn f _ | .findMatch f _ | .update f _
  | .listKnown f _ | .done f _ => f

section Onward

variable (f : Flow)

theorem flow_create : f.create.flow = f := by
  unfold create
  split <;> rfl

theorem onward_proceed (g : Ground) : f.Onward (proceed f g).flow := by
  cases g with
  | announced a => exact .refl f
  | described info =>
    simp only [proceed]
    split
    · exact ⟨rfl, fun _ h => h⟩
    · rw [flow_create]
      exact .refl f

theorem onward_checkMatch (g : Ground) : f.Onward (checkMatch f g).flow := by
  unfold checkMatch
  split
  · exact .refl f
  · exact onward_proceed f g

theorem onward_afterDescription (reply : Except ContactError DeviceInfo) :
    f.Onward (afterDescription f reply).flow := by
  cases reply with
  | error err => exact ⟨rfl, fun _ h => h⟩
  | ok info =>
    simp only [afterDescription]
    refine ⟨(onward_checkMatch _ (.described info)).source, fun name hname => ?_⟩
    refine (onward_checkMatch _ (.described info)).uniqueId name ?_
    simp only [hname]

theorem onward_afterMatch (g : Ground) (e : Option Entry) : f.Onward (afterMatch f g e).flow := by
  cases e with
  | none => exact onward_proceed f g
  | some e =>
    simp only [afterMatch]
    split <;> exact .refl f

theorem onward_afterKnown (a : Announcement) (e : Option Entry) :
    f.Onward (afterKnown f a e).flow := by
  cases e with
  | none => exact ⟨rfl, fun _ h => h⟩
  | some e =>
    simp only [afterKnown]
    split <;> exact .refl f

theorem onward_submit (input : Json) : f.Onward (f.submit input).flow := by
  unfold submit
  split
  · split
    · simp only [startUser]
      split
      · exact .refl f
      · exact ⟨rfl, fun _ h => h⟩
    · exact .refl f
  · exact .refl f
  · split
    · simp only [startAuthenticate]
      split <;> exact ⟨rfl, fun _ h => h⟩
    · exact .refl f

theorem Phase.onward_step (p : Phase) (h : Hub) : p.flow.Onward (p.step h).1.flow := by
  cases p with
  | described f reply => exact onward_afterDescription f reply
  | loggedIn f reply =>
    cases reply with
    | error err => exact ⟨rfl, fun _ h => h⟩
    | ok u =>
      simp only [step, afterLogin, flow_create]
      exact .refl f
  | findMatch f g =>
    simp only [step]
    split
    · exact .refl f
    · exact onward_afterMatch f g _
  | update f e => simp only [step]; split <;> exact .refl f
  | listKnown f a =>
    simp only [step]
    split
    · exact .refl f
    · exact onward_afterKnown f a _
  | _ => exact .refl _

end Onward

/-- The first step for an announced node works on a flow for it. -/
theorem isFor_startZeroconf (a : Announcement) :
    (startZeroconf { source := .zeroconf } a).flow.IsFor a.nodeName := ⟨rfl, rfl⟩

end Flow

/-- The copy of its flow that a call at this stage works on or is to register. -/
def Stage.flow? : Stage → Option Flow
  | .run p => some p.flow
  | .register f _ => some f
  | _ => none

theorem Stage.isWorking_of_flow? {s : Stage} {f : Flow} (h : s.flow? = some f) :
    s.isWorking = true := by
  cases s with
  | run p => rfl
  | register g form => rfl
  | _ => cases h

namespace Job

variable {j : Job} {h : Hub} {f : Flow}

theorem flow?_close (r : Except HubError FlowResponse) : (j.close r).stage.flow? = none := by
  unfold close
  split <;> rfl

theorem flow?_advance {p : Flow.Phase} (hf : (j.advance p).stage.flow? = some f) : f = p.flow := by
  unfold advance at hf
  split at hf
  · unfold settle at hf
    split at hf
    · cases hf; rfl
    · cases hf
    · cases hf
    · split at hf
      · rw [flow?_close] at hf; cases hf
      · cases hf
  · cases hf; rfl

/-- A call gets the copy it works on by claiming the name of its node, from the table, or from its
last step. -/
theorem flow?_step (hf : (j.step h).1.stage.flow? = some f) :
    (∃ a, j.stage = .claim a ∧ (j.step h).1.Holds a.nodeName ∧ f.IsFor a.nodeName) ∨
    (∃ input p, j.stage = .begin input ∧ h.flows.flows.get? j.flowId = some p ∧
      p.flow.Onward f) ∨
    ∃ p, j.stage = .run p ∧ p.flow.Onward f := by
  obtain ⟨id, claimed, stage⟩ := j
  cases stage with
  | claim a =>
    simp only [step] at hf ⊢
    split at hf
    · cases hf
    · next free =>
      rw [if_neg free]
      refine .inl ⟨a, rfl, holds_advance.2 rfl, ?_⟩
      rw [flow?_advance hf]
      exact Flow.isFor_startZeroconf a
  | begin input =>
    simp only [step] at hf
    split at hf
    · cases hf
    · next p hp =>
      split at hf
      · cases hf
      · refine .inr (.inl ⟨input, p, rfl, hp, ?_⟩)
        rw [flow?_advance hf]
        exact p.flow.onward_submit input
  | run p =>
    refine .inr (.inr ⟨p, rfl, ?_⟩)
    rw [flow?_advance hf]
    exact p.onward_step h
  | check n =>
    simp only [step] at hf
    split at hf
    · cases hf
    · cases hf
    · split at hf <;> cases hf
  | store n e => simp only [step] at hf; split at hf <;> cases hf
  | recheck n err => simp only [step] at hf; split at hf <;> cases hf
  | announce n e => cases hf
  | unclaim r => cases hf
  | done r => cases hf
  | _ => rw [step, flow?_close] at hf; cases hf

end Job

/-- A registered flow with the unique id is in progress. -/
theorem FlowTable.inProgress_of_get? {t : FlowTable} {id : Uuid} {p : InProgress} {name : String}
    (hp : t.flows.get? id = some p) (hname : p.flow.uniqueId = some name) :
    t.inProgress name = true := by
  have listed : p ∈ t.flows.values := by
    unfold Table.get? at hp
    unfold Table.values
    generalize t.flows.pairs = l at hp ⊢
    induction l with
    | nil => cases hp
    | cons q rest ih =>
      rw [Pairs.get?] at hp
      split at hp
      · cases hp; exact List.mem_cons_self
      · exact List.mem_cons_of_mem _ (ih hp)
  unfold inProgress
  rw [Bool.or_eq_true]
  exact .inr (List.any_eq_true.2 ⟨p, listed, by rw [hname]; exact BEq.rfl⟩)

namespace Session

/-- A flow for an announced node of this name is registered, or its first step runs. -/
def Pending (s : Session) (name : String) (f : Uuid) : Prop :=
  (∃ p, s.registered f = some p ∧ p.flow.IsFor name) ∨
    ∃ (i : Nat) (j : Job), s.jobs[i]? = some j ∧ j.flowId = f ∧ s.Claims i name

/-- Whatever flow the run drops, no call works on it. -/
def Spares (s : Session) (as : List Action) : Prop :=
  ∀ bs f cs, as = bs ++ .abort f :: cs → ((s.run bs).registered f).isSome →
    ∀ i, ¬ (s.run bs).Engaged f i

/-- No two flows are about one announced node, and what keeps it so. -/
structure Exclusive (s : Session) : Prop where
  fresh : ∀ (i : Nat) (j : Job) a, s.jobs[i]? = some j → j.stage = .claim a →
    s.registered j.flowId = none
  named : ∀ f p, s.registered f = some p → p.flow.source = .zeroconf → ∃ name, p.flow.IsFor name
  /-- Behind the copy of a flow for an announced node stands a claim or a registered flow. -/
  backed : ∀ (i : Nat) (j : Job) g, s.jobs[i]? = some j → j.stage.flow? = some g →
    g.source = .zeroconf →
    ∃ name, g.IsFor name ∧ (j.Holds name ∨ ∃ p, s.registered j.flowId = some p ∧ p.flow.IsFor name)
  apart : ∀ name f g p q, s.registered f = some p → s.registered g = some q →
    p.flow.IsFor name → q.flow.IsFor name → f = g
  held : ∀ name (i : Nat) (j : Job) f p, s.jobs[i]? = some j → j.Holds name →
    s.registered f = some p → p.flow.IsFor name → f = j.flowId

variable {s t : Session}

theorem spares_nil (s : Session) : s.Spares [] := by
  intro bs f cs heq
  cases bs <;> cases heq

theorem spares_cons {act : Action} {as : List Action} : s.Spares (act :: as) ↔
    (∀ f, act = .abort f → (s.registered f).isSome → ∀ i, ¬ s.Engaged f i) ∧
      (s.step act).Spares as := by
  constructor
  · intro h
    refine ⟨fun f heq => h [] f as (by rw [heq]; rfl), fun bs f cs heq => ?_⟩
    exact h (act :: bs) f cs (by rw [heq]; rfl)
  · rintro ⟨head, rest⟩ bs f cs heq
    cases bs with
    | nil =>
      cases heq
      exact head f rfl
    | cons b bs =>
      cases heq
      exact rest bs f cs rfl

/-! ### Single actions -/

/-- An action that makes a call. -/
theorem Exclusive.join (hx : s.Exclusive) {x : Job} (hj : t.jobs = s.jobs ++ [x])
    (hr : ∀ f, t.registered f = s.registered f) (unheld : x.claimed = none)
    (fresh : ∀ a, x.stage = .claim a → s.registered x.flowId = none)
    (user : ∀ g, x.stage.flow? = some g → g.source = .user) : t.Exclusive := by
  have hjobs {k : Nat} {j : Job} (hk : t.jobs[k]? = some j) : s.jobs[k]? = some j ∨ j = x := by
    rw [hj] at hk
    exact (getElem?_concat_cases hk).imp_right And.right
  constructor
  · intro k j a hk hst
    rw [hr]
    rcases hjobs hk with hk | rfl
    · exact hx.fresh k j a hk hst
    · exact fresh a hst
  · simp only [hr]
    exact hx.named
  · intro k j g hk hg hsource
    simp only [hr]
    rcases hjobs hk with hk | rfl
    · exact hx.backed k j g hk hg hsource
    · cases (user g hg).symm.trans hsource
  · simp only [hr]
    exact hx.apart
  · intro name k j f p hk hh hp
    rw [hr] at hp
    rcases hjobs hk with hk | rfl
    · exact hx.held name k j f p hk hh hp
    · exact absurd hh (Job.not_holds_of_unclaimed unheld)

theorem Exclusive.init (hs : s.Orderly) (hx : s.Exclusive) (source : Source)
    (announcement : Option Announcement)
    (lasts : (s.step (.init source announcement)).hub.supply.Lasts) :
    (s.step (.init source announcement)).Exclusive := by
  refine hx.join (x := (s.hub.initJob source announcement).1) rfl
    (registered_init source announcement) ?_ ?_ ?_
  · cases source <;> cases announcement <;> rfl
  · intro a _
    rw [flowId_initJob]
    refine Option.not_isSome_iff_eq_none.1 fun hr => ?_
    exact hs.not_knows lasts (.inl hr)
  · intro g hg
    cases source with
    | user => cases announcement <;> cases hg <;> rfl
    | zeroconf => cases announcement <;> cases hg

theorem Exclusive.configure (hx : s.Exclusive) (f : Uuid) (input : Json) :
    (s.step (.configure f input)).Exclusive :=
  hx.join (x := Hub.configureJob f input) rfl (fun _ => rfl) rfl (fun _ => nofun) nofun

/-- Dropping a flow takes nothing away from a call that works on another one. -/
theorem Exclusive.abort (hx : s.Exclusive) (f : Uuid)
    (spared : (s.registered f).isSome → ∀ i, ¬ s.Engaged f i) :
    (s.step (.abort f)).Exclusive := by
  have before {g : Uuid} {p : InProgress} (hp : (s.step (.abort f)).registered g = some p) :
      s.registered g = some p := by
    rw [registered_abort] at hp
    split at hp
    · cases hp
    · exact hp
  constructor
  · intro i j a hi hst
    rw [registered_abort, hx.fresh i j a hi hst, ite_self]
  · exact fun g p hp => hx.named g p (before hp)
  · intro i j g hi hg hsource
    obtain ⟨name, hname, back⟩ := hx.backed i j g hi hg hsource
    refine ⟨name, hname, back.imp_right ?_⟩
    rintro ⟨p, hp, hfor⟩
    refine ⟨p, ?_, hfor⟩
    rw [registered_abort, if_neg]
    · exact hp
    · rintro rfl
      exact spared (by rw [hp]; rfl) i ⟨j, hi, rfl, Stage.isWorking_of_flow? hg⟩
  · exact fun name g g' p q hp hq => hx.apart name g g' p q (before hp) (before hq)
  · exact fun name i j g p hi hh hp => hx.held name i j g p hi hh (before hp)

section Advance

variable {i : Nat} {j : Job}

/-- A flow that another call works on stays as it is. -/
theorem Orderly.registered_other (hs : s.Orderly) (hj : s.jobs[i]? = some j) {k : Nat} {j' : Job}
    (hki : k ≠ i) (hk : s.jobs[k]? = some j') (working : j'.stage.isWorking = true) :
    ((s.step (.advance i)).registered j'.flowId).map (·.flow) =
      (s.registered j'.flowId).map (·.flow) := by
  rw [registered_advance hj]
  split
  · next hf =>
    have rests : ¬ j.stage.isWorking = true := fun hw =>
      hki (hs.single j'.flowId k i j' j hk hj ⟨rfl, working⟩ ⟨hf.symm, hw⟩)
    revert rests
    cases j.stage with
    | begin input => exact fun _ => by rw [Stage.onTable, Option.map_map]; rfl
    | unclaim r => exact fun _ => rfl
    | done r => exact fun _ => rfl
    | _ => exact fun rests => absurd rfl rests
  · rfl

/-- A call that is to register a flow for an announced node is the only one with such a flow. -/
theorem Exclusive.own (hx : s.Exclusive) (hj : s.jobs[i]? = some j) {g : Flow} {form : Flow.Result}
    {name : String} (hst : j.stage = .register g form) (hg : g.IsFor name) {f : Uuid}
    {p : InProgress} (hp : s.registered f = some p) (hfor : p.flow.IsFor name) : f = j.flowId := by
  obtain ⟨name', hname, back⟩ := hx.backed i j g hj (by rw [hst]; rfl) hg.source
  cases hg.uniqueId.symm.trans hname.uniqueId
  rcases back with hh | ⟨q, hq, hq'⟩
  · exact hx.held name i j f p hj hh hp hfor
  · exact hx.apart name f j.flowId p q hp hq hfor hq'

theorem Exclusive.backed_advance (hs : s.Orderly) (hx : s.Exclusive) (hj : s.jobs[i]? = some j)
    {k : Nat} {j' : Job} {g : Flow} (hk : (s.step (.advance i)).jobs[k]? = some j')
    (hg : j'.stage.flow? = some g) (hsource : g.source = .zeroconf) :
    ∃ name, g.IsFor name ∧ (j'.Holds name ∨
      ∃ p, (s.step (.advance i)).registered j'.flowId = some p ∧ p.flow.IsFor name) := by
  rw [getElem?_jobs_advance hj] at hk
  split at hk
  · cases hk
    have hreg := registered_advance hj j.flowId
    rw [if_pos rfl] at hreg
    rw [j.flowId_step]
    rcases Job.flow?_step hg with ⟨a, -, hh, hfor⟩ | ⟨input, p, hst, hp, onward⟩ | ⟨p, hst, onward⟩
    · exact ⟨_, hfor, .inl hh⟩
    · obtain ⟨name, hname⟩ := hx.named j.flowId p hp (onward.source.symm.trans hsource)
      refine ⟨name, hname.onward onward, .inr ⟨{ p with busy := true }, ?_, hname⟩⟩
      rw [hreg, hst]
      exact congrArg (Option.map _) hp
    · obtain ⟨name, hname, back⟩ := hx.backed i j p.flow hj (by rw [hst]; rfl)
        (onward.source.symm.trans hsource)
      refine ⟨name, hname.onward onward, back.imp (fun hh => ?_) fun ⟨q, hq, hfor⟩ => ⟨q, ?_, hfor⟩⟩
      · have hstep : (j.step s.hub).1 = j.advance (p.step s.hub).1 := by simp only [Job.step, hst]
        rw [hstep]
        exact Job.holds_advance.2 hh.1
      · rw [hreg, hst]
        exact hq
  · next hki =>
    obtain ⟨name, hname, back⟩ := hx.backed k j' g hk hg hsource
    refine ⟨name, hname, back.imp_right fun ⟨p, hp, hfor⟩ => ?_⟩
    have same := hs.registered_other hj hki hk (Stage.isWorking_of_flow? hg)
    rw [hp, Option.map_some] at same
    obtain ⟨q, hq, hflow⟩ := Option.map_eq_some_iff.1 same
    exact ⟨q, hq, hflow ▸ hfor⟩

theorem Exclusive.held_advance (hm : s.Marked) (hx : s.Exclusive) (hj : s.jobs[i]? = some j)
    {name : String} {k : Nat} {j' : Job} {f : Uuid} {p : InProgress}
    (hk : (s.step (.advance i)).jobs[k]? = some j') (hh : j'.Holds name)
    (hp : (s.step (.advance i)).registered f = some p) (hfor : p.flow.IsFor name) :
    f = j'.flowId := by
  rw [getElem?_jobs_advance hj] at hk
  split at hk
  · cases hk
    rw [j.flowId_step]
    rcases registered_before hj hp with ⟨q, hq, hflow⟩ | ⟨hf, -⟩
    · rw [hflow] at hfor
      rcases j.claim_cases (h := s.hub) (hm.poised i j hj) with
        ⟨a, -, free, hholds, -⟩ | ⟨r, own, -, -, hholds, -⟩ | ⟨hholds, -⟩
      · -- the name would have been in progress
        cases (hholds name).1 hh
        cases (FlowTable.inProgress_of_get? hq hfor.uniqueId).symm.trans free
      · exact absurd hh (hholds name)
      · exact hx.held name i j f q hj ((hholds name).1 hh) hq hfor
    · exact hf
  · next hki =>
    rcases registered_before hj hp with ⟨q, hq, hflow⟩ | ⟨hf, form, hst⟩
    · exact hx.held name k j' f q hk hh hq (hflow ▸ hfor)
    · obtain ⟨name', hname, back⟩ := hx.backed i j p.flow hj (by rw [hst]; rfl) hfor.source
      cases hfor.uniqueId.symm.trans hname.uniqueId
      rcases back with hown | ⟨q, hq, hq'⟩
      · exact absurd (hm.sole name k i j' j hk hj hh hown) hki
      · exact hf.trans (hx.held name k j' j.flowId q hk hh hq hq')

theorem Exclusive.advance (hs : s.Orderly) (hm : s.Marked) (hx : s.Exclusive) (i : Nat) :
    (s.step (.advance i)).Exclusive := by
  cases hj : s.jobs[i]? with
  | none => rw [step_advance_none hj]; exact hx
  | some j =>
  constructor
  · intro k j' a hk hst
    rw [getElem?_jobs_advance hj] at hk
    split at hk
    · cases hk
      exact absurd hst (j.not_claim_of_step s.hub a)
    · next hki =>
      have same := hs.registered_other hj hki hk (by rw [hst]; rfl)
      rw [hx.fresh k j' a hk hst, Option.map_none] at same
      exact Option.map_eq_none_iff.1 same
  · intro f p hp hsource
    rcases registered_before hj hp with ⟨q, hq, hflow⟩ | ⟨-, form, hst⟩
    · rw [hflow] at hsource ⊢
      exact hx.named f q hq hsource
    · obtain ⟨name, hname, -⟩ := hx.backed i j p.flow hj (by rw [hst]; rfl) hsource
      exact ⟨name, hname⟩
  · exact fun k j' g hk hg => hx.backed_advance hs hj hk hg
  · intro name f g p q hp hq hp' hq'
    rcases registered_before hj hp with ⟨p₀, hp₀, hpf⟩ | ⟨hf, form, hst⟩ <;>
      rcases registered_before hj hq with ⟨q₀, hq₀, hqf⟩ | ⟨hg, form', hst'⟩
    · exact hx.apart name f g p₀ q₀ hp₀ hq₀ (hpf ▸ hp') (hqf ▸ hq')
    · exact (hx.own hj hst' hq' hp₀ (hpf ▸ hp')).trans hg.symm
    · exact hf.trans (hx.own hj hst hp' hq₀ (hqf ▸ hq')).symm
    · exact hf.trans hg.symm
  · exact fun name k j' f p hk hh hp => hx.held_advance hm hj hk hh hp

end Advance

theorem Exclusive.step (hs : s.Orderly) (hm : s.Marked) (hx : s.Exclusive) (act : Action)
    (spared : ∀ f, act = .abort f → (s.registered f).isSome → ∀ i, ¬ s.Engaged f i)
    (lasts : (s.step act).hub.supply.Lasts) : (s.step act).Exclusive := by
  cases act with
  | init source announcement => exact hx.init hs source announcement lasts
  | configure f input => exact hx.configure f input
  | advance i => exact hx.advance hs hm i
  | abort f => exact hx.abort f (spared f rfl)
  | _ => exact ⟨hx.fresh, hx.named, hx.backed, hx.apart, hx.held⟩

theorem exclusive_start (h : Hub) : (start h).Exclusive where
  fresh _ _ _ hi := by cases hi
  named _ _ hp := by cases hp
  backed _ _ _ hi := by cases hi
  apart _ _ _ _ _ hp := by cases hp
  held _ _ _ _ _ hi := by cases hi

theorem exclusive_run (h : Hub) (as : List Action) (spares : (start h).Spares as)
    (lasts : ((start h).run as).hub.supply.Lasts) : ((start h).run as).Exclusive := by
  suffices ∀ s : Session, s.Orderly → s.Marked → s.Exclusive → s.Spares as →
      (s.run as).hub.supply.Lasts → (s.run as).Exclusive from
    this _ (orderly_start h) (marked_start h) (exclusive_start h) spares lasts
  clear spares lasts
  induction as with
  | nil => exact fun _ _ _ hx _ _ => hx
  | cons act as ih =>
    intro s hs hm hx spares lasts
    obtain ⟨spared, rest⟩ := spares_cons.1 spares
    have hl : (s.step act).hub.supply.Lasts := lasts.mono (drawn_le_run (s.step act) as)
    exact ih _ (hs.step act hl) (hm.step act) (hx.step hs hm act spared hl) rest lasts

/-- At any moment at most one flow for an announced node of a name is registered or in its first
step. A call that starts another one meanwhile answers that one is in progress already. It changes
nothing, and its flow is never registered. -/
theorem one_discovery_each (h : Hub) (as : List Action)
    (lasts : ((start h).run as).hub.supply.Lasts) (spares : (start h).Spares as) :
    let s := (start h).run as
    (∀ name f g, s.Pending name f → s.Pending name g → f = g) ∧
      ∀ (i : Nat) (j : Job) a f, s.jobs[i]? = some j → j.stage = .claim a →
        s.Pending a.nodeName f →
        (j.step s.hub).1.answer? = some (.ok ⟨j.flowId, .abort .alreadyInProgress, none⟩) ∧
          (j.step s.hub).2 = s.hub ∧
          ∀ bs, ((s.step (.advance i)).run bs).hub.supply.Lasts →
            ((s.step (.advance i)).run bs).registered j.flowId = none := by
  intro s
  have hs : s.Orderly := orderly_run h as lasts
  have hm : s.Marked := marked_run h as
  have hx : s.Exclusive := exclusive_run h as spares lasts
  have holds {i : Nat} {j : Job} {name : String} (hi : s.jobs[i]? = some j)
      (hc : s.Claims i name) : j.Holds name := (hm.holds_iff hi name).2 hc
  constructor
  · rintro name f g (⟨p, hp, hp'⟩ | ⟨i, j, hi, rfl, hc⟩) (⟨q, hq, hq'⟩ | ⟨k, j', hk, rfl, hc'⟩)
    · exact hx.apart name f g p q hp hq hp' hq'
    · exact hx.held name k j' f p hk (holds hk hc') hp hp'
    · exact (hx.held name i j g q hi (holds hi hc) hq hq').symm
    · have hik : i = k := hm.sole name i k j j' hi hk (holds hi hc) (holds hk hc')
      subst hik
      cases hi.symm.trans hk
      rfl
  · intro i j a f hi hst pending
    have busy : s.hub.flows.inProgress a.nodeName = true := by
      rcases pending with ⟨p, hp, hfor⟩ | ⟨k, j', hk, -, hc⟩
      · exact FlowTable.inProgress_of_get? hp hfor.uniqueId
      · have hmem := (hm.claimed a.nodeName).2 ⟨k, j', hk, holds hk hc⟩
        unfold FlowTable.inProgress
        rw [Bool.or_eq_true]
        exact .inl (List.contains_iff_mem.2 hmem)
    have hstep : j.step s.hub =
        (j.enter (.done (.ok ⟨j.flowId, .abort .alreadyInProgress, none⟩)), s.hub) := by
      simp only [Job.step, hst, busy, if_true]
    refine ⟨by rw [hstep]; rfl, by rw [hstep], fun bs hl => ?_⟩
    obtain ⟨n, hn, hid⟩ := hs.known j.flowId (.inr (.inl ⟨i, j, hi, rfl, by rw [hst]; rfl⟩))
    have left : (s.step (.advance i)).Left j.flowId fun _ => False := by
      refine ⟨⟨n, Nat.lt_of_lt_of_le hn (drawn_le_step s _), hid⟩, ?_, ?_⟩
      · rw [registered_advance hi, if_pos rfl, hx.fresh i j a hi hst, hst]
        rfl
      · rintro k ⟨j', hk, hw⟩
        rw [getElem?_jobs_advance hi] at hk
        split at hk
        · cases hk
          rw [hstep] at hw
          cases hw.2
        · next hki =>
          exact hki (hs.single j.flowId k i j' j hk hi hw ⟨rfl, by rw [hst]; rfl⟩)
    exact (left.run bs (fun _ _ => False.elim) hl).registered

/-- A flow at rest was dropped, and a node is announced a second time while the first step for it
runs. -/
theorem one_discovery_each_kitchen :
    let s := (start (Hub.unused lockedNode)).run [.init .user none, .advance 0,
      .abort (.generated 0), .init .zeroconf (some kitchen), .advance 1,
      .init .zeroconf (some kitchen)]
    s.Pending "kitchen" (.generated 1) ∧ (∀ f, s.Pending "kitchen" f → f = .generated 1) ∧
      ∀ bs, ((s.step (.advance 2)).run bs).hub.supply.Lasts →
        ((s.step (.advance 2)).run bs).registered (.generated 2) = none := by
  intro s
  let h := Hub.unused lockedNode
  have spares : (start h).Spares [.init .user none, .advance 0, .abort (.generated 0),
      .init .zeroconf (some kitchen), .advance 1, .init .zeroconf (some kitchen)] := by
    refine spares_cons.2 ⟨nofun, spares_cons.2 ⟨nofun, spares_cons.2 ⟨?_, spares_cons.2 ⟨nofun,
      spares_cons.2 ⟨nofun, spares_cons.2 ⟨nofun, spares_nil _⟩⟩⟩⟩⟩⟩
    rintro f - - i ⟨j, hj, -, hw⟩
    have rest : ∀ j ∈ ((start h).run [.init .user none, .advance 0]).jobs,
        j.stage.isWorking = false := by decide +kernel
    cases (rest j (List.mem_of_getElem? hj)).symm.trans hw
  have lasts : s.hub.supply.Lasts := by unfold Supply.Lasts; decide +kernel
  obtain ⟨single, turned⟩ := one_discovery_each h _ lasts spares
  have running : s.Pending "kitchen" (.generated 1) := by
    have hm : s.Marked := marked_run h _
    obtain ⟨i, j, hj, hh⟩ := (hm.claimed "kitchen").1 (by decide +kernel)
    have own : ∀ j ∈ s.jobs, j.claimed = some "kitchen" → j.flowId = .generated 1 := by
      decide +kernel
    exact .inr ⟨i, j, hj, own j (List.mem_of_getElem? hj) hh.1, (hm.holds_iff hj _).1 hh⟩
  have second : s.jobs[2]? = some ⟨.generated 2, none, .claim kitchen⟩ := rfl
  have named : kitchen.nodeName = "kitchen" := by decide +kernel
  refine ⟨running, fun f hf => single _ f _ hf running, ?_⟩
  exact (turned 2 _ kitchen (.generated 1) second rfl (named ▸ running)).2.2

end Session

end HomeHub
