import HomeHub.Proofs.FlowManager.Discovery

/-!
# The forms that a step may lead to

Whatever leads to a form also sets the step that the flow waits on. `Flow.Phase.Ends` says so of a
running step, together with the steps whose forms it may still lead to, and `Stage.Ends` of a call;
each phase and each stage keeps it. A call answers once (`Job.outcome?`), and it takes the source of
its flow from where the flow was started (`Job.source_of_step`).
-/

namespace HomeHub

/-! ### Running steps -/

namespace Flow

/-- The steps whose forms may come after the form of this one. -/
def Step.next : Step → List Step
  | .user | .discoveryConfirm => [.user, .authenticate]
  | .authenticate => [.authenticate]

namespace Phase

/-- If the phase leads to a form, it is the form of such a step, and the flow waits on that step. It
never finds its own flow in progress already. -/
def Ends (P : Step → Prop) : Phase → Prop
  | .describe _ | .described _ _ => P .user ∧ P .authenticate
  | .login _ _ | .loggedIn _ _ | .findMatch _ (.described _) => P .authenticate
  | .findMatch _ (.announced _) | .listKnown _ _ => P .discoveryConfirm
  | .update _ _ => True
  | .done f r => (∀ form, r = .ok (.form form) → f.step = form.step ∧ P form.step) ∧
      r ≠ .ok (.abort .alreadyInProgress)

variable {P : Step → Prop} (f : Flow)

theorem ends_error (err : HubError) : (Phase.done f (.error err)).Ends P := by
  constructor
  · rintro form ⟨⟩
  · rintro ⟨⟩

theorem ends_alreadyConfigured : (Phase.alreadyConfigured f).Ends P := by
  constructor
  · rintro form ⟨⟩
  · rintro ⟨⟩

theorem ends_create : f.create.Ends P := by
  unfold create
  split
  · constructor
    · rintro form ⟨⟩
    · rintro ⟨⟩
  · exact ends_error f _

theorem ends_shown {f : Flow} {form : Form} (hstep : f.step = form.step) (h : P form.step) :
    (Phase.shown (f, .form form)).Ends P := by
  constructor
  · rintro _ ⟨⟩
    exact ⟨hstep, h⟩
  · rintro ⟨⟩

theorem ends_showUser (error : Option FormError) (h : P .user) :
    (Phase.shown (f.showUser error)).Ends P := ends_shown rfl h

theorem ends_showConfirm (h : P .discoveryConfirm) : (Phase.shown f.showConfirm).Ends P :=
  ends_shown rfl h

theorem ends_showAuthenticate (error : Option FormError) (h : P .authenticate) :
    (Phase.shown (f.showAuthenticate error)).Ends P := ends_shown rfl h

theorem ends_proceed {g : Ground} (h : (Phase.findMatch f g).Ends P) : (proceed f g).Ends P := by
  cases g with
  | announced a => exact h
  | described info =>
    simp only [proceed]
    split
    · exact ends_showAuthenticate f none h
    · exact ends_create f

theorem ends_checkMatch (g : Ground) (h : (Phase.findMatch f g).Ends P) :
    (checkMatch f g).Ends P := by
  unfold checkMatch
  split
  · exact h
  · exact ends_proceed f h

theorem ends_afterDescription (reply : Except ContactError DeviceInfo)
    (h : P .user ∧ P .authenticate) : (afterDescription f reply).Ends P := by
  cases reply with
  | error err => exact ends_showUser f _ h.1
  | ok info =>
    simp only [afterDescription]
    exact ends_checkMatch _ (.described info) h.2

theorem ends_afterMatch {g : Ground} (e : Option Entry) (h : (Phase.findMatch f g).Ends P) :
    (afterMatch f g e).Ends P := by
  cases e with
  | none => exact ends_proceed f h
  | some e =>
    simp only [afterMatch]
    split
    · exact ends_alreadyConfigured f
    · trivial

theorem ends_afterKnown (a : Announcement) (e : Option Entry) (h : P .discoveryConfirm) :
    (afterKnown f a e).Ends P := by
  cases e with
  | none => exact ends_showConfirm _ h
  | some e =>
    simp only [afterKnown]
    split
    · exact ends_alreadyConfigured f
    · trivial

theorem ends_step {p : Phase} (h : p.Ends P) (hub : Hub) : (p.step hub).1.Ends P := by
  cases p with
  | described f reply => exact ends_afterDescription f reply h
  | loggedIn f reply =>
    cases reply with
    | error err => exact ends_showAuthenticate f _ h
    | ok u => exact ends_create f
  | findMatch f g =>
    simp only [step]
    split
    · exact ends_error f _
    · exact ends_afterMatch f _ h
  | update f e =>
    simp only [step]
    split
    · exact ends_error f _
    · exact ends_alreadyConfigured f
  | listKnown f a =>
    simp only [step]
    split
    · exact ends_error f _
    · exact ends_afterKnown f a _ h
  | _ => exact h

/-- Whatever is submitted leads at most to the forms that may come next. -/
theorem ends_submit (input : Json) (h : ∀ next ∈ f.step.next, P next) :
    (f.submit input).Ends P := by
  unfold submit
  cases hstep : f.step with
  | user =>
    rw [hstep] at h
    dsimp only
    split
    · simp only [startUser]
      split
      · exact ends_error f _
      · exact ⟨h .user (by decide), h .authenticate (by decide)⟩
    · exact ends_error f _
  | discoveryConfirm =>
    rw [hstep] at h
    exact ⟨h .user (by decide), h .authenticate (by decide)⟩
  | authenticate =>
    rw [hstep] at h
    dsimp only
    split
    · simp only [startAuthenticate]
      split
      · exact ends_error f _
      · exact h .authenticate (by decide)
    · exact ends_error f _

end Phase

end Flow

/-! ### Running calls -/

/-- If the call leads to a form, it is the form of such a step, and the flow gets registered at that
step. Only a call that is still to claim a name may find a flow in progress already. -/
def Stage.Ends (P : Flow.Step → Prop) : Stage → Prop
  | .claim _ => P .discoveryConfirm
  | .run p => p.Ends P
  | .register f result => ∃ form, result = .form form ∧ f.step = form.step ∧ P form.step
  | .finish result _ => result.isFinished = true ∧ result ≠ .abort .alreadyInProgress
  | _ => True

/-- How the flow of a call was started, as long as the call works on it. -/
def Stage.source? : Stage → Option Source
  | .claim _ => some .zeroconf
  | s => s.flow?.map (·.source)

/-- The outcome that the deed answers. -/
def Deed.success? : Deed → Option Flow.Result
  | .answered (.ok r) => some r.result
  | _ => none

namespace Job

variable {P : Flow.Step → Prop} (j : Job) {h : Hub}

theorem ends_close (r : Except HubError FlowResponse) : (j.close r).stage.Ends P := by
  unfold close
  split <;> trivial

theorem ends_advance {p : Flow.Phase} (hp : p.Ends P) : (j.advance p).stage.Ends P := by
  unfold advance
  split
  · unfold settle
    split
    · next form => exact ⟨form, rfl, hp.1 form rfl⟩
    · trivial
    · next reason => exact ⟨rfl, fun heq => hp.2 (congrArg Except.ok heq)⟩
    · split
      · exact ends_close j _
      · trivial
  · exact hp

variable {j}

theorem ends_step (working : j.stage.isWorking = true) (hj : j.stage.Ends P) (h : Hub) :
    (j.step h).1.stage.Ends P := by
  obtain ⟨id, claimed, stage⟩ := j
  cases stage with
  | begin input => cases working
  | claim a =>
    simp only [step]
    split
    · trivial
    · exact ends_advance _ (Flow.Phase.ends_checkMatch _ (.announced a) hj)
  | run p => exact ends_advance _ (Flow.Phase.ends_step hj h)
  | check n =>
    simp only [step]
    split
    · trivial
    · exact ⟨rfl, by rintro ⟨⟩⟩
    · split <;> trivial
  | store n e => simp only [step]; split <;> trivial
  | recheck n err =>
    simp only [step]
    split
    · trivial
    · exact ⟨rfl, by rintro ⟨⟩⟩
    · trivial
  | announce n e => exact ⟨rfl, by rintro ⟨⟩⟩
  | unclaim r => trivial
  | done r => trivial
  | _ => exact ends_close _ _

/-- The outcome that the next thing that a call does answers. -/
def outcome? (j : Job) (h : Hub) : Option Flow.Result :=
  match j.stage with
  | .claim a => if h.flows.inProgress a.nodeName then some (.abort .alreadyInProgress) else none
  | .register _ form => some form
  | .finish result _ => some result
  | _ => none

/-- A call that goes on with its step has answered nothing yet but a failure. -/
theorem success_advance (j : Job) (p : Flow.Phase) :
    ((j.advance p).stage.settled?.map Deed.answered).bind Deed.success? = none := by
  cases hr : (j.advance p).stage.settled? with
  | none => rfl
  | some r =>
    cases r with
    | error err => rfl
    | ok r => exact absurd hr Trail.settled_advance

theorem success_close (j : Job) (r : Except HubError FlowResponse) :
    ((j.close r).stage.settled?.map Deed.answered).bind Deed.success? =
      (Deed.answered r).success? := by
  rw [Trail.settled_close]
  rfl

theorem success_step {j : Job} {h : Hub} (running : j.stage.settled? = none) :
    ((j.step h).1.stage.settled?.map Deed.answered).bind Deed.success? = j.outcome? h := by
  obtain ⟨id, claimed, stage⟩ := j
  cases stage with
  | claim a =>
    simp only [step, outcome?]
    split
    · rfl
    · exact success_advance _ _
  | begin input =>
    simp only [step]
    split
    · rfl
    · split
      · rfl
      · exact success_advance _ _
  | run p => exact success_advance _ _
  | register f form => exact success_close _ _
  | finish result entry => exact success_close _ _
  | release err => exact success_close _ _
  | check n =>
    simp only [step]
    split
    · rfl
    · rfl
    · split <;> rfl
  | store n e => simp only [step]; split <;> rfl
  | recheck n err => simp only [step]; split <;> rfl
  | announce n e => rfl
  | unclaim r => cases running
  | done r => cases running

theorem success?_reply? (j : Job) (h : Hub) : (j.reply? h).bind Deed.success? = j.outcome? h := by
  unfold reply?
  split
  · next r hr =>
    unfold outcome?
    split
    · next hst => rw [hst] at hr; cases hr
    · next hst => rw [hst] at hr; cases hr
    · next hst => rw [hst] at hr; cases hr
    · rfl
  · next hr => exact success_step hr

theorem filterMap_deeds (j : Job) (h : Hub) :
    (j.deeds h).filterMap Deed.success? = (j.outcome? h).toList := by
  have silent : (j.act? h).bind Deed.success? = none := by
    refine Option.bind_eq_none_iff.2 fun d hd => ?_
    cases d with
    | answered r => exact absurd hd (j.act_ne_answered h r)
    | _ => rfl
  have toList (d : Option Deed) :
      d.toList.filterMap Deed.success? = (d.bind Deed.success?).toList := by
    cases d with
    | none => rfl
    | some d =>
      simp only [Option.toList, List.filterMap_cons, List.filterMap_nil, Option.bind_some]
      cases d.success? <;> rfl
  rw [deeds, List.filterMap_append, toList, toList, silent, success?_reply?]
  rfl

/-- A call knows how its flow was started from its own stage before, or from the registered flow. -/
theorem source_of_step {j : Job} {h : Hub} {source : Source}
    (hs : (j.step h).1.stage.source? = some source) :
    (j.stage.isWorking = true ∧ j.stage.source? = some source) ∨
      ∃ p, h.flows.flows.get? j.flowId = some p ∧ p.flow.source = source := by
  have known : ∃ f, (j.step h).1.stage.flow? = some f ∧ f.source = source := by
    unfold Stage.source? at hs
    split at hs
    · next a hst => exact absurd hst (j.not_claim_of_step h a)
    · exact Option.map_eq_some_iff.1 hs
  obtain ⟨f, hf, rfl⟩ := known
  rcases flow?_step hf with ⟨a, hst, -, hfor⟩ | ⟨input, p, -, hp, onward⟩ | ⟨p, hst, onward⟩
  · exact .inl (by rw [hst, hfor.source]; exact ⟨rfl, rfl⟩)
  · exact .inr ⟨p, hp, onward.source.symm⟩
  · exact .inl (by rw [hst, onward.source]; exact ⟨rfl, rfl⟩)

end Job

end HomeHub
