import HomeHub.Proofs.FlowManager.Orderly
import HomeHub.Proofs.FlowManager.Trail

/-!
# Sessions keep to the trails of their flows

`Session.Sound` ties the flows that wait and the calls that work on them to the trail of the flow.
Every session keeps it, so whatever is answered accounts for what was done before.
-/

namespace HomeHub

/-- Whatever was answered, the deeds before it account for. -/
def Answers (ds : List Deed) : Prop :=
  ∀ past r, past ++ [.answered (.ok r)] <+: ds → (trail past).Accounts r.result r.entry

theorem Answers.concat {ds : List Deed} {d : Deed} (h : Answers ds)
    (hd : ∀ r, d = .answered (.ok r) → (trail ds).Accounts r.result r.entry) :
    Answers (ds ++ [d]) := by
  intro past r hp
  rcases List.prefix_concat_iff.1 hp with heq | hp
  · obtain ⟨rfl, hlast⟩ := List.append_inj' heq rfl
    cases hlast
    exact hd r rfl
  · exact h past r hp

namespace Job

variable (j : Job) (h : Hub)

theorem act_ne_answered (r : Except HubError FlowResponse) : j.act? h ≠ some (.answered r) := by
  unfold act?
  split
  · exact nofun
  · exact nofun
  · exact nofun
  · cases (h.createEntry _).1 <;> exact nofun
  · cases (h.publish _ _ _).1 <;> exact nofun
  · exact nofun

theorem trail_deeds (ds : List Deed) : trail (ds ++ j.deeds h) = (trail ds).along j h := by
  rw [deeds, ← List.append_assoc, trail_append, trail_append]
  unfold reply?
  split
  · rfl
  · cases (j.step h).1.stage.settled? <;> rfl

theorem answers_deeds {ds : List Deed} (hds : Answers ds)
    (hr : ∀ r, j.stage.settled? = none → (j.step h).1.stage.settled? = some (.ok r) →
      ((trail ds).along j h).Accounts r.result r.entry) : Answers (ds ++ j.deeds h) := by
  have hact : Answers (ds ++ (j.act? h).toList) := by
    cases ha : j.act? h with
    | none => simpa using hds
    | some d => exact hds.concat fun r heq => absurd (heq ▸ ha) (act_ne_answered j h _)
  rw [deeds, ← List.append_assoc]
  unfold reply?
  split
  · simpa using hact
  · next hnone =>
    cases hset : (j.step h).1.stage.settled? with
    | none => simpa using hact
    | some r' =>
      refine hact.concat fun r heq => ?_
      cases heq
      rw [trail_append]
      exact hr r hnone hset

/-- A call that waits to be let in does not get to an answer other than an error at once. -/
theorem not_ok_of_rests (rests : j.stage.isWorking = false) (hopen : j.stage.settled? = none)
    (r : FlowResponse) : (j.step h).1.stage.settled? ≠ some (.ok r) := by
  obtain ⟨id, claimed, stage⟩ := j
  cases stage with
  | begin input =>
    simp only [step]
    split
    · intro heq; cases heq
    · split
      · intro heq; cases heq
      · exact Trail.settled_advance
  | unclaim r => cases hopen
  | done r => cases hopen
  | _ => cases rests

theorem stage_advance_eq_run {p q : Flow.Phase} (heq : (j.advance p).stage = .run q) : p = q := by
  unfold advance at heq
  split at heq
  · unfold settle at heq
    split at heq
    · cases heq
    · cases heq
    · cases heq
    · split at heq
      · unfold close at heq
        split at heq <;> cases heq
      · cases heq
  · cases heq
    rfl

end Job

/-- The password form leads to no request for a description. -/
theorem Flow.submit_ne_describe {f g : Flow} (hf : f.step = .authenticate) (input : Json) :
    f.submit input ≠ .describe g := by
  simp only [submit, hf]
  split
  · simp only [startAuthenticate]
    split <;> exact Phase.noConfusion
  · exact Phase.noConfusion

namespace Trail

variable {k : Trail}

/-- A flow that waits is not disturbed by a call that works on it, unless that asks for another
description while the flow waits for the password to the last one. -/
theorem Waits.along {f : Flow} (h : k.Waits f) (j : Job) (hub : Hub)
    (apart : ∀ g, j.stage = .run (.describe g) → f.step ≠ .authenticate) :
    (k.along j hub).Waits f := by
  by_cases hrun : ∃ p, j.stage = .run p
  · obtain ⟨p, hp⟩ := hrun
    have stays {host : Option String} (hh : k.KeepsHost host) (t : Target)
        (reply : Except ContactError DeviceInfo) : (k.after (.described t reply)).KeepsHost host := by
      intro a ha
      refine (hh a ha).imp_right fun hf => ?_
      show (k.failed || !reply.isOk) = true
      rw [hf, Bool.true_or]
    cases p with
    | describe g =>
      have hk : k.along j hub = k.after (.described g.describeTarget (hub.describe g.describeTarget).1) := by
        simp only [Trail.along, Job.act?, hp]
        rfl
      rw [hk]
      unfold Waits at h ⊢
      split at h
      · exact ⟨⟨h.1.password, h.1.uniqueId⟩, stays h.2 _ _⟩
      · exact ⟨⟨h.1.password, h.1.uniqueId⟩, stays h.2 _ _⟩
      · next hs => exact absurd hs (apart g hp)
    | login g t =>
      have hk : k.along j hub = k.after (.loggedIn t (hub.login t).1) := by
        simp only [Trail.along, Job.act?, hp]
        rfl
      rw [hk]
      unfold Waits at h ⊢
      split at h
      · exact ⟨⟨h.1.password, h.1.uniqueId⟩, h.2⟩
      · exact ⟨⟨h.1.password, h.1.uniqueId⟩, h.2⟩
      · obtain ⟨info, late, locked⟩ := h
        exact ⟨info, ⟨late.described, late.name, late.uniqueId, late.host⟩, locked⟩
    | _ =>
      have hk : k.along j hub = k := by
        simp only [Trail.along, Job.act?, hp]
        rfl
      rw [hk]
      exact h
  · rw [along_of_not_run hub fun p hp => hrun ⟨p, hp⟩]
    exact h

end Trail

namespace Session

variable {s t : Session} {f : Uuid}

/-- What is known of a flow and of the calls that work on it fits its trail. -/
structure Sound (s : Session) (f : Uuid) : Prop where
  flow : ∀ p, s.registered f = some p → (trail (s.deeds f)).Waits p.flow
  call : ∀ (i : Nat) (j : Job), s.jobs[i]? = some j → j.WorksOn f →
    (trail (s.deeds f)).Calls j.stage
  /-- A step of a flow that waits for the password asks for no description. -/
  apart : ∀ (i : Nat) (j : Job) g p, s.jobs[i]? = some j → j.WorksOn f →
    j.stage = .run (.describe g) → s.registered f = some p → p.flow.step ≠ .authenticate
  answers : Answers (s.deeds f)
  unstarted : (∀ d ∈ s.deeds f, d.isStart = false) → s.registered f = none ∧
    (∀ (i : Nat) (j : Job), s.jobs[i]? = some j → ¬ j.WorksOn f) ∧ trail (s.deeds f) = {}

/-- An action that nothing is noted of and that lets nobody work on the flow. -/
theorem Sound.congr (h : s.Sound f) (hd : t.deeds f = s.deeds f)
    (hr : ∀ p, t.registered f = some p → s.registered f = some p)
    (hj : ∀ (i : Nat) (j : Job), t.jobs[i]? = some j → j.WorksOn f → s.jobs[i]? = some j) :
    t.Sound f where
  flow p hp := hd ▸ h.flow p (hr p hp)
  call i j hi hw := hd ▸ h.call i j (hj i j hi hw) hw
  apart i j g p hi hw hg hp := h.apart i j g p (hj i j hi hw) hw hg (hr p hp)
  answers := hd ▸ h.answers
  unstarted hs := by
    rw [hd] at hs
    obtain ⟨hnone, hidle, htrail⟩ := h.unstarted hs
    refine ⟨Option.eq_none_iff_forall_ne_some.2 fun p hp => ?_, fun i j hi hw => ?_, hd ▸ htrail⟩
    · rw [hr p hp] at hnone
      cases hnone
    · exact hidle i j (hj i j hi hw) hw

theorem Sound.init (hs : s.Orderly) (h : s.Sound f) (source : Source)
    (announcement : Option Announcement)
    (lasts : (s.step (.init source announcement)).hub.supply.Lasts) :
    (s.step (.init source announcement)).Sound f := by
  have hdeeds := deeds_init (s := s) source announcement f
  have hjobs (k : Nat) (j : Job) (hk : (s.step (.init source announcement)).jobs[k]? = some j) :
      s.jobs[k]? = some j ∨ k = s.jobs.length ∧ j = (s.hub.initJob source announcement).1 :=
    getElem?_concat_cases hk
  have hid := flowId_initJob s.hub source announcement
  by_cases hf : f = .generated s.hub.supply.drawn
  · rw [if_pos hf] at hdeeds
    -- the identifier is fresh, so nothing was done for the flow yet
    obtain ⟨hnone, hidle, htrail⟩ : s.registered f = none ∧
        (∀ (i : Nat) (j : Job), s.jobs[i]? = some j → ¬ j.WorksOn f) ∧ trail (s.deeds f) = {} := by
      refine h.unstarted fun d hd => Bool.eq_false_iff.2 fun hst => ?_
      obtain ⟨n, hn, rfl⟩ := List.mem_map.1 hd
      obtain ⟨hlog, hflow⟩ := List.mem_filter.1 hn
      refine hs.not_knows lasts (.inr (.inr ⟨n, hlog, ?_, hst⟩))
      rw [← hf]
      simpa using hflow
    have htrail' : trail ((s.step (.init source announcement)).deeds f) =
        Trail.after {} (.started source announcement) := by rw [hdeeds, trail_concat, htrail]
    have hjob (i : Nat) (j : Job) (hi : (s.step (.init source announcement)).jobs[i]? = some j)
        (hw : j.WorksOn f) : j = (s.hub.initJob source announcement).1 :=
      (hjobs i j hi).elim (fun hi => absurd hw (hidle i j hi)) And.right
    constructor
    · intro p hp
      rw [registered_init, hnone] at hp
      cases hp
    · intro i j hi hw
      rw [htrail', hjob i j hi hw]
      cases source with
      | user => cases announcement <;> exact ⟨⟨⟨rfl, rfl⟩, nofun⟩, nofun⟩
      | zeroconf =>
        cases announcement with
        | none => trivial
        | some a => rfl
    · intro i j g p hi hw hg hp
      rw [registered_init, hnone] at hp
      cases hp
    · rw [hdeeds]
      refine h.answers.concat fun r heq => ?_
      cases heq
    · intro hall
      rw [hdeeds] at hall
      cases hall (.started source announcement) (by simp)
  · rw [if_neg hf] at hdeeds
    refine h.congr hdeeds (fun p hp => registered_init (s := s) source announcement f ▸ hp) ?_
    intro i j hi hw
    rcases hjobs i j hi with hi | ⟨-, rfl⟩
    · exact hi
    · exact absurd (hw.1.symm.trans hid) hf

/-- The step of a call that works on the flow. -/
theorem Sound.work (hs : s.Orderly) {i : Nat} {j : Job} (hj : s.jobs[i]? = some j)
    (h : s.Sound j.flowId) (working : j.stage.isWorking = true) :
    (s.step (.advance i)).Sound j.flowId := by
  have hreg := registered_advance hj j.flowId
  have hdeeds := deeds_advance hj j.flowId
  rw [if_pos rfl] at hreg hdeeds
  have htrail : trail ((s.step (.advance i)).deeds j.flowId) =
      (trail (s.deeds j.flowId)).along j s.hub := by rw [hdeeds, j.trail_deeds]
  have hcall := h.call i j hj ⟨rfl, working⟩
  -- nobody else works on the flow
  have hjobs (k : Nat) (j' : Job) (hk : (s.step (.advance i)).jobs[k]? = some j')
      (hw : j'.WorksOn j.flowId) : j' = (j.step s.hub).1 := by
    rw [getElem?_jobs_advance hj] at hk
    split at hk
    · cases hk; rfl
    · next hki => exact absurd (hs.single j.flowId k i j' j hk hj hw ⟨rfl, working⟩) hki
  have hwaits (p : InProgress) (hp : s.registered j.flowId = some p) :
      ((trail (s.deeds j.flowId)).along j s.hub).Waits p.flow :=
    (h.flow p hp).along j s.hub fun g hg => h.apart i j g p hj ⟨rfl, working⟩ hg hp
  constructor
  · intro p hp
    rw [htrail]
    rw [hreg] at hp
    by_cases hform : ∃ g form, j.stage = .register g form
    · obtain ⟨g, form, hst⟩ := hform
      rw [hst] at hp hcall
      cases hp
      rw [Trail.along_of_not_run s.hub fun p => by rw [hst]; exact Stage.noConfusion]
      exact hcall.1
    · obtain ⟨q, hq, hflow⟩ := j.stage.flow_of_onTable (fun g form hst => hform ⟨g, form, hst⟩) hp
      rw [hflow]
      exact hwaits q hq
  · intro k j' hk hw
    rw [htrail, hjobs k j' hk hw]
    exact Trail.calls_step working hcall s.hub
  · intro k j' g p hk hw hg
    rw [hjobs k j' hk hw] at hg
    exact absurd hg (j.not_describe_of_step s.hub working g)
  · rw [hdeeds]
    exact j.answers_deeds s.hub h.answers fun r _ hr => Trail.accounts_of_settled working hcall hr
  · intro hall
    rw [hdeeds] at hall
    have hidle := (h.unstarted fun d hd => hall d (List.mem_append_left _ hd)).2.1
    exact absurd ⟨rfl, working⟩ (hidle i j hj)

/-- The step of a call that does not work on the flow: it is turned away or let in, or it is over. -/
theorem Sound.enter (hs : s.Orderly) {i : Nat} {j : Job} (hj : s.jobs[i]? = some j)
    (h : s.Sound j.flowId) (rests : j.stage.isWorking = false) :
    (s.step (.advance i)).Sound j.flowId := by
  have hreg := registered_advance hj j.flowId
  have hdeeds := deeds_advance hj j.flowId
  rw [if_pos rfl] at hreg hdeeds
  have hnotrun (p : Flow.Phase) : j.stage ≠ .run p := by
    intro heq
    rw [heq] at rests
    cases rests
  have htrail : trail ((s.step (.advance i)).deeds j.flowId) = trail (s.deeds j.flowId) := by
    rw [hdeeds, j.trail_deeds, Trail.along_of_not_run s.hub hnotrun]
  have hget := getElem?_jobs_advance hj
  have hflow (p : InProgress) (hp : (s.step (.advance i)).registered j.flowId = some p) :
      ∃ q, s.registered j.flowId = some q ∧ p.flow = q.flow := by
    rw [hreg] at hp
    refine j.stage.flow_of_onTable (fun g form hst => ?_) hp
    rw [hst] at rests
    cases rests
  have hanswers : Answers ((s.step (.advance i)).deeds j.flowId) := by
    rw [hdeeds]
    refine j.answers_deeds s.hub h.answers fun r hopen hr => ?_
    exact absurd hr (j.not_ok_of_rests s.hub rests hopen r)
  have hunstarted (hall : ∀ d ∈ (s.step (.advance i)).deeds j.flowId, d.isStart = false) :
      s.registered j.flowId = none ∧
        (∀ (i : Nat) (j' : Job), s.jobs[i]? = some j' → ¬ j'.WorksOn j.flowId) ∧
        trail (s.deeds j.flowId) = {} := by
    rw [hdeeds] at hall
    exact h.unstarted fun d hd => hall d (List.mem_append_left _ hd)
  by_cases hlet : (j.step s.hub).1.stage.isWorking = true
  · -- the call is let in at an idle flow
    obtain hwork | ⟨input, p₀, hst, hp₀, hidle⟩ := j.working_of_step s.hub hlet
    · rw [hwork] at rests
      cases rests
    have hstep : (j.step s.hub).1 = j.advance (p₀.flow.submit input) := by
      simp only [Job.step, hst, hp₀, hidle, Bool.false_eq_true, if_false]
    have hjobs (k : Nat) (j' : Job) (hk : (s.step (.advance i)).jobs[k]? = some j')
        (hw : j'.WorksOn j.flowId) : j' = j.advance (p₀.flow.submit input) := by
      rw [hget] at hk
      split at hk
      · cases hk
        exact hstep
      · exact absurd hw (hs.idle j.flowId p₀ hp₀ hidle k j' hk)
    constructor
    · intro p hp
      obtain ⟨q, hq, heq⟩ := hflow p hp
      rw [htrail, heq]
      exact h.flow q hq
    · intro k j' hk hw
      rw [htrail, hjobs k j' hk hw]
      exact Trail.calls_advance j (Trail.runs_submit (h.flow p₀ hp₀) input)
    · intro k j' g p hk hw hg hp hauth
      obtain ⟨q, hq, heq⟩ := hflow p hp
      cases hp₀.symm.trans hq
      rw [hjobs k j' hk hw] at hg
      exact Flow.submit_ne_describe (heq ▸ hauth) input (j.stage_advance_eq_run hg)
    · exact hanswers
    · intro hall
      cases hp₀.symm.trans (hunstarted hall).1
  · -- nobody works on the flow that did not before
    have hold (k : Nat) (j' : Job) (hk : (s.step (.advance i)).jobs[k]? = some j')
        (hw : j'.WorksOn j.flowId) : s.jobs[k]? = some j' := by
      rw [hget] at hk
      split at hk
      · cases hk
        exact absurd hw.2 hlet
      · exact hk
    constructor
    · intro p hp
      obtain ⟨q, hq, heq⟩ := hflow p hp
      rw [htrail, heq]
      exact h.flow q hq
    · intro k j' hk hw
      rw [htrail]
      exact h.call k j' (hold k j' hk hw) hw
    · intro k j' g p hk hw hg hp
      obtain ⟨q, hq, heq⟩ := hflow p hp
      rw [heq]
      exact h.apart k j' g q (hold k j' hk hw) hw hg hq
    · exact hanswers
    · intro hall
      obtain ⟨hnone, hidle, hempty⟩ := hunstarted hall
      refine ⟨Option.eq_none_iff_forall_ne_some.2 fun p hp => ?_, fun k j' hk hw => ?_, ?_⟩
      · obtain ⟨q, hq, -⟩ := hflow p hp
        cases hq.symm.trans hnone
      · exact hidle k j' (hold k j' hk hw) hw
      · rw [htrail, hempty]

theorem Sound.step (hs : s.Orderly) (h : s.Sound f) (a : Action)
    (lasts : (s.step a).hub.supply.Lasts) : (s.step a).Sound f := by
  cases a with
  | init source announcement => exact h.init hs source announcement lasts
  | configure g input =>
    refine h.congr (deeds_of_notes_nil rfl f) (fun p hp => hp) fun i j hi hw => ?_
    rcases getElem?_concat_cases hi with hi | ⟨-, rfl⟩
    · exact hi
    · cases hw.2
  | advance i =>
    cases hj : s.jobs[i]? with
    | none => rw [step_advance_none hj]; exact h
    | some j =>
      by_cases hf : f = j.flowId
      · subst hf
        cases hw : j.stage.isWorking with
        | true => exact Sound.work hs hj h hw
        | false => exact Sound.enter hs hj h hw
      · have hdeeds := deeds_advance hj f
        have hreg := registered_advance hj f
        rw [if_neg hf] at hdeeds hreg
        refine h.congr hdeeds (fun p hp => hreg ▸ hp) fun k j' hk hw => ?_
        rw [getElem?_jobs_advance hj] at hk
        split at hk
        · cases hk
          exact absurd (hw.1.symm.trans (j.flowId_step s.hub)) hf
        · exact hk
  | abort g =>
    refine h.congr (deeds_of_notes_nil rfl f) (fun p hp => ?_) fun i j hi _ => hi
    rw [registered_abort] at hp
    split at hp
    · cases hp
    · exact hp
  | _ => exact h.congr (deeds_of_notes_nil rfl f) (fun _ hp => hp) fun _ _ hi _ => hi

theorem sound_start (h : Hub) (f : Uuid) : (start h).Sound f where
  flow _ hp := by cases hp
  call _ _ hi := by cases hi
  apart _ _ _ _ hi := by cases hi
  answers past r hp := by simp [deeds, start] at hp
  unstarted _ := ⟨rfl, (fun _ _ hi => by cases hi), rfl⟩

theorem sound_run (h : Hub) (as : List Action) (lasts : ((start h).run as).hub.supply.Lasts)
    (f : Uuid) : ((start h).run as).Sound f :=
  (run_induction (P := fun s => s.Orderly ∧ s.Sound f)
    (fun _ a hs hl => ⟨hs.1.step a hl, hs.2.step hs.1 a hl⟩) _
    ⟨orderly_start h, sound_start h f⟩ as lasts).2

/-- Whatever was answered accounts for what was done before. -/
theorem accounts_of_answered (h : Hub) (as : List Action) (f : Uuid) {k : Nat} {r : FlowResponse}
    (lasts : ((start h).run as).hub.supply.Lasts)
    (answered : (((start h).run as).deeds f)[k]? = some (.answered (.ok r))) :
    (trail ((((start h).run as).deeds f).take k)).Accounts r.result r.entry := by
  refine (sound_run h as lasts f).answers _ r ?_
  have htake := List.take_prefix (k + 1) (((start h).run as).deeds f)
  rwa [List.take_add_one, answered] at htake

end Session

end HomeHub
