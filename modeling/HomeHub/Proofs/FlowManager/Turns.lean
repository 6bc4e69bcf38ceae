import HomeHub.Proofs.FlowManager.Forms
import HomeHub.Proofs.Json.Record
import HomeHub.Proofs.Lists
import Mathlib.Data.List.Chain

/-!
# Calls one after the other

Where a flow stands is kept twice: a flow knows the step that it waits on, and beside it stands the
form that was shown last. In every session that drops no flow in the middle of a step the two agree
with each other and with what was answered last (`Session.Shows`). As long as no call begins before
the last one is over, the registered flows are those whose last answer was a form and that were not
dropped: `Session.registered_iff_form`.
-/

namespace HomeHub

/-- Whether the action calls the flow manager. -/
def Action.isCall : Action → Bool
  | .advance _ | .nodes _ | .elsewhere _ => false
  | _ => true

namespace Session

/-- What the calls about a flow have answered, failures left out. -/
def answers (s : Session) (f : Uuid) : List Flow.Result := (s.deeds f).filterMap Deed.success?

/-- The steps whose forms were shown. -/
def shownSteps (s : Session) (f : Uuid) : List Flow.Step :=
  (s.answers f).filterMap Flow.Result.step?

/-- How the flow was started. -/
def origins (s : Session) (f : Uuid) : List Deed := (s.deeds f).filter Deed.isStart

/-- The run drops the flow. -/
def Drops (s : Session) (as : List Action) (f : Uuid) : Prop :=
  ∃ bs cs, as = bs ++ .abort f :: cs ∧ ((s.run bs).hub.abortFlow f).1 = .ok ()

/-- The registered flow, or a call that works on it, has this source. -/
def Bears (s : Session) (f : Uuid) (source : Source) : Prop :=
  (∃ p, s.registered f = some p ∧ p.flow.source = source) ∨
    ∃ (i : Nat) (j : Job), s.jobs[i]? = some j ∧ j.WorksOn f ∧ j.stage.source? = some source

/-- The form of this step may be the next one that is shown. -/
def MayShow (s : Session) (f : Uuid) (next : Flow.Step) : Prop :=
  ∀ last ∈ (s.shownSteps f).getLast?, next ∈ last.next

/-- What is registered of a flow agrees with what was answered last. -/
structure Shows (s : Session) (f : Uuid) (dropped : Prop) : Prop where
  flow : ∀ p, s.registered f = some p → ¬ dropped ∧ ∃ form, p.last = .form form ∧
    p.flow.step = form.step ∧ (s.answers f).getLast? = some (.form form)
  gone : s.registered f = none → ¬ dropped → ∀ form, (s.answers f).getLast? ≠ some (.form form)
  call : ∀ (i : Nat) (j : Job), s.jobs[i]? = some j → j.WorksOn f →
    ¬ dropped ∧ s.origins f ≠ [] ∧ j.stage.Ends (s.MayShow f)
  moves : (s.shownSteps f).IsChain fun last next => next ∈ last.next
  started : ∀ source, s.Bears f source →
    ∃ announcement, s.origins f = [.started source announcement]
  unstarted : s.origins f = [] → ¬ dropped ∧ s.answers f = []

variable {s t : Session} {f : Uuid} {dropped : Prop} {as : List Action}

theorem shownSteps_getLast? {form : Flow.Form}
    (h : (s.answers f).getLast? = some (.form form)) :
    (s.shownSteps f).getLast? = some form.step := by
  obtain ⟨before, heq⟩ := List.getLast?_eq_some_iff.1 h
  rw [shownSteps, heq, List.filterMap_append]
  exact List.getLast?_concat

/-! ### What an action adds -/

theorem answers_advance {i : Nat} {j : Job} (hj : s.jobs[i]? = some j) (f : Uuid) :
    (s.step (.advance i)).answers f =
      if f = j.flowId then s.answers f ++ (j.outcome? s.hub).toList else s.answers f := by
  rw [answers, deeds_advance hj]
  split
  · rw [List.filterMap_append, Job.filterMap_deeds]
    rfl
  · rfl

theorem origins_advance {i : Nat} {j : Job} (hj : s.jobs[i]? = some j) (f : Uuid) :
    (s.step (.advance i)).origins f = s.origins f := by
  rw [origins, deeds_advance hj]
  split
  · have none_starts : (j.deeds s.hub).filter Deed.isStart = [] := by
      refine List.filter_eq_nil_iff.2 fun d hd => ?_
      rw [Job.not_isStart_of_mem_deeds hd]
      exact Bool.false_ne_true
    rw [List.filter_append, none_starts, List.append_nil]
    rfl
  · rfl

theorem answers_init (source : Source) (announcement : Option Announcement) (f : Uuid) :
    (s.step (.init source announcement)).answers f = s.answers f := by
  rw [answers, deeds_init]
  split
  · rw [List.filterMap_append]
    exact List.append_nil _
  · rfl

theorem origins_init (source : Source) (announcement : Option Announcement) (f : Uuid) :
    (s.step (.init source announcement)).origins f =
      if f = .generated s.hub.supply.drawn then s.origins f ++ [.started source announcement]
      else s.origins f := by
  rw [origins, deeds_init]
  split
  · rw [List.filter_append]
    rfl
  · rfl

theorem drops_concat {a : Action} :
    s.Drops (as ++ [a]) f ↔ s.Drops as f ∨ a = .abort f ∧ ((s.run as).registered f).isSome := by
  unfold Drops
  simp only [append_singleton_eq_append_cons_iff]
  constructor
  · rintro ⟨bs, cs, ⟨rfl, rfl, -⟩ | ⟨cs, -, rfl⟩, hok⟩
    · exact .inr ⟨rfl, abortFlow_ok_iff.1 hok⟩
    · exact .inl ⟨bs, cs, rfl, hok⟩
  · rintro (⟨bs, cs, rfl, hok⟩ | ⟨rfl, hreg⟩)
    · exact ⟨bs, cs ++ [a], .inr ⟨cs, rfl, rfl⟩, hok⟩
    · exact ⟨as, [], .inl ⟨rfl, rfl, rfl⟩, abortFlow_ok_iff.2 hreg⟩

/-! ### Single actions -/

theorem Shows.origins_ne_nil (hw : s.Shows f dropped) {p : InProgress}
    (hp : s.registered f = some p) : s.origins f ≠ [] := by
  obtain ⟨a, ha⟩ := hw.started p.flow.source (.inl ⟨p, hp, rfl⟩)
  rw [ha]
  exact List.cons_ne_nil _ _

/-- An action that answers nothing about the flow. -/
theorem Shows.congr (hw : s.Shows f dropped)
    (hr : (t.registered f).map (fun p => (p.flow, p.last)) =
      (s.registered f).map fun p => (p.flow, p.last))
    (ha : t.answers f = s.answers f) (hst : t.origins f = s.origins f)
    (hc : ∀ (i : Nat) (j : Job), t.jobs[i]? = some j → j.WorksOn f →
      ¬ dropped ∧ s.origins f ≠ [] ∧ j.stage.Ends (s.MayShow f))
    (hb : ∀ source, t.Bears f source → s.Bears f source) : t.Shows f dropped := by
  have steps : t.shownSteps f = s.shownSteps f := congrArg (List.filterMap Flow.Result.step?) ha
  have may : t.MayShow f = s.MayShow f := by
    funext next
    unfold MayShow
    rw [steps]
  refine ⟨fun p hp => ?_, fun hnone => ?_, hst ▸ may ▸ hc, steps ▸ hw.moves, fun source hs => ?_,
    fun hnil => ?_⟩
  · rw [hp, Option.map_some] at hr
    obtain ⟨q, hq, heq⟩ := Option.map_eq_some_iff.1 hr.symm
    obtain ⟨hflow, hlast⟩ := Prod.mk.inj heq
    rw [← hflow, ← hlast, ha]
    exact hw.flow q hq
  · rw [hnone, Option.map_none] at hr
    rw [ha]
    exact hw.gone (Option.map_eq_none_iff.1 hr.symm)
  · rw [hst]
    exact hw.started source (hb source hs)
  · rw [ha]
    exact hw.unstarted (hst ▸ hnil)

/-- An action that answers something about the flow and ends the call that worked on it. -/
theorem Shows.answer (hw : s.Shows f dropped) {r : Flow.Result}
    (ha : t.answers f = s.answers f ++ [r]) (hst : t.origins f = s.origins f)
    (hstarted : s.origins f ≠ [])
    (hc : ∀ (i : Nat) (j : Job), t.jobs[i]? = some j → ¬ j.WorksOn f)
    (hb : ∀ source, t.Bears f source → s.Bears f source)
    (hr : (∃ form p, r = .form form ∧ ¬ dropped ∧ s.MayShow f form.step ∧ t.registered f = some p ∧
        p.last = r ∧ p.flow.step = form.step) ∨
      r.isFinished = true ∧ t.registered f = none) : t.Shows f dropped := by
  have last : (t.answers f).getLast? = some r := by rw [ha]; exact List.getLast?_concat
  refine ⟨?_, ?_, fun i j hi hj => absurd hj (hc i j hi), ?_, fun source hs => ?_, fun hnil => ?_⟩
  · intro p hp
    rcases hr with ⟨form, q, rfl, hkept, -, hq, hform, hstep⟩ | ⟨-, hnone⟩
    · cases hp.symm.trans hq
      exact ⟨hkept, form, hform, hstep, last⟩
    · cases hp.symm.trans hnone
  · intro hnone _ form hform
    rcases hr with ⟨form, q, -, -, -, hq, -⟩ | ⟨hfin, -⟩
    · cases hq.symm.trans hnone
    · rw [last] at hform
      cases hform
      cases hfin
  · have steps : t.shownSteps f = s.shownSteps f ++ r.step?.toList := by
      rw [shownSteps, ha, List.filterMap_append]
      cases r <;> rfl
    rw [steps]
    rcases hr with ⟨form, q, rfl, -, hmay, -⟩ | ⟨hfin, -⟩
    · refine hw.moves.append (.singleton _) fun last hlast next hnext => ?_
      cases hnext
      exact hmay last hlast
    · have silent : r.step? = none := by cases r <;> first | rfl | cases hfin
      rw [silent, Option.toList_none, List.append_nil]
      exact hw.moves
  · rw [hst]
    exact hw.started source (hb source hs)
  · exact absurd (hst ▸ hnil) hstarted

/-- The flow that is started is new, so nothing was done for it yet. -/
theorem Shows.init_new (hs : s.Orderly) (source : Source) (announcement : Option Announcement)
    (lasts : (s.step (.init source announcement)).hub.supply.Lasts)
    (hw : s.Shows (.generated s.hub.supply.drawn) dropped) :
    (s.step (.init source announcement)).Shows (.generated s.hub.supply.drawn) dropped := by
  generalize hf : Uuid.generated s.hub.supply.drawn = f at hw
  generalize ht : s.step (.init source announcement) = t
  have fresh : ¬ s.Knows f := hf ▸ hs.not_knows lasts
  have hnil : s.origins f = [] := by
    refine List.filter_eq_nil_iff.2 fun d hd hst => ?_
    obtain ⟨n, hn, rfl⟩ := List.mem_map.1 hd
    obtain ⟨hlog, hflow⟩ := List.mem_filter.1 hn
    exact fresh (.inr (.inr ⟨n, hlog, by simpa using hflow, hst⟩))
  obtain ⟨kept, hempty⟩ := hw.unstarted hnil
  have hnone : t.registered f = none := by
    rw [← ht, registered_init]
    exact Option.not_isSome_iff_eq_none.1 fun hr => fresh (.inl hr)
  have hans : t.answers f = [] := by rw [← ht, answers_init, hempty]
  have horigins : t.origins f = [.started source announcement] := by
    rw [← ht, origins_init, if_pos hf.symm, hnil]
    rfl
  have hjob (i : Nat) (j : Job) (hi : t.jobs[i]? = some j) (hj : j.WorksOn f) :
      j = (s.hub.initJob source announcement).1 := by
    rcases getElem?_concat_cases (ht ▸ hi) with hi | ⟨-, rfl⟩
    · exact absurd (.inr (.inl ⟨i, j, hi, hj⟩)) fresh
    · rfl
  have unshown : t.shownSteps f = [] := by rw [shownSteps, hans]; rfl
  have may (next : Flow.Step) : t.MayShow f next := by
    intro last hlast
    rw [unshown] at hlast
    cases hlast
  constructor
  · intro p hp
    cases hnone.symm.trans hp
  · intro _ _ form
    rw [hans]
    exact nofun
  · intro i j hi hj
    refine ⟨kept, by rw [horigins]; exact List.cons_ne_nil _ _, ?_⟩
    rw [hjob i j hi hj]
    cases source with
    | user => exact ⟨_, rfl, rfl, may _⟩
    | zeroconf =>
      cases announcement with
      | none => trivial
      | some a => exact may _
  · rw [unshown]
    exact .nil
  · rintro source' (⟨p, hp, -⟩ | ⟨i, j, hi, hj, hsource⟩)
    · cases hnone.symm.trans hp
    · refine ⟨announcement, ?_⟩
      rw [hjob i j hi hj] at hsource
      rw [horigins]
      cases source with
      | user => cases hsource; rfl
      | zeroconf => cases announcement <;> cases hsource; rfl
  · intro habsurd
    rw [horigins] at habsurd
    cases habsurd

theorem Shows.init (hs : s.Orderly) (hw : s.Shows f dropped) (source : Source)
    (announcement : Option Announcement)
    (lasts : (s.step (.init source announcement)).hub.supply.Lasts) :
    (s.step (.init source announcement)).Shows f dropped := by
  by_cases hf : f = .generated s.hub.supply.drawn
  · subst hf
    exact Shows.init_new hs source announcement lasts hw
  -- the call that is made works on another flow
  have hreg := registered_init (s := s) source announcement f
  have hold (k : Nat) (j : Job) (hk : (s.step (.init source announcement)).jobs[k]? = some j)
      (hj : j.WorksOn f) : s.jobs[k]? = some j := by
    rcases getElem?_concat_cases hk with hk | ⟨-, rfl⟩
    · exact hk
    · exact absurd (hj.1.symm.trans (flowId_initJob s.hub source announcement)) hf
  refine hw.congr (congrArg _ hreg) (answers_init source announcement f) ?_
    (fun i j hi hj => hw.call i j (hold i j hi hj) hj) ?_
  · rw [origins_init, if_neg hf]
  · rintro source' (⟨p, hp, hsource⟩ | ⟨i, j, hi, hj, hsource⟩)
    · exact .inl ⟨p, hreg ▸ hp, hsource⟩
    · exact .inr ⟨i, j, hold i j hi hj, hj, hsource⟩

/-- A call that is made works on nothing yet. -/
theorem Shows.configure (hw : s.Shows f dropped) (g : Uuid) (input : Json) :
    (s.step (.configure g input)).Shows f dropped := by
  have hold (k : Nat) (j : Job) (hk : (s.step (.configure g input)).jobs[k]? = some j)
      (hj : j.WorksOn f) : s.jobs[k]? = some j := by
    rcases getElem?_concat_cases hk with hk | ⟨-, rfl⟩
    · exact hk
    · cases hj.2
  have quiet := deeds_of_notes_nil (s := s) (a := .configure g input) rfl f
  refine hw.congr rfl (congrArg _ quiet) (congrArg _ quiet)
    (fun i j hi hj => hw.call i j (hold i j hi hj) hj) ?_
  rintro source (hreg | ⟨i, j, hi, hj, hsource⟩)
  · exact .inl hreg
  · exact .inr ⟨i, j, hold i j hi hj, hj, hsource⟩

/-- Dropping a flow that no call works on. -/
theorem Shows.abort (hw : s.Shows f dropped) (g : Uuid)
    (spared : (s.registered g).isSome → ∀ i, ¬ s.Engaged g i) :
    (s.step (.abort g)).Shows f (dropped ∨ g = f ∧ (s.registered f).isSome) := by
  have quiet := deeds_of_notes_nil (s := s) (a := .abort g) rfl f
  have hans : (s.step (.abort g)).answers f = s.answers f := congrArg _ quiet
  have hst : (s.step (.abort g)).origins f = s.origins f := congrArg _ quiet
  have hreg := registered_abort (s := s) g f
  by_cases hg : g = f ∧ (s.registered f).isSome
  · obtain ⟨rfl, hsome⟩ := hg
    rw [if_pos rfl] at hreg
    have idle (i : Nat) (j : Job) (hi : s.jobs[i]? = some j) : ¬ j.WorksOn g :=
      fun hj => spared hsome i ⟨j, hi, hj⟩
    obtain ⟨p, hp⟩ := Option.isSome_iff_exists.1 hsome
    have began := hw.origins_ne_nil hp
    constructor
    · intro p hp
      rw [hreg] at hp
      cases hp
    · exact fun _ kept => absurd (.inr ⟨rfl, hsome⟩) kept
    · exact fun i j hi hj => absurd hj (idle i j hi)
    · rw [shownSteps, hans]
      exact hw.moves
    · rintro source (⟨p, hp, -⟩ | ⟨i, j, hi, hj, -⟩)
      · rw [hreg] at hp
        cases hp
      · exact absurd hj (idle i j hi)
    · exact fun hnil => absurd (hst ▸ hnil) began
  · have same : (s.step (.abort g)).registered f = s.registered f := by
      rw [hreg]
      split
      · next hfg =>
        subst hfg
        exact (Option.not_isSome_iff_eq_none.1 fun hsome => hg ⟨rfl, hsome⟩).symm
      · rfl
    rw [or_iff_left hg]
    refine hw.congr (congrArg _ same) hans hst hw.call ?_
    rintro source (⟨p, hp, hsource⟩ | hcall)
    · exact .inl ⟨p, same ▸ hp, hsource⟩
    · exact .inr hcall

section Advance

variable {i : Nat} {j : Job}

theorem bears_advance (hj : s.jobs[i]? = some j) {source : Source}
    (hb : (s.step (.advance i)).Bears f source) : s.Bears f source := by
  rcases hb with ⟨p, hp, hsource⟩ | ⟨k, j', hk, hw, hsource⟩
  · rcases registered_before hj hp with ⟨q, hq, hflow⟩ | ⟨hf, form, hst⟩
    · exact .inl ⟨q, hq, hflow ▸ hsource⟩
    · refine .inr ⟨i, j, hj, ⟨hf.symm, by rw [hst]; rfl⟩, ?_⟩
      rw [hst, ← hsource]
      rfl
  · rw [getElem?_jobs_advance hj] at hk
    split at hk
    · cases hk
      have hf : j.flowId = f := (j.flowId_step s.hub).symm.trans hw.1
      subst hf
      rcases Job.source_of_step hsource with ⟨working, hold⟩ | ⟨p, hp, hold⟩
      · exact .inr ⟨i, j, hj, ⟨rfl, working⟩, hold⟩
      · exact .inl ⟨p, hp, hold⟩
    · exact .inr ⟨k, j', hk, hw, hsource⟩

/-- The call is let in to a flow that waits, or it is turned away, or it is over. -/
theorem Shows.enter (hj : s.jobs[i]? = some j) (hw : s.Shows j.flowId dropped)
    (rests : j.stage.isWorking = false) : (s.step (.advance i)).Shows j.flowId dropped := by
  have hreg := registered_advance hj j.flowId
  have hans := answers_advance hj j.flowId
  rw [if_pos rfl] at hreg hans
  have silent : j.outcome? s.hub = none := by
    unfold Job.outcome?
    cases hst : j.stage <;> first | rfl | (rw [hst] at rests; cases rests)
  rw [silent, Option.toList_none, List.append_nil] at hans
  refine hw.congr ?_ hans (origins_advance hj _) ?_ fun source => bears_advance hj
  · rw [hreg]
    cases hst : j.stage with
    | begin input => rw [Stage.onTable, Option.map_map]; rfl
    | unclaim r => rfl
    | done r => rfl
    | _ => rw [hst] at rests; cases rests
  · intro k j' hk hj'
    rw [getElem?_jobs_advance hj] at hk
    split at hk
    · cases hk
      obtain hwork | ⟨input, p, hst, hp, idle⟩ := j.working_of_step s.hub hj'.2
      · cases rests.symm.trans hwork
      obtain ⟨kept, form, -, hstep, hlast⟩ := hw.flow p hp
      have hadvance : (j.step s.hub).1 = j.advance (p.flow.submit input) := by
        simp only [Job.step, hst, hp, idle, Bool.false_eq_true, if_false]
      refine ⟨kept, hw.origins_ne_nil hp, ?_⟩
      rw [hadvance]
      refine Job.ends_advance j (Flow.Phase.ends_submit p.flow input fun next hnext last hl => ?_)
      cases (shownSteps_getLast? hlast).symm.trans hl
      exact hstep ▸ hnext
    · exact hw.call k j' hk hj'

/-- The step of a call that works on the flow. -/
theorem Shows.work (hs : s.Orderly) (hj : s.jobs[i]? = some j) (hw : s.Shows j.flowId dropped)
    (working : j.stage.isWorking = true)
    (fresh : ∀ a, j.stage = .claim a → s.registered j.flowId = none) :
    (s.step (.advance i)).Shows j.flowId dropped := by
  obtain ⟨kept, began, ends⟩ := hw.call i j hj ⟨rfl, working⟩
  have hreg := registered_advance hj j.flowId
  have hans := answers_advance hj j.flowId
  rw [if_pos rfl] at hreg hans
  have horigins := origins_advance hj j.flowId
  have hbears (source : Source) (hb : (s.step (.advance i)).Bears j.flowId source) :
      s.Bears j.flowId source := bears_advance hj hb
  -- nobody else works on the flow
  have hjobs (k : Nat) (j' : Job) (hk : (s.step (.advance i)).jobs[k]? = some j')
      (hj' : j'.WorksOn j.flowId) : j' = (j.step s.hub).1 := by
    rw [getElem?_jobs_advance hj] at hk
    split at hk
    · cases hk; rfl
    · next hki => exact absurd (hs.single j.flowId k i j' j hk hj hj' ⟨rfl, working⟩) hki
  have ended (stopped : (j.step s.hub).1.stage.isWorking = false) (k : Nat) (j' : Job)
      (hk : (s.step (.advance i)).jobs[k]? = some j') : ¬ j'.WorksOn j.flowId := by
    intro hj'
    have working' := hj'.2
    rw [hjobs k j' hk hj', stopped] at working'
    cases working'
  -- a step that answers nothing goes on, and the flow stays as it is
  have goes (silent : j.outcome? s.hub = none)
      (same : (j.stage.onTable (s.registered j.flowId)).map (fun p => (p.flow, p.last)) =
        (s.registered j.flowId).map fun p => (p.flow, p.last)) :
      (s.step (.advance i)).Shows j.flowId dropped := by
    rw [silent, Option.toList_none, List.append_nil] at hans
    refine hw.congr (hreg ▸ same) hans horigins (fun k j' hk hj' => ⟨kept, began, ?_⟩) hbears
    rw [hjobs k j' hk hj']
    exact Job.ends_step working ends s.hub
  cases hst : j.stage with
  | register g result =>
    rw [hst] at hreg ends
    obtain ⟨form, rfl, hstep, may⟩ := ends
    have stopped : (j.step s.hub).1.stage.isWorking = false := by
      simp only [Job.step, hst, Job.isWorking_close]
    refine hw.answer (r := .form form) ?_ horigins began (ended stopped) hbears
      (.inl ⟨form, _, rfl, kept, may, hreg, rfl, hstep⟩)
    rw [hans]
    simp only [Job.outcome?, hst, Option.toList_some]
  | finish result entry =>
    rw [hst] at hreg ends
    have stopped : (j.step s.hub).1.stage.isWorking = false := by
      simp only [Job.step, hst, Job.isWorking_close]
    refine hw.answer (r := result) ?_ horigins began (ended stopped) hbears (.inr ⟨ends.1, hreg⟩)
    rw [hans]
    simp only [Job.outcome?, hst, Option.toList_some]
  | claim a =>
    by_cases turned : s.hub.flows.inProgress a.nodeName = true
    · have stopped : (j.step s.hub).1.stage.isWorking = false := by
        simp only [Job.step, hst, turned, if_true]
        rfl
      rw [hst, fresh a hst] at hreg
      refine hw.answer (r := .abort .alreadyInProgress) ?_ horigins began (ended stopped) hbears
        (.inr ⟨rfl, hreg⟩)
      rw [hans]
      simp only [Job.outcome?, hst, turned, if_true, Option.toList_some]
    · refine goes ?_ (by rw [hst]; rfl)
      simp only [Job.outcome?, hst, turned, if_false, Bool.false_eq_true]
  | release err =>
    refine goes (by simp only [Job.outcome?, hst]) ?_
    rw [hst, Stage.onTable, Option.map_map]
    rfl
  | begin input => rw [hst] at working; cases working
  | unclaim r => rw [hst] at working; cases working
  | done r => rw [hst] at working; cases working
  | _ => exact goes (by simp only [Job.outcome?, hst]) (by rw [hst]; rfl)

theorem Shows.advance (hs : s.Orderly) (hx : s.Exclusive) (hw : s.Shows f dropped) (i : Nat) :
    (s.step (.advance i)).Shows f dropped := by
  cases hj : s.jobs[i]? with
  | none => rw [step_advance_none hj]; exact hw
  | some j =>
    by_cases hf : f = j.flowId
    · subst hf
      cases working : j.stage.isWorking with
      | true => exact Shows.work hs hj hw working fun a hst => hx.fresh i j a hj hst
      | false => exact Shows.enter hj hw working
    · have hreg := registered_advance hj f
      have hans := answers_advance hj f
      rw [if_neg hf] at hreg hans
      refine hw.congr (congrArg _ hreg) hans (origins_advance hj f) (fun k j' hk hj' => ?_)
        fun source => bears_advance hj
      rw [getElem?_jobs_advance hj] at hk
      split at hk
      · cases hk
        exact absurd (hj'.1.symm.trans (j.flowId_step s.hub)) hf
      · exact hw.call k j' hk hj'

end Advance

theorem Shows.step (hs : s.Orderly) (hx : s.Exclusive) (hw : s.Shows f dropped) (act : Action)
    (spared : ∀ g, act = .abort g → (s.registered g).isSome → ∀ i, ¬ s.Engaged g i)
    (lasts : (s.step act).hub.supply.Lasts) :
    (s.step act).Shows f (dropped ∨ act = .abort f ∧ (s.registered f).isSome) := by
  have quiet (hact : act ≠ .abort f) :
      (dropped ∨ act = .abort f ∧ (s.registered f).isSome) = dropped :=
    propext (or_iff_left fun h => hact h.1)
  cases act with
  | init source announcement => rw [quiet nofun]; exact hw.init hs source announcement lasts
  | configure g input => rw [quiet nofun]; exact hw.configure g input
  | advance i => rw [quiet nofun]; exact hw.advance hs hx i
  | abort g =>
    have := hw.abort g (spared g rfl)
    simpa only [Action.abort.injEq] using this
  | _ =>
    rw [quiet nofun]
    exact hw.congr rfl (congrArg (List.filterMap Deed.success?) (deeds_of_notes_nil rfl f))
      (congrArg (List.filter Deed.isStart) (deeds_of_notes_nil rfl f)) hw.call fun _ => id

theorem shows_start (h : Hub) (f : Uuid) : (start h).Shows f False where
  flow _ hp := by cases hp
  gone _ _ _ := nofun
  call _ _ hi := by cases hi
  moves := .nil
  started _ hb := by
    rcases hb with ⟨_, hp, -⟩ | ⟨_, _, hi, -⟩
    · cases hp
    · cases hi
  unstarted _ := ⟨id, rfl⟩

theorem Spares.left {bs : List Action} (h : s.Spares (as ++ bs)) : s.Spares as := by
  rintro cs g ds rfl
  exact h cs g (ds ++ bs) (by simp)

theorem shows_run (h : Hub) (as : List Action) (spares : (start h).Spares as)
    (lasts : ((start h).run as).hub.supply.Lasts) (f : Uuid) :
    ((start h).run as).Shows f ((start h).Drops as f) := by
  revert spares
  refine prefix_induction (s := start h)
    (P := fun as => (start h).Spares as → ((start h).run as).Shows f ((start h).Drops as f))
    ?_ ?_ as lasts
  · intro _
    have never : (start h).Drops [] f = False := by
      refine propext (iff_false_intro ?_)
      rintro ⟨bs, cs, heq, -⟩
      cases bs <;> cases heq
    rw [never]
    exact shows_start h f
  · intro as act ih lasts spares
    have lasts' : ((start h).run as).hub.supply.Lasts := by
      refine lasts.mono ?_
      rw [run_append]
      exact drawn_le_run _ _
    rw [run_concat] at lasts ⊢
    rw [show (start h).Drops (as ++ [act]) f = _ from propext drops_concat]
    refine (ih spares.left).step (orderly_run h as lasts') (exclusive_run h as spares.left lasts')
      act (fun g hact => ?_) lasts
    exact spares as g [] (by rw [hact])

/-! ### Calls one after the other -/

/-- All calls are over. -/
def Settled (s : Session) : Prop := ∀ j ∈ s.jobs, j.answer?.isSome = true

instance (s : Session) : Decidable s.Settled :=
  inferInstanceAs (Decidable (∀ j ∈ s.jobs, j.answer?.isSome = true))

/-- No call begins before the last one is over, and the run ends with none. -/
def TakesTurns (s : Session) : List Action → Prop
  | [] => s.Settled
  | a :: as => (a.isCall = true → s.Settled) ∧ TakesTurns (s.step a) as

instance decidableTakesTurns : (s : Session) → (as : List Action) → Decidable (s.TakesTurns as)
  | s, [] => inferInstanceAs (Decidable s.Settled)
  | s, a :: as =>
    have := decidableTakesTurns (s.step a) as
    inferInstanceAs (Decidable (_ ∧ _))

theorem Settled.rests (hs : s.Settled) {i : Nat} {j : Job} (hj : s.jobs[i]? = some j) :
    j.stage.isWorking = false := by
  have stopped := hs j (List.mem_of_getElem? hj)
  unfold Job.answer? at stopped
  split at stopped
  · next hst => rw [hst]; rfl
  · cases stopped

theorem TakesTurns.settled (h : s.TakesTurns as) : (s.run as).Settled := by
  induction as generalizing s with
  | nil => exact h
  | cons a as ih => exact ih h.2

theorem TakesTurns.spares (h : s.TakesTurns as) : s.Spares as := by
  induction as generalizing s with
  | nil => exact spares_nil s
  | cons a as ih =>
    refine spares_cons.2 ⟨?_, ih h.2⟩
    rintro f rfl - i ⟨j, hj, -, working⟩
    cases ((h.1 rfl).rests hj).symm.trans working

/-- A registered flow is listed once. -/
theorem listFlows_filter {p : InProgress} (hp : s.registered f = some p) :
    s.hub.listFlows.filter (·.flowId = f) = [⟨f, p.flow.source, p.flow.step, p.flow.name⟩] := by
  have only : s.hub.flows.flows.pairs.filter (·.1 = f) = [(f, p)] :=
    Pairs.filter_of_get? s.hub.flows.flows.ascending.nodup hp
  unfold Hub.listFlows
  rw [List.filter_map]
  exact congrArg (List.map _) only

/-- As long as no call begins before the last one is over: a flow is registered exactly if the last
answer about it was a form and it was not dropped. A registered flow shows this form, it is listed
once, as it was started and at the step of the form, and what is submitted next is given to this
step. The forms of a flow come in the order of the steps. -/
theorem registered_iff_form (h : Hub) (as : List Action)
    (lasts : ((start h).run as).hub.supply.Lasts) (turns : (start h).TakesTurns as) (f : Uuid) :
    let s := (start h).run as
    ((s.registered f).isSome ↔
      (∃ form, (s.answers f).getLast? = some (.form form)) ∧ ¬ (start h).Drops as f) ∧
    (∀ p, s.registered f = some p → ∃ form source announcement,
      (s.answers f).getLast? = some (.form form) ∧
      s.hub.getFlow f = .ok ⟨f, .form form, none⟩ ∧
      s.origins f = [.started source announcement] ∧
      s.hub.listFlows.filter (·.flowId = f) = [⟨f, source, form.step, p.flow.name⟩] ∧
      ∀ input, (Hub.configureJob f input).step s.hub =
        ((Hub.configureJob f input).advance ({ p.flow with step := form.step }.submit input),
          { s.hub with flows := s.hub.flows.setBusy f true })) ∧
    (s.shownSteps f).IsChain fun last next => next ∈ last.next := by
  intro s
  have hw : s.Shows f ((start h).Drops as f) := shows_run h as turns.spares lasts f
  have idle (p : InProgress) (hp : s.registered f = some p) : p.busy = false := by
    refine Bool.eq_false_iff.2 fun busy => ?_
    obtain ⟨i, -, j, hj, -, working⟩ := (marked_run h as).busy f p hp busy
    cases (turns.settled.rests hj).symm.trans working
  refine ⟨⟨fun hsome => ?_, fun ⟨⟨form, hlast⟩, kept⟩ => ?_⟩, fun p hp => ?_, hw.moves⟩
  · obtain ⟨p, hp⟩ := Option.isSome_iff_exists.1 hsome
    obtain ⟨kept, form, -, -, hlast⟩ := hw.flow p hp
    exact ⟨⟨form, hlast⟩, kept⟩
  · refine Option.isSome_iff_ne_none.2 fun hnone => ?_
    exact hw.gone hnone kept form hlast
  · obtain ⟨-, form, hform, hstep, hlast⟩ := hw.flow p hp
    obtain ⟨announcement, hstart⟩ := hw.started p.flow.source (.inl ⟨p, hp, rfl⟩)
    have hget : s.hub.flows.flows.get? f = some p := hp
    refine ⟨form, p.flow.source, announcement, hlast, ?_, hstart, ?_, fun input => ?_⟩
    · simp only [Hub.getFlow, hget, hform]
    · rw [listFlows_filter hp, hstep]
    · rw [← hstep]
      simp only [Hub.configureJob, Job.step, hget, idle p hp, Bool.false_eq_true, if_false]

/-- A flow that asks for the password after the host, while another one is started and dropped. -/
theorem registered_iff_form_password :
    let s := (start (Hub.unused lockedNode)).run (submitting "10.0.0.1" ++
      [.advance 1, .advance 1, .advance 1, .advance 1, .list, .init .user none, .advance 2,
        .abort (.generated 1)])
    (∃ form, (s.answers (.generated 0)).getLast? = some (.form form) ∧ form.step = .authenticate ∧
      s.hub.getFlow (.generated 0) = .ok ⟨.generated 0, .form form, none⟩) ∧
      s.shownSteps (.generated 0) = [.user, .authenticate] ∧
      s.registered (.generated 1) = none := by
  intro s
  let as : List Action := submitting "10.0.0.1" ++ [.advance 1, .advance 1, .advance 1, .advance 1,
    .list, .init .user none, .advance 2, .abort (.generated 1)]
  have lasts : s.hub.supply.Lasts := by unfold Supply.Lasts; decide +kernel
  have turns : (start (Hub.unused lockedNode)).TakesTurns as := by decide +kernel
  obtain ⟨-, shown, -⟩ := registered_iff_form _ as lasts turns (.generated 0)
  obtain ⟨iff, -⟩ := registered_iff_form _ as lasts turns (.generated 1)
  have steps : s.shownSteps (.generated 0) = [.user, .authenticate] := by decide +kernel
  have waits : (s.registered (.generated 0)).isSome := by decide +kernel
  obtain ⟨p, hp⟩ := Option.isSome_iff_exists.1 waits
  obtain ⟨form, -, -, hlast, hget, -⟩ := shown p hp
  refine ⟨⟨form, hlast, ?_, hget⟩, steps, ?_⟩
  · have := shownSteps_getLast? hlast
    rw [steps] at this
    exact (Option.some.inj this).symm
  · refine Option.not_isSome_iff_eq_none.1 fun hsome => (iff.1 hsome).2 ?_
    refine ⟨as.dropLast, [], by rfl, ?_⟩
    exact abortFlow_ok_iff.2 (by decide +kernel)

end Session

end HomeHub
