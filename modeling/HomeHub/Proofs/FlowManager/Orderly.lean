import HomeHub.Proofs.FlowManager.Session
import HomeHub.Proofs.FlowManager.Step
import HomeHub.Proofs.Supply
import Mathlib.Data.List.Induction

/-!
# One step of a flow at a time

`Session.Orderly` is what every session keeps as long as its identifiers are distinct: a flow that
anyone knows of has an identifier that was drawn, at most one call works on a flow, and none works
on a flow that is registered as idle. `Session.run_induction` is the induction over sessions that
all later invariants go by.
-/

namespace HomeHub

def Deed.isStart : Deed → Bool
  | .started .. => true
  | _ => false

/-- The deed of starting a flow is that of the action that makes the call. -/
theorem Job.not_isStart_of_mem_deeds {j : Job} {h : Hub} {d : Deed} (hd : d ∈ j.deeds h) :
    d.isStart = false := by
  rcases List.mem_append.1 hd with hd | hd
  · have hact : j.act? h = some d := by simpa using hd
    unfold Job.act? at hact
    split at hact
    · cases hact; rfl
    · cases hact; rfl
    · cases hact; rfl
    · obtain ⟨e, -, rfl⟩ := Option.map_eq_some_iff.1 hact
      rfl
    · obtain ⟨e, -, rfl⟩ := Option.map_eq_some_iff.1 hact
      rfl
    · cases hact
  · have hreply : j.reply? h = some d := by simpa using hd
    unfold Job.reply? at hreply
    split at hreply
    · cases hreply
    · obtain ⟨r, -, rfl⟩ := Option.map_eq_some_iff.1 hreply
      rfl

namespace Session

/-- The flow is registered, worked on, or was started. -/
def Knows (s : Session) (f : Uuid) : Prop :=
  (s.registered f).isSome ∨ (∃ (i : Nat) (j : Job), s.jobs[i]? = some j ∧ j.WorksOn f) ∨
    ∃ n ∈ s.log, n.flow = f ∧ n.deed.isStart = true

structure Orderly (s : Session) : Prop where
  known : ∀ f, s.Knows f → ∃ k < s.hub.supply.drawn, f = .generated k
  single : ∀ f (i k : Nat) (j j' : Job), s.jobs[i]? = some j → s.jobs[k]? = some j' →
    j.WorksOn f → j'.WorksOn f → i = k
  idle : ∀ f p, s.registered f = some p → p.busy = false →
    ∀ (i : Nat) (j : Job), s.jobs[i]? = some j → ¬ j.WorksOn f
  /-- Calls that are still to be let in submit a form. -/
  begun : ∀ (i : Nat) (j : Job) input, s.jobs[i]? = some j → j.stage = .begin input →
    j = Hub.configureJob j.flowId input

/-! ### Single actions -/

variable {s : Session}

theorem drawn_le_step (s : Session) (a : Action) :
    s.hub.supply.drawn ≤ (s.step a).hub.supply.drawn := by
  cases a with
  | init source announcement =>
    cases source <;> cases announcement <;> exact Nat.le_succ _
  | abort f =>
    show _ ≤ (s.hub.abortFlow f).2.supply.drawn
    unfold Hub.abortFlow
    split <;> exact Nat.le_refl _
  | advance i =>
    cases hj : s.jobs[i]? with
    | none => exact Nat.le_of_eq (by rw [step_advance_none hj])
    | some j => rw [step_advance hj]; exact j.drawn_le_step s.hub
  | elsewhere change => exact Nat.le_max_left _ _
  | _ => exact Nat.le_refl _

theorem drawn_le_run (s : Session) (as : List Action) :
    s.hub.supply.drawn ≤ (s.run as).hub.supply.drawn := by
  induction as generalizing s with
  | nil => exact Nat.le_refl _
  | cons a as ih => exact Nat.le_trans (drawn_le_step s a) (ih (s.step a))

/-- What holds of the empty run, and of a run with one action more, holds of every run as long as
the identifiers last. -/
theorem prefix_induction {P : List Action → Prop} (nil : P [])
    (concat : ∀ as act, P as → (s.run (as ++ [act])).hub.supply.Lasts → P (as ++ [act]))
    (as : List Action) (lasts : (s.run as).hub.supply.Lasts) : P as := by
  induction as using List.reverseRecOn with
  | nil => exact nil
  | append_singleton as act ih =>
    refine concat as act (ih (lasts.mono ?_)) lasts
    rw [run_append]
    exact drawn_le_run _ _

/-- What every action keeps holds after a run, as long as the identifiers last. -/
theorem run_induction {P : Session → Prop}
    (step : ∀ s a, P s → (s.step a).hub.supply.Lasts → P (s.step a))
    (s : Session) (h0 : P s) (as : List Action) (lasts : (s.run as).hub.supply.Lasts) :
    P (s.run as) := by
  refine prefix_induction (P := fun as => P (s.run as)) h0 (fun as act hs hl => ?_) as lasts
  rw [run_concat] at hl ⊢
  exact step _ _ hs hl

theorem getElem?_jobs_advance {i : Nat} {j : Job} (hj : s.jobs[i]? = some j) (k : Nat) :
    (s.step (.advance i)).jobs[k]? = if k = i then some (j.step s.hub).1 else s.jobs[k]? := by
  rw [step_advance hj]
  obtain ⟨hi, -⟩ := List.getElem?_eq_some_iff.1 hj
  by_cases hk : k = i
  · subst hk
    rw [if_pos rfl, List.getElem?_set_self hi]
  · rw [if_neg hk, List.getElem?_set_ne (Ne.symm hk)]

/-- A call is one of those before or the one just made. -/
theorem getElem?_concat_cases {α : Type} {l : List α} {a x : α} {k : Nat}
    (h : (l ++ [a])[k]? = some x) : l[k]? = some x ∨ k = l.length ∧ x = a := by
  rcases Nat.lt_trichotomy k l.length with hk | rfl | hk
  · exact .inl (by rwa [List.getElem?_append_left hk] at h)
  · exact .inr ⟨rfl, by simpa using h.symm⟩
  · rw [List.getElem?_eq_none (by simp; omega)] at h
    cases h

/-- A call keeps its number and its flow. -/
theorem getElem?_jobs_step {i : Nat} {j : Job} (hj : s.jobs[i]? = some j) (a : Action) :
    ∃ j', (s.step a).jobs[i]? = some j' ∧ j'.flowId = j.flowId := by
  have concat (x : Job) : (s.jobs ++ [x])[i]? = some j := by
    rw [List.getElem?_append_left (List.getElem?_eq_some_iff.1 hj).1, hj]
  cases a with
  | init source announcement => exact ⟨j, concat _, rfl⟩
  | configure f input => exact ⟨j, concat _, rfl⟩
  | advance k =>
    cases hk : s.jobs[k]? with
    | none => exact ⟨j, by rw [step_advance_none hk, hj], rfl⟩
    | some j' =>
      rw [getElem?_jobs_advance hk]
      split
      · next hik =>
        rw [← hik, hj] at hk
        cases hk
        exact ⟨_, rfl, j.flowId_step s.hub⟩
      · exact ⟨j, hj, rfl⟩
  | _ => exact ⟨j, hj, rfl⟩

theorem getElem?_jobs_run {i : Nat} {j : Job} (hj : s.jobs[i]? = some j) (as : List Action) :
    ∃ j', (s.run as).jobs[i]? = some j' ∧ j'.flowId = j.flowId := by
  induction as generalizing s j with
  | nil => exact ⟨j, hj, rfl⟩
  | cons a as ih =>
    obtain ⟨j', hj', hf⟩ := getElem?_jobs_step hj a
    obtain ⟨j'', hj'', hf'⟩ := ih hj'
    exact ⟨j'', hj'', hf'.trans hf⟩

/-- A call is noted with its own flow. -/
theorem flow_of_mem_notes {a : Action} {n : Note} {j : Job} (hn : n ∈ s.notes a)
    (hj : s.jobs[n.call]? = some j) : n.flow = j.flowId := by
  cases a with
  | init source announcement =>
    rw [List.mem_singleton.1 hn] at hj
    simp at hj
  | advance i =>
    cases hi : s.jobs[i]? with
    | none => simp [notes, hi] at hn
    | some j' =>
      simp only [notes, hi] at hn
      obtain ⟨d, -, rfl⟩ := List.mem_map.1 hn
      rw [hi] at hj
      cases hj
      rfl
  | _ => cases hn

/-- Only the flow itself is registered, changed or removed by an action about it. -/
theorem registered_advance {i : Nat} {j : Job} (hj : s.jobs[i]? = some j) (f : Uuid) :
    (s.step (.advance i)).registered f =
      if f = j.flowId then j.stage.onTable (s.registered f) else s.registered f := by
  rw [registered, step_advance hj]
  exact j.get?_step s.hub f

/-- Who is registered after the step of a call was so before, or the call has registered it. -/
theorem registered_before {i : Nat} {j : Job} (hj : s.jobs[i]? = some j) {f : Uuid}
    {p : InProgress} (hp : (s.step (.advance i)).registered f = some p) :
    (∃ q, s.registered f = some q ∧ p.flow = q.flow) ∨
      f = j.flowId ∧ ∃ form, j.stage = .register p.flow form := by
  rw [registered_advance hj] at hp
  split at hp
  · next hf =>
    by_cases hst : ∃ g form, j.stage = .register g form
    · obtain ⟨g, form, hst⟩ := hst
      rw [hst] at hp
      cases hp
      exact .inr ⟨hf, form, hst⟩
    · exact .inl (j.stage.flow_of_onTable (fun g form h => hst ⟨g, form, h⟩) hp)
  · exact .inl ⟨p, hp, rfl⟩

/-- Starting a flow draws its identifier. -/
theorem flowId_initJob (h : Hub) (source : Source) (announcement : Option Announcement) :
    (h.initJob source announcement).1.flowId = .generated h.supply.drawn := by
  cases source <;> cases announcement <;> rfl

theorem drawn_init (source : Source) (announcement : Option Announcement) :
    (s.step (.init source announcement)).hub.supply.drawn = s.hub.supply.drawn + 1 := by
  cases source <;> cases announcement <;> rfl

theorem deeds_advance {i : Nat} {j : Job} (hj : s.jobs[i]? = some j) (f : Uuid) :
    (s.step (.advance i)).deeds f =
      if f = j.flowId then s.deeds f ++ j.deeds s.hub else s.deeds f := by
  rw [step_advance hj, deeds, List.filter_append, List.map_append, List.filter_map]
  by_cases hf : f = j.flowId
  · subst hf
    simp [deeds, Function.comp_def]
  · have hf' : j.flowId ≠ f := Ne.symm hf
    simp [deeds, Function.comp_def, hf, hf']

theorem deeds_init (source : Source) (announcement : Option Announcement) (f : Uuid) :
    (s.step (.init source announcement)).deeds f =
      if f = .generated s.hub.supply.drawn then s.deeds f ++ [.started source announcement]
      else s.deeds f := by
  simp only [deeds, step_log, notes, flowId_initJob, List.filter_append, List.map_append]
  by_cases hf : f = .generated s.hub.supply.drawn
  · simp [hf]
  · have hf' : Uuid.generated s.hub.supply.drawn ≠ f := Ne.symm hf
    simp [hf, hf']

/-- Only making a call that starts a flow and letting a call go on are noted. -/
theorem deeds_of_notes_nil {a : Action} (h : s.notes a = []) (f : Uuid) :
    (s.step a).deeds f = s.deeds f := by
  rw [deeds, step_log, h, List.append_nil]
  rfl

theorem registered_abort (f g : Uuid) :
    (s.step (.abort f)).registered g = if g = f then none else s.registered g := by
  show (s.hub.abortFlow f).2.flows.flows.get? g = _
  unfold Hub.abortFlow
  split
  · exact FlowTable.get?_remove _ _ _
  · next h =>
    by_cases hg : g = f
    · rw [if_pos hg, hg, h]
    · rw [if_neg hg]; rfl

theorem registered_init (source : Source) (announcement : Option Announcement) (f : Uuid) :
    (s.step (.init source announcement)).registered f = s.registered f := by
  cases source <;> cases announcement <;> rfl

theorem initJob_not_begin (h : Hub) (source : Source) (announcement : Option Announcement)
    (input : Json) : (h.initJob source announcement).1.stage ≠ .begin input := by
  cases source <;> cases announcement <;> exact Stage.noConfusion

/-- A flow that is started is none of those before. -/
theorem ne_of_init {source : Source} {announcement : Option Announcement}
    (lasts : (s.step (.init source announcement)).hub.supply.Lasts) {k : Nat}
    (hk : k < s.hub.supply.drawn) : Uuid.generated s.hub.supply.drawn ≠ .generated k := by
  intro heq
  have hd := drawn_init (s := s) source announcement
  unfold Supply.Lasts at lasts
  have := Uuid.generated_inj (by omega) (by omega) heq
  omega

theorem Orderly.not_knows (hs : s.Orderly) {source : Source} {announcement : Option Announcement}
    (lasts : (s.step (.init source announcement)).hub.supply.Lasts) :
    ¬ s.Knows (.generated s.hub.supply.drawn) := by
  intro hknows
  obtain ⟨k, hk, heq⟩ := hs.known _ hknows
  exact ne_of_init lasts hk heq

/-- Actions that neither concern the table of flows nor any call. -/
theorem Orderly.congr {t : Session} (hs : s.Orderly) (hj : t.jobs = s.jobs) (hl : t.log = s.log)
    (hr : ∀ f, t.registered f = s.registered f)
    (hd : s.hub.supply.drawn ≤ t.hub.supply.drawn) : t.Orderly where
  known f hf := by
    obtain ⟨k, hk, rfl⟩ := hs.known f (by simpa only [Knows, hj, hl, hr] using hf)
    exact ⟨k, Nat.lt_of_lt_of_le hk hd, rfl⟩
  single := by simpa only [hj] using hs.single
  idle := by simpa only [hj, hr] using hs.idle
  begun := by simpa only [hj] using hs.begun

theorem Orderly.init (hs : s.Orderly) (source : Source) (announcement : Option Announcement)
    (lasts : (s.step (.init source announcement)).hub.supply.Lasts) :
    (s.step (.init source announcement)).Orderly := by
  have hd := drawn_init (s := s) source announcement
  have hid := flowId_initJob s.hub source announcement
  have fresh := hs.not_knows lasts
  have hjobs (k : Nat) (j : Job) (hk : (s.step (.init source announcement)).jobs[k]? = some j) :
      s.jobs[k]? = some j ∨ k = s.jobs.length ∧ j = (s.hub.initJob source announcement).1 :=
    getElem?_concat_cases hk
  have old (f : Uuid) (k : Nat) (j : Job) (hk : s.jobs[k]? = some j) (hw : j.WorksOn f) :
      f ≠ .generated s.hub.supply.drawn := by
    rintro rfl
    exact fresh (.inr (.inl ⟨k, j, hk, hw⟩))
  constructor
  · intro f hf
    rw [hd]
    by_cases hfid : f = .generated s.hub.supply.drawn
    · exact ⟨_, Nat.lt_succ_self _, hfid⟩
    · have hk : s.Knows f := by
        rcases hf with hr | ⟨i, j, hij, hw⟩ | ⟨n, hn, hnf, hst⟩
        · exact .inl (by rwa [registered_init] at hr)
        · rcases hjobs i j hij with h | ⟨-, rfl⟩
          · exact .inr (.inl ⟨i, j, h, hw⟩)
          · exact absurd (hw.1.symm.trans hid) hfid
        · rcases List.mem_append.1 hn with h | h
          · exact .inr (.inr ⟨n, h, hnf, hst⟩)
          · rw [List.mem_singleton.1 h] at hnf
            exact absurd (hnf.symm.trans hid) hfid
      obtain ⟨k, hk, rfl⟩ := hs.known f hk
      exact ⟨k, by omega, rfl⟩
  · intro f i k j j' hi hk hw hw'
    rcases hjobs i j hi with h | ⟨rfl, rfl⟩ <;> rcases hjobs k j' hk with h' | ⟨rfl, rfl⟩
    · exact hs.single f i k j j' h h' hw hw'
    · exact absurd (hw'.1.symm.trans hid) (old f i j h hw)
    · exact absurd (hw.1.symm.trans hid) (old f k j' h' hw')
    · rfl
  · intro f p hp hb i j hi hw
    rw [registered_init] at hp
    rcases hjobs i j hi with h | ⟨rfl, rfl⟩
    · exact hs.idle f p hp hb i j h hw
    · refine fresh (.inl ?_)
      rw [← hid, hw.1, hp]
      rfl
  · intro i j input hi hst
    rcases hjobs i j hi with h | ⟨rfl, rfl⟩
    · exact hs.begun i j input h hst
    · exact absurd hst (initJob_not_begin s.hub source announcement input)

theorem Orderly.configure (hs : s.Orderly) (f : Uuid) (input : Json) :
    (s.step (.configure f input)).Orderly := by
  have hjobs (k : Nat) (j : Job) (hk : (s.step (.configure f input)).jobs[k]? = some j) :
      s.jobs[k]? = some j ∨ k = s.jobs.length ∧ j = Hub.configureJob f input :=
    getElem?_concat_cases hk
  have hold (k : Nat) (j : Job) (g : Uuid)
      (hk : (s.step (.configure f input)).jobs[k]? = some j) (hw : j.WorksOn g) :
      s.jobs[k]? = some j := by
    rcases hjobs k j hk with h | ⟨-, rfl⟩
    · exact h
    · cases hw.2
  constructor
  · intro g hg
    refine hs.known g ?_
    rcases hg with hr | ⟨i, j, hij, hw⟩ | ⟨n, hn, hnf, hst⟩
    · exact .inl hr
    · exact .inr (.inl ⟨i, j, hold i j g hij hw, hw⟩)
    · exact .inr (.inr ⟨n, by simpa [notes] using hn, hnf, hst⟩)
  · intro g i k j j' hi hk hw hw'
    exact hs.single g i k j j' (hold i j g hi hw) (hold k j' g hk hw') hw hw'
  · intro g p hp hb i j hi hw
    exact hs.idle g p hp hb i j (hold i j g hi hw) hw
  · intro i j input' hi hst
    rcases hjobs i j hi with h | ⟨-, rfl⟩
    · exact hs.begun i j input' h hst
    · cases hst; rfl

theorem Orderly.advance (hs : s.Orderly) (i : Nat) : (s.step (.advance i)).Orderly := by
  cases hj : s.jobs[i]? with
  | none => rw [step_advance_none hj]; exact hs
  | some j =>
  have hget := getElem?_jobs_advance hj
  have hreg := registered_advance hj
  -- whoever works on a flow after the step did so before, or was let in at an idle flow
  have hwork (f : Uuid) (k : Nat) (j' : Job)
      (hk : (s.step (.advance i)).jobs[k]? = some j') (hw : j'.WorksOn f) :
      (∃ j₀, s.jobs[k]? = some j₀ ∧ j₀.WorksOn f) ∨
        k = i ∧ j.flowId = f ∧ ∃ p, s.registered f = some p ∧ p.busy = false := by
    rw [hget] at hk
    split at hk
    · next hki =>
      subst hki
      cases hk
      have hf : j.flowId = f := (j.flowId_step s.hub).symm.trans hw.1
      rcases j.working_of_step s.hub hw.2 with h | ⟨input, p, -, hp, hb⟩
      · exact .inl ⟨j, hj, hf, h⟩
      · exact .inr ⟨rfl, hf, p, hf ▸ hp, hb⟩
    · exact .inl ⟨j', hk, hw⟩
  constructor
  · intro f hf
    have before : s.Knows f := by
      rcases hf with hr | ⟨k, j', hk, hw⟩ | ⟨n, hn, hnf, hst⟩
      · rw [hreg] at hr
        split at hr
        · next hfj =>
          subst hfj
          by_cases hwj : j.stage.isWorking = true
          · exact .inr (.inl ⟨i, j, hj, rfl, hwj⟩)
          · -- a call that does not work on the flow cannot have registered it
            left
            revert hr hwj
            cases j.stage <;> simp [Stage.onTable, Stage.isWorking]
        · exact .inl hr
      · rcases hwork f k j' hk hw with ⟨j₀, h₀, hw₀⟩ | ⟨-, -, p, hp, -⟩
        · exact .inr (.inl ⟨k, j₀, h₀, hw₀⟩)
        · exact .inl (by rw [hp]; rfl)
      · rw [step_advance hj] at hn
        rcases List.mem_append.1 hn with h | h
        · exact .inr (.inr ⟨n, h, hnf, hst⟩)
        · obtain ⟨d, hd, rfl⟩ := List.mem_map.1 h
          cases (Job.not_isStart_of_mem_deeds hd).symm.trans hst
    obtain ⟨n, hn, rfl⟩ := hs.known f before
    exact ⟨n, Nat.lt_of_lt_of_le hn (drawn_le_step s _), rfl⟩
  · intro f k l j₁ j₂ hk hl hw₁ hw₂
    rcases hwork f k j₁ hk hw₁ with ⟨j₁', h₁, w₁⟩ | ⟨rfl, hf, p, hp, hb⟩
    · rcases hwork f l j₂ hl hw₂ with ⟨j₂', h₂, w₂⟩ | ⟨rfl, hf, p, hp, hb⟩
      · exact hs.single f k l j₁' j₂' h₁ h₂ w₁ w₂
      · exact absurd w₁ (hs.idle f p hp hb k j₁' h₁)
    · rcases hwork f l j₂ hl hw₂ with ⟨j₂', h₂, w₂⟩ | ⟨rfl, -⟩
      · exact absurd w₂ (hs.idle f p hp hb l j₂' h₂)
      · rfl
  · intro f p hp hb k j' hk hw
    rw [hget] at hk
    split at hk
    · cases hk
      have hf : j.flowId = f := (j.flowId_step s.hub).symm.trans hw.1
      subst hf
      have hp' : (j.step s.hub).2.flows.flows.get? j.flowId = some p := by
        rw [registered, step_advance hj] at hp
        exact hp
      obtain ⟨hwj, hpj⟩ := j.idle_of_step s.hub hw.2 hp' hb
      exact hs.idle j.flowId p hpj hb i j hj ⟨rfl, hwj⟩
    · next hki =>
      rw [hreg] at hp
      split at hp
      · next hfj =>
        -- the flow went idle because its one call ended
        subst hfj
        by_cases hwj : j.stage.isWorking = true
        · exact hki (hs.single j.flowId k i j' j hk hj hw ⟨rfl, hwj⟩)
        · have hsame : s.registered j.flowId = some p := by
            revert hp hwj
            cases j.stage <;> simp [Stage.onTable, Stage.isWorking]
            rintro q - rfl
            cases hb
          exact hs.idle j.flowId p hsame hb k j' hk hw
      · exact hs.idle f p hp hb k j' hk hw
  · intro k j' input hk hst
    rw [hget] at hk
    split at hk
    · cases hk
      exact absurd hst (j.not_begin_of_step s.hub input)
    · exact hs.begun k j' input hk hst

theorem Orderly.step (hs : s.Orderly) (a : Action) (lasts : (s.step a).hub.supply.Lasts) :
    (s.step a).Orderly := by
  cases a with
  | init source announcement => exact hs.init source announcement lasts
  | configure f input => exact hs.configure f input
  | advance i => exact hs.advance i
  | abort f =>
    constructor
    · intro g hg
      obtain ⟨k, hk, rfl⟩ := hs.known g (by
        rcases hg with hr | hw | ⟨n, hn, h⟩
        · rw [registered_abort] at hr
          split at hr
          · cases hr
          · exact .inl hr
        · exact .inr (.inl hw)
        · exact .inr (.inr ⟨n, by simpa [notes] using hn, h⟩))
      exact ⟨k, Nat.lt_of_lt_of_le hk (drawn_le_step s _), rfl⟩
    · exact hs.single
    · intro g p hp hb i j hi hw
      rw [registered_abort] at hp
      split at hp
      · cases hp
      · exact hs.idle g p hp hb i j hi hw
    · exact hs.begun
  | _ =>
    exact hs.congr rfl (List.append_nil _) (fun _ => rfl) (drawn_le_step s _)

theorem orderly_start (h : Hub) : (start h).Orderly where
  known f hf := by
    rcases hf with hr | ⟨i, j, hij, -⟩ | ⟨n, hn, -⟩
    · cases hr
    · cases hij
    · cases hn
  single _ _ _ _ _ hi := by cases hi
  idle _ _ hp := by cases hp
  begun _ _ _ hi := by cases hi

theorem orderly_run (h : Hub) (as : List Action)
    (lasts : ((start h).run as).hub.supply.Lasts) : ((start h).run as).Orderly :=
  run_induction (fun _ a hs hl => hs.step a hl) _ (orderly_start h) as lasts

end Session

end HomeHub
