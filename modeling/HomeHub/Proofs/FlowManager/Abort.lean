import HomeHub.Proofs.FlowManager.Orderly

/-!
# Flows that were dropped

A dropped flow leaves the table at once. A call that is in the middle of a step of it goes on with
its copy, though, and writes that back when it ends. `Session.stays_gone_iff` says that nothing else
brings the flow back or stores an entry for it.
-/

namespace HomeHub

/-- The deed leaves something of its flow: a registration or an entry. -/
def Deed.leaves : Deed → Bool
  | .shown _ | .stored _ => true
  | _ => false

namespace Deed

def isStored : Deed → Bool
  | .stored _ => true
  | _ => false

end Deed

namespace Session

variable {s t : Session} {f : Uuid}

/-- No front end finds the flow, and a call that is to begin a step of it is turned away. -/
structure Gone (s : Session) (f : Uuid) : Prop where
  get : s.hub.getFlow f = .error (Job.flowNotFound f)
  abort : (s.hub.abortFlow f).1 = .error (Job.flowNotFound f)
  configure : ∀ input, ((Hub.configureJob f input).step s.hub).1.answer? =
    some (.error (Job.flowNotFound f))
  list : ∀ p ∈ s.hub.listFlows, p.flowId ≠ f

theorem gone_iff : s.Gone f ↔ s.registered f = none := by
  constructor
  · intro h
    have hget := h.get
    unfold Hub.getFlow at hget
    split at hget
    · cases hget
    · assumption
  · intro h
    change s.hub.flows.flows.get? f = none at h
    constructor
    · simp only [Hub.getFlow, h]
    · simp only [Hub.abortFlow, h]
    · intro input
      simp only [Hub.configureJob, Job.step, h]
      rfl
    · intro p hp
      obtain ⟨q, hq, rfl⟩ := List.mem_map.1 hp
      rintro rfl
      exact Pairs.get?_eq_none.1 h q hq (by simp)

theorem abortFlow_ok_iff : (s.hub.abortFlow f).1 = .ok () ↔ (s.registered f).isSome := by
  show _ ↔ (s.hub.flows.flows.get? f).isSome
  unfold Hub.abortFlow
  split
  · next h => simp [h]
  · next h => simp [h]

/-- A call works on the flow. -/
def Engaged (s : Session) (f : Uuid) (call : Nat) : Prop :=
  ∃ j, s.jobs[call]? = some j ∧ j.WorksOn f

/-- The flow was dropped, and only some calls still work on it. -/
structure Left (t : Session) (f : Uuid) (engaged : Nat → Prop) : Prop where
  /-- No later flow gets the identifier. -/
  drawn : ∃ k < t.hub.supply.drawn, f = .generated k
  registered : t.registered f = none
  engaged : ∀ i, t.Engaged f i → engaged i

/-! ### One action -/

/-- A flow is registered, and an entry is stored, by a call that works on the flow. -/
theorem worksOn_of_leaves {j : Job} {h : Hub} {d : Deed} (hd : d ∈ j.deeds h)
    (hl : d.leaves = true) : j.stage.isWorking = true := by
  rcases List.mem_append.1 hd with hd | hd
  · have hact : j.act? h = some d := by simpa using hd
    unfold Job.act? at hact
    split at hact
    · next heq => rw [heq]; rfl
    · next heq => rw [heq]; rfl
    · next heq => rw [heq]; rfl
    · next heq => rw [heq]; rfl
    · next heq => rw [heq]; rfl
    · cases hact
  · have hreply : j.reply? h = some d := by simpa using hd
    unfold Job.reply? at hreply
    split at hreply
    · cases hreply
    · obtain ⟨r, -, rfl⟩ := Option.map_eq_some_iff.1 hreply
      cases hl

theorem stage_of_shown {j : Job} {h : Hub} {form : Flow.Result} (hd : .shown form ∈ j.deeds h) :
    ∃ g, j.stage = .register g form := by
  rcases List.mem_append.1 hd with hd | hd
  · have hact : j.act? h = some (.shown form) := by simpa using hd
    unfold Job.act? at hact
    split at hact
    · cases hact
    · cases hact
    · next g _ heq => cases hact; exact ⟨g, heq⟩
    · obtain ⟨e, -, h⟩ := Option.map_eq_some_iff.1 hact; cases h
    · obtain ⟨e, -, h⟩ := Option.map_eq_some_iff.1 hact; cases h
    · cases hact
  · have hreply : j.reply? h = some (.shown form) := by simpa using hd
    unfold Job.reply? at hreply
    split at hreply
    · cases hreply
    · obtain ⟨r, -, h⟩ := Option.map_eq_some_iff.1 hreply; cases h

/-- What leaves something of a flow is noted by a call that works on it. -/
theorem engaged_of_leaves {a : Action} {n : Note} (hn : n ∈ s.notes a)
    (hl : n.deed.leaves = true) : s.Engaged n.flow n.call := by
  cases a with
  | init source announcement =>
    rw [List.mem_singleton.1 hn] at hl
    cases hl
  | advance i =>
    cases hj : s.jobs[i]? with
    | none => simp [notes, hj] at hn
    | some j =>
      simp only [notes, hj] at hn
      obtain ⟨d, hd, rfl⟩ := List.mem_map.1 hn
      exact ⟨j, hj, rfl, worksOn_of_leaves hd hl⟩
  | _ => cases hn

theorem registered_of_shown {a : Action} {n : Note} {form : Flow.Result} (hn : n ∈ s.notes a)
    (hd : n.deed = .shown form) : (s.step a).registered n.flow ≠ none := by
  cases a with
  | init source announcement =>
    rw [List.mem_singleton.1 hn] at hd
    cases hd
  | advance i =>
    cases hj : s.jobs[i]? with
    | none => simp [notes, hj] at hn
    | some j =>
      simp only [notes, hj] at hn
      obtain ⟨d, hmem, rfl⟩ := List.mem_map.1 hn
      change d = .shown form at hd
      subst hd
      rw [registered_advance hj, if_pos rfl]
      obtain ⟨g, hst⟩ := stage_of_shown hmem
      rw [hst]
      exact Option.some_ne_none _
  | _ => cases hn

/-! ### Going on without the flow -/

theorem Left.step {engaged : Nat → Prop} (hl : t.Left f engaged) (a : Action)
    (quiet : ∀ n ∈ t.notes a, engaged n.call → n.deed.leaves = false)
    (lasts : (t.step a).hub.supply.Lasts) : (t.step a).Left f engaged := by
  obtain ⟨k, hk, rfl⟩ := hl.drawn
  refine ⟨⟨k, Nat.lt_of_lt_of_le hk (drawn_le_step t a), rfl⟩, ?_, ?_⟩
  · cases a with
    | init source announcement => rw [registered_init]; exact hl.registered
    | abort g => rw [registered_abort, hl.registered, ite_self]
    | advance i =>
      cases hj : t.jobs[i]? with
      | none => rw [step_advance_none hj]; exact hl.registered
      | some j =>
        rw [registered_advance hj]
        split
        · next hf =>
          rw [hl.registered]
          refine j.stage.onTable_none ?_
          -- a form would be that of a call that was engaged all along
          intro g form hst
          have hn : (⟨i, j.flowId, .shown form⟩ : Note) ∈ t.notes (.advance i) := by
            simp only [notes, hj]
            exact List.mem_map_of_mem (by simp [Job.deeds, Job.act?, hst])
          have he := hl.engaged i ⟨j, hj, hf.symm, by rw [hst]; rfl⟩
          cases quiet _ hn he
        · exact hl.registered
    | _ => exact hl.registered
  · rintro i ⟨j, hj, hw⟩
    cases a with
    | init source announcement =>
      rcases getElem?_concat_cases hj with hj | ⟨-, rfl⟩
      · exact hl.engaged i ⟨j, hj, hw⟩
      · -- the new flow has another identifier
        have hid := (flowId_initJob t.hub source announcement).symm.trans hw.1
        exact absurd hid (ne_of_init lasts hk)
    | configure g input =>
      rcases getElem?_concat_cases hj with hj | ⟨-, rfl⟩
      · exact hl.engaged i ⟨j, hj, hw⟩
      · cases hw.2
    | advance k =>
      cases hk : t.jobs[k]? with
      | none =>
        rw [step_advance_none hk] at hj
        exact hl.engaged i ⟨j, hj, hw⟩
      | some j₀ =>
        rw [getElem?_jobs_advance hk] at hj
        split at hj
        · next hik =>
          subst hik
          cases hj
          have hf := (j₀.flowId_step t.hub).symm.trans hw.1
          rcases j₀.working_of_step t.hub hw.2 with h | ⟨input, p, -, hp, -⟩
          · exact hl.engaged i ⟨j₀, hk, hf, h⟩
          · rw [hf] at hp
            cases hp.symm.trans hl.registered
        · exact hl.engaged i ⟨j, hj, hw⟩
    | _ => exact hl.engaged i ⟨j, hj, hw⟩

theorem Left.run {engaged : Nat → Prop} (hl : t.Left f engaged) (as : List Action)
    (quiet : ∀ n ∈ t.added as, engaged n.call → n.deed.leaves = false)
    (lasts : (t.run as).hub.supply.Lasts) : (t.run as).Left f engaged := by
  induction as generalizing t with
  | nil => exact hl
  | cons a as ih =>
    have hlast : (t.step a).hub.supply.Lasts := lasts.mono (drawn_le_run (t.step a) as)
    simp only [added_cons, List.mem_append] at quiet
    have hstep := hl.step a (fun n hn => quiet n (.inl hn)) hlast
    exact ih hstep (fun n hn => quiet n (.inr hn)) lasts

/-- Dropping a flow leaves nothing of it but the calls that work on it. -/
theorem left_abort (hs : s.Orderly) (dropped : (s.hub.abortFlow f).1 = .ok ()) :
    (s.step (.abort f)).Left f (s.Engaged f) := by
  obtain ⟨k, hk, rfl⟩ := hs.known f (.inl (abortFlow_ok_iff.1 dropped))
  refine ⟨⟨k, Nat.lt_of_lt_of_le hk (drawn_le_step s _), rfl⟩, ?_, fun i hi => hi⟩
  rw [registered_abort, if_pos rfl]

/-- A dropped flow stays gone, and no entry is stored for it any more, if and only if no call that
was in the middle of a step of it writes anything back. -/
theorem stays_gone_iff (h : Hub) (as bs : List Action) (f : Uuid)
    (dropped : (((start h).run as).hub.abortFlow f).1 = .ok ())
    (lasts : ((start h).run (as ++ .abort f :: bs)).hub.supply.Lasts) :
    let s := (start h).run as
    let t := s.step (.abort f)
    ((∀ cs, cs <+: bs → (t.run cs).Gone f) ∧
        ∀ n ∈ t.added bs, n.flow = f → n.deed.isStored = false) ↔
      ∀ n ∈ t.added bs, s.Engaged f n.call → n.deed.leaves = false := by
  intro s t
  rw [run_append, run_cons] at lasts
  have hs : s.Orderly := orderly_run h as (lasts.mono (Nat.le_trans (drawn_le_step s (.abort f))
    (drawn_le_run t bs)))
  have hleft : t.Left f (s.Engaged f) := left_abort hs dropped
  constructor
  · rintro ⟨gone, unstored⟩ n hn ⟨j, hj, hw⟩
    obtain ⟨cs, a, ds, hbs, hnote⟩ := mem_added.1 hn
    obtain ⟨j', hj', hf⟩ := getElem?_jobs_run (s := t) hj cs
    have hflow : n.flow = f := (flow_of_mem_notes hnote hj').trans (hf.trans hw.1)
    cases hd : n.deed with
    | shown form =>
      have hback := registered_of_shown hnote hd
      rw [hflow, ← run_concat] at hback
      exact absurd (gone_iff.1 (gone (cs ++ [a]) ⟨ds, by rw [hbs]; simp⟩)) hback
    | stored e =>
      have := unstored n hn hflow
      rw [hd] at this
      cases this
    | _ => rfl
  · intro quiet
    have leftAt (cs ds : List Action) (hbs : cs ++ ds = bs) : (t.run cs).Left f (s.Engaged f) := by
      subst hbs
      rw [added_append] at quiet
      rw [run_append] at lasts
      exact hleft.run cs (fun n hn => quiet n (List.mem_append_left _ hn))
        (lasts.mono (drawn_le_run (t.run cs) ds))
    constructor
    · rintro cs ⟨ds, hbs⟩
      exact gone_iff.2 (leftAt cs ds hbs).registered
    · intro n hn hf
      obtain ⟨cs, a, ds, hbs, hnote⟩ := mem_added.1 hn
      cases hd : n.deed with
      | stored e =>
        have hl : n.deed.leaves = true := by rw [hd]; rfl
        have he := (leftAt cs (a :: ds) hbs.symm).engaged n.call (hf ▸ engaged_of_leaves hnote hl)
        cases (quiet n hn he).symm.trans hl
      | _ => rfl

/-- The step of the call fails, so it writes nothing back. -/
theorem stays_gone_of_failed_step :
    let h : Hub := { Hub.unused lockedNode with
      repository := { faults := { find := some "locked" } } }
    let t := ((start h).run (submitting "10.0.0.1")).step (.abort (.generated 0))
    (t.run [.advance 1, .advance 1, .advance 1, .advance 1]).Gone (.generated 0) := by
  intro h t
  refine (((stays_gone_iff h _ _ _ ?_ ?_).2 ?_).1 _ List.prefix_rfl)
  · exact abortFlow_ok_iff.2 (by decide +kernel)
  · unfold Supply.Lasts; decide +kernel
  · have quiet : ∀ n ∈ t.added [.advance 1, .advance 1, .advance 1, .advance 1],
        n.deed.leaves = false := by decide +kernel
    exact fun n hn _ => quiet n hn

/-- Not every flow that was dropped stays gone: the step of the call shows the password form. -/
theorem not_always_stays_gone :
    ¬ ∀ (h : Hub) (as bs : List Action) (f : Uuid),
      (((start h).run as).hub.abortFlow f).1 = .ok () →
      ((start h).run (as ++ .abort f :: bs)).hub.supply.Lasts →
      let t := ((start h).run as).step (.abort f)
      (∀ cs, cs <+: bs → (t.run cs).Gone f) ∧
        ∀ n ∈ t.added bs, n.flow = f → n.deed.isStored = false := by
  intro always
  let h : Hub := Hub.unused lockedNode
  have gone := (always h (submitting "10.0.0.1")
    [.advance 1, .advance 1, .advance 1, .advance 1] (.generated 0)
    (abortFlow_ok_iff.2 (by decide +kernel))
    (by unfold Supply.Lasts; decide +kernel)).1 _ List.prefix_rfl
  have back : ((((start h).run (submitting "10.0.0.1")).step (.abort (.generated 0))).run
      [.advance 1, .advance 1, .advance 1, .advance 1]).registered (.generated 0) ≠ none := by
    decide +kernel
  exact back (gone_iff.1 gone)

end Session

end HomeHub
