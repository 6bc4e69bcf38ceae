import HomeHub.Proofs.Entry.Rows
import HomeHub.Proofs.FlowManager.Step
import HomeHub.Proofs.Uuid
import Mathlib.Data.List.Nodup

/-!
# Storing an entry without a lock

A call that has a new entry looks whether it is configured, stores it, and if that fails looks
again. Here is what the stages of such a call own (`Stage.stored?`, `Stage.told?`, `Stage.id?`), what
precedes them (`Stage.Fits`), and what a step of a call that submits a form can do (`Stage.Goes`).
-/

namespace HomeHub

namespace Stage

/-- The entry that the call has stored. -/
def stored? : Stage → Option Entry
  | .announce _ e => some e
  | .finish _ entry => entry
  | .unclaim (.ok r) | .done (.ok r) => r.entry
  | _ => none

/-- The entry that the call has told of. -/
def told? : Stage → Option Entry
  | .finish _ entry => entry
  | .unclaim (.ok r) | .done (.ok r) => r.entry
  | _ => none

/-- The identifier that the call has drawn for its entry. -/
def id? : Stage → Option Uuid
  | .store _ e => some e.id
  | s => s.stored?.map (·.id)

/-- The new entry that the step of the call has produced. -/
def new? : Stage → Option Flow.NewEntry
  | .check n | .store n _ | .recheck n _ | .announce n _ => some n
  | .finish (.createEntry n) _ => some n
  | .done (.ok ⟨_, .createEntry n, _⟩) => some n
  | _ => none

end Stage

theorem Stage.id?_of_stored? {s : Stage} {e : Entry} (h : s.stored? = some e) :
    s.id? = some e.id := by
  cases s with
  | store n e' => cases h
  | _ => rw [id?, h, Option.map_some]; exact nofun

/-- The unique id of the new entry is taken. -/
def Rows.Taken (rows : Rows) (n : Flow.NewEntry) : Prop :=
  ∃ id, n.uniqueId = some id ∧ ∃ r ∈ rows, r.domain = nativeApiDomain ∧ r.uniqueId = some id

theorem Rows.Taken.of_bare {rows rows' : Rows} {n : Flow.NewEntry} {l : List Row}
    (h : rows.Taken n) (grows : rows'.map Row.bare = rows.map Row.bare ++ l) : rows'.Taken n := by
  obtain ⟨id, hid, r, hr, hdomain, huid⟩ := h
  have hmem : r.bare ∈ rows'.map Row.bare := by
    rw [grows]
    exact List.mem_append_left _ (List.mem_map_of_mem hr)
  obtain ⟨r', hr', heq⟩ := List.mem_map.1 hmem
  exact ⟨id, hid, r', hr', (Row.domain_of_bare heq).trans hdomain,
    (Row.uniqueId_of_bare heq).trans huid⟩

/-- Keys are texts of identifiers, each used once. -/
structure Rows.Keyed (rows : Rows) : Prop where
  once : (rows.map (·.id)).Nodup
  text : ∀ r ∈ rows, ∃ u : Uuid, r.id = u.text

theorem Rows.Keyed.of_bare {rows rows' : Rows} (h : rows.Keyed)
    (same : rows'.map Row.bare = rows.map Row.bare) : rows'.Keyed where
  once := by
    have hid (l : Rows) : l.map (·.id) = (l.map Row.bare).map (·.id) := by
      rw [List.map_map]
      rfl
    rw [hid, same, ← hid]
    exact h.once
  text r hr := by
    have hmem : r.bare ∈ rows.map Row.bare := same ▸ List.mem_map_of_mem hr
    obtain ⟨r', hr', heq⟩ := List.mem_map.1 hmem
    obtain ⟨u, hu⟩ := h.text r' hr'
    exact ⟨u, (Row.id_of_bare heq).symm.trans hu⟩

theorem Rows.Keyed.insert {rows rows' : Rows} {e : Entry} (h : rows.Keyed)
    (hins : rows.insert? (.ofEntry e) = some rows') : rows'.Keyed := by
  obtain ⟨free, rfl⟩ := Rows.insert?_eq_some.1 hins
  constructor
  · rw [List.map_append]
    refine List.nodup_append.2 ⟨h.once, List.nodup_singleton _, fun a ha b hb heq => ?_⟩
    obtain ⟨r, hr, rfl⟩ := List.mem_map.1 ha
    rw [List.map_singleton, List.mem_singleton] at hb
    exact (free r hr).1 (heq.trans hb)
  · intro r hr
    rcases List.mem_append.1 hr with hr | hr
    · exact h.text r hr
    · rw [List.mem_singleton.1 hr]
      exact ⟨e.id, rfl⟩

/-- The entry is what an answer says, and only a created one comes with an entry. -/
def Flow.Result.Settles (result : Flow.Result) (entry : Option Entry) : Prop :=
  (∃ n e, result = .createEntry n ∧ entry = some e ∧ n.Builds e) ∨
    (∀ n, result ≠ .createEntry n) ∧ entry = none

/-- What precedes a phase of a step that submits a form. Only an announcement may change more than
the data of an entry. -/
def Flow.Phase.Fits (rows : Rows) : Flow.Phase → Prop
  | .findMatch _ (.announced _) | .listKnown _ _ => False
  | .update _ e => ∃ r ∈ rows, r.IsOf e
  | _ => True

/-- What precedes a stage of a call that submits a form. -/
def Stage.Fits (rows : Rows) : Stage → Prop
  | .claim _ | .unclaim _ => False
  | .run p => p.Fits rows
  | .register _ form => form.Settles none
  | .store n e => n.Builds e ∧ e.validate = .ok ()
  | .recheck n _ => rows.Taken n
  | .announce n e => n.Builds e
  | .finish result entry => result.Settles entry
  | .done (.ok r) => r.result.Settles r.entry
  | _ => True

/-- Rows that are added do no harm. -/
theorem Stage.Fits.of_bare {rows rows' : Rows} {s : Stage} {l : List Row} (h : s.Fits rows)
    (grows : rows'.map Row.bare = rows.map Row.bare ++ l) : s.Fits rows' := by
  cases s with
  | run p =>
    cases p with
    | update f e =>
      obtain ⟨r, hr, hof⟩ := h
      have hmem : r.bare ∈ rows'.map Row.bare := by
        rw [grows]
        exact List.mem_append_left _ (List.mem_map_of_mem hr)
      obtain ⟨r', hr', heq⟩ := List.mem_map.1 hmem
      exact ⟨r', hr', hof.of_bare heq⟩
    | findMatch f g => cases g with
      | announced a => exact h
      | described info => trivial
    | _ => exact h
  | recheck n err => exact Rows.Taken.of_bare h grows
  | done r =>
    cases r with
    | error err => trivial
    | ok r => exact h
  | _ => exact h

/-! ### Phases -/

namespace Flow.Phase

variable {rows : Rows}

theorem fits_submit (f : Flow) (input : Json) : (f.submit input).Fits rows := by
  unfold submit
  split
  · split
    · simp only [startUser]
      split <;> trivial
    · trivial
  · trivial
  · split
    · simp only [startAuthenticate]
      split <;> trivial
    · trivial

theorem fits_create (f : Flow) : f.create.Fits rows := by
  unfold create
  split <;> trivial

theorem fits_proceed (f : Flow) (info : DeviceInfo) : (proceed f (.described info)).Fits rows := by
  simp only [proceed]
  split
  · trivial
  · exact fits_create f

/-- An entry that was read from a row is still one of that row after its data changed. -/
theorem fits_afterMatch (keyed : rows.Keyed) (f : Flow) (info : DeviceInfo) (found : Option Entry)
    (read : ∀ e, found = some e → ∃ r ∈ rows, r.Reads e) :
    (afterMatch f (.described info) found).Fits rows := by
  cases found with
  | none => exact fits_proceed f info
  | some e =>
    simp only [afterMatch]
    split
    · trivial
    · obtain ⟨r, hr, reads⟩ := read e rfl
      obtain ⟨u, hu⟩ := keyed.text r hr
      have hid : e.id = u := Option.some.inj (reads.id.symm.trans (hu ▸ u.parse?_text))
      exact ⟨r, hr, hu.trans (congrArg Uuid.text hid.symm), reads.title, reads.uniqueId, reads.source⟩

/-- A step that submits a form adds and removes no row. -/
theorem map_bare_step (keyed : rows.Keyed) {p : Phase} {h : Hub} (hrows : h.repository.rows = rows)
    (fits : p.Fits rows) : (p.step h).2.repository.rows.map Row.bare = rows.map Row.bare := by
  subst hrows
  cases p with
  | update f e =>
    rw [hub_step_update]
    refine Repository.map_bare_updateEntry fun row hrow hid => ?_
    obtain ⟨r, hr, hof⟩ := fits
    rw [List.inj_on_of_nodup_map keyed.once hrow hr (hid.trans hof.id.symm)]
    exact hof
  | findMatch f g => simp only [step]; split <;> rfl
  | listKnown f a => cases fits
  | _ => rfl

theorem faults_step (p : Phase) (h : Hub) :
    (p.step h).2.repository.faults = h.repository.faults := by
  cases p with
  | update f e => rw [hub_step_update]; exact Repository.updateEntry_faults e
  | findMatch f g => simp only [step]; split <;> rfl
  | listKnown f a => simp only [step]; split <;> rfl
  | _ => rfl

theorem publisher_step (p : Phase) (h : Hub) : (p.step h).2.publisher = h.publisher := by
  cases p with
  | update f e => rw [hub_step_update]; rfl
  | findMatch f g => simp only [step]; split <;> rfl
  | listKnown f a => simp only [step]; split <;> rfl
  | _ => rfl

theorem fits_step {p : Phase} {h : Hub} (keyed : h.repository.rows.Keyed)
    (fits : p.Fits h.repository.rows) : (p.step h).1.Fits (p.step h).2.repository.rows := by
  cases p with
  | described f reply =>
    cases reply with
    | error err => trivial
    | ok info => trivial
  | loggedIn f reply =>
    cases reply with
    | error err => trivial
    | ok u => exact fits_create f
  | findMatch f g =>
    cases g with
    | announced a => cases fits
    | described info =>
      simp only [step]
      split
      · trivial
      · next found hfound =>
        refine fits_afterMatch keyed f info found fun e he => ?_
        rw [he] at hfound
        obtain ⟨r, hr, -, -, reads⟩ := Repository.mem_rows_of_found hfound
        exact ⟨r, hr, reads⟩
  | update f e =>
    simp only [step]
    split <;> trivial
  | listKnown f a => cases fits
  | _ => trivial

end Flow.Phase

/-! ### Stages -/

/-- Where a step of a flow leads to before any entry is stored. -/
inductive Stage.Opens (rows : Rows) : Stage → Prop where
  | run {p : Flow.Phase} : p.Fits rows → Opens rows (.run p)
  | register (f : Flow) (form : Flow.Form) : Opens rows (.register f (.form form))
  | check (n : Flow.NewEntry) : Opens rows (.check n)
  | abort (reason : Flow.AbortReason) : Opens rows (.finish (.abort reason) none)
  | release (err : HubError) : Opens rows (.release err)

theorem Job.opens_advance {rows : Rows} {j : Job} {p : Flow.Phase} (hc : j.claimed = none)
    (fits : p.Fits rows) : (j.advance p).stage.Opens rows := by
  unfold advance
  split
  · unfold settle
    split
    · exact .register _ _
    · exact .check _
    · exact .abort _
    · rw [hc]
      exact .release _
  · exact .run fits

/-- What the next thing that a call without a claim does can be: the stage it goes on to, and the
hub. -/
inductive Stage.Goes (h : Hub) : Stage → Stage → Hub → Prop where
  | refuse (input : Json) (err : HubError) : Goes h (.begin input) (.done (.error err)) h
  | enter (input : Json) {s : Stage} (flows : FlowTable) :
      s.Opens h.repository.rows → Goes h (.begin input) s { h with flows }
  | work {p : Flow.Phase} {s : Stage} :
      s.Opens (p.step h).2.repository.rows → Goes h (.run p) s (p.step h).2
  | register (f : Flow) (form : Flow.Result) (id : Uuid) (flows : FlowTable) :
      Goes h (.register f form) (.done (.ok ⟨id, form, none⟩)) { h with flows }
  | configured {n : Flow.NewEntry} :
      h.repository.rows.Taken n → Goes h (.check n) (.finish (.abort .alreadyConfigured) none) h
  | unanswered {n : Flow.NewEntry} {err : HubError} :
      Job.existing h n = .error err → Goes h (.check n) (.release err) h
  | invalid {n : Flow.NewEntry} {rule : Invalid} :
      n.build h.draw.1 h.supply.now = .error rule →
        Goes h (.check n) (.release (.invalid rule)) h.draw.2
  | build {n : Flow.NewEntry} {e : Entry} :
      n.build h.draw.1 h.supply.now = .ok e → Goes h (.check n) (.store n e) h.draw.2
  | store {n : Flow.NewEntry} {e : Entry} {rows : Rows} :
      h.repository.rows.insert? (.ofEntry e) = some rows →
        Goes h (.store n e) (.announce n e) { h with repository := { h.repository with rows } }
  | collide {n : Flow.NewEntry} {e : Entry} (err : HubError) :
      h.repository.rows.insert? (.ofEntry e) = none → Goes h (.store n e) (.recheck n err) h
  | lose {n : Flow.NewEntry} (err : HubError) : h.repository.rows.Taken n →
      Goes h (.recheck n err) (.finish (.abort .alreadyConfigured) none) h
  | fail {n : Flow.NewEntry} (err err' : HubError) :
      (∀ e, Job.existing h n ≠ .ok (some e)) → Goes h (.recheck n err) (.release err') h
  | announce (n : Flow.NewEntry) (e : Entry) :
      Goes h (.announce n e) (.finish (.createEntry n) (some e))
        (h.publish .configEntryCreated none (Job.createdData e)).2
  | finish (result : Flow.Result) (entry : Option Entry) (id : Uuid) (flows : FlowTable) :
      Goes h (.finish result entry) (.done (.ok ⟨id, result, entry⟩)) { h with flows }
  | release (err : HubError) (flows : FlowTable) :
      Goes h (.release err) (.done (.error err)) { h with flows }
  | done (r : Except HubError FlowResponse) : Goes h (.done r) (.done r) h

theorem Job.taken_of_existing {h : Hub} {n : Flow.NewEntry} {e : Entry}
    (heq : existing h n = .ok (some e)) : h.repository.rows.Taken n := by
  unfold existing at heq
  split at heq
  · next id hid =>
    obtain ⟨r, hr, hdomain, huid, -⟩ := Repository.mem_rows_of_found heq
    exact ⟨id, hid, r, hr, hdomain, huid⟩
  · cases heq

theorem Job.goes_step {j : Job} {h : Hub} (hc : j.claimed = none)
    (fits : j.stage.Fits h.repository.rows) (keyed : h.repository.rows.Keyed)
    (faultless : h.repository.faults = {}) :
    j.stage.Goes h (j.step h).1.stage (j.step h).2 ∧ (j.step h).1.claimed = none := by
  obtain ⟨id, claimed, stage⟩ := j
  cases hc
  cases stage with
  | claim a => cases fits
  | unclaim r => cases fits
  | begin input =>
    simp only [step]
    split
    · exact ⟨.refuse input _, rfl⟩
    · next p _ =>
      split
      · exact ⟨.refuse input _, rfl⟩
      · exact ⟨.enter input _ (opens_advance rfl (Flow.Phase.fits_submit p.flow input)),
          claimed_advance _ _⟩
  | run p =>
    exact ⟨.work (opens_advance rfl (Flow.Phase.fits_step keyed fits)), claimed_advance _ _⟩
  | register f form => exact ⟨.register f form id _, rfl⟩
  | check n =>
    simp only [step]
    split
    · next herr => exact ⟨.unanswered herr, rfl⟩
    · next hfound => exact ⟨.configured (taken_of_existing hfound), rfl⟩
    · split
      · next hbuild => exact ⟨.invalid hbuild, rfl⟩
      · next hbuild => exact ⟨.build hbuild, rfl⟩
  | store n e =>
    simp only [step, Hub.createEntry_eq faultless fits.2]
    cases hins : h.repository.rows.insert? (.ofEntry e) with
    | none => exact ⟨.collide _ hins, rfl⟩
    | some rows => exact ⟨.store hins, rfl⟩
  | recheck n err =>
    simp only [step]
    split
    · next herr =>
      refine ⟨.fail err _ fun e he => ?_, rfl⟩
      cases herr.symm.trans he
    · exact ⟨.lose err fits, rfl⟩
    · next hnone =>
      refine ⟨.fail err _ fun e he => ?_, rfl⟩
      cases hnone.symm.trans he
  | announce n e => exact ⟨.announce n e, rfl⟩
  | finish result entry => exact ⟨.finish result entry id _, rfl⟩
  | release err => exact ⟨.release err _, rfl⟩
  | done r => exact ⟨.done r, rfl⟩

namespace Stage

variable {h h' : Hub} {s s' : Stage}

namespace Opens

variable {rows : Rows}

theorem fits (ho : s.Opens rows) : s.Fits rows := by
  cases ho with
  | run hp => exact hp
  | register f form => exact .inr ⟨nofun, rfl⟩
  | check n => trivial
  | abort reason => exact .inr ⟨nofun, rfl⟩
  | release err => trivial

theorem stored? (ho : s.Opens rows) : s.stored? = none := by cases ho <;> rfl

theorem told? (ho : s.Opens rows) : s.told? = none := by cases ho <;> rfl

theorem id? (ho : s.Opens rows) : s.id? = none := by cases ho <;> rfl

theorem new? {n : Flow.NewEntry} (ho : s.Opens rows) (hn : s.new? = some n) : s = .check n := by
  cases ho <;> cases hn
  rfl

end Opens

namespace Goes

theorem faults (hg : s.Goes h s' h') : h'.repository.faults = h.repository.faults := by
  cases hg with
  | work ho => exact Flow.Phase.faults_step _ h
  | _ => rfl

/-- Only two steps add a row, publish anything, or change what the call has stored and told. -/
theorem kinds (hg : s.Goes h s' h') (keyed : h.repository.rows.Keyed)
    (fits : s.Fits h.repository.rows) :
    (h'.repository.rows.map Row.bare = h.repository.rows.map Row.bare ∧
      h'.publisher = h.publisher ∧ s'.stored? = s.stored? ∧ s'.told? = s.told?) ∨
    (∃ n e, s = .store n e ∧ s' = .announce n e ∧ h'.publisher = h.publisher ∧
      h.repository.rows.insert? (.ofEntry e) = some h'.repository.rows) ∨
    ∃ n e, s = .announce n e ∧ s' = .finish (.createEntry n) (some e) ∧
      h' = (h.publish .configEntryCreated none (Job.createdData e)).2 := by
  cases hg with
  | enter input flows ho => exact .inl ⟨rfl, rfl, ho.stored?, ho.told?⟩
  | work ho =>
    exact .inl ⟨Flow.Phase.map_bare_step keyed rfl fits, Flow.Phase.publisher_step _ h, ho.stored?,
      ho.told?⟩
  | store hins => exact .inr (.inl ⟨_, _, rfl, rfl, rfl, hins⟩)
  | announce n e => exact .inr (.inr ⟨n, e, rfl, rfl, rfl⟩)
  | _ => exact .inl ⟨rfl, rfl, rfl, rfl⟩

/-- A call has only the identifier that it has drawn. -/
theorem id? (hg : s.Goes h s' h') {u : Uuid} (hu : s'.id? = some u) : s.id? = some u ∨
    u = .generated h.supply.drawn ∧ h'.supply.drawn = h.supply.drawn + 1 := by
  cases hg with
  | enter input flows ho => cases ho.id?.symm.trans hu
  | work ho => cases ho.id?.symm.trans hu
  | build hbuild =>
    obtain ⟨-, hid, -⟩ := Flow.NewEntry.builds_of_build hbuild
    cases hu
    exact .inr ⟨hid, rfl⟩
  | store hins => exact .inl hu
  | announce n e => exact .inl hu
  | finish result entry id flows => exact .inl hu
  | done r => exact .inl hu
  | _ => cases hu

/-- A step that is about a new entry was so before, or has just produced it. -/
theorem new? (hg : s.Goes h s' h') (fits : s.Fits h.repository.rows) {n : Flow.NewEntry}
    (hn : s'.new? = some n) : s.new? = some n ∨ s' = .check n := by
  cases hg with
  | enter input flows ho => exact .inr (ho.new? hn)
  | work ho => exact .inr (ho.new? hn)
  | register f form id flows =>
    cases form with
    | createEntry m =>
      rcases fits with ⟨m', e, -, heq, -⟩ | ⟨hne, -⟩
      · cases heq
      · exact absurd rfl (hne m)
    | _ => cases hn
  | finish result entry id flows => cases result <;> exact .inl hn
  | build hbuild => exact .inl hn
  | store hins => exact .inl hn
  | collide err hins => exact .inl hn
  | announce m e => exact .inl hn
  | done r => exact .inl hn
  | _ => cases hn

/-- What precedes a stage still does after the step to it, if only rows with one unique id collide.
-/
theorem fits (hg : s.Goes h s' h') (hs : s.Fits h.repository.rows)
    (collides : ∀ n e, s = .store n e → h.repository.rows.insert? (.ofEntry e) = none →
      h.repository.rows.Taken n) : s'.Fits h'.repository.rows := by
  cases hg with
  | enter input flows ho => exact ho.fits
  | work ho => exact ho.fits
  | build hbuild =>
    obtain ⟨hb, -, hvalid⟩ := Flow.NewEntry.builds_of_build hbuild
    exact ⟨hb, hvalid⟩
  | store hins => exact hs.1
  | collide err hins => exact collides _ _ rfl hins
  | configured taken => exact .inr ⟨nofun, rfl⟩
  | lose err taken => exact .inr ⟨nofun, rfl⟩
  | announce n e => exact .inl ⟨n, e, rfl, rfl, hs⟩
  | register f form id flows => exact hs
  | finish result entry id flows => exact hs
  | done r => exact hs
  | _ => trivial

theorem grows (hg : s.Goes h s' h') (keyed : h.repository.rows.Keyed)
    (fits : s.Fits h.repository.rows) :
    ∃ l, h'.repository.rows.map Row.bare = h.repository.rows.map Row.bare ++ l := by
  rcases hg.kinds keyed fits with ⟨heq, -⟩ | ⟨n, e, -, -, -, hins⟩ | ⟨n, e, -, -, rfl⟩
  · exact ⟨[], by rw [heq, List.append_nil]⟩
  · rw [(Rows.insert?_eq_some.1 hins).2]
    exact ⟨[(Row.ofEntry e).bare], by rw [List.map_append]; rfl⟩
  · exact ⟨[], (List.append_nil _).symm⟩

end Goes

/-- Where a call can be once its step has produced a new entry. It fails only if the entry has no
title. -/
def After (rows : Rows) (n : Flow.NewEntry) : Stage → Prop
  | .check m | .store m _ | .recheck m _ | .announce m _ => m = n
  | .finish result _ => result = .createEntry n ∨ result = .abort .alreadyConfigured ∧ rows.Taken n
  | .done (.ok r) =>
    r.result = .createEntry n ∨ r.result = .abort .alreadyConfigured ∧ rows.Taken n
  | .release _ | .done (.error _) => isAllBlank n.title = true
  | _ => False

theorem After.of_bare {rows rows' : Rows} {n : Flow.NewEntry} {s : Stage} {l : List Row}
    (h : s.After rows n) (grows : rows'.map Row.bare = rows.map Row.bare ++ l) :
    s.After rows' n := by
  cases s with
  | finish result entry => exact h.imp_right fun ⟨hr, taken⟩ => ⟨hr, taken.of_bare grows⟩
  | done r =>
    cases r with
    | error err => exact h
    | ok r => exact h.imp_right fun ⟨hr, taken⟩ => ⟨hr, taken.of_bare grows⟩
  | _ => exact h

end Stage

theorem Flow.NewEntry.blank_of_build {n : Flow.NewEntry} {fresh : Uuid} {now : Timestamp}
    {rule : Invalid} (h : n.build fresh now = .error rule) : isAllBlank n.title = true := by
  have hdomain : isAllBlank nativeApiDomain = false := by decide +kernel
  by_contra hne
  have hbuild : n.build fresh now =
      .ok ⟨fresh, nativeApiDomain, n.title, n.uniqueId, n.source, n.data.toJson, now⟩ := by
    simp [build, Entry.Draft.build, Entry.validate, hdomain, hne, bind, Except.bind, pure,
      Except.pure]
  rw [hbuild] at h
  cases h

theorem Job.existing_of_taken {h : Hub} {n : Flow.NewEntry} {es : List Entry}
    (query : h.repository.ofDomain nativeApiDomain = .ok es) (taken : h.repository.rows.Taken n) :
    ∃ e, existing h n = .ok (some e) := by
  obtain ⟨id, hid, r, hr, hdomain, huid⟩ := taken
  simp only [existing, hid]
  exact Repository.exists_of_mem_rows query hr hdomain huid

theorem Job.existing_ok {h : Hub} (n : Flow.NewEntry) {es : List Entry}
    (query : h.repository.ofDomain nativeApiDomain = .ok es) : ∃ found, existing h n = .ok found := by
  unfold existing
  split
  · exact Repository.findByUniqueId_ok query
  · exact ⟨none, rfl⟩

theorem Stage.Goes.after {h h' : Hub} {s s' : Stage} {n : Flow.NewEntry} {es : List Entry}
    (hg : s.Goes h s' h') (keyed : h.repository.rows.Keyed) (fits : s.Fits h.repository.rows)
    (query : h.repository.ofDomain nativeApiDomain = .ok es) (ha : s.After h.repository.rows n) :
    s'.After h'.repository.rows n := by
  obtain ⟨l, hl⟩ := hg.grows keyed fits
  cases hg with
  | configured taken =>
    cases ha
    exact .inr ⟨rfl, taken⟩
  | unanswered herr =>
    obtain ⟨found, hfound⟩ := Job.existing_ok _ query
    cases herr.symm.trans hfound
  | invalid hbuild =>
    cases ha
    exact Flow.NewEntry.blank_of_build hbuild
  | lose err taken =>
    cases ha
    exact .inr ⟨rfl, taken⟩
  | fail err err' hnone =>
    -- whatever made the insertion fail is found
    obtain ⟨e, he⟩ := Job.existing_of_taken query fits
    exact absurd he (hnone e)
  | announce m e =>
    cases ha
    exact .inl rfl
  | finish result entry id flows => exact ha
  | build hbuild => exact ha
  | store hins => exact ha
  | collide err hins => exact ha
  | release err flows => exact ha
  | done r => exact ha
  | _ => cases ha

end HomeHub
