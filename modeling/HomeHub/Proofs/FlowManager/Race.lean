import HomeHub.Proofs.FlowManager.Orderly
import HomeHub.Proofs.FlowManager.Persist
import Mathlib.Data.List.Pairwise

/-!
# Calls that race for an entry

Any number of calls submit forms, interleaved in any way, and nothing else is at work on entries.
`Session.Race` is what holds all along: rows and events are those from before and those of the calls
that stored and told.
-/

namespace HomeHub

/-- The list has what each call owns, once. -/
structure Ledger (l : List (Nat × Entry)) (owns : Nat → Option Entry) : Prop where
  once : (l.map Prod.fst).Nodup
  mem : ∀ i e, (i, e) ∈ l ↔ owns i = some e

namespace Ledger

variable {l l' : List (Nat × Entry)} {owns owns' : Nat → Option Entry}

theorem congr (h : Ledger l owns) (same : ∀ i, owns' i = owns i) : Ledger l owns' where
  once := h.once
  mem i e := by rw [same, h.mem]

theorem concat {i : Nat} {e : Entry} (h : Ledger l owns) (old : owns i = none)
    (new : owns' i = some e) (others : ∀ k, k ≠ i → owns' k = owns k) :
    Ledger (l ++ [(i, e)]) owns' where
  once := by
    rw [List.map_append]
    refine List.nodup_append.2 ⟨h.once, List.nodup_singleton _, fun a ha b hb heq => ?_⟩
    obtain ⟨⟨k, e'⟩, hk, rfl⟩ := List.mem_map.1 ha
    rw [List.map_singleton, List.mem_singleton] at hb
    rw [h.mem, show k = i from heq.trans hb, old] at hk
    cases hk
  mem k e' := by
    rw [List.mem_append, h.mem, List.mem_singleton]
    by_cases hk : k = i
    · subst hk
      rw [old, new]
      simp [eq_comm]
    · simp [others k hk, hk]

theorem perm (h : Ledger l owns) (h' : Ledger l' owns) : l.Perm l' := by
  have hl : l.Nodup := List.Nodup.of_map _ h.once
  have hl' : l'.Nodup := List.Nodup.of_map _ h'.once
  refine (List.perm_ext_iff_of_nodup hl hl').2 fun p => ?_
  rw [h.mem, h'.mem]

end Ledger

theorem Hub.published_publish {h : Hub} (accepts : ∀ n, h.publisher.refuses n = none)
    (t : EventType) (id : Option String) (data : Json) :
    (h.publish t id data).2.publisher.refuses = h.publisher.refuses ∧
      ∃ e : Event, e.said = (t, id, data) ∧
        (h.publish t id data).2.publisher.published = h.publisher.published ++ [e] := by
  unfold publish Publisher.publish
  rw [accepts]
  exact ⟨rfl, _, rfl, rfl⟩

/-- The action lets a call go on, or it leaves entries and events alone. -/
def Action.IsQuiet : Action → Prop
  | .advance _ | .get _ | .list | .nodes _ => True
  | .elsewhere change =>
    ∀ h, (change h).repository = h.repository ∧ (change h).publisher = h.publisher
  | _ => False

namespace Session

/-- Calls that are about to submit forms. -/
def calling (h : Hub) (calls : List (Uuid × Json)) : Session where
  hub := h
  jobs := calls.map fun c => Hub.configureJob c.1 c.2

/-- The entry that a call has stored. -/
def stored (t : Session) (i : Nat) : Option Entry := t.jobs[i]?.bind (·.stage.stored?)

/-- The entry that a call has told of. -/
def told (t : Session) (i : Nat) : Option Entry := t.jobs[i]?.bind (·.stage.told?)

/-- The identifier that a call has drawn for its entry. -/
def drew (t : Session) (i : Nat) : Option Uuid := t.jobs[i]?.bind (·.stage.id?)

/-- Each identifier that a call has drawn, since `first` identifiers were drawn, is its own. -/
structure Mints (first : Nat) (t : Session) : Prop where
  begun : first ≤ t.hub.supply.drawn
  minted : ∀ i u, t.drew i = some u → ∃ k, first ≤ k ∧ k < t.hub.supply.drawn ∧ u = .generated k
  once : ∀ i k u, t.drew i = some u → t.drew k = some u → i = k

/-- No call has claimed a device, and each is preceded by what it has to be. -/
def Fit (t : Session) : Prop :=
  ∀ (i : Nat) (j : Job), t.jobs[i]? = some j →
    j.claimed = none ∧ j.stage.Fits t.hub.repository.rows

/-- The entries `won` were stored and those of `tales` were told of, by calls that race since
`first` identifiers were drawn, there were the rows `old`, and the events `before` were published.
-/
structure Race (first : Nat) (old : Rows) (before : List Event) (t : Session)
    (won tales : List (Nat × Entry)) : Prop extends t.Mints first where
  faultless : t.hub.repository.faults = {}
  accepts : ∀ n, t.hub.publisher.refuses n = none
  keyed : t.hub.repository.rows.Keyed
  rows : t.hub.repository.rows.map Row.bare =
    old.map Row.bare ++ won.map fun p => (Row.ofEntry p.2).bare
  published : ∃ news : List Event, t.hub.publisher.published = before ++ news ∧
    news.map Event.said = tales.map fun p => (.configEntryCreated, none, Job.createdData p.2)
  stored : Ledger won t.stored
  told : Ledger tales t.told
  apart : won.Pairwise fun a b => ¬ (Row.ofEntry a.2).clashes (.ofEntry b.2) = true
  calls : t.Fit

variable {first last : Nat} {old : Rows} {before : List Event} {t t' : Session}
  {won tales : List (Nat × Entry)}

theorem Mints.congr (hm : t.Mints first) (hj : t'.jobs = t.jobs)
    (hd : t.hub.supply.drawn ≤ t'.hub.supply.drawn) : t'.Mints first where
  begun := Nat.le_trans hm.begun hd
  minted i u hu := by
    rw [drew, hj] at hu
    obtain ⟨k, hk, hlt, rfl⟩ := hm.minted i u hu
    exact ⟨k, hk, Nat.lt_of_lt_of_le hlt hd, rfl⟩
  once i k u hi hk := by
    rw [drew, hj] at hi hk
    exact hm.once i k u hi hk

/-- A step that neither stores nor tells. -/
theorem Race.idle (hr : t.Race first old before won tales) (mints : t'.Mints first) (calls : t'.Fit)
    (hfaults : t'.hub.repository.faults = t.hub.repository.faults)
    (hrows : t'.hub.repository.rows.map Row.bare = t.hub.repository.rows.map Row.bare)
    (hpub : t'.hub.publisher = t.hub.publisher)
    (stored : ∀ k, t'.stored k = t.stored k) (told : ∀ k, t'.told k = t.told k) :
    t'.Race first old before won tales where
  toMints := mints
  faultless := hfaults.trans hr.faultless
  accepts := hpub ▸ hr.accepts
  keyed := hr.keyed.of_bare hrows
  rows := hrows.trans hr.rows
  published := hpub ▸ hr.published
  stored := hr.stored.congr stored
  told := hr.told.congr told
  apart := hr.apart
  calls := calls

theorem Race.congr (hr : t.Race first old before won tales) (hj : t'.jobs = t.jobs)
    (hrep : t'.hub.repository = t.hub.repository) (hpub : t'.hub.publisher = t.hub.publisher)
    (hd : t.hub.supply.drawn ≤ t'.hub.supply.drawn) : t'.Race first old before won tales := by
  refine hr.idle (hr.toMints.congr hj hd) (fun i j hi => ?_) (by rw [hrep]) (by rw [hrep]) hpub
    (fun k => ?_) (fun k => ?_)
  · rw [hj] at hi
    rw [hrep]
    exact hr.calls i j hi
  · rw [Session.stored, Session.stored, hj]
  · rw [Session.told, Session.told, hj]

/-! ### The step of a call -/

section Advance

variable {i : Nat} {j : Job} {n : Flow.NewEntry} {e : Entry}

theorem bind_stage_advance {α : Type} (f : Stage → Option α) (hj : t.jobs[i]? = some j) (k : Nat) :
    ((t.step (.advance i)).jobs[k]?.bind fun j => f j.stage) =
      if k = i then f (j.step t.hub).1.stage else t.jobs[k]?.bind fun j => f j.stage := by
  rw [getElem?_jobs_advance hj]
  split <;> rfl

theorem bind_stage_advance_of_eq {α : Type} (f : Stage → Option α) (hj : t.jobs[i]? = some j)
    (same : f (j.step t.hub).1.stage = f j.stage) (k : Nat) :
    ((t.step (.advance i)).jobs[k]?.bind fun j => f j.stage) =
      t.jobs[k]?.bind fun j => f j.stage := by
  rw [bind_stage_advance f hj]
  split
  · next hki => rw [hki, hj, Option.bind_some, same]
  · rfl

theorem drew_of_stored (h : t.stored i = some e) : t.drew i = some e.id := by
  obtain ⟨j, hj, hs⟩ := Option.bind_eq_some_iff.1 h
  rw [drew, hj]
  exact Stage.id?_of_stored? hs

theorem Mints.advance (hm : t.Mints first) (hj : t.jobs[i]? = some j)
    (goes : j.stage.Goes t.hub (j.step t.hub).1.stage (j.step t.hub).2)
    (lasts : (j.step t.hub).2.supply.drawn ≤ 2 ^ 128) : (t.step (.advance i)).Mints first := by
  have hdrawn := j.drawn_le_step t.hub
  have hhub : (t.step (.advance i)).hub = (j.step t.hub).2 := by rw [step_advance hj]
  have hdrew (k : Nat) : (t.step (.advance i)).drew k =
      if k = i then (j.step t.hub).1.stage.id? else t.drew k :=
    bind_stage_advance Stage.id? hj k
  have own : t.drew i = j.stage.id? := by rw [drew, hj, Option.bind_some]
  have older (k : Nat) (u : Uuid) (hu : t.drew k = some u) :
      ∃ m, first ≤ m ∧ m < (j.step t.hub).2.supply.drawn ∧ u = .generated m := by
    obtain ⟨m, hm', hlt, rfl⟩ := hm.minted k u hu
    exact ⟨m, hm', Nat.lt_of_lt_of_le hlt hdrawn, rfl⟩
  -- what the call has drawn now, nobody else had before
  have meets (k : Nat) (u : Uuid) (hnew : (j.step t.hub).1.stage.id? = some u)
      (hk : t.drew k = some u) : k = i := by
    rcases goes.id? hnew with hu | ⟨rfl, hd⟩
    · exact hm.once k i u hk (own.trans hu)
    · obtain ⟨m, -, hlt, heq⟩ := hm.minted k _ hk
      rw [hd] at lasts
      have := Uuid.generated_inj (by omega) (by omega) heq
      omega
  refine ⟨hhub ▸ Nat.le_trans hm.begun hdrawn, fun k u hu => ?_, fun k l u hk hl => ?_⟩
  · rw [hhub]
    rw [hdrew] at hu
    split at hu
    · rcases goes.id? hu with hu | ⟨rfl, hd⟩
      · exact older i u (own.trans hu)
      · exact ⟨_, hm.begun, by rw [hd]; exact Nat.lt_succ_self _, rfl⟩
    · exact older k u hu
  · rw [hdrew] at hk hl
    split at hk
    · next hki =>
      split at hl
      · next hli => rw [hki, hli]
      · rw [hki, meets l u hk hl]
    · split at hl
      · next hli => rw [hli, meets k u hl hk]
      · exact hm.once k l u hk hl

/-- Identifiers are drawn once, so a row that stands in the way has the unique id. -/
theorem Race.taken_of_collision (hr : t.Race first old before won tales)
    (hlast : t.hub.supply.drawn ≤ last)
    (fresh : ∀ r ∈ old, ∀ k, first ≤ k → k < last → r.id ≠ (Uuid.generated k).text)
    (hj : t.jobs[i]? = some j) (hst : j.stage = .store n e)
    (hins : t.hub.repository.rows.insert? (.ofEntry e) = none) :
    t.hub.repository.rows.Taken n := by
  have fits := (hr.calls i j hj).2
  rw [hst] at fits
  obtain ⟨builds, -⟩ := fits
  have hdrew : t.drew i = some e.id := by
    rw [drew, hj, Option.bind_some, hst]
    rfl
  obtain ⟨row, hrow, hid | hclash⟩ := Rows.insert?_eq_none.1 hins
  · obtain ⟨k, hfirst, hk, hgen⟩ := hr.minted i e.id hdrew
    have hid : row.id = e.id.text := hid
    have hbare : row.bare ∈ t.hub.repository.rows.map Row.bare := List.mem_map_of_mem hrow
    rw [hr.rows] at hbare
    rcases List.mem_append.1 hbare with h | h
    · obtain ⟨r, hr', heq⟩ := List.mem_map.1 h
      exact absurd ((Row.id_of_bare heq).trans (hid.trans (congrArg Uuid.text hgen)))
        (fresh r hr' k hfirst (Nat.lt_of_lt_of_le hk hlast))
    · obtain ⟨⟨k', e'⟩, hwon, heq⟩ := List.mem_map.1 h
      have htext : e'.id.text = e.id.text := (Row.id_of_bare heq).trans hid
      have hsame : e'.id = e.id := Uuid.text_injective htext
      have hstored : t.stored k' = some e' := (hr.stored.mem k' e').1 hwon
      have hki := hr.once k' i e.id (hsame ▸ drew_of_stored hstored) hdrew
      rw [hki, Session.stored, hj, Option.bind_some, hst] at hstored
      cases hstored
  · obtain ⟨hdomain, hsome, huid⟩ := Row.clashes_iff.1 hclash
    obtain ⟨id, hid⟩ := Option.isSome_iff_exists.1 hsome
    have huid : row.uniqueId = e.uniqueId := huid
    exact ⟨id, builds.uniqueId.symm.trans (huid.symm.trans hid), row, hrow,
      hdomain.trans builds.domain, hid⟩

/-- What precedes each call still does after a step of one of them. -/
theorem Race.fit_advance (hr : t.Race first old before won tales)
    (hlast : t.hub.supply.drawn ≤ last)
    (fresh : ∀ r ∈ old, ∀ k, first ≤ k → k < last → r.id ≠ (Uuid.generated k).text)
    (hj : t.jobs[i]? = some j)
    (goes : j.stage.Goes t.hub (j.step t.hub).1.stage (j.step t.hub).2)
    (hclaimed : (j.step t.hub).1.claimed = none) : (t.step (.advance i)).Fit := by
  intro k j' hk
  have hhub : (t.step (.advance i)).hub = (j.step t.hub).2 := by rw [step_advance hj]
  obtain ⟨-, fits⟩ := hr.calls i j hj
  obtain ⟨grown, grows⟩ := goes.grows hr.keyed fits
  rw [hhub]
  rw [getElem?_jobs_advance hj] at hk
  split at hk
  · cases hk
    exact ⟨hclaimed, goes.fits fits fun n e hst hins =>
      hr.taken_of_collision hlast fresh hj hst hins⟩
  · obtain ⟨hc, hf⟩ := hr.calls k j' hk
    exact ⟨hc, hf.of_bare grows⟩

/-- A call stores its entry. -/
theorem Race.store (hr : t.Race first old before won tales) (hj : t.jobs[i]? = some j)
    (mints : (t.step (.advance i)).Mints first) (calls : (t.step (.advance i)).Fit)
    (hst : j.stage = .store n e) (hst' : (j.step t.hub).1.stage = .announce n e)
    (hfaults : (t.step (.advance i)).hub.repository.faults = t.hub.repository.faults)
    (hpub : (t.step (.advance i)).hub.publisher = t.hub.publisher)
    (hins : t.hub.repository.rows.insert? (.ofEntry e) =
      some (t.step (.advance i)).hub.repository.rows) :
    (t.step (.advance i)).Race first old before (won ++ [(i, e)]) tales := by
  obtain ⟨free, hrows⟩ := Rows.insert?_eq_some.1 hins
  have hstored (k : Nat) : (t.step (.advance i)).stored k = if k = i then some e else t.stored k := by
    rw [Session.stored, bind_stage_advance Stage.stored? hj, hst']
    rfl
  constructor
  · exact mints
  · exact hfaults.trans hr.faultless
  · exact hpub ▸ hr.accepts
  · exact hr.keyed.insert hins
  · rw [hrows, List.map_append, hr.rows, List.map_append, List.append_assoc]
    rfl
  · exact hpub ▸ hr.published
  · refine hr.stored.concat ?_ ?_ fun k hk => ?_
    · rw [Session.stored, hj, Option.bind_some, hst]; rfl
    · rw [hstored, if_pos rfl]
    · rw [hstored, if_neg hk]
  · exact hr.told.congr (bind_stage_advance_of_eq Stage.told? hj (by rw [hst, hst']; rfl))
  · refine List.pairwise_append.2 ⟨hr.apart, List.pairwise_singleton _ _, fun p hp q hq => ?_⟩
    rw [List.mem_singleton.1 hq]
    have hbare : (Row.ofEntry p.2).bare ∈ t.hub.repository.rows.map Row.bare := by
      rw [hr.rows]
      exact List.mem_append_right _ (List.mem_map.2 ⟨p, hp, rfl⟩)
    obtain ⟨row, hrow, hb⟩ := List.mem_map.1 hbare
    intro hclash
    obtain ⟨hdomain, hsome, huid⟩ := Row.clashes_iff.1 hclash
    refine (free row hrow).2 (Row.clashes_iff.2 ⟨?_, ?_, ?_⟩)
    · exact (Row.domain_of_bare hb).trans hdomain
    · rw [Row.uniqueId_of_bare hb]; exact hsome
    · exact (Row.uniqueId_of_bare hb).trans huid
  · exact calls

/-- A call tells of its entry. -/
theorem Race.tell (hr : t.Race first old before won tales) (hj : t.jobs[i]? = some j)
    (mints : (t.step (.advance i)).Mints first) (calls : (t.step (.advance i)).Fit)
    (hst : j.stage = .announce n e)
    (hst' : (j.step t.hub).1.stage = .finish (.createEntry n) (some e))
    (heq : (t.step (.advance i)).hub =
      (t.hub.publish .configEntryCreated none (Job.createdData e)).2) :
    (t.step (.advance i)).Race first old before won (tales ++ [(i, e)]) := by
  obtain ⟨hrefuses, event, hsaid, hevents⟩ := Hub.published_publish hr.accepts
    .configEntryCreated none (Job.createdData e)
  have hrep : (t.step (.advance i)).hub.repository = t.hub.repository := by rw [heq]; rfl
  have htold (k : Nat) : (t.step (.advance i)).told k = if k = i then some e else t.told k := by
    rw [Session.told, bind_stage_advance Stage.told? hj, hst']
    rfl
  constructor
  · exact mints
  · rw [hrep]; exact hr.faultless
  · rw [heq, hrefuses]; exact hr.accepts
  · rw [hrep]; exact hr.keyed
  · rw [hrep]; exact hr.rows
  · obtain ⟨news, hnews, hsame⟩ := hr.published
    refine ⟨news ++ [event], ?_, ?_⟩
    · rw [heq, hevents, hnews, List.append_assoc]
    · rw [List.map_append, hsame, List.map_append, List.map_singleton, hsaid]
      rfl
  · exact hr.stored.congr (bind_stage_advance_of_eq Stage.stored? hj (by rw [hst, hst']; rfl))
  · refine hr.told.concat ?_ ?_ fun k hk => ?_
    · rw [Session.told, hj, Option.bind_some, hst]; rfl
    · rw [htold, if_pos rfl]
    · rw [htold, if_neg hk]
  · exact hr.apart
  · exact calls

theorem Race.advance (hr : t.Race first old before won tales)
    (hlast : (t.step (.advance i)).hub.supply.drawn ≤ last) (lasts : last ≤ 2 ^ 128)
    (fresh : ∀ r ∈ old, ∀ k, first ≤ k → k < last → r.id ≠ (Uuid.generated k).text)
    (hj : t.jobs[i]? = some j) :
    ∃ w l, (t.step (.advance i)).Race first old before (won ++ w) (tales ++ l) := by
  have hhub : (t.step (.advance i)).hub = (j.step t.hub).2 := by rw [step_advance hj]
  rw [hhub] at hlast
  obtain ⟨hclaimed, fits⟩ := hr.calls i j hj
  obtain ⟨goes, hclaimed'⟩ := Job.goes_step hclaimed fits hr.keyed hr.faultless
  have hlast' : t.hub.supply.drawn ≤ last := Nat.le_trans (j.drawn_le_step t.hub) hlast
  have mints := hr.toMints.advance hj goes (Nat.le_trans hlast lasts)
  have calls := hr.fit_advance hlast' fresh hj goes hclaimed'
  have hfaults : (t.step (.advance i)).hub.repository.faults = t.hub.repository.faults := by
    rw [hhub, goes.faults]
  rcases goes.kinds hr.keyed fits with ⟨hrows, hpub, hsto, htol⟩ |
    ⟨n, e, hst, hst', hpub, hins⟩ | ⟨n, e, hst, hst', heq⟩
  · refine ⟨[], [], ?_⟩
    rw [List.append_nil, List.append_nil]
    exact hr.idle mints calls hfaults (by rw [hhub, hrows]) (by rw [hhub, hpub])
      (bind_stage_advance_of_eq Stage.stored? hj hsto)
      (bind_stage_advance_of_eq Stage.told? hj htol)
  · refine ⟨[(i, e)], [], ?_⟩
    rw [List.append_nil]
    exact hr.store hj mints calls hst hst' hfaults (by rw [hhub, hpub]) (by rw [hhub, hins])
  · refine ⟨[], [(i, e)], ?_⟩
    rw [List.append_nil]
    exact hr.tell hj mints calls hst hst' (by rw [hhub, heq])

end Advance

/-! ### Runs -/

section Runs

variable {i : Nat} {j : Job} {a : Action}

theorem Race.step (hr : t.Race first old before won tales) (quiet : a.IsQuiet)
    (hlast : (t.step a).hub.supply.drawn ≤ last) (lasts : last ≤ 2 ^ 128)
    (fresh : ∀ r ∈ old, ∀ k, first ≤ k → k < last → r.id ≠ (Uuid.generated k).text) :
    ∃ w l, (t.step a).Race first old before (won ++ w) (tales ++ l) := by
  have idle (h : (t.step a).Race first old before won tales) :
      ∃ w l, (t.step a).Race first old before (won ++ w) (tales ++ l) :=
    ⟨[], [], by rwa [List.append_nil, List.append_nil]⟩
  have hd := drawn_le_step t a
  cases a with
  | advance i =>
    cases hj : t.jobs[i]? with
    | none => exact idle (by rwa [step_advance_none hj])
    | some j => exact hr.advance hlast lasts fresh hj
  | get f => exact idle (hr.congr rfl rfl rfl hd)
  | list => exact idle (hr.congr rfl rfl rfl hd)
  | nodes network => exact idle (hr.congr rfl rfl rfl hd)
  | elsewhere change => exact idle (hr.congr rfl (quiet t.hub).1 (quiet t.hub).2 hd)
  | _ => cases quiet

theorem Race.run (hr : t.Race first old before won tales) (as : List Action)
    (quiet : ∀ a ∈ as, a.IsQuiet)
    (hlast : (t.run as).hub.supply.drawn ≤ last) (lasts : last ≤ 2 ^ 128)
    (fresh : ∀ r ∈ old, ∀ k, first ≤ k → k < last → r.id ≠ (Uuid.generated k).text) :
    ∃ w l, (t.run as).Race first old before (won ++ w) (tales ++ l) := by
  induction as generalizing t won tales with
  | nil => exact ⟨[], [], by rwa [List.append_nil, List.append_nil]⟩
  | cons a as ih =>
    have hstep := Nat.le_trans (drawn_le_run (t.step a) as) hlast
    obtain ⟨w, l, hr'⟩ := hr.step (quiet a List.mem_cons_self) hstep lasts fresh
    obtain ⟨w', l', hrun⟩ := ih hr' (fun b hb => quiet b (List.mem_cons_of_mem a hb)) hlast
    exact ⟨w ++ w', l ++ l', by rwa [← List.append_assoc, ← List.append_assoc]⟩

theorem race_calling (h : Hub) (calls : List (Uuid × Json)) (faultless : h.repository.faults = {})
    (accepts : ∀ n, h.publisher.refuses n = none) (keyed : h.repository.rows.Keyed) :
    (calling h calls).Race h.supply.drawn h.repository.rows h.publisher.published [] [] := by
  have begins (i : Nat) (j : Job) (hj : (calling h calls).jobs[i]? = some j) :
      j.claimed = none ∧ ∃ input, j.stage = .begin input := by
    obtain ⟨c, -, rfl⟩ := List.mem_map.1 (List.mem_of_getElem? hj)
    exact ⟨rfl, c.2, rfl⟩
  have nothing {α : Type} (f : Stage → Option α) (hf : ∀ input, f (.begin input) = none) (i : Nat) :
      ((calling h calls).jobs[i]?.bind fun j => f j.stage) = none := by
    cases hj : (calling h calls).jobs[i]? with
    | none => rfl
    | some j =>
      obtain ⟨-, input, hst⟩ := begins i j hj
      rw [Option.bind_some, hst, hf]
  have empty {owns : Nat → Option Entry} (hnone : ∀ i, owns i = none) : Ledger [] owns :=
    ⟨List.nodup_nil, fun i e => by simp [hnone]⟩
  constructor
  · refine ⟨Nat.le_refl _, fun i u hu => ?_, fun i k u hu => ?_⟩
    · cases (nothing Stage.id? (fun _ => rfl) i).symm.trans hu
    · cases (nothing Stage.id? (fun _ => rfl) i).symm.trans hu
  · exact faultless
  · exact accepts
  · exact keyed
  · exact (List.append_nil _).symm
  · exact ⟨[], (List.append_nil _).symm, rfl⟩
  · exact empty (nothing Stage.stored? fun _ => rfl)
  · exact empty (nothing Stage.told? fun _ => rfl)
  · exact List.Pairwise.nil
  · intro i j hj
    obtain ⟨hc, input, hst⟩ := begins i j hj
    refine ⟨hc, ?_⟩
    rw [hst]
    trivial

/-- A quiet action makes no call, and at most one call goes on. -/
theorem Race.stage_step (hr : t.Race first old before won tales) (quiet : a.IsQuiet)
    (hj : t.jobs[i]? = some j) : ∃ j', (t.step a).jobs[i]? = some j' ∧
      (j'.stage = j.stage ∨ j.stage.Goes t.hub j'.stage (t.step a).hub) := by
  cases a with
  | advance k =>
    cases hk : t.jobs[k]? with
    | none => exact ⟨j, by rw [step_advance_none hk, hj], .inl rfl⟩
    | some j₀ =>
      rw [getElem?_jobs_advance hk]
      split
      · next hik =>
        rw [← hik, hj] at hk
        cases hk
        obtain ⟨hc, fits⟩ := hr.calls i j hj
        refine ⟨_, rfl, .inr ?_⟩
        rw [← hik, step_advance hj]
        exact (Job.goes_step hc fits hr.keyed hr.faultless).1
      · exact ⟨j, hj, .inl rfl⟩
  | get f => exact ⟨j, hj, .inl rfl⟩
  | list => exact ⟨j, hj, .inl rfl⟩
  | nodes network => exact ⟨j, hj, .inl rfl⟩
  | elsewhere change => exact ⟨j, hj, .inl rfl⟩
  | _ => cases quiet

theorem length_jobs_step (quiet : a.IsQuiet) : (t.step a).jobs.length = t.jobs.length := by
  cases a with
  | advance k =>
    cases hk : t.jobs[k]? with
    | none => rw [step_advance_none hk]
    | some j => rw [step_advance hk]; exact List.length_set
  | init source announcement => cases quiet
  | configure f input => cases quiet
  | abort f => cases quiet
  | _ => rfl

/-- A call that has produced a new entry gets it stored or finds the device configured. -/
theorem Race.after_run {n : Flow.NewEntry} (hr : t.Race first old before won tales)
    (as : List Action) (quiet : ∀ a ∈ as, a.IsQuiet)
    (hlast : (t.run as).hub.supply.drawn ≤ last) (lasts : last ≤ 2 ^ 128)
    (fresh : ∀ r ∈ old, ∀ k, first ≤ k → k < last → r.id ≠ (Uuid.generated k).text)
    (queries : ∀ bs, bs <+: as →
      ∃ es, (t.run bs).hub.repository.ofDomain nativeApiDomain = .ok es)
    (hj : t.jobs[i]? = some j) (ha : j.stage.After t.hub.repository.rows n) :
    ∃ j', (t.run as).jobs[i]? = some j' ∧ j'.stage.After (t.run as).hub.repository.rows n := by
  induction as generalizing t j won tales with
  | nil => exact ⟨j, hj, ha⟩
  | cons a as ih =>
    have hquiet := quiet a List.mem_cons_self
    have hstep := Nat.le_trans (drawn_le_run (t.step a) as) hlast
    obtain ⟨w, l, hr'⟩ := hr.step hquiet hstep lasts fresh
    obtain ⟨j', hj', hgoes⟩ := hr.stage_step hquiet hj
    obtain ⟨es, query⟩ := queries [] (List.nil_prefix)
    refine ih hr' (fun b hb => quiet b (List.mem_cons_of_mem a hb)) hlast (fun bs hbs => ?_) hj' ?_
    · exact queries (a :: bs) (List.cons_prefix_cons.2 ⟨rfl, hbs⟩)
    · rcases hgoes with heq | hgoes
      · have grows : (t.step a).hub.repository.rows.map Row.bare =
            t.hub.repository.rows.map Row.bare ++ w.map fun p => (Row.ofEntry p.2).bare := by
          rw [hr'.rows, hr.rows, List.map_append, List.append_assoc]
        rw [heq]
        exact ha.of_bare grows
      · exact hgoes.after hr.keyed (hr.calls i j hj).2 query ha

/-- The step of a call produces this new entry in the course of a run. -/
def Produces (s : Session) (as : List Action) (i : Nat) (n : Flow.NewEntry) : Prop :=
  ∃ bs, bs <+: as ∧ ∃ j, (s.run bs).jobs[i]? = some j ∧ j.stage = .check n

/-- A call is about a new entry only if its step has produced it. -/
theorem Race.produces_of_new? {n : Flow.NewEntry} (hr : t.Race first old before won tales)
    (as : List Action) (quiet : ∀ a ∈ as, a.IsQuiet)
    (hlast : (t.run as).hub.supply.drawn ≤ last) (lasts : last ≤ 2 ^ 128)
    (fresh : ∀ r ∈ old, ∀ k, first ≤ k → k < last → r.id ≠ (Uuid.generated k).text)
    (hj : (t.run as).jobs[i]? = some j) (hn : j.stage.new? = some n) :
    (∃ j₀, t.jobs[i]? = some j₀ ∧ j₀.stage.new? = some n) ∨ t.Produces as i n := by
  induction as generalizing t won tales with
  | nil => exact .inl ⟨j, hj, hn⟩
  | cons a as ih =>
    have hquiet := quiet a List.mem_cons_self
    have hstep := Nat.le_trans (drawn_le_run (t.step a) as) hlast
    obtain ⟨w, l, hr'⟩ := hr.step hquiet hstep lasts fresh
    rcases ih hr' (fun b hb => quiet b (List.mem_cons_of_mem a hb)) hlast hj with
      ⟨j₁, hj₁, hn₁⟩ | ⟨bs, hbs, j₁, hj₁, hst⟩
    · obtain ⟨hi, -⟩ := List.getElem?_eq_some_iff.1 hj₁
      rw [length_jobs_step hquiet] at hi
      have hj₀ : t.jobs[i]? = some t.jobs[i] := List.getElem?_eq_getElem hi
      obtain ⟨j', hj', hgoes⟩ := hr.stage_step hquiet hj₀
      rw [hj₁] at hj'
      cases hj'
      rcases hgoes with heq | hgoes
      · exact .inl ⟨_, hj₀, heq ▸ hn₁⟩
      · rcases hgoes.new? (hr.calls i _ hj₀).2 hn₁ with hn₀ | hst
        · exact .inl ⟨_, hj₀, hn₀⟩
        · exact .inr ⟨[a], List.cons_prefix_cons.2 ⟨rfl, List.nil_prefix⟩, j₁, hj₁, hst⟩
    · exact .inr ⟨a :: bs, List.cons_prefix_cons.2 ⟨rfl, hbs⟩, j₁, hj₁, hst⟩

end Runs

end Session

end HomeHub
