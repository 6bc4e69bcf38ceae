import HomeHub.Proofs.FlowManager.Race
import HomeHub.Proofs.Json.Record

/-!
# One entry for each device

Once all calls that race for an entry have ended, answers, rows and events agree:
`Session.one_entry_each`.
-/

namespace HomeHub

/-- The event tells of this entry by its id, its domain and its title, and of nothing else. -/
structure Event.TellsOf (x : Event) (e : Entry) : Prop where
  kind : x.eventType = .configEntryCreated
  about : x.entityId = none
  entryId : x.data.get? "entry_id" = some (.str e.id.text)
  domain : x.data.get? "domain" = some (.str e.domain)
  title : x.data.get? "title" = some (.str e.title)
  only : ∀ key, (x.data.get? key).isSome → key ∈ ["entry_id", "domain", "title"]

theorem Job.get?_createdData (e : Entry) (key : String) : (createdData e).get? key = Pairs.get? key
    [("entry_id", .str e.id.text), ("domain", .str e.domain), ("title", .str e.title)] := by
  refine Json.get?_record ?_ key
  show ["entry_id", "domain", "title"].Nodup
  decide

theorem Event.tellsOf_of_said {x : Event} {e : Entry}
    (h : x.said = (.configEntryCreated, none, Job.createdData e)) : x.TellsOf e := by
  have hdata : x.data = Job.createdData e := congrArg (·.2.2) h
  have hget (key : String) := (congrArg (·.get? key) hdata).trans (Job.get?_createdData e key)
  refine ⟨congrArg (·.1) h, congrArg (·.2.1) h, hget "entry_id", hget "domain", hget "title", ?_⟩
  intro key hkey
  rw [hget] at hkey
  obtain ⟨value, hvalue⟩ := Option.isSome_iff_exists.1 hkey
  exact List.mem_map_of_mem (f := Prod.fst) (Pairs.mem_of_get? hvalue)

namespace Session

variable {first last : Nat} {old : Rows} {before : List Event} {t : Session}
  {won tales : List (Nat × Entry)}

/-- What a call answers, once it is at its end. -/
def answer (t : Session) (i : Nat) : Option (Except HubError FlowResponse) :=
  t.jobs[i]?.bind Job.answer?

/-- The call answers that it created this entry. -/
def Creates (t : Session) (i : Nat) (n : Flow.NewEntry) : Prop :=
  ∃ r, t.answer i = some (.ok r) ∧ r.result = .createEntry n

/-- The call answers that the device is configured already. -/
def IsConfigured (t : Session) (i : Nat) : Prop :=
  ∃ r, t.answer i = some (.ok r) ∧ r.result = .abort .alreadyConfigured

/-- Each unique id gets one entry, and answers, rows and events agree. -/
structure OneEntryEach (s : Session) (as : List Action) : Prop where
  answers : ∀ i n, s.Produces as i n → isAllBlank n.title = false →
    (s.run as).Creates i n ∨ (s.run as).IsConfigured i
  atMostOne : ∀ i k n m id, s.Produces as i n → s.Produces as k m → n.uniqueId = some id →
    m.uniqueId = some id → (s.run as).Creates i n → (s.run as).Creates k m → i = k
  oneIfNew : ∀ i n id, s.Produces as i n → isAllBlank n.title = false → n.uniqueId = some id →
    (∀ r ∈ s.hub.repository.rows, r.domain = nativeApiDomain → r.uniqueId ≠ some id) →
    ∃ k m, s.Produces as k m ∧ m.uniqueId = some id ∧ (s.run as).Creates k m
  /-- The entries that were created, each with its call. -/
  agree : ∃ won : List (Nat × Entry), (won.map Prod.fst).Nodup ∧ (won.map (·.2.id)).Nodup ∧
    (∀ i e, (i, e) ∈ won ↔ ∃ r n, (s.run as).answer i = some (.ok r) ∧
      r.result = .createEntry n ∧ r.entry = some e) ∧
    (∀ i n, (s.run as).Creates i n → ∃ e, (i, e) ∈ won ∧ n.Builds e) ∧
    (s.run as).hub.repository.rows.map Row.bare =
      s.hub.repository.rows.map Row.bare ++ won.map (fun p => (Row.ofEntry p.2).bare) ∧
    (∀ p ∈ won, ∃ row ∈ (s.run as).hub.repository.rows, row.domain = p.2.domain ∧ row.IsOf p.2) ∧
    -- the events come in an order of their own
    ∃ (news : List Event) (tales : List (Nat × Entry)),
      (s.run as).hub.publisher.published = s.hub.publisher.published ++ news ∧ tales.Perm won ∧
      List.Forall₂ (fun x p => x.TellsOf p.2) news tales

section Outcome

variable {i : Nat} {j : Job}

theorem stage_of_answer {r : Except HubError FlowResponse} (h : t.answer i = some r) :
    ∃ j, t.jobs[i]? = some j ∧ j.stage = .done r := by
  obtain ⟨j, hj, hr⟩ := Option.bind_eq_some_iff.1 h
  refine ⟨j, hj, ?_⟩
  unfold Job.answer? at hr
  split at hr
  · next heq => cases hr; exact heq
  · cases hr

/-- Whoever answers that an entry was created has stored it. -/
theorem Race.stored_of_creates {n : Flow.NewEntry} (hr : t.Race first old before won tales)
    (h : t.Creates i n) : ∃ e, (i, e) ∈ won ∧ n.Builds e := by
  obtain ⟨r, hans, hres⟩ := h
  obtain ⟨j, hj, hst⟩ := stage_of_answer hans
  have fits := (hr.calls i j hj).2
  rw [hst] at fits
  rcases fits with ⟨m, e, hm, he, builds⟩ | ⟨hne, -⟩
  · rw [hres] at hm
    cases hm
    refine ⟨e, (hr.stored.mem i e).2 ?_, builds⟩
    rw [Session.stored, hj, Option.bind_some, hst]
    exact he
  · exact absurd hres (hne n)

/-- Once all calls ended, whoever has stored an entry answers that it was created. -/
theorem Race.answer_of_stored {e : Entry} (hr : t.Race first old before won tales)
    (ended : ∀ j ∈ t.jobs, j.answer?.isSome) (h : (i, e) ∈ won) :
    ∃ r n, t.answer i = some (.ok r) ∧ r.result = .createEntry n ∧ r.entry = some e ∧
      n.Builds e := by
  obtain ⟨j, hj, hs⟩ := Option.bind_eq_some_iff.1 ((hr.stored.mem i e).1 h)
  obtain ⟨r, hans⟩ := Option.isSome_iff_exists.1 (ended j (List.mem_of_getElem? hj))
  have hanswer : t.answer i = some r := by rw [answer, hj]; exact hans
  obtain ⟨j', hj', hst⟩ := stage_of_answer hanswer
  cases hj.symm.trans hj'
  have fits := (hr.calls i j hj).2
  rw [hst] at hs fits
  cases r with
  | error err => cases hs
  | ok r =>
    have hs : r.entry = some e := hs
    rcases fits with ⟨n, e', hn, he, builds⟩ | ⟨-, hnone⟩
    · cases hs.symm.trans he
      exact ⟨r, n, hanswer, hn, hs, builds⟩
    · cases hs.symm.trans hnone

/-- Two calls do not store entries with one unique id. -/
theorem Race.eq_of_uniqueId {k : Nat} {e e' : Entry} {id : String}
    (hr : t.Race first old before won tales) (hi : (i, e) ∈ won) (hk : (k, e') ∈ won)
    (hd : e.domain = e'.domain) (he : e.uniqueId = some id) (he' : e'.uniqueId = some id) :
    i = k := by
  by_contra hne
  have clash (a b : Entry) (hd : a.domain = b.domain) (ha : a.uniqueId = some id)
      (hb : b.uniqueId = some id) : (Row.ofEntry a).clashes (.ofEntry b) = true :=
    Row.clashes_iff.2 ⟨hd, Option.isSome_iff_exists.2 ⟨id, ha⟩, ha.trans hb.symm⟩
  have apart : won.Pairwise fun a b => ¬ ((Row.ofEntry a.2).clashes (.ofEntry b.2) = true ∧
      (Row.ofEntry b.2).clashes (.ofEntry a.2) = true) :=
    hr.apart.imp fun h hboth => h hboth.1
  have : Std.Symm fun a b : Nat × Entry => ¬ ((Row.ofEntry a.2).clashes (.ofEntry b.2) = true ∧
      (Row.ofEntry b.2).clashes (.ofEntry a.2) = true) := ⟨fun a b h hboth => h hboth.symm⟩
  refine apart.forall hi hk (fun heq => hne (congrArg Prod.fst heq)) ⟨?_, ?_⟩
  · exact clash e e' hd he he'
  · exact clash e' e hd.symm he' he

theorem Race.nodup_ids (hr : t.Race first old before won tales) : (won.map (·.2.id)).Nodup := by
  refine List.Nodup.map_on (fun p hp q hq heq => ?_) (List.Nodup.of_map _ hr.stored.once)
  obtain ⟨i, e⟩ := p
  obtain ⟨k, e'⟩ := q
  have hi : t.stored i = some e := (hr.stored.mem i e).1 hp
  have hk : t.stored k = some e' := (hr.stored.mem k e').1 hq
  have heq : e.id = e'.id := heq
  have hik := hr.once i k e'.id (heq ▸ drew_of_stored hi) (drew_of_stored hk)
  subst hik
  cases hi.symm.trans hk
  rfl

/-- Once all calls ended, each has told of what it has stored. -/
theorem Race.perm (hr : t.Race first old before won tales) (ended : ∀ j ∈ t.jobs, j.answer?.isSome) :
    tales.Perm won := by
  refine hr.told.perm (hr.stored.congr fun i => ?_)
  cases hj : t.jobs[i]? with
  | none => rw [Session.told, Session.stored, hj]; rfl
  | some j =>
    obtain ⟨r, hans⟩ := Option.isSome_iff_exists.1 (ended j (List.mem_of_getElem? hj))
    obtain ⟨j', hj', hst⟩ := stage_of_answer (t := t) (i := i) (r := r) (by rw [answer, hj]; exact hans)
    cases hj.symm.trans hj'
    rw [Session.told, Session.stored, hj, Option.bind_some, Option.bind_some, hst]
    cases r <;> rfl

/-- Each entry that was stored has a row. -/
theorem Race.exists_row (hr : t.Race first old before won tales) {p : Nat × Entry} (hp : p ∈ won) :
    ∃ row ∈ t.hub.repository.rows, row.domain = p.2.domain ∧ row.IsOf p.2 := by
  have hbare : (Row.ofEntry p.2).bare ∈ t.hub.repository.rows.map Row.bare := by
    rw [hr.rows]
    exact List.mem_append_right _ (List.mem_map_of_mem hp)
  obtain ⟨row, hrow, heq⟩ := List.mem_map.1 hbare
  have hof : (Row.ofEntry p.2).IsOf p.2 := ⟨rfl, rfl, rfl, rfl⟩
  exact ⟨row, hrow, Row.domain_of_bare heq, hof.of_bare heq⟩

/-- Each entry that was told of has its event. -/
theorem Race.tells (hr : t.Race first old before won tales) :
    ∃ news : List Event, t.hub.publisher.published = before ++ news ∧
      List.Forall₂ (fun x p => x.TellsOf p.2) news tales := by
  obtain ⟨news, hnews, hsaid⟩ := hr.published
  have hall : List.Forall₂ (· = ·) (news.map Event.said)
      (tales.map fun p => (.configEntryCreated, none, Job.createdData p.2)) := by
    rwa [List.forall₂_eq_eq_eq]
  rw [List.forall₂_map_left_iff, List.forall₂_map_right_iff] at hall
  exact ⟨news, hnews, hall.imp fun x p => Event.tellsOf_of_said⟩

/-- A call whose step has produced a new entry creates it or finds its unique id taken. -/
theorem Race.ends {as : List Action} {n : Flow.NewEntry} (hr : t.Race first old before won tales)
    (quiet : ∀ a ∈ as, a.IsQuiet)
    (hlast : (t.run as).hub.supply.drawn ≤ last) (lasts : last ≤ 2 ^ 128)
    (fresh : ∀ r ∈ old, ∀ k, first ≤ k → k < last → r.id ≠ (Uuid.generated k).text)
    (queries : ∀ bs, bs <+: as →
      ∃ es, (t.run bs).hub.repository.ofDomain nativeApiDomain = .ok es)
    (ended : ∀ j ∈ (t.run as).jobs, j.answer?.isSome) (hp : t.Produces as i n)
    (titled : isAllBlank n.title = false) :
    (t.run as).Creates i n ∨
      (t.run as).IsConfigured i ∧ (t.run as).hub.repository.rows.Taken n := by
  obtain ⟨bs, ⟨cs, rfl⟩, j, hj, hst⟩ := hp
  rw [run_append] at hlast ended ⊢
  obtain ⟨w, l, hbs⟩ := hr.run bs (fun a ha => quiet a (List.mem_append_left cs ha))
    (Nat.le_trans (drawn_le_run _ cs) hlast) lasts fresh
  have queries (ds : List Action) (hds : ds <+: cs) :
      ∃ es, ((t.run bs).run ds).hub.repository.ofDomain nativeApiDomain = .ok es := by
    rw [← run_append]
    exact queries (bs ++ ds) ((List.prefix_append_right_inj bs).2 hds)
  have after : j.stage.After (t.run bs).hub.repository.rows n := by rw [hst]; rfl
  obtain ⟨j', hj', ha⟩ := hbs.after_run cs (fun a ha => quiet a (List.mem_append_right bs ha))
    hlast lasts fresh queries hj after
  obtain ⟨r, hans⟩ := Option.isSome_iff_exists.1 (ended j' (List.mem_of_getElem? hj'))
  have hanswer : ((t.run bs).run cs).answer i = some r := by rw [answer, hj']; exact hans
  obtain ⟨j'', hj'', hdone⟩ := stage_of_answer hanswer
  cases hj'.symm.trans hj''
  rw [hdone] at ha
  cases r with
  | error err => cases titled.symm.trans ha
  | ok r =>
    rcases ha with hcreated | ⟨habort, taken⟩
    · exact .inl ⟨r, hanswer, hcreated⟩
    · exact .inr ⟨⟨r, hanswer, habort⟩, taken⟩

/-- A unique id that no row had at first is taken by the entry that a call has created. -/
theorem Race.creates_of_taken {n : Flow.NewEntry} {id : String}
    (hr : t.Race first old before won tales) (ended : ∀ j ∈ t.jobs, j.answer?.isSome)
    (taken : t.hub.repository.rows.Taken n) (hid : n.uniqueId = some id)
    (new : ∀ r ∈ old, r.domain = nativeApiDomain → r.uniqueId ≠ some id) :
    ∃ k m, m.uniqueId = some id ∧ t.Creates k m := by
  obtain ⟨id', hid', row, hrow, hdomain, huid⟩ := taken
  cases hid.symm.trans hid'
  have hbare : row.bare ∈ t.hub.repository.rows.map Row.bare := List.mem_map_of_mem hrow
  rw [hr.rows] at hbare
  rcases List.mem_append.1 hbare with hold | hnew
  · obtain ⟨r, hr', heq⟩ := List.mem_map.1 hold
    exact absurd ((Row.uniqueId_of_bare heq).trans huid)
      (new r hr' ((Row.domain_of_bare heq).trans hdomain))
  · obtain ⟨⟨k, e⟩, hwon, heq⟩ := List.mem_map.1 hnew
    obtain ⟨r, m, hans, hm, -, builds⟩ := hr.answer_of_stored ended hwon
    have heuid : e.uniqueId = some id := (Row.uniqueId_of_bare heq).trans huid
    exact ⟨k, m, builds.uniqueId.symm.trans heuid, r, hans, hm⟩

/-- Of calls that submit forms, only one whose step has produced a new entry creates it. -/
theorem produces_of_creates {h : Hub} {calls : List (Uuid × Json)} {as : List Action}
    {n : Flow.NewEntry} (start : (calling h calls).Race first old before won tales)
    (quiet : ∀ a ∈ as, a.IsQuiet)
    (hlast : ((calling h calls).run as).hub.supply.drawn ≤ last) (lasts : last ≤ 2 ^ 128)
    (fresh : ∀ r ∈ old, ∀ k, first ≤ k → k < last → r.id ≠ (Uuid.generated k).text)
    (hc : ((calling h calls).run as).Creates i n) : (calling h calls).Produces as i n := by
  obtain ⟨⟨f, result, entry⟩, hans, hn⟩ := hc
  cases hn
  obtain ⟨j, hj, hst⟩ := stage_of_answer hans
  have hnew : j.stage.new? = some n := by rw [hst]; rfl
  rcases start.produces_of_new? as quiet hlast lasts fresh hj hnew with ⟨j₀, hj₀, hn₀⟩ | hp
  · obtain ⟨c, -, rfl⟩ := List.mem_map.1 (List.mem_of_getElem? hj₀)
    cases hn₀
  · exact hp

/-- Any number of calls submit forms, interleaved in any way, run to their ends. If the repository
only fails to break its constraints, identifiers are fresh and every event is accepted, then each
unique id gets one entry. -/
theorem one_entry_each (h : Hub) (calls : List (Uuid × Json)) (as : List Action)
    (quiet : ∀ a ∈ as, a.IsQuiet)
    (faultless : h.repository.faults = {})
    (keyed : h.repository.rows.Keyed)
    (queries : ∀ bs, bs <+: as →
      ∃ es, ((calling h calls).run bs).hub.repository.ofDomain nativeApiDomain = .ok es)
    (lasts : ((calling h calls).run as).hub.supply.Lasts)
    (fresh : ∀ r ∈ h.repository.rows, ∀ k, h.supply.drawn ≤ k →
      k < ((calling h calls).run as).hub.supply.drawn → r.id ≠ (Uuid.generated k).text)
    (accepts : ∀ n, h.publisher.refuses n = none)
    (ended : ∀ j ∈ ((calling h calls).run as).jobs, j.answer?.isSome) :
    (calling h calls).OneEntryEach as := by
  have start := race_calling h calls faultless accepts keyed
  obtain ⟨won, tales, hr⟩ := start.run as quiet (Nat.le_refl _) lasts fresh
  rw [List.nil_append, List.nil_append] at hr
  have ends (i : Nat) (n : Flow.NewEntry) (hp : (calling h calls).Produces as i n)
      (titled : isAllBlank n.title = false) :
      ((calling h calls).run as).Creates i n ∨ ((calling h calls).run as).IsConfigured i ∧
        ((calling h calls).run as).hub.repository.rows.Taken n :=
    start.ends quiet (Nat.le_refl _) lasts fresh queries ended hp titled
  refine ⟨fun i n hp titled => (ends i n hp titled).imp_right And.left, ?_, ?_, ?_⟩
  · intro i k n m id _ _ hn hm hi hk
    obtain ⟨e, he, builds⟩ := hr.stored_of_creates hi
    obtain ⟨e', he', builds'⟩ := hr.stored_of_creates hk
    exact hr.eq_of_uniqueId he he' (builds.domain.trans builds'.domain.symm)
      (builds.uniqueId.trans hn) (builds'.uniqueId.trans hm)
  · intro i n id hp titled hid new
    rcases ends i n hp titled with hcreates | ⟨-, taken⟩
    · exact ⟨i, n, hp, hid, hcreates⟩
    · obtain ⟨k, m, hm, hcreates⟩ := hr.creates_of_taken ended taken hid new
      exact ⟨k, m, produces_of_creates start quiet (Nat.le_refl _) lasts fresh hcreates, hm,
        hcreates⟩
  · refine ⟨won, hr.stored.once, hr.nodup_ids, fun i e => ⟨fun h => ?_, fun h => ?_⟩,
      fun i n => hr.stored_of_creates, hr.rows, fun p => hr.exists_row, ?_⟩
    · obtain ⟨r, n, hans, hn, he, -⟩ := hr.answer_of_stored ended h
      exact ⟨r, n, hans, hn, he⟩
    · obtain ⟨r, n, hans, hn, he⟩ := h
      obtain ⟨j, hj, hst⟩ := stage_of_answer hans
      refine (hr.stored.mem i e).2 ?_
      rw [Session.stored, hj, Option.bind_some, hst]
      exact he
    · obtain ⟨news, hnews, htells⟩ := hr.tells
      exact ⟨news, tales, hnews, hr.perm ended, htells⟩

end Outcome

/-- Two user flows. -/
def twoFlows : Table Uuid InProgress := .ofList
  [(.generated 0, ⟨{ source := .user }, .form (.user none defaultPort none), false⟩),
    (.generated 1, ⟨{ source := .user }, .form (.user none defaultPort none), false⟩)]

theorem exists_of_result {i : Nat} {result : Flow.Result}
    (h : ((t.answer i).bind fun r => r.toOption.map (·.result)) = some result) :
    ∃ r, t.answer i = some (.ok r) ∧ r.result = result := by
  obtain ⟨r, hans, hr⟩ := Option.bind_eq_some_iff.1 h
  cases r with
  | error err => cases hr
  | ok r => exact ⟨r, hans, Option.some.inj hr⟩

/-- Two flows get the same node as input, and both look for its entry before one stores it. -/
theorem one_entry_each_of_two :
    let h : Hub := { Hub.unused { hosts := .empty, others := { info := some ⟨"desk", false, "", "", ""⟩ } }
      with flows := { flows := twoFlows } }
    let s := calling h [(.generated 0, .record [("host", .str "10.0.0.1")]),
      (.generated 1, .record [("host", .str "10.0.0.1")])]
    let as : List Action := (List.replicate 8 [0, 1]).flatten.map .advance
    let id := "9f6b1c3e-52d7-4a08-b1e4-000000000000"
    s.OneEntryEach as ∧ (s.run as).IsConfigured 1 ∧
      (s.run as).Creates 0 ⟨"desk", ⟨"10.0.0.1", 6053, ""⟩, some "desk", .user⟩ ∧
      (((s.run as).answer 0).bind fun r => r.toOption.bind (·.entry)).map
        (fun e => (e.id.text, e.domain, e.title, e.uniqueId)) =
          some (id, "native_api", "desk", some "desk") ∧
      (s.run as).hub.repository.rows.map (fun row => (row.id, row.domain, row.title, row.uniqueId)) =
        [(id, "native_api", "desk", some "desk")] ∧
      (s.run as).hub.publisher.published.map (fun x =>
        ["entry_id", "domain", "title"].map fun key => (x.data.get? key).bind Json.str?) =
          [[some id, some "native_api", some "desk"]] := by
  intro h s as id
  have readable : ∀ k < 17, ((s.run (as.take k)).hub.repository.ofDomain nativeApiDomain).isOk := by
    decide +kernel
  have loses : ((s.run as).answer 1).bind (fun r => r.toOption.map (·.result)) =
      some (.abort .alreadyConfigured) := by decide +kernel
  have wins : ((s.run as).answer 0).bind (fun r => r.toOption.map (·.result)) =
      some (.createEntry ⟨"desk", ⟨"10.0.0.1", 6053, ""⟩, some "desk", .user⟩) := by decide +kernel
  refine ⟨?_, exists_of_result loses, exists_of_result wins, ?_, ?_, ?_⟩
  · refine one_entry_each h _ as ?_ rfl ⟨List.nodup_nil, nofun⟩ ?_ ?_ nofun (fun _ => rfl) ?_
    · intro a ha
      obtain ⟨i, -, rfl⟩ := List.mem_map.1 ha
      trivial
    · intro bs hbs
      have hlen : bs.length < 17 := Nat.lt_succ_of_le hbs.length_le
      have hok := readable bs.length hlen
      rw [← List.prefix_iff_eq_take.1 hbs] at hok
      cases hes : (s.run bs).hub.repository.ofDomain nativeApiDomain with
      | ok es => exact ⟨es, rfl⟩
      | error err =>
        rw [hes] at hok
        cases hok
    · unfold Supply.Lasts
      decide +kernel
    · decide +kernel
  · decide +kernel
  · decide +kernel
  · decide +kernel

end Session

end HomeHub
