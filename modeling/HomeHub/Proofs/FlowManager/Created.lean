import HomeHub.Proofs.FlowManager.Sound
import HomeHub.Proofs.Json.Record

/-!
# What precedes a created entry

Whatever an entry holds, its flow has it from the node: `Session.created_entry_was_checked` is about
its address, password and title, `Session.unique_id_identifies_iff` about its unique id.
-/

namespace HomeHub

theorem EntryData.get?_toJson (d : EntryData) (key : String) : d.toJson.get? key = Pairs.get? key
    [("host", .str d.host), ("port", .nat d.port.toNat), ("password", .str d.password)] := by
  refine Json.get?_record ?_ key
  show ["host", "port", "password"].Nodup
  decide

theorem Flow.NewEntry.Builds.get?_data {n : NewEntry} {e : Entry} (h : n.Builds e) (key : String) :
    e.data.get? key = Pairs.get? key [("host", .str n.data.host), ("port", .nat n.data.port.toNat),
      ("password", .str n.data.password)] := by
  rw [h.data, EntryData.get?_toJson]

namespace Session

/-- A call that answers that an entry was created made it of what the node said last: a description,
asked for at the address of the entry, and a login with its password if the node wants one. -/
theorem created_entry_was_checked (h : Hub) (as : List Action) (f : Uuid) {k : Nat}
    {r : FlowResponse} {n : Flow.NewEntry}
    (lasts : ((start h).run as).hub.supply.Lasts)
    (answered : (((start h).run as).deeds f)[k]? = some (.answered (.ok r)))
    (created : r.result = .createEntry n) :
    let before := trail ((((start h).run as).deeds f).take k)
    ∃ e info, r.entry = some e ∧ e.data = n.data.toJson ∧
      e.data.get? "host" = some (.str n.data.host) ∧
      e.data.get? "port" = some (.nat n.data.port.toNat) ∧
      e.data.get? "password" = some (.str n.data.password) ∧ e.title = info.name ∧
      before.described = some (⟨n.data.host, n.data.port, ""⟩, .ok info) ∧
      (info.usesPassword = true →
        before.contact = some (.loggedIn ⟨n.data.host, n.data.port, n.data.password⟩ (.ok ()))) ∧
      (info.usesPassword = false → n.data.password = "") := by
  intro before
  obtain ⟨⟨info, backs⟩, e, hentry, builds⟩ := accounts_of_answered h as f lasts answered n created
  exact ⟨e, info, hentry, builds.data, builds.get?_data "host", builds.get?_data "port",
    builds.get?_data "password", builds.title.trans backs.title, backs.described, backs.loggedIn,
    backs.password⟩

/-- The new entry that an answer tells of. -/
def created? : Deed → Option (FlowResponse × Flow.NewEntry)
  | .answered (.ok r) =>
    match r.result with
    | .createEntry n => some (r, n)
    | _ => none
  | _ => none

theorem exists_created (ds : List Deed) (k : Nat) (h : (ds[k]?.bind created?).isSome) :
    ∃ r n, ds[k]? = some (.answered (.ok r)) ∧ r.result = .createEntry n ∧
      ds[k]?.bind created? = some (r, n) := by
  obtain ⟨⟨r, n⟩, hc⟩ := Option.isSome_iff_exists.1 h
  obtain ⟨d, hd, hdc⟩ := Option.bind_eq_some_iff.1 hc
  unfold created? at hdc
  split at hdc
  · next r' =>
    split at hdc
    · next hr => cases hdc; exact ⟨r, n, hd, hr, hc⟩
    · cases hdc
  · cases hdc

/-- A node with a password: its form, the description, the password form, the login. -/
theorem created_entry_was_checked_locked :
    let s := (start (Hub.unused lockedNode)).run (submitting "10.0.0.1" ++
      (.replicate 4 (.advance 1) ++ .configure (.generated 0) (.record [("password", .str "pw")]) ::
        .replicate 7 (.advance 2)))
    ∃ r e info, (s.deeds (.generated 0))[9]? = some (.answered (.ok r)) ∧ r.entry = some e ∧
      e.title = "desk" ∧ e.data.get? "host" = some (.str "10.0.0.1") ∧
      e.data.get? "port" = some (.nat 6053) ∧ e.data.get? "password" = some (.str "pw") ∧
      (trail ((s.deeds (.generated 0)).take 9)).described =
        some (⟨"10.0.0.1", 6053, ""⟩, .ok info) ∧ info.name = "desk" ∧
      (trail ((s.deeds (.generated 0)).take 9)).contact =
        some (.loggedIn ⟨"10.0.0.1", 6053, "pw"⟩ (.ok ())) := by
  intro s
  obtain ⟨r, n, answered, created, hval⟩ := exists_created (s.deeds (.generated 0)) 9
    (by decide +kernel)
  obtain ⟨e, info, hentry, -, hhost, hport, hpassword, htitle, described, loggedIn, -⟩ :=
    created_entry_was_checked _ _ _ (by unfold Supply.Lasts; decide +kernel) answered created
  have hdata : ((s.deeds (.generated 0))[9]?.bind created?).map (·.2.data) =
      some ⟨"10.0.0.1", 6053, "pw"⟩ := by decide +kernel
  have hinfo : (trail ((s.deeds (.generated 0)).take 9)).described.map
      (·.2.toOption.map fun info => (info.name, info.usesPassword)) = some (some ("desk", true)) := by
    decide +kernel
  rw [hval, Option.map_some] at hdata
  rw [described, Option.map_some] at hinfo
  have hn : n.data = ⟨"10.0.0.1", 6053, "pw"⟩ := Option.some.inj hdata
  obtain ⟨hname, huses⟩ := Prod.mk.inj (Option.some.inj (Option.some.inj hinfo))
  rw [hn] at hhost hport hpassword described loggedIn
  exact ⟨r, e, info, answered, hentry, htitle.trans hname, hhost, hport, hpassword, described, hname,
    loggedIn huses⟩

/-- The unique id of a created entry is that of the node it points at if and only if the flow was
not announced, or the host is still the announced one, or both nodes have one name. -/
theorem unique_id_identifies_iff (h : Hub) (as : List Action) (f : Uuid) {k : Nat}
    {r : FlowResponse} {n : Flow.NewEntry}
    (lasts : ((start h).run as).hub.supply.Lasts)
    (answered : (((start h).run as).deeds f)[k]? = some (.answered (.ok r)))
    (created : r.result = .createEntry n) :
    let before := trail ((((start h).run as).deeds f).take k)
    ∃ e info, r.entry = some e ∧ e.data = n.data.toJson ∧
      before.described = some (⟨n.data.host, n.data.port, ""⟩, .ok info) ∧
      ((e.uniqueId = some info.name ∨ ∃ a, before.announced = some a ∧
          e.uniqueId = some a.nodeName ∧ n.data.host = a.host) ↔
        ∀ a, before.announced = some a → n.data.host = a.host ∨ info.name = a.nodeName) ∧
      -- the host differs only after a failure
      ∀ a, before.announced = some a → n.data.host = a.host ∨ before.failed = true := by
  intro before
  obtain ⟨⟨info, backs⟩, e, hentry, builds⟩ := accounts_of_answered h as f lasts answered n created
  have hkey : e.uniqueId = some (before.key info) := builds.uniqueId.trans backs.uniqueId
  refine ⟨e, info, hentry, builds.data, backs.described, ?_, fun a ha => ?_⟩
  · rw [hkey]
    unfold Trail.key
    cases before.announced with
    | none => simp
    | some a =>
      rw [Option.map_some, Option.getD_some]
      constructor
      · rintro (hname | ⟨a', ha', -, hhost⟩) a'' ha''
        · cases ha''
          exact .inr (Option.some.inj hname).symm
        · cases ha'
          cases ha''
          exact .inl hhost
      · intro hall
        rcases hall a rfl with hhost | hname
        · exact .inr ⟨a, rfl, rfl, hhost⟩
        · exact .inl (congrArg some hname.symm)
  · exact (backs.host a ha).imp_left Option.some.inj

def kitchen : Announcement := ⟨"10.0.0.1", 6053, "kitchen.local.", .empty⟩

/-- The announced node is confirmed and says that it has another name. -/
theorem unique_id_identifies_confirmed :
    let h := Hub.unused { hosts := .empty, others := { info := some ⟨"desk", false, "", "", ""⟩ } }
    let s := (start h).run (.init .zeroconf (some kitchen) :: (.replicate 5 (.advance 0) ++
      .configure (.generated 0) (.record []) :: .replicate 8 (.advance 1)))
    ∃ r e info, (s.deeds (.generated 0))[6]? = some (.answered (.ok r)) ∧ r.entry = some e ∧
      (trail ((s.deeds (.generated 0)).take 6)).described =
        some (⟨"10.0.0.1", 6053, ""⟩, .ok info) ∧
      (e.uniqueId = some info.name ∨ ∃ a,
        (trail ((s.deeds (.generated 0)).take 6)).announced = some a ∧ e.uniqueId = some a.nodeName ∧
          "10.0.0.1" = a.host) := by
  intro h s
  obtain ⟨r, n, answered, created, hval⟩ := exists_created (s.deeds (.generated 0)) 6
    (by decide +kernel)
  obtain ⟨e, info, hentry, -, described, identifies, -⟩ := unique_id_identifies_iff _ _ _
    (by unfold Supply.Lasts; decide +kernel) answered created
  have hdata : ((s.deeds (.generated 0))[6]?.bind created?).map (·.2.data) =
      some ⟨"10.0.0.1", 6053, ""⟩ := by decide +kernel
  have hann : (trail ((s.deeds (.generated 0)).take 6)).announced.map (·.host) =
      some "10.0.0.1" := by decide +kernel
  rw [hval, Option.map_some] at hdata
  have hn : n.data = ⟨"10.0.0.1", 6053, ""⟩ := Option.some.inj hdata
  rw [hn] at described identifies
  refine ⟨r, e, info, answered, hentry, described, identifies.2 fun a ha => .inl ?_⟩
  rw [ha, Option.map_some] at hann
  exact (Option.some.inj hann).symm

/-- Not every entry of an announced node is about it: it did not answer, and the user gave the host
of another one. -/
theorem not_always_unique_id_identifies :
    ¬ ∀ (h : Hub) (as : List Action) (f : Uuid) (k : Nat) (r : FlowResponse) (n : Flow.NewEntry),
      ((start h).run as).hub.supply.Lasts →
      (((start h).run as).deeds f)[k]? = some (.answered (.ok r)) → r.result = .createEntry n →
      let before := trail ((((start h).run as).deeds f).take k)
      ∃ e info, r.entry = some e ∧
        before.described = some (⟨n.data.host, n.data.port, ""⟩, .ok info) ∧
        (e.uniqueId = some info.name ∨ ∃ a, before.announced = some a ∧
          e.uniqueId = some a.nodeName ∧ n.data.host = a.host) := by
  intro always
  let h := Hub.unused { hosts := .ofList [("10.0.0.1", { error := some .timeout }),
    ("10.0.0.2", { info := some ⟨"office", false, "", "", ""⟩ })] }
  let as : List Action := .init .zeroconf (some kitchen) :: (.replicate 5 (.advance 0) ++
    .configure (.generated 0) (.record []) :: (.replicate 4 (.advance 1) ++
      .configure (.generated 0) (.record [("host", .str "10.0.0.2")]) ::
        .replicate 8 (.advance 2)))
  let ds := ((start h).run as).deeds (.generated 0)
  obtain ⟨r, n, answered, created, hval⟩ := exists_created ds 9
    (by decide +kernel)
  obtain ⟨e, info, hentry, described, hid⟩ := always h as (.generated 0) 9 r n
    (by unfold Supply.Lasts; decide +kernel) answered created
  have hdata : (ds[9]?.bind created?).map (·.2.data.host) = some "10.0.0.2" := by decide +kernel
  have hkey : (ds[9]?.bind created?).map (·.1.entry.map (·.uniqueId)) =
      some (some (some "kitchen")) := by decide +kernel
  have hname : (trail (ds.take 9)).described.map (·.2.toOption.map (·.name)) =
      some (some "office") := by decide +kernel
  have hann : (trail (ds.take 9)).announced.map (·.host) = some "10.0.0.1" := by decide +kernel
  rw [hval, Option.map_some] at hdata hkey
  rw [hentry] at hkey
  rw [described] at hname
  have hkey : e.uniqueId = some "kitchen" := Option.some.inj (Option.some.inj hkey)
  have hname : info.name = "office" := Option.some.inj (Option.some.inj hname)
  rcases hid with hid | ⟨a, ha, -, hhost⟩
  · rw [hkey, hname] at hid
    exact absurd hid (by decide)
  · rw [ha] at hann
    have hnew : n.data.host = "10.0.0.2" := Option.some.inj hdata
    have hold : a.host = "10.0.0.1" := Option.some.inj hann
    rw [hnew, hold] at hhost
    exact absurd hhost (by decide)

end Session

end HomeHub
