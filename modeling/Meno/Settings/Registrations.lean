import Meno.Lib.Schedule
import Meno.Settings.Changes

/-!
# Meno.Settings.Registrations

Where a user's notifications go. A message is posted to a token that the user has registered, as it
stood with notifications on when the sender looked it up; the row of settings may be another one by
then. `registrations_kept` says so of every run, with who changes the row, and what a sender clears
who has been told that FCM does not know a token: that token, or one that was registered since the
sender's look-up, which is in the history beside what is written.
-/

namespace Meno

open Lib

open Profiles (Settings)

variable (jsonb : Value → Except DbError Value)

/-! ## What the answers tell was so -/

section Sound

variable {ι : Type} (db : SettingsDb) (log : List (ι × SettingsWrite))

/-- After this history the user has the token, and wants to be notified. -/
def Enabled (u : Uuid) (token : String) : Prop :=
  ∃ s, (db.after jsonb log).settings.get u = some s ∧ s.pushNotifications = true ∧
    s.pushNotificationToken = some token

/-- Caller `i` has found the token when it looked up these users. -/
def FoundBy (i : ι) (us : List Uuid) (u : Uuid) (token : String)
    (earlier later : List (ι × SettingsWrite)) : Prop :=
  log = earlier ++ (i, .lookUp us) :: later ∧ u ∈ us ∧ Enabled jsonb db earlier u token

/-- Caller `i` has posted the message after it had found the token. -/
def PostedTo (i : ι) (p : Post) : Prop :=
  ∃ us earlier later, FoundBy jsonb db log i us p.userId p.message.token earlier later ∧
    (i, .post p) ∈ later

def PushFact.Sound (i : ι) : PushFact → Prop
  | .found us u token => ∃ earlier later, FoundBy jsonb db log i us u token earlier later
  | .rejected p result => result = .error .tokenInvalid ∧ PostedTo jsonb db log i p

/-- What speaks for a write. -/
def SettingsOp.Supported (op : SettingsOp) (i : ι) : SettingsWrite → Prop
  | .settings _ => ∀ u content result, op = .pushTo u content result →
      result = .error .tokenInvalid ∧ ∃ token, PostedTo jsonb db log i (content.toUser u token)
  | .lookUp _ => True
  | .post p => ∃ us result earlier later, op.Addresses us p.userId p.message.token p result ∧
      FoundBy jsonb db log i us p.userId p.message.token earlier later

variable {jsonb db log} {i : ι} {op : SettingsOp}

theorem FoundBy.append {us : List Uuid} {u : Uuid} {token : String}
    {earlier later : List (ι × SettingsWrite)} (h : FoundBy jsonb db log i us u token earlier later)
    (log' : List (ι × SettingsWrite)) :
    FoundBy jsonb db (log ++ log') i us u token earlier (later ++ log') := by
  obtain ⟨rfl, henabled⟩ := h
  exact ⟨List.append_assoc _ _ _, henabled⟩

theorem PostedTo.append {p : Post} (h : PostedTo jsonb db log i p)
    (log' : List (ι × SettingsWrite)) : PostedTo jsonb db (log ++ log') i p := by
  obtain ⟨us, earlier, later, hfound, hp⟩ := h
  exact ⟨us, earlier, later ++ log', hfound.append log', List.mem_append_left _ hp⟩

theorem PushFact.Sound.append {f : PushFact} (h : f.Sound jsonb db log i)
    (log' : List (ι × SettingsWrite)) : f.Sound jsonb db (log ++ log') i := by
  cases f with
  | found us u token =>
    obtain ⟨earlier, later, hfound⟩ := h
    exact ⟨earlier, later ++ log', hfound.append log'⟩
  | rejected p result => exact h.imp_right fun h => h.append log'

theorem SettingsOp.Supported.append (log log' : List (ι × SettingsWrite)) (x : SettingsWrite)
    (h : op.Supported jsonb db log i x) : op.Supported jsonb db (log ++ log') i x := by
  cases x with
  | settings row =>
    intro u content result hop
    obtain ⟨hresult, token, hposted⟩ := h u content result hop
    exact ⟨hresult, token, hposted.append log'⟩
  | lookUp us => trivial
  | post p =>
    obtain ⟨us, result, earlier, later, haddresses, hfound⟩ := h
    exact ⟨us, result, earlier, later ++ log', haddresses, hfound.append log'⟩

theorem enabled_of_getPushToken {u : Uuid} {token : String}
    (h : SettingsRepository.getPushToken (db.after jsonb log) u = some token) :
    Enabled jsonb db log u token := by
  obtain ⟨s, hs, htoken⟩ := Option.bind_eq_some_iff.1 h
  obtain ⟨hget, hpush⟩ := Option.filter_eq_some_iff.1 hs
  exact ⟨s, hget, hpush, htoken⟩

theorem enabled_of_getPushTokensBatch {us : List Uuid} {t : Uuid × String}
    (h : t ∈ SettingsRepository.getPushTokensBatch (db.after jsonb log) us) :
    t.1 ∈ us ∧ Enabled jsonb db log t.1 t.2 := by
  obtain ⟨s, hs, ht⟩ := List.mem_filterMap.1 h
  obtain ⟨token, htoken, rfl⟩ := Option.map_eq_some_iff.1 ht
  obtain ⟨hrow, hcond⟩ := List.mem_filter.1 hs
  simp only [Bool.and_eq_true, List.contains_iff_mem] at hcond
  exact ⟨hcond.1, s, Table.mem_rows_iff.1 hrow, hcond.2, htoken⟩

theorem pushFact_sound {g : List PushFact} {d : SettingsDb} (hd : db.after jsonb log = d)
    (hg : ∀ f ∈ g, f.Sound jsonb db log i) {β : Type} {s : SettingsStmt β} {now : OffsetDateTime}
    {a : β} {ws : List SettingsWrite}
    (hmay : op.May (.exec .pool s : Cmd SettingsStmt DbError _) g)
    (h : s.exec jsonb now d = .ok (a, ws)) :
    ∀ f ∈ PushFact.learned (.exec .pool s : Cmd SettingsStmt DbError _) (.ok a),
      f.Sound jsonb db (log ++ ws.map fun x => (i, x)) i := by
  subst hd
  cases s with
  | getPushToken u =>
    cases h
    cases htoken : SettingsRepository.getPushToken (db.after jsonb log) u with
    | none => exact List.forall_mem_nil _
    | some token =>
      refine List.forall_mem_singleton.2 ⟨log, [], rfl, List.mem_singleton_self u, ?_⟩
      exact enabled_of_getPushToken htoken
  | getPushTokensBatch us =>
    cases h
    intro f hf
    obtain ⟨t, ht, rfl⟩ := List.mem_map.1 hf
    obtain ⟨hmem, henabled⟩ := enabled_of_getPushTokensBatch ht
    exact ⟨log, [], rfl, hmem, henabled⟩
  | send p result =>
    cases h
    obtain ⟨-, us, u, token, hfact, haddresses⟩ := hmay
    obtain ⟨earlier, later, hfound⟩ := hg _ hfact
    obtain ⟨rfl, rfl⟩ := haddresses.addressee
    rcases result with e | ⟨⟩
    · cases e with
      | tokenInvalid =>
        refine List.forall_mem_singleton.2
          ⟨rfl, us, earlier, later ++ [(i, .post p)], hfound.append _, ?_⟩
        exact List.mem_append_right _ List.mem_cons_self
      | _ => exact List.forall_mem_nil _
    · exact List.forall_mem_nil _
  | _ => exact List.forall_mem_nil _

@[simp] theorem PushFact.learned_error {β : Type} (e : Executor) (s : SettingsStmt β)
    (err : DbError) :
    learned (.exec e s) (.error err) = [] := by
  cases s <;> cases e <;> rfl

theorem exec_supported {g : List PushFact} (hg : ∀ f ∈ g, f.Sound jsonb db log i) {β : Type}
    {e : Executor} {s : SettingsStmt β} {now : OffsetDateTime} {d : SettingsDb} {a : β}
    {ws : List SettingsWrite} (hmay : op.May (.exec e s : Cmd SettingsStmt DbError _) g)
    (h : s.exec jsonb now d = .ok (a, ws)) : ∀ x ∈ ws, op.Supported jsonb db log i x := by
  cases s with
  | update input =>
    obtain ⟨u, body, rfl, -, -⟩ := hmay
    obtain ⟨_, _, _, _, _, rfl⟩ := update_ok h
    intro x hx
    cases List.mem_singleton.1 hx
    rintro _ _ _ ⟨⟩
  | clearPushToken u =>
    cases h
    intro x hx
    obtain ⟨row, hrow, rfl⟩ := Option.map_eq_some_iff.1 (Option.mem_toList.1 hx)
    rcases hmay with rfl | ⟨content, result, token, rfl, hrejected⟩
    · rintro _ _ _ ⟨⟩
    · rintro _ _ _ ⟨⟩
      obtain ⟨hresult, hposted⟩ := hg _ hrejected
      exact ⟨hresult, token, hposted⟩
  | insertSettings u =>
    obtain rfl : op = .insertSettings u := hmay
    intro x hx
    simp only [SettingsStmt.exec, SettingsRepository.insertSettings] at h
    split at h
    · cases h
    · cases h
      cases List.mem_singleton.1 hx
      rintro _ _ _ ⟨⟩
  | send p result =>
    cases h
    intro x hx
    obtain ⟨-, us, u, token, hfact, haddresses⟩ := hmay
    obtain ⟨earlier, later, hfound⟩ := hg _ hfact
    obtain ⟨rfl, rfl⟩ := haddresses.addressee
    split at hx
    · cases List.mem_singleton.1 hx
      exact ⟨us, result, earlier, later, haddresses, hfound⟩
    · cases hx
  | getPushToken | getPushTokensBatch =>
    cases h
    exact List.forall_mem_singleton.2 trivial
  | _ =>
    cases h
    exact List.forall_mem_nil _

end Sound

/-! ## Tokens -/

/-- The user has registered the token: the request was let through, and the row stored. -/
def Registered {ι : Type} (ops : ι → SettingsOp) (log : List (ι × SettingsWrite)) (u : Uuid)
    (token : String) : Prop :=
  ∃ i row body, (i, .settings row) ∈ log ∧ ops i = .update u body ∧
    body.pushNotificationToken = some token

section Histories

variable {jsonb} {ι : Type} {ops : ι → SettingsOp} {db : SettingsDb}

theorem SettingsDb.after_append {log log' : List (ι × SettingsWrite)} :
    db.after jsonb (log ++ log') = (db.after jsonb log).after jsonb log' := by
  rw [SettingsDb.after, List.map_append, Engine.applyAll_append]

theorem Registered.append {log : List (ι × SettingsWrite)} {u : Uuid} {token : String}
    (h : Registered ops log u token) (log' : List (ι × SettingsWrite)) :
    Registered ops (log ++ log') u token := by
  obtain ⟨i, row, body, hmem, hop, hbody⟩ := h
  exact ⟨i, row, body, List.mem_append_left _ hmem, hop, hbody⟩

/-- A look-up is no registration. -/
theorem Registered.of_lookUp {log : List (ι × SettingsWrite)} {i : ι} {us : List Uuid} {u : Uuid}
    {token : String} (h : Registered ops ((i, .lookUp us) :: log) u token) :
    Registered ops log u token := by
  obtain ⟨j, row, body, hmem, hop, hbody⟩ := h
  rcases List.mem_cons.1 hmem with hsame | hmem
  · cases hsame
  · exact ⟨j, row, body, hmem, hop, hbody⟩

theorem get_apply (d : SettingsDb) (row : Settings) (u : Uuid) :
    (d.apply (.settings row)).settings.get u =
      if u = row.userId then some row else d.settings.get u := by
  rw [SettingsDb.apply, Table.get_put]

/-- A write leaves the token, takes it away, or is a registration. -/
theorem token_apply {op : SettingsOp} {d : SettingsDb} {x : SettingsWrite}
    (h : op.Keeps jsonb d x) (u : Uuid) :
    (d.apply x).token u = d.token u ∨ (d.apply x).token u = none ∨
      ∃ row body token, x = .settings row ∧ op = .update u body ∧
        body.pushNotificationToken = some token ∧ (d.apply x).token u = some token := by
  cases x with
  | lookUp us => exact .inl rfl
  | post p => exact .inl rfl
  | settings row =>
    have hget := get_apply d row u
    by_cases hu : u = row.userId
    · rw [if_pos hu] at hget
      have htoken : (d.apply (.settings row)).token u = row.pushNotificationToken := by
        rw [SettingsDb.token, hget]
        rfl
      rw [htoken]
      cases h row rfl with
      | inserts _ _ => exact .inr (.inl rfl)
      | @updates u' body s preferences hop _ hold _ =>
        have hid : s.userId = u' := Table.key_of_get hold
        obtain rfl : u = u' := hu.trans hid
        cases hbody : body.pushNotificationToken with
        | none =>
          refine .inl ?_
          rw [SettingsDb.token, hold]
          exact congrArg (Option.or · s.pushNotificationToken) hbody
        | some token =>
          refine .inr (.inr ⟨_, body, token, rfl, hop, hbody, ?_⟩)
          exact congrArg (Option.or · s.pushNotificationToken) hbody
      | clears _ _ => exact .inr (.inl rfl)
    · rw [if_neg hu] at hget
      exact .inl (congrArg (Option.bind · Settings.pushNotificationToken) hget)

/-- The token of a user is the one that was there, or one that has been registered since. -/
theorem token_after (log : List (ι × SettingsWrite)) : ∀ {d : SettingsDb},
    World.LogChain (settingsEngine jsonb) (fun i => (ops i).Keeps jsonb) d log → ∀ u,
      (d.after jsonb log).token u = d.token u ∨ (d.after jsonb log).token u = none ∨
        ∃ token, (d.after jsonb log).token u = some token ∧ Registered ops log u token := by
  induction log with
  | nil => exact fun _ _ => .inl rfl
  | cons x log ih =>
    obtain ⟨i, x⟩ := x
    intro d h u
    rcases ih h.2 u with hsame | hnone | ⟨token, htoken, j, row, body, hmem, hop, hbody⟩
    · have hfirst : (d.after jsonb ((i, x) :: log)).token u = (d.apply x).token u := hsame
      rw [hfirst]
      refine (token_apply h.1 u).imp_right (Or.imp_right ?_)
      rintro ⟨row, body, token, rfl, hop, hbody, htoken⟩
      exact ⟨token, htoken, i, row, body, List.mem_cons_self, hop, hbody⟩
    · exact .inr (.inl hnone)
    · exact .inr (.inr ⟨token, htoken, j, row, body, List.mem_cons_of_mem _ hmem, hop, hbody⟩)

theorem token_of_enabled {log : List (ι × SettingsWrite)} {u : Uuid} {token : String}
    (h : Enabled jsonb db log u token) : (db.after jsonb log).token u = some token := by
  obtain ⟨s, hget, -, htoken⟩ := h
  rw [SettingsDb.token, hget]
  exact htoken

/-! ## Well-formed rows -/

/-- What the checks of a request promise for the row. -/
structure Profiles.Settings.WellFormed (s : Settings) : Prop where
  token : ∀ token ∈ s.pushNotificationToken, token.length ≤ 4096
  language : isLang s.language = true

theorem token_of_accepted {body : UpdateSettingsRequest} (h : body.Accepted) :
    ∀ token ∈ body.pushNotificationToken, token.length ≤ 4096 := by
  intro token htoken
  have hfield := (List.append_eq_nil_iff.1 h.fields).1
  rw [Option.mem_def.1 htoken, Option.elim_some, Auth.validateBetween] at hfield
  split at hfield
  · rename_i hlen
    exact hlen.2 4096 rfl
  · cases hfield

theorem isLang_en : isLang "en" = true := by decide +kernel

theorem wellFormed_changes {op : SettingsOp} {d : SettingsDb} {row : Settings}
    (hd : ∀ u s, d.settings.get u = some s → s.WellFormed) (h : op.Changes jsonb d row) :
    row.WellFormed := by
  cases h with
  | inserts _ _ => exact ⟨fun _ htoken => (by cases htoken), isLang_en⟩
  | @updates u body s preferences _ haccepted hget _ =>
    have hold := hd u s hget
    refine ⟨fun token htoken => ?_, ?_⟩
    · rcases Option.or_eq_some_iff.1 htoken with hnew | ⟨-, hsame⟩
      · exact token_of_accepted haccepted token hnew
      · exact hold.token token hsame
    · cases hlang : body.language with
      | none =>
        have hsame : ((body.input u).set preferences s).language = s.language :=
          congrArg (Option.getD · s.language) hlang
        rw [hsame]
        exact hold.language
      | some lang =>
        have hnew : ((body.input u).set preferences s).language = lang :=
          congrArg (Option.getD · s.language) hlang
        rw [hnew]
        exact haccepted.language lang hlang
  | clears _ hget =>
    have hold := hd _ _ hget
    exact ⟨fun _ htoken => (by cases htoken), hold.language⟩

theorem wellFormed_after (log : List (ι × SettingsWrite)) : ∀ {d : SettingsDb},
    World.LogChain (settingsEngine jsonb) (fun i => (ops i).Keeps jsonb) d log →
    (∀ u s, d.settings.get u = some s → s.WellFormed) →
      ∀ u s, (d.after jsonb log).settings.get u = some s → s.WellFormed := by
  induction log with
  | nil => exact fun _ hd => hd
  | cons x log ih =>
    obtain ⟨i, x⟩ := x
    intro d h hd
    refine ih h.2 fun u s hget => ?_
    cases x with
    | lookUp us => exact hd u s hget
    | post p => exact hd u s hget
    | settings row =>
      have happly : (d.apply (.settings row)).settings.get u = some s := hget
      rw [get_apply] at happly
      split at happly
      · cases happly
        exact wellFormed_changes hd (h.1 s rfl)
      · exact hd u s happly

end Histories

/-! ## Runs -/

abbrev SettingsWorld (ι : Type) :=
  World SettingsStmt SettingsDb SettingsWrite OffsetDateTime DbError
    (Except SettingsError SettingsAnswer) ι

/-- The worlds that runs of the operations reach. -/
abbrev SettingsReaches {ι : Type} [DecidableEq ι] (ops : ι → SettingsOp) (db : SettingsDb)
    (t : OffsetDateTime) (w : SettingsWorld ι) : Prop :=
  World.Reaches (settingsKeyed jsonb) (fun i => ExceptT.run (ops i).prog) db t w

section Runs

variable {jsonb} {ι : Type} [DecidableEq ι] {ops : ι → SettingsOp} {db : SettingsDb}
  {t : OffsetDateTime} {w : SettingsWorld ι}

theorem settings_linked (i : ι) :
    World.Linked (settingsKeyed jsonb)
      (fun (v _ : SettingsWorld ι) => db.after jsonb v.log = v.committed) (ops i).May
      PushFact.observe (fun g v => ∀ f ∈ g, f.Sound jsonb db v.log i) i where
  own := by
    intro v β c k fault g _ hs hmay hg f hf
    rcases List.mem_append.1 hf with hf | hf
    · cases c with
      | begin => cases hf
      | commit => cases hf
      | exec e s =>
        cases hanswer : (Session.handle (settingsEngine jsonb) (.exec e s)
            (v.session i (.exec e s) fault)).1 with
        | error err =>
          rw [hanswer, PushFact.learned_error] at hf
          cases hf
        | ok a =>
          rw [hanswer] at hf
          obtain ⟨ws, hexec, hwrites⟩ := World.writes_of_answered hanswer
          cases e with
          | pool =>
            have hsound := pushFact_sound hs.2 hg hmay hexec f hf
            rw [← hwrites] at hsound
            exact hsound
          | tx => cases s <;> cases hf
    · exact (hg f hf).append _
  others := by
    intro v v' g hs _ hg f hf
    cases hs.1 with
    | call => exact (hg f hf).append _
    | rollback => exact hg f hf
    | tick => exact hg f hf

theorem settings_replayed (h : SettingsReaches jsonb ops db t w) :
    World.StepsMay (settingsKeyed jsonb) (fun v _ => db.after jsonb v.log = v.committed)
      (World.start db t fun i => ExceptT.run (ops i).prog) w := by
  induction h with
  | refl => exact .refl
  | tail hw hs ih => exact ih.tail ⟨hs, (World.apart_of_reaches hw).replay⟩

section Log

variable {before after : List (ι × SettingsWrite)} {i : ι} {x : SettingsWrite}

theorem settings_supported (h : SettingsReaches jsonb ops db t w)
    (hlog : w.log = before ++ (i, x) :: after) : (ops i).Supported jsonb db before i x := by
  have hsourced : World.Sourced (fun log x => (ops i).Supported jsonb db log i x) i w := by
    refine World.sourced_of_steps (settings_linked i) SettingsOp.Supported.append ?_
      (settings_replayed h) (List.forall_mem_nil _) (ops i).backed_prog ⟨?_, ?_⟩
    · intro v β c fault g hmay hg x hx
      cases c with
      | begin => cases hx
      | commit => cases hx
      | exec e s =>
        obtain ⟨a, ws, hexec, hx⟩ := World.mem_writes hx
        exact exec_supported hg hmay hexec x hx
    · exact fun x hx => nomatch hx
    · intro before x after hlog
      cases before <;> cases hlog
  exact hsourced.log before x after hlog

theorem settings_kept (h : SettingsReaches jsonb ops db t w)
    (before between after : List (ι × SettingsWrite))
    (hlog : w.log = before ++ (between ++ after)) :
    World.LogChain (settingsEngine jsonb) (fun i => (ops i).Keeps jsonb)
      (db.after jsonb before) between := by
  have hconfined := World.confined_of_reaches (fun i => settings_confined (ops i))
    (fun i => uses_settings (ops i)) h
  have hchain := hconfined.log
  rw [hlog] at hchain
  exact (World.logChain_append.1 (World.logChain_append.1 hchain).2).1

end Log

/-- The program of a request: it ends at once, or it sends the `UPDATE`. -/
theorem update_prog (u : Uuid) (body : UpdateSettingsRequest) :
    (∃ e, ExceptT.run (SettingsOp.update u body).prog = .ret (.error e)) ∨
      ExceptT.run (SettingsOp.update u body).prog =
        ExceptT.run (SettingsService.query (.update (body.input u)) >>= fun updated =>
          SettingsService.ignore (.invalidateCachedProfile u) >>= fun _ =>
            pure (.settings updated.response)) := by
  simp only [SettingsOp.prog, SettingsService.updateSettings]
  split
  · unfold SettingsService.update
    split
    · exact .inl ⟨_, rfl⟩
    · exact .inr (by simp only [bind_assoc, pure_bind])
  · exact .inl ⟨_, rfl⟩

/-- What a request is answered has been stored. -/
theorem stored_of_answered (h : SettingsReaches jsonb ops db t w) {i : ι} {u : Uuid}
    {body : UpdateSettingsRequest} {r : Profiles.SettingsResponse} (hop : ops i = .update u body)
    (hret : (w.callers i).prog = .ret (.ok (.settings r))) :
    ∃ before row after, w.log = before ++ (i, .settings row) :: after ∧ row.response = r := by
  have hrun := settings_replayed h
  have hstart : ((World.start db t fun i => ExceptT.run (ops i).prog : SettingsWorld ι).callers
      i).prog = ExceptT.run (SettingsOp.update u body).prog := by
    show ExceptT.run (ops i).prog = _
    rw [hop]
  rcases update_prog u body with ⟨e, hstops⟩ | hsends
  · have hend := World.prog_of_ret hrun (hstart.trans hstops)
    rw [hret] at hend
    cases hend
  obtain ⟨updated, v, v', hv, hs, hrest, hexecuted, hrestp⟩ :=
    World.pool_of_ret hrun (hstart.trans hsends) hret
  obtain ⟨ws, hexec, -, hnew⟩ := hexecuted.exec
  obtain ⟨_, _, _, _, _, rfl⟩ := update_ok hexec
  -- The rest of the program answers with this row.
  obtain ⟨_, v'', _, hlast, hpure⟩ := World.act_of_ret hrest hrestp hret
  have hend := World.prog_of_ret (r := .ok (.settings updated.response)) hlast hpure
  rw [hret] at hend
  cases hend
  obtain ⟨after, hafter⟩ := World.log_of_run hrest.steps
  refine ⟨v.log, updated, after, ?_, rfl⟩
  rw [hafter, World.log_eq_newLog hs.1, hnew]
  exact List.append_assoc _ _ _

end Runs

/-- `replay`: the tables are what the history has made of the first ones. `rows`: who changes a row
of settings, and to what. `posts`: a message goes to a token that its addressee had with
notifications on when the sender looked, and had registered. `rejected`: who clears a token has found
one when it looked, and posted to it since, and what is cleared is that token, or one that was
registered since the look.
`wellFormed`: the checks of the requests hold of all rows. `stored`: what a request is answered is a
row that it has stored. -/
structure RegistrationsKept {ι : Type} [DecidableEq ι] (ops : ι → SettingsOp) (db : SettingsDb)
    (w : SettingsWorld ι) : Prop where
  replay : db.after jsonb w.log = w.committed
  rows : ∀ before i row after, w.log = before ++ (i, .settings row) :: after →
    (ops i).Changes jsonb (db.after jsonb before) row
  posts : ∀ before i p after, w.log = before ++ (i, .post p) :: after →
    ∃ us result earlier later, (ops i).Addresses us p.userId p.message.token p result ∧
      before = earlier ++ (i, .lookUp us) :: later ∧ p.userId ∈ us ∧
      Enabled jsonb db earlier p.userId p.message.token ∧
      (db.token p.userId = some p.message.token ∨ Registered ops earlier p.userId p.message.token)
  rejected : ∀ before i row after u content result,
    w.log = before ++ (i, .settings row) :: after → ops i = .pushTo u content result →
      result = .error .tokenInvalid ∧ ∃ token us earlier later,
        before = earlier ++ (i, .lookUp us) :: later ∧ u ∈ us ∧
        Enabled jsonb db earlier u token ∧ (i, .post (content.toUser u token)) ∈ later ∧
        ∀ cleared, (db.after jsonb before).token u = some cleared →
          cleared = token ∨ Registered ops later u cleared
  wellFormed : (∀ s ∈ db.settings.rows, s.WellFormed) →
    ∀ s ∈ w.committed.settings.rows, s.WellFormed
  stored : ∀ i u body r, ops i = .update u body →
    (w.callers i).prog = .ret (.ok (.settings r)) →
      ∃ before row after, w.log = before ++ (i, .settings row) :: after ∧ row.response = r

theorem registrations_kept {ι : Type} [DecidableEq ι] (ops : ι → SettingsOp) (db : SettingsDb)
    (t : OffsetDateTime) (w : SettingsWorld ι) (h : SettingsReaches jsonb ops db t w) :
    RegistrationsKept jsonb ops db w := by
  have hreplay : db.after jsonb w.log = w.committed := (World.apart_of_reaches h).replay
  refine ⟨hreplay, ?_, ?_, ?_, ?_, fun i u body r hop hret => stored_of_answered h hop hret⟩
  · intro before i row after hlog
    exact (settings_kept h before [(i, .settings row)] after hlog).1 row rfl
  · intro before i p after hlog
    obtain ⟨us, result, earlier, later, haddresses, rfl, hmem, henabled⟩ :=
      settings_supported h hlog
    refine ⟨us, result, earlier, later, haddresses, rfl, hmem, henabled, ?_⟩
    have htoken := token_of_enabled henabled
    have hchain : World.LogChain (settingsEngine jsonb) (fun i => (ops i).Keeps jsonb) db earlier :=
      settings_kept h [] earlier _ (hlog.trans (List.append_assoc _ _ _))
    rcases token_after earlier hchain p.userId with hsame | hnone | ⟨token, hnew, hregistered⟩
    · exact .inl (hsame.symm.trans htoken)
    · rw [htoken] at hnone
      cases hnone
    · rw [htoken] at hnew
      cases hnew
      exact .inr hregistered
  · intro before i row after u content result hlog hop
    obtain ⟨hresult, token, us, earlier, later, ⟨rfl, hmem, henabled⟩, hposted⟩ :=
      settings_supported h hlog u content result hop
    refine ⟨hresult, token, us, earlier, later, rfl, hmem, henabled, hposted,
      fun cleared hcleared => ?_⟩
    have htoken : (db.after jsonb earlier).token u = some token := token_of_enabled henabled
    have hchain := settings_kept h earlier _ _ (hlog.trans (List.append_assoc _ _ _))
    rw [SettingsDb.after_append] at hcleared
    rcases token_after _ hchain u with hsame | hnone | ⟨new, hnew, hregistered⟩
    · rw [hsame, htoken] at hcleared
      exact .inl (Option.some.inj hcleared).symm
    · rw [hnone] at hcleared
      cases hcleared
    · rw [hnew] at hcleared
      cases hcleared
      exact .inr hregistered.of_lookUp
  · intro hrows s hs
    have hchain : World.LogChain (settingsEngine jsonb) (fun i => (ops i).Keeps jsonb) db w.log :=
      settings_kept h [] w.log [] (List.append_nil _).symm
    refine wellFormed_after w.log hchain (fun u s hget => ?_) s.userId s ?_
    · exact hrows s (Table.get_eq_some_iff.1 hget).1
    · rw [hreplay]
      exact Table.mem_rows_iff.1 hs

/-- User 1 registers a token, is sent a message, and registers another token while FCM is asked. -/
def registerMeanwhile : Fin 3 → SettingsOp
  | 0 => .update ⟨1⟩ ⟨some true, none, none, some "old", none, some "en", none⟩
  | 1 => .pushTo ⟨1⟩ ⟨"Live", "Now", none, "meno://home"⟩ (.error .tokenInvalid)
  | 2 => .update ⟨1⟩ ⟨none, none, none, some "new", none, none, none⟩

def settingsOfOne : SettingsDb where
  settings := Table.empty.put (Settings.inserted ⟨1⟩)
  lookUp := none
  posts := .empty

theorem registrations_kept_lost : ∃ w : SettingsWorld (Fin 3),
    (w.committed.posts.rows.map fun p => p.message.token) = ["old"] ∧
      w.log.map Prod.fst = [0, 1, 1, 2, 1] ∧ w.committed.token ⟨1⟩ = none ∧
      RegistrationsKept .ok registerMeanwhile settingsOfOne w := by
  have hrun : ∃ w : SettingsWorld (Fin 3), SettingsReaches .ok registerMeanwhile settingsOfOne 1 w ∧
      (w.committed.posts.rows.map fun p => p.message.token) = ["old"] ∧
        w.log.map Prod.fst = [0, 1, 1, 2, 1] ∧ w.committed.token ⟨1⟩ = none :=
    World.reaches_of_runSchedule [(2, 0), (2, 0), (3, 1), (3, 1), (4, 2), (4, 2), (5, 1)]
      (by decide +kernel)
  obtain ⟨w, hw, hposts, hcallers, hlost⟩ := hrun
  exact ⟨w, hposts, hcallers, hlost, registrations_kept _ _ _ _ _ hw⟩

end Meno
