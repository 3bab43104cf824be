import Lwk.Electrum.Client

/-!
# Runs of `address_status`

A client and the server it talks to, along any run of events: the server's status of a script
changes, the connection fails or is replaced by a new one, the client makes some other request
(which reads the notifications sent so far), or it calls `address_status`.

Along any run, every status the client caches, queues or has yet to read is one the server had
(`StatusWorld.Sound`), so `address_status` never makes one up, though it may return a stale
one: a call pops a single notification. While the connection is live, the last status the
client holds for a subscribed script is the server's (`StatusWorld.Fresh`), so calls in a row
catch up with it, after at most one failed call when a notification does not parse. A cached
status is never removed: once a script has had one, a call either fails or returns one, also
after the script has lost its history, when the `null` notification breaks the connection and
the next call but one subscribes afresh and gets `None` from the server.
-/

namespace Lwk

namespace Connection

@[simp] theorem sent_fresh (s : Script) : fresh.sent s = [] := rfl

theorem sent_of_unread_nil {c : Connection} (hu : c.unread = []) (s : Script) :
    c.sent s = ((c.scriptNotifications.get? s).getD []).map some := by
  simp [sent, hu, statusesFor]

@[simp] theorem sent_withUp (c : Connection) (b : Bool) (s : Script) :
    { c with up := b }.sent s = c.sent s := rfl

/-- An empty queue where there was none changes nothing a connection holds. -/
theorem sent_addQueue {c : Connection} {script : Script}
    (hget : c.scriptNotifications.get? script = none) (s : Script) :
    (c.addQueue script).sent s = c.sent s := by
  by_cases hs : s = script
  · subst hs
    simp [sent, hget]
  · simp [sent, hs]

theorem sent_push (c : Connection) (script s : Script) (status : Option ScriptStatus) :
    { c with unread := c.unread ++ [(script, status)] }.sent s =
      if s = script then c.sent s ++ [status] else c.sent s := by
  by_cases hs : s = script <;> simp [sent, statusesFor, hs, eq_comm]

@[simp] theorem sent_fresh_addQueue (script s : Script) : (fresh.addQueue script).sent s = [] := by
  by_cases hs : s = script <;> simp [sent, statusesFor, hs]

theorem notify_eq (c : Connection) (script : Script) (status : Option ScriptStatus) :
    (c.up = true ∧ (c.scriptNotifications.get? script).isSome ∧
      c.notify script status = { c with unread := c.unread ++ [(script, status)] }) ∨
    (¬(c.up = true ∧ (c.scriptNotifications.get? script).isSome) ∧ c.notify script status = c) := by
  unfold notify
  split <;> simp_all

/-- Popping takes out the oldest status a script holds; nothing else changes. -/
theorem scriptPop_ok {c c' : Connection} {script : Script} {val : Option ScriptStatus}
    (h : c.scriptPop script = (.ok val, c')) :
    c'.up = c.up ∧ c'.unread = c.unread ∧ c.sent script = (val.map some).toList ++ c'.sent script ∧
      (val = none → c.scriptNotifications.get? script = some []) ∧
      ∀ s, (c'.scriptNotifications.get? s).isSome = (c.scriptNotifications.get? s).isSome ∧
        (s ≠ script → c'.sent s = c.sent s) := by
  unfold scriptPop at h
  cases hq : c.scriptNotifications.get? script with
  | none => simp [hq] at h
  | some q =>
    cases q with
    | nil =>
      simp only [hq, Prod.mk.injEq, Except.ok.injEq] at h
      obtain ⟨rfl, rfl⟩ := h
      simp
    | cons n rest =>
      simp only [hq, Prod.mk.injEq, Except.ok.injEq] at h
      obtain ⟨rfl, rfl⟩ := h
      refine ⟨rfl, rfl, by simp [sent, hq], nofun, fun s => ?_⟩
      by_cases hs : s = script
      · subst hs
        simp [hq]
      · simp [sent, hs]

theorem scriptPop_of_isSome {c : Connection} {script : Script}
    (h : (c.scriptNotifications.get? script).isSome) :
    ∃ val c', c.scriptPop script = (.ok val, c') := by
  obtain ⟨q, hq⟩ := Option.isSome_iff_exists.1 h
  cases q <;> simp [scriptPop, hq]

/-- What `address_status` leaves on the connection, the connection held before: the block
takes statuses out, and a new connection holds nothing. -/
theorem nextStatus_sent (c : Connection) (server : Script → Option ScriptStatus) (script s : Script) :
    (c.nextStatus server script).2.sent s ⊆ c.sent s := by
  rw [nextStatus_eq]
  cases hup : c.up <;> cases hget : c.scriptNotifications.get? script <;> dsimp only
  · rw [sent_addQueue hget s]
    exact List.Subset.refl _
  · exact List.Subset.refl _
  · cases hr : (c.addQueue script).read with
    | ok c' =>
      rw [((read_ok hr).2.2 s).2, sent_addQueue hget s]
      exact List.Subset.refl _
    | error e => simp
  · cases hr : c.read with
    | ok c' =>
      obtain ⟨val, c'', hpop⟩ := scriptPop_of_isSome (by rw [((read_ok hr).2.2 script).1, hget]; rfl)
      obtain ⟨-, -, hheld, -, hrest⟩ := scriptPop_ok hpop
      show (c'.scriptPop script).2.sent s ⊆ c.sent s
      rw [hpop, ← ((read_ok hr).2.2 s).2]
      by_cases hs : s = script
      · subst hs
        rw [hheld]
        exact List.subset_append_right _ _
      · rw [(hrest s).2 hs]
        exact List.Subset.refl _
    | error e => simp

/-- The status the block answers is the server's answer to a new subscription, or one the
connection held for the script. -/
theorem nextStatus_some {c : Connection} {server : Script → Option ScriptStatus} {script : Script}
    {v : ScriptStatus} (h : (c.nextStatus server script).1 = .ok (some v)) :
    some v = server script ∨ some v ∈ c.sent script := by
  rw [nextStatus_eq] at h
  cases hup : c.up <;> cases hget : c.scriptNotifications.get? script <;> simp only [hup, hget] at h
  · cases h
  · cases h
  · exact .inl (Except.ok.inj h).symm
  · cases hr : c.read with
    | ok c' =>
      simp only [hr] at h
      obtain ⟨val, c'', hpop⟩ := scriptPop_of_isSome (by rw [((read_ok hr).2.2 script).1, hget]; rfl)
      rw [hpop] at h
      cases Except.ok.inj h
      refine .inr ?_
      rw [← ((read_ok hr).2.2 script).2, (scriptPop_ok hpop).2.2.1]
      simp
    | error e => simp [hr] at h

/-- Every unread notification is for a script the connection has a queue for: the server
notifies only the scripts subscribed on the connection. -/
def Subscribed (c : Connection) : Prop :=
  ∀ n ∈ c.unread, (c.scriptNotifications.get? n.1).isSome

theorem Subscribed.statusesFor_eq_nil {c : Connection} (h : c.Subscribed) {s : Script}
    (hs : c.scriptNotifications.get? s = none) : statusesFor s c.unread = [] := by
  simp only [statusesFor, List.filterMap_eq_nil_iff]
  intro n hn
  split
  · rename_i heq
    have := h n hn
    rw [heq, hs] at this
    cases this
  · rfl

/-- A new subscription on a live connection: afterwards the script is subscribed holding
nothing, nothing is unread, and any other script still subscribed holds what it held. -/
theorem nextStatus_new {c : Connection} (hsub : c.Subscribed) (hup : c.up = true) {script : Script}
    (hget : c.scriptNotifications.get? script = none) (server : Script → Option ScriptStatus) :
    ∃ c', c.nextStatus server script = (.ok (server script), c') ∧ c'.up = true ∧ c'.unread = [] ∧
      (c'.scriptNotifications.get? script).isSome ∧ c'.sent script = [] ∧
      ∀ s ≠ script, (c'.scriptNotifications.get? s).isSome →
        (c.scriptNotifications.get? s).isSome ∧ c'.sent s = c.sent s := by
  rw [nextStatus_eq]
  simp only [hup, hget]
  cases hr : (c.addQueue script).read with
  | ok c' =>
    obtain ⟨hup', hu', heq⟩ := read_ok hr
    refine ⟨c', rfl, hup', hu', by simp [(heq script).1], ?_, fun s hs hsome => ?_⟩
    · rw [(heq script).2, sent_addQueue hget, sent, hget, hsub.statusesFor_eq_nil hget]
      rfl
    · rw [(heq s).1, get?_addQueue, if_neg hs] at hsome
      exact ⟨hsome, by rw [(heq s).2, sent_addQueue hget]⟩
  | error e =>
    refine ⟨fresh.addQueue script, rfl, rfl, rfl, by simp, by simp, fun s hs hsome => ?_⟩
    simp [hs] at hsome

/-- A subscribed script on a live connection: either the read fails and the client ends up on
a new connection, or nothing is left unread and the script's oldest status is popped, which
is `none` only when nothing was held. -/
theorem nextStatus_pop {c : Connection} (hup : c.up = true) {script : Script}
    (hget : (c.scriptNotifications.get? script).isSome) (server : Script → Option ScriptStatus) :
    (∃ e, c.read = .error e ∧ c.nextStatus server script = (.error (.allAttemptsErrored (.notSubscribed script)), fresh)) ∨
    ∃ val c', c.nextStatus server script = (.ok val, c') ∧ c'.up = true ∧ c'.unread = [] ∧
      c.sent script = (val.map some).toList ++ c'.sent script ∧ (val = none → c'.sent script = []) ∧
      ∀ s, (c'.scriptNotifications.get? s).isSome = (c.scriptNotifications.get? s).isSome ∧
        (s ≠ script → c'.sent s = c.sent s) := by
  obtain ⟨q, hq⟩ := Option.isSome_iff_exists.1 hget
  rw [nextStatus_eq]
  simp only [hup, hq]
  cases hr : c.read with
  | error e => exact .inl ⟨e, rfl, rfl⟩
  | ok c₁ =>
    obtain ⟨hup₁, hu₁, heq⟩ := read_ok hr
    obtain ⟨val, c', hpop⟩ := scriptPop_of_isSome (by rw [(heq script).1, hget])
    obtain ⟨hup', hu', hheld, hnone, hrest⟩ := scriptPop_ok hpop
    refine .inr ⟨val, c', hpop, hup'.trans hup₁, hu'.trans hu₁, ?_, fun hv => ?_, fun s => ?_⟩
    · rw [← (heq script).2, hheld]
    · have h1 : c₁.sent script = c'.sent script := by simpa [hv] using hheld
      rw [← h1, sent_of_unread_nil hu₁, hnone hv]
      rfl
    · refine ⟨(hrest s).1.trans (heq s).1, fun hs => ?_⟩
      rw [(hrest s).2 hs, (heq s).2]

/-- On a dead connection the block fails, and leaves the connection dead, with the same
notifications unread and every subscription still there. -/
theorem nextStatus_down {c : Connection} (hdown : c.up = false) (server : Script → Option ScriptStatus)
    (script : Script) :
    ∃ e, (c.nextStatus server script).1 = .error e ∧ (c.nextStatus server script).2.up = false ∧
      (c.nextStatus server script).2.unread = c.unread ∧ ∀ s, (c.scriptNotifications.get? s).isSome →
        ((c.nextStatus server script).2.scriptNotifications.get? s).isSome := by
  rw [nextStatus_eq]
  cases hget : c.scriptNotifications.get? script <;> simp only [hdown]
  · refine ⟨_, rfl, by simpa using hdown, rfl, fun s hs => ?_⟩
    by_cases h : s = script <;> simp [h, hs]
  · exact ⟨_, rfl, trivial, trivial, fun s hs => hs⟩

/-- On a live connection the block leaves it live with nothing unread, the script holding no
more statuses than before. -/
theorem nextStatus_live {c : Connection} (hsub : c.Subscribed) (hup : c.up = true)
    (server : Script → Option ScriptStatus) (script : Script) :
    (c.nextStatus server script).2.up = true ∧ (c.nextStatus server script).2.unread = [] ∧
      ((c.nextStatus server script).2.sent script).length ≤ (c.sent script).length := by
  cases hget : c.scriptNotifications.get? script with
  | none =>
    obtain ⟨c', hn, hup', hu', -, hempty, -⟩ := nextStatus_new hsub hup hget server
    simp [hn, hup', hu', hempty]
  | some q =>
    rcases nextStatus_pop hup (by rw [hget]; rfl) server with
      ⟨e, -, hn⟩ | ⟨val, c', hn, hup', hu', hheld, -⟩
    · simp [hn]
    · simp [hn, hup', hu', hheld]

/-- With nothing unread, the block on a live connection succeeds and pops exactly the oldest
status the script holds, subscribing the script first when it was not. -/
theorem nextStatus_of_unread_nil {c : Connection} (hup : c.up = true) (hu : c.unread = [])
    (server : Script → Option ScriptStatus) (script : Script) :
    ∃ val c', c.nextStatus server script = (.ok val, c') ∧ c'.up = true ∧ c'.unread = [] ∧
      (c'.scriptNotifications.get? script).isSome ∧ c'.sent script = (c.sent script).tail := by
  cases hget : c.scriptNotifications.get? script with
  | none =>
    obtain ⟨c', hn, hup', hu', hsome, hempty, -⟩ :=
      nextStatus_new (by simp [Subscribed, hu]) hup hget server
    refine ⟨_, c', hn, hup', hu', hsome, ?_⟩
    rw [hempty, sent_of_unread_nil hu, hget]
    rfl
  | some q =>
    rcases nextStatus_pop hup (by rw [hget]; rfl) server with
      ⟨e, hr, -⟩ | ⟨val, c', hn, hup', hu', hheld, hnone, hrest⟩
    · rw [read_of_unread_nil hup hu] at hr
      cases hr
    refine ⟨val, c', hn, hup', hu', by rw [(hrest script).1, hget]; rfl, ?_⟩
    cases val with
    | none => rw [hheld, hnone rfl]; rfl
    | some x => rw [hheld]; rfl

end Connection

/-- What happens around one client: the server's status of a script changes, the connection
fails or is replaced by a new one, the client makes another request (which reads the
notifications sent so far), or it calls `address_status`. -/
inductive StatusEvent where
  | statusChange (script : Script) (status : Option ScriptStatus)
  | fail
  | reconnect
  | request
  | addressStatus (script : Script)
  deriving DecidableEq

/-- A client and the server's current status of each script. -/
structure StatusWorld where
  client : ElectrumClient
  server : Script → Option ScriptStatus

namespace StatusWorld

/-- One event. -/
def step (w : StatusWorld) : StatusEvent → StatusWorld
  | .statusChange script status =>
    ⟨{ w.client with client := w.client.client.notify script status },
      Function.update w.server script status⟩
  | .fail => ⟨{ w.client with client := { w.client.client with up := false } }, w.server⟩
  | .reconnect => ⟨{ w.client with client := Connection.fresh }, w.server⟩
  | .request =>
    ⟨{ w.client with client := (Connection.retry Connection.request w.client.client).2 }, w.server⟩
  | .addressStatus script => ⟨(w.client.addressStatus w.server script).2, w.server⟩

/-- A run: for each `address_status` call, what it returned and the server's status of the
script at that moment. -/
def run : StatusWorld → List StatusEvent → List (Outcome (Option ScriptStatus) × Option ScriptStatus)
  | _, [] => []
  | w, .addressStatus script :: rest =>
    ((w.client.addressStatus w.server script).1, w.server script) ::
      run (w.step (.addressStatus script)) rest
  | w, e :: rest => run (w.step e) rest

end StatusWorld

/-- A new client whose script starts with status `1`. After two changes, to `2` and `3`, the
second call pops one notification and returns `2`. -/
theorem addressStatus_returns_stale :
    let w : StatusWorld := ⟨⟨Connection.fresh, ⟨0, 0⟩, HashMap.empty⟩, fun _ => some 1⟩
    w.run [.addressStatus [], .statusChange [] (some 2), .statusChange [] (some 3), .addressStatus []] =
      [(.ok (some 1), some 1), (.ok (some 2), some 3)] := by
  decide

/-- The status an event gives `script`, if it is a change of `script`'s status. -/
def StatusEvent.statusFor (script : Script) : StatusEvent → Option (Option ScriptStatus)
  | .statusChange s status => if s = script then some status else none
  | _ => none

namespace StatusWorld

/-- The world after `events`. -/
def after (w : StatusWorld) (events : List StatusEvent) : StatusWorld := events.foldl step w

theorem run_append (pre post : List StatusEvent) : ∀ w : StatusWorld,
    w.run (pre ++ post) = w.run pre ++ (w.after pre).run post := by
  induction pre with
  | nil => intro w; rfl
  | cons e pre ih =>
    intro w
    cases e with
    | addressStatus script => exact congrArg _ (ih _)
    | _ => exact ih _

theorem after_append (w : StatusWorld) (pre post : List StatusEvent) :
    w.after (pre ++ post) = (w.after pre).after post :=
  List.foldl_append _ _ _ _

theorem after_singleton (w : StatusWorld) (e : StatusEvent) : w.after [e] = w.step e := rfl

/-- The last entry of a run's log is the last call's. -/
theorem getLast?_run_addressStatus (w : StatusWorld) (pre : List StatusEvent) (script : Script) :
    (w.run (pre ++ [.addressStatus script])).getLast? =
      some (((w.after pre).client.addressStatus (w.after pre).server script).1,
        (w.after pre).server script) := by
  rw [run_append]
  simp [run]

/-- Every status the server has had for `script` along `events`, the initial one first. -/
def history (w : StatusWorld) (events : List StatusEvent) (script : Script) :
    List (Option ScriptStatus) :=
  w.server script :: events.filterMap (·.statusFor script)

/-- Every status the client holds for a script, cached, queued or unread, and the server's
current one, is among `seen` for that script. -/
structure Sound (w : StatusWorld) (seen : Script → List (Option ScriptStatus)) : Prop where
  cached : ∀ s v, w.client.scriptStatus.get? s = some v → some v ∈ seen s
  held : ∀ s, w.client.client.sent s ⊆ seen s
  current : ∀ s, w.server s ∈ seen s

theorem Sound.mono {w : StatusWorld} {seen seen' : Script → List (Option ScriptStatus)}
    (h : w.Sound seen) (hsub : ∀ s, seen s ⊆ seen' s) : w.Sound seen' :=
  ⟨fun s v hv => hsub s (h.cached s v hv), fun s => (h.held s).trans (hsub s),
    fun s => hsub s (h.current s)⟩

/-- A connection that holds only what the old one held keeps the world sound. -/
theorem Sound.withClient {w : StatusWorld} {seen : Script → List (Option ScriptStatus)}
    (h : w.Sound seen) (conn : Connection) (hconn : ∀ s, conn.sent s ⊆ w.client.client.sent s) :
    (⟨{ w.client with client := conn }, w.server⟩ : StatusWorld).Sound seen :=
  ⟨h.cached, fun s => (hconn s).trans (h.held s), h.current⟩

/-- A status change is held where the script is subscribed and becomes the server's. -/
theorem Sound.statusChange {w : StatusWorld} {seen : Script → List (Option ScriptStatus)}
    (h : w.Sound seen) {script : Script} {status : Option ScriptStatus} (hst : status ∈ seen script) :
    (w.step (.statusChange script status)).Sound seen := by
  refine ⟨h.cached, fun s => ?_, fun s => ?_⟩
  · rcases Connection.notify_eq w.client.client script status with ⟨-, -, hn⟩ | ⟨-, hn⟩
    · simp only [step, hn, Connection.sent_push]
      split
      · subst s
        exact List.append_subset.2 ⟨h.held _, List.cons_subset.2 ⟨hst, List.nil_subset _⟩⟩
      · exact h.held s
    · simpa [step, hn] using h.held s
  · by_cases hs : s = script
    · subst hs; simpa [step] using hst
    · simpa [step, hs] using h.current s

/-- `address_status` caches and returns only statuses it received, from the server's answer to
a new subscription or from the connection. -/
theorem Sound.addressStatus {w : StatusWorld} {seen : Script → List (Option ScriptStatus)}
    (h : w.Sound seen) (script : Script) :
    (w.step (.addressStatus script)).Sound seen ∧
      ∀ v, (w.client.addressStatus w.server script).1 = .ok (some v) → some v ∈ seen script := by
  have hconn := Connection.nextStatus_sent w.client.client w.server script
  rcases hn : w.client.client.nextStatus w.server script with ⟨_ | val, conn⟩
  · rw [hn] at hconn
    simp only [step, ElectrumClient.addressStatus_of_error hn]
    exact ⟨h.withClient conn hconn, nofun⟩
  · rw [hn] at hconn
    have hval : ∀ v, val = some v → some v ∈ seen script := by
      rintro v rfl
      rcases Connection.nextStatus_some (by rw [hn]) with hv | hv
      · exact hv ▸ h.current script
      · exact h.held script hv
    have hcache : ∀ s v, (ElectrumClient.cacheStatus w.client.scriptStatus script val).get? s = some v →
        some v ∈ seen s := by
      intro s v hv
      simp only [ElectrumClient.get?_cacheStatus] at hv
      split at hv
      · subst s
        cases hval' : val <;> simp only [hval', Option.or_some, Option.none_or] at hv
        · exact h.cached _ v hv
        · exact hv ▸ hval _ hval'
      · exact h.cached s v hv
    simp only [step, ElectrumClient.addressStatus_of_ok hn, Outcome.ok.injEq]
    exact ⟨⟨hcache, fun s => (hconn s).trans (h.held s), h.current⟩, fun v hv => hcache script v hv⟩

/-- A request reads what was unread, or fails into a new connection holding nothing. -/
theorem sent_retry_request (c : Connection) (s : Script) :
    (Connection.retry Connection.request c).2.sent s ⊆ c.sent s := by
  rw [Connection.retry_request]
  cases c.up
  · exact List.Subset.refl _
  · rw [if_pos rfl]
    cases hr : c.read with
    | ok c' =>
      rw [((Connection.read_ok hr).2.2 s).2]
      exact List.Subset.refl _
    | error e => simp

theorem Sound.step {w : StatusWorld} {seen : Script → List (Option ScriptStatus)} (h : w.Sound seen) :
    ∀ e, (w.step e).Sound fun s => seen s ++ (e.statusFor s).toList
  | .statusChange script status =>
    (h.mono fun s => List.subset_append_left _ _).statusChange (by simp [StatusEvent.statusFor])
  | .fail => by
    simpa [StatusEvent.statusFor, step] using
      h.withClient { w.client.client with up := false } fun s => List.Subset.refl _
  | .reconnect => by
    simpa [StatusEvent.statusFor, step] using h.withClient Connection.fresh fun s => by simp
  | .request => by
    simpa [StatusEvent.statusFor, step] using h.withClient _ (sent_retry_request w.client.client)
  | .addressStatus script => by simpa [StatusEvent.statusFor] using (h.addressStatus script).1

/-- Along any events the client stays within what the server reported. -/
theorem Sound.after {w : StatusWorld} {seen : Script → List (Option ScriptStatus)} (h : w.Sound seen) :
    ∀ events : List StatusEvent, (w.after events).Sound fun s => seen s ++ events.filterMap (·.statusFor s)
  | [] => by simpa [StatusWorld.after] using h
  | e :: events => by
    refine ((h.step e).after events).mono fun s x hx => ?_
    cases hs : e.statusFor s <;> simp_all [List.filterMap_cons]

/-- **`address_status` returns only statuses the server had.** On a new client, whatever
events come first, a call that returns `Some(v)` for a script returns a status the server had
for that script at or before the call. -/
theorem addressStatus_returns_past_status (w : StatusWorld)
    (hcache : w.client.scriptStatus = HashMap.empty)
    (hqueues : w.client.client.scriptNotifications = HashMap.empty)
    (hunread : w.client.client.unread = [])
    (pre : List StatusEvent) (script : Script) (v : ScriptStatus) (now : Option ScriptStatus)
    (hr : (w.run (pre ++ [.addressStatus script])).getLast? = some (.ok (some v), now)) :
    some v ∈ w.history pre script := by
  have h0 : w.Sound fun s => [w.server s] :=
    ⟨fun s v hv => by simp [hcache] at hv, fun s => by simp [Connection.sent, hqueues, hunread,
      Connection.statusesFor], fun s => List.mem_singleton_self _⟩
  rw [getLast?_run_addressStatus] at hr
  exact (h0.after pre).addressStatus script |>.2 v (congrArg Prod.fst (Option.some.inj hr))

/-- The first run of `addressStatus_returns_stale`: the second call returns `2`, a status the
script had before the call, though no longer its status. -/
theorem addressStatus_returns_past_status_two :
    let w : StatusWorld := ⟨⟨Connection.fresh, ⟨0, 0⟩, HashMap.empty⟩, fun _ => some 1⟩
    let pre : List StatusEvent :=
      [.addressStatus [], .statusChange [] (some 2), .statusChange [] (some 3)]
    w.client.scriptStatus = HashMap.empty ∧ w.client.client.scriptNotifications = HashMap.empty ∧
      w.client.client.unread = [] ∧
      (w.run (pre ++ [.addressStatus []])).getLast? = some (.ok (some 2), some 3) ∧
      some 2 ∈ w.history pre [] := by
  intro w pre
  have hr : (w.run (pre ++ [.addressStatus []])).getLast? = some (.ok (some 2), some 3) := by decide
  exact ⟨rfl, rfl, rfl, hr, addressStatus_returns_past_status w rfl rfl rfl pre [] 2 (some 3) hr⟩

/-- What the client holds for a script, queued or unread. -/
def pending (w : StatusWorld) (script : Script) : List (Option ScriptStatus) :=
  w.client.client.sent script

/-- The status a cache holding `cached` holds once `q` is popped to the end. -/
def settled (cached : Option ScriptStatus) (q : List (Option ScriptStatus)) : Option ScriptStatus :=
  q.foldl (fun c n => n.or c) cached

theorem settled_pop (cached val : Option ScriptStatus) (q : List (Option ScriptStatus)) :
    settled cached ((val.map some).toList ++ q) = settled (val.or cached) q := by
  cases val <;> rfl

theorem settled_push (cached : Option ScriptStatus) (q : List (Option ScriptStatus)) (v : ScriptStatus) :
    settled cached (q ++ [some v]) = some v := by
  simp [settled]

theorem step_addressStatus_of_ok {w : StatusWorld} {script : Script} {val : Option ScriptStatus}
    {conn : Connection} (hn : w.client.client.nextStatus w.server script = (.ok val, conn)) :
    w.step (.addressStatus script) =
      ⟨{ w.client with
          client := conn, scriptStatus := ElectrumClient.cacheStatus w.client.scriptStatus script val },
        w.server⟩ ∧
    (w.client.addressStatus w.server script).1 =
      .ok ((ElectrumClient.cacheStatus w.client.scriptStatus script val).get? script) := by
  simp [step, ElectrumClient.addressStatus_of_ok hn]

theorem step_addressStatus_of_error {w : StatusWorld} {script : Script} {e : ElectrumError}
    {conn : Connection} (hn : w.client.client.nextStatus w.server script = (.error e, conn)) :
    w.step (.addressStatus script) = ⟨{ w.client with client := conn }, w.server⟩ ∧
    (w.client.addressStatus w.server script).1 = .err (.electrum e) := by
  simp [step, ElectrumClient.addressStatus_of_error hn]

/-- A call that answers caches its answer. -/
theorem get?_step_addressStatus {w : StatusWorld} {script : Script} {r : Option ScriptStatus}
    (h : (w.client.addressStatus w.server script).1 = .ok r) :
    (w.step (.addressStatus script)).client.scriptStatus.get? script = r := by
  rcases hn : w.client.client.nextStatus w.server script with ⟨e | val, conn⟩
  · rw [(step_addressStatus_of_error hn).2] at h
    cases h
  · obtain ⟨hstep, hres⟩ := step_addressStatus_of_ok hn
    rw [hstep]
    exact Outcome.ok.inj (hres.symm.trans h)

theorem client_step_addressStatus (w : StatusWorld) (script : Script) :
    (w.step (.addressStatus script)).client.client = (w.client.client.nextStatus w.server script).2 := by
  rcases hn : w.client.client.nextStatus w.server script with ⟨_ | _, conn⟩
  · rw [(step_addressStatus_of_error hn).1]
  · rw [(step_addressStatus_of_ok hn).1]

/-- The client keeps up with the server: unread notifications are for subscribed scripts, and
while the connection is live, popping everything a subscribed script holds leaves the
server's status in the cache, whenever the server has one. -/
structure Fresh (w : StatusWorld) : Prop where
  subscribed : w.client.client.Subscribed
  settles : w.client.client.up = true → ∀ s, (w.client.client.scriptNotifications.get? s).isSome →
    ∀ v, w.server s = some v → settled (w.client.scriptStatus.get? s) (w.pending s) = some v

/-- A new connection holds nothing to keep up with. -/
theorem fresh_of_fresh (cl : ElectrumClient) (server : Script → Option ScriptStatus) :
    (⟨{ cl with client := Connection.fresh }, server⟩ : StatusWorld).Fresh :=
  ⟨nofun, fun _ s h => by simp at h⟩

/-- A change is sent behind everything else the script holds, so popping to the end reaches it. -/
theorem Fresh.statusChange {w : StatusWorld} (h : w.Fresh) (script : Script) (status : Option ScriptStatus) :
    (w.step (.statusChange script status)).Fresh := by
  rcases Connection.notify_eq w.client.client script status with ⟨hup, hsub, hn⟩ | ⟨hdead, hn⟩
  · refine ⟨fun n hn' => ?_, fun _ s hs v hv => ?_⟩
    · simp only [step, hn, List.mem_append, List.mem_singleton] at hn'
      rcases hn' with hn' | rfl
      · simpa [step, hn] using h.subscribed n hn'
      · simpa [step, hn] using hsub
    · simp only [step, hn, pending, Connection.sent_push] at hs hv ⊢
      by_cases hss : s = script
      · subst hss
        simp only [if_true, Function.update_same] at hv ⊢
        rw [hv, settled_push]
      · simp only [hss, if_false, Function.update_noteq hss] at hv ⊢
        exact h.settles hup s hs v hv
  · refine ⟨by simpa [step, hn] using h.subscribed, fun hup s hs v hv => ?_⟩
    simp only [step, hn] at hup hs hv ⊢
    by_cases hss : s = script
    · subst hss
      exact absurd ⟨hup, hs⟩ hdead
    · exact h.settles hup s hs v (by simpa [Function.update_noteq hss] using hv)

theorem step_request_of_read {w : StatusWorld} (hup : w.client.client.up = true) {c₁ : Connection}
    (hr : w.client.client.read = .ok c₁) : w.step .request = ⟨{ w.client with client := c₁ }, w.server⟩ := by
  simp [step, Connection.retry_request, hup, hr]

/-- A request reads what was unread, or fails into a new connection. -/
theorem Fresh.request {w : StatusWorld} (h : w.Fresh) : (w.step .request).Fresh := by
  cases hup : w.client.client.up
  · simpa [step, Connection.retry_request, hup] using h
  cases hr : w.client.client.read with
  | ok c₁ =>
    obtain ⟨-, hu, heq⟩ := Connection.read_ok hr
    rw [step_request_of_read hup hr]
    refine ⟨by simp [Connection.Subscribed, hu], fun _ s hs v hv => ?_⟩
    simp only at hs hv ⊢
    rw [(heq s).1] at hs
    simpa [pending, (heq s).2] using h.settles hup s hs v hv
  | error e => simpa [step, Connection.retry_request, hup, hr] using fresh_of_fresh w.client w.server

/-- A call either fails, leaving a dead connection or a new one, or takes the next status: the
server's answer to a new subscription, or the oldest status the script held. -/
theorem Fresh.addressStatus {w : StatusWorld} (h : w.Fresh) (script : Script) :
    (w.step (.addressStatus script)).Fresh := by
  cases hup : w.client.client.up
  · obtain ⟨e, he, hdown, hu, hsub⟩ := Connection.nextStatus_down hup w.server script
    rw [(step_addressStatus_of_error (Prod.ext he rfl)).1]
    exact ⟨fun n hn => hsub _ (h.subscribed n (hu ▸ hn)), fun h' => by simp_all⟩
  cases hget : w.client.client.scriptNotifications.get? script with
  | none =>
    obtain ⟨c', hn, -, hu', -, hempty, hrest⟩ :=
      Connection.nextStatus_new h.subscribed hup hget w.server
    rw [(step_addressStatus_of_ok hn).1]
    refine ⟨by simp [Connection.Subscribed, hu'], fun _ s hs v hv => ?_⟩
    simp only [pending, ElectrumClient.get?_cacheStatus] at hs hv ⊢
    by_cases hss : s = script
    · subst hss
      simp [hempty, settled, hv]
    · obtain ⟨hs', hsent⟩ := hrest s hss hs
      simpa [hss, hsent] using h.settles hup s hs' v hv
  | some q =>
    rcases Connection.nextStatus_pop hup (by rw [hget]; rfl) w.server with
      ⟨e, -, hn⟩ | ⟨val, c', hn, -, hu', hheld, -, hrest⟩
    · rw [(step_addressStatus_of_error hn).1]
      exact fresh_of_fresh _ _
    · rw [(step_addressStatus_of_ok hn).1]
      refine ⟨by simp [Connection.Subscribed, hu'], fun _ s hs v hv => ?_⟩
      simp only [pending, ElectrumClient.get?_cacheStatus] at hs hv ⊢
      rw [(hrest s).1] at hs
      by_cases hss : s = script
      · subst hss
        simpa [← settled_pop, ← hheld] using h.settles hup s hs v hv
      · simpa [hss, (hrest s).2 hss] using h.settles hup s hs v hv

theorem Fresh.step {w : StatusWorld} (h : w.Fresh) : ∀ e, (w.step e).Fresh
  | .statusChange script status => h.statusChange script status
  | .fail => ⟨h.subscribed, nofun⟩
  | .reconnect => fresh_of_fresh _ _
  | .request => h.request
  | .addressStatus script => h.addressStatus script

theorem Fresh.after {w : StatusWorld} (h : w.Fresh) : ∀ events, (w.after events).Fresh
  | [] => h
  | e :: events => (h.step e).after events

theorem run_addressStatus_cons (w : StatusWorld) (script : Script) (rest : List StatusEvent) :
    w.run (.addressStatus script :: rest) =
      ((w.client.addressStatus w.server script).1, w.server script) ::
        (w.step (.addressStatus script)).run rest := rfl

theorem forall_mem_drop_of_le {α : Type} {P : α → Prop} {l : List α} {a b : Nat} (hab : a ≤ b)
    (h : ∀ r ∈ l.drop a, P r) : ∀ r ∈ l.drop b, P r := by
  intro r hr
  rw [show b = a + (b - a) by omega, ← List.drop_drop] at hr
  exact h r (List.mem_of_mem_drop hr)

/-- Calls in a row on a live connection with nothing unread, for a script whose status on the
server is `Some v`: each pops one status the script holds, and from the call that takes the
last (the first, when nothing is held) every call returns `v`. -/
theorem Fresh.run_addressStatus {w : StatusWorld} (h : w.Fresh) (hup : w.client.client.up = true)
    (hu : w.client.client.unread = []) {script : Script} {v : ScriptStatus}
    (hv : w.server script = some v) (n : Nat) :
    ∀ r ∈ (w.run (List.replicate n (.addressStatus script))).drop ((w.pending script).length - 1),
      r = (.ok (some v), some v) := by
  induction n generalizing w with
  | zero => simp only [List.replicate_zero, run, List.drop_nil, List.not_mem_nil, false_implies, implies_true]
  | succ n ih =>
    obtain ⟨val, c', hn, hup', hu', hsub', htail⟩ :=
      Connection.nextStatus_of_unread_nil hup hu w.server script
    obtain ⟨hstep, hres⟩ := step_addressStatus_of_ok hn
    have h' := h.addressStatus script
    rw [hstep] at h'
    have hnext := ih h' hup' hu' hv
    have hlast := h'.settles hup' script hsub' v hv
    unfold pending at hnext hlast
    have hlen : (w.pending script).length - 1 = (c'.sent script).length := by
      rw [pending, htail, List.length_tail]
    rw [List.replicate_succ, run_addressStatus_cons, hres, hstep, hlen]
    cases hc : c'.sent script with
    | nil =>
      rw [hc] at hnext hlast
      intro r hr
      rcases List.mem_cons.1 hr with rfl | hr
      · exact Prod.ext (congrArg Outcome.ok hlast) hv
      · exact hnext r hr
    | cons m t =>
      rw [hc, List.length_cons, Nat.add_sub_cancel] at hnext
      rwa [List.length_cons, List.drop_succ_cons]

end StatusWorld

/-- **`address_status` catches up.** From a client with no subscriptions and nothing unread,
after any events, let the connection be live, the server's status of a script be `Some v`, and
the client hold `k` statuses of that script, queued or unread. Calling `address_status` on it
again and again, every call after the first `max k 1` returns `v`: each call pops one status,
and a first call whose read meets a notification that does not parse fails, the client
reconnecting, after which a new subscription answers the server's status. -/
theorem addressStatus_catches_up (w : StatusWorld)
    (hqueues : w.client.client.scriptNotifications = HashMap.empty)
    (hunread : w.client.client.unread = []) (pre : List StatusEvent) (script : Script)
    (v : ScriptStatus) (hup : (w.after pre).client.client.up = true)
    (hv : (w.after pre).server script = some v) (n : Nat) :
    ∀ r ∈ ((w.after pre).run (List.replicate n (.addressStatus script))).drop
        (max ((w.after pre).pending script).length 1),
      r = (.ok (some v), some v) := by
  have h0 : w.Fresh := ⟨by simp [Connection.Subscribed, hunread], fun _ s hs => by simp [hqueues] at hs⟩
  have h := h0.after pre
  generalize w.after pre = w' at h hup hv ⊢
  cases n with
  | zero => simp [StatusWorld.run]
  | succ n =>
    have hlive := Connection.nextStatus_live h.subscribed hup w'.server script
    rw [← StatusWorld.client_step_addressStatus] at hlive
    have hnext := (h.addressStatus script).run_addressStatus hlive.1 hlive.2.1 hv n
    rw [List.replicate_succ, StatusWorld.run_addressStatus_cons,
      show max (w'.pending script).length 1 = max (w'.pending script).length 1 - 1 + 1 by omega,
      List.drop_succ_cons]
    refine StatusWorld.forall_mem_drop_of_le ?_ hnext
    have hle := hlive.2.2
    simp only [StatusWorld.pending]
    omega

/-- Two scripts subscribed; the second loses its history and the first's status becomes `2`.
The first of three calls on the first script reads the `null` notification and fails, the
client reconnecting; the next two subscribe afresh and return `2`. -/
theorem addressStatus_catches_up_after_reconnect :
    let w : StatusWorld := ⟨⟨Connection.fresh, ⟨0, 0⟩, HashMap.empty⟩, fun _ => some 1⟩
    let pre : List StatusEvent :=
      [.addressStatus [], .addressStatus [1], .statusChange [1] none, .statusChange [] (some 2)]
    w.client.client.scriptNotifications = HashMap.empty ∧ w.client.client.unread = [] ∧
      (w.after pre).client.client.up = true ∧ (w.after pre).server [] = some 2 ∧
      ∀ r ∈ ((w.after pre).run (List.replicate 3 (.addressStatus []))).drop
          (max ((w.after pre).pending []).length 1),
        r = (.ok (some 2), some 2) := by
  intro w pre
  exact ⟨rfl, rfl, by decide, by decide, addressStatus_catches_up w rfl rfl pre [] 2 (by decide) (by decide) 3⟩

namespace StatusWorld

/-- No event removes a script's cached status. -/
theorem cached_step {w : StatusWorld} {s : Script} (h : (w.client.scriptStatus.get? s).isSome) :
    ∀ e, ((w.step e).client.scriptStatus.get? s).isSome
  | .statusChange _ _ => h
  | .fail => h
  | .reconnect => h
  | .request => h
  | .addressStatus script => by
    rcases hn : w.client.client.nextStatus w.server script with ⟨_ | val, conn⟩
    · rw [(step_addressStatus_of_error hn).1]
      exact h
    · rw [(step_addressStatus_of_ok hn).1]
      simp only [ElectrumClient.get?_cacheStatus]
      split <;> simp [h]

theorem cached_after {w : StatusWorld} {s : Script} (h : (w.client.scriptStatus.get? s).isSome) :
    ∀ events, ((w.after events).client.scriptStatus.get? s).isSome
  | [] => h
  | e :: events => cached_after (cached_step h e) events

end StatusWorld

/-- A call on a script with a cached status fails or returns a status. -/
theorem ElectrumClient.addressStatus_of_cached {cl : ElectrumClient} (server : Script → Option ScriptStatus)
    {script : Script} (h : (cl.scriptStatus.get? script).isSome) :
    (∃ e, (cl.addressStatus server script).1 = .err e) ∨
      ∃ v, (cl.addressStatus server script).1 = .ok (some v) := by
  rcases hn : cl.client.nextStatus server script with ⟨e | val, conn⟩
  · exact .inl ⟨_, by rw [ElectrumClient.addressStatus_of_error hn]⟩
  · obtain ⟨v, hv⟩ := Option.isSome_iff_exists.1 h
    rw [ElectrumClient.addressStatus_of_ok hn]
    cases val <;> simp [hv]

/-- **A cached status is never dropped.** Once `address_status` has returned `Some` for a
script, no later call on it returns `None`: whatever happens in between (status changes, to
no history too, failures, reconnects, other requests), each call fails or returns a status. -/
theorem addressStatus_keeps_some (w : StatusWorld) (pre mid : List StatusEvent) (script : Script)
    (v : ScriptStatus) (now : Option ScriptStatus)
    (hfirst : (w.run (pre ++ [.addressStatus script])).getLast? = some (.ok (some v), now)) :
    ∃ r now', (w.run (pre ++ .addressStatus script :: mid ++ [.addressStatus script])).getLast? =
      some (r, now') ∧ ((∃ e, r = .err e) ∨ ∃ v', r = .ok (some v')) := by
  have hcached : ((w.after (pre ++ [.addressStatus script])).client.scriptStatus.get? script).isSome := by
    rw [StatusWorld.getLast?_run_addressStatus] at hfirst
    rw [StatusWorld.after_append, StatusWorld.after_singleton,
      StatusWorld.get?_step_addressStatus (congrArg Prod.fst (Option.some.inj hfirst))]
    rfl
  let w₂ := (w.after (pre ++ [.addressStatus script])).after mid
  refine ⟨(w₂.client.addressStatus w₂.server script).1, w₂.server script, ?_,
    ElectrumClient.addressStatus_of_cached w₂.server (StatusWorld.cached_after hcached mid)⟩
  rw [show pre ++ .addressStatus script :: mid ++ [.addressStatus script] =
      (pre ++ [.addressStatus script] ++ mid) ++ [.addressStatus script] by simp,
    StatusWorld.getLast?_run_addressStatus, StatusWorld.after_append _ (pre ++ _)]

/-- The script loses its history after the first call. The next call reads the `null`
notification and fails; the one after subscribes afresh, gets `None`, and returns the cached
`1`. -/
theorem addressStatus_keeps_some_after_none :
    let w : StatusWorld := ⟨⟨Connection.fresh, ⟨0, 0⟩, HashMap.empty⟩, fun _ => some 1⟩
    (w.run ([] ++ [.addressStatus []])).getLast? = some (.ok (some 1), some 1) ∧
      ∃ r now', (w.run ([] ++ .addressStatus [] :: [.statusChange [] none, .addressStatus []] ++
          [.addressStatus []])).getLast? = some (r, now') ∧
        ((∃ e, r = .err e) ∨ ∃ v', r = .ok (some v')) := by
  intro w
  exact ⟨by decide, addressStatus_keeps_some w [] [.statusChange [] none, .addressStatus []] []
    1 (some 1) (by decide)⟩

example :
    (⟨⟨Connection.fresh, ⟨0, 0⟩, HashMap.empty⟩, fun _ => some 1⟩ : StatusWorld).run
      [.addressStatus [], .statusChange [] none, .addressStatus [], .addressStatus []] =
      [(.ok (some 1), some 1), (.err (.electrum (.allAttemptsErrored (.notSubscribed []))), none),
        (.ok (some 1), none)] := by
  decide

end Lwk
