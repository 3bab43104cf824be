import Lwk.Store

/-!
# `ElectrumClient`: batched fetches and the script side of the connection

The electrum adapter of the blockchain backend (`lwk_wollet/src/clients/electrum_client.rs`).
`get_transactions` and `get_headers` send one batch request and deserialize its answers in
request order; nothing compares an answer with what was asked for.

`address_status` talks to the script side of the `electrum_client` connection: the queues of
status notifications of the subscribed scripts, and the notifications the server has sent that
no request has read yet. `electrum_client` reads the socket only while a request waits for its
answer, so a notification stays unread until the next request reads it; `script_pop` reads the
local queue only. The server signals a script that lost its history with a `null` status,
which does not deserialize: the request reading it fails. Every call goes through the
retrying `Client`, which answers any error but `AlreadySubscribed` by building a new
connection, with nothing subscribed, and making the call once more.

`Connection.nextStatus_eq` says what the block of `address_status` that talks to the
connection does on each path; the runs of `address_status` are in `Lwk.Electrum.Status`.
-/

namespace Lwk

/-- The decode-and-collect loop of `get_transactions` and `get_headers`. -/
def decodeAll {α : Type} : List (Raw α) → List α → Outcome (List α)
  | [], result => .ok result
  | raw :: rest, result => do
    let a ← deserialize raw
    decodeAll rest (result ++ [a])

/-- The loop returns every item the server sent, decoded, or fails on the first that does not
decode. -/
theorem decodeAll_ok_iff {α : Type} :
    ∀ (raws : List (Raw α)) (acc r : List α), decodeAll raws acc = .ok r ↔
      ∃ items, r = acc ++ items ∧ raws = items.map fun a => ⟨some a⟩
  | [], acc, r => by
    simp only [decodeAll, Outcome.ok.injEq]
    constructor
    · rintro rfl
      exact ⟨[], by simp, rfl⟩
    · rintro ⟨_ | _, rfl, h⟩ <;> simp at h ⊢
  | ⟨none⟩ :: rest, acc, r => by
    simp only [decodeAll, deserialize, Outcome.okOr, Outcome.err_bind, reduceCtorEq, false_iff]
    rintro ⟨_ | ⟨a, items⟩, -, h⟩ <;> simp at h
  | ⟨some a⟩ :: rest, acc, r => by
    simp only [decodeAll, deserialize, Outcome.okOr, Outcome.ok_bind, decodeAll_ok_iff rest]
    constructor
    · rintro ⟨items, rfl, rfl⟩
      exact ⟨a :: items, by simp, rfl⟩
    · rintro ⟨_ | ⟨b, items⟩, rfl, h⟩ <;> simp only [List.map_cons, List.cons.injEq, Raw.mk.injEq,
        Option.some.injEq, List.map_nil, reduceCtorEq, false_and] at h
      obtain ⟨rfl, rfl⟩ := h
      exact ⟨items, by simp, rfl⟩

/-- A script's electrum status: the hash of its history. -/
abbrev ScriptStatus := BitVec 256

/-- The script side of an `electrum_client` connection: whether it still reaches the server,
the status notifications read and queued for each subscribed script, and those the server has
sent that no request has read yet. An unread status is `none` when the server sent `null`: the
script has no history any more. -/
structure Connection where
  up : Bool
  scriptNotifications : HashMap Script (List ScriptStatus)
  unread : List (Script × Option ScriptStatus)
  deriving DecidableEq

namespace Connection

/-- A connection just built, or rebuilt by the client's retry: nothing subscribed. -/
def fresh : Connection := ⟨true, HashMap.empty, []⟩

/-- `handle_notification` on each notification read, in order: the status goes to the back of
its script's queue. A `null` status does not deserialize into a `ScriptStatus`, and a script
without a queue is `NotSubscribed`. -/
def handleNotifications (queues : HashMap Script (List ScriptStatus)) :
    List (Script × Option ScriptStatus) → Except ElectrumError (HashMap Script (List ScriptStatus))
  | [] => .ok queues
  | (_, none) :: _ => .error .json
  | (script, some status) :: rest =>
    match queues.get? script with
    | some q => handleNotifications (queues.insert script (q ++ [status])) rest
    | none => .error (.notSubscribed script)

/-- What a request does before its answer arrives: the notifications sent before it are read,
and the first that fails fails the request. A connection that no longer reaches the server
fails with an I/O error. -/
def read (c : Connection) : Except ElectrumError Connection :=
  if c.up then
    (handleNotifications c.scriptNotifications c.unread).map fun queues =>
      { c with scriptNotifications := queues, unread := [] }
  else .error .io

/-- A request whose answer the model leaves out: it fails when reading fails. -/
def request (c : Connection) : Except ElectrumError Unit × Connection :=
  match c.read with
  | .ok c => (.ok (), c)
  | .error e => (.error e, c)

/-- `script_notifications.insert(script_hash, VecDeque::new())`, done before the request. -/
def addQueue (c : Connection) (script : Script) : Connection :=
  { c with scriptNotifications := c.scriptNotifications.insert script [] }

/-- `RawClient::script_subscribe`: `AlreadySubscribed` for a script with a queue, without a
request; otherwise the script gets an empty queue and the request answers the server's
current status. -/
def scriptSubscribe (c : Connection) (server : Script → Option ScriptStatus) (script : Script) :
    Except ElectrumError (Option ScriptStatus) × Connection :=
  match c.scriptNotifications.get? script with
  | some _ => (.error (.alreadySubscribed script), c)
  | none =>
    match (c.addQueue script).request with
    | (.ok (), c) => (.ok (server script), c)
    | (.error e, c) => (.error e, c)

/-- `RawClient::script_get_history`, a request whose answer `address_status` drops. -/
def scriptGetHistory (c : Connection) : Except ElectrumError Unit × Connection := c.request

/-- `RawClient::script_pop`: the oldest queued status of a subscribed script, read locally. -/
def scriptPop (c : Connection) (script : Script) :
    Except ElectrumError (Option ScriptStatus) × Connection :=
  match c.scriptNotifications.get? script with
  | none => (.error (.notSubscribed script), c)
  | some [] => (.ok none, c)
  | some (n :: rest) =>
    (.ok (some n), { c with scriptNotifications := c.scriptNotifications.insert script rest })

/-- The server's status of a script changes: a live connection subscribed to it is sent the
notification. -/
def notify (c : Connection) (script : Script) (status : Option ScriptStatus) : Connection :=
  if c.up && (c.scriptNotifications.get? script).isSome then
    { c with unread := c.unread ++ [(script, status)] }
  else c

/-- `impl_inner_call!` of the retrying `Client`, with the `retry` of 1 that `build_client`
leaves: `AlreadySubscribed` is returned as it is; after any other error the client builds a new
connection and makes the call once more on it, and a second failure ends in
`AllAttemptsErrored`. The server accepts the new connection exactly when the failed one still
reached it; a connection that comes back later is a separate reconnect. -/
def retry {α : Type} (call : Connection → Except ElectrumError α × Connection) (c : Connection) :
    Except ElectrumError α × Connection :=
  match call c with
  | (.ok a, c) => (.ok a, c)
  | (.error (.alreadySubscribed s), c) => (.error (.alreadySubscribed s), c)
  | (.error e, c) =>
    if c.up then
      match call fresh with
      | (.ok a, c) => (.ok a, c)
      | (.error (.alreadySubscribed s), c) => (.error (.alreadySubscribed s), c)
      | (.error _, c) => (.error (.allAttemptsErrored e), c)
    else (.error (.allAttemptsErrored e), c)

/-- The `let val = match self.client.script_subscribe(..) { .. }` block of `address_status`:
the server's answer to a new subscription or, for a subscribed script, a history request and
then the oldest queued status; each call goes through the client's retry. -/
def nextStatus (c : Connection) (server : Script → Option ScriptStatus) (script : Script) :
    Except ElectrumError (Option ScriptStatus) × Connection :=
  match retry (·.scriptSubscribe server script) c with
  | (.ok val, c) => (.ok val, c)
  | (.error (.alreadySubscribed _), c) =>
    match retry scriptGetHistory c with
    | (.ok (), c) => retry (·.scriptPop script) c
    | (.error e, c) => (.error e, c)
  | (.error e, c) => (.error e, c)

end Connection

/-- `ElectrumClient`: the connection, the last tip, and the cached status of each script. -/
structure ElectrumClient where
  client : Connection
  tip : BlockHeader
  scriptStatus : HashMap Script ScriptStatus
  deriving DecidableEq

namespace ElectrumClient

/-- `batch_call`, as the batch methods of `electrum_client` use it: one request per item, the
answers collected by request id, so one answer per item in request order, or the error of the
first item that fails. An empty batch sends nothing. -/
def batchCall {ρ β : Type} (server : ρ → Except Error β) (request : List ρ) :
    Except Error (List β) :=
  request.mapM server

/-- A batch request and its decode loop; the server answers each item with raw bytes. -/
def batchFetch {ρ α : Type} (server : ρ → Except Error (Raw α)) (request : List ρ) :
    Outcome (List α) := do
  let raws ← Outcome.ofExcept (batchCall server request)
  decodeAll raws []

/-- `get_transactions(txids)`, the server answering `batch_transaction_get_raw`. -/
def getTransactions (server : Txid → Except Error (Raw Transaction)) (txids : List Txid) :
    Outcome (List Transaction) :=
  batchFetch server txids

/-- `get_headers(heights, _)`, the server answering `batch_block_header_raw`. -/
def getHeaders (server : BitVec 32 → Except Error (Raw BlockHeader))
    (heights : List (BitVec 32)) : Outcome (List BlockHeader) :=
  batchFetch server heights

/-- `broadcast(tx)`: the txid the server answers to `transaction_broadcast_raw` on the
serialized transaction, returned as it is. -/
def broadcast (server : Transaction → Except Error Txid) (tx : Transaction) : Outcome Txid := do
  let txid ← Outcome.ofExcept (server tx)
  pure txid

/-- `GetHistoryRes`, an entry of a script's history as the server sends it, by the fields read. -/
structure GetHistoryRes where
  height : Int
  txHash : Txid
  deriving DecidableEq, Repr

/-- `History`: a transaction of a script's history, its height (`0` or below: unconfirmed),
and the block hash and time when known. -/
structure History where
  txid : Txid
  height : Int
  blockHash : Option BlockHash
  blockTimestamp : Option (BitVec 32)
  deriving DecidableEq, Repr

/-- `impl From<GetHistoryRes> for History`. -/
def History.ofGetHistoryRes (value : GetHistoryRes) : History :=
  ⟨value.txHash, value.height, none, none⟩

/-- `get_scripts_history(scripts)`, the server answering `batch_script_get_history`. -/
def getScriptsHistory (server : Script → Except Error (List GetHistoryRes))
    (scripts : List Script) : Outcome (List (List History)) := do
  let histories ← Outcome.ofExcept (batchCall server scripts)
  pure (histories.map (·.map History.ofGetHistoryRes))

theorem batchCall_ok_iff {ρ β : Type} (server : ρ → Except Error β) :
    ∀ (request : List ρ) (answers : List β), batchCall server request = .ok answers ↔
      List.Forall₂ (fun x a => server x = .ok a) request answers := by
  intro request
  unfold batchCall
  induction request with
  | nil =>
    intro answers
    rw [List.mapM_nil, List.forall₂_nil_left_iff]
    exact ⟨fun h => (Except.ok.inj h).symm, fun h => h ▸ rfl⟩
  | cons x xs ih =>
    intro answers
    simp only [List.mapM_cons, List.forall₂_cons_left_iff, ← ih]
    cases server x <;> cases xs.mapM server <;>
      simp only [bind, Except.bind, pure, Except.pure, Except.ok.injEq, reduceCtorEq, false_and,
        exists_false, exists_and_left, exists_eq_left', eq_comm]

theorem batchFetch_ok_iff {ρ α : Type} (server : ρ → Except Error (Raw α)) (request : List ρ)
    (r : List α) :
    batchFetch server request = .ok r ↔ List.Forall₂ (fun x a => server x = .ok ⟨some a⟩) request r := by
  unfold batchFetch
  cases h : batchCall server request with
  | error e =>
    simp only [Outcome.ofExcept, Outcome.err_bind, reduceCtorEq, false_iff]
    intro hr
    simpa [h] using (batchCall_ok_iff server request _).2 (List.forall₂_map_right_iff.2 hr)
  | ok raws =>
    simp only [Outcome.ofExcept, Outcome.ok_bind, decodeAll_ok_iff, List.nil_append, exists_eq_left']
    calc raws = r.map (fun a => ⟨some a⟩) ↔ batchCall server request = .ok (r.map fun a => ⟨some a⟩) := by
          rw [h]
          exact ⟨congrArg _, Except.ok.inj⟩
      _ ↔ List.Forall₂ (fun x raw => server x = .ok raw) request (r.map fun a => ⟨some a⟩) :=
          batchCall_ok_iff server request _
      _ ↔ List.Forall₂ (fun x a => server x = .ok ⟨some a⟩) request r := List.forall₂_map_right_iff

/-- **The batched fetches return one item per request, unchecked.** `get_transactions` returns
`Ok` exactly when the server answers every requested txid with bytes that decode, and then
returns as many transactions as were requested, the `i`-th decoded from the answer to the
`i`-th txid, whatever its own txid; `get_headers` likewise, whatever each header's height. -/
theorem fetches_return_server_items :
    (∀ server txids r, getTransactions server txids = .ok r ↔ r.length = txids.length ∧
      List.Forall₂ (fun txid tx => server txid = .ok ⟨some tx⟩) txids r) ∧
    (∀ server heights r, getHeaders server heights = .ok r ↔ r.length = heights.length ∧
      List.Forall₂ (fun height header => server height = .ok ⟨some header⟩) heights r) :=
  ⟨fun server txids r => (batchFetch_ok_iff server txids r).trans ⟨fun h => ⟨h.length_eq.symm, h⟩, And.right⟩,
    fun server heights r => (batchFetch_ok_iff server heights r).trans ⟨fun h => ⟨h.length_eq.symm, h⟩, And.right⟩⟩

/-- Asked for transaction `1`, a server answering with transaction `2` gets it accepted; asked
for the header at height 5, a server answering with one of height 6 gets that accepted. -/
theorem getTransactions_accepts_substitutes :
    getTransactions (fun _ => .ok ⟨some ⟨2, []⟩⟩) [1] = .ok [⟨2, []⟩] ∧
    getHeaders (fun _ => .ok ⟨some ⟨6, 0⟩⟩) [5] = .ok [⟨6, 0⟩] := by
  decide

/-- `if let Some(val) = val { self.script_status.insert(script, val) }`. -/
def cacheStatus (cache : HashMap Script ScriptStatus) (script : Script) :
    Option ScriptStatus → HashMap Script ScriptStatus
  | some v => cache.insert script v
  | none => cache

/-- `address_status(address)`, `script` being `address.script_pubkey()`. -/
def addressStatus (cl : ElectrumClient) (server : Script → Option ScriptStatus) (script : Script) :
    Outcome (Option ScriptStatus) × ElectrumClient :=
  match cl.client.nextStatus server script with
  | (.ok val, conn) =>
    let scriptStatus := cacheStatus cl.scriptStatus script val
    (.ok (scriptStatus.get? script), { cl with client := conn, scriptStatus := scriptStatus })
  | (.error e, conn) => (.err (.electrum e), { cl with client := conn })

@[simp] theorem get?_cacheStatus (cache : HashMap Script ScriptStatus) (script s : Script)
    (val : Option ScriptStatus) :
    (cacheStatus cache script val).get? s = if s = script then val.or (cache.get? s) else cache.get? s := by
  cases val <;> by_cases hs : s = script <;> simp [cacheStatus, hs]

theorem addressStatus_of_ok {cl : ElectrumClient} {server : Script → Option ScriptStatus}
    {script : Script} {val : Option ScriptStatus} {conn : Connection}
    (h : cl.client.nextStatus server script = (.ok val, conn)) :
    cl.addressStatus server script = (.ok ((cacheStatus cl.scriptStatus script val).get? script),
      { cl with client := conn, scriptStatus := cacheStatus cl.scriptStatus script val }) := by
  simp [addressStatus, h]

theorem addressStatus_of_error {cl : ElectrumClient} {server : Script → Option ScriptStatus}
    {script : Script} {e : ElectrumError} {conn : Connection}
    (h : cl.client.nextStatus server script = (.error e, conn)) :
    cl.addressStatus server script = (.err (.electrum e), { cl with client := conn }) := by
  simp [addressStatus, h]

end ElectrumClient

namespace Connection

/-- The statuses among notifications `ns` sent for `script`, in order. -/
def statusesFor (script : Script) (ns : List (Script × Option ScriptStatus)) :
    List (Option ScriptStatus) :=
  ns.filterMap fun n => if n.1 = script then some n.2 else none

/-- What a connection holds for a script, queued or unread, in the order the server sent it. -/
def sent (c : Connection) (script : Script) : List (Option ScriptStatus) :=
  ((c.scriptNotifications.get? script).getD []).map some ++ statusesFor script c.unread

/-- Reading notifications keeps which scripts are subscribed and what each holds. -/
theorem handleNotifications_ok {queues queues' : HashMap Script (List ScriptStatus)} :
    ∀ {ns}, handleNotifications queues ns = .ok queues' → ∀ s,
      (queues'.get? s).isSome = (queues.get? s).isSome ∧
      ((queues'.get? s).getD []).map some = ((queues.get? s).getD []).map some ++ statusesFor s ns
  | [], h, s => by cases h; simp [statusesFor]
  | (_, none) :: _, h, _ => by cases h
  | (x, some st) :: rest, h, s => by
    unfold handleNotifications at h
    cases hx : queues.get? x with
    | none => simp [hx] at h
    | some q =>
      rw [hx] at h
      obtain ⟨h1, h2⟩ := handleNotifications_ok h s
      by_cases hs : s = x
      · subst hs
        simp_all [statusesFor]
      · simp_all [statusesFor, Ne.symm hs]

theorem handleNotifications_error {queues : HashMap Script (List ScriptStatus)} {e : ElectrumError} :
    ∀ {ns}, handleNotifications queues ns = .error e → ∀ s, e ≠ .alreadySubscribed s
  | [], h, _ => by cases h
  | (_, none) :: _, h, _ => by cases h; exact nofun
  | (x, some st) :: rest, h, s => by
    unfold handleNotifications at h
    cases hx : queues.get? x with
    | none => simp only [hx, Except.error.injEq] at h; subst h; exact nofun
    | some q => rw [hx] at h; exact handleNotifications_error h s

@[simp] theorem read_of_down {c : Connection} (h : c.up = false) : c.read = .error .io := by
  simp [read, h]

theorem read_of_unread_nil {c : Connection} (h : c.up = true) (hu : c.unread = []) :
    c.read = .ok c := by
  obtain ⟨up, queues, unread⟩ := c
  simp_all [read, handleNotifications, Except.map]

/-- A read that succeeds leaves a live connection holding, now all queued, what it held. -/
theorem read_ok {c c' : Connection} (h : c.read = .ok c') :
    c'.up = true ∧ c'.unread = [] ∧ ∀ s,
      (c'.scriptNotifications.get? s).isSome = (c.scriptNotifications.get? s).isSome ∧ c'.sent s = c.sent s := by
  unfold read at h
  cases hup : c.up
  · simp [hup] at h
  cases hh : handleNotifications c.scriptNotifications c.unread with
  | error e => simp [hup, hh, Except.map] at h
  | ok queues =>
    simp only [hup, hh, if_true, Except.map, Except.ok.injEq] at h
    subst h
    refine ⟨rfl, rfl, fun s => ⟨(handleNotifications_ok hh s).1, ?_⟩⟩
    simp [sent, statusesFor, (handleNotifications_ok hh s).2]

theorem read_error {c : Connection} {e : ElectrumError} (h : c.read = .error e) :
    ∀ s, e ≠ .alreadySubscribed s := by
  unfold read at h
  cases hup : c.up
  · simp only [hup, Bool.false_eq_true, if_false, Except.error.injEq] at h
    subst h
    exact nofun
  cases hh : handleNotifications c.scriptNotifications c.unread with
  | error e' =>
    simp only [hup, hh, if_true, Except.map, Except.error.injEq] at h
    exact h ▸ handleNotifications_error hh
  | ok queues => simp [hup, hh, Except.map] at h

@[simp] theorem addQueue_up (c : Connection) (script : Script) : (c.addQueue script).up = c.up := rfl

@[simp] theorem addQueue_unread (c : Connection) (script : Script) :
    (c.addQueue script).unread = c.unread := rfl

@[simp] theorem get?_addQueue (c : Connection) (script s : Script) :
    (c.addQueue script).scriptNotifications.get? s =
      if s = script then some [] else c.scriptNotifications.get? s := by
  simp [addQueue]

@[simp] theorem get?_fresh (s : Script) : fresh.scriptNotifications.get? s = none := rfl

@[simp] theorem fresh_up : fresh.up = true := rfl

@[simp] theorem fresh_unread : fresh.unread = [] := rfl

theorem retry_of_error {α : Type} {call : Connection → Except ElectrumError α × Connection}
    {c c' : Connection} {e : ElectrumError} (h : call c = (.error e, c'))
    (he : ∀ s, e ≠ .alreadySubscribed s) :
    retry call c = if c'.up then
      match call fresh with
      | (.ok a, c) => (.ok a, c)
      | (.error (.alreadySubscribed s), c) => (.error (.alreadySubscribed s), c)
      | (.error _, c) => (.error (.allAttemptsErrored e), c)
    else (.error (.allAttemptsErrored e), c') := by
  unfold retry
  rw [h]
  cases e <;> first | rfl | exact absurd rfl (he _)

/-- A request through the client: on a live connection it succeeds, on the connection it read
or, when reading failed, on a new one; on a dead one it fails. -/
theorem retry_request (c : Connection) :
    retry request c = if c.up then (.ok (), match c.read with
      | .ok c => c
      | .error _ => fresh)
    else (.error (.allAttemptsErrored .io), c) := by
  cases hup : c.up
  · have h : request c = (.error .io, c) := by simp [request, hup]
    rw [retry_of_error h nofun]
    simp [hup]
  cases hr : c.read with
  | ok c' => simp [retry, request, hr]
  | error e =>
    have h : request c = (.error e, c) := by simp [request, hr]
    rw [retry_of_error h (read_error hr)]
    simp [hup, request, read_of_unread_nil]

theorem retry_scriptSubscribe_of_some {c : Connection} {server : Script → Option ScriptStatus}
    {script : Script} {q : List ScriptStatus} (h : c.scriptNotifications.get? script = some q) :
    retry (·.scriptSubscribe server script) c = (.error (.alreadySubscribed script), c) := by
  simp [retry, scriptSubscribe, h]

theorem retry_scriptSubscribe_of_none {c : Connection} {server : Script → Option ScriptStatus}
    {script : Script} (h : c.scriptNotifications.get? script = none) :
    retry (·.scriptSubscribe server script) c = if c.up then (.ok (server script),
      match (c.addQueue script).read with
      | .ok c => c
      | .error _ => fresh.addQueue script)
    else (.error (.allAttemptsErrored .io), c.addQueue script) := by
  cases hup : c.up
  · have h' : c.scriptSubscribe server script = (.error .io, c.addQueue script) := by
      simp [scriptSubscribe, request, h, hup]
    rw [@retry_of_error _ (·.scriptSubscribe server script) c _ .io h' nofun]
    simp [hup]
  cases hr : (c.addQueue script).read with
  | ok c' => simp [retry, scriptSubscribe, request, h, hr]
  | error e =>
    have h' : c.scriptSubscribe server script = (.error e, c.addQueue script) := by
      simp [scriptSubscribe, request, h, hr]
    rw [@retry_of_error _ (·.scriptSubscribe server script) c _ e h' (read_error hr)]
    simp [hup, scriptSubscribe, request, read_of_unread_nil]

theorem retry_scriptPop_of_isSome {c : Connection} {script : Script}
    (h : (c.scriptNotifications.get? script).isSome) :
    retry (·.scriptPop script) c = c.scriptPop script := by
  obtain ⟨q, hq⟩ := Option.isSome_iff_exists.1 h
  cases q <;> simp [retry, scriptPop, hq]

theorem retry_scriptPop_fresh (script : Script) :
    retry (·.scriptPop script) fresh = (.error (.allAttemptsErrored (.notSubscribed script)), fresh) := by
  simp [retry, scriptPop]

/-- **What the connection does for `address_status`.** On a live connection, a script not yet
subscribed gets the server's status, on the connection after the read or, when the read failed,
on a new one where only this script is subscribed; a subscribed script gets its oldest status
after the read, and when the read fails the client reconnects, which drops the subscription,
and the pop on the new connection fails twice. A dead connection fails. -/
theorem nextStatus_eq (c : Connection) (server : Script → Option ScriptStatus) (script : Script) :
    c.nextStatus server script =
      match c.up, c.scriptNotifications.get? script with
      | true, none => (.ok (server script), match (c.addQueue script).read with
        | .ok c => c
        | .error _ => fresh.addQueue script)
      | true, some _ => match c.read with
        | .ok c => c.scriptPop script
        | .error _ => (.error (.allAttemptsErrored (.notSubscribed script)), fresh)
      | false, none => (.error (.allAttemptsErrored .io), c.addQueue script)
      | false, some _ => (.error (.allAttemptsErrored .io), c) := by
  unfold nextStatus
  cases hget : c.scriptNotifications.get? script with
  | none =>
    rw [retry_scriptSubscribe_of_none hget]
    cases c.up <;> rfl
  | some q =>
    rw [retry_scriptSubscribe_of_some hget]
    show (match retry request c with
      | (.ok (), c) => retry (·.scriptPop script) c
      | (.error e, c) => (.error e, c)) = _
    rw [retry_request]
    cases hup : c.up
    · rfl
    cases hr : c.read with
    | ok c' =>
      have hsub : (c'.scriptNotifications.get? script).isSome := by
        rw [((read_ok hr).2.2 script).1, hget]
        rfl
      simp [retry_scriptPop_of_isSome hsub]
    | error e => simp [retry_scriptPop_fresh]

end Connection

end Lwk
