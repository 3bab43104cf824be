import Lwk.Electrum.Client
import Lwk.Wallet.Address

/-!
# `ElectrumClient::tip()` across failures, reconnects and unread notifications

`tip()` pops the connection's queued header notifications until none is left and decodes the
last one; when none was queued it subscribes again (a reconnected client has lost its
subscription) and decodes the server's answer, and when that request fails it keeps the
header it already holds. It returns the header it holds at the end.

The header side of the `electrum_client` connection is modelled by whether it still reaches
the server, whether it is subscribed to headers, the notifications read and queued, and those
the server has sent that no request has read yet. `electrum_client` reads the socket only
while a request waits for its answer, so a notification stays unread until the next request,
and popping reads the local queue only. A reconnect is a new connection: live, unsubscribed,
nothing queued or unread. The server is its current tip notification.

Whatever `tip()` returns, however stale, decodes a header the server announced at some point
of the run (`TipWorld.Announced`): the client never makes a tip up.
-/

namespace Lwk

/-- The header side of an `electrum_client` connection. -/
structure HeaderConnection where
  up : Bool
  subscribed : Bool
  headers : List RawHeaderNotification
  unread : List RawHeaderNotification
  deriving DecidableEq

namespace HeaderConnection

/-- A connection just built by `build_client`, or rebuilt by the client's retry loop. -/
def fresh : HeaderConnection := ⟨true, false, [], []⟩

/-- What a request does before its answer arrives: the notifications sent before it are read
into the queue. A connection that no longer reaches the server reads nothing. -/
def read (c : HeaderConnection) : HeaderConnection :=
  if c.up then { c with headers := c.headers ++ c.unread, unread := [] } else c

/-- `block_headers_subscribe_raw`: the server's current tip, if the connection reaches it. -/
def blockHeadersSubscribeRaw (c : HeaderConnection) (server : RawHeaderNotification) :
    Except ElectrumError RawHeaderNotification × HeaderConnection :=
  if c.up then (.ok server, { c.read with subscribed := true }) else (.error .io, c)

/-- The server's tip moves: a live, subscribed connection is sent the notification. -/
def notify (c : HeaderConnection) (header : RawHeaderNotification) : HeaderConnection :=
  if c.up && c.subscribed then { c with unread := c.unread ++ [header] } else c

/-- While the connection reaches the server, nothing is queued or unread unless it is
subscribed, and the latest notification sent, read or not, is the server's current tip. -/
def Tracks (c : HeaderConnection) (server : RawHeaderNotification) : Prop :=
  c.up = true → (c.subscribed = false → c.headers = [] ∧ c.unread = []) ∧
    ∀ header ∈ (c.headers ++ c.unread).getLast?, header = server

theorem tracks_of_nil {c : HeaderConnection} (h : c.headers = []) (h' : c.unread = [])
    (server : RawHeaderNotification) : c.Tracks server :=
  fun _ => ⟨fun _ => ⟨h, h'⟩, by simp [h, h']⟩

theorem Tracks.notify {c : HeaderConnection} {server : RawHeaderNotification}
    (h : c.Tracks server) (header : RawHeaderNotification) : (c.notify header).Tracks header := by
  obtain ⟨up, subscribed, headers, unread⟩ := c
  cases up <;> cases subscribed <;> simp_all [Tracks, HeaderConnection.notify]

theorem Tracks.read {c : HeaderConnection} {server : RawHeaderNotification}
    (h : c.Tracks server) : c.read.Tracks server := by
  unfold HeaderConnection.read
  split
  · intro hup
    obtain ⟨hsub, hlast⟩ := h hup
    exact ⟨fun hs => by simp [hsub hs], fun x hx => hlast x (by simpa using hx)⟩
  · exact h

end HeaderConnection

/-- `while let Some(header) = self.client.block_headers_pop_raw()? { popped_header = Some(header) }`:
the last header popped, the queue being read out to the end. -/
def drainHeaders : Option RawHeaderNotification → List RawHeaderNotification →
    Option RawHeaderNotification
  | popped, [] => popped
  | _, header :: rest => drainHeaders (some header) rest

theorem drainHeaders_eq (popped : Option RawHeaderNotification) (q : List RawHeaderNotification) :
    drainHeaders popped q = q.getLast?.or popped := by
  induction q generalizing popped with
  | nil => rfl
  | cons header rest ih =>
    rw [drainHeaders, ih, List.getLast?_cons]
    cases rest.getLast? <;> rfl

namespace ElectrumClient

/-- `let tip: BlockHeader = elements_deserialize(&header.header)?; self.tip = tip;`. -/
def storeTip (cl : ElectrumClient) (header : RawHeaderNotification) : Outcome ElectrumClient := do
  let tip ← deserialize header.header
  pure { cl with tip := tip }

/-- `ElectrumClient::with_options`, given whether `build_client` succeeded. -/
def withOptions (built : Bool) (server : RawHeaderNotification) :
    Outcome (ElectrumClient × HeaderConnection) :=
  if built then
    match HeaderConnection.fresh.blockHeadersSubscribeRaw server with
    | (.ok header, conn) => do
      let tip ← deserialize header.header
      pure (⟨Connection.fresh, tip, HashMap.empty⟩, conn)
    | (.error e, _) => .err (.electrum e)
  else .err (.electrum .io)

@[simp] theorem storeTip_tip (cl : ElectrumClient) (header : RawHeaderNotification) :
    (cl.storeTip header >>= fun cl => .ok cl.tip) = deserialize header.header := by
  cases h : deserialize header.header <;> simp [storeTip, h]

theorem storeTip_eq_ok {cl cl' : ElectrumClient} {header : RawHeaderNotification}
    (h : cl.storeTip header = .ok cl') : deserialize header.header = .ok cl'.tip := by
  cases hd : deserialize header.header <;> simp [storeTip, hd] at h ⊢
  exact congrArg ElectrumClient.tip h

/-- Lines 155–175 of `tip()`: drain the queue and store the last header popped, or else
subscribe again and store the server's answer, keeping the held header when that fails. -/
def refreshTip (cl : ElectrumClient) (conn : HeaderConnection) (server : RawHeaderNotification) :
    Outcome ElectrumClient × HeaderConnection :=
  let drained := { conn with headers := [] }
  match drainHeaders none conn.headers with
  | some header => (cl.storeTip header, drained)
  | none => match drained.blockHeadersSubscribeRaw server with
    | (.ok header, conn) => (cl.storeTip header, conn)
    | (.error _, conn) => (.ok cl, conn)

theorem refreshTip_fst (cl : ElectrumClient) (conn : HeaderConnection)
    (server : RawHeaderNotification) :
    (cl.refreshTip conn server).1 = match conn.headers.getLast? with
      | some header => cl.storeTip header
      | none => if conn.up then cl.storeTip server else .ok cl := by
  obtain ⟨up, subscribed, headers, unread⟩ := conn
  simp only [refreshTip, drainHeaders_eq, Option.or_none]
  cases headers.getLast? <;> cases up <;> rfl

/-- Draining the queue and subscribing again keep the connection tracking the server's tip. -/
theorem refreshTip_tracks (cl : ElectrumClient) {conn : HeaderConnection}
    {server : RawHeaderNotification} (h : conn.Tracks server) :
    (cl.refreshTip conn server).2.Tracks server := by
  obtain ⟨up, subscribed, headers, unread⟩ := conn
  simp only [refreshTip, drainHeaders_eq, Option.or_none]
  cases hq : headers.getLast? with
  | some header =>
    intro hup
    obtain ⟨hsub, hlast⟩ := h hup
    refine ⟨fun hs => absurd (hsub hs).1 (by rintro rfl; cases hq), fun x hx => hlast x ?_⟩
    simp_all
  | none =>
    rw [List.getLast?_eq_none_iff] at hq
    subst hq
    cases up
    · exact nofun
    · intro _
      simp only [HeaderConnection.blockHeadersSubscribeRaw, HeaderConnection.read, ite_true]
      exact ⟨nofun, by simpa using (h rfl).2⟩

/-- A client that `with_options` builds holds the server's tip and is subscribed to headers,
with nothing queued or unread. -/
theorem withOptions_eq_ok {built : Bool} {server : RawHeaderNotification} {cl : ElectrumClient}
    {conn : HeaderConnection} (h : withOptions built server = .ok (cl, conn)) :
    conn = ⟨true, true, [], []⟩ ∧ deserialize server.header = .ok cl.tip := by
  cases built
  · cases h
  · cases hd : deserialize server.header <;>
      simp [withOptions, HeaderConnection.fresh, HeaderConnection.blockHeadersSubscribeRaw,
        HeaderConnection.read, hd] at h
    obtain ⟨rfl, rfl⟩ := h
    exact ⟨rfl, rfl⟩

end ElectrumClient

namespace BlockchainBackend

/-- `<ElectrumClient as BlockchainBackend>::tip()`: refresh, then `Ok(self.tip.clone())`. -/
def tip (cl : ElectrumClient) (conn : HeaderConnection) (server : RawHeaderNotification) :
    Outcome BlockHeader × ElectrumClient × HeaderConnection :=
  let (stored, conn) := cl.refreshTip conn server
  match stored with
  | .ok cl => (.ok cl.tip, cl, conn)
  | .err e => (.err e, cl, conn)
  | .panic m => (.panic m, cl, conn)

theorem tip_fst (cl : ElectrumClient) (conn : HeaderConnection) (server : RawHeaderNotification) :
    (tip cl conn server).1 = ((cl.refreshTip conn server).1 >>= fun cl => .ok cl.tip) := by
  unfold tip
  obtain ⟨stored, conn⟩ := cl.refreshTip conn server
  cases stored <;> rfl

theorem tip_conn (cl : ElectrumClient) (conn : HeaderConnection) (server : RawHeaderNotification) :
    (tip cl conn server).2.2 = (cl.refreshTip conn server).2 := by
  unfold tip
  obtain ⟨stored, conn⟩ := cl.refreshTip conn server
  cases stored <;> rfl

/-- What one `tip()` returns: the latest queued header decoded, or, when none is queued, the
server's answer decoded if the connection reaches it, or else the header already held. -/
theorem tip_eq (cl : ElectrumClient) (conn : HeaderConnection) (server : RawHeaderNotification) :
    (tip cl conn server).1 = match conn.headers.getLast? with
      | some header => deserialize header.header
      | none => if conn.up then deserialize server.header else .ok cl.tip := by
  rw [tip_fst, ElectrumClient.refreshTip_fst]
  cases conn.headers.getLast? <;> cases conn.up <;> simp

/-- A connection that reaches the server and tracks its tip, with nothing queued or every
notification read: `tip()` decodes the server's current tip. -/
theorem tip_live {cl : ElectrumClient} {conn : HeaderConnection} {server : RawHeaderNotification}
    (h : conn.Tracks server) (hup : conn.up = true) (hread : conn.headers = [] ∨ conn.unread = []) :
    (tip cl conn server).1 = deserialize server.header := by
  rw [tip_eq]
  cases hq : conn.headers.getLast? with
  | none => simp [hup]
  | some header =>
    have hu : conn.unread = [] := hread.resolve_left fun h' => by simp [h'] at hq
    rw [(h hup).2 header (by rw [hu, List.append_nil]; exact hq)]

/-- What `tip()` leaves of the queues: the notifications it neither popped nor discarded. -/
theorem tip_queued (cl : ElectrumClient) (conn : HeaderConnection)
    (server : RawHeaderNotification) :
    ∀ header ∈ (tip cl conn server).2.2.headers ++ (tip cl conn server).2.2.unread,
      header ∈ conn.headers ++ conn.unread := by
  rw [tip_conn]
  obtain ⟨up, subscribed, headers, unread⟩ := conn
  simp only [ElectrumClient.refreshTip, drainHeaders_eq, Option.or_none]
  cases headers.getLast? with
  | some header => simpa using fun _ h => .inr h
  | none =>
    cases up <;> simpa [HeaderConnection.blockHeadersSubscribeRaw, HeaderConnection.read]
      using fun _ h => .inr h

/-- The header `tip()` leaves the client holding: the one it held, or the decoding of a queued
header or of the server's tip. -/
theorem tip_held (cl : ElectrumClient) (conn : HeaderConnection)
    (server : RawHeaderNotification) :
    (tip cl conn server).2.1 = cl ∨ ∃ header, (header ∈ conn.headers ∨ header = server) ∧
      deserialize header.header = .ok (tip cl conn server).2.1.tip := by
  have hfst := ElectrumClient.refreshTip_fst cl conn server
  unfold tip
  rcases hr : cl.refreshTip conn server with ⟨stored, conn'⟩
  rw [hr] at hfst
  cases stored with
  | ok cl' =>
    cases hq : conn.headers.getLast? with
    | some header =>
      rw [hq] at hfst
      exact .inr ⟨header, .inl (List.mem_of_getLast?_eq_some hq), ElectrumClient.storeTip_eq_ok hfst.symm⟩
    | none =>
      cases hup : conn.up
      · simp only [hq, hup] at hfst
        exact .inl (Outcome.ok.inj hfst)
      · simp only [hq, hup, if_true] at hfst
        exact .inr ⟨server, .inr rfl, ElectrumClient.storeTip_eq_ok hfst.symm⟩
  | err e => exact .inl rfl
  | panic m => exact .inl rfl

end BlockchainBackend

/-- What happens around one client: the server's tip moves, the connection fails or is
replaced by a new one, the client makes another request (which reads the notifications sent
so far), or the client calls `tip()`. -/
inductive TipEvent where
  | tipChange (header : RawHeaderNotification)
  | fail
  | reconnect
  | request
  | tip
  deriving DecidableEq

/-- A client, its connection, and the server's current tip. -/
structure TipWorld where
  client : ElectrumClient
  conn : HeaderConnection
  server : RawHeaderNotification

namespace TipWorld

/-- One event. -/
def step (w : TipWorld) : TipEvent → TipWorld
  | .tipChange header => { w with conn := w.conn.notify header, server := header }
  | .fail => { w with conn := { w.conn with up := false } }
  | .reconnect => { w with conn := HeaderConnection.fresh }
  | .request => { w with conn := w.conn.read }
  | .tip =>
    let r := BlockchainBackend.tip w.client w.conn w.server
    { w with client := r.2.1, conn := r.2.2 }

/-- A run: for each `tip()` call, what it returned, the server's tip at that moment, and
whether the connection reached the server. -/
def run : TipWorld → List TipEvent → List (Outcome BlockHeader × RawHeaderNotification × Bool)
  | _, [] => []
  | w, .tip :: rest =>
    ((BlockchainBackend.tip w.client w.conn w.server).1, w.server, w.conn.up) :: run (w.step .tip) rest
  | w, e :: rest => run (w.step e) rest

/-- The world after `events`. -/
def after (w : TipWorld) (events : List TipEvent) : TipWorld := events.foldl step w

theorem run_append (pre post : List TipEvent) : ∀ w : TipWorld,
    w.run (pre ++ post) = w.run pre ++ (w.after pre).run post := by
  induction pre with
  | nil => intro w; rfl
  | cons e pre ih =>
    intro w
    cases e with
    | tip => exact congrArg _ (ih _)
    | _ => exact ih _

/-- The connection tracks the server's tip (`HeaderConnection.Tracks`). -/
def Inv (w : TipWorld) : Prop := w.conn.Tracks w.server

/-- A client that `with_options` builds tracks the server's tip. -/
theorem Inv.of_withOptions {built : Bool} {server : RawHeaderNotification} {cl : ElectrumClient}
    {conn : HeaderConnection} (h : ElectrumClient.withOptions built server = .ok (cl, conn)) :
    Inv ⟨cl, conn, server⟩ := by
  show conn.Tracks server
  rw [(ElectrumClient.withOptions_eq_ok h).1]
  exact HeaderConnection.tracks_of_nil rfl rfl server

theorem Inv.step {w : TipWorld} (h : w.Inv) : ∀ e, (TipWorld.step w e).Inv
  | .tipChange header => HeaderConnection.Tracks.notify h header
  | .fail => nofun
  | .reconnect => HeaderConnection.tracks_of_nil rfl rfl _
  | .request => HeaderConnection.Tracks.read h
  | .tip => by
    show (BlockchainBackend.tip w.client w.conn w.server).2.2.Tracks w.server
    rw [BlockchainBackend.tip_conn]
    exact ElectrumClient.refreshTip_tracks w.client h

theorem Inv.after {w : TipWorld} (h : w.Inv) : ∀ events, (w.after events).Inv
  | [] => h
  | e :: events => (h.step e).after events

end TipWorld

/-- **`tip()` along every run.** From a client built by `with_options`, after any server tip
changes, connection failures, reconnects and requests, a `tip()` call is logged with what it
returns: the latest queued header, decoded; when none is queued, the server's current tip if
the connection reaches it, and otherwise the header the client already holds, as `Ok`. While
the connection reaches the server, the result is the server's current tip whenever nothing is
queued or every notification has been read. -/
theorem tip_along_run {built : Bool} {server₀ : RawHeaderNotification} {cl₀ : ElectrumClient}
    {conn₀ : HeaderConnection} (hnew : ElectrumClient.withOptions built server₀ = .ok (cl₀, conn₀))
    (pre : List TipEvent) :
    let w₀ : TipWorld := ⟨cl₀, conn₀, server₀⟩
    let w := w₀.after pre
    let r := (BlockchainBackend.tip w.client w.conn w.server).1
    w₀.run (pre ++ [.tip]) = w₀.run pre ++ [(r, w.server, w.conn.up)] ∧
      r = (match w.conn.headers.getLast? with
        | some header => deserialize header.header
        | none => if w.conn.up then deserialize w.server.header else .ok w.client.tip) ∧
      (w.conn.up = true → (w.conn.headers = [] ∨ w.conn.unread = []) →
        r = deserialize w.server.header) := by
  intro w₀ w r
  exact ⟨by rw [TipWorld.run_append]; rfl, BlockchainBackend.tip_eq _ _ _,
    BlockchainBackend.tip_live ((TipWorld.Inv.of_withOptions hnew).after pre)⟩

/-- Two runs from a client built on the height-0 tip. In the first the tip moves to height 1,
`tip()` subscribes again and returns it, reading the notification into the queue; the tip
then moves to height 2 and, the connection up but that notification unread, `tip()` returns
the height-1 header. In the second the connection fails and the tip moves to height 1:
`tip()` returns `Ok` with the height-0 header it held. -/
theorem tip_returns_stale_headers :
    let header : Nat → RawHeaderNotification := fun n =>
      ⟨n, ⟨some ⟨BitVec.ofNat 32 n, BitVec.ofNat 256 n⟩⟩⟩
    let cl₀ : ElectrumClient := ⟨Connection.fresh, ⟨0, 0⟩, HashMap.empty⟩
    let w₀ : TipWorld := ⟨cl₀, ⟨true, true, [], []⟩, header 0⟩
    ElectrumClient.withOptions true (header 0) = .ok (cl₀, ⟨true, true, [], []⟩) ∧
      w₀.run [.tipChange (header 1), .tip, .tipChange (header 2), .tip] =
        [(.ok ⟨1, 1⟩, header 1, true), (.ok ⟨1, 1⟩, header 2, true)] ∧
      w₀.run [.fail, .tipChange (header 1), .tip] = [(.ok ⟨0, 0⟩, header 1, false)] :=
  ⟨rfl, rfl, rfl⟩

/-- The first run of `tip_returns_stale_headers`, read by `tip_along_run`. -/
theorem tip_along_run_stale :
    let header : Nat → RawHeaderNotification := fun n =>
      ⟨n, ⟨some ⟨BitVec.ofNat 32 n, BitVec.ofNat 256 n⟩⟩⟩
    let cl₀ : ElectrumClient := ⟨Connection.fresh, ⟨0, 0⟩, HashMap.empty⟩
    let w₀ : TipWorld := ⟨cl₀, ⟨true, true, [], []⟩, header 0⟩
    let pre : List TipEvent := [.tipChange (header 1), .tip, .tipChange (header 2)]
    let w := w₀.after pre
    let r := (BlockchainBackend.tip w.client w.conn w.server).1
    ElectrumClient.withOptions true (header 0) = .ok (cl₀, ⟨true, true, [], []⟩) ∧
      (w₀.run (pre ++ [.tip]) = w₀.run pre ++ [(r, w.server, w.conn.up)] ∧
        r = (match w.conn.headers.getLast? with
          | some header => deserialize header.header
          | none => if w.conn.up then deserialize w.server.header else .ok w.client.tip) ∧
        (w.conn.up = true → (w.conn.headers = [] ∨ w.conn.unread = []) →
          r = deserialize w.server.header)) := by
  intro header cl₀ w₀ pre
  have hnew : ElectrumClient.withOptions true (header 0) = .ok (cl₀, ⟨true, true, [], []⟩) := rfl
  exact ⟨hnew, tip_along_run hnew pre⟩

/-- The header a server tip change announces. -/
def TipEvent.announced : TipEvent → Option RawHeaderNotification
  | .tipChange header => some header
  | _ => none

namespace TipWorld

/-- Everything the client can hand back comes from `seen`: the header it holds decodes one of
them, and the queued and unread notifications and the server's tip are among them. -/
structure Announced (w : TipWorld) (seen : List RawHeaderNotification) : Prop where
  held : ∃ header ∈ seen, deserialize header.header = .ok w.client.tip
  queued : ∀ header ∈ w.conn.headers ++ w.conn.unread, header ∈ seen
  current : w.server ∈ seen

/-- A client built by `with_options` holds the decoded tip the server answered with. -/
theorem Announced.of_withOptions {built : Bool} {server : RawHeaderNotification} {cl : ElectrumClient}
    {conn : HeaderConnection} (h : ElectrumClient.withOptions built server = .ok (cl, conn)) :
    Announced ⟨cl, conn, server⟩ [server] := by
  obtain ⟨rfl, hd⟩ := ElectrumClient.withOptions_eq_ok h
  exact ⟨⟨server, List.mem_singleton_self _, hd⟩, nofun, List.mem_singleton_self _⟩

theorem Announced.step {w : TipWorld} {seen : List RawHeaderNotification} (h : w.Announced seen) :
    ∀ e, (w.step e).Announced (seen ++ e.announced.toList)
  | .tipChange header => by
    refine ⟨?_, fun x hx => ?_, List.mem_append_right _ (List.mem_singleton_self _)⟩
    · obtain ⟨x, hx, hd⟩ := h.held
      exact ⟨x, List.mem_append_left _ hx, hd⟩
    · simp only [TipWorld.step, HeaderConnection.notify] at hx
      split at hx
      · rw [← List.append_assoc, List.mem_append] at hx
        exact List.mem_append.2 (hx.imp (h.queued x) id)
      · exact List.mem_append_left _ (h.queued x hx)
  | .fail => by
    simp only [TipEvent.announced, Option.toList_none, List.append_nil]
    exact ⟨h.held, h.queued, h.current⟩
  | .reconnect => by
    simp only [TipEvent.announced, Option.toList_none, List.append_nil]
    exact ⟨h.held, nofun, h.current⟩
  | .request => by
    simp only [TipEvent.announced, Option.toList_none, List.append_nil]
    refine ⟨h.held, fun x hx => ?_, h.current⟩
    simp only [TipWorld.step, HeaderConnection.read] at hx
    split at hx
    · exact h.queued x (by simpa using hx)
    · exact h.queued x hx
  | .tip => by
    simp only [TipEvent.announced, Option.toList_none, List.append_nil]
    refine ⟨?_, fun x hx => h.queued x (BlockchainBackend.tip_queued _ _ _ x hx), h.current⟩
    show ∃ header ∈ seen, deserialize header.header =
      .ok (BlockchainBackend.tip w.client w.conn w.server).2.1.tip
    rcases BlockchainBackend.tip_held w.client w.conn w.server with hcl | ⟨header, hmem, hd⟩
    · rw [hcl]
      exact h.held
    · refine ⟨header, ?_, hd⟩
      rcases hmem with hmem | rfl
      · exact h.queued header (List.mem_append_left _ hmem)
      · exact h.current

theorem Announced.after {w : TipWorld} {seen : List RawHeaderNotification} (h : w.Announced seen) :
    ∀ events, (w.after events).Announced (seen ++ events.filterMap TipEvent.announced)
  | [] => by simpa [TipWorld.after] using h
  | e :: events => by
    have := (h.step e).after events
    cases e <;> simpa [TipEvent.announced] using this

end TipWorld

/-- **`tip()` returns only announced headers.** From a client built by `with_options`, after any
server tip changes, connection failures, reconnects, requests and `tip()` calls, the next
`tip()` call returns the decoding of a header the server announced as its tip: the one the
client was built on or one of the changes so far. It never returns a header the server did
not announce, and it fails only when such a header does not decode. -/
theorem tip_returns_announced_header {built : Bool} {server₀ : RawHeaderNotification}
    {cl₀ : ElectrumClient} {conn₀ : HeaderConnection}
    (hnew : ElectrumClient.withOptions built server₀ = .ok (cl₀, conn₀)) (pre : List TipEvent) :
    ∃ header ∈ server₀ :: pre.filterMap TipEvent.announced, ∃ now up,
      ((⟨cl₀, conn₀, server₀⟩ : TipWorld).run (pre ++ [.tip])).getLast? =
        some (deserialize header.header, now, up) := by
  have hw := (TipWorld.Announced.of_withOptions hnew).after pre
  set w := (⟨cl₀, conn₀, server₀⟩ : TipWorld).after pre
  have hr : ∃ header ∈ server₀ :: pre.filterMap TipEvent.announced,
      (BlockchainBackend.tip w.client w.conn w.server).1 = deserialize header.header := by
    rw [BlockchainBackend.tip_eq]
    cases hq : w.conn.headers.getLast? with
    | some header =>
      exact ⟨header, hw.queued header (List.mem_append_left _ (List.mem_of_getLast?_eq_some hq)), rfl⟩
    | none =>
      cases w.conn.up
      · obtain ⟨header, hm, hd⟩ := hw.held
        exact ⟨header, hm, hd.symm⟩
      · exact ⟨w.server, hw.current, rfl⟩
  obtain ⟨header, hm, hd⟩ := hr
  refine ⟨header, hm, w.server, w.conn.up, ?_⟩
  rw [TipWorld.run_append]
  simp [TipWorld.run, hd, w]

/-- The first run of `tip_returns_stale_headers`, continued by a failure and a tip change:
the next `tip()` returns the decoded height-1 header, which the server announced. -/
theorem tip_returns_announced_header_after_fail :
    let header : Nat → RawHeaderNotification := fun n =>
      ⟨n, ⟨some ⟨BitVec.ofNat 32 n, BitVec.ofNat 256 n⟩⟩⟩
    let cl₀ : ElectrumClient := ⟨Connection.fresh, ⟨0, 0⟩, HashMap.empty⟩
    let pre : List TipEvent := [.tipChange (header 1), .tip, .fail, .tipChange (header 2)]
    ElectrumClient.withOptions true (header 0) = .ok (cl₀, ⟨true, true, [], []⟩) ∧
      ∃ h ∈ header 0 :: pre.filterMap TipEvent.announced, ∃ now up,
        ((⟨cl₀, ⟨true, true, [], []⟩, header 0⟩ : TipWorld).run (pre ++ [.tip])).getLast? =
          some (deserialize h.header, now, up) := by
  intro header cl₀ pre
  have hnew : ElectrumClient.withOptions true (header 0) = .ok (cl₀, ⟨true, true, [], []⟩) := rfl
  exact ⟨hnew, tip_returns_announced_header hnew pre⟩

end Lwk
