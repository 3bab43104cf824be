import Lwk.Wallet.Transactions
import Lwk.Wallet.Balance

/-!
# Runs of wallet calls on one store

A run is a sequence of `ElectrumWallet` calls on the shared store, in the order in which
they take its lock, each with what the outside world answers to it. Every call but
`address()` and `sync_tip()` only reads the store, `address()` only moves `last_index`
(and poisons the lock on a debug overflow), and `sync_tip()` only moves the tip. So
`heights` is constant along a run, `last_index` climbs by one per successful `address()`
in a debug build, and the tip is whatever the server last reported at a new height. A debug
build therefore never hands out an address twice when the descriptor has a wildcard key.
-/

namespace Lwk

/-- A call on the wallet, with what the outside world answers to it. -/
inductive Call where
  | address
  | syncTip (client : Bool) (header : Except Error RawHeaderNotification)
  | tip
  | utxos
  | balance
  | transactions

/-- What a call returned. -/
inductive Reply where
  | address (r : Outcome Address)
  | syncTip (r : Outcome Unit)
  | tip (r : Outcome (BitVec 32 × BlockHash))
  | utxos (r : Outcome (List UnblindedTXO))
  | balance (r : Outcome (HashMap AssetId (BitVec 64)))
  | transactions (r : Outcome (List (Transaction × Option (BitVec 32))))
  deriving DecidableEq

namespace ElectrumWallet

section Runs

variable (spent : Cache → Except Error (List OutPoint)) (p : Profile) (w : ElectrumWallet)

/-- One call on the store. -/
def exec : Call → Store → Reply × Store
  | .address, s => ((.address (w.address p s).1), (w.address p s).2)
  | .syncTip client header, s => (.syncTip (syncTip client header s).1, (syncTip client header s).2)
  | .tip, s => (.tip (tip s), s)
  | .utxos, s => (.utxos (utxos spent s), s)
  | .balance, s => (.balance (w.balance spent p s), s)
  | .transactions, s => (.transactions (transactions s), s)

/-- A run of calls: each reply with the store after its call. -/
def run : List Call → Store → List (Reply × Store)
  | [], _ => []
  | c :: cs, s => exec spent p w c s :: run cs (exec spent p w c s).2

/-- No call changes `heights`. -/
@[simp] theorem exec_heights (c : Call) (s : Store) :
    (exec spent p w c s).2.cache.heights = s.cache.heights := by
  cases c with
  | address => rcases address_cases p w s with ⟨-, h⟩ | ⟨-, _, -, h⟩ | ⟨-, -, h⟩ <;> simp [exec, h]
  | syncTip client header =>
    rcases syncTip_cases client header s with h | ⟨_, _, -, -, -, -, -, h⟩ <;> simp [exec, h]
  | _ => rfl

/-- Only `sync_tip()` changes the tip, and only to a reported height that differs from the
stored one, with the reported header's hash. -/
theorem exec_tip (c : Call) (s : Store) :
    (exec spent p w c s).2.cache.tip = s.cache.tip ∨
    ∃ client hdr B, c = .syncTip client (.ok hdr) ∧ hdr.header.decoded = some B ∧
      BitVec.ofNat 32 hdr.height ≠ s.cache.tip.1 ∧
      (exec spent p w c s).2.cache.tip = (BitVec.ofNat 32 hdr.height, B.blockHash) := by
  cases c with
  | address => rcases address_cases p w s with ⟨-, h⟩ | ⟨-, _, -, h⟩ | ⟨-, -, h⟩ <;> simp [exec, h]
  | syncTip client header =>
    rcases syncTip_cases client header s with h | ⟨hdr, B, -, rfl, -, hB, hne, h⟩
    · simp [exec, h]
    · exact .inr ⟨client, hdr, B, rfl, hB, hne, by simp [exec, h]⟩
  | _ => exact .inl rfl

/-- The index a successful `address()` call took: the `last_index` it left behind. -/
def takenIndex : Reply × Store → List (BitVec 32)
  | (.address (.ok _), s) => [s.cache.lastIndex]
  | _ => []

/-- The indices taken by the successful `address()` calls of a run, in lock order. -/
def addressIndices (rs : List (Reply × Store)) : List (BitVec 32) := rs.flatMap takenIndex

theorem takenIndex_eq (rs : Reply × Store) :
    takenIndex rs = [] ∨ takenIndex rs = [rs.2.cache.lastIndex] := by
  rcases rs with ⟨r, s⟩
  cases r with
  | address o => cases o <;> simp [takenIndex]
  | _ => simp [takenIndex]

/-- In a debug build no call lowers `last_index`, and a successful `address()` takes the
index it leaves behind, one above the one before. -/
theorem exec_lastIndex_debug (c : Call) (s : Store) :
    s.cache.lastIndex.toNat ≤ (exec spent .debug w c s).2.cache.lastIndex.toNat ∧
    ∀ i ∈ takenIndex (exec spent .debug w c s),
      i = (exec spent .debug w c s).2.cache.lastIndex ∧ i.toNat = s.cache.lastIndex.toNat + 1 := by
  cases c with
  | address =>
    rcases address_cases .debug w s with ⟨-, h⟩ | ⟨-, q, hq, h⟩ | ⟨-, -, h⟩
    · simp [exec, h, takenIndex]
    · have hexact := (Profile.addAssign_eq_some hq).2 rfl
      refine ⟨by simp [exec, h]; omega, fun i hi => ?_⟩
      rcases takenIndex_eq (exec spent .debug w .address s) with h' | h' <;>
        simp only [h', List.not_mem_nil, List.mem_singleton] at hi
      subst hi
      simp [exec, h, hexact]
    · simp [exec, h, takenIndex]
  | syncTip client header =>
    refine ⟨?_, by simp [exec, takenIndex]⟩
    rcases syncTip_cases client header s with h | ⟨_, _, -, -, -, -, -, h⟩ <;> simp [exec, h]
  | _ => simp [exec, takenIndex]

/-- **`last_index` in a debug build.** Along every run it never decreases, and the successful
`address()` calls take pairwise distinct indices, increasing in lock order and above the
starting `last_index`. -/
theorem run_lastIndex_debug (cs : List Call) (s : Store) :
    List.Chain (fun a b : Store => a.cache.lastIndex.toNat ≤ b.cache.lastIndex.toNat) s
      ((run spent .debug w cs s).map (·.2)) ∧
    (addressIndices (run spent .debug w cs s)).Pairwise (fun a b => a.toNat < b.toNat) ∧
    ∀ i ∈ addressIndices (run spent .debug w cs s), s.cache.lastIndex.toNat < i.toNat := by
  induction cs generalizing s with
  | nil => simp [run, addressIndices]
  | cons c cs ih =>
    obtain ⟨hchain, hpair, habove⟩ := ih (exec spent .debug w c s).2
    obtain ⟨hle, htaken⟩ := exec_lastIndex_debug spent w c s
    simp only [run, addressIndices, List.flatMap_cons, List.map_cons, List.mem_append] at hpair habove ⊢
    refine ⟨.cons hle hchain, List.pairwise_append.2 ⟨?_, hpair, fun a ha b hb => ?_⟩, ?_⟩
    · rcases takenIndex_eq (exec spent .debug w c s) with h | h <;> simp [h]
    · exact (htaken a ha).1 ▸ habove b hb
    · rintro i (hi | hi)
      · have := (htaken i hi).2
        omega
      · exact Nat.lt_of_le_of_lt hle (habove i hi)

/-- The index a successful `address()` call took, with the address it returned. -/
def issued : Reply × Store → List (BitVec 32 × Address)
  | (.address (.ok a), s) => [(s.cache.lastIndex, a)]
  | _ => []

/-- The address a successful `address()` call returned. -/
def takenAddress : Reply × Store → List Address
  | (.address (.ok a), _) => [a]
  | _ => []

/-- The addresses the successful `address()` calls of a run returned, in lock order. -/
def addresses (rs : List (Reply × Store)) : List Address := rs.flatMap takenAddress

theorem issued_map (r : Reply × Store) :
    (issued r).map Prod.fst = takenIndex r ∧ (issued r).map Prod.snd = takenAddress r := by
  rcases r with ⟨r, s⟩
  cases r with
  | address o => cases o <;> simp [issued, takenIndex, takenAddress]
  | _ => simp [issued, takenIndex, takenAddress]

/-- Every address a call returned is the derivation at the index it took. -/
theorem exec_issued (c : Call) (s : Store) :
    ∀ x ∈ issued (exec spent p w c s), w.deriveAddress x.1 = .ok x.2 := by
  cases c with
  | address =>
    rcases address_cases p w s with ⟨-, h⟩ | ⟨-, q, -, h⟩ | ⟨-, -, h⟩
    · simp [exec, h, issued]
    · cases hd : w.deriveAddress q <;> simp [exec, h, issued, hd]
    · simp [exec, h, issued]
  | _ => simp [exec, issued]

theorem run_issued (cs : List Call) (s : Store) :
    ∀ x ∈ (run spent p w cs s).flatMap issued, w.deriveAddress x.1 = .ok x.2 := by
  induction cs generalizing s with
  | nil => simp [run]
  | cons c cs ih =>
    simp only [run, List.flatMap_cons, List.mem_append]
    rintro x (hx | hx)
    · exact exec_issued spent p w c s x hx
    · exact ih _ x hx

/-- **No address is handed out twice in a debug build.** Along every run, the addresses that
successful `address()` calls return are pairwise distinct when the descriptor has a wildcard
key; without one, they are all the same address. -/
theorem run_addresses_debug (cs : List Call) (s : Store) :
    ((∃ k ∈ w.descriptor.descriptor.keys, k.wildcard = true) →
      (addresses (run spent .debug w cs s)).Nodup) ∧
    ((∀ k ∈ w.descriptor.descriptor.keys, k.wildcard = false) →
      ∀ a ∈ addresses (run spent .debug w cs s), ∀ b ∈ addresses (run spent .debug w cs s), a = b) := by
  set xs := (run spent .debug w cs s).flatMap issued
  have hfst : xs.map Prod.fst = addressIndices (run spent .debug w cs s) := by
    simp only [xs, List.map_flatMap, addressIndices, fun r => (issued_map r).1]
  have hsnd : xs.map Prod.snd = addresses (run spent .debug w cs s) := by
    simp only [xs, List.map_flatMap, addresses, fun r => (issued_map r).2]
  have hder := run_issued spent .debug w cs s
  rw [← hsnd]
  refine ⟨fun hw => ?_, fun hw => ?_⟩
  · have hidx : (xs.map Prod.fst).Nodup := by
      rw [hfst]
      exact (run_lastIndex_debug spent w cs s).2.1.imp fun h he => Nat.ne_of_lt h (congrArg BitVec.toNat he)
    refine (hidx.of_map _).map_on fun x hx y hy hxy => Prod.ext ?_ hxy
    exact deriveAddress_index_eq hw (hder x hx) (hxy ▸ hder y hy)
  · simp only [List.mem_map]
    rintro _ ⟨x, hx, rfl⟩ _ ⟨y, hy, rfl⟩
    exact deriveAddress_eq_of_no_wildcard hw (hder x hx) (hder y hy)

/-- A wildcard descriptor: two `address()` calls around a `tip()` return two addresses, and
they differ. -/
theorem run_addresses_debug_wildcard :
    let w : ElectrumWallet := ⟨⟨0, .liquid⟩, ⟨.slip77 0, ⟨.wpkh, [⟨1, true⟩]⟩⟩⟩
    let s : Store := ⟨⟨HashMap.empty, HashMap.empty, HashMap.empty, 0, (0, 0)⟩, false⟩
    (∃ k ∈ w.descriptor.descriptor.keys, k.wildcard = true) ∧
      (addresses (run (fun _ => .ok []) .debug w [.address, .tip, .address] s)).length = 2 ∧
      (addresses (run (fun _ => .ok []) .debug w [.address, .tip, .address] s)).Nodup := by
  intro w s
  have hw : ∃ k ∈ w.descriptor.descriptor.keys, k.wildcard = true :=
    ⟨_, List.mem_singleton_self _, rfl⟩
  exact ⟨hw, by decide, (run_addresses_debug (fun _ => .ok []) w [.address, .tip, .address] s).1 hw⟩

/-- Every height the store records for a confirmed transaction is at most the tip's. -/
def TipAbove (c : Cache) : Prop :=
  ∀ t h, c.heights.get? t = some (some h) → h ≤ c.tip.1

/-- What a call did to the tip, from the store `before` it to its reply and store: left it, or,
a `sync_tip()` whose header decodes at a height (`as u32`) other than the stored one, set it to
that height and the header's hash, which a `sync_tip()` that obtains such a header and returns
`Ok` always does. -/
def TipStep (c : Call) (before : Store) (rs : Reply × Store) : Prop :=
  (rs.2.cache.tip = before.cache.tip ∨ ∃ client hdr B, c = .syncTip client (.ok hdr) ∧
    hdr.header.decoded = some B ∧ BitVec.ofNat 32 hdr.height ≠ before.cache.tip.1 ∧
    rs.2.cache.tip = (BitVec.ofNat 32 hdr.height, B.blockHash)) ∧
  ∀ hdr B, c = .syncTip true (.ok hdr) → hdr.header.decoded = some B →
    BitVec.ofNat 32 hdr.height ≠ before.cache.tip.1 → rs.1 = .syncTip (.ok ()) →
    rs.2.cache.tip = (BitVec.ofNat 32 hdr.height, B.blockHash)

/-- Each call of a run with the store before it. -/
def withBefore (s : Store) (rs : List (Reply × Store)) : List (Store × (Reply × Store)) :=
  (s :: rs.map (·.2)).zip rs

theorem exec_tipStep (c : Call) (s : Store) : TipStep c s (exec spent p w c s) := by
  refine ⟨exec_tip spent p w c s, fun hdr B hc hB hne hok => ?_⟩
  subst hc
  exact syncTip_sets_tip hB hne (by simpa [exec] using hok)

theorem run_heights (cs : List Call) (s : Store) :
    ∀ rs ∈ run spent p w cs s, rs.2.cache.heights = s.cache.heights := by
  induction cs generalizing s with
  | nil => simp [run]
  | cons c cs ih =>
    intro rs hrs
    rcases List.mem_cons.1 hrs with rfl | hrs
    · exact exec_heights spent p w c s
    · exact (ih _ rs hrs).trans (exec_heights spent p w c s)

theorem run_tipStep (cs : List Call) (s : Store) :
    List.Forall₂ (fun c t => TipStep c t.1 t.2) cs (withBefore s (run spent p w cs s)) := by
  induction cs generalizing s with
  | nil => exact .nil
  | cons c cs ih => exact .cons (exec_tipStep spent p w c s) (ih _)

/-- **The tip along a run.** Along every run, `heights` never changes, and each call leaves the
tip or, when it is a `sync_tip()` whose header decodes at a height (`as u32`) other than the
stored one, sets it to that height and the header's hash, as every such `sync_tip()` returning
`Ok` does. So from a store where every confirmed height is at most the tip's, the bound holds
after every call, provided the server never reports to `sync_tip()` a height (`as u32`) below a
confirmed height of the store. -/
theorem run_tipAbove (cs : List Call) (s : Store) (hinv : TipAbove s.cache)
    (hserver : ∀ client hdr, Call.syncTip client (.ok hdr) ∈ cs →
      ∀ t h, s.cache.heights.get? t = some (some h) → h ≤ BitVec.ofNat 32 hdr.height) :
    (∀ rs ∈ run spent p w cs s, rs.2.cache.heights = s.cache.heights) ∧
    List.Forall₂ (fun c t => TipStep c t.1 t.2) cs (withBefore s (run spent p w cs s)) ∧
    ∀ rs ∈ run spent p w cs s, TipAbove rs.2.cache := by
  refine ⟨run_heights spent p w cs s, run_tipStep spent p w cs s, ?_⟩
  induction cs generalizing s with
  | nil => simp [run]
  | cons c cs ih =>
    have step : TipAbove (exec spent p w c s).2.cache := by
      intro t h ht
      rw [exec_heights] at ht
      rcases exec_tip spent p w c s with htip | ⟨client, hdr, B, rfl, -, -, htip⟩
      · exact htip ▸ hinv t h ht
      · exact htip ▸ hserver client hdr (List.mem_cons_self _ _) t h ht
    intro rs hrs
    rcases List.mem_cons.1 hrs with rfl | hrs
    · exact step
    · refine ih _ step (fun client hdr hc t h ht => ?_) rs hrs
      rw [exec_heights] at ht
      exact hserver client hdr (List.mem_cons_of_mem _ hc) t h ht

theorem run_tipAbove_synced :
    let c : Cache := ⟨HashMap.empty, HashMap.empty, ⟨[(1, some 100)], by decide⟩, 0, (100, 0)⟩
    let cs : List Call := [.syncTip true (.ok ⟨120, ⟨some ⟨120, 7⟩⟩⟩), .tip]
    let w : ElectrumWallet := ⟨⟨0, .liquid⟩, ⟨.slip77 0, ⟨.wpkh, []⟩⟩⟩
    TipAbove c ∧
    (∀ client hdr, Call.syncTip client (.ok hdr) ∈ cs →
      ∀ t h, c.heights.get? t = some (some h) → h ≤ BitVec.ofNat 32 hdr.height) ∧
    ((∀ rs ∈ run (fun _ => .ok []) .release w cs ⟨c, false⟩, rs.2.cache.heights = c.heights) ∧
      List.Forall₂ (fun c t => TipStep c t.1 t.2) cs
        (withBefore ⟨c, false⟩ (run (fun _ => .ok []) .release w cs ⟨c, false⟩)) ∧
      ∀ rs ∈ run (fun _ => .ok []) .release w cs ⟨c, false⟩, TipAbove rs.2.cache) := by
  intro c cs w
  have hheights : ∀ t h, c.heights.get? t = some (some h) → h = 100 := by
    intro t h ht
    simp only [c, HashMap.get?, HashMap.lookup_cons_ite] at ht
    split_ifs at ht <;> simp_all
  have hinv : TipAbove c := fun t h ht => by rw [hheights t h ht]; decide
  have hserver : ∀ client hdr, Call.syncTip client (.ok hdr) ∈ cs →
      ∀ t h, c.heights.get? t = some (some h) → h ≤ BitVec.ofNat 32 hdr.height := by
    intro client hdr hc t h ht
    rw [hheights t h ht]
    simp only [cs, List.mem_cons, List.mem_singleton] at hc
    rcases hc with hc | hc | hc <;> cases hc
    decide
  exact ⟨hinv, hserver, run_tipAbove _ _ _ cs ⟨c, false⟩ hinv hserver⟩

end Runs

/-- Two `address()` calls in a release build from `last_index = u32::MAX - 1`: the first takes
index `u32::MAX`, the second wraps to index `0`, and both succeed (the descriptor has no
wildcard, so every index derives). -/
theorem address_index_wraps :
    let w : ElectrumWallet := ⟨⟨0, .liquid⟩, ⟨.slip77 0, ⟨.wpkh, [⟨1, false⟩]⟩⟩⟩
    let s : Store := ⟨⟨HashMap.empty, HashMap.empty, HashMap.empty, 4294967294, (0, 0)⟩, false⟩
    (run (fun _ => .ok []) .release w [.address, .address] s).map (fun rs => (rs.1, rs.2.cache.lastIndex)) =
      [(.address (.ok ⟨.liquid, .slip77 0, ⟨.wpkh, [⟨1, none⟩]⟩⟩), 4294967295),
        (.address (.ok ⟨.liquid, .slip77 0, ⟨.wpkh, [⟨1, none⟩]⟩⟩), 0)] := by
  decide

/-- A lagging server: the store records a confirmation at height 100 under the tip at 100,
the server reports height 50 to `sync_tip()`, and the tip drops below the confirmation. -/
theorem syncTip_lagging_server_breaks_tipAbove :
    let c : Cache := ⟨HashMap.empty, HashMap.empty, ⟨[(1, some 100)], by decide⟩, 0, (100, 0)⟩
    TipAbove c ∧ ¬ ∀ rs ∈ run (fun _ => .ok []) .release ⟨⟨0, .liquid⟩, ⟨.slip77 0, ⟨.wpkh, []⟩⟩⟩
      [.syncTip true (.ok ⟨50, ⟨some ⟨50, 7⟩⟩⟩)] ⟨c, false⟩, TipAbove rs.2.cache := by
  intro c
  refine ⟨fun t h ht => ?_, fun h => absurd (h _ (List.mem_singleton_self _) 1 100 (by decide)) (by decide)⟩
  simp only [c, HashMap.get?, HashMap.lookup_cons_ite] at ht
  split_ifs at ht <;> simp_all

end ElectrumWallet

end Lwk
