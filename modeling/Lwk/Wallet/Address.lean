import Lwk.Descriptor
import Lwk.Store

/-!
# `address()`, `sync_tip()` and `tip()`

The three `ElectrumWallet` calls that touch the store's counters. `address()` bumps
`last_index` in a scoped block under the write lock and derives the address after the
lock is released, so a failed derivation still consumes the index; `+= 1` is a `u32`
addition, which wraps in a release build and panics (poisoning the lock) in a debug one.
`sync_tip()` reads the stored tip, and overwrites it only when the server reports a
different height.
-/

namespace Lwk

/-- `Config`, by the fields the wallet reads: the network's policy asset and address encoding. -/
structure Config where
  policyAsset : AssetId
  addressParams : AddressParams
  deriving DecidableEq, Repr

/-- `ElectrumWallet`, without its `store`: the store is shared, and each call takes it as state. -/
structure ElectrumWallet where
  config : Config
  descriptor : ConfidentialDescriptor DescriptorPublicKey
  deriving DecidableEq, Repr

/-- The scoped block of `address()`: under the write lock, `last_index += 1`, read back.
An overflow panic in a debug build happens with the lock held, and poisons it. -/
def Store.bumpLastIndex (p : Profile) (s : Store) : Outcome (BitVec 32) × Store :=
  if s.poisoned then (.err .poison, s)
  else match p.addAssign s.cache.lastIndex 1 with
    | some pointer => (.ok pointer, { s with cache := { s.cache with lastIndex := pointer } })
    | none => (.panic addOverflowMsg, { s with poisoned := true })

/-- A server's answer to `block_headers_subscribe_raw()`: a height (`usize`) and header bytes. -/
structure RawHeaderNotification where
  height : Nat
  header : Raw BlockHeader
  deriving DecidableEq, Repr

namespace ElectrumWallet

/-- `self.derive_address(index)`. -/
def deriveAddress (w : ElectrumWallet) (index : BitVec 32) : Outcome Address :=
  Lwk.deriveAddress w.descriptor index w.config.addressParams

/-- `address()`. -/
def address (p : Profile) (w : ElectrumWallet) (s : Store) : Outcome Address × Store :=
  let (pointer, s') := s.bumpLastIndex p
  (pointer >>= w.deriveAddress, s')

/-- `sync_tip()` up to its write: the tip to store, if the reported height (`as u32`)
differs from the stored one. -/
def tipUpdate (header : Except Error RawHeaderNotification) (s : Store) :
    Outcome (Option (BitVec 32 × BlockHash)) := do
  let header ← Outcome.ofExcept header
  let height := BitVec.ofNat 32 header.height
  let c ← s.read
  if height ≠ c.tip.1 then
    let blockHeader ← deserialize header.header
    pure (some (height, blockHeader.blockHash))
  else pure none

/-- `sync_tip()`, given whether `build_client()` succeeded and the server's answer. -/
def syncTip (client : Bool) (header : Except Error RawHeaderNotification) (s : Store) :
    Outcome Unit × Store :=
  if client then
    match tipUpdate header s with
    | .ok (some tip) => (.ok (), { s with cache := { s.cache with tip := tip } })
    | .ok none => (.ok (), s)
    | .err e => (.err e, s)
    | .panic m => (.panic m, s)
  else (.ok (), s)

/-- `tip()`. -/
def tip (s : Store) : Outcome (BitVec 32 × BlockHash) := do
  let c ← s.read
  pure c.tip

/-! ## `address()` -/

/-- What `address()` can do, in three cases: fail on a poisoned lock and change nothing;
commit the increment and return the derivation at the new index; or, in a debug build at
`u32::MAX`, panic and poison the lock. -/
theorem address_cases (p : Profile) (w : ElectrumWallet) (s : Store) :
    (s.poisoned = true ∧ w.address p s = (.err .poison, s)) ∨
    (s.poisoned = false ∧ ∃ pointer, p.addAssign s.cache.lastIndex 1 = some pointer ∧
      w.address p s = (w.deriveAddress pointer,
        { s with cache := { s.cache with lastIndex := pointer } })) ∨
    (s.poisoned = false ∧ p.addAssign s.cache.lastIndex 1 = none ∧
      w.address p s = (.panic addOverflowMsg, { s with poisoned := true })) := by
  unfold address Store.bumpLastIndex
  cases hs : s.poisoned
  · cases hp : p.addAssign s.cache.lastIndex 1 <;> simp
  · simp

/-- `address()` panics only where `+= 1` overflows in a debug build. -/
theorem address_panic {p : Profile} {w : ElectrumWallet} {s : Store} {m : String}
    (h : (w.address p s).1 = .panic m) :
    p = .debug ∧ s.cache.lastIndex = BitVec.allOnes 32 ∧ (w.address p s).2.poisoned = true := by
  rcases address_cases p w s with ⟨-, hr⟩ | ⟨-, q, -, hr⟩ | ⟨-, hq, hr⟩
  · simp [hr] at h
  · exact absurd (by simpa [hr] using h) (deriveAddress_returns _ q _ m)
  · obtain ⟨rfl, hov⟩ := Profile.addAssign_eq_none.1 hq
    have := s.cache.lastIndex.isLt
    refine ⟨rfl, BitVec.eq_of_toNat_eq ?_, by simp [hr]⟩
    simp only [BitVec.toNat_allOnes, BitVec.ofNat_eq_ofNat, BitVec.toNat_ofNat] at hov ⊢
    omega

/-- **`address()` is not atomic.** An `Err` comes either from a poisoned lock, which
leaves the store as it was, or from the derivation, after the increment was committed;
an `Ok(a)` is the derivation at `last_index + 1` (in `u32` arithmetic, exactly one more
in a debug build), now stored. -/
theorem address_atomicity (p : Profile) (w : ElectrumWallet) (s : Store) :
    (∀ e, (w.address p s).1 = .err e →
      (s.poisoned = true ∧ e = .poison ∧ (w.address p s).2 = s) ∨
      ((w.address p s).2.cache.lastIndex = s.cache.lastIndex + 1 ∧
        w.deriveAddress (s.cache.lastIndex + 1) = .err e)) ∧
    (∀ a, (w.address p s).1 = .ok a →
      (w.address p s).2.cache.lastIndex = s.cache.lastIndex + 1 ∧
      (p = .debug → (w.address p s).2.cache.lastIndex.toNat = s.cache.lastIndex.toNat + 1) ∧
      w.deriveAddress (s.cache.lastIndex + 1) = .ok a) := by
  rcases address_cases p w s with ⟨hs, hr⟩ | ⟨-, q, hq, hr⟩ | ⟨-, -, hr⟩
  · simp [hr, hs]
  · obtain ⟨rfl, hexact⟩ := Profile.addAssign_eq_some hq
    rw [hr]
    exact ⟨fun e he => .inr ⟨rfl, he⟩, fun a ha => ⟨rfl, hexact, ha⟩⟩
  · simp [hr]

/-- A wildcard descriptor in a debug build at `last_index = 4`: `address()` returns the
address at index 5, and stores 5. -/
theorem address_atomicity_wildcard :
    let w : ElectrumWallet := ⟨⟨0, .liquid⟩, ⟨.slip77 0, ⟨.wpkh, [⟨1, true⟩]⟩⟩⟩
    let s : Store := ⟨⟨HashMap.empty, HashMap.empty, HashMap.empty, 4, (0, 0)⟩, false⟩
    let a : Address := ⟨.liquid, .slip77 0, ⟨.wpkh, [⟨1, some 5⟩]⟩⟩
    (w.address .debug s).1 = .ok a ∧
      ((w.address .debug s).2.cache.lastIndex = s.cache.lastIndex + 1 ∧
        (Profile.debug = .debug →
          (w.address .debug s).2.cache.lastIndex.toNat = s.cache.lastIndex.toNat + 1) ∧
        w.deriveAddress (s.cache.lastIndex + 1) = .ok a) := by
  intro w s a
  have h : (w.address .debug s).1 = .ok a := by decide
  exact ⟨h, (address_atomicity .debug w s).2 a h⟩

/-- A `Bare` blinding key: `address()` fails with `BlindingBareUnsupported` and still
consumes index 1. -/
theorem address_bare_consumes_index :
    let w : ElectrumWallet := ⟨⟨0, .liquid⟩, ⟨.bare ⟨2, false⟩, ⟨.wpkh, [⟨1, false⟩]⟩⟩⟩
    let s : Store := ⟨⟨HashMap.empty, HashMap.empty, HashMap.empty, 0, (0, 0)⟩, false⟩
    (w.address .release s).1 = .err .blindingBareUnsupported ∧
      (w.address .release s).2.cache.lastIndex = 1 := by
  decide

/-! ## `sync_tip()` -/

/-- What `sync_tip()` does to the store: nothing, or, when the server's header decodes and
its height (`as u32`) differs from the stored one, it stores that height with the header's hash. -/
theorem syncTip_cases (client : Bool) (header : Except Error RawHeaderNotification) (s : Store) :
    (syncTip client header s).2 = s ∨
    ∃ hdr B, client = true ∧ header = .ok hdr ∧ s.poisoned = false ∧
      hdr.header.decoded = some B ∧ BitVec.ofNat 32 hdr.height ≠ s.cache.tip.1 ∧
      syncTip client header s =
        (.ok (), { s with cache := { s.cache with tip := (BitVec.ofNat 32 hdr.height, B.blockHash) } }) := by
  unfold syncTip
  cases client
  · simp
  cases header with
  | error e => simp [tipUpdate]
  | ok hdr =>
    cases hs : s.poisoned
    · by_cases hh : BitVec.ofNat 32 hdr.height = s.cache.tip.1
      · simp [tipUpdate, hs, hh]
      · cases hd : hdr.header.decoded with
        | none => simp [tipUpdate, hs, hh, deserialize, hd]
        | some B => exact .inr ⟨hdr, B, rfl, rfl, rfl, hd, hh, by simp [tipUpdate, hs, hh, deserialize, hd]⟩
    · simp [tipUpdate, hs]

/-- A `sync_tip()` that obtains a header of a height (`as u32`) other than the stored one,
decoding to `B`, and returns `Ok`, stores that height with `B`'s hash. -/
theorem syncTip_sets_tip {s : Store} {hdr : RawHeaderNotification} {B : BlockHeader}
    (hB : hdr.header.decoded = some B) (hne : BitVec.ofNat 32 hdr.height ≠ s.cache.tip.1)
    (hok : (syncTip true (.ok hdr) s).1 = .ok ()) :
    (syncTip true (.ok hdr) s).2.cache.tip = (BitVec.ofNat 32 hdr.height, B.blockHash) := by
  cases hs : s.poisoned
  · simp [syncTip, tipUpdate, hs, hne, deserialize, hB]
  · simp [syncTip, tipUpdate, hs] at hok

/-- **The tip after `sync_tip()`.** When `sync_tip()` obtains a header of height `h` that
decodes to `B` and returns `Ok`, the stored tip is `(h as u32, B.block_hash())` if that
height differs from the stored one, and is left as it was otherwise, whatever `B`'s hash. -/
theorem syncTip_tip (s : Store) (hdr : RawHeaderNotification) (B : BlockHeader)
    (hB : hdr.header.decoded = some B) (hok : (syncTip true (.ok hdr) s).1 = .ok ()) :
    (syncTip true (.ok hdr) s).2.cache.tip =
      if BitVec.ofNat 32 hdr.height = s.cache.tip.1 then s.cache.tip
      else (BitVec.ofNat 32 hdr.height, B.blockHash) := by
  cases hs : s.poisoned
  · by_cases hh : BitVec.ofNat 32 hdr.height = s.cache.tip.1 <;>
      simp [syncTip, tipUpdate, hs, hh, deserialize, hB]
  · simp [syncTip, tipUpdate, hs] at hok

theorem syncTip_tip_moved :
    let s : Store := ⟨⟨HashMap.empty, HashMap.empty, HashMap.empty, 0, (5, 1)⟩, false⟩
    let hdr : RawHeaderNotification := ⟨7, ⟨some ⟨7, 9⟩⟩⟩
    hdr.header.decoded = some ⟨7, 9⟩ ∧ (syncTip true (.ok hdr) s).1 = .ok () ∧
      (syncTip true (.ok hdr) s).2.cache.tip =
        if BitVec.ofNat 32 hdr.height = s.cache.tip.1 then s.cache.tip
        else (BitVec.ofNat 32 hdr.height, (⟨7, 9⟩ : BlockHeader).blockHash) :=
  ⟨rfl, by decide, syncTip_tip _ _ ⟨7, 9⟩ rfl (by decide)⟩

/-- A reorg that keeps the height: the server reports height 5 with a header of hash 2,
`sync_tip()` returns `Ok`, and the stored tip `(5, 1)` stays. -/
theorem syncTip_keeps_stale_hash :
    let s : Store := ⟨⟨HashMap.empty, HashMap.empty, HashMap.empty, 0, (5, 1)⟩, false⟩
    let hdr : RawHeaderNotification := ⟨5, ⟨some ⟨5, 2⟩⟩⟩
    (syncTip true (.ok hdr) s).1 = .ok () ∧ (syncTip true (.ok hdr) s).2.cache.tip = (5, 1) := by
  decide

end ElectrumWallet

end Lwk
