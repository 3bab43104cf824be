import Lwk.Wallet.Address

/-!
# `inner_new` and `sync_txs()`

`inner_new` parses the descriptor and opens the store; it checks nothing of the blinding
key. `sync_txs()` first builds the syncer, whose blinding key comes from
`descriptor_blinding_key()`: `convert_blinding_key(..).expect(..)`, a panic on a `Bare` key.
What the sync pass (`Syncer::sync`) then returns is only logged, so `sync_txs()` returns
`Ok(())` once it gets past the key; the pass's effect on the store is the syncer's.
-/

namespace Lwk

namespace ElectrumWallet

/-- `inner_new(config, desc)`, given what `ConfidentialDescriptor::from_str(desc)` returns,
whether the data directory exists or is created, and what `new_store` returns. -/
def innerNew (config : Config) (parsed : Except Error (ConfidentialDescriptor DescriptorPublicKey))
    (createDir : Except Error Unit)
    (newStore : ConfidentialDescriptor DescriptorPublicKey → Except Error Store) :
    Outcome (ElectrumWallet × Store) := do
  let descriptor ← Outcome.ofExcept parsed
  Outcome.ofExcept createDir
  let store ← Outcome.ofExcept (newStore descriptor)
  pure (⟨config, descriptor⟩, store)

/-- `ElectrumWallet::new`, given what `Config::new` returns for the network, URL, TLS flags and
data root, and the arguments of `inner_new`. -/
def new (config : Except Error Config)
    (parsed : Except Error (ConfidentialDescriptor DescriptorPublicKey)) (createDir : Except Error Unit)
    (newStore : ConfidentialDescriptor DescriptorPublicKey → Except Error Store) :
    Outcome (ElectrumWallet × Store) := do
  let config ← Outcome.ofExcept config
  innerNew config parsed createDir newStore

/-- The message of `descriptor_blinding_key()`'s `expect`, followed by the error's `Debug`. -/
def bareKeyPanicMsg : String := "No private blinding keys for bare variant: BlindingBareUnsupported"

/-- `descriptor_blinding_key()`. -/
def descriptorBlindingKey (w : ElectrumWallet) : Outcome (Key DefiniteDescriptorKey) :=
  match convertBlindingKey w.descriptor.key with
  | .ok key => .ok key
  | _ => .panic bareKeyPanicMsg

/-- `sync_txs()`, up to the sync pass, whose result is only logged. -/
def syncTxs (w : ElectrumWallet) : Outcome Unit := do
  let _descriptorBlindingKey ← w.descriptorBlindingKey
  pure ()

/-- `inner_new` accepts every descriptor that parses, whatever its blinding key, once the
directory and the store are there. -/
theorem innerNew_eq_ok {config : Config} {d : ConfidentialDescriptor DescriptorPublicKey}
    {newStore : ConfidentialDescriptor DescriptorPublicKey → Except Error Store} {s : Store}
    (hs : newStore d = .ok s) : innerNew config (.ok d) (.ok ()) newStore = .ok (⟨config, d⟩, s) := by
  simp [innerNew, hs]

/-- `sync_txs()` panics exactly on a wallet whose descriptor has a `Bare` blinding key, and
otherwise returns `Ok(())`. -/
theorem syncTxs_eq (w : ElectrumWallet) :
    w.syncTxs = if w.descriptor.key.isBare then .panic bareKeyPanicMsg else .ok () := by
  cases h : w.descriptor.key <;> simp [syncTxs, descriptorBlindingKey, convertBlindingKey, Key.isBare, h]

/-- A `ct(..)` descriptor with a bare public key as blinding key: `inner_new` accepts it, and
`sync_txs()` on the new wallet panics. -/
theorem syncTxs_panics_after_innerNew :
    let d : ConfidentialDescriptor DescriptorPublicKey := ⟨.bare ⟨2, false⟩, ⟨.wpkh, [⟨1, true⟩]⟩⟩
    let s : Store := ⟨⟨HashMap.empty, HashMap.empty, HashMap.empty, 0, (0, 0)⟩, false⟩
    innerNew ⟨0, .liquid⟩ (.ok d) (.ok ()) (fun _ => .ok s) = .ok (⟨⟨0, .liquid⟩, d⟩, s) ∧
      (⟨⟨0, .liquid⟩, d⟩ : ElectrumWallet).syncTxs = .panic bareKeyPanicMsg := by
  decide

end ElectrumWallet

end Lwk
