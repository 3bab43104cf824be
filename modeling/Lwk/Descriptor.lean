import Lwk.Basic

/-!
# Confidential descriptors and `derive_address`

`wallet.rs`'s `convert_blinding_key` and `derive_address`, over the two calls they make
into elements-miniscript, each modelled by its documented behaviour:
`Descriptor::at_derivation_index` replaces a key's unhardened wildcard `/*` by the child
index and fails with `HardenedChild` on an index of `2^31` or more; and
`ConfidentialDescriptor::address` fails on a `bare` script, which has no address form.
-/

namespace Lwk

/-- A descriptor key (`DescriptorPublicKey`): its key material, and whether it ends in an
unhardened wildcard `/*`. -/
structure DescriptorPublicKey where
  xkey : Nat
  wildcard : Bool
  deriving DecidableEq, Repr

/-- `DefiniteDescriptorKey`: a key whose wildcard, if it had one, is now a child index. -/
structure DefiniteDescriptorKey where
  xkey : Nat
  child : Option (BitVec 32)
  deriving DecidableEq, Repr

/-- `DescriptorSecretKey`, the payload of a `view` blinding key. -/
structure DescriptorSecretKey where
  xprv : Nat
  deriving DecidableEq, Repr

/-- The script templates of `Descriptor<Pk>`. -/
inductive ScriptKind where
  | bare | pkh | wpkh | shWpkh | sh | wsh | tr
  deriving DecidableEq, Repr

/-- `Descriptor<Pk>`: a script template over its keys. -/
structure Descriptor (Pk : Type) where
  kind : ScriptKind
  keys : List Pk
  deriving DecidableEq, Repr

/-- `confidential::Key<Pk>`, the blinding key of a `ct(..)` descriptor: derived from a
SLIP-77 master key, a bare public key, or a view (secret) key. -/
inductive Key (Pk : Type) where
  | slip77 (masterBlindingKey : BitVec 256)
  | bare (pk : Pk)
  | view (sk : DescriptorSecretKey)
  deriving DecidableEq, Repr

/-- The `Bare` variant, which no per-address blinding key can be derived from. -/
def Key.isBare {Pk : Type} : Key Pk → Bool
  | .bare _ => true
  | _ => false

/-- `ConfidentialDescriptor<Pk>`. -/
structure ConfidentialDescriptor (Pk : Type) where
  key : Key Pk
  descriptor : Descriptor Pk
  deriving DecidableEq, Repr

/-- `AddressParams`: the network whose address encoding is used. -/
inductive AddressParams where
  | liquid | liquidTestnet | elements
  deriving DecidableEq, Repr

/-- A confidential `elements::Address`, by what determines it: the network, the
blinding key and the derived script. -/
structure Address where
  params : AddressParams
  blindingKey : Key DefiniteDescriptorKey
  descriptor : Descriptor DefiniteDescriptorKey
  deriving DecidableEq, Repr

/-- `DescriptorPublicKey::at_derivation_index`. -/
def DescriptorPublicKey.atDerivationIndex (k : DescriptorPublicKey) (index : BitVec 32) :
    Outcome DefiniteDescriptorKey :=
  if !k.wildcard then .ok ⟨k.xkey, none⟩
  else if index.toNat < 2 ^ 31 then .ok ⟨k.xkey, some index⟩
  else .err .hardenedChild

/-- A key at an index: its wildcard, if it has one, becomes the index. -/
def DescriptorPublicKey.atIndex (k : DescriptorPublicKey) (index : BitVec 32) : DefiniteDescriptorKey :=
  ⟨k.xkey, if k.wildcard then some index else none⟩

theorem DescriptorPublicKey.atDerivationIndex_eq (k : DescriptorPublicKey) (index : BitVec 32) :
    k.atDerivationIndex index =
      if k.wildcard = true ∧ 2 ^ 31 ≤ index.toNat then .err .hardenedChild else .ok (k.atIndex index) := by
  unfold atDerivationIndex atIndex
  cases k.wildcard with
  | false => simp
  | true =>
    by_cases hi : index.toNat < 2 ^ 31
    · rw [if_neg (by decide), if_pos hi, if_neg (by omega)]
      rfl
    · rw [if_neg (by decide), if_neg hi, if_pos ⟨rfl, by omega⟩]

/-- The keys of a descriptor derived one after the other (`translate_pk` with `Derivator`). -/
def deriveKeys (index : BitVec 32) : List DescriptorPublicKey → Outcome (List DefiniteDescriptorKey)
  | [] => .ok []
  | k :: ks => do
    let k' ← k.atDerivationIndex index
    let ks' ← deriveKeys index ks
    pure (k' :: ks')

/-- `Descriptor::at_derivation_index`. -/
def Descriptor.atDerivationIndex (d : Descriptor DescriptorPublicKey) (index : BitVec 32) :
    Outcome (Descriptor DefiniteDescriptorKey) := do
  let keys ← deriveKeys index d.keys
  pure ⟨d.kind, keys⟩

/-- `ConfidentialDescriptor::address`. -/
def ConfidentialDescriptor.address (d : ConfidentialDescriptor DefiniteDescriptorKey)
    (params : AddressParams) : Outcome Address :=
  if d.descriptor.kind = .bare then .err .bareDescriptorAddr
  else .ok ⟨params, d.key, d.descriptor⟩

/-- `convert_blinding_key`. -/
def convertBlindingKey : Key DescriptorPublicKey → Outcome (Key DefiniteDescriptorKey)
  | .slip77 x => .ok (.slip77 x)
  | .bare _ => .err .blindingBareUnsupported
  | .view x => .ok (.view x)

/-- `derive_address`. -/
def deriveAddress (descriptor : ConfidentialDescriptor DescriptorPublicKey) (index : BitVec 32)
    (addressParams : AddressParams) : Outcome Address := do
  let derivedNonConf ← descriptor.descriptor.atDerivationIndex index
  let key ← convertBlindingKey descriptor.key
  ConfidentialDescriptor.address ⟨key, derivedNonConf⟩ addressParams

/-- A blinding key converts unless it is `Bare`, which is refused with `BlindingBareUnsupported`. -/
theorem convertBlindingKey_eq_err_iff {k : Key DescriptorPublicKey} {e : Error} :
    convertBlindingKey k = .err e ↔ (∃ pk, k = .bare pk) ∧ e = .blindingBareUnsupported := by
  cases k <;> simp [convertBlindingKey, eq_comm]

/-- The derivation loop stops at the first wildcard key when the index is hardened, and
otherwise derives every key at the index. -/
theorem deriveKeys_eq (index : BitVec 32) (ks : List DescriptorPublicKey) :
    deriveKeys index ks =
      if (∃ k ∈ ks, k.wildcard = true) ∧ 2 ^ 31 ≤ index.toNat then .err .hardenedChild
      else .ok (ks.map (·.atIndex index)) := by
  induction ks with
  | nil => simp [deriveKeys]
  | cons k ks ih =>
    rw [deriveKeys, ih, DescriptorPublicKey.atDerivationIndex_eq]
    by_cases hhead : k.wildcard = true ∧ 2 ^ 31 ≤ index.toNat
    · have hall : (∃ k' ∈ k :: ks, k'.wildcard = true) ∧ 2 ^ 31 ≤ index.toNat :=
        ⟨⟨k, List.mem_cons_self _ _, hhead.1⟩, hhead.2⟩
      rw [if_pos hhead, if_pos hall]
      rfl
    by_cases htail : (∃ k ∈ ks, k.wildcard = true) ∧ 2 ^ 31 ≤ index.toNat
    · have hall : (∃ k' ∈ k :: ks, k'.wildcard = true) ∧ 2 ^ 31 ≤ index.toNat :=
        ⟨htail.1.imp fun _ h => ⟨List.mem_cons_of_mem _ h.1, h.2⟩, htail.2⟩
      rw [if_neg hhead, if_pos htail, if_pos hall]
      rfl
    · rw [if_neg hhead, if_neg htail, if_neg ?_]
      · rfl
      rintro ⟨⟨k', hk', hw⟩, hi⟩
      rcases List.mem_cons.1 hk' with rfl | hk'
      · exact hhead ⟨hw, hi⟩
      · exact htail ⟨⟨k', hk', hw⟩, hi⟩

theorem deriveKeys_returns (index : BitVec 32) (ks : List DescriptorPublicKey) :
    (deriveKeys index ks).Returns := by
  rw [deriveKeys_eq]
  split
  · exact Outcome.returns_err _
  · exact Outcome.returns_ok _

/-- `derive_address` returns `Ok` or `Err`; it never panics. -/
theorem deriveAddress_returns (d : ConfidentialDescriptor DescriptorPublicKey) (index : BitVec 32)
    (params : AddressParams) : (deriveAddress d index params).Returns := by
  have derived : (d.descriptor.atDerivationIndex index).Returns :=
    (deriveKeys_returns index _).bind fun _ _ => Outcome.returns_ok _
  refine derived.bind fun _ _ => Outcome.Returns.bind ?_ fun _ _ => ?_
  · cases d.key <;> simp [convertBlindingKey]
  · unfold ConfidentialDescriptor.address
    split_ifs <;> simp

/-- **`derive_address`.** It returns an address exactly when no wildcard key meets a hardened
index, the blinding key is not `Bare` and the script is not bare; the address is for the
given network, with the converted blinding key and each wildcard of the descriptor set to the
index. -/
theorem deriveAddress_eq_ok_iff {d : ConfidentialDescriptor DescriptorPublicKey} {index : BitVec 32}
    {params : AddressParams} {a : Address} :
    deriveAddress d index params = .ok a ↔
      ¬ ((∃ k ∈ d.descriptor.keys, k.wildcard = true) ∧ 2 ^ 31 ≤ index.toNat) ∧
      convertBlindingKey d.key = .ok a.blindingKey ∧ d.descriptor.kind ≠ .bare ∧
      a = ⟨params, a.blindingKey, ⟨d.descriptor.kind, d.descriptor.keys.map (·.atIndex index)⟩⟩ := by
  unfold deriveAddress Descriptor.atDerivationIndex
  rw [deriveKeys_eq]
  by_cases hh : (∃ k ∈ d.descriptor.keys, k.wildcard = true) ∧ 2 ^ 31 ≤ index.toNat
  · rw [if_pos hh, Outcome.err_bind]
    exact ⟨nofun, fun h => absurd hh h.1⟩
  rw [if_neg hh]
  cases hk : convertBlindingKey d.key with
  | ok key =>
    by_cases hb : d.descriptor.kind = .bare
    · simp [hb, ConfidentialDescriptor.address]
    · simp only [Outcome.ok_bind, Outcome.pure_eq, ConfidentialDescriptor.address, if_neg hb,
        Outcome.ok.injEq]
      constructor
      · rintro rfl
        exact ⟨hh, rfl, hb, rfl⟩
      · rintro ⟨-, hkey, -, ha⟩
        rw [ha, ← hkey]
  | err e => simp
  | panic m => simp

/-- With a wildcard key, distinct indices derive distinct addresses. -/
theorem deriveAddress_index_eq {d : ConfidentialDescriptor DescriptorPublicKey} {params : AddressParams}
    {i j : BitVec 32} {a : Address} (hw : ∃ k ∈ d.descriptor.keys, k.wildcard = true)
    (hi : deriveAddress d i params = .ok a) (hj : deriveAddress d j params = .ok a) : i = j := by
  obtain ⟨k, hk, hwk⟩ := hw
  have hi' := congrArg (·.descriptor.keys) (deriveAddress_eq_ok_iff.1 hi).2.2.2
  have hj' := congrArg (·.descriptor.keys) (deriveAddress_eq_ok_iff.1 hj).2.2.2
  have hk' := List.map_inj_left.1 (hi'.symm.trans hj') k hk
  simpa [DescriptorPublicKey.atIndex, hwk] using hk'

/-- Without a wildcard key, every index that derives derives the same address. -/
theorem deriveAddress_eq_of_no_wildcard {d : ConfidentialDescriptor DescriptorPublicKey}
    {params : AddressParams} {i j : BitVec 32} {a b : Address}
    (hw : ∀ k ∈ d.descriptor.keys, k.wildcard = false)
    (hi : deriveAddress d i params = .ok a) (hj : deriveAddress d j params = .ok b) : a = b := by
  obtain ⟨-, hka, -, ha⟩ := deriveAddress_eq_ok_iff.1 hi
  obtain ⟨-, hkb, -, hb⟩ := deriveAddress_eq_ok_iff.1 hj
  have hkey : a.blindingKey = b.blindingKey := Outcome.ok.inj (hka.symm.trans hkb)
  have hkeys : d.descriptor.keys.map (·.atIndex i) = d.descriptor.keys.map (·.atIndex j) :=
    List.map_inj_left.2 fun k hk => by simp [DescriptorPublicKey.atIndex, hw k hk]
  rw [ha, hb, hkey, hkeys]

end Lwk
