import Lwk.Wallet.Utxos

/-!
# `balance()`

`balance()` seeds a `u64` map with the policy asset at `0` and adds the value of each UTXO
to its asset's entry with `+=`. A release build wraps each sum modulo `2^64`; a debug build
panics at the first `+=` that overflows. So the map is each asset's exact total modulo
`2^64`, and a debug build panics exactly when some asset's exact total reaches `2^64`.
-/

namespace Lwk

/-- One turn of `balance()`'s loop: `*result.entry(asset).or_default() += value`. -/
def addUtxo (p : Profile) (result : HashMap AssetId (BitVec 64)) (u : UnblindedTXO) :
    Option (HashMap AssetId (BitVec 64)) :=
  (p.addAssign ((result.get? u.unblinded.asset).getD 0) u.unblinded.value).map
    (result.insert u.unblinded.asset)

/-- `balance()`'s loop over the UTXOs; an overflowing `+=` panics in a debug build. -/
def sumByAsset (p : Profile) : HashMap AssetId (BitVec 64) → List UnblindedTXO →
    Outcome (HashMap AssetId (BitVec 64))
  | result, [] => .ok result
  | result, u :: us => match addUtxo p result u with
    | some result => sumByAsset p result us
    | none => .panic addOverflowMsg

/-- The exact sum of the values of asset `a` among `us`. -/
def assetSum (us : List UnblindedTXO) (a : AssetId) : Nat :=
  (us.filter fun u => u.unblinded.asset = a).foldr (fun u n => u.unblinded.value.toNat + n) 0

/-- The exact total of asset `a` once the values of `us` are added to `result`'s entry. -/
def assetTotal (result : HashMap AssetId (BitVec 64)) (us : List UnblindedTXO) (a : AssetId) : Nat :=
  ((result.get? a).getD 0).toNat + assetSum us a

@[simp] theorem assetSum_nil (a : AssetId) : assetSum [] a = 0 := rfl

@[simp] theorem assetSum_cons (u : UnblindedTXO) (us : List UnblindedTXO) (a : AssetId) :
    assetSum (u :: us) a =
      (if u.unblinded.asset = a then u.unblinded.value.toNat else 0) + assetSum us a := by
  unfold assetSum
  split <;> simp_all [List.filter_cons]

theorem assetTotal_insert (result : HashMap AssetId (BitVec 64)) (us : List UnblindedTXO)
    (b : AssetId) (x : BitVec 64) (a : AssetId) :
    assetTotal (result.insert b x) us a =
      if a = b then x.toNat + assetSum us a else assetTotal result us a := by
  unfold assetTotal
  rw [HashMap.get?_insert]
  split <;> rfl

theorem ofNat_add_toNat (x y : BitVec 64) (n : Nat) :
    BitVec.ofNat 64 ((x + y).toNat + n) = BitVec.ofNat 64 (x.toNat + (y.toNat + n)) := by
  apply BitVec.eq_of_toNat_eq
  simp only [BitVec.toNat_ofNat, BitVec.toNat_add, Nat.mod_add_mod, Nat.add_assoc]

/-- One turn of the loop panics exactly on a debug overflow, and otherwise stores the
wrapping sum under the output's asset. -/
theorem addUtxo_cases (p : Profile) (result : HashMap AssetId (BitVec 64)) (u : UnblindedTXO) :
    (addUtxo p result u = none ∧ p = .debug ∧
      2 ^ 64 ≤ ((result.get? u.unblinded.asset).getD 0).toNat + u.unblinded.value.toNat) ∨
    (addUtxo p result u = some (result.insert u.unblinded.asset
        ((result.get? u.unblinded.asset).getD 0 + u.unblinded.value)) ∧
      (p = .debug → ((result.get? u.unblinded.asset).getD 0 + u.unblinded.value).toNat =
        ((result.get? u.unblinded.asset).getD 0).toNat + u.unblinded.value.toNat)) := by
  unfold addUtxo
  cases h : p.addAssign ((result.get? u.unblinded.asset).getD 0) u.unblinded.value with
  | none => exact .inl ⟨rfl, Profile.addAssign_eq_none.1 h⟩
  | some c =>
    obtain ⟨rfl, hexact⟩ := Profile.addAssign_eq_some h
    exact .inr ⟨rfl, hexact⟩

/-- The loop never returns `Err`: it returns the map or panics on overflow. -/
theorem sumByAsset_ok_or_panic (p : Profile) : ∀ result us,
    (∃ m, sumByAsset p result us = .ok m) ∨ sumByAsset p result us = .panic addOverflowMsg
  | result, [] => .inl ⟨result, rfl⟩
  | result, u :: us => by
    rcases addUtxo_cases p result u with ⟨h, -⟩ | ⟨h, -⟩
    · exact .inr (by simp [sumByAsset, h])
    · simpa [sumByAsset, h] using sumByAsset_ok_or_panic p _ us

/-- The loop panics exactly when, in a debug build, some asset's exact total reaches `2^64`:
running sums only grow, so the first one to overflow belongs to such an asset. -/
theorem sumByAsset_eq_panic_iff (p : Profile) : ∀ result us,
    sumByAsset p result us = .panic addOverflowMsg ↔ p = .debug ∧ ∃ a, 2 ^ 64 ≤ assetTotal result us a
  | result, [] => by
    simp only [sumByAsset, reduceCtorEq, false_iff, not_and, not_exists, not_le]
    exact fun _ a => by simpa [assetTotal] using ((result.get? a).getD 0).isLt
  | result, u :: us => by
    rcases addUtxo_cases p result u with ⟨h, hp, hov⟩ | ⟨h, hexact⟩
    · simp only [sumByAsset, h, true_iff]
      refine ⟨hp, u.unblinded.asset, ?_⟩
      simp only [assetTotal, assetSum_cons, ite_true]
      omega
    · simp only [sumByAsset, h, sumByAsset_eq_panic_iff p _ us]
      refine and_congr_right fun hp => exists_congr fun a => ?_
      have := hexact hp
      rw [assetTotal_insert]
      split_ifs with ha
      · subst ha
        simp only [assetTotal, assetSum_cons, ite_true]
        omega
      · simp [assetTotal, Ne.symm ha]

/-- **`balance()`'s loop.** When it returns, each asset present in `result` or among `us`
holds its exact total modulo `2^64`, and no other asset appears. -/
theorem get?_sumByAsset (p : Profile) : ∀ result us m, sumByAsset p result us = .ok m → ∀ a,
    m.get? a = if a ∈ result.keys ∨ a ∈ us.map (·.unblinded.asset)
      then some (BitVec.ofNat 64 (assetTotal result us a)) else none
  | result, [], m, h, a => by
    simp only [sumByAsset, Outcome.ok.injEq] at h
    subst h
    cases hg : result.get? a <;> simp [assetTotal, hg, HashMap.mem_keys_iff]
  | result, u :: us, m, h, a => by
    rcases addUtxo_cases p result u with ⟨h', -⟩ | ⟨h', -⟩
    · simp [sumByAsset, h'] at h
    · simp only [sumByAsset, h'] at h
      have hcond : (a ∈ (result.insert u.unblinded.asset
            ((result.get? u.unblinded.asset).getD 0 + u.unblinded.value)).keys ∨
          a ∈ us.map (·.unblinded.asset)) ↔ a ∈ result.keys ∨ a ∈ (u :: us).map (·.unblinded.asset) := by
        simp only [HashMap.mem_keys_insert, List.map_cons, List.mem_cons]
        tauto
      rw [get?_sumByAsset p _ us m h a, assetTotal_insert]
      simp only [hcond]
      by_cases ha : a = u.unblinded.asset
      · subst ha
        simp only [ite_true, assetTotal, assetSum_cons, ofNat_add_toNat]
      · simp only [if_neg ha, assetTotal, assetSum_cons, if_neg (Ne.symm ha), Nat.zero_add]

namespace ElectrumWallet

section Snapshot

variable (spent : Cache → Except Error (List OutPoint))

/-- `balance()`. -/
def balance (p : Profile) (w : ElectrumWallet) (s : Store) : Outcome (HashMap AssetId (BitVec 64)) := do
  let result := HashMap.empty.orInsert w.config.policyAsset 0
  let us ← utxos spent s
  sumByAsset p result us

/-- **`balance()`.** On a snapshot where `utxos()` returns `us`: a debug build panics exactly
when some asset's values among `us` sum to `2^64` or more, and `Err` never comes from the loop;
otherwise the map holds the policy asset and each asset of `us`, and nothing else, each with
the sum of its values modulo `2^64`. -/
theorem balance_spec (p : Profile) (w : ElectrumWallet) {s : Store} {us : List UnblindedTXO}
    (h : utxos spent s = .ok us) :
    (w.balance spent p s = .panic addOverflowMsg ↔ p = .debug ∧ ∃ a, 2 ^ 64 ≤ assetSum us a) ∧
    ((∃ m, w.balance spent p s = .ok m) ∨ w.balance spent p s = .panic addOverflowMsg) ∧
    ∀ m, w.balance spent p s = .ok m → ∀ a, m.get? a =
      if a = w.config.policyAsset ∨ a ∈ us.map (·.unblinded.asset)
      then some (BitVec.ofNat 64 (assetSum us a)) else none := by
  have hb : w.balance spent p s = sumByAsset p (HashMap.empty.orInsert w.config.policyAsset 0) us := by
    simp [balance, h]
  have htotal : ∀ a, assetTotal (HashMap.empty.orInsert w.config.policyAsset 0) us a = assetSum us a := by
    intro a
    by_cases ha : a = w.config.policyAsset <;> simp [assetTotal, ha]
  have hkeys : ∀ a, a ∈ (HashMap.empty.orInsert w.config.policyAsset 0).keys ↔ a = w.config.policyAsset := by
    intro a
    by_cases ha : a = w.config.policyAsset <;> simp [HashMap.mem_keys_iff, ha]
  rw [hb]
  refine ⟨(sumByAsset_eq_panic_iff p _ us).trans (by simp only [htotal]), sumByAsset_ok_or_panic p _ us,
    fun m hm a => ?_⟩
  rw [get?_sumByAsset p _ us m hm a, htotal]
  exact if_congr (or_congr_left (hkeys a)) rfl rfl

/-- One unspent output of 5 units of asset 7, read by `balance_spec` in a debug build. -/
theorem balance_spec_one_output :
    let c : Cache := ⟨⟨[(1, ⟨1, [⟨[]⟩]⟩)], by decide⟩, ⟨[(⟨1, 0⟩, ⟨7, 0, 5, 0⟩)], by decide⟩,
      ⟨[(1, some 1)], by decide⟩, 0, (1, 0)⟩
    let w : ElectrumWallet := ⟨⟨5, .liquid⟩, ⟨.slip77 0, ⟨.wpkh, [⟨0, true⟩]⟩⟩⟩
    let us : List UnblindedTXO := [⟨⟨⟨1, 0⟩, [], some 1⟩, ⟨7, 0, 5, 0⟩⟩]
    utxos (fun _ => .ok []) ⟨c, false⟩ = .ok us ∧
      (w.balance (fun _ => .ok []) .debug ⟨c, false⟩ = .panic addOverflowMsg ↔
        Profile.debug = .debug ∧ ∃ a, 2 ^ 64 ≤ assetSum us a) ∧
      ((∃ m, w.balance (fun _ => .ok []) .debug ⟨c, false⟩ = .ok m) ∨
        w.balance (fun _ => .ok []) .debug ⟨c, false⟩ = .panic addOverflowMsg) ∧
      ∀ m, w.balance (fun _ => .ok []) .debug ⟨c, false⟩ = .ok m → ∀ a, m.get? a =
        if a = w.config.policyAsset ∨ a ∈ us.map (·.unblinded.asset)
        then some (BitVec.ofNat 64 (assetSum us a)) else none := by
  intro c w us
  have hu : utxos (fun _ => .ok []) ⟨c, false⟩ = .ok us := by
    rw [utxos_eq _ (Store.read_of_not_poisoned rfl) rfl]
    have hc : forEachTx c "txos no tx " (txTxos c []) c.heights.entries [] = .ok us := by decide
    rw [hc, Outcome.ok_bind, sortBy_of_pairwise (by decide)]
    rfl
  exact ⟨hu, balance_spec (fun _ => .ok []) .debug w hu⟩

end Snapshot

/-- Two outputs of one asset worth `2^63` each: `utxos()` lists both, and `balance()` reports
`0` for the asset in a release build (the `u64` sum wraps) and panics in a debug build. -/
theorem balance_overflows :
    let out : TxOut := ⟨[]⟩
    let c : Cache := ⟨⟨[(1, ⟨1, [out, out]⟩)], by decide⟩,
      ⟨[(⟨1, 0⟩, ⟨7, 0, 0x8000000000000000#64, 0⟩), (⟨1, 1⟩, ⟨7, 0, 0x8000000000000000#64, 0⟩)], by decide⟩,
      ⟨[(1, some 1)], by decide⟩, 0, (1, 0)⟩
    let w : ElectrumWallet := ⟨⟨5, .liquid⟩, ⟨.slip77 0, ⟨.wpkh, [⟨0, true⟩]⟩⟩⟩
    utxos (fun _ => .ok []) ⟨c, false⟩ =
      .ok [⟨⟨⟨1, 0⟩, [], some 1⟩, ⟨7, 0, 0x8000000000000000#64, 0⟩⟩, ⟨⟨⟨1, 1⟩, [], some 1⟩, ⟨7, 0, 0x8000000000000000#64, 0⟩⟩] ∧
    (fun m => m.get? 7) <$> balance (fun _ => .ok []) .release w ⟨c, false⟩ = .ok (some 0) ∧
    balance (fun _ => .ok []) .debug w ⟨c, false⟩ = .panic addOverflowMsg := by
  intro out c w
  have hu : utxos (fun _ => .ok []) ⟨c, false⟩ =
      .ok [⟨⟨⟨1, 0⟩, [], some 1⟩, ⟨7, 0, 0x8000000000000000#64, 0⟩⟩, ⟨⟨⟨1, 1⟩, [], some 1⟩, ⟨7, 0, 0x8000000000000000#64, 0⟩⟩] := by
    rw [utxos_eq _ (Store.read_of_not_poisoned rfl) rfl]
    have hc : forEachTx c "txos no tx " (txTxos c []) c.heights.entries [] =
        .ok [⟨⟨⟨1, 0⟩, [], some 1⟩, ⟨7, 0, 0x8000000000000000#64, 0⟩⟩, ⟨⟨⟨1, 1⟩, [], some 1⟩, ⟨7, 0, 0x8000000000000000#64, 0⟩⟩] := by
      decide
    rw [hc, Outcome.ok_bind, sortBy_of_pairwise (by decide)]
    rfl
  refine ⟨hu, ?_, ?_⟩ <;> simp only [balance, hu, Outcome.ok_bind] <;> decide

end ElectrumWallet

end Lwk
