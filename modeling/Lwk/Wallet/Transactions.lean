import Lwk.Wallet.Utxos

/-!
# `transactions()`

The `(txid, height)` entries of `heights` are sorted first, by height, largest first, with
`None` read as `u32::MAX`, and on equal heights by txid, largest first; the bodies are
then looked up in that order. Reading `None` as `u32::MAX` puts an unconfirmed entry
level with a confirmed one at height `u32::MAX`, and the txid decides between them.

Both calls walk the same `heights` map and fail on the same missing body, so on one snapshot
every output `utxos()` returns belongs to a transaction `transactions()` lists, at the height
it lists it (`utxos_from_transactions`).
-/

namespace Lwk

/-- `height.unwrap_or(u32::MAX)`: the height an entry is sorted by. -/
def sortHeight (e : Txid × Option (BitVec 32)) : Nat := (e.2.getD (BitVec.allOnes 32)).toNat

/-- The comparator of `transactions()`'s `sort_by`. -/
def heightDesc (a b : Txid × Option (BitVec 32)) : Ordering :=
  match compare (sortHeight b) (sortHeight a) with
  | .eq => compare b.1.toNat a.1.toNat
  | h => h

theorem heightDesc_ne_gt {a b : Txid × Option (BitVec 32)} :
    heightDesc a b ≠ .gt ↔
      sortHeight b < sortHeight a ∨ (sortHeight b = sortHeight a ∧ b.1.toNat ≤ a.1.toNat) := by
  unfold heightDesc
  rcases Nat.lt_trichotomy (sortHeight b) (sortHeight a) with h | h | h
  · rw [Nat.compare_eq_lt.2 h]; simp [h]
  · rw [Nat.compare_eq_eq.2 h]; simp [h, Nat.compare_eq_gt]
  · rw [Nat.compare_eq_gt.2 h]; simp [Nat.lt_asymm h, Nat.ne_of_gt h]

namespace ElectrumWallet

/-- `transactions()`. -/
def transactions (s : Store) : Outcome (List (Transaction × Option (BitVec 32))) := do
  let storeRead ← s.read
  let myTxids := sortBy heightDesc storeRead.heights.entries
  forEachTx storeRead "list_tx no tx " (fun tx height => [(tx, height)]) myTxids []

theorem forall₂_collected_single {c : Cache} :
    ∀ {l : List (Txid × Option (BitVec 32))}, (∀ e ∈ l, c.allTxs.get? e.1 ≠ none) →
      List.Forall₂ (fun e r => c.allTxs.get? e.1 = some r.1 ∧ r.2 = e.2) l
        (collected c (fun tx height => [(tx, height)]) l)
  | [], _ => .nil
  | e :: l, hb => by
    obtain ⟨tx, htx⟩ := Option.ne_none_iff_exists'.1 (hb e (List.mem_cons_self _ _))
    have ih := forall₂_collected_single fun e he => hb e (List.mem_cons_of_mem _ he)
    simp only [collected, List.flatMap_cons, htx, Option.map_some', Option.getD_some,
      List.singleton_append] at ih ⊢
    exact .cons ⟨htx, rfl⟩ ih

/-- **`transactions()`.** An `Err` exactly when a txid of `heights` has no body; otherwise
each entry of `heights`, once, with its body, ordered by height, largest first, with `None`
read as `u32::MAX`, and on equal heights by txid, largest first. -/
theorem transactions_spec {s : Store} {c : Cache} (hread : s.read = .ok c) :
    ((∃ e, transactions s = .err e) ↔ ∃ t ∈ c.heights.keys, c.allTxs.get? t = none) ∧
    ((∀ t ∈ c.heights.keys, c.allTxs.get? t ≠ none) →
      ∃ l, l.Perm c.heights.entries ∧
        l.Pairwise (fun a b => sortHeight b < sortHeight a ∨ (sortHeight b = sortHeight a ∧ b.1 < a.1)) ∧
        ∃ txs, transactions s = .ok txs ∧
          List.Forall₂ (fun e r => c.allTxs.get? e.1 = some r.1 ∧ r.2 = e.2) l txs) := by
  have hperm := sortBy_perm heightDesc c.heights.entries
  have hrun : transactions s = forEachTx c "list_tx no tx " (fun tx height => [(tx, height)])
      (sortBy heightDesc c.heights.entries) [] := by
    simp [transactions, hread]
  refine ⟨?_, fun hb => ⟨_, hperm, ?_,
    collected c (fun tx height => [(tx, height)]) (sortBy heightDesc c.heights.entries), ?_⟩⟩
  · rw [hrun, forEachTx_err_iff]
    exact exists_congr fun t => and_congr_left fun _ => (hperm.map Prod.fst).mem_iff
  · have hne : (sortBy heightDesc c.heights.entries).Pairwise fun a b => a.1 ≠ b.1 :=
      List.pairwise_map.1 ((hperm.map Prod.fst).nodup_iff.2 c.heights.nodup)
    refine ((sortBy_pairwise ?_ ?_ _).and hne).imp fun {a b} ⟨h, hab⟩ => ?_
    · intro a b c hab hbc
      rw [heightDesc_ne_gt] at *
      omega
    · intro a b
      rw [heightDesc_ne_gt, heightDesc_ne_gt]
      omega
    · have : a.1.toNat ≠ b.1.toNat := fun h => hab (BitVec.eq_of_toNat_eq h)
      rw [heightDesc_ne_gt] at h
      rw [BitVec.lt_def]
      omega
  · have hall : ∀ e ∈ sortBy heightDesc c.heights.entries, c.allTxs.get? e.1 ≠ none :=
      fun e he => hb e.1 (List.mem_map_of_mem _ (hperm.mem_iff.1 he))
    rw [hrun, forEachTx_of_bodies hall]
    exact ⟨rfl, forall₂_collected_single hall⟩

theorem transactions_spec_two :
    let c : Cache := ⟨⟨[(1, ⟨1, []⟩), (2, ⟨2, []⟩)], by decide⟩, ⟨[], by decide⟩,
      ⟨[(1, some 5), (2, none)], by decide⟩, 0, (5, 0)⟩
    (⟨c, false⟩ : Store).read = .ok c ∧
    (((∃ e, transactions ⟨c, false⟩ = .err e) ↔ ∃ t ∈ c.heights.keys, c.allTxs.get? t = none) ∧
      ((∀ t ∈ c.heights.keys, c.allTxs.get? t ≠ none) →
        ∃ l, l.Perm c.heights.entries ∧
          l.Pairwise (fun a b => sortHeight b < sortHeight a ∨ (sortHeight b = sortHeight a ∧ b.1 < a.1)) ∧
          ∃ txs, transactions ⟨c, false⟩ = .ok txs ∧
            List.Forall₂ (fun e r => c.allTxs.get? e.1 = some r.1 ∧ r.2 = e.2) l txs)) :=
  ⟨rfl, transactions_spec rfl⟩

/-- A confirmed transaction at height `u32::MAX` with the larger txid is listed before an
unconfirmed one. -/
theorem transactions_confirmed_before_unconfirmed :
    let c : Cache := ⟨⟨[(1, ⟨1, []⟩), (2, ⟨2, []⟩)], by decide⟩, ⟨[], by decide⟩,
      ⟨[(2, some (BitVec.allOnes 32)), (1, none)], by decide⟩, 0, (0, 0)⟩
    transactions ⟨c, false⟩ = .ok [(⟨2, []⟩, some (BitVec.allOnes 32)), (⟨1, []⟩, none)] := by
  intro c
  rw [transactions, Store.read_of_not_poisoned rfl, Outcome.ok_bind, sortBy_of_pairwise (by decide)]
  decide

/-- What a successful `utxos()` call read: a snapshot in which every txid of `heights` has a
body, and the spent set of that snapshot. -/
theorem utxos_eq_ok {spent : Cache → Except Error (List OutPoint)} {s : Store} {us : List UnblindedTXO}
    (h : utxos spent s = .ok us) :
    ∃ c S, s.read = .ok c ∧ spent c = .ok S ∧ (∀ t ∈ c.heights.keys, c.allTxs.get? t ≠ none) ∧
      us = sortBy valueDesc (collected c (txTxos c S) c.heights.entries) := by
  obtain ⟨c, hc, h⟩ := Outcome.bind_eq_ok.1 h
  obtain ⟨S, hS, h⟩ := Outcome.bind_eq_ok.1 h
  obtain ⟨txos, htx, h⟩ := Outcome.bind_eq_ok.1 h
  have hb : ∀ t ∈ c.heights.keys, c.allTxs.get? t ≠ none := fun t ht hn => by
    obtain ⟨e, he⟩ := forEachTx_err_iff.2 ⟨t, ht, hn⟩
    rw [htx] at he
    cases he
  rw [forEachTx_of_bodies fun e he => hb e.1 (List.mem_map_of_mem _ he), List.nil_append] at htx
  refine ⟨c, S, hc, ?_, hb, ?_⟩
  · cases hsp : spent c <;> simp_all [Outcome.ofExcept]
  · cases htx
    exact (Outcome.ok.inj h).symm

/-- **`utxos()` lists only outputs of listed transactions.** Whenever `utxos()` succeeds,
`transactions()` on the same snapshot succeeds too, and every output `utxos()` returns is an
output of a transaction `transactions()` lists, at the height it lists it: its outpoint is
that transaction's txid and an index of its outputs, and its script is that output's. -/
theorem utxos_from_transactions (spent : Cache → Except Error (List OutPoint)) {s : Store}
    {us : List UnblindedTXO} (hu : utxos spent s = .ok us) :
    ∃ txs, transactions s = .ok txs ∧ ∀ u ∈ us, ∃ tx, (tx, u.txo.height) ∈ txs ∧
      ∃ i o, tx.output[i]? = some o ∧ u.txo.outpoint = ⟨tx.txid, BitVec.ofNat 32 i⟩ ∧
        u.txo.scriptPubkey = o.scriptPubkey := by
  obtain ⟨c, S, hread, -, hb, rfl⟩ := utxos_eq_ok hu
  have hperm := sortBy_perm heightDesc c.heights.entries
  have hall : ∀ e ∈ sortBy heightDesc c.heights.entries, c.allTxs.get? e.1 ≠ none :=
    fun e he => hb e.1 (List.mem_map_of_mem _ (hperm.mem_iff.1 he))
  refine ⟨collected c (fun tx height => [(tx, height)]) (sortBy heightDesc c.heights.entries),
    by simp only [transactions, hread, Outcome.ok_bind, forEachTx_of_bodies hall, List.nil_append],
    fun u hu => ?_⟩
  obtain ⟨e, he, tx, htx, hmem⟩ := mem_collected_txTxos.1 ((sortBy_perm valueDesc _).mem_iff.1 hu)
  obtain ⟨i, o, hi, ht, -⟩ := mem_txTxos.1 hmem
  refine ⟨tx, ?_, i, o, hi, by rw [ht], by rw [ht]⟩
  rw [ht]
  exact List.mem_flatMap.2 ⟨e, hperm.mem_iff.2 he, by simp [htx]⟩

/-- One unspent output of transaction `1` at height `1`, read by `utxos_from_transactions`. -/
theorem utxos_from_transactions_one_output :
    let c : Cache := ⟨⟨[(1, ⟨1, [⟨[]⟩]⟩)], by decide⟩, ⟨[(⟨1, 0⟩, ⟨7, 0, 5, 0⟩)], by decide⟩,
      ⟨[(1, some 1)], by decide⟩, 0, (1, 0)⟩
    let us : List UnblindedTXO := [⟨⟨⟨1, 0⟩, [], some 1⟩, ⟨7, 0, 5, 0⟩⟩]
    utxos (fun _ => .ok []) ⟨c, false⟩ = .ok us ∧
      ∃ txs, transactions ⟨c, false⟩ = .ok txs ∧ ∀ u ∈ us, ∃ tx, (tx, u.txo.height) ∈ txs ∧
        ∃ i o, tx.output[i]? = some o ∧ u.txo.outpoint = ⟨tx.txid, BitVec.ofNat 32 i⟩ ∧
          u.txo.scriptPubkey = o.scriptPubkey := by
  intro c us
  have hu : utxos (fun _ => .ok []) ⟨c, false⟩ = .ok us := by
    rw [utxos_eq _ (Store.read_of_not_poisoned rfl) rfl]
    have hc : forEachTx c "txos no tx " (txTxos c []) c.heights.entries [] = .ok us := by decide
    rw [hc, Outcome.ok_bind, sortBy_of_pairwise (by decide)]
    rfl
  exact ⟨hu, utxos_from_transactions _ hu⟩

end ElectrumWallet

end Lwk
