import Lwk.Wallet.Address

/-!
# `utxos()`

`utxos()` walks the `heights` map in its iteration order, fails on the first txid without
a body, and collects, per transaction, its outputs numbered by `enumerate` (`vout as u32`),
minus the spent ones, keeping those with unblinded secrets; it then sorts by value, largest
first. The spent set comes from the store's `spent()`, a parameter here.
-/

namespace Lwk

/-- The wallet outputs of one transaction: `tx.output` enumerated, unspent, unblinded. -/
def txTxos (c : Cache) (spent : List OutPoint) (tx : Transaction) (height : Option (BitVec 32)) :
    List UnblindedTXO :=
  ((tx.output.enum.map fun (vout, output) => (OutPoint.mk tx.txid (BitVec.ofNat 32 vout), output)).filter
      fun (outpoint, _) => !spent.contains outpoint).filterMap
    fun (outpoint, output) => (c.unblinded.get? outpoint).map fun unblinded =>
      ⟨⟨outpoint, output.scriptPubkey, height⟩, unblinded⟩

/-- The loops of `utxos()` and `transactions()` over `(tx_id, height)` pairs: the body of
each `tx_id`, or `Error::Generic` with `msg` and the id on the first one missing, and what
`f` makes of the body and height appended to the accumulator. -/
def forEachTx {β : Type} (c : Cache) (msg : String) (f : Transaction → Option (BitVec 32) → List β) :
    List (Txid × Option (BitVec 32)) → List β → Outcome (List β)
  | [], acc => .ok acc
  | (txId, height) :: rest, acc => do
    let tx ← Outcome.okOr (.generic (msg ++ hashHex txId)) (c.allTxs.get? txId)
    forEachTx c msg f rest (acc ++ f tx height)

/-- What `forEachTx` collects when every txid has a body. -/
def collected {β : Type} (c : Cache) (f : Transaction → Option (BitVec 32) → List β)
    (entries : List (Txid × Option (BitVec 32))) : List β :=
  entries.flatMap fun e => ((c.allTxs.get? e.1).map fun tx => f tx e.2).getD []

/-- The comparator of `utxos()`'s `sort_by`: `b.unblinded.value.cmp(&a.unblinded.value)`. -/
def valueDesc (a b : UnblindedTXO) : Ordering := compare b.unblinded.value.toNat a.unblinded.value.toNat

theorem valueDesc_ne_gt {a b : UnblindedTXO} : valueDesc a b ≠ .gt ↔ b.unblinded.value ≤ a.unblinded.value := by
  simp [valueDesc, Nat.compare_eq_gt, BitVec.le_def]

/-- The outputs `utxos()` is to list, given the spent set `S`: the unspent, unblinded outputs
of the transactions that have a height entry. -/
def Cache.Utxo (c : Cache) (S : List OutPoint) (op : OutPoint) : Prop :=
  op.txid ∈ c.heights.keys ∧ (∃ tx, c.allTxs.get? op.txid = some tx ∧ op.vout.toNat < tx.output.length) ∧
    op ∈ c.unblinded.keys ∧ op ∉ S

/-- Every cached transaction is stored under its own id and has fewer than `2^32` outputs,
so that `vout as u32` loses nothing. -/
def Cache.TxsKeyed (c : Cache) : Prop :=
  ∀ t tx, c.allTxs.get? t = some tx → tx.txid = t ∧ tx.output.length < 2 ^ 32

/-- `TxsKeyed` read off the entries, where it can be checked. -/
theorem Cache.txsKeyed_iff {c : Cache} :
    c.TxsKeyed ↔ ∀ e ∈ c.allTxs.entries, e.2.txid = e.1 ∧ e.2.output.length < 2 ^ 32 :=
  ⟨fun h e he => h e.1 e.2 (HashMap.get?_eq_some_iff.2 he),
    fun h t tx htx => h (t, tx) (HashMap.get?_eq_some_iff.1 htx)⟩

/-- What `utxos()` is to return on a snapshot with spent set `S`: each unspent, unblinded
output of a transaction with a height entry, once, with its height, script and secrets,
largest value first. -/
structure UtxoList (c : Cache) (S : List OutPoint) (us : List UnblindedTXO) : Prop where
  nodup : (us.map (·.txo.outpoint)).Nodup
  mem_iff : ∀ op, op ∈ us.map (·.txo.outpoint) ↔ c.Utxo S op
  fields : ∀ u ∈ us, c.heights.get? u.txo.outpoint.txid = some u.txo.height ∧
    (∃ tx, c.allTxs.get? u.txo.outpoint.txid = some tx ∧
      (tx.output[u.txo.outpoint.vout.toNat]?).map (·.scriptPubkey) = some u.txo.scriptPubkey) ∧
    c.unblinded.get? u.txo.outpoint = some u.unblinded
  sorted : us.Pairwise fun a b => b.unblinded.value ≤ a.unblinded.value

theorem filterMap_sublist_map {α β : Type} {f : α → Option β} (g : α → β)
    (h : ∀ a b, f a = some b → b = g a) (l : List α) : List.Sublist (l.filterMap f) (l.map g) := by
  induction l with
  | nil => exact List.Sublist.slnil
  | cons a l ih =>
    rw [List.filterMap_cons, List.map_cons]
    cases hf : f a with
    | none => exact ih.cons _
    | some b => rw [h a b hf]; exact ih.cons₂ _

/-- The outpoints of `txTxos` are among `(txid, 0)`, `(txid, 1)`, ..., in that order. -/
theorem txTxos_outpoints_sublist (c : Cache) (spent : List OutPoint) (tx : Transaction)
    (h : Option (BitVec 32)) :
    List.Sublist ((txTxos c spent tx h).map (·.txo.outpoint))
      ((List.range tx.output.length).map fun i => OutPoint.mk tx.txid (BitVec.ofNat 32 i)) := by
  unfold txTxos
  rw [List.map_filterMap]
  refine (filterMap_sublist_map Prod.fst ?_ _).trans ?_
  · intro a b hab
    cases hu : c.unblinded.get? a.1 <;> simp_all
  · refine ((List.filter_sublist _).map _).trans ?_
    rw [List.map_map, ← List.enum_map_fst, List.map_map]
    rfl

theorem txTxos_outpoints_nodup (c : Cache) (spent : List OutPoint) (tx : Transaction)
    (h : Option (BitVec 32)) (hlen : tx.output.length < 2 ^ 32) :
    ((txTxos c spent tx h).map (·.txo.outpoint)).Nodup := by
  refine (txTxos_outpoints_sublist c spent tx h).nodup ((List.nodup_range _).map_on ?_)
  intro i hi j hj hij
  have := congrArg (·.vout.toNat) hij
  simp only [BitVec.toNat_ofNat] at this
  simp only [List.mem_range] at hi hj
  omega

theorem mem_txTxos {c : Cache} {spent : List OutPoint} {tx : Transaction} {h : Option (BitVec 32)}
    {u : UnblindedTXO} :
    u ∈ txTxos c spent tx h ↔ ∃ i o, tx.output[i]? = some o ∧
      u.txo = ⟨⟨tx.txid, BitVec.ofNat 32 i⟩, o.scriptPubkey, h⟩ ∧
      u.txo.outpoint ∉ spent ∧ c.unblinded.get? u.txo.outpoint = some u.unblinded := by
  simp only [txTxos, List.mem_filterMap, List.mem_filter, List.mem_map, List.mem_enum_iff_getElem?,
    Option.map_eq_some']
  constructor
  · rintro ⟨⟨op, o⟩, ⟨⟨⟨i, o'⟩, hi, he⟩, hs⟩, sec, hu, rfl⟩
    obtain ⟨rfl, rfl⟩ := Prod.mk.inj he
    exact ⟨i, o', hi, rfl, by simpa using hs, hu⟩
  · rintro ⟨i, o, hi, ht, hs, hu⟩
    refine ⟨(u.txo.outpoint, o), ⟨⟨(i, o), hi, by rw [ht]⟩, by simpa using hs⟩, u.unblinded, hu, ?_⟩
    obtain ⟨⟨op, spk, h'⟩, sec⟩ := u
    cases ht
    rfl

theorem forEachTx_of_bodies {β : Type} {c : Cache} {msg : String}
    {f : Transaction → Option (BitVec 32) → List β} :
    ∀ {entries : List (Txid × Option (BitVec 32))} {acc : List β},
      (∀ e ∈ entries, c.allTxs.get? e.1 ≠ none) →
      forEachTx c msg f entries acc = .ok (acc ++ collected c f entries)
  | [], acc, _ => by simp [forEachTx, collected]
  | (t, h) :: rest, acc, hb => by
    obtain ⟨tx, htx⟩ := Option.ne_none_iff_exists'.1 (hb (t, h) (List.mem_cons_self _ _))
    rw [forEachTx, htx, Outcome.okOr_some, Outcome.ok_bind,
      forEachTx_of_bodies fun e he => hb e (List.mem_cons_of_mem _ he)]
    simp [collected, htx]

/-- The loop stops at the first txid without a body, and its error names that txid. -/
theorem forEachTx_of_missing {β : Type} {c : Cache} {msg : String}
    {f : Transaction → Option (BitVec 32) → List β} :
    ∀ {entries : List (Txid × Option (BitVec 32))} {acc : List β},
      (∃ e ∈ entries, c.allTxs.get? e.1 = none) →
      ∃ t ∈ entries.map Prod.fst, c.allTxs.get? t = none ∧
        forEachTx c msg f entries acc = .err (.generic (msg ++ hashHex t))
  | [], _, ⟨_, he, _⟩ => absurd he (List.not_mem_nil _)
  | (t, h) :: rest, acc, hm => by
    cases htx : c.allTxs.get? t with
    | none => exact ⟨t, List.mem_cons_self _ _, htx, by simp [forEachTx, htx]⟩
    | some tx =>
      obtain ⟨e, he, hn⟩ := hm
      have hrest : ∃ e ∈ rest, c.allTxs.get? e.1 = none := by
        rcases List.mem_cons.1 he with rfl | he
        · simp [htx] at hn
        · exact ⟨e, he, hn⟩
      obtain ⟨t', ht', hn', hr⟩ := @forEachTx_of_missing _ c msg f rest (acc ++ f tx h) hrest
      exact ⟨t', List.mem_cons_of_mem _ ht', hn', by simp [forEachTx, htx, hr]⟩

/-- `forEachTx` fails exactly when a txid has no body. -/
theorem forEachTx_err_iff {β : Type} {c : Cache} {msg : String}
    {f : Transaction → Option (BitVec 32) → List β} {entries : List (Txid × Option (BitVec 32))}
    {acc : List β} :
    (∃ e, forEachTx c msg f entries acc = .err e) ↔ ∃ t ∈ entries.map Prod.fst, c.allTxs.get? t = none := by
  constructor
  · rintro ⟨e, he⟩
    by_contra hm
    push_neg at hm
    rw [forEachTx_of_bodies fun e he => hm e.1 (List.mem_map_of_mem _ he)] at he
    cases he
  · rintro ⟨t, ht, hn⟩
    obtain ⟨e, he, rfl⟩ := List.mem_map.1 ht
    obtain ⟨t', -, -, hr⟩ := @forEachTx_of_missing _ c msg f entries acc ⟨e, he, hn⟩
    exact ⟨_, hr⟩

theorem mem_collected_txTxos {c : Cache} {spent : List OutPoint} {entries : List (Txid × Option (BitVec 32))}
    {u : UnblindedTXO} :
    u ∈ collected c (txTxos c spent) entries ↔ ∃ e ∈ entries, ∃ tx, c.allTxs.get? e.1 = some tx ∧ u ∈ txTxos c spent tx e.2 := by
  simp only [collected, List.mem_flatMap]
  refine exists_congr fun e => and_congr_right fun _ => ?_
  cases c.allTxs.get? e.1 <;> simp

/-- An output collected from the `heights` entries, traced back to where it comes from. -/
theorem of_mem_collected_txTxos {c : Cache} {S : List OutPoint} (hk : c.TxsKeyed) {u : UnblindedTXO}
    (hu : u ∈ collected c (txTxos c S) c.heights.entries) :
    ∃ tx i o, c.allTxs.get? tx.txid = some tx ∧ c.heights.get? tx.txid = some u.txo.height ∧
      tx.output[i]? = some o ∧ i < 2 ^ 32 ∧
      u.txo = ⟨⟨tx.txid, BitVec.ofNat 32 i⟩, o.scriptPubkey, u.txo.height⟩ ∧
      u.txo.outpoint ∉ S ∧ c.unblinded.get? u.txo.outpoint = some u.unblinded := by
  obtain ⟨⟨t, h⟩, he, tx, htx, hu⟩ := mem_collected_txTxos.1 hu
  obtain ⟨i, o, hi, ht, hs, hun⟩ := mem_txTxos.1 hu
  obtain ⟨rfl, hlen⟩ := hk _ _ htx
  have hh : u.txo.height = h := by rw [ht]
  have hlt : i < tx.output.length := (List.getElem?_eq_some_iff.1 hi).1
  exact ⟨tx, i, o, htx, hh ▸ HashMap.get?_eq_some_iff.2 he, hi, by omega, hh ▸ ht, hs, hun⟩

theorem collected_txTxos_outpoints_nodup {c : Cache} {S : List OutPoint} (hk : c.TxsKeyed) :
    ((collected c (txTxos c S) c.heights.entries).map (·.txo.outpoint)).Nodup := by
  rw [collected, List.map_flatMap, List.nodup_flatMap]
  refine ⟨fun e _ => ?_, ?_⟩
  · cases htx : c.allTxs.get? e.1 with
    | none => simp
    | some tx => simpa [htx] using txTxos_outpoints_nodup c S tx e.2 (hk _ _ htx).2
  · refine (List.pairwise_map.1 c.heights.nodup).imp_of_mem fun {e e'} _ _ hne op h₁ h₂ => hne ?_
    have txid_eq : ∀ e : Txid × Option (BitVec 32), op ∈ (((c.allTxs.get? e.1).map
        fun tx => txTxos c S tx e.2).getD []).map (·.txo.outpoint) → op.txid = e.1 := by
      intro e h
      cases htx : c.allTxs.get? e.1 with
      | none => simp [htx] at h
      | some tx =>
        obtain ⟨u, hu, rfl⟩ := List.mem_map.1 (by simpa [htx] using h)
        obtain ⟨i, o, -, ht, -⟩ := mem_txTxos.1 hu
        rw [ht]
        exact (hk _ _ htx).1
    exact (txid_eq e h₁).symm.trans (txid_eq e' h₂)

theorem mem_collected_txTxos_outpoints {c : Cache} {S : List OutPoint} (hk : c.TxsKeyed) (op : OutPoint) :
    op ∈ (collected c (txTxos c S) c.heights.entries).map (·.txo.outpoint) ↔ c.Utxo S op := by
  constructor
  · intro h
    obtain ⟨u, hu, rfl⟩ := List.mem_map.1 h
    obtain ⟨tx, i, o, htx, hh, hi, hi32, ht, hs, hun⟩ := of_mem_collected_txTxos hk hu
    have hlt : i < tx.output.length := (List.getElem?_eq_some_iff.1 hi).1
    rw [ht] at hs hun ⊢
    refine ⟨HashMap.mem_keys_iff.2 ⟨_, hh⟩, ⟨tx, htx, ?_⟩, HashMap.mem_keys_iff.2 ⟨_, hun⟩, hs⟩
    simp only [BitVec.toNat_ofNat]
    omega
  · rintro ⟨hkey, ⟨tx, htx, hlt⟩, hun, hs⟩
    obtain ⟨h, hh⟩ := HashMap.mem_keys_iff.1 hkey
    obtain ⟨sec, hsec⟩ := HashMap.mem_keys_iff.1 hun
    have hid := (hk _ _ htx).1
    have hop : OutPoint.mk tx.txid (BitVec.ofNat 32 op.vout.toNat) = op := by
      rw [hid, BitVec.ofNat_toNat, BitVec.setWidth_eq]
    refine List.mem_map.2 ⟨⟨⟨op, tx.output[op.vout.toNat].scriptPubkey, h⟩, sec⟩, ?_, rfl⟩
    refine mem_collected_txTxos.2 ⟨(op.txid, h), HashMap.get?_eq_some_iff.1 hh, tx, htx, mem_txTxos.2 ?_⟩
    exact ⟨op.vout.toNat, _, List.getElem?_eq_getElem hlt, by rw [hop], hs, hsec⟩

namespace ElectrumWallet

section Snapshot

variable (spent : Cache → Except Error (List OutPoint))

/-- `utxos()`, with `spent` the store's `spent()`. -/
def utxos (s : Store) : Outcome (List UnblindedTXO) := do
  let storeRead ← s.read
  let spentSet ← Outcome.ofExcept (spent storeRead)
  let txos ← forEachTx storeRead "txos no tx " (txTxos storeRead spentSet) storeRead.heights.entries []
  pure (sortBy valueDesc txos)

/-- `utxos()` on a snapshot: the loop's result, sorted by value. -/
theorem utxos_eq {s : Store} {c : Cache} {S : List OutPoint} (hread : s.read = .ok c)
    (hspent : spent c = .ok S) :
    utxos spent s = forEachTx c "txos no tx " (txTxos c S) c.heights.entries [] >>=
      fun txos => pure (sortBy valueDesc txos) := by
  simp [utxos, hread, hspent]

/-- **`utxos()`.** On a snapshot whose transactions are stored under their own ids, with the
spent set `S`: an `Err` exactly when a txid of `heights` has no body; otherwise every unspent,
unblinded output of a transaction with a height entry, once, with its height, script and
secrets, largest value first. -/
theorem utxos_spec {s : Store} {c : Cache} {S : List OutPoint} (hread : s.read = .ok c)
    (hspent : spent c = .ok S) (hk : c.TxsKeyed) :
    ((∃ e, utxos spent s = .err e) ↔ ∃ t ∈ c.heights.keys, c.allTxs.get? t = none) ∧
    ((∀ t ∈ c.heights.keys, c.allTxs.get? t ≠ none) →
      ∃ us, utxos spent s = .ok us ∧ UtxoList c S us) := by
  have hperm := sortBy_perm valueDesc (collected c (txTxos c S) c.heights.entries)
  refine ⟨?_, fun h => ⟨sortBy valueDesc (collected c (txTxos c S) c.heights.entries), ?_, ?_⟩⟩
  · simp only [utxos_eq spent hread hspent, Outcome.map_eq_err]
    exact forEachTx_err_iff
  · rw [utxos_eq spent hread hspent, forEachTx_of_bodies fun e he => h e.1 (List.mem_map_of_mem _ he)]
    rfl
  refine ⟨(hperm.map _).nodup_iff.2 (collected_txTxos_outpoints_nodup hk),
    fun op => (hperm.map _).mem_iff.trans (mem_collected_txTxos_outpoints hk op), fun u hu => ?_, ?_⟩
  · obtain ⟨tx, i, o, htx, hh, hi, hi32, ht, -, hun⟩ := of_mem_collected_txTxos hk (hperm.mem_iff.1 hu)
    have hvout : (BitVec.ofNat 32 i).toNat = i := by
      rw [BitVec.toNat_ofNat]
      exact Nat.mod_eq_of_lt hi32
    rw [ht]
    exact ⟨hh, ⟨tx, htx, by rw [hvout, hi]; rfl⟩, ht ▸ hun⟩
  · refine (sortBy_pairwise (fun _ _ _ h₁ h₂ => ?_) (fun _ _ => ?_) _).imp valueDesc_ne_gt.1
    · rw [valueDesc_ne_gt, BitVec.le_def] at *
      omega
    · simp only [valueDesc_ne_gt, BitVec.le_def]
      omega

end Snapshot

theorem utxos_spec_one_spent :
    let c : Cache := ⟨⟨[(1, ⟨1, [⟨[]⟩, ⟨[]⟩, ⟨[]⟩]⟩)], by decide⟩,
      ⟨[(⟨1, 0⟩, ⟨7, 0, 5, 0⟩), (⟨1, 1⟩, ⟨7, 0, 9, 0⟩), (⟨1, 2⟩, ⟨8, 0, 4, 0⟩)], by decide⟩,
      ⟨[(1, some 3)], by decide⟩, 0, (3, 0)⟩
    let spent : Cache → Except Error (List OutPoint) := fun _ => .ok [⟨1, 1⟩]
    (⟨c, false⟩ : Store).read = .ok c ∧ spent c = .ok [⟨1, 1⟩] ∧ c.TxsKeyed ∧
    (((∃ e, utxos spent ⟨c, false⟩ = .err e) ↔ ∃ t ∈ c.heights.keys, c.allTxs.get? t = none) ∧
      ((∀ t ∈ c.heights.keys, c.allTxs.get? t ≠ none) →
        ∃ us, utxos spent ⟨c, false⟩ = .ok us ∧ UtxoList c [⟨1, 1⟩] us)) :=
  have hk := Cache.txsKeyed_iff.2 (by decide)
  ⟨rfl, rfl, hk, utxos_spec _ rfl rfl hk⟩

end ElectrumWallet

end Lwk
