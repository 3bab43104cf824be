import Lwk.Basic

/-!
# The store: chain data and the wallet's cache

The fields of the store's `cache` that `wallet.rs` reads and writes, and the elements
types they hold. Ids are 256-bit hashes, compared as numbers, which is how Rust's derived
`Ord` compares their bytes. A transaction and a block header carry their hash as a field:
the library computes it (a double SHA-256 of the other bytes), and the wallet only reads it.
The store is shared between callers behind an `RwLock`; `poisoned` records a writer
that panicked while holding it.
-/

namespace Lwk

/-- A transaction id. -/
abbrev Txid := BitVec 256
/-- A block hash. -/
abbrev BlockHash := BitVec 256
/-- An asset id. -/
abbrev AssetId := BitVec 256
/-- A script, as its bytes. -/
abbrev Script := List (BitVec 8)

/-- Byte `i` of a hash's 32 bytes, byte 0 the most significant. -/
def hashByte (h : BitVec 256) (i : Nat) : Nat := h.toNat / 256 ^ (31 - i) % 256

/-- A byte as two lowercase hex digits. -/
def hexByte (b : Nat) : String := String.mk [Nat.digitChar (b / 16), Nat.digitChar (b % 16)]

/-- A hash id as `{}` prints it into a message (`Display` of a double-SHA256 hash): its 32
bytes in reverse order, two lowercase hex digits each. -/
def hashHex (h : BitVec 256) : String :=
  String.join ((List.range 32).reverse.map fun i => hexByte (hashByte h i))

example : hashHex 1 = "01" ++ String.mk (List.replicate 62 '0') := by decide

/-- `OutPoint`: output `vout` of transaction `txid`. -/
structure OutPoint where
  txid : Txid
  vout : BitVec 32
  deriving DecidableEq, Repr

/-- `TxOut`, by the field the wallet reads: the script it pays to. -/
structure TxOut where
  scriptPubkey : Script
  deriving DecidableEq, Repr

/-- `Transaction`: its id and its outputs. -/
structure Transaction where
  txid : Txid
  output : List TxOut
  deriving DecidableEq, Repr

/-- `BlockHeader`: the height it carries and its `block_hash()`. -/
structure BlockHeader where
  height : BitVec 32
  blockHash : BlockHash
  deriving DecidableEq, Repr

/-- Bytes received from a server, by what `elements::encode::deserialize` makes of them:
the value they encode, or `none` when they do not decode. -/
structure Raw (α : Type) where
  decoded : Option α
  deriving DecidableEq, Repr

/-- `elements::encode::deserialize`. -/
def deserialize {α : Type} (r : Raw α) : Outcome α := Outcome.okOr .encode r.decoded

/-- `TxOutSecrets`: what unblinding an output recovers. -/
structure TxOutSecrets where
  asset : AssetId
  assetBf : BitVec 256
  value : BitVec 64
  valueBf : BitVec 256
  deriving DecidableEq, Repr

/-- `TXO`, as `TXO::new(outpoint, script_pubkey, height)` builds it. -/
structure TXO where
  outpoint : OutPoint
  scriptPubkey : Script
  height : Option (BitVec 32)
  deriving DecidableEq, Repr

/-- `UnblindedTXO`: a wallet output with its secrets. -/
structure UnblindedTXO where
  txo : TXO
  unblinded : TxOutSecrets
  deriving DecidableEq, Repr

/-- The store's `cache`, by the fields the wallet reads and writes. -/
structure Cache where
  allTxs : HashMap Txid Transaction
  unblinded : HashMap OutPoint TxOutSecrets
  heights : HashMap Txid (Option (BitVec 32))
  lastIndex : BitVec 32
  tip : BitVec 32 × BlockHash
  deriving DecidableEq

/-- The wallet's `Store`: the cache behind an `RwLock`, and whether the lock is poisoned. -/
structure Store where
  cache : Cache
  poisoned : Bool
  deriving DecidableEq

namespace Store

/-- `store.read()` (and `store.write()`, which fails alike): the cache, unless a writer
panicked while holding the lock. -/
def read (s : Store) : Outcome Cache := if s.poisoned then .err .poison else .ok s.cache

@[simp] theorem read_of_poisoned {s : Store} (h : s.poisoned = true) : s.read = .err .poison := by
  simp [read, h]

@[simp] theorem read_of_not_poisoned {s : Store} (h : s.poisoned = false) : s.read = .ok s.cache := by
  simp [read, h]

end Store

end Lwk
