import Mathlib.Data.List.Basic
import Mathlib.Algebra.Group.Nat.Basic

/-!
# The `Jade` wrapper of `lwk_wasm`

`lwk_wasm/src/jade.rs` exposes the asynchronous Jade client to JavaScript. Each method unlocks
the device, then makes its requests in order, and the first request that fails ends the call
with its error (`?`). What the device and its client answer is a parameter here
(`JadeAnswers`), the xpub, the SLIP-77 key and the address by their displayed text, which is
all the wrapper reads of them; so is `WolletDescriptor::new`, which parses a descriptor text.

`desc` writes the descriptor text of a single-signature variant; `wpkh` and `sh_wpkh` both pass
it `SingleVariant::Wpkh`. `get_receive_address_multi` builds its list of paths by pushing
`path_n` copies of `path` onto a `Vec`, which on wasm32 cannot grow past `2^27` entries of
12 bytes: the device is asked for the address at `path_n` copies when `path_n ≤ 2^27`, and
otherwise the call panics with `capacity overflow` (`Jade.getReceiveAddressMulti_eq`).
-/

namespace Lwk

/-- `SingleVariant`: the single-signature script types the wrapper offers. -/
inductive SingleVariant where
  | wpkh
  | shWpkh
  deriving DecidableEq, Repr

/-- `lwk_jade::get_receive_address::Variant`. -/
inductive Variant where
  | wpkh
  | shWpkh
  deriving DecidableEq, Repr

/-- `impl From<SingleVariant> for Variant`. -/
def SingleVariant.toVariant : SingleVariant → Variant
  | .wpkh => .wpkh
  | .shWpkh => .shWpkh

/-- `impl From<Variant> for SingleVariant`. -/
def Variant.toSingleVariant : Variant → SingleVariant
  | .wpkh => .wpkh
  | .shWpkh => .shWpkh

@[simp] theorem SingleVariant.toSingleVariant_toVariant (v : SingleVariant) :
    v.toVariant.toSingleVariant = v := by
  cases v <;> rfl

@[simp] theorem Variant.toVariant_toSingleVariant (v : Variant) : v.toSingleVariant.toVariant = v := by
  cases v <;> rfl

/-- `SingleOrMulti`: a single-signature address by variant and path, or an address of a
registered multisig wallet by one path per signer. -/
inductive SingleOrMulti where
  | single (variant : Variant) (path : List (BitVec 32))
  | multi (multisigName : String) (paths : List (List (BitVec 32)))
  deriving DecidableEq, Repr

/-- `GetReceiveAddressParams`, over the client's network type `ν`. -/
structure GetReceiveAddressParams (ν : Type) where
  network : ν
  address : SingleOrMulti

/-- What the asynchronous Jade client answers to each request of the wrapper, with errors in
`ε`: the network it was built for, `unlock`, `get_master_xpub` and
`slip77_master_blinding_key` (displayed), and `get_receive_address` (displayed). -/
structure JadeAnswers (ε ν : Type) where
  network : ν
  unlock : Except ε Unit
  masterXpub : Except ε String
  slip77MasterBlindingKey : Except ε String
  receiveAddress : GetReceiveAddressParams ν → Except ε String

/-- A computation that returns, or panics with a message (`.error msg`). -/
abbrev OrPanic (α : Type) := Except String α

/-- A `Vec` on wasm32, by its elements and its capacity. -/
structure WasmVec (α : Type) where
  items : List α
  cap : Nat

/-- The largest allocation on wasm32 for alignment 4: `isize::MAX - 3` bytes. -/
def maxAllocSize : Nat := 2 ^ 31 - 1 - 3

/-- `RawVec::grow_amortized(len, 1)` for elements of `elemSize` bytes: twice the capacity, at
least `len + 1` and at least 4, or `CapacityOverflow` when its layout is too large. -/
def growAmortized (elemSize cap len : Nat) : Option Nat :=
  let newCap := max (max (cap * 2) (len + 1)) 4
  if newCap ≤ maxAllocSize / elemSize then some newCap else none

/-- `Vec::push` of an element of `elemSize` bytes: a full vector grows first, and panics with
`capacity overflow` when it cannot. -/
def WasmVec.push {α : Type} (elemSize : Nat) (v : WasmVec α) (x : α) : OrPanic (WasmVec α) :=
  if v.items.length = v.cap then
    match growAmortized elemSize v.cap v.items.length with
    | some cap => .ok ⟨v.items ++ [x], cap⟩
    | none => .error "capacity overflow"
  else .ok ⟨v.items ++ [x], v.cap⟩

/-- The loop of `get_receive_address_multi`: `path` pushed onto `vec![]` once per `0..path_n`;
a `Vec<u32>` takes 12 bytes on wasm32. -/
def repeatPath (path : List (BitVec 32)) (pathN : BitVec 32) : OrPanic (List (List (BitVec 32))) := do
  let paths ← (List.range pathN.toNat).foldlM
    (fun (paths : WasmVec (List (BitVec 32))) _ => paths.push 12 path) ⟨[], 0⟩
  pure paths.items

/-- The capacities a `Vec` goes through from `vec![]`: none before the first push, then powers
of two from 4, doubled whenever the vector is full. -/
def Grown (len cap : Nat) : Prop :=
  (len = 0 ∧ cap = 0) ∨ ∃ e, 2 ≤ e ∧ cap = 2 ^ e ∧ len ≤ cap ∧ (e = 2 ∨ cap < 2 * len)

theorem maxAllocSize_div : maxAllocSize / 12 = 178956970 := rfl

/-- A push of a 12-byte element onto a vector of fewer than `2^27` elements succeeds. -/
theorem Grown.push {α : Type} {v : WasmVec α} (x : α) (hg : Grown v.items.length v.cap)
    (hlt : v.items.length < 2 ^ 27) :
    ∃ cap, v.push 12 x = .ok ⟨v.items ++ [x], cap⟩ ∧ Grown (v.items.length + 1) cap := by
  unfold WasmVec.push growAmortized
  rcases hg with ⟨hk, hc⟩ | ⟨e, he, hc, hle, hsmall⟩
  · refine ⟨4, ?_, .inr ⟨2, le_refl _, rfl, by omega, .inl rfl⟩⟩
    simp [hk, hc, maxAllocSize_div]
  · by_cases hfull : v.items.length = v.cap
    · have he27 : e < 27 := by
        have h : 2 ^ e < 2 ^ 27 := by rw [← hc, ← hfull]; exact hlt
        exact (Nat.pow_lt_pow_iff_right (by decide)).1 h
      have hbound : 2 ^ (e + 1) ≤ 2 ^ 27 := Nat.pow_le_pow_right (by decide) he27
      have hcap : max (max (v.cap * 2) (v.items.length + 1)) 4 = 2 ^ (e + 1) := by
        have : 2 ^ 2 ≤ 2 ^ e := Nat.pow_le_pow_right (by decide) he
        rw [Nat.pow_succ]
        omega
      refine ⟨2 ^ (e + 1), ?_, .inr ⟨e + 1, by omega, rfl, by rw [Nat.pow_succ]; omega,
        .inr (by rw [Nat.pow_succ]; omega)⟩⟩
      rw [if_pos hfull, hcap, maxAllocSize_div, if_pos (by omega)]
    · refine ⟨v.cap, by rw [if_neg hfull], .inr ⟨e, he, hc, by omega, ?_⟩⟩
      omega

/-- The `2^27 + 1`-th push finds the vector full at capacity `2^27` and cannot double it. -/
theorem Grown.push_overflow {α : Type} {v : WasmVec α} (x : α) (hg : Grown v.items.length v.cap)
    (hlen : v.items.length = 2 ^ 27) : v.push 12 x = .error "capacity overflow" := by
  rcases hg with ⟨hk, -⟩ | ⟨e, -, hc, hle, hsmall⟩
  · rw [hk] at hlen
    cases hlen
  have he : e = 27 := by
    have h1 : 27 ≤ e := (Nat.pow_le_pow_iff_right (by decide)).1 (show 2 ^ 27 ≤ 2 ^ e by omega)
    have h2 : e < 28 := (Nat.pow_lt_pow_iff_right (by decide)).1 (show 2 ^ e < 2 ^ 28 by
      rcases hsmall with rfl | h <;> omega)
    omega
  subst he
  have hfull : v.items.length = v.cap := by omega
  unfold WasmVec.push growAmortized
  rw [if_pos hfull, maxAllocSize_div, if_neg (by omega)]

@[simp] theorem OrPanic.ok_bind {α β : Type} (a : α) (f : α → OrPanic β) : (Except.ok a >>= f) = f a := rfl

theorem foldlM_range_succ {β : Type} (f : β → Nat → OrPanic β) (init : β) (k : Nat) :
    (List.range (k + 1)).foldlM f init = ((List.range k).foldlM f init >>= fun v => f v k) := by
  rw [List.range_succ, List.foldlM_append]
  simp

/-- The first `k ≤ 2^27` iterations of the loop push `k` copies of `path`. -/
theorem foldlM_push_le (path : List (BitVec 32)) :
    ∀ k, k ≤ 2 ^ 27 → ∃ cap, (List.range k).foldlM (fun (paths : WasmVec _) _ => paths.push 12 path)
      ⟨[], 0⟩ = .ok ⟨List.replicate k path, cap⟩ ∧ Grown k cap
  | 0, _ => ⟨0, rfl, .inl ⟨rfl, rfl⟩⟩
  | k + 1, hk => by
    obtain ⟨cap, hfold, hg⟩ := foldlM_push_le path k (by omega)
    obtain ⟨cap', hpush, hg'⟩ := Grown.push (v := ⟨List.replicate k path, cap⟩) path
      (by simpa using hg) (by simp; omega)
    refine ⟨cap', ?_, by simpa using hg'⟩
    rw [foldlM_range_succ, hfold, OrPanic.ok_bind, hpush, List.replicate_succ']

/-- From the `2^27 + 1`-th iteration on, the loop has panicked. -/
theorem foldlM_push_gt (path : List (BitVec 32)) :
    ∀ k, 2 ^ 27 < k → (List.range k).foldlM (fun (paths : WasmVec _) _ => paths.push 12 path)
      ⟨[], 0⟩ = .error "capacity overflow" := by
  intro k hk
  induction k, hk using Nat.le_induction with
  | base =>
    obtain ⟨cap, hfold, hg⟩ := foldlM_push_le path (2 ^ 27) le_rfl
    rw [foldlM_range_succ, hfold, OrPanic.ok_bind]
    exact Grown.push_overflow path (by rw [List.length_replicate]; exact hg) (List.length_replicate _ _)
  | succ k _ ih =>
    rw [foldlM_range_succ, ih]
    rfl

/-- The loop asks for `path_n` copies of `path` when `path_n ≤ 2^27`, and panics otherwise. -/
theorem repeatPath_eq (path : List (BitVec 32)) (pathN : BitVec 32) :
    repeatPath path pathN =
      if pathN.toNat ≤ 2 ^ 27 then .ok (List.replicate pathN.toNat path) else .error "capacity overflow" := by
  unfold repeatPath
  split
  · obtain ⟨cap, hfold, -⟩ := foldlM_push_le path pathN.toNat ‹_›
    rw [hfold]
    rfl
  · rw [foldlM_push_gt path pathN.toNat (by omega)]
    rfl

/-- The descriptor text of `desc`: `ct(slip77(<key>),elwpkh(<xpub>/*))` for `Wpkh` and
`ct(slip77(<key>),elsh(wpkh(<xpub>/*)))` for `ShWpkh`. -/
def descStr (variant : SingleVariant) (xpub slip77Key : String) : String :=
  match variant with
  | .wpkh => "ct(slip77(" ++ slip77Key ++ "),elwpkh(" ++ xpub ++ "/*))"
  | .shWpkh => "ct(slip77(" ++ slip77Key ++ "),elsh(wpkh(" ++ xpub ++ "/*)))"

namespace Jade

variable {ε ν δ : Type} (j : JadeAnswers ε ν)

/-- `desc`: the variant's descriptor text, given to `WolletDescriptor::new` (`parse`). -/
def desc (parse : String → Except ε δ) (variant : SingleVariant) (xpub slip77Key : String) :
    Except ε δ :=
  parse (descStr variant xpub slip77Key)

/-- `Jade::get_master_xpub`. -/
def getMasterXpub : Except ε String := do
  j.unlock
  j.masterXpub

/-- `Jade::get_receive_address_single`. -/
def getReceiveAddressSingle (variant : SingleVariant) (path : List (BitVec 32)) : Except ε String := do
  let network := j.network
  j.unlock
  j.receiveAddress ⟨network, .single variant.toVariant path⟩

/-- `Jade::get_receive_address_multi`, which panics where its loop does. -/
def getReceiveAddressMulti (multisigName : String) (path : List (BitVec 32)) (pathN : BitVec 32) :
    OrPanic (Except ε String) :=
  let network := j.network
  match j.unlock with
  | .error e => .ok (.error e)
  | .ok () => do
    let paths ← repeatPath path pathN
    pure (j.receiveAddress ⟨network, .multi multisigName paths⟩)

/-- `Jade::wpkh`. -/
def wpkh (parse : String → Except ε δ) : Except ε δ := do
  j.unlock
  let xpub ← j.masterXpub
  let slip77Key ← j.slip77MasterBlindingKey
  desc parse .wpkh xpub slip77Key

/-- `Jade::sh_wpkh`. -/
def shWpkh (parse : String → Except ε δ) : Except ε δ := do
  j.unlock
  let xpub ← j.masterXpub
  let slip77Key ← j.slip77MasterBlindingKey
  desc parse .wpkh xpub slip77Key

end Jade

end Lwk
