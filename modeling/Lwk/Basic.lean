import Mathlib.Data.List.Nodup
import Mathlib.Data.List.Perm.Basic
import Mathlib.Algebra.Group.Nat.Basic

/-!
# Rust vocabulary: outcomes, overflow, hash maps

What the wallet's Rust code can do when called (`Outcome`: return `Ok`, return `Err`,
or panic), what `+=` does on a fixed-width integer in each build profile, and
`std::collections::HashMap` as the list of its entries in iteration order. Rust leaves
that order unspecified; a statement over every `HashMap` is a statement over every order.
-/

namespace Lwk

/-- Errors of `electrum_client` that the wallet code matches on or passes up. `JSON` is a
message that does not deserialize. `AllAttemptsErrored(errors)` ends a call of the retrying
`Client` whose attempts all failed; with the `retry` of 1 that `build_client` leaves, `errors`
holds the first attempt's error alone, kept here as `first`. -/
inductive ElectrumError where
  | alreadySubscribed (script : List (BitVec 8))
  | notSubscribed (script : List (BitVec 8))
  | io
  | json
  | allAttemptsErrored (first : ElectrumError)
  deriving DecidableEq, Repr

/-- The wallet's `Error`, by the variants the modelled code builds or converts into. -/
inductive Error where
  | generic (msg : String)
  | blindingBareUnsupported
  | poison
  | hardenedChild
  | bareDescriptorAddr
  | encode
  | electrum (e : ElectrumError)
  deriving DecidableEq, Repr

/-- What one call of Rust code does: return `Ok`, return `Err`, or panic. -/
inductive Outcome (α : Type) where
  | ok (a : α)
  | err (e : Error)
  | panic (msg : String)
  deriving DecidableEq, Repr

namespace Outcome

/-- `?` on a `Result`, and sequencing after a call that did not panic. -/
def bind {α β : Type} : Outcome α → (α → Outcome β) → Outcome β
  | .ok a, f => f a
  | .err e, _ => .err e
  | .panic m, _ => .panic m

instance : Monad Outcome where
  pure := .ok
  bind := Outcome.bind

@[simp] theorem ok_bind {α β : Type} (a : α) (f : α → Outcome β) : (Outcome.ok a >>= f) = f a := rfl
@[simp] theorem err_bind {α β : Type} (e : Error) (f : α → Outcome β) :
    (Outcome.err e >>= f) = .err e := rfl
@[simp] theorem panic_bind {α β : Type} (m : String) (f : α → Outcome β) :
    (Outcome.panic m >>= f) = .panic m := rfl
@[simp] theorem pure_eq {α : Type} (a : α) : (pure a : Outcome α) = .ok a := rfl

theorem bind_eq_ok {α β : Type} {x : Outcome α} {f : α → Outcome β} {b : β} :
    (x >>= f) = .ok b ↔ ∃ a, x = .ok a ∧ f a = .ok b := by
  cases x <;> simp

theorem map_eq_err {α β : Type} {x : Outcome α} {f : α → β} {e : Error} :
    (x >>= fun a => pure (f a)) = .err e ↔ x = .err e := by
  cases x <;> simp

/-- The call returns, with `Ok` or `Err`: it does not panic. -/
def Returns {α : Type} (x : Outcome α) : Prop := ∀ m, x ≠ .panic m

@[simp] theorem returns_ok {α : Type} (a : α) : (Outcome.ok a).Returns := nofun
@[simp] theorem returns_err {α : Type} (e : Error) : (Outcome.err e : Outcome α).Returns := nofun

theorem Returns.bind {α β : Type} {x : Outcome α} {f : α → Outcome β} (hx : x.Returns)
    (hf : ∀ a, x = .ok a → (f a).Returns) : (x >>= f).Returns := by
  cases x with
  | ok a => exact hf a rfl
  | err e => exact returns_err e
  | panic m => exact absurd rfl (hx m)

/-- `?` on the `Result` of a library call. -/
def ofExcept {α : Type} : Except Error α → Outcome α
  | .ok a => .ok a
  | .error e => .err e

@[simp] theorem ofExcept_ok {α : Type} (a : α) : ofExcept (.ok a : Except Error α) = .ok a := rfl
@[simp] theorem ofExcept_error {α : Type} (e : Error) : ofExcept (.error e : Except Error α) = .err e := rfl

/-- `option.ok_or_else(|| e)?`. -/
def okOr {α : Type} (e : Error) : Option α → Outcome α
  | some a => .ok a
  | none => .err e

@[simp] theorem okOr_some {α : Type} (e : Error) (a : α) : okOr e (some a) = .ok a := rfl
@[simp] theorem okOr_none {α : Type} (e : Error) : okOr e (none : Option α) = .err e := rfl

end Outcome

/-- Rust's build profile: `debug` checks integer overflow and panics, `release` wraps. -/
inductive Profile where
  | debug
  | release
  deriving DecidableEq, Repr

/-- The panic message of an overflowing `+=`. -/
def addOverflowMsg : String := "attempt to add with overflow"

/-- `a += b` on a `w`-bit unsigned integer; `none` is the debug build's overflow panic. -/
def Profile.addAssign {w : Nat} : Profile → BitVec w → BitVec w → Option (BitVec w)
  | .release, a, b => some (a + b)
  | .debug, a, b => if a.toNat + b.toNat < 2 ^ w then some (a + b) else none

/-- Whichever the profile, a `+=` that completes computes the wrapping sum, and it is
the exact sum unless the build is a release build. -/
theorem Profile.addAssign_eq_some {w : Nat} {p : Profile} {a b c : BitVec w}
    (h : p.addAssign a b = some c) :
    c = a + b ∧ (p = .debug → c.toNat = a.toNat + b.toNat) := by
  cases p with
  | release => exact ⟨(Option.some.inj h).symm, nofun⟩
  | debug =>
    simp only [addAssign] at h
    split at h
    · cases h
      refine ⟨rfl, fun _ => ?_⟩
      rw [BitVec.toNat_add, Nat.mod_eq_of_lt ‹_›]
    · cases h

/-- A `+=` panics only in a debug build, and only when the exact sum does not fit. -/
theorem Profile.addAssign_eq_none {w : Nat} {p : Profile} {a b : BitVec w} :
    p.addAssign a b = none ↔ p = .debug ∧ 2 ^ w ≤ a.toNat + b.toNat := by
  cases p <;> simp [addAssign]

/-- `slice::sort_by(cmp)`: Rust's stable sort, which keeps `a` before `b` unless `cmp a b`
is `Greater`. -/
def sortBy {α : Type} (cmp : α → α → Ordering) (l : List α) : List α :=
  l.mergeSort fun a b => decide (cmp a b ≠ .gt)

theorem sortBy_perm {α : Type} (cmp : α → α → Ordering) (l : List α) : (sortBy cmp l).Perm l :=
  List.mergeSort_perm _ _

/-- An already ordered list is left as it is. -/
theorem sortBy_of_pairwise {α : Type} {cmp : α → α → Ordering} {l : List α}
    (h : l.Pairwise fun a b => cmp a b ≠ .gt) : sortBy cmp l = l :=
  List.mergeSort_of_sorted (by simpa using h)

/-- Sorting by a total preorder orders the result by it. -/
theorem sortBy_pairwise {α : Type} {cmp : α → α → Ordering}
    (trans : ∀ a b c, cmp a b ≠ .gt → cmp b c ≠ .gt → cmp a c ≠ .gt)
    (total : ∀ a b, cmp a b ≠ .gt ∨ cmp b a ≠ .gt) (l : List α) :
    (sortBy cmp l).Pairwise fun a b => cmp a b ≠ .gt :=
  (@List.sorted_mergeSort _ (fun a b => decide (cmp a b ≠ .gt))
    (fun a b c hab hbc => decide_eq_true (trans a b c (of_decide_eq_true hab) (of_decide_eq_true hbc)))
    (fun a b => Bool.or_eq_true_iff.2 ((total a b).imp decide_eq_true decide_eq_true)) l).imp of_decide_eq_true

/-- `std::collections::HashMap`: its entries in iteration order, keys distinct. -/
structure HashMap (κ ν : Type) where
  entries : List (κ × ν)
  nodup : (entries.map Prod.fst).Nodup

namespace HashMap

variable {κ ν : Type} [DecidableEq κ]

instance [DecidableEq ν] : DecidableEq (HashMap κ ν) := fun a b =>
  decidable_of_iff (a.entries = b.entries) (by cases a; cases b; simp)

/-- The keys, in iteration order. -/
def keys (m : HashMap κ ν) : List κ := m.entries.map Prod.fst

/-- `HashMap::get`. -/
def get? (m : HashMap κ ν) (k : κ) : Option ν := m.entries.lookup k

/-- `HashMap::new`. -/
def empty : HashMap κ ν := ⟨[], List.nodup_nil⟩

@[simp] theorem get?_empty (k : κ) : (empty : HashMap κ ν).get? k = none := rfl

/-- `List.lookup` one entry at a time, with `=` in place of `==`. -/
@[simp] theorem lookup_cons_ite (k k' : κ) (v : ν) (l : List (κ × ν)) :
    List.lookup k ((k', v) :: l) = if k = k' then some v else l.lookup k := by
  rw [List.lookup_cons]; split <;> simp_all

theorem lookup_eq_none_iff {l : List (κ × ν)} {k : κ} : l.lookup k = none ↔ k ∉ l.map Prod.fst := by
  simp only [List.lookup_eq_none_iff, List.mem_map, not_exists, not_and, bne_iff_ne, ne_eq]
  exact forall₂_congr fun p _ => ⟨fun h e => h e.symm, fun h e => h e.symm⟩

theorem lookup_eq_some_iff {l : List (κ × ν)} (hl : (l.map Prod.fst).Nodup) {k : κ} {v : ν} :
    l.lookup k = some v ↔ (k, v) ∈ l := by
  induction l with
  | nil => simp
  | cons e l ih =>
    obtain ⟨k', v'⟩ := e
    rw [List.map_cons, List.nodup_cons] at hl
    by_cases hk : k = k'
    · subst hk
      have : (k, v) ∉ l := fun h => hl.1 (List.mem_map.2 ⟨_, h, rfl⟩)
      simp [this, eq_comm]
    · simp [hk, ih hl.2]

@[simp] theorem get?_eq_none_iff {m : HashMap κ ν} {k : κ} : m.get? k = none ↔ k ∉ m.keys :=
  lookup_eq_none_iff

theorem get?_eq_some_iff {m : HashMap κ ν} {k : κ} {v : ν} : m.get? k = some v ↔ (k, v) ∈ m.entries :=
  lookup_eq_some_iff m.nodup

theorem mem_keys_iff {m : HashMap κ ν} {k : κ} : k ∈ m.keys ↔ ∃ v, m.get? k = some v := by
  rw [← not_iff_not, ← get?_eq_none_iff]
  simp [Option.eq_none_iff_forall_not_mem]

/-- `HashMap::insert`: the new entry replaces any entry of the same key. -/
def insert (m : HashMap κ ν) (k : κ) (v : ν) : HashMap κ ν where
  entries := m.entries.filter (fun e => e.1 ≠ k) ++ [(k, v)]
  nodup := by
    rw [List.map_append, List.nodup_append]
    refine ⟨(List.filter_sublist _).map _ |>.nodup m.nodup, List.nodup_singleton _, ?_⟩
    intro a ha hb
    obtain ⟨e, he, rfl⟩ := List.mem_map.1 ha
    simp only [List.map_cons, List.map_nil, List.mem_singleton] at hb
    simp_all [List.mem_filter]

@[simp] theorem get?_insert (m : HashMap κ ν) (k k' : κ) (v : ν) :
    (m.insert k v).get? k' = if k' = k then some v else m.get? k' := by
  simp only [get?, insert]
  induction m.entries with
  | nil => simp
  | cons e l ih =>
    obtain ⟨k'', v''⟩ := e
    by_cases h₁ : k'' = k <;> by_cases h₂ : k' = k'' <;> simp_all [List.filter_cons]

@[simp] theorem mem_keys_insert (m : HashMap κ ν) (k k' : κ) (v : ν) :
    k' ∈ (m.insert k v).keys ↔ k' = k ∨ k' ∈ m.keys := by
  simp only [mem_keys_iff, get?_insert]
  split <;> simp_all

/-- A property of every entry survives inserting an entry that has it. -/
theorem forall_get?_insert {P : κ → ν → Prop} {m : HashMap κ ν}
    (hm : ∀ k v, m.get? k = some v → P k v) (k : κ) (v : ν) (hv : P k v) :
    ∀ k' v', (m.insert k v).get? k' = some v' → P k' v' := by
  intro k' v' h
  rw [get?_insert] at h
  split_ifs at h with hk
  · cases h
    exact hk ▸ hv
  · exact hm k' v' h

/-- `*map.entry(k).or_insert(v)` when only the insertion matters. -/
def orInsert (m : HashMap κ ν) (k : κ) (v : ν) : HashMap κ ν :=
  match m.get? k with
  | none => m.insert k v
  | some _ => m

@[simp] theorem get?_orInsert (m : HashMap κ ν) (k k' : κ) (v : ν) :
    (m.orInsert k v).get? k' = if k' = k then some ((m.get? k).getD v) else m.get? k' := by
  cases h : m.get? k <;> by_cases hk : k' = k <;> simp [orInsert, h, hk]

end HashMap

end Lwk
