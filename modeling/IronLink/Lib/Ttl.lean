import Mathlib.Data.Finset.Insert
import Mathlib.Logic.Function.Basic
import Mathlib.Order.Lattice
import Mathlib.Tactic.Common

/-!
# Key-value maps whose keys expire

The commands of a Redis-like store on one family of keys: `SET … EX`, `GET`,
`GETDEL`, `DEL`, `EXPIRE` and `INCR`, on keys that hold a hash with one field `HSET`,
and on keys that hold sets `SADD` and `SMEMBERS`. A key with a deadline is gone from
its deadline on; a key without one stays. Expired entries are kept in the map
and hidden by `lookup`, so that letting time pass changes no map.

The clock `T` is any linear order; the caller computes deadlines.
-/

namespace Lib

/-- The value of a key and the moment it expires; `none`: it never does. -/
@[ext] structure Entry (T V : Type*) where
  val : V
  deadline : Option T

/-- Keys with values that may expire. -/
abbrev TtlMap (T K V : Type*) := K → Option (Entry T V)

section

variable {T K V : Type*} [LinearOrder T]

/-- The entry has not expired at `now`. -/
def Entry.Live (e : Entry T V) (now : T) : Prop :=
  match e.deadline with
  | none => True
  | some d => now < d

instance (e : Entry T V) (now : T) : Decidable (e.Live now) :=
  match h : e.deadline with
  | none => isTrue (by simp [Entry.Live, h])
  | some d => decidable_of_iff (now < d) (by simp [Entry.Live, h])

/-- An entry that is live at some moment was live before. -/
theorem Entry.Live.mono {e : Entry T V} {t u : T} (h : e.Live u) (htu : t ≤ u) : e.Live t := by
  unfold Entry.Live at *
  split at h
  · trivial
  · exact lt_of_le_of_lt htu h

/-- Liveness depends on the deadline alone. -/
theorem Entry.live_congr {V' : Type*} {e : Entry T V} {f : Entry T V'} {now : T}
    (h : f.deadline = e.deadline) : f.Live now ↔ e.Live now := by
  unfold Entry.Live
  rw [h]

theorem Entry.live_of_deadline {e : Entry T V} {d now : T} (h : e.deadline = some d) :
    e.Live now ↔ now < d := by
  unfold Entry.Live
  rw [h]

theorem Entry.live_of_no_deadline {e : Entry T V} {now : T} (h : e.deadline = none) :
    e.Live now := by
  unfold Entry.Live
  rw [h]
  trivial

namespace TtlMap

/-- The entry a command at `now` finds under `k`. -/
def lookup (m : TtlMap T K V) (now : T) (k : K) : Option (Entry T V) :=
  (m k).filter fun e => e.Live now

/-- `GET k`. -/
def get (m : TtlMap T K V) (now : T) (k : K) : Option V := (m.lookup now k).map Entry.val

variable [DecidableEq K]

/-- `SET k v`, with `EX` when a deadline is given. -/
def set (m : TtlMap T K V) (k : K) (v : V) (deadline : Option T) : TtlMap T K V :=
  Function.update m k (some ⟨v, deadline⟩)

/-- `DEL k`. -/
def del (m : TtlMap T K V) (k : K) : TtlMap T K V := Function.update m k none

/-- `EXPIRE k`: sets the deadline of a key that is there. -/
def expire (m : TtlMap T K V) (now : T) (k : K) (deadline : T) : TtlMap T K V :=
  match m.lookup now k with
  | some e => m.set k e.val (some deadline)
  | none => m

/-- `INCR k`: a missing or expired key counts from 0 and gets no deadline; a
    key that is there keeps its own. -/
def incr (m : TtlMap T K ℕ) (now : T) (k : K) : TtlMap T K ℕ :=
  match m.lookup now k with
  | some e => m.set k (e.val + 1) e.deadline
  | none => m.set k 1 none

/-- The value `INCR k` returns. -/
def incrValue (m : TtlMap T K ℕ) (now : T) (k : K) : ℕ := (m.get now k).getD 0 + 1

/-- `HSET k` of a hash with one field: a key that is there keeps its deadline. -/
def hset (m : TtlMap T K V) (now : T) (k : K) (v : V) : TtlMap T K V :=
  m.set k v ((m.lookup now k).bind Entry.deadline)

/-- `SADD k x`: a missing or expired key counts as the empty set and gets no
    deadline; a key that is there keeps its own. -/
def sadd {E : Type*} [DecidableEq E] (m : TtlMap T K (Finset E)) (now : T) (k : K) (x : E) :
    TtlMap T K (Finset E) :=
  match m.lookup now k with
  | some e => m.set k (insert x e.val) e.deadline
  | none => m.set k {x} none

omit [DecidableEq K] in
/-- `SMEMBERS k`. -/
def smembers {E : Type*} (m : TtlMap T K (Finset E)) (now : T) (k : K) : Finset E :=
  (m.get now k).getD ∅

/-! ## What a command leaves under a key -/

omit [DecidableEq K] in
theorem lookup_eq_some {m : TtlMap T K V} {now : T} {k : K} {e : Entry T V} :
    m.lookup now k = some e ↔ m k = some e ∧ e.Live now := by
  simp [lookup, Option.filter_eq_some_iff]

omit [DecidableEq K] in
theorem get_eq_some {m : TtlMap T K V} {now : T} {k : K} {v : V} :
    m.get now k = some v ↔ ∃ e, m k = some e ∧ e.Live now ∧ e.val = v := by
  simp [get, Option.map_eq_some_iff, lookup_eq_some, and_assoc]

omit [DecidableEq K] in
theorem lookup_of_live {m : TtlMap T K V} {now : T} {k : K} {e : Entry T V} (h : m k = some e)
    (hl : e.Live now) : m.lookup now k = some e := lookup_eq_some.mpr ⟨h, hl⟩

omit [DecidableEq K] in
theorem lookup_of_none {m : TtlMap T K V} {now : T} {k : K} (h : m k = none) :
    m.lookup now k = none := by
  unfold lookup
  rw [h]
  rfl

omit [LinearOrder T] in
@[simp] theorem set_self (m : TtlMap T K V) (k : K) (v : V) (d : Option T) :
    m.set k v d k = some ⟨v, d⟩ := Function.update_self ..

omit [LinearOrder T] in
theorem set_of_ne {m : TtlMap T K V} {k k' : K} (h : k' ≠ k) (v : V) (d : Option T) :
    m.set k v d k' = m k' := Function.update_of_ne h ..

omit [LinearOrder T] in
@[simp] theorem del_self (m : TtlMap T K V) (k : K) : m.del k k = none := Function.update_self ..

omit [LinearOrder T] in
theorem del_of_ne {m : TtlMap T K V} {k k' : K} (h : k' ≠ k) : m.del k k' = m k' :=
  Function.update_of_ne h ..

theorem expire_of_ne {m : TtlMap T K V} {k k' : K} (h : k' ≠ k) (now d : T) :
    m.expire now k d k' = m k' := by
  unfold expire
  cases m.lookup now k with
  | none => rfl
  | some e => exact set_of_ne h ..

theorem incr_of_ne {m : TtlMap T K ℕ} {k k' : K} (h : k' ≠ k) (now : T) :
    m.incr now k k' = m k' := by
  unfold incr
  cases m.lookup now k <;> exact set_of_ne h ..

/-- `EXPIRE` keeps values and only replaces the deadline of a live key. -/
theorem expire_self (m : TtlMap T K V) (now : T) (k : K) (d : T) :
    m.expire now k d k = match m.lookup now k with
      | some e => some ⟨e.val, some d⟩
      | none => m k := by
  unfold expire
  cases m.lookup now k <;> simp

/-- `EXPIRE` with a deadline to come hides nothing and changes no value. -/
theorem get_expire (m : TtlMap T K V) {now d : T} (h : now < d) (k k' : K) :
    (m.expire now k d).get now k' = m.get now k' := by
  cases hl : m.lookup now k with
  | none =>
    unfold expire
    rw [hl]
  | some e =>
    by_cases hk : k' = k
    · subst hk
      have hlive : (⟨e.val, some d⟩ : Entry T V).Live now := (Entry.live_of_deadline rfl).mpr h
      have hself : m.expire now k' d k' = some ⟨e.val, some d⟩ := by
        rw [expire_self, hl]
      unfold get
      rw [lookup_of_live hself hlive, hl]
      rfl
    · unfold get lookup
      rw [expire_of_ne hk]

omit [DecidableEq K] in
/-- A value that keeps the deadline of what is found is live; where nothing is found it has
    none. -/
theorem live_kept {V' : Type*} (m : TtlMap T K V) (now : T) (k : K) (v : V') :
    (⟨v, (m.lookup now k).bind Entry.deadline⟩ : Entry T V').Live now := by
  cases hl : m.lookup now k with
  | none => exact Entry.live_of_no_deadline rfl
  | some e => exact (Entry.live_congr rfl).mpr (lookup_eq_some.mp hl).2

theorem incr_self (m : TtlMap T K ℕ) (now : T) (k : K) :
    m.incr now k k = some ⟨m.incrValue now k, (m.lookup now k).bind Entry.deadline⟩ := by
  unfold incr incrValue get
  cases m.lookup now k <;> simp

theorem hset_of_ne {m : TtlMap T K V} {k k' : K} (h : k' ≠ k) (now : T) (v : V) :
    m.hset now k v k' = m k' := set_of_ne h ..

/-- `HSET` followed by `EXPIRE`. -/
theorem hset_expire_self (m : TtlMap T K V) (now d : T) (k : K) (v : V) :
    (m.hset now k v).expire now k d k = some ⟨v, some d⟩ := by
  have hself : m.hset now k v k = some ⟨v, (m.lookup now k).bind Entry.deadline⟩ := set_self ..
  rw [expire_self, lookup_of_live hself (live_kept m now k v)]

section Sets

variable {E : Type*} {m : TtlMap T K (Finset E)} {now : T} {k k' : K}

omit [DecidableEq K] in
theorem smembers_of_live {e : Entry T (Finset E)} (h : m k = some e) (hl : e.Live now) :
    m.smembers now k = e.val := by
  unfold smembers get
  rw [lookup_of_live h hl]
  rfl

omit [DecidableEq K] in
theorem smembers_of_lookup_none (h : m.lookup now k = none) : m.smembers now k = ∅ := by
  unfold smembers get
  rw [h]
  rfl

omit [DecidableEq K] in
/-- A member is held by a live entry. -/
theorem mem_smembers {x : E} :
    x ∈ m.smembers now k ↔ ∃ e, m k = some e ∧ e.Live now ∧ x ∈ e.val := by
  constructor
  · intro h
    cases hl : m.lookup now k with
    | none => simp [smembers_of_lookup_none hl] at h
    | some e =>
      obtain ⟨hk, hlive⟩ := lookup_eq_some.mp hl
      rw [smembers_of_live hk hlive] at h
      exact ⟨e, hk, hlive, h⟩
  · rintro ⟨e, hk, hlive, hx⟩
    rw [smembers_of_live hk hlive]
    exact hx

variable [DecidableEq E]

theorem sadd_self (m : TtlMap T K (Finset E)) (now : T) (k : K) (x : E) :
    m.sadd now k x k =
      some ⟨insert x (m.smembers now k), (m.lookup now k).bind Entry.deadline⟩ := by
  unfold sadd smembers get
  cases m.lookup now k <;> simp

theorem sadd_of_ne (h : k' ≠ k) (now : T) (x : E) : m.sadd now k x k' = m k' := by
  unfold sadd
  cases m.lookup now k <;> exact set_of_ne h ..

/-- `SADD` followed by `EXPIRE`. -/
theorem sadd_expire_self (m : TtlMap T K (Finset E)) (now d : T) (k : K) (x : E) :
    (m.sadd now k x).expire now k d k = some ⟨insert x (m.smembers now k), some d⟩ := by
  rw [expire_self, lookup_of_live (sadd_self m now k x) (live_kept m now k _)]

end Sets

end TtlMap

end

end Lib
