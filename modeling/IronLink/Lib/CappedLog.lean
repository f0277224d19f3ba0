import IronLink.Lib.Ttl
import Mathlib.Data.List.Infix

/-!
# Logs that keep their newest entries

A log is a list, newest entry first. A copy of it that is cut to a capacity from time to time
holds its newest entries: all of them up to the capacity, and a few more while cuts are due.

Results:
* `HoldsNewest.push`, `HoldsNewest.trim`: what an entry and a cut do to the copy.
* `HoldsNewest.eq_take`: with no cut due, the copy is the newest entries.
* `lookup_lpush`, `lookup_ltrim`: `LPUSH` and `LTRIM` under a key that may expire.
-/

namespace Lib

section HoldsNewest

variable {α : Type*} {cap slack : ℕ} {log copy : List α}

/-- `copy` is the newest entries of `log`: `cap` of them if there are as many, and `slack` more at
    most. -/
structure HoldsNewest (cap slack : ℕ) (log copy : List α) : Prop where
  newest : copy <+: log
  enough : min cap log.length ≤ copy.length
  bounded : copy.length ≤ cap + slack

theorem holdsNewest_singleton (cap slack : ℕ) (x : α) : HoldsNewest cap (slack + 1) [x] [x] := by
  refine ⟨List.prefix_rfl, min_le_right _ _, ?_⟩
  simp only [List.length_singleton]
  omega

/-- A new entry makes one more cut due. -/
theorem HoldsNewest.push (h : HoldsNewest cap slack log copy) (x : α) :
    HoldsNewest cap (slack + 1) (x :: log) (x :: copy) := by
  have henough := h.enough
  have hbounded := h.bounded
  refine ⟨List.cons_prefix_cons.mpr ⟨rfl, h.newest⟩, ?_, ?_⟩
  · simp only [List.length_cons]
    omega
  · simp only [List.length_cons]
    omega

/-- After a cut none is due. -/
theorem HoldsNewest.trim (h : HoldsNewest cap slack log copy) :
    HoldsNewest cap 0 log (copy.take cap) := by
  have henough := h.enough
  refine ⟨(List.take_prefix _ _).trans h.newest, ?_, ?_⟩
  · rw [List.length_take]
    omega
  · rw [List.length_take]
    omega

theorem HoldsNewest.mono {slack' : ℕ} (h : HoldsNewest cap slack log copy)
    (hle : slack ≤ slack') : HoldsNewest cap slack' log copy :=
  ⟨h.newest, h.enough, h.bounded.trans (Nat.add_le_add_left hle cap)⟩

theorem HoldsNewest.eq_take (h : HoldsNewest cap 0 log copy) : copy = log.take cap := by
  have hlen : copy.length = (log.take cap).length := by
    have hle := h.newest.length_le
    have henough := h.enough
    have hbounded := h.bounded
    rw [List.length_take]
    omega
  rw [List.prefix_iff_eq_take.mp h.newest, hlen, List.length_take, List.take_eq_take_iff]
  omega

end HoldsNewest

/-! ## Lists in Redis -/

namespace TtlMap

variable {T K α : Type*} [LinearOrder T] [DecidableEq K]

/-- `LPUSH k x`: a missing or expired key counts as the empty list and gets no deadline; a key
    that is there keeps its own. -/
def lpush (m : TtlMap T K (List α)) (now : T) (k : K) (x : α) : TtlMap T K (List α) :=
  match m.lookup now k with
  | some e => m.set k (x :: e.val) e.deadline
  | none => m.set k [x] none

/-- `LTRIM k 0 (n - 1)`, for a list that is not cut to nothing. -/
def ltrim (m : TtlMap T K (List α)) (now : T) (k : K) (n : ℕ) : TtlMap T K (List α) :=
  match m.lookup now k with
  | some e => m.set k (e.val.take n) e.deadline
  | none => m

variable {m : TtlMap T K (List α)} {now : T} {k k' : K}

theorem lookup_set_kept {v : List α} {e : Entry T (List α)} (h : m.lookup now k = some e) :
    (m.set k v e.deadline).lookup now k = some ⟨v, e.deadline⟩ :=
  lookup_of_live (set_self ..) ((Entry.live_congr rfl).mpr (lookup_eq_some.mp h).2)

theorem lookup_lpush (x : α) : (m.lpush now k x).lookup now k =
    some (match m.lookup now k with
      | some e => ⟨x :: e.val, e.deadline⟩
      | none => ⟨[x], none⟩) := by
  unfold lpush
  cases h : m.lookup now k with
  | none => exact lookup_of_live (set_self ..) (Entry.live_of_no_deadline rfl)
  | some e => exact lookup_set_kept h

theorem lookup_ltrim (n : ℕ) : (m.ltrim now k n).lookup now k =
    (m.lookup now k).map fun e => ⟨e.val.take n, e.deadline⟩ := by
  unfold ltrim
  cases h : m.lookup now k with
  | none => exact h
  | some e => exact lookup_set_kept h

theorem lookup_expire {d : T} (hd : now < d) : (m.expire now k d).lookup now k =
    (m.lookup now k).map fun e => ⟨e.val, some d⟩ := by
  cases h : m.lookup now k with
  | none =>
    unfold expire
    rw [h]
    exact h
  | some e =>
    have hself : m.expire now k d k = some ⟨e.val, some d⟩ := by
      rw [expire_self, h]
    exact lookup_of_live hself ((Entry.live_of_deadline rfl).mpr hd)

theorem lpush_of_ne (h : k' ≠ k) (x : α) : m.lpush now k x k' = m k' := by
  unfold lpush
  cases m.lookup now k <;> exact set_of_ne h ..

theorem ltrim_of_ne (h : k' ≠ k) (n : ℕ) : m.ltrim now k n k' = m k' := by
  unfold ltrim
  cases m.lookup now k with
  | none => rfl
  | some e => exact set_of_ne h ..

omit [DecidableEq K] in
theorem lookup_congr {m' : TtlMap T K (List α)} (h : m' k = m k) :
    m'.lookup now k = m.lookup now k := by
  unfold lookup
  rw [h]

end TtlMap

end Lib
