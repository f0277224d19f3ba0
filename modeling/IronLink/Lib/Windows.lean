import IronLink.Lib.Ttl

/-!
# Counters that start over

A limiter counts with `INCR` on a key that expires. When the key is gone the
counter starts over; from one start to the next is a window, and the windows of a
key are numbered. Who gets a number of at most `max` from its `INCR` is admitted.

Result: `Limited.incr`, no more than `max` are admitted in one window, whoever
else increments the counter and whenever its expiry is set.
-/

namespace Lib

variable {T K : Type*} [LinearOrder T] [DecidableEq K]

omit [DecidableEq K] in
/-- The window an `INCR` at `now` counts in, when `current` was the latest so far. -/
def TtlMap.window (m : TtlMap T K ℕ) (now : T) (k : K) (current : ℕ) : ℕ :=
  if (m.lookup now k).isSome then current else current + 1

section

omit [DecidableEq K]

variable {m : TtlMap T K ℕ} {now : T} {k : K} {e : Entry T ℕ}

theorem TtlMap.window_of_none (h : m.lookup now k = none) (current : ℕ) :
    m.window now k current = current + 1 := by
  unfold TtlMap.window
  rw [h]
  rfl

theorem TtlMap.window_of_some (h : m.lookup now k = some e) (current : ℕ) :
    m.window now k current = current := by
  unfold TtlMap.window
  rw [h]
  rfl

theorem TtlMap.incrValue_of_none (h : m.lookup now k = none) : m.incrValue now k = 1 := by
  unfold TtlMap.incrValue TtlMap.get
  rw [h]
  rfl

theorem TtlMap.incrValue_of_some (h : m.lookup now k = some e) :
    m.incrValue now k = e.val + 1 := by
  unfold TtlMap.incrValue TtlMap.get
  rw [h]
  rfl

end

omit [DecidableEq K] in
/-- Under the limit `max`, `tally w` have been admitted in the window `w` of `k`; the
    latest window is `current`. -/
structure Limited (max : ℕ) (m : TtlMap T K ℕ) (now : T) (k : K) (current : ℕ)
    (tally : ℕ → ℕ) : Prop where
  admitted : ∀ w, tally w ≤ max
  later : ∀ w, current < w → tally w = 0
  counted : ∀ e, m.lookup now k = some e → tally current ≤ e.val

variable {max current : ℕ} {m m' : TtlMap T K ℕ} {now t : T} {k : K} {tally tally' : ℕ → ℕ}

omit [DecidableEq K] in
theorem limited_of_none (max current : ℕ) (now : T) (h : m k = none) (htally : ∀ w, tally w = 0) :
    Limited max m now k current tally := by
  refine ⟨fun w => ?_, fun w _ => htally w, fun e he => ?_⟩
  · rw [htally w]
    exact Nat.zero_le max
  · rw [TtlMap.lookup_of_none h] at he
    cases he

omit [DecidableEq K] in
/-- Time passes, other keys change, and nobody is admitted. -/
theorem Limited.frame (h : Limited max m now k current tally) (hk : m' k = m k) (hle : now ≤ t)
    (htally : ∀ w, tally' w ≤ tally w) : Limited max m' t k current tally' := by
  refine ⟨fun w => (htally w).trans (h.admitted w), fun w hw => ?_, fun e he => ?_⟩
  · exact Nat.le_zero.mp ((htally w).trans_eq (h.later w hw))
  · obtain ⟨hentry, hlive⟩ := TtlMap.lookup_eq_some.mp he
    have hbefore := TtlMap.lookup_of_live (hk.symm.trans hentry) (hlive.mono hle)
    exact (htally current).trans (h.counted e hbefore)

/-- The expiry of the counter is set, and nobody is admitted. -/
theorem Limited.expire (h : Limited max m now k current tally) (k' : K) (d : T)
    (htally : ∀ w, tally' w ≤ tally w) : Limited max (m.expire now k' d) now k current tally' := by
  by_cases hk : k = k'
  · subst hk
    refine ⟨fun w => (htally w).trans (h.admitted w), fun w hw => ?_, fun e he => ?_⟩
    · exact Nat.le_zero.mp ((htally w).trans_eq (h.later w hw))
    · obtain ⟨hentry, hlive⟩ := TtlMap.lookup_eq_some.mp he
      rw [TtlMap.expire_self] at hentry
      cases hl : m.lookup now k with
      | none =>
        rw [hl] at hentry
        cases (TtlMap.lookup_of_live hentry hlive).symm.trans hl
      | some e' =>
        rw [hl] at hentry
        obtain rfl := Option.some.inj hentry
        exact (htally current).trans (h.counted e' hl)
  · exact h.frame (TtlMap.expire_of_ne hk now d) le_rfl htally

/-- **One `INCR`.** Whoever it admits is one more in its window. -/
theorem Limited.incr (h : Limited max m now k current tally)
    (htally : ∀ w, tally' w ≤ tally w +
      if w = m.window now k current ∧ m.incrValue now k ≤ max then 1 else 0) :
    Limited max (m.incr now k) now k (m.window now k current) tally' := by
  have hself := TtlMap.incr_self m now k
  have hvalue : tally' (m.window now k current) ≤ m.incrValue now k ∧
      tally' (m.window now k current) ≤ max := by
    have hle := htally (m.window now k current)
    cases hl : m.lookup now k with
    | none =>
      -- the counter starts over, in a window that nobody has been admitted in
      have hfresh := h.later (current + 1) (Nat.lt_succ_self current)
      rw [TtlMap.window_of_none hl] at hle ⊢
      rw [TtlMap.incrValue_of_none hl] at hle ⊢
      split_ifs at hle with hone
      · omega
      · omega
    | some e =>
      have hcounted := h.counted e hl
      have hmax := h.admitted current
      rw [TtlMap.window_of_some hl] at hle ⊢
      rw [TtlMap.incrValue_of_some hl] at hle ⊢
      split_ifs at hle with hin
      · omega
      · omega
  refine ⟨fun w => ?_, fun w hw => ?_, fun e he => ?_⟩
  · by_cases hw : w = m.window now k current
    · rw [hw]
      exact hvalue.2
    · have hle := htally w
      rw [if_neg fun hboth => hw hboth.1] at hle
      exact hle.trans (h.admitted w)
  · have hle := htally w
    rw [if_neg fun hboth => absurd hboth.1 (ne_of_gt hw)] at hle
    have hcurrent : current < w := by
      unfold TtlMap.window at hw
      split_ifs at hw
      · exact hw
      · omega
    have hzero := h.later w hcurrent
    omega
  · obtain ⟨hentry, -⟩ := TtlMap.lookup_eq_some.mp he
    rw [hself] at hentry
    obtain rfl := Option.some.inj hentry
    exact hvalue.1

end Lib
