import Mathlib.Data.Int.Notation
import Mathlib.Tactic.Common

/-!
# `str(n)`

An integer in decimal, with `-` before the digits of a negative one.

Results:
* `toString_injective`: no two integers are written alike.
* `not_mem_toString`: no other character occurs.
-/

namespace IronLink.Decimal

theorem toList_toString_ofNat (m : ℕ) :
    (toString (Int.ofNat m)).toList = Nat.toDigits 10 m := Nat.toList_repr

theorem toList_toString_negSucc (m : ℕ) :
    (toString (Int.negSucc m)).toList = '-' :: Nat.toDigits 10 (m + 1) := by
  change ("-" ++ (m + 1).repr).toList = _
  rw [String.toList_append, Nat.toList_repr]
  rfl

theorem isDigit_of_mem {m : ℕ} {c : Char} (h : c ∈ Nat.toDigits 10 m) : c.isDigit = true :=
  Nat.isDigit_of_mem_toDigits (by decide) (by decide) h

theorem mem_toList_toString {n : ℤ} {c : Char} (h : c ∈ (toString n).toList) :
    c.isDigit = true ∨ c = '-' := by
  cases n with
  | ofNat m =>
    rw [toList_toString_ofNat] at h
    exact .inl (isDigit_of_mem h)
  | negSucc m =>
    rw [toList_toString_negSucc] at h
    rcases List.mem_cons.mp h with h | h
    · exact .inr h
    · exact .inl (isDigit_of_mem h)

theorem toList_toString_ne_nil (n : ℤ) : (toString n).toList ≠ [] := by
  cases n with
  | ofNat m =>
    rw [toList_toString_ofNat]
    exact Nat.toDigits_ne_nil
  | negSucc m =>
    rw [toList_toString_negSucc]
    exact List.cons_ne_nil _ _

theorem toDigits_injective {m k : ℕ} (h : Nat.toDigits 10 m = Nat.toDigits 10 k) : m = k := by
  have hread := congrArg (Nat.ofDigitChars 10 · 0) h
  simpa only [Nat.ofDigitChars_toDigits (b := 10) (by decide) (by decide)] using hread

theorem toString_injective {m n : ℤ} (h : toString m = toString n) : m = n := by
  have hlist := congrArg String.toList h
  have hsign : ∀ j k : ℕ, Nat.toDigits 10 j ≠ '-' :: Nat.toDigits 10 k := fun j k heq => by
    have hminus : '-' ∈ Nat.toDigits 10 j := by
      rw [heq]
      exact List.mem_cons_self
    exact absurd (isDigit_of_mem hminus) (by decide)
  cases m with
  | ofNat j =>
    cases n with
    | ofNat k =>
      rw [toList_toString_ofNat, toList_toString_ofNat] at hlist
      rw [toDigits_injective hlist]
    | negSucc k =>
      rw [toList_toString_ofNat, toList_toString_negSucc] at hlist
      exact absurd hlist (hsign j (k + 1))
  | negSucc j =>
    cases n with
    | ofNat k =>
      rw [toList_toString_ofNat, toList_toString_negSucc] at hlist
      exact absurd hlist.symm (hsign k (j + 1))
    | negSucc k =>
      rw [toList_toString_negSucc, toList_toString_negSucc] at hlist
      have hsucc := toDigits_injective (List.tail_eq_of_cons_eq hlist)
      rw [Nat.succ.inj hsucc]

/-- No character that is neither a digit nor `-` occurs. -/
theorem not_mem_toString {c : Char} (hdigit : c.isDigit = false) (hsign : c ≠ '-') (n : ℤ) :
    c ∉ (toString n).toList := by
  intro h
  rcases mem_toList_toString h with h | h
  · rw [hdigit] at h
    cases h
  · exact hsign h

end IronLink.Decimal
