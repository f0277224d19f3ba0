import IronLink.Lib.Ttl

/-!
# What a cache holds

A cache whose entries are all of a kind, key by key: entries that are found are of it, and
storing another one, dropping one and letting time pass keep it so.

Results:
* `holds_set`, `holds_del`, `Holds.get`.
-/

namespace Lib.TtlMap

variable {T K V : Type*} [LinearOrder T] {m : TtlMap T K V} {P Q : K → V → Prop} {k : K} {v : V}

omit [LinearOrder T] in
/-- Every entry, expired or not, has a value that `P` allows under its key. -/
def Holds (P : K → V → Prop) (m : TtlMap T K V) : Prop := ∀ k e, m k = some e → P k e.val

omit [LinearOrder T] in
theorem holds_empty (P : K → V → Prop) : Holds P (fun _ => none : TtlMap T K V) :=
  fun _ _ h => (by cases h)

theorem Holds.get (h : Holds P m) {now : T} (hget : m.get now k = some v) : P k v := by
  obtain ⟨e, hk, -, rfl⟩ := get_eq_some.mp hget
  exact h k e hk

variable [DecidableEq K]

omit [LinearOrder T] in
/-- `Q` may differ from `P` where the new entry is. -/
theorem holds_set (h : Holds P m) (hother : ∀ k' v', k' ≠ k → P k' v' → Q k' v') (hv : Q k v)
    (deadline : Option T) : Holds Q (m.set k v deadline) := by
  intro k' e he
  by_cases hk : k' = k
  · subst hk
    rw [set_self] at he
    rw [← Option.some.inj he]
    exact hv
  · rw [set_of_ne hk] at he
    exact hother k' e.val hk (h k' e he)

omit [LinearOrder T] in
theorem holds_del (h : Holds P m) (k : K) : Holds P (m.del k) := by
  intro k' e he
  by_cases hk : k' = k
  · subst hk
    rw [del_self] at he
    cases he
  · rw [del_of_ne hk] at he
    exact h k' e he

end Lib.TtlMap
