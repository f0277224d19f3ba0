import Mathlib.Data.List.Basic
import Mathlib.Data.List.Perm.Basic
import Mathlib.Data.Nat.Basic
import Mathlib.Order.Lattice
import Mathlib.Tactic.Common

/-!
# Reading a sorted table by offset and limit

A query sorts rows by a key, the largest first, and answers a page of them. Rows with one key may
come in another order each time. A client reads page after page until one is empty.

Results:
* `readPages_eq`: the client stops, with the pages that are not empty.
* `pagesFrom_perm`: where no key goes over the edge of a page, the pages hold every row once.
* `pages_complete_iff`: and only there, in whatever order the rows come.
-/

namespace Lib

variable {R O K ε : Type*}

/-- The client: `respond k` answers its request `k`. -/
def readPages (respond : ℕ → Except ε (List O)) : ℕ → ℕ → Option (List O)
  | 0, _ => none
  | fuel + 1, k =>
    match respond k with
    | .error _ => none
    | .ok [] => some []
    | .ok (out :: page) => (readPages respond fuel (k + 1)).map (out :: page ++ ·)

/-- `OFFSET offset LIMIT limit`. -/
def pageOf (offset limit : ℕ) (sorted : List R) : List R := (sorted.drop offset).take limit

/-- The pages `k` to `k + m`, the page `j` of the rows in the order `order j`. -/
def pagesFrom (limit : ℕ) (order : ℕ → List R) : ℕ → ℕ → List R
  | 0, _ => []
  | m + 1, k => pageOf (k * limit) limit (order k) ++ pagesFrom limit order m (k + 1)

section Reading

variable {limit k m m' : ℕ} {order : ℕ → List R} {sorted : List R}

theorem pageOf_eq_nil (hlimit : 0 < limit) {offset : ℕ} :
    pageOf offset limit sorted = [] ↔ sorted.length ≤ offset := by
  unfold pageOf
  rw [List.take_eq_nil_iff, List.drop_eq_nil_iff]
  omega

theorem pagesFrom_eq_nil (h : ∀ j, (order j).length ≤ k * limit) :
    pagesFrom limit order m k = [] := by
  induction m generalizing k with
  | zero => rfl
  | succ m ih =>
    have hk : pageOf (k * limit) limit (order k) = [] := by
      unfold pageOf
      rw [List.drop_eq_nil_of_le (h k), List.take_nil]
    rw [pagesFrom, hk, List.nil_append]
    refine ih fun j => (h j).trans ?_
    exact Nat.mul_le_mul_right _ (Nat.le_succ k)

theorem pagesFrom_add :
    pagesFrom limit order (m + m') k =
      pagesFrom limit order m k ++ pagesFrom limit order m' (k + m) := by
  induction m generalizing k with
  | zero => simp [pagesFrom]
  | succ m ih =>
    rw [Nat.succ_add, pagesFrom, pagesFrom, ih, List.append_assoc,
      show k + 1 + m = k + (m + 1) by omega]

/-- The pages after the last row are empty. -/
theorem pagesFrom_stop {n : ℕ} (hlength : ∀ j, (order j).length = n) (hm : n ≤ (k + m) * limit)
    (hle : m ≤ m') : pagesFrom limit order m' k = pagesFrom limit order m k := by
  obtain ⟨rest, rfl⟩ := Nat.exists_eq_add_of_le hle
  have hrest : pagesFrom limit order rest (k + m) = [] := pagesFrom_eq_nil fun j => by
    rw [hlength]
    exact hm
  rw [pagesFrom_add, hrest, List.append_nil]

/-- Pages of rows in one order. -/
theorem pagesFrom_const (sorted : List R) (h : ∀ j, k ≤ j → j < k + m → order j = sorted) :
    pagesFrom limit order m k = (sorted.drop (k * limit)).take (m * limit) := by
  induction m generalizing k with
  | zero => simp [pagesFrom]
  | succ m ih =>
    rw [pagesFrom, h k (le_refl k) (by omega), ih fun j hj hj' => h j (by omega) (by omega),
      pageOf, Nat.succ_mul, Nat.succ_mul, Nat.add_comm (m * limit), List.take_add, List.drop_drop]

/-- The client reads the pages to the end. -/
theorem readPages_eq {respond : ℕ → Except ε (List O)} {f : R → O} (hlimit : 0 < limit) {n : ℕ}
    (hlength : ∀ j, (order j).length = n)
    (hrespond : ∀ j ≤ k + m, respond j = .ok ((pageOf (j * limit) limit (order j)).map f))
    (hm : n ≤ (k + m) * limit) :
    readPages respond (m + 1) k = some ((pagesFrom limit order m k).map f) := by
  induction m generalizing k with
  | zero =>
    have hnil : pageOf (k * limit) limit (order k) = [] :=
      (pageOf_eq_nil hlimit).mpr (by rw [hlength]; simpa using hm)
    rw [readPages, hrespond k (Nat.le_refl k), hnil]
    rfl
  | succ m ih =>
    rw [readPages, hrespond k (by omega), pagesFrom]
    cases hpage : pageOf (k * limit) limit (order k) with
    | nil =>
      have hend := (pageOf_eq_nil hlimit).mp hpage
      rw [hlength] at hend
      have hrest : pagesFrom limit order m (k + 1) = [] := pagesFrom_eq_nil fun j => by
        rw [hlength]
        exact hend.trans (Nat.mul_le_mul_right _ (Nat.le_succ k))
      rw [hrest]
      rfl
    | cons row page =>
      rw [List.map_cons]
      dsimp only
      rw [ih (fun j hj => hrespond j (by omega))
        (by rw [show k + 1 + m = k + (m + 1) by omega]; exact hm), List.map_append]
      rfl

end Reading

/-! ## Rows with one key -/

section Sorted

variable [LinearOrder K] (key : R → K)

/-- `sorted` is an answer of `ORDER BY key DESC`. -/
def IsOrder (rows sorted : List R) : Prop :=
  sorted.Perm rows ∧ sorted.Pairwise fun row row' => key row' ≤ key row

/-- The number of rows above a key, and from it on. -/
def above (rows : List R) (t : K) : ℕ := rows.countP fun row => t < key row

def fromOn (rows : List R) (t : K) : ℕ := rows.countP fun row => t ≤ key row

variable {key} {rows sorted pre post : List R} {row a b : R} {t : K} {p : ℕ}

/-- There are fewer than `p` rows above each of the first `p`. -/
theorem above_lt (h : (pre ++ post).Pairwise fun row row' => key row' ≤ key row)
    (hrow : row ∈ pre) : above key (pre ++ post) (key row) < pre.length := by
  obtain ⟨-, -, hcross⟩ := List.pairwise_append.mp h
  have hpost : post.countP (fun row' => decide (key row < key row')) = 0 := by
    rw [List.countP_eq_zero]
    intro row' hrow'
    simpa using hcross row hrow row' hrow'
  have hpre : pre.countP (fun row' => decide (key row < key row')) ≠ pre.length := by
    intro hall
    have hself := List.countP_eq_length.mp hall row hrow
    simp at hself
  have hle := List.countP_le_length (p := fun row' => decide (key row < key row')) (l := pre)
  unfold above
  rw [List.countP_append, hpost]
  omega

/-- The first `p` rows and one more are from the key of a later row on. -/
theorem lt_fromOn (h : (pre ++ post).Pairwise fun row row' => key row' ≤ key row)
    (hrow : row ∈ post) : pre.length < fromOn key (pre ++ post) (key row) := by
  obtain ⟨-, -, hcross⟩ := List.pairwise_append.mp h
  have hpre : pre.countP (fun row' => decide (key row ≤ key row')) = pre.length := by
    rw [List.countP_eq_length]
    intro row' hrow'
    simpa using hcross row' hrow' row hrow
  have hpost : 0 < post.countP (fun row' => decide (key row ≤ key row')) :=
    List.countP_pos_iff.mpr ⟨row, hrow, by simp⟩
  unfold fromOn
  rw [List.countP_append, hpre]
  omega

/-- Where no key goes over the edge, the rows before it are the same in every order. -/
theorem take_perm (h : IsOrder key rows sorted)
    (hp : ∀ t, ¬ (above key rows t < p ∧ p < fromOn key rows t)) :
    (sorted.take p).Perm (rows.filter fun row => above key rows (key row) < p) := by
  obtain ⟨hperm, hsorted⟩ := h
  have hcut := List.take_append_drop p sorted
  have habove : ∀ t, above key sorted t = above key rows t := fun t => hperm.countP_eq _
  have hfrom : ∀ t, fromOn key sorted t = fromOn key rows t := fun t => hperm.countP_eq _
  rw [← hcut] at hsorted habove hfrom
  have hfilter : sorted.filter (fun row => above key rows (key row) < p) = sorted.take p := by
    rw [← hcut, List.filter_append, hcut, List.filter_eq_self.mpr, List.filter_eq_nil_iff.mpr,
      List.append_nil]
    · intro row hrow
      have hlate := lt_fromOn hsorted hrow
      have hlength : (sorted.take p).length = p := by
        refine List.length_take_of_le (Nat.le_of_not_lt fun hlt => ?_)
        rw [List.drop_eq_nil_of_le hlt.le] at hrow
        cases hrow
      rw [hlength, hfrom] at hlate
      have hearly := hp (key row)
      simp only [decide_eq_true_eq]
      omega
    · intro row hrow
      have hearly := above_lt hsorted hrow
      rw [habove] at hearly
      exact decide_eq_true (hearly.trans_le (List.length_take_le p sorted))
  rw [← hfilter]
  exact hperm.filter _

theorem above_lt_length (hrow : row ∈ rows) : above key rows (key row) < rows.length := by
  refine lt_of_le_of_ne List.countP_le_length fun hall => ?_
  have hself := List.countP_eq_length.mp hall row hrow
  simp at hself

/-- Where no key goes over the edge of a page, the pages hold every row once. -/
theorem pagesFrom_perm {limit : ℕ} {order : ℕ → List R} (hlimit : 0 < limit)
    (horder : ∀ k, IsOrder key rows (order k))
    (hedge : ∀ t k, ¬ (above key rows t < k * limit ∧ k * limit < fromOn key rows t)) :
    (pagesFrom limit order rows.length 0).Perm rows := by
  have hpages : ∀ m k, ((rows.filter fun row => above key rows (key row) < k * limit) ++
      pagesFrom limit order m k).Perm
        (rows.filter fun row => above key rows (key row) < (k + m) * limit) := by
    intro m
    induction m with
    | zero =>
      intro k
      rw [pagesFrom, List.append_nil, Nat.add_zero]
    | succ m ih =>
      intro k
      have hfirst := take_perm (horder k) fun t => hedge t k
      have hnext := take_perm (horder k) fun t => hedge t (k + 1)
      rw [Nat.succ_mul, List.take_add] at hnext
      rw [pagesFrom, ← List.append_assoc, show k + (m + 1) = k + 1 + m by omega]
      refine List.Perm.trans (List.Perm.append_right _ ?_) (ih (k + 1))
      rw [Nat.succ_mul]
      exact (List.Perm.append_right _ hfirst.symm).trans hnext
  have hall := hpages rows.length 0
  have hnone : rows.filter (fun row => above key rows (key row) < 0 * limit) = [] := by
    refine List.filter_eq_nil_iff.mpr fun row _ => ?_
    simp
  have hself : rows.filter (fun row => above key rows (key row) < (0 + rows.length) * limit) =
      rows := by
    refine List.filter_eq_self.mpr fun row hrow => decide_eq_true ?_
    rw [Nat.zero_add]
    exact (above_lt_length hrow).trans_le (Nat.le_mul_of_pos_right _ hlimit)
  rw [hnone, hself, List.nil_append] at hall
  exact hall

theorem length_le_above (h : ∀ row ∈ pre, t < key row) :
    pre.length ≤ above key (pre ++ post) t := by
  unfold above
  rw [List.countP_append, List.countP_eq_length.mpr fun row hrow => decide_eq_true (h row hrow)]
  exact Nat.le_add_right _ _

theorem fromOn_le_length (h : ∀ row ∈ post, key row < t) :
    fromOn key (pre ++ post) t ≤ pre.length := by
  unfold fromOn
  rw [List.countP_append, (List.countP_eq_zero (l := post)).mpr fun row hrow => by
    simpa using h row hrow]
  exact List.countP_le_length

/-- Two rows at an edge that their key goes over. -/
theorem exists_edge (h : IsOrder key rows sorted) (habove : above key rows t < p)
    (hfrom : p < fromOn key rows t) : ∃ pre a b post, sorted = pre ++ a :: b :: post ∧
      pre.length + 1 = p ∧ key a = t ∧ key b = t := by
  obtain ⟨hperm, hsorted⟩ := h
  have habove' : above key sorted t < p := by
    rw [show above key sorted t = above key rows t from hperm.countP_eq _]
    exact habove
  have hfrom' : p < fromOn key sorted t := by
    rw [show fromOn key sorted t = fromOn key rows t from hperm.countP_eq _]
    exact hfrom
  have hlength : p < sorted.length := hfrom'.trans_le List.countP_le_length
  obtain ⟨q, rfl⟩ : ∃ q, p = q + 1 := ⟨p - 1, by omega⟩
  obtain ⟨a, rest, hrest⟩ := List.exists_cons_of_ne_nil
    (l := sorted.drop q) fun hnil => by rw [List.drop_eq_nil_iff] at hnil; omega
  obtain ⟨b, post, rfl⟩ := List.exists_cons_of_ne_nil (l := rest) fun hnil => by
    have hlen := congrArg List.length hrest
    rw [hnil, List.length_drop, List.length_singleton] at hlen
    omega
  have hcut := List.take_append_drop q sorted
  rw [hrest] at hcut
  have hq : (sorted.take q).length = q := List.length_take_of_le (by omega)
  rw [← hcut] at hsorted habove' hfrom'
  obtain ⟨-, htail, hcross⟩ := List.pairwise_append.mp hsorted
  obtain ⟨ha, hb⟩ := List.pairwise_cons.mp htail
  have hba : key b ≤ key a := ha b List.mem_cons_self
  rw [List.append_cons] at habove' hfrom'
  have hlow : key a ≤ t := by
    refine le_of_not_gt fun hgt => ?_
    have hmany : (sorted.take q ++ [a]).length ≤ above key (sorted.take q ++ [a] ++ b :: post) t :=
      length_le_above (List.forall_mem_append.mpr ⟨fun row hrow =>
        hgt.trans_le (hcross row hrow a List.mem_cons_self), List.forall_mem_singleton.mpr hgt⟩)
    rw [List.length_append, hq, List.length_singleton] at hmany
    omega
  have hhigh : t ≤ key b := by
    refine le_of_not_gt fun hlt => ?_
    have hfew : fromOn key (sorted.take q ++ [a] ++ b :: post) t ≤ (sorted.take q ++ [a]).length :=
      fromOn_le_length (List.forall_mem_cons.mpr ⟨hlt, fun row hrow =>
        ((List.pairwise_cons.mp hb).1 row hrow).trans_lt hlt⟩)
    rw [List.length_append, hq, List.length_singleton] at hfew
    omega
  refine ⟨sorted.take q, a, b, post, hcut.symm, by omega, le_antisymm hlow ?_, ?_⟩
  · exact hhigh.trans hba
  · exact le_antisymm (hba.trans hlow) hhigh

/-- The two rows may change places. -/
theorem IsOrder.swap (h : IsOrder key rows (pre ++ a :: b :: post)) (hab : key a = key b) :
    IsOrder key rows (pre ++ b :: a :: post) := by
  obtain ⟨hperm, hsorted⟩ := h
  refine ⟨(List.Perm.append_left pre (.swap a b post)).trans hperm, ?_⟩
  rw [← List.pairwise_map (f := key) (R := fun x y => y ≤ x)] at hsorted ⊢
  rw [List.map_append, List.map_cons, List.map_cons] at hsorted ⊢
  rw [hab] at hsorted
  rw [hab]
  exact hsorted

/-- If the pages hold every row once in whatever order the rows come, no key goes over the edge of
    a page. -/
theorem edge_of_perm {limit : ℕ} (hlimit : 0 < limit) {f : R → O} (hrows : (rows.map f).Nodup)
    (hall : ∀ order : ℕ → List R, (∀ k, IsOrder key rows (order k)) →
      ((pagesFrom limit order rows.length 0).map f).Perm (rows.map f)) (t : K) (k : ℕ) :
    ¬ (above key rows t < k * limit ∧ k * limit < fromOn key rows t) := by
  rintro ⟨habove, hfrom⟩
  have hsome : IsOrder key rows (rows.mergeSort fun row row' => key row' ≤ key row) := by
    refine ⟨List.mergeSort_perm rows _, ?_⟩
    have hpairs : (rows.mergeSort fun row row' => key row' ≤ key row).Pairwise
        fun row row' => decide (key row' ≤ key row) = true := List.pairwise_mergeSort
      (fun x y z hxy hyz => decide_eq_true ((of_decide_eq_true hyz).trans (of_decide_eq_true hxy)))
      (fun x y => by simpa using le_total (key y) (key x)) rows
    exact hpairs.imp fun hle => of_decide_eq_true hle
  obtain ⟨pre, a, b, post, hsorted, hpre, ha, hb⟩ := exists_edge hsome habove hfrom
  rw [hsorted] at hsome
  have hswapped := hsome.swap (ha.trans hb.symm)
  have hlength : rows.length = pre.length + 2 + post.length := by
    rw [← hsome.1.length_eq]
    simp
    omega
  -- the pages up to the edge see the rows in one order, the pages after it in the other
  have hread := hall (fun j => if j < k then pre ++ a :: b :: post else pre ++ b :: a :: post)
    fun j => by split_ifs <;> assumption
  obtain ⟨m, hm⟩ : ∃ m, rows.length = k + m :=
    ⟨rows.length - k, by have := Nat.le_mul_of_pos_right k hlimit; omega⟩
  rw [hm, pagesFrom_add, pagesFrom_const (pre ++ a :: b :: post) fun j _ hj =>
      if_pos (by omega), pagesFrom_const (pre ++ b :: a :: post) fun j hj _ =>
      if_neg (by omega)] at hread
  have hfirst : ((pre ++ a :: b :: post).drop (0 * limit)).take (k * limit) = pre ++ [a] := by
    rw [Nat.zero_mul, List.drop_zero, ← hpre, List.append_cons]
    exact List.take_left' (by simp)
  have hsecond : ((pre ++ b :: a :: post).drop ((0 + k) * limit)).take (m * limit) =
      a :: post := by
    rw [Nat.zero_add, ← hpre, List.append_cons, List.drop_left' (by simp)]
    refine List.take_of_length_le ?_
    have hk := Nat.le_mul_of_pos_right k hlimit
    have hm' := Nat.le_mul_of_pos_right m hlimit
    rw [List.length_cons]
    omega
  rw [hfirst, hsecond] at hread
  have htwice := hread.nodup_iff.mpr hrows
  rw [List.append_assoc, List.map_append] at htwice
  exact (List.nodup_cons.mp (List.nodup_append.mp htwice).2.1).1 List.mem_cons_self

/-- A client is shown every row once, in whatever order rows with one key come, if and only if no
    key goes over the edge of a page. -/
theorem pages_complete_iff {limit : ℕ} (hlimit : 0 < limit) {f : R → O}
    (hrows : (rows.map f).Nodup) :
    (∀ order : ℕ → List R, (∀ k, IsOrder key rows (order k)) →
      ((pagesFrom limit order rows.length 0).map f).Perm (rows.map f)) ↔
    ∀ t k, ¬ (above key rows t < k * limit ∧ k * limit < fromOn key rows t) :=
  ⟨edge_of_perm hlimit hrows, fun hedge _ horder => (pagesFrom_perm hlimit horder hedge).map f⟩

end Sorted

end Lib
