import IronLink.Lib.Substring
import Mathlib.Data.List.DropRight
import Mathlib.Tactic.Common

/-!
# White space and lower case

`str.strip()`, `str.lower()` and `str.replace()` of Python. Lower case is the default
conversion of the Unicode character database: a table of code points, `İ`, which becomes two
characters, and `Σ`, which is written `ς` at the end of a word. Where a word ends is left
open, since the results hold however it is found.

Results:
* `lower_lower`: what is in lower case stays as it is.
* `strip_lower`: lower case brings no white space to the ends of a text.
* `lowerChars_append`, `lowerWithin_eq_iff`: the lower case of two texts is that of each
  beside the other, and what stands beside it matters to `Σ` only.
-/

namespace IronLink.Text

/-! ## Model -/

/-- The code points of the characters with `c.isspace()`. -/
def spaces : List ℕ :=
  [0x9, 0xa, 0xb, 0xc, 0xd, 0x1c, 0x1d, 0x1e, 0x1f, 0x20, 0x85, 0xa0, 0x1680, 0x2000, 0x2001,
    0x2002, 0x2003, 0x2004, 0x2005, 0x2006, 0x2007, 0x2008, 0x2009, 0x200a, 0x2028, 0x2029,
    0x202f, 0x205f, 0x3000]

def isSpace (c : Char) : Bool := c.toNat ∈ spaces

def stripChars (cs : List Char) : List Char := (cs.dropWhile isSpace).rdropWhile isSpace

/-- `s.strip()`. -/
def strip (s : String) : String := String.ofList (stripChars s.toList)

/-- `count` code points from `first` on, `step` apart, whose lower case starts at `lower`. -/
structure CaseRun where
  first : ℕ
  count : ℕ
  step : ℕ
  lower : ℕ

/-- The code points whose lower case is one other character, except `Σ`. -/
def caseRuns : List CaseRun :=
  [⟨0x41, 26, 1, 0x61⟩, ⟨0xc0, 23, 1, 0xe0⟩, ⟨0xd8, 7, 1, 0xf8⟩, ⟨0x100, 24, 2, 0x101⟩,
    ⟨0x132, 3, 2, 0x133⟩, ⟨0x139, 8, 2, 0x13a⟩, ⟨0x14a, 23, 2, 0x14b⟩, ⟨0x178, 1, 2, 0xff⟩,
    ⟨0x179, 3, 2, 0x17a⟩, ⟨0x181, 1, 2, 0x253⟩, ⟨0x182, 2, 2, 0x183⟩, ⟨0x186, 1, 2, 0x254⟩,
    ⟨0x187, 1, 2, 0x188⟩, ⟨0x189, 2, 1, 0x256⟩, ⟨0x18b, 1, 2, 0x18c⟩, ⟨0x18e, 1, 2, 0x1dd⟩,
    ⟨0x18f, 1, 2, 0x259⟩, ⟨0x190, 1, 2, 0x25b⟩, ⟨0x191, 1, 2, 0x192⟩, ⟨0x193, 1, 2, 0x260⟩,
    ⟨0x194, 1, 2, 0x263⟩, ⟨0x196, 1, 2, 0x269⟩, ⟨0x197, 1, 2, 0x268⟩, ⟨0x198, 1, 2, 0x199⟩,
    ⟨0x19c, 1, 2, 0x26f⟩, ⟨0x19d, 1, 2, 0x272⟩, ⟨0x19f, 1, 2, 0x275⟩, ⟨0x1a0, 3, 2, 0x1a1⟩,
    ⟨0x1a6, 1, 2, 0x280⟩, ⟨0x1a7, 1, 2, 0x1a8⟩, ⟨0x1a9, 1, 2, 0x283⟩, ⟨0x1ac, 1, 2, 0x1ad⟩,
    ⟨0x1ae, 1, 2, 0x288⟩, ⟨0x1af, 1, 2, 0x1b0⟩, ⟨0x1b1, 2, 1, 0x28a⟩, ⟨0x1b3, 2, 2, 0x1b4⟩,
    ⟨0x1b7, 1, 2, 0x292⟩, ⟨0x1b8, 1, 2, 0x1b9⟩, ⟨0x1bc, 1, 2, 0x1bd⟩, ⟨0x1c4, 1, 2, 0x1c6⟩,
    ⟨0x1c5, 1, 2, 0x1c6⟩, ⟨0x1c7, 1, 2, 0x1c9⟩, ⟨0x1c8, 1, 2, 0x1c9⟩, ⟨0x1ca, 1, 2, 0x1cc⟩,
    ⟨0x1cb, 9, 2, 0x1cc⟩, ⟨0x1de, 9, 2, 0x1df⟩, ⟨0x1f1, 1, 2, 0x1f3⟩, ⟨0x1f2, 2, 2, 0x1f3⟩,
    ⟨0x1f6, 1, 2, 0x195⟩, ⟨0x1f7, 1, 2, 0x1bf⟩, ⟨0x1f8, 20, 2, 0x1f9⟩, ⟨0x220, 1, 2, 0x19e⟩,
    ⟨0x222, 9, 2, 0x223⟩, ⟨0x23a, 1, 2, 0x2c65⟩, ⟨0x23b, 1, 2, 0x23c⟩, ⟨0x23d, 1, 2, 0x19a⟩,
    ⟨0x23e, 1, 2, 0x2c66⟩, ⟨0x241, 1, 2, 0x242⟩, ⟨0x243, 1, 2, 0x180⟩, ⟨0x244, 1, 2, 0x289⟩,
    ⟨0x245, 1, 2, 0x28c⟩, ⟨0x246, 5, 2, 0x247⟩, ⟨0x370, 2, 2, 0x371⟩, ⟨0x376, 1, 2, 0x377⟩,
    ⟨0x37f, 1, 2, 0x3f3⟩, ⟨0x386, 1, 2, 0x3ac⟩, ⟨0x388, 3, 1, 0x3ad⟩, ⟨0x38c, 1, 2, 0x3cc⟩,
    ⟨0x38e, 2, 1, 0x3cd⟩, ⟨0x391, 17, 1, 0x3b1⟩, ⟨0x3a4, 8, 1, 0x3c4⟩, ⟨0x3cf, 1, 2, 0x3d7⟩,
    ⟨0x3d8, 12, 2, 0x3d9⟩, ⟨0x3f4, 1, 2, 0x3b8⟩, ⟨0x3f7, 1, 2, 0x3f8⟩, ⟨0x3f9, 1, 2, 0x3f2⟩,
    ⟨0x3fa, 1, 2, 0x3fb⟩, ⟨0x3fd, 3, 1, 0x37b⟩, ⟨0x400, 16, 1, 0x450⟩, ⟨0x410, 32, 1, 0x430⟩,
    ⟨0x460, 17, 2, 0x461⟩, ⟨0x48a, 27, 2, 0x48b⟩, ⟨0x4c0, 1, 2, 0x4cf⟩, ⟨0x4c1, 7, 2, 0x4c2⟩,
    ⟨0x4d0, 48, 2, 0x4d1⟩, ⟨0x531, 38, 1, 0x561⟩, ⟨0x10a0, 38, 1, 0x2d00⟩, ⟨0x10c7, 1, 2, 0x2d27⟩,
    ⟨0x10cd, 1, 2, 0x2d2d⟩, ⟨0x13a0, 80, 1, 0xab70⟩, ⟨0x13f0, 6, 1, 0x13f8⟩,
    ⟨0x1c90, 43, 1, 0x10d0⟩, ⟨0x1cbd, 3, 1, 0x10fd⟩, ⟨0x1e00, 75, 2, 0x1e01⟩,
    ⟨0x1e9e, 1, 2, 0xdf⟩, ⟨0x1ea0, 48, 2, 0x1ea1⟩, ⟨0x1f08, 8, 1, 0x1f00⟩, ⟨0x1f18, 6, 1, 0x1f10⟩,
    ⟨0x1f28, 8, 1, 0x1f20⟩, ⟨0x1f38, 8, 1, 0x1f30⟩, ⟨0x1f48, 6, 1, 0x1f40⟩,
    ⟨0x1f59, 4, 2, 0x1f51⟩, ⟨0x1f68, 8, 1, 0x1f60⟩, ⟨0x1f88, 8, 1, 0x1f80⟩,
    ⟨0x1f98, 8, 1, 0x1f90⟩, ⟨0x1fa8, 8, 1, 0x1fa0⟩, ⟨0x1fb8, 2, 1, 0x1fb0⟩,
    ⟨0x1fba, 2, 1, 0x1f70⟩, ⟨0x1fbc, 1, 2, 0x1fb3⟩, ⟨0x1fc8, 4, 1, 0x1f72⟩,
    ⟨0x1fcc, 1, 2, 0x1fc3⟩, ⟨0x1fd8, 2, 1, 0x1fd0⟩, ⟨0x1fda, 2, 1, 0x1f76⟩,
    ⟨0x1fe8, 2, 1, 0x1fe0⟩, ⟨0x1fea, 2, 1, 0x1f7a⟩, ⟨0x1fec, 1, 2, 0x1fe5⟩,
    ⟨0x1ff8, 2, 1, 0x1f78⟩, ⟨0x1ffa, 2, 1, 0x1f7c⟩, ⟨0x1ffc, 1, 2, 0x1ff3⟩, ⟨0x2126, 1, 2, 0x3c9⟩,
    ⟨0x212a, 1, 2, 0x6b⟩, ⟨0x212b, 1, 2, 0xe5⟩, ⟨0x2132, 1, 2, 0x214e⟩, ⟨0x2160, 16, 1, 0x2170⟩,
    ⟨0x2183, 1, 2, 0x2184⟩, ⟨0x24b6, 26, 1, 0x24d0⟩, ⟨0x2c00, 48, 1, 0x2c30⟩,
    ⟨0x2c60, 1, 2, 0x2c61⟩, ⟨0x2c62, 1, 2, 0x26b⟩, ⟨0x2c63, 1, 2, 0x1d7d⟩, ⟨0x2c64, 1, 2, 0x27d⟩,
    ⟨0x2c67, 3, 2, 0x2c68⟩, ⟨0x2c6d, 1, 2, 0x251⟩, ⟨0x2c6e, 1, 2, 0x271⟩, ⟨0x2c6f, 1, 2, 0x250⟩,
    ⟨0x2c70, 1, 2, 0x252⟩, ⟨0x2c72, 1, 2, 0x2c73⟩, ⟨0x2c75, 1, 2, 0x2c76⟩, ⟨0x2c7e, 2, 1, 0x23f⟩,
    ⟨0x2c80, 50, 2, 0x2c81⟩, ⟨0x2ceb, 2, 2, 0x2cec⟩, ⟨0x2cf2, 1, 2, 0x2cf3⟩,
    ⟨0xa640, 23, 2, 0xa641⟩, ⟨0xa680, 14, 2, 0xa681⟩, ⟨0xa722, 7, 2, 0xa723⟩,
    ⟨0xa732, 31, 2, 0xa733⟩, ⟨0xa779, 2, 2, 0xa77a⟩, ⟨0xa77d, 1, 2, 0x1d79⟩,
    ⟨0xa77e, 5, 2, 0xa77f⟩, ⟨0xa78b, 1, 2, 0xa78c⟩, ⟨0xa78d, 1, 2, 0x265⟩, ⟨0xa790, 2, 2, 0xa791⟩,
    ⟨0xa796, 10, 2, 0xa797⟩, ⟨0xa7aa, 1, 2, 0x266⟩, ⟨0xa7ab, 1, 2, 0x25c⟩, ⟨0xa7ac, 1, 2, 0x261⟩,
    ⟨0xa7ad, 1, 2, 0x26c⟩, ⟨0xa7ae, 1, 2, 0x26a⟩, ⟨0xa7b0, 1, 2, 0x29e⟩, ⟨0xa7b1, 1, 2, 0x287⟩,
    ⟨0xa7b2, 1, 2, 0x29d⟩, ⟨0xa7b3, 1, 2, 0xab53⟩, ⟨0xa7b4, 8, 2, 0xa7b5⟩, ⟨0xa7c4, 1, 2, 0xa794⟩,
    ⟨0xa7c5, 1, 2, 0x282⟩, ⟨0xa7c6, 1, 2, 0x1d8e⟩, ⟨0xa7c7, 2, 2, 0xa7c8⟩, ⟨0xa7d0, 1, 2, 0xa7d1⟩,
    ⟨0xa7d6, 2, 2, 0xa7d7⟩, ⟨0xa7f5, 1, 2, 0xa7f6⟩, ⟨0xff21, 26, 1, 0xff41⟩,
    ⟨0x10400, 40, 1, 0x10428⟩, ⟨0x104b0, 36, 1, 0x104d8⟩, ⟨0x10570, 11, 1, 0x10597⟩,
    ⟨0x1057c, 15, 1, 0x105a3⟩, ⟨0x1058c, 7, 1, 0x105b3⟩, ⟨0x10594, 2, 1, 0x105bb⟩,
    ⟨0x10c80, 51, 1, 0x10cc0⟩, ⟨0x118a0, 32, 1, 0x118c0⟩, ⟨0x16e40, 32, 1, 0x16e60⟩,
    ⟨0x1e900, 34, 1, 0x1e922⟩]

def CaseRun.covers (r : CaseRun) (n : ℕ) : Bool :=
  Nat.ble r.first n && Nat.blt (n - r.first) (r.count * r.step) &&
    Nat.beq ((n - r.first) % r.step) 0

def lowerCode (n : ℕ) : ℕ :=
  match caseRuns.find? (·.covers n) with
  | some r => r.lower + (n - r.first)
  | none => n

/-- The lower case of `c` between `before`, the last character first, and `after`. -/
def lowerChar (finalSigma : List Char → List Char → Bool) (before : List Char) (c : Char)
    (after : List Char) : List Char :=
  if c = 'İ' then ['i', '\u0307']
  else if c = 'Σ' then [if finalSigma before after then 'ς' else 'σ']
  else [Char.ofNat (lowerCode c.toNat)]

def lowerChars (finalSigma : List Char → List Char → Bool) : List Char → List Char → List Char
  | _, [] => []
  | before, c :: after =>
    lowerChar finalSigma before c after ++ lowerChars finalSigma (c :: before) after

/-- `s.lower()`. -/
def lower (finalSigma : List Char → List Char → Bool) (s : String) : String :=
  String.ofList (lowerChars finalSigma [] s.toList)

/-- `s.replace(old, new)`. -/
def replaceAll (s old new : String) : String :=
  String.ofList (Lib.replace old.toList new.toList 0 s.toList)

/-! ## The table -/

theorem exists_of_covers {r : CaseRun} {n : ℕ} (h : r.covers n = true) :
    ∃ i < r.count, n = r.first + i * r.step := by
  simp only [CaseRun.covers, Bool.and_eq_true, Nat.ble_eq, Nat.blt_eq, Nat.beq_eq] at h
  obtain ⟨⟨hfirst, hlast⟩, hstep⟩ := h
  obtain ⟨i, hi⟩ := Nat.dvd_of_mod_eq_zero hstep
  rw [Nat.mul_comm] at hi
  refine ⟨i, ?_, by omega⟩
  rw [hi] at hlast
  exact Nat.lt_of_mul_lt_mul_right hlast

/-- The last of the code points, less the first. -/
def CaseRun.span (r : CaseRun) : ℕ := (r.count - 1) * r.step

theorem le_span {r : CaseRun} {i : ℕ} (h : i < r.count) : i * r.step ≤ r.span :=
  Nat.mul_le_mul_right r.step (by omega)

/-- No lower case of `r` is a code point of `s`: they lie apart, or alternate. -/
def CaseRun.apart (r s : CaseRun) : Bool :=
  Nat.blt (r.lower + r.span) s.first || Nat.blt (s.first + s.span) r.lower ||
    (Nat.beq r.step 2 && Nat.beq s.step 2 && Nat.beq ((r.lower + s.first) % 2) 1)

theorem not_covers_of_apart {r s : CaseRun} (h : r.apart s = true) {i : ℕ} (hi : i < r.count) :
    s.covers (r.lower + i * r.step) = false := by
  rw [Bool.eq_false_iff]
  intro hcovers
  obtain ⟨j, hj, heq⟩ := exists_of_covers hcovers
  have hr := le_span hi
  have hs := le_span hj
  simp only [CaseRun.apart, Bool.or_eq_true, Bool.and_eq_true, Nat.blt_eq, Nat.beq_eq] at h
  rcases h with (hbefore | hafter) | ⟨⟨hr2, hs2⟩, hparity⟩
  · omega
  · omega
  · rw [hr2, hs2] at heq
    omega

/-- What a lower case may not be: a code point of the table, one of the two special
    characters, or white space. -/
def barriers : List CaseRun := caseRuns ++ (0x130 :: 0x3a3 :: spaces).map fun n => ⟨n, 1, 2, n⟩

theorem caseRuns_apart : (caseRuns.all fun r => barriers.all fun s => r.apart s) = true := by
  decide +kernel

theorem caseRuns_valid : (caseRuns.all fun r => Nat.blt (r.lower + r.span) 0xd800 ||
    (Nat.blt 0xdfff r.lower && Nat.blt (r.lower + r.span) 0x110000)) = true := by
  decide +kernel

theorem lowerCode_of_not_covers {n : ℕ} (h : ∀ r ∈ caseRuns, r.covers n = false) :
    lowerCode n = n := by
  unfold lowerCode
  rw [List.find?_eq_none.mpr fun r hr => by rw [h r hr]; exact Bool.false_ne_true]

/-- A code point has no lower case in the table, or one that no barrier stands on. -/
theorem lowerCode_cases (n : ℕ) : lowerCode n = n ∨
    (lowerCode n).isValidChar ∧ ∀ s ∈ barriers, s.covers (lowerCode n) = false := by
  cases hfind : caseRuns.find? (·.covers n) with
  | none =>
    left
    unfold lowerCode
    rw [hfind]
  | some r =>
    right
    have hr : r ∈ caseRuns := List.mem_of_find?_eq_some hfind
    have hcovers := List.find?_some (p := fun s : CaseRun => s.covers n) hfind
    obtain ⟨i, hi, hn⟩ := exists_of_covers hcovers
    have hlower : lowerCode n = r.lower + i * r.step := by
      unfold lowerCode
      rw [hfind]
      dsimp only
      rw [hn, Nat.add_sub_cancel_left]
    rw [hlower]
    constructor
    · have hvalid := List.all_eq_true.mp caseRuns_valid r hr
      have hspan := le_span hi
      simp only [Bool.or_eq_true, Bool.and_eq_true, Nat.blt_eq] at hvalid
      unfold Nat.isValidChar
      omega
    · intro s hs
      have hapart := List.all_eq_true.mp caseRuns_apart r hr
      exact not_covers_of_apart (List.all_eq_true.mp hapart s hs) hi

/-! ## Characters -/

/-- `c` is its own lower case. -/
def IsLower (c : Char) : Prop := c ≠ 'İ' ∧ c ≠ 'Σ' ∧ lowerCode c.toNat = c.toNat

variable {finalSigma : List Char → List Char → Bool}

theorem lowerChar_of_isLower {c : Char} (h : IsLower c) (before after : List Char) :
    lowerChar finalSigma before c after = [c] := by
  obtain ⟨hdot, hsigma, hcode⟩ := h
  rw [lowerChar, if_neg hdot, if_neg hsigma, hcode, Char.ofNat_toNat]

theorem single_covers (n : ℕ) : (⟨n, 1, 2, n⟩ : CaseRun).covers n = true := by
  simp [CaseRun.covers]

theorem toNat_ofNat {n : ℕ} (h : n.isValidChar) : (Char.ofNat n).toNat = n := by
  unfold Char.ofNat
  rw [dif_pos h]
  rfl

/-- What no barrier stands on is its own lower case, and no white space. -/
theorem isLower_of_clear {n : ℕ} (hvalid : n.isValidChar)
    (hclear : ∀ s ∈ barriers, s.covers n = false) :
    IsLower (Char.ofNat n) ∧ isSpace (Char.ofNat n) = false := by
  have hsingle : ∀ m ∈ 0x130 :: 0x3a3 :: spaces, n ≠ m := by
    rintro m hm rfl
    have := hclear _ (List.mem_append_right _ (List.mem_map_of_mem hm))
    rw [single_covers] at this
    cases this
  have hcode : (Char.ofNat n).toNat = n := toNat_ofNat hvalid
  refine ⟨⟨fun hdot => ?_, fun hsigma => ?_, ?_⟩, ?_⟩
  · exact hsingle 0x130 (by simp) (hcode.symm.trans (congrArg Char.toNat hdot))
  · exact hsingle 0x3a3 (by simp) (hcode.symm.trans (congrArg Char.toNat hsigma))
  · rw [hcode]
    exact lowerCode_of_not_covers fun r hr => hclear r (List.mem_append_left _ hr)
  · unfold isSpace
    rw [hcode, decide_eq_false_iff_not]
    intro hmem
    exact hsingle n (List.mem_cons_of_mem _ (List.mem_cons_of_mem _ hmem)) rfl

/-- The lower cases that are not in the table. -/
theorem specials_clear : ([0x69, 0x307, 0x3c2, 0x3c3].all fun n => Nat.blt n 0xd800 &&
    barriers.all fun s => !s.covers n) = true := by
  decide +kernel

theorem isLower_special {n : ℕ} (h : n ∈ [0x69, 0x307, 0x3c2, 0x3c3]) :
    IsLower (Char.ofNat n) ∧ isSpace (Char.ofNat n) = false := by
  have hclear := List.all_eq_true.mp specials_clear n h
  rw [Bool.and_eq_true, Nat.blt_eq] at hclear
  refine isLower_of_clear (.inl hclear.1) fun s hs => ?_
  simpa using List.all_eq_true.mp hclear.2 s hs

/-- The lower case of a character is in lower case, and white space only for white space. -/
theorem isLower_of_mem {before after : List Char} {c d : Char}
    (h : d ∈ lowerChar finalSigma before c after) :
    IsLower d ∧ (isSpace c = false → isSpace d = false) := by
  unfold lowerChar at h
  split_ifs at h with hdot hsigma hfinal
  · rcases List.mem_pair.mp h with rfl | rfl
    · exact (isLower_special (n := 0x69) (by simp)).imp_right fun hd _ => hd
    · exact (isLower_special (n := 0x307) (by simp)).imp_right fun hd _ => hd
  · obtain rfl := List.mem_singleton.mp h
    exact (isLower_special (n := 0x3c2) (by simp)).imp_right fun hd _ => hd
  · obtain rfl := List.mem_singleton.mp h
    exact (isLower_special (n := 0x3c3) (by simp)).imp_right fun hd _ => hd
  · obtain rfl := List.mem_singleton.mp h
    rcases lowerCode_cases c.toNat with hsame | ⟨hvalid, hclear⟩
    · rw [hsame, Char.ofNat_toNat]
      exact ⟨⟨hdot, hsigma, hsame⟩, id⟩
    · exact (isLower_of_clear hvalid hclear).imp_right fun hd _ => hd

theorem lowerChar_ne_nil (finalSigma : List Char → List Char → Bool) (before : List Char)
    (c : Char) (after : List Char) :
    lowerChar finalSigma before c after ≠ [] := by
  unfold lowerChar
  split_ifs <;> exact List.cons_ne_nil _ _

/-! ## Texts -/

theorem isLower_of_mem_lowerChars {before cs : List Char} {d : Char}
    (h : d ∈ lowerChars finalSigma before cs) : IsLower d := by
  induction cs generalizing before with
  | nil => cases h
  | cons c cs ih =>
    rcases List.mem_append.mp h with h | h
    · exact (isLower_of_mem h).1
    · exact ih h

theorem lowerChars_of_isLower {cs : List Char} (h : ∀ c ∈ cs, IsLower c) (before : List Char) :
    lowerChars finalSigma before cs = cs := by
  induction cs generalizing before with
  | nil => rfl
  | cons c cs ih =>
    rw [lowerChars, lowerChar_of_isLower (h c List.mem_cons_self),
      ih fun d hd => h d (List.mem_cons_of_mem _ hd)]
    rfl

/-- What is in lower case stays as it is. -/
theorem lower_lower (s : String) : lower finalSigma (lower finalSigma s) = lower finalSigma s := by
  unfold lower
  rw [String.toList_ofList, lowerChars_of_isLower fun c hc => isLower_of_mem_lowerChars hc]

theorem lowerChars_eq_nil {before cs : List Char} :
    lowerChars finalSigma before cs = [] ↔ cs = [] := by
  cases cs with
  | nil => simp [lowerChars]
  | cons c cs => simp [lowerChars, lowerChar_ne_nil]

/-- No white space at either end. -/
structure Stripped (cs : List Char) : Prop where
  first : ∀ c ∈ cs.head?, isSpace c = false
  last : ∀ c ∈ cs.getLast?, isSpace c = false

theorem stripped_stripChars (cs : List Char) : Stripped (stripChars cs) := by
  constructor
  · intro c hc
    obtain ⟨rest, hrest⟩ := List.rdropWhile_prefix isSpace (l := cs.dropWhile isSpace)
    have hhead : (cs.dropWhile isSpace).head? = some c := by
      rw [← hrest, List.head?_append]
      unfold stripChars at hc
      rw [Option.mem_def.mp hc]
      rfl
    rw [← List.find?_not_eq_head?_dropWhile] at hhead
    have hnot := List.find?_some (p := fun c => !isSpace c) hhead
    simpa using hnot
  · intro c hc
    obtain ⟨hne, rfl⟩ := List.mem_getLast?_eq_getLast hc
    exact Bool.eq_false_iff.mpr (List.rdropWhile_last_not isSpace _ hne)

theorem stripChars_eq_self {cs : List Char} (h : Stripped cs) : stripChars cs = cs := by
  have hfirst : cs.dropWhile isSpace = cs := by
    cases cs with
    | nil => rfl
    | cons c cs => exact List.dropWhile_cons_of_neg (by simp [h.first c rfl])
  unfold stripChars
  rw [hfirst, List.rdropWhile_eq_self_iff]
  intro hne
  rw [h.last _ (List.getLast?_eq_getLast_of_ne_nil hne)]
  exact Bool.false_ne_true

/-- What `strip` removes is white space. -/
theorem exists_spaces_around (cs : List Char) : ∃ front back : List Char,
    cs = front ++ (stripChars cs ++ back) ∧ (∀ c ∈ front, isSpace c = true) ∧
      ∀ c ∈ back, isSpace c = true := by
  refine ⟨cs.takeWhile isSpace, (cs.dropWhile isSpace).rtakeWhile isSpace, ?_,
    fun c hc => List.mem_takeWhile_imp hc, fun c hc => List.mem_rtakeWhile_imp hc⟩
  unfold stripChars
  rw [List.rdropWhile_append_rtakeWhile, List.takeWhile_append_dropWhile]

theorem first_lowerChars {before cs : List Char} (h : ∀ c ∈ cs.head?, isSpace c = false) :
    ∀ d ∈ (lowerChars finalSigma before cs).head?, isSpace d = false := by
  cases cs with
  | nil => exact fun d hd => (by cases hd)
  | cons c cs =>
    intro d hd
    have hne := lowerChar_ne_nil finalSigma before c cs
    rw [lowerChars, List.head?_append_of_ne_nil _ hne] at hd
    exact (isLower_of_mem (List.mem_of_mem_head? hd)).2 (h c rfl)

theorem last_lowerChars {before cs : List Char} (h : ∀ c ∈ cs.getLast?, isSpace c = false) :
    ∀ d ∈ (lowerChars finalSigma before cs).getLast?, isSpace d = false := by
  induction cs generalizing before with
  | nil => exact fun d hd => (by cases hd)
  | cons c cs ih =>
    intro d hd
    cases cs with
    | nil =>
      rw [lowerChars, lowerChars, List.append_nil] at hd
      exact (isLower_of_mem (List.mem_of_getLast? hd)).2 (h c rfl)
    | cons c' cs =>
      rw [lowerChars, List.getLast?_append_of_ne_nil _ (by simp [lowerChars_eq_nil])] at hd
      exact ih h d hd

theorem stripped_lowerChars {before cs : List Char} (h : Stripped cs) :
    Stripped (lowerChars finalSigma before cs) :=
  ⟨first_lowerChars h.first, last_lowerChars h.last⟩

/-- Lower case brings no white space to the ends of a text. -/
theorem strip_lower (s : String) :
    strip (lower finalSigma (strip s)) = lower finalSigma (strip s) := by
  unfold strip lower
  rw [String.toList_ofList, String.toList_ofList,
    stripChars_eq_self (stripped_lowerChars (stripped_stripChars _))]

theorem lower_eq_empty {s : String} : lower finalSigma s = "" ↔ s = "" := by
  unfold lower
  rw [← String.toList_eq_nil_iff, String.toList_ofList, lowerChars_eq_nil,
    String.toList_eq_nil_iff]

/-! ## A text within another -/

/-- The lower case of `cs` where it stands between `before` and `after`. -/
def lowerWithin (finalSigma : List Char → List Char → Bool) :
    (before cs after : List Char) → List Char
  | _, [], _ => []
  | before, c :: cs, after =>
    lowerChar finalSigma before c (cs ++ after) ++ lowerWithin finalSigma (c :: before) cs after

theorem lowerWithin_nil_right (before cs : List Char) :
    lowerWithin finalSigma before cs [] = lowerChars finalSigma before cs := by
  induction cs generalizing before with
  | nil => rfl
  | cons c cs ih => rw [lowerWithin, lowerChars, ih, List.append_nil]

theorem lowerChars_append (before xs ys : List Char) :
    lowerChars finalSigma before (xs ++ ys) =
      lowerWithin finalSigma before xs ys ++ lowerChars finalSigma (xs.reverse ++ before) ys := by
  induction xs generalizing before with
  | nil => rfl
  | cons c xs ih =>
    rw [List.cons_append, lowerChars, ih, lowerWithin, List.append_assoc, List.reverse_cons,
      List.append_assoc, List.singleton_append]

/-- The number of characters in the lower case of `c`. -/
def lowerWidth (c : Char) : ℕ := if c = 'İ' then 2 else 1

theorem length_lowerChar (before : List Char) (c : Char) (after : List Char) :
    (lowerChar finalSigma before c after).length = lowerWidth c := by
  unfold lowerChar lowerWidth
  split_ifs <;> rfl

/-- In two places the lower case is the same when each `Σ` ends a word in both or in neither. -/
theorem lowerWithin_eq_iff {cs before before' after after' : List Char} :
    lowerWithin finalSigma before cs after = lowerWithin finalSigma before' cs after' ↔
      ∀ us vs, cs = us ++ 'Σ' :: vs → finalSigma (us.reverse ++ before) (vs ++ after) =
        finalSigma (us.reverse ++ before') (vs ++ after') := by
  induction cs generalizing before before' with
  | nil => simp [lowerWithin]
  | cons c cs ih =>
    have hchar : lowerChar finalSigma before c (cs ++ after) =
        lowerChar finalSigma before' c (cs ++ after') ↔
          (c = 'Σ' → finalSigma before (cs ++ after) = finalSigma before' (cs ++ after')) := by
      unfold lowerChar
      by_cases hsigma : c = 'Σ'
      · subst hsigma
        cases finalSigma before (cs ++ after) <;>
          cases finalSigma before' (cs ++ after') <;> decide
      · simp [hsigma]
    have hlength : (lowerChar finalSigma before c (cs ++ after)).length =
        (lowerChar finalSigma before' c (cs ++ after')).length := by
      rw [length_lowerChar, length_lowerChar]
    have hsplit : lowerWithin finalSigma before (c :: cs) after =
        lowerWithin finalSigma before' (c :: cs) after' ↔
          lowerChar finalSigma before c (cs ++ after) =
              lowerChar finalSigma before' c (cs ++ after') ∧
            lowerWithin finalSigma (c :: before) cs after =
              lowerWithin finalSigma (c :: before') cs after' := by
      rw [lowerWithin, lowerWithin]
      exact ⟨fun h => List.append_inj h hlength, fun h => by rw [h.1, h.2]⟩
    rw [hsplit, hchar, ih]
    constructor
    · rintro ⟨hhere, hrest⟩ us vs heq
      cases us with
      | nil =>
        obtain ⟨rfl, rfl⟩ := List.cons_eq_cons.mp heq
        exact hhere rfl
      | cons d us =>
        obtain ⟨rfl, rfl⟩ := List.cons_eq_cons.mp heq
        simpa using hrest us vs rfl
    · intro h
      refine ⟨fun hsigma => h [] cs (by rw [hsigma]; rfl), fun us vs heq => ?_⟩
      simpa using h (c :: us) vs (by rw [heq]; rfl)

/-- Without `Σ` it does not matter what stands around a text. -/
theorem lowerWithin_congr {cs : List Char} (h : ∀ c ∈ cs, c ≠ 'Σ')
    (before before' after after' : List Char) :
    lowerWithin finalSigma before cs after = lowerWithin finalSigma before' cs after' := by
  refine lowerWithin_eq_iff.mpr fun us vs heq => ?_
  exact absurd rfl (h 'Σ' (by rw [heq]; simp))

theorem length_lowerWithin (before cs after : List Char) :
    (lowerWithin finalSigma before cs after).length = (cs.map lowerWidth).sum := by
  induction cs generalizing before with
  | nil => rfl
  | cons c cs ih =>
    rw [lowerWithin, List.length_append, length_lowerChar, ih, List.map_cons, List.sum_cons]

theorem length_lowerChars (before cs : List Char) :
    (lowerChars finalSigma before cs).length = (cs.map lowerWidth).sum := by
  rw [← lowerWithin_nil_right, length_lowerWithin]

end IronLink.Text
