import Mathlib.Tactic.Common
import Mathlib.Tactic.Ring
import Mathlib.Data.Nat.Digits.Defs

/-!
# `uuid.UUID`

A UUID is its 128-bit integer. `UUID.str` is `str(u)`, 32 lower-case hex digits
in groups of 8-4-4-4-12; `UUID.ofStr` is the constructor `UUID(hex)`, which
drops `urn:`, `uuid:`, surrounding braces and all hyphens and wants 32
characters that `int` reads in base 16: hex digits, but also `0x`, a sign,
underscores, blanks at the ends and the decimal digits of other scripts.

Result: `UUID.ofStr_str`, an id that was rendered is read back; no two ids are
rendered alike (`UUID.str_injective`).
-/

namespace IronLink

/-- `uuid.UUID`, by its `int` field. -/
abbrev UUID := BitVec 128

namespace UUID

/-- A check of all ids of a list goes through the list, not through all of
    `UUID`. -/
instance (priority := high) decidableForallMem (ids : List UUID) (p : UUID → Prop)
    [DecidablePred p] : Decidable (∀ id ∈ ids, p id) := List.decidableBAll p ids

instance (priority := high) decidableMem (id : UUID) (ids : List UUID) : Decidable (id ∈ ids) :=
  inferInstance

/-! ## Model -/

/-- The value of a hex digit, either case. -/
def hexVal (c : Char) : Option ℕ :=
  if '0' ≤ c ∧ c ≤ '9' then some (c.toNat - '0'.toNat)
  else if 'a' ≤ c ∧ c ≤ 'f' then some (c.toNat - 'a'.toNat + 10)
  else if 'A' ≤ c ∧ c ≤ 'F' then some (c.toNat - 'A'.toNat + 10)
  else none

/-- The lower-case hex digit of `d < 16`. -/
def hexChar (d : ℕ) : Char := Nat.digitChar d

/-- The last `k` hex digits of `n`, most significant first. -/
def hexDigits : ℕ → ℕ → List ℕ
  | 0, _ => []
  | k + 1, n => hexDigits k (n / 16) ++ [n % 16]

/-- The code points of the zeros of the decimal digits outside ASCII (Unicode 15,
    general category Nd); the other nine digits follow each. -/
def digitZeros : List ℕ :=
  [0x660, 0x6F0, 0x7C0, 0x966, 0x9E6, 0xA66, 0xAE6, 0xB66, 0xBE6, 0xC66, 0xCE6, 0xD66, 0xDE6,
    0xE50, 0xED0, 0xF20, 0x1040, 0x1090, 0x17E0, 0x1810, 0x1946, 0x19D0, 0x1A80, 0x1A90, 0x1B50,
    0x1BB0, 0x1C40, 0x1C50, 0xA620, 0xA8D0, 0xA900, 0xA9D0, 0xA9F0, 0xAA50, 0xABF0, 0xFF10,
    0x104A0, 0x10D30, 0x11066, 0x110F0, 0x11136, 0x111D0, 0x112F0, 0x11450, 0x114D0, 0x11650,
    0x116C0, 0x11730, 0x118E0, 0x11950, 0x11C50, 0x11D50, 0x11DA0, 0x11F50, 0x16A60, 0x16AC0,
    0x16B50, 0x1D7CE, 0x1D7D8, 0x1D7E2, 0x1D7EC, 0x1D7F6, 0x1E140, 0x1E2F0, 0x1E4F0, 0x1E950,
    0x1FBF0]

/-- The code points of the white space outside ASCII. -/
def wideSpaces : List ℕ :=
  [0x85, 0xA0, 0x1680, 0x2000, 0x2001, 0x2002, 0x2003, 0x2004, 0x2005, 0x2006, 0x2007, 0x2008,
    0x2009, 0x200A, 0x2028, 0x2029, 0x202F, 0x205F, 0x3000]

/-- The ASCII character that `int` reads `c` as; `?` is never part of a number. -/
def asciiOf (c : Char) : Char :=
  if c.toNat < 128 then c
  else if wideSpaces.contains c.toNat then ' '
  else
    match digitZeros.find? fun z => z ≤ c.toNat && c.toNat < z + 10 with
    | some z => Char.ofNat ('0'.toNat + (c.toNat - z))
    | none => '?'

/-- ASCII white space. -/
def isBlank (c : Char) : Bool := c = ' ' || 9 ≤ c.toNat && c.toNat ≤ 13

/-- Hex digits with single underscores between them. `pending` says that a digit
    has to follow. -/
def hexRun : ℕ → Bool → List Char → Option ℕ
  | acc, pending, [] => if pending then none else some acc
  | acc, pending, c :: cs =>
    if c = '_' then if pending then none else hexRun acc true cs
    else (hexVal c).bind fun d => hexRun (16 * acc + d) false cs

/-- The base prefix `0x`, which one underscore may follow. -/
def dropBase : List Char → List Char
  | '0' :: x :: cs =>
    if x = 'x' ∨ x = 'X' then
      match cs with
      | '_' :: cs => cs
      | cs => cs
    else '0' :: x :: cs
  | cs => cs

/-- `s.strip()` of ASCII white space. -/
def stripBlanks (cs : List Char) : List Char :=
  ((cs.dropWhile isBlank).reverse.dropWhile isBlank).reverse

/-- `int(hex, 16)` of a text without hyphens: `none` is its `ValueError`. -/
def ofHex (cs : List Char) : Option ℕ :=
  match stripBlanks (cs.map asciiOf) with
  | '+' :: cs => hexRun 0 true (dropBase cs)
  | cs => hexRun 0 true (dropBase cs)

/-- `s.replace(pat, '')`; `skip` characters of a match are still to be dropped. -/
def remove (pat : List Char) : ℕ → List Char → List Char
  | _, [] => []
  | skip + 1, _ :: cs => remove pat skip cs
  | 0, c :: cs =>
    if pat.isPrefixOf (c :: cs) then remove pat (pat.length - 1) cs else c :: remove pat 0 cs

/-- `c` is one of the characters of `strip('{}')`. -/
def isBrace (c : Char) : Bool := c = '{' || c = '}'

/-- `s.strip('{}')`. -/
def stripBraces (cs : List Char) : List Char :=
  ((cs.dropWhile isBrace).reverse.dropWhile isBrace).reverse

/-- The constructor `UUID(hex)`; `none` is its `ValueError`. -/
def ofStr (s : String) : Option UUID :=
  let hex := remove "uuid:".toList 0 (remove "urn:".toList 0 s.toList)
  let hex := (stripBraces hex).filter (· ≠ '-')
  if hex.length = 32 then (ofHex hex).map (BitVec.ofNat 128) else none

/-- The 32 hex digits of `u`. -/
def hex (u : UUID) : List Char := (hexDigits 32 u.toNat).map hexChar

/-- `str(u)`: `'%s-%s-%s-%s-%s' % (hex[:8], hex[8:12], hex[12:16], hex[16:20], hex[20:])`. -/
def str (u : UUID) : String :=
  let h := u.hex
  String.ofList (h.take 8 ++ '-' :: ((h.drop 8).take 4 ++ '-' :: ((h.drop 12).take 4 ++
    '-' :: ((h.drop 16).take 4 ++ '-' :: h.drop 20))))

/-! ## Hex digits -/

theorem length_hexDigits (k n : ℕ) : (hexDigits k n).length = k := by
  induction k generalizing n with
  | zero => rfl
  | succ k ih => simp [hexDigits, ih]

theorem hexDigits_lt {k n d : ℕ} (h : d ∈ hexDigits k n) : d < 16 := by
  induction k generalizing n with
  | zero => simp [hexDigits] at h
  | succ k ih =>
    rcases List.mem_append.mp h with h | h
    · exact ih h
    · rw [List.mem_singleton.mp h]
      exact Nat.mod_lt n (by norm_num)

theorem hexVal_hexChar {d : ℕ} (h : d < 16) : hexVal (hexChar d) = some d := by
  revert d
  decide

/-- A hex digit is neither a hyphen nor a brace, and no pattern that
    `UUID.ofStr` removes starts with one. -/
theorem hexChar_plain {d : ℕ} (h : d < 16) :
    hexChar d ≠ '-' ∧ isBrace (hexChar d) = false ∧ hexChar d ≠ 'u' := by
  revert d
  decide

/-- Nor is it anything that `int` treats in its own way. -/
theorem hexChar_digit {d : ℕ} (h : d < 16) :
    asciiOf (hexChar d) = hexChar d ∧ isBlank (hexChar d) = false ∧ hexChar d ≠ '+' ∧
      hexChar d ≠ '_' ∧ hexChar d ≠ 'x' ∧ hexChar d ≠ 'X' := by
  revert d
  decide

theorem hexRun_hexDigits {k n : ℕ} (acc : ℕ) (pending : Bool) (cs : List Char)
    (h : n < 16 ^ (k + 1)) :
    hexRun acc pending ((hexDigits (k + 1) n).map hexChar ++ cs) =
      hexRun (16 ^ (k + 1) * acc + n) false cs := by
  induction k generalizing n cs with
  | zero =>
    have hn : n < 16 := by simpa using h
    simp [hexDigits, hexRun, (hexChar_digit hn).2.2.2.1,
      hexVal_hexChar hn, Nat.mod_eq_of_lt hn]
  | succ k ih =>
    have hdiv : n / 16 < 16 ^ (k + 1) := Nat.div_lt_of_lt_mul (by rw [← pow_succ']; exact h)
    have hmod : n % 16 < 16 := Nat.mod_lt n (by norm_num)
    have hval : 16 * (16 ^ (k + 1) * acc + n / 16) + n % 16 = 16 ^ (k + 1 + 1) * acc + n := by
      have := Nat.div_add_mod n 16
      rw [pow_succ 16 (k + 1)]
      linarith
    rw [hexDigits, List.map_append, List.append_assoc, ih _ hdiv]
    simp [hexRun, (hexChar_digit hmod).2.2.2.1, hexVal_hexChar hmod, hval]

theorem length_hex (u : UUID) : u.hex.length = 32 := by simp [hex, length_hexDigits]

theorem mem_hex {u : UUID} {c : Char} (h : c ∈ u.hex) :
    c ≠ '-' ∧ isBrace c = false ∧ c ≠ 'u' := by
  obtain ⟨d, hd, rfl⟩ := List.mem_map.mp h
  exact hexChar_plain (hexDigits_lt hd)

theorem digit_of_mem_hex {u : UUID} {c : Char} (h : c ∈ u.hex) :
    asciiOf c = c ∧ isBlank c = false ∧ c ≠ '+' ∧ c ≠ '_' ∧ c ≠ 'x' ∧ c ≠ 'X' := by
  obtain ⟨d, hd, rfl⟩ := List.mem_map.mp h
  exact hexChar_digit (hexDigits_lt hd)

/-! ## The round trip -/

/-- Nothing is removed from a string that lacks the first character of the
    pattern. -/
theorem remove_of_not_mem {p : Char} {pat cs : List Char} (h : p ∉ cs) :
    remove (p :: pat) 0 cs = cs := by
  induction cs with
  | nil => rfl
  | cons c cs ih =>
    have hc : p ≠ c := fun e => h (e ▸ List.mem_cons_self)
    rw [remove, List.isPrefixOf_cons_cons]
    simp [hc, ih (fun hm => h (List.mem_cons_of_mem _ hm))]

theorem dropWhile_eq_self {p : Char → Bool} {cs : List Char} (h : ∀ c ∈ cs, p c = false) :
    cs.dropWhile p = cs := by
  cases cs with
  | nil => rfl
  | cons c cs => simp [List.dropWhile, h c List.mem_cons_self]

/-- Nothing is stripped from a text without such characters. -/
theorem strip_eq_self {p : Char → Bool} {cs : List Char} (h : ∀ c ∈ cs, p c = false) :
    ((cs.dropWhile p).reverse.dropWhile p).reverse = cs := by
  rw [dropWhile_eq_self h, dropWhile_eq_self (fun c hc => h c (List.mem_reverse.mp hc)),
    List.reverse_reverse]

theorem stripBraces_of_plain {cs : List Char} (h : ∀ c ∈ cs, isBrace c = false) :
    stripBraces cs = cs := strip_eq_self h

theorem stripBlanks_of_plain {cs : List Char} (h : ∀ c ∈ cs, isBlank c = false) :
    stripBlanks cs = cs := strip_eq_self h

theorem dropBase_of_plain {cs : List Char} (h : ∀ c ∈ cs, c ≠ 'x' ∧ c ≠ 'X') :
    dropBase cs = cs := by
  unfold dropBase
  split
  · next x cs =>
    have hx := h x (by simp)
    rw [if_neg (not_or.mpr hx)]
  · rfl

/-- `int(u.hex, 16) = u.int`. -/
theorem ofHex_hex (u : UUID) : ofHex u.hex = some u.toNat := by
  have hascii : u.hex.map asciiOf = u.hex :=
    (List.map_congr_left fun c hc => (digit_of_mem_hex hc).1).trans (List.map_id' _)
  have hstrip : stripBlanks u.hex = u.hex := stripBlanks_of_plain fun c hc =>
    (digit_of_mem_hex hc).2.1
  have hbase : dropBase u.hex = u.hex := dropBase_of_plain fun c hc =>
    (digit_of_mem_hex hc).2.2.2.2
  have hrun : hexRun 0 true u.hex = some u.toNat := by
    have := hexRun_hexDigits (k := 31) 0 true [] (show u.toNat < 16 ^ 32 from u.isLt)
    simpa [hex, hexRun] using this
  unfold ofHex
  rw [hascii, hstrip]
  split
  · next cs heq => exact absurd rfl (digit_of_mem_hex (heq ▸ List.mem_cons_self)).2.2.1
  · rw [hbase, hrun]

theorem mem_str {u : UUID} {c : Char} (h : c ∈ u.str.toList) : c ∈ u.hex ∨ c = '-' := by
  simp only [str, String.toList_ofList, List.mem_append, List.mem_cons] at h
  rcases h with h | h | h | h | h | h | h | h | h
  · exact .inl (List.mem_of_mem_take h)
  · exact .inr h
  · exact .inl (List.mem_of_mem_drop (List.mem_of_mem_take h))
  · exact .inr h
  · exact .inl (List.mem_of_mem_drop (List.mem_of_mem_take h))
  · exact .inr h
  · exact .inl (List.mem_of_mem_drop (List.mem_of_mem_take h))
  · exact .inr h
  · exact .inl (List.mem_of_mem_drop h)

theorem filter_str (u : UUID) : u.str.toList.filter (· ≠ '-') = u.hex := by
  have hall : ∀ l : List Char, (∀ c ∈ l, c ∈ u.hex) → l.filter (· ≠ '-') = l := fun l hl =>
    List.filter_eq_self.mpr fun c hc => by simpa using (mem_hex (hl c hc)).1
  simp only [str, String.toList_ofList, List.filter_append]
  simp only [ne_eq, not_true_eq_false, decide_false, Bool.false_eq_true, not_false_eq_true,
    List.filter_cons_of_neg, List.filter_append]
  simp only [ne_eq] at hall
  rw [hall _ fun c hc => List.mem_of_mem_take hc,
    hall _ fun c hc => List.mem_of_mem_drop (List.mem_of_mem_take hc),
    hall _ fun c hc => List.mem_of_mem_drop (List.mem_of_mem_take hc),
    hall _ fun c hc => List.mem_of_mem_drop (List.mem_of_mem_take hc),
    hall _ fun c hc => List.mem_of_mem_drop hc]
  have h20 : (u.hex.drop 16).take 4 ++ u.hex.drop 20 = u.hex.drop 16 := by
    conv_rhs => rw [← List.take_append_drop 4 (u.hex.drop 16), List.drop_drop]
  have h16 : (u.hex.drop 12).take 4 ++ u.hex.drop 16 = u.hex.drop 12 := by
    conv_rhs => rw [← List.take_append_drop 4 (u.hex.drop 12), List.drop_drop]
  have h12 : (u.hex.drop 8).take 4 ++ u.hex.drop 12 = u.hex.drop 8 := by
    conv_rhs => rw [← List.take_append_drop 4 (u.hex.drop 8), List.drop_drop]
  rw [h20, h16, h12, List.take_append_drop]

/-- `UUID(str(u)) = u`. -/
theorem ofStr_str (u : UUID) : ofStr u.str = some u := by
  have hu : 'u' ∉ u.str.toList := fun h => by
    rcases mem_str h with h | h
    · exact (mem_hex h).2.2 rfl
    · exact absurd h (by decide)
  have hb : ∀ c ∈ u.str.toList, isBrace c = false := fun c h => by
    rcases mem_str h with h | rfl
    · exact (mem_hex h).2.1
    · decide
  have hurn : remove "urn:".toList 0 u.str.toList = u.str.toList := remove_of_not_mem hu
  have huuid : remove "uuid:".toList 0 u.str.toList = u.str.toList := remove_of_not_mem hu
  unfold ofStr
  simp only [hurn, huuid, stripBraces_of_plain hb, filter_str, length_hex, ofHex_hex, if_true,
    Option.map_some, BitVec.ofNat_toNat, BitVec.setWidth_eq]

/-- Two ids print differently. -/
theorem str_injective {u v : UUID} (h : u.str = v.str) : u = v :=
  Option.some.inj (((ofStr_str u).symm.trans (congrArg ofStr h)).trans (ofStr_str v))

end UUID

end IronLink
