import IronLink.Common.Text
import IronLink.Common.Uuid
import IronLink.Lib.Regex

/-!
# Phone numbers

The validators `_valid_phone` of `RequestOtpIn` and `VerifyIn` (app/api/schemas.py:9-43).
`\d` is any decimal digit of Unicode, and `$` also matches before a newline that ends the
text, which `strip()` leaves no room for.

Results:
* `phoneRegex_iff`: the texts that the expression accepts.
* `compact_compact`: what is compact stays as it is.
* `validPhone_exact_iff`: both validators accept exactly the E.164 numbers, and return them in
  the same form, except for a number with a decimal digit that is not ASCII.
* `arabic_digits_accepted`: such a number.
-/

namespace IronLink.Auth

open Lib Text

/-! ## Model -/

/-- `0-9`. -/
def isAsciiDigit (c : Char) : Bool := '0' ≤ c && c ≤ '9'

/-- `[1-9]`. -/
def isLeadingDigit (c : Char) : Bool := '1' ≤ c && c ≤ '9'

/-- `\d` in a pattern for `str`: the general category Nd. -/
def isDecimal (c : Char) : Bool :=
  isAsciiDigit c || UUID.digitZeros.any fun z => z ≤ c.toNat && c.toNat < z + 10

/-- `_PHONE_RE`, `^\+[1-9]\d{7,14}$`. -/
def phoneRegex : Regex Char :=
  .seq .bos (.seq (.one fun c => c = '+') (.seq (.one isLeadingDigit)
    (.seq (.rep (.one isDecimal) 7 7) (.eol '\n'))))

/-- `v.strip().replace(" ", "")`. -/
def compact (v : String) : String := replaceAll (strip v) " " ""

/-- `_valid_phone`, which raises the `ValueError` with this message. -/
def validPhone (message : String) (v : String) : Except String String :=
  let v := compact v
  if phoneRegex.isMatch v.toList then .ok v else .error message

/-- `RequestOtpIn._valid_phone`. -/
def RequestOtpIn.validPhone (v : String) : Except String String :=
  Auth.validPhone "phone_number must be E.164, e.g. +201001234567" v

/-- `VerifyIn._valid_phone`. -/
def VerifyIn.validPhone (v : String) : Except String String :=
  Auth.validPhone "invalid phone number" v

/-! ## Property and condition -/

/-- `+`, a digit `1-9`, and 7 to 14 more digits of the class. -/
def IsNumber (digit : Char → Bool) (cs : List Char) : Prop :=
  ∃ d ds, cs = '+' :: d :: ds ∧ isLeadingDigit d = true ∧ (7 ≤ ds.length ∧ ds.length ≤ 14) ∧
    ∀ c ∈ ds, digit c = true

/-- The text without white space at its ends and without spaces. -/
def withoutSpaces (v : String) : List Char := (stripChars v.toList).filter fun c => c ≠ ' '

/-- Both validators accept `v` exactly when it is an E.164 number, return it without the
    spaces, and accept what they return as it is. -/
structure Exact (v : String) : Prop where
  accepts : (∃ w, RequestOtpIn.validPhone v = .ok w) ↔ IsNumber isAsciiDigit (withoutSpaces v)
  same : ∀ w, RequestOtpIn.validPhone v = .ok w ↔ VerifyIn.validPhone v = .ok w
  canonical : ∀ w, RequestOtpIn.validPhone v = .ok w → w.toList = withoutSpaces v
  again : ∀ w, RequestOtpIn.validPhone v = .ok w →
    RequestOtpIn.validPhone w = .ok w ∧ VerifyIn.validPhone w = .ok w

/-- A number with a decimal digit that is not ASCII. -/
def ForeignDigits (cs : List Char) : Prop :=
  IsNumber isDecimal cs ∧ ∃ c ∈ cs.drop 2, isAsciiDigit c = false

/-! ## The expression -/

variable {v w : String} {cs : List Char}

/-- `$` is the end, where the text does not end with a newline. -/
theorem phoneRegex_iff (hlast : ∀ c ∈ cs.getLast?, c ≠ '\n') :
    phoneRegex.isMatch cs = true ↔ IsNumber isDecimal cs := by
  rw [Regex.isMatch_iff]
  constructor
  · rintro ⟨mid, after, rfl, h⟩
    obtain ⟨_, _, rfl, ⟨-, rfl⟩, _, _, rfl, ⟨plus, rfl, hplus⟩, _, _, rfl, ⟨d, rfl, hd⟩, ds, _, rfl,
      hds, rfl, hend⟩ := h
    obtain ⟨hlen, hall⟩ := (Regex.repeated_one _ _ _ _ _ _).mp hds
    obtain rfl : plus = '+' := of_decide_eq_true hplus
    have hafter : after = [] := hend.resolve_right fun hnewline => by
      rw [hnewline] at hlast
      exact hlast '\n' List.getLast?_concat rfl
    exact ⟨d, ds, by simp [hafter], hd, hlen, hall⟩
  · rintro ⟨d, ds, rfl, hd, hlen, hall⟩
    refine ⟨'+' :: d :: ds, [], by simp, [], _, rfl, ⟨rfl, rfl⟩, ['+'], d :: ds, rfl,
      ⟨'+', rfl, by decide⟩, [d], ds, rfl, ⟨d, rfl, hd⟩, ds, [], by simp, ?_, rfl, .inl rfl⟩
    exact (Regex.repeated_one _ _ _ _ _ _).mpr ⟨hlen, hall⟩

/-! ## Compact texts -/

theorem toList_compact (v : String) : (compact v).toList = withoutSpaces v := by
  have hstrip : (strip v).toList = stripChars v.toList := String.toList_ofList
  unfold compact replaceAll withoutSpaces
  rw [String.toList_ofList, hstrip]
  exact replace_singleton ' ' _

/-- The spaces inside leave the ends as they are. -/
theorem stripped_withoutSpaces (v : String) : Stripped (withoutSpaces v) := by
  have hstripped := stripped_stripChars v.toList
  have hkeep : ∀ c, isSpace c = false → decide (c ≠ ' ') = true := by
    intro c hc
    rw [decide_eq_true_eq]
    rintro rfl
    revert hc
    decide
  unfold withoutSpaces
  constructor
  · intro c hc
    cases hcs : stripChars v.toList with
    | nil =>
      rw [hcs] at hc
      cases hc
    | cons d ds =>
      rw [hcs] at hc hstripped
      have hd := hstripped.first d rfl
      rw [List.filter_cons_of_pos (p := fun c => c ≠ ' ') (hkeep d hd)] at hc
      rw [← Option.some.inj hc]
      exact hd
  · intro c hc
    rcases List.eq_nil_or_concat (stripChars v.toList) with hcs | ⟨ds, d, hcs⟩
    · rw [hcs] at hc
      cases hc
    · rw [hcs] at hc hstripped
      have hd := hstripped.last d (by simp)
      rw [List.concat_eq_append, List.filter_append,
        List.filter_cons_of_pos (p := fun c => c ≠ ' ') (hkeep d hd)] at hc
      simp only [List.filter_nil, List.getLast?_append, List.getLast?_singleton, Option.some_or,
        Option.mem_def, Option.some.injEq] at hc
      rw [← hc]
      exact hd

/-- What is compact stays as it is. -/
theorem compact_compact (v : String) : compact (compact v) = compact v := by
  have hself : withoutSpaces (compact v) = withoutSpaces v := by
    rw [withoutSpaces, toList_compact, stripChars_eq_self (stripped_withoutSpaces v)]
    simp [withoutSpaces, List.filter_filter]
  rw [← String.toList_inj, toList_compact, toList_compact, hself]

theorem validPhone_ok_iff (message : String) :
    validPhone message v = .ok w ↔ w = compact v ∧ IsNumber isDecimal (withoutSpaces v) := by
  have hlast : ∀ c ∈ (withoutSpaces v).getLast?, c ≠ '\n' := by
    rintro c hc rfl
    have hspace := (stripped_withoutSpaces v).last '\n' hc
    revert hspace
    decide
  rw [← phoneRegex_iff hlast]
  unfold validPhone
  simp only [toList_compact]
  split_ifs with h
  · simp [h, eq_comm]
  · simp [h]

/-! ## Which numbers -/

theorem isDecimal_of_isAsciiDigit {c : Char} (h : isAsciiDigit c = true) : isDecimal c = true := by
  unfold isDecimal
  rw [h, Bool.true_or]

/-- A number of ASCII digits is one without foreign digits. -/
theorem isNumber_ascii_iff :
    IsNumber isAsciiDigit cs ↔ IsNumber isDecimal cs ∧ ¬ ForeignDigits cs := by
  constructor
  · rintro ⟨d, ds, rfl, hd, hlen, hall⟩
    refine ⟨⟨d, ds, rfl, hd, hlen, fun c hc => isDecimal_of_isAsciiDigit (hall c hc)⟩, ?_⟩
    rintro ⟨-, c, hc, hforeign⟩
    rw [hall c hc] at hforeign
    cases hforeign
  · rintro ⟨hnumber, hnot⟩
    have hascii : ∀ c ∈ cs.drop 2, isAsciiDigit c = true := by
      intro c hc
      by_contra hforeign
      exact hnot ⟨hnumber, c, hc, Bool.eq_false_iff.mpr hforeign⟩
    obtain ⟨d, ds, rfl, hd, hlen, -⟩ := hnumber
    exact ⟨d, ds, rfl, hd, hlen, hascii⟩

/-- **Phone numbers.** -/
theorem validPhone_exact_iff (v : String) : Exact v ↔ ¬ ForeignDigits (withoutSpaces v) := by
  have haccepts : (∃ w, RequestOtpIn.validPhone v = .ok w) ↔
      IsNumber isDecimal (withoutSpaces v) := by
    unfold RequestOtpIn.validPhone
    simp only [validPhone_ok_iff]
    exact ⟨fun ⟨_, _, h⟩ => h, fun h => ⟨_, rfl, h⟩⟩
  constructor
  · intro h hforeign
    have hascii := h.accepts.mp (haccepts.mpr hforeign.1)
    exact (isNumber_ascii_iff.mp hascii).2 hforeign
  · intro h
    refine ⟨?_, fun w => ?_, fun w hw => ?_, fun w hw => ?_⟩
    · rw [haccepts, isNumber_ascii_iff]
      exact (and_iff_left h).symm
    · unfold RequestOtpIn.validPhone VerifyIn.validPhone
      rw [validPhone_ok_iff, validPhone_ok_iff]
    · obtain ⟨rfl, -⟩ := (validPhone_ok_iff _).mp hw
      exact toList_compact v
    · obtain ⟨rfl, hnumber⟩ := (validPhone_ok_iff _).mp hw
      unfold RequestOtpIn.validPhone VerifyIn.validPhone
      rw [validPhone_ok_iff, validPhone_ok_iff, compact_compact]
      have hself : withoutSpaces (compact v) = withoutSpaces v := by
        rw [← toList_compact, compact_compact, toList_compact]
      rw [hself]
      exact ⟨⟨rfl, hnumber⟩, rfl, hnumber⟩

/-- Arabic digits after `+2` are accepted, and are in what is returned. -/
theorem arabic_digits_accepted :
    RequestOtpIn.validPhone " +2٠١٠ ٠١٢٣٤" = .ok "+2٠١٠٠١٢٣٤" ∧
      ¬ IsNumber isAsciiDigit (withoutSpaces " +2٠١٠ ٠١٢٣٤") := by
  refine ⟨by decide +kernel, ?_⟩
  rintro ⟨d, ds, hcs, -, -, hall⟩
  have hvalue : withoutSpaces " +2٠١٠ ٠١٢٣٤" = '+' :: '2' :: "٠١٠٠١٢٣٤".toList := by decide +kernel
  rw [hvalue] at hcs
  obtain ⟨-, hcs⟩ := List.cons_eq_cons.mp hcs
  obtain ⟨-, rfl⟩ := List.cons_eq_cons.mp hcs
  have hzero := hall '٠' (by decide +kernel)
  revert hzero
  decide

end IronLink.Auth
