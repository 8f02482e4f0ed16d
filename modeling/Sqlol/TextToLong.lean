/-
The number in a text: what `sqlite3_column_int64` makes of it, and what
`SqliteRow.getLong` makes of it with Kotlin's `trim`, `toLongOrNull` and
`toDoubleOrNull`.

SQLite takes the integer the text begins with. Kotlin takes a whole `Long`, in
the digits of any script, else a whole `Double`, which it rounds and cuts to a
`Long`. `getLong_of_plain` says where the two are the same: on an integer
between blanks, whatever its size, on a fraction that is not rounded up to a
whole number, and on a text that is no number to either.
-/
import Mathlib.Algebra.Order.Ring.Int
import Mathlib.Data.List.DropRight
import Mathlib.Tactic.Common
import Mathlib.Tactic.Ring

namespace Sqlol

namespace TextToLong

/-- `Long.MIN_VALUE`. -/
def MIN_VALUE : Int := -9223372036854775808

/-- `Long.MAX_VALUE`. -/
def MAX_VALUE : Int := 9223372036854775807

/-- Into the range of a `Long`. -/
def saturate (n : Int) : Int := max MIN_VALUE (min n MAX_VALUE)

/-- The number of a list of digits. -/
def digits (ds : List Nat) : Nat := ds.foldl (fun n d => 10 * n + d) 0

/-- The value of an ASCII digit. -/
def digit (c : Char) : Nat := c.toNat - 48

/-- The sign, and what is behind it. -/
def signed : List Char → Bool × List Char
  | '-' :: cs => (true, cs)
  | '+' :: cs => (false, cs)
  | cs => (false, cs)

/-- The number with its sign. -/
def negate (neg : Bool) (n : Nat) : Int := if neg then -n else n

/-! ## SQLite -/

/-- `sqlite3Isspace`. -/
def isSpace (c : Char) : Bool := c.toNat = 32 || (9 ≤ c.toNat && c.toNat ≤ 13)

/-- The digits that the text begins with, behind blanks and a sign. -/
def leading (t : List Char) : List Char := (signed (t.dropWhile isSpace)).2.takeWhile Char.isDigit

/-- `sqlite3_column_int64` of a text. -/
def columnInt64 (t : List Char) : Int :=
  saturate (negate (signed (t.dropWhile isSpace)).1 (digits ((leading t).map digit)))

/-! ## Kotlin -/

/-- `Char.isWhitespace`. -/
def isWhitespace (c : Char) : Bool :=
  let n := c.toNat
  (9 ≤ n && n ≤ 13) || (28 ≤ n && n ≤ 32) || (0x2000 ≤ n && n ≤ 0x200A) ||
    [0xA0, 0x1680, 0x2028, 0x2029, 0x202F, 0x205F, 0x3000].contains n

/-- Both ends without what `p` holds of. -/
def trim (p : Char → Bool) (t : List Char) : List Char := (t.dropWhile p).rdropWhile p

/-- The zeros of the scripts that have decimal digits. -/
def zeros : List Nat :=
  [0x30, 0x660, 0x6F0, 0x7C0, 0x966, 0x9E6, 0xA66, 0xAE6, 0xB66, 0xBE6, 0xC66, 0xCE6, 0xD66, 0xDE6, 0xE50, 0xED0,
    0xF20, 0x1040, 0x1090, 0x17E0, 0x1810, 0x1946, 0x19D0, 0x1A80, 0x1A90, 0x1B50, 0x1BB0, 0x1C40, 0x1C50, 0xA620,
    0xA8D0, 0xA900, 0xA9D0, 0xA9F0, 0xAA50, 0xABF0, 0xFF10]

/-- `digitOf(c, 10)`. -/
def digitOf (c : Char) : Option Nat := (zeros.find? fun z => z ≤ c.toNat && c.toNat < z + 10).map fun z => c.toNat - z

/-- A first character that is no digit has to be a sign, with a digit behind it. -/
def toLongOrNull (cs : List Char) : Option Int :=
  if (signed cs).2 = [] then none
  else ((signed cs).2.mapM digitOf).bind fun ds =>
    let n := negate (signed cs).1 (digits ds)
    if MIN_VALUE ≤ n ∧ n ≤ MAX_VALUE then some n else none

/-- A `Double`, before it is rounded. -/
inductive Reading where
  | nan
  | infinite (neg : Bool)
  | finite (neg : Bool) (num den : Nat)

/-- Nothing, or a type suffix. -/
def isSuffix : List Char → Bool
  | [] => true
  | [c] => ['f', 'F', 'd', 'D'].contains c
  | _ => false

/-- An exponent behind one of the marks. -/
def exponent (marks : List Char) : List Char → Option Int
  | [] => none
  | c :: cs =>
    let ds := (signed cs).2.takeWhile Char.isDigit
    if marks.contains c ∧ ds ≠ [] ∧ isSuffix ((signed cs).2.dropWhile Char.isDigit) then
      some (negate (signed cs).1 (digits (ds.map digit)))
    else none

/-- The digits before a point, those behind it, and the rest. -/
def point (isDigit : Char → Bool) (cs : List Char) : List Char × List Char × List Char :=
  match cs.dropWhile isDigit with
  | '.' :: r => (cs.takeWhile isDigit, r.takeWhile isDigit, r.dropWhile isDigit)
  | r => (cs.takeWhile isDigit, [], r)

/-- `m * base ^ x` as a fraction. -/
def power (base m : Nat) (x : Int) : Nat × Nat :=
  if 0 ≤ x then (m * base ^ x.toNat, 1) else (m, base ^ (-x).toNat)

/-- A decimal floating-point literal, as a fraction. -/
def decimal (cs : List Char) : Option (Nat × Nat) :=
  let (whole, part, r) := point Char.isDigit cs
  if whole = [] ∧ part = [] then none
  else (if isSuffix r then some 0 else exponent ['e', 'E'] r).map fun x =>
    power 10 (digits ((whole ++ part).map digit)) (x - part.length)

/-- A hexadecimal digit. -/
def isHex (c : Char) : Bool := c.isDigit || (65 ≤ c.toNat && c.toNat ≤ 70) || (97 ≤ c.toNat && c.toNat ≤ 102)

/-- Its value. -/
def hexDigit (c : Char) : Nat := if c.isDigit then digit c else if c.toNat ≤ 70 then c.toNat - 55 else c.toNat - 87

/-- A hexadecimal floating-point literal, as a fraction. -/
def hexadecimal : List Char → Option (Nat × Nat)
  | '0' :: x :: cs =>
    let (whole, part, r) := point isHex cs
    if ¬(x = 'x' ∨ x = 'X') ∨ (whole = [] ∧ part = []) then none
    else (exponent ['p', 'P'] r).map fun x =>
      power 2 ((whole ++ part).foldl (fun n c => 16 * n + hexDigit c) 0) (x - 4 * part.length)
  | _ => none

/-- Kotlin's `String.toDoubleOrNull`. -/
def toDoubleOrNull (cs : List Char) : Option Reading :=
  let (neg, cs) := signed (trim (fun c => c.toNat ≤ 32) cs)
  if cs = ['N', 'a', 'N'] then some .nan
  else if cs = ['I', 'n', 'f', 'i', 'n', 'i', 't', 'y'] then some (.infinite neg)
  else ((decimal cs).or (hexadecimal cs)).map fun r => .finite neg r.1 r.2

/-- `n / d` to the nearest integer, ties to even. -/
def roundHalfEven (n d : Nat) : Nat :=
  let q := n / d
  if 2 * (n % d) < d ∨ (2 * (n % d) = d ∧ q % 2 = 0) then q else q + 1

/-- The fraction in units of `2 ^ e`. -/
def scale (num den : Nat) (e : Int) : Nat × Nat :=
  if 0 ≤ e then (num, den * 2 ^ e.toNat) else (num * 2 ^ (-e).toNat, den)

/-- The exponent that leaves 53 bits to the significand, or the least one there is. -/
def unit (num den : Nat) : Int :=
  let e : Int := num.log2 - den.log2 - 52
  max (-1074) (if (scale num den e).1 < 2 ^ 52 * (scale num den e).2 then e - 1 else e)

/-- The whole part of the `Double` next to the fraction. -/
def truncated (num den : Nat) : Nat :=
  let e := unit num den
  let m := roundHalfEven (scale num den e).1 (scale num den e).2
  if 0 ≤ e then m * 2 ^ e.toNat else m / 2 ^ (-e).toNat

/-- `Double.toLong`. -/
def Reading.toLong : Reading → Int
  | .nan => 0
  | .infinite neg => if neg then MIN_VALUE else MAX_VALUE
  | .finite neg num den => saturate (negate neg (truncated num den))

/-- `SqliteRow.getLong` of a text. -/
def getLong (t : List Char) : Int := match toLongOrNull (trim isWhitespace t) with
  | some n => n
  | none => match toDoubleOrNull (trim isWhitespace t) with
    | some r => r.toLong
    | none => 0

/-! ## Where they are the same -/

/-- A sign or none. -/
def Sign (sign : List Char) : Prop := sign = [] ∨ sign = ['-'] ∨ sign = ['+']

/-- A sign or none, and digits. -/
structure Integer (sign ds : List Char) : Prop where
  sign : Sign sign
  nonempty : ds ≠ []
  digits : ∀ c ∈ ds, c.isDigit = true

/-- A sign or none, and digits before a point and behind it. -/
structure Fraction (sign whole part : List Char) : Prop where
  sign : Sign sign
  nonempty : ¬(whole = [] ∧ part = [])
  whole : ∀ c ∈ whole, c.isDigit = true
  part : ∀ c ∈ part, c.isDigit = true

/-- Blanks around a text: SQLite's before it, and Kotlin's behind it. -/
structure Between (before behind : List Char) : Prop where
  before : ∀ c ∈ before, isSpace c = true
  behind : ∀ c ∈ behind, isWhitespace c = true

/-- An integer between blanks. -/
def Numeral (t : List Char) : Prop :=
  ∃ before sign ds behind, t = before ++ (sign ++ ds ++ behind) ∧ Integer sign ds ∧ Between before behind

/-- The `Double` next to `n + p / d` is below `n + 1`, or beyond a `Long`. -/
def Clear (n p d : Nat) : Prop := (n + 1) * d ≤ 2 ^ 53 * (d - p) ∨ 2 ^ 63 ≤ n

/-- A fraction between blanks that is not rounded to the next whole number. -/
def Fractional (t : List Char) : Prop :=
  ∃ before sign whole part behind, t = before ++ (sign ++ (whole ++ '.' :: part) ++ behind) ∧
    Fraction sign whole part ∧ Between before behind ∧
      Clear (digits (whole.map digit)) (digits (part.map digit)) (10 ^ part.length)

/-- No number to either. -/
def NoNumber (t : List Char) : Prop :=
  leading t = [] ∧ toLongOrNull (trim isWhitespace t) = none ∧ toDoubleOrNull (trim isWhitespace t) = none

/-- The texts that both readings agree on. -/
def Plain (t : List Char) : Prop := Numeral t ∨ Fractional t ∨ NoNumber t

/-- A class of characters that no number has. -/
structure Blank (p : Char → Bool) : Prop where
  minus : p '-' = false
  plus : p '+' = false
  point : p '.' = false
  digit : ∀ c : Char, c.isDigit = true → p c = false

theorem isDigit_bounds {c : Char} (h : c.isDigit = true) : 48 ≤ c.toNat ∧ c.toNat ≤ 57 := by
  simp only [Char.isDigit, Bool.and_eq_true, decide_eq_true_eq] at h
  exact ⟨h.1, h.2⟩

theorem isSpace_blank : Blank isSpace where
  minus := by decide
  plus := by decide
  point := by decide
  digit c h := by
    have hc := isDigit_bounds h
    simp only [isSpace, Bool.or_eq_false_iff, Bool.and_eq_false_iff, decide_eq_false_iff_not]
    omega

theorem isWhitespace_blank : Blank isWhitespace where
  minus := by decide
  plus := by decide
  point := by decide
  digit c h := by
    have hc := isDigit_bounds h
    simp only [isWhitespace, List.contains_eq_mem, List.mem_cons, List.not_mem_nil, or_false, Bool.or_eq_false_iff,
      Bool.and_eq_false_iff, decide_eq_false_iff_not]
    omega

theorem control_blank : Blank fun c => decide (c.toNat ≤ 32) where
  minus := by decide
  plus := by decide
  point := by decide
  digit c h := by
    have hc := isDigit_bounds h
    simp only [decide_eq_false_iff_not]
    omega

theorem isWhitespace_of_isSpace {c : Char} (h : isSpace c = true) : isWhitespace c = true := by
  simp only [isSpace, Bool.or_eq_true, Bool.and_eq_true, decide_eq_true_eq] at h
  simp only [isWhitespace, Bool.or_eq_true, Bool.and_eq_true, decide_eq_true_eq]
  omega

/-! ### The text -/

section
variable {sign body ds whole part rest before behind : List Char} {p : Char → Bool}

/-- What `Integer` and `Fraction` have in common. -/
structure Number (sign body : List Char) : Prop where
  sign : Sign sign
  nonempty : body ≠ []
  chars : ∀ c ∈ body, c.isDigit = true ∨ c = '.'

theorem Integer.number (hi : Integer sign ds) : Number sign ds :=
    ⟨hi.sign, hi.nonempty, fun c hc => .inl (hi.digits c hc)⟩

theorem Fraction.number (hf : Fraction sign whole part) : Number sign (whole ++ '.' :: part) := by
  refine ⟨hf.sign, by simp, fun c hc => ?_⟩
  rcases List.mem_append.mp hc with hc | hc
  · exact .inl (hf.whole c hc)
  · rcases List.mem_cons.mp hc with rfl | hc
    · exact .inr rfl
    · exact .inl (hf.part c hc)

theorem Number.not_blank (hn : Number sign body) (hp : Blank p) {c : Char} (hc : c ∈ body) : ¬p c = true := by
  rcases hn.chars c hc with hd | rfl
  · simp [hp.digit c hd]
  · simp [hp.point]

theorem Blank.dropWhile (hp : Blank p) (hn : Number sign body) :
    (sign ++ body ++ rest).dropWhile p = sign ++ body ++ rest := by
  obtain ⟨d, body', rfl⟩ := List.exists_cons_of_ne_nil hn.nonempty
  rcases hn.sign with rfl | rfl | rfl
  · exact List.dropWhile_cons_of_neg (hn.not_blank hp List.mem_cons_self)
  · exact List.dropWhile_cons_of_neg (by simp [hp.minus])
  · exact List.dropWhile_cons_of_neg (by simp [hp.plus])

theorem Blank.rdropWhile (hp : Blank p) (hn : Number sign body) (hrest : ∀ c ∈ rest, p c = true) :
    (sign ++ body ++ rest).rdropWhile p = sign ++ body := by
  obtain ⟨init, d, rfl⟩ := (List.eq_nil_or_concat body).resolve_left hn.nonempty
  have hd : ¬p d = true := hn.not_blank hp (by simp)
  have hrest' : ∀ c ∈ rest.reverse, p c = true := fun c hc => hrest c (List.mem_reverse.mp hc)
  rw [List.rdropWhile, List.reverse_append, List.dropWhile_append_of_pos hrest', ← List.rdropWhile,
    List.concat_eq_append, ← List.append_assoc]
  exact List.rdropWhile_concat_neg p (sign ++ init) d hd

theorem Number.signed_eq (hn : Number sign body) :
    signed (sign ++ body ++ rest) = (decide (sign = ['-']), body ++ rest) := by
  obtain ⟨d, body', rfl⟩ := List.exists_cons_of_ne_nil hn.nonempty
  rcases hn.sign with rfl | rfl | rfl
  · have hd := hn.chars d List.mem_cons_self
    simp only [List.nil_append, List.cons_append, signed]
    split
    · next heq =>
      obtain ⟨rfl, -⟩ := List.cons.inj heq
      exact absurd hd (by decide)
    · next heq =>
      obtain ⟨rfl, -⟩ := List.cons.inj heq
      exact absurd hd (by decide)
    · rfl
  · rfl
  · rfl

theorem Number.signed_bare (hn : Number sign body) : signed (sign ++ body) = (decide (sign = ['-']), body) := by
  have hsigned : signed (sign ++ body ++ []) = (decide (sign = ['-']), body ++ []) := hn.signed_eq
  rwa [List.append_nil, List.append_nil] at hsigned

theorem Number.trim_eq (hn : Number sign body) (hp : Blank p) (hbefore : ∀ c ∈ before, p c = true)
    (hbehind : ∀ c ∈ behind, p c = true) : trim p (before ++ (sign ++ body ++ behind)) = sign ++ body := by
  rw [trim, List.dropWhile_append_of_pos hbefore, hp.dropWhile hn, hp.rdropWhile hn hbehind]

theorem Number.trim_bare (hn : Number sign body) (hp : Blank p) : trim p (sign ++ body) = sign ++ body := by
  have hbare : trim p ([] ++ (sign ++ body ++ [])) = sign ++ body :=
    hn.trim_eq hp (fun _ h => absurd h List.not_mem_nil) fun _ h => absurd h List.not_mem_nil
  rwa [List.append_nil, List.nil_append] at hbare

theorem Number.trim_between (hn : Number sign body) (hb : Between before behind) :
    trim isWhitespace (before ++ (sign ++ body ++ behind)) = sign ++ body :=
  hn.trim_eq isWhitespace_blank (fun c hc => isWhitespace_of_isSpace (hb.before c hc)) hb.behind

/-- A sign before the digits. -/
def worth (sign : List Char) (n : Nat) : Int := negate (decide (sign = ['-'])) n

/-- SQLite takes the digits that the body begins with. -/
theorem Number.columnInt64_eq (hn : Number sign body) (hb : Between before behind) :
    columnInt64 (before ++ (sign ++ body ++ behind)) =
      saturate (worth sign (digits (((body ++ behind).takeWhile Char.isDigit).map digit))) := by
  simp only [columnInt64, leading, List.dropWhile_append_of_pos hb.before, isSpace_blank.dropWhile hn, hn.signed_eq,
    worth]

theorem Between.takeWhile_behind (hb : Between before behind) : behind.takeWhile Char.isDigit = [] := by
  cases behind with
  | nil => rfl
  | cons c cs =>
    refine List.takeWhile_cons_of_neg fun hc => ?_
    have hspace := hb.behind c List.mem_cons_self
    rw [isWhitespace_blank.digit c hc] at hspace
    exact Bool.false_ne_true hspace

theorem columnInt64_numeral (hi : Integer sign ds) (hb : Between before behind) :
    columnInt64 (before ++ (sign ++ ds ++ behind)) = saturate (worth sign (digits (ds.map digit))) := by
  rw [hi.number.columnInt64_eq hb, List.takeWhile_append_of_pos hi.digits, hb.takeWhile_behind, List.append_nil]

theorem columnInt64_fraction (hf : Fraction sign whole part) (hb : Between before behind) :
    columnInt64 (before ++ (sign ++ (whole ++ '.' :: part) ++ behind)) =
      saturate (worth sign (digits (whole.map digit))) := by
  have hpoint : ('.' :: (part ++ behind)).takeWhile Char.isDigit = [] := List.takeWhile_cons_of_neg (by decide)
  rw [hf.number.columnInt64_eq hb, List.append_assoc, List.cons_append, List.takeWhile_append_of_pos hf.whole, hpoint,
    List.append_nil]

theorem digitOf_digit {c : Char} (hc : c.isDigit = true) : digitOf c = some (digit c) := by
  have hfound : (decide (0x30 ≤ c.toNat) && decide (c.toNat < 0x30 + 10)) = true := by
    have := isDigit_bounds hc
    simp only [Bool.and_eq_true, decide_eq_true_eq]
    omega
  have hfirst : zeros.find? (fun z => z ≤ c.toNat && c.toNat < z + 10) = some 0x30 :=
    List.find?_cons_of_pos (p := fun z => z ≤ c.toNat && c.toNat < z + 10) hfound
  rw [digitOf, hfirst]
  rfl

theorem mapM_digitOf (hds : ∀ c ∈ ds, c.isDigit = true) : ds.mapM digitOf = some (ds.map digit) := by
  induction ds with
  | nil => rfl
  | cons c cs ih =>
    simp only [List.mapM_cons, digitOf_digit (hds c List.mem_cons_self),
      ih fun d hd => hds d (List.mem_cons_of_mem c hd), List.map_cons]
    rfl

theorem toLongOrNull_integer (hi : Integer sign ds) : toLongOrNull (sign ++ ds) =
    let n := worth sign (digits (ds.map digit))
    if MIN_VALUE ≤ n ∧ n ≤ MAX_VALUE then some n else none := by
  rw [toLongOrNull, hi.number.signed_bare, if_neg hi.nonempty, mapM_digitOf hi.digits]
  rfl

/-- A point is no digit in any script. -/
theorem toLongOrNull_fraction (hf : Fraction sign whole part) :
    toLongOrNull (sign ++ (whole ++ '.' :: part)) = none := by
  have hpoint : digitOf '.' = none := by decide
  have hmap : (whole ++ '.' :: part).mapM digitOf = none := by
    rw [List.mapM_append, mapM_digitOf hf.whole, List.mapM_cons, hpoint]
    rfl
  rw [toLongOrNull, hf.number.signed_bare, if_neg hf.number.nonempty, hmap]
  rfl

theorem decimal_digits (hsome : ds ≠ []) (hds : ∀ c ∈ ds, c.isDigit = true) :
    decimal ds = some (digits (ds.map digit), 1) := by
  have hpoint : point Char.isDigit ds = (ds, [], []) := by
    rw [point, List.dropWhile_eq_nil_iff.mpr hds, List.takeWhile_eq_self_iff.mpr hds]
  simp [decimal, hpoint, hsome, isSuffix, power]

theorem decimal_fraction (hf : Fraction sign whole part) : decimal (whole ++ '.' :: part) =
    some (digits ((whole ++ part).map digit), 10 ^ part.length) := by
  have hdot : ('.' :: part).takeWhile Char.isDigit = [] := List.takeWhile_cons_of_neg (by decide)
  have hrest : ('.' :: part).dropWhile Char.isDigit = '.' :: part := List.dropWhile_cons_of_neg (by decide)
  have hpoint : point Char.isDigit (whole ++ '.' :: part) = (whole, part, []) := by
    rw [point, List.dropWhile_append_of_pos hf.whole, hrest, List.takeWhile_append_of_pos hf.whole, hdot,
      List.append_nil]
    show (whole, part.takeWhile Char.isDigit, part.dropWhile Char.isDigit) = (whole, part, [])
    rw [List.takeWhile_eq_self_iff.mpr hf.part, List.dropWhile_eq_nil_iff.mpr hf.part]
  have hpower : ∀ m, power 10 m (0 - part.length) = (m, 10 ^ part.length) := by
    intro m
    unfold power
    split
    · have hnil : part.length = 0 := by omega
      simp [hnil]
    · have hlen : (-(0 - (part.length : Int))).toNat = part.length := by omega
      rw [hlen]
  simp only [decimal, hpoint, if_neg hf.nonempty, isSuffix, if_true, Option.map_some, hpower]

theorem Number.toDoubleOrNull_eq (hn : Number sign body) {r : Nat × Nat} (hr : decimal body = some r) :
    toDoubleOrNull (sign ++ body) = some (.finite (decide (sign = ['-'])) r.1 r.2) := by
  have hletter : ∀ c : Char, ¬(c.isDigit = true ∨ c = '.') → c ∉ body := fun c hc hmem => hc (hn.chars c hmem)
  have hnan : body ≠ ['N', 'a', 'N'] := fun h => hletter 'N' (by decide) (by rw [h]; exact List.mem_cons_self)
  have hinf : body ≠ ['I', 'n', 'f', 'i', 'n', 'i', 't', 'y'] := fun h =>
    hletter 'I' (by decide) (by rw [h]; exact List.mem_cons_self)
  simp only [toDoubleOrNull, hn.trim_bare control_blank, hn.signed_bare, if_neg hnan, if_neg hinf, hr, Option.some_or,
    Option.map_some]

end

/-! ### The rounding -/

section
variable {num den : Nat}

theorem div_le_roundHalfEven {n d : Nat} : n / d ≤ roundHalfEven n d := by
  unfold roundHalfEven
  dsimp only
  split
  · exact le_rfl
  · exact Nat.le_succ _

/-- A number more than a half below `m` is not rounded to it. -/
theorem roundHalfEven_lt {n d m : Nat} (h : 2 * n + d < 2 * (m * d)) : roundHalfEven n d < m := by
  have hmod : d * (n / d) + n % d = n := Nat.div_add_mod n d
  have hd : 0 < d := Nat.pos_of_ne_zero fun h0 => by simp [h0] at h
  have hdiv : n / d < m := Nat.div_lt_of_lt_mul (by rw [Nat.mul_comm]; omega)
  unfold roundHalfEven
  dsimp only
  split
  · exact hdiv
  · next hup =>
    refine lt_of_le_of_ne hdiv fun hm => hup (.inl ?_)
    have hmd : m * d = d * (n / d) + d := by rw [← hm, Nat.succ_mul, Nat.mul_comm]
    omega

/-- What the logarithms say of the fraction in units of `2 ^ e`. -/
theorem scale_ge {e : Int} {j : Nat} (hnum : num ≠ 0) (h : (den.log2 : Int) + 1 + j + e ≤ num.log2) :
    2 ^ j * (scale num den e).2 ≤ (scale num den e).1 := by
  have hlow : 2 ^ num.log2 ≤ num := Nat.log2_self_le hnum
  have hhigh : den ≤ 2 ^ (den.log2 + 1) := Nat.lt_log2_self.le
  unfold scale
  split
  · next he =>
    obtain ⟨l, rfl⟩ := Int.eq_ofNat_of_zero_le he
    calc 2 ^ j * (den * 2 ^ l) ≤ 2 ^ j * (2 ^ (den.log2 + 1) * 2 ^ l) := by gcongr
      _ = 2 ^ (j + (den.log2 + 1 + l)) := by rw [← Nat.pow_add, ← Nat.pow_add]
      _ ≤ 2 ^ num.log2 := Nat.pow_le_pow_right (by decide) (by omega)
      _ ≤ num := hlow
  · next he =>
    obtain ⟨l, hl⟩ := Int.eq_ofNat_of_zero_le (a := -e) (by omega)
    rw [hl, Int.toNat_natCast]
    calc 2 ^ j * den ≤ 2 ^ j * 2 ^ (den.log2 + 1) := by gcongr
      _ = 2 ^ (j + (den.log2 + 1)) := by rw [← Nat.pow_add]
      _ ≤ 2 ^ (num.log2 + l) := Nat.pow_le_pow_right (by decide) (by omega)
      _ = 2 ^ num.log2 * 2 ^ l := Nat.pow_add ..
      _ ≤ num * 2 ^ l := by gcongr

/-- **The unit leaves 53 bits, or is the least one there is.** -/
theorem unit_spec (den : Nat) (hnum : num ≠ 0) : unit num den = -1074 ∨
    2 ^ 52 * (scale num den (unit num den)).2 ≤ (scale num den (unit num den)).1 := by
  unfold unit
  dsimp only
  split
  · rcases max_choice (-1074 : Int) (num.log2 - den.log2 - 52 - 1) with h | h
    · exact .inl h
    · rw [h]
      exact .inr (scale_ge hnum (by omega))
  · next hbig =>
    rcases max_choice (-1074 : Int) (num.log2 - den.log2 - 52) with h | h
    · exact .inl h
    · rw [h]
      exact .inr (Nat.le_of_not_lt hbig)

/-- Below `2 ^ 53` it is no more than 1. -/
theorem unit_nonpos (hnum : num ≠ 0) (h : num < 2 ^ 53 * den) : unit num den ≤ 0 := by
  have hlow : 2 ^ num.log2 ≤ num := Nat.log2_self_le hnum
  have hhigh : den < 2 ^ (den.log2 + 1) := Nat.lt_log2_self
  have hlog : num.log2 < 53 + (den.log2 + 1) := by
    refine (Nat.pow_lt_pow_iff_right (a := 2) (by decide)).mp ?_
    calc 2 ^ num.log2 ≤ num := hlow
      _ < 2 ^ 53 * den := h
      _ ≤ 2 ^ 53 * 2 ^ (den.log2 + 1) := by gcongr
      _ = 2 ^ (53 + (den.log2 + 1)) := (Nat.pow_add ..).symm
  unfold unit
  dsimp only
  by_cases hone : (num.log2 : Int) - den.log2 - 52 = 1
  · have hscale : scale num den 1 = (num, den * 2) := rfl
    rw [hone, hscale, if_pos (by dsimp only; omega)]
    decide
  · split <;> omega

/-- From a power of two on it is 1 or more. -/
theorem unit_nonneg {k : Nat} (hk : 53 ≤ k) (hden : den ≠ 0) (h : 2 ^ k * den ≤ num) : 0 ≤ unit num den := by
  have hnum : num ≠ 0 := by
    have := Nat.mul_pos (Nat.two_pow_pos k) (Nat.pos_of_ne_zero hden)
    omega
  have hlog : k + den.log2 ≤ num.log2 := by
    refine (Nat.le_log2 hnum).mpr ?_
    calc 2 ^ (k + den.log2) = 2 ^ k * 2 ^ den.log2 := Nat.pow_add ..
      _ ≤ 2 ^ k * den := by gcongr; exact Nat.log2_self_le hden
      _ ≤ num := h
  unfold unit
  dsimp only
  split <;> omega

/-- Rounding takes no number below a power of two it has reached. -/
theorem truncated_ge {k : Nat} (hk : 53 ≤ k) (hden : den ≠ 0) (h : 2 ^ k * den ≤ num) : 2 ^ k ≤ truncated num den := by
  have hnum : num ≠ 0 := by
    have := Nat.mul_pos (Nat.two_pow_pos k) (Nat.pos_of_ne_zero hden)
    omega
  obtain ⟨l, hl⟩ := Int.eq_ofNat_of_zero_le (unit_nonneg hk hden h)
  have hscale : scale num den l = (num, den * 2 ^ l) := by simp [scale]
  have hspec := (unit_spec den hnum).resolve_left (by omega)
  have hpos : 0 < den * 2 ^ l := Nat.mul_pos (Nat.pos_of_ne_zero hden) (Nat.two_pow_pos l)
  simp only [truncated, hl, hscale, if_pos (Int.natCast_nonneg l), Int.toNat_natCast] at hspec ⊢
  rcases Nat.le_total l k with hlk | hlk
  · have hround : 2 ^ (k - l) ≤ roundHalfEven num (den * 2 ^ l) := by
      refine le_trans ((Nat.le_div_iff_mul_le hpos).mpr ?_) div_le_roundHalfEven
      calc 2 ^ (k - l) * (den * 2 ^ l) = 2 ^ (k - l) * 2 ^ l * den := by rw [Nat.mul_comm den, Nat.mul_assoc]
        _ = 2 ^ k * den := by rw [← Nat.pow_add, Nat.sub_add_cancel hlk]
        _ ≤ num := h
    calc 2 ^ k = 2 ^ (k - l) * 2 ^ l := by rw [← Nat.pow_add, Nat.sub_add_cancel hlk]
      _ ≤ roundHalfEven num (den * 2 ^ l) * 2 ^ l := Nat.mul_le_mul_right _ hround
  · have hround : 2 ^ 52 ≤ roundHalfEven num (den * 2 ^ l) :=
      le_trans ((Nat.le_div_iff_mul_le hpos).mpr hspec) div_le_roundHalfEven
    calc 2 ^ k ≤ 2 ^ l := Nat.pow_le_pow_right (by decide) hlk
      _ ≤ roundHalfEven num (den * 2 ^ l) * 2 ^ l := Nat.le_mul_of_pos_left _ (by omega)

/-- In units of `2 ^ -k`. -/
theorem truncated_eq {k : Nat} (hk : unit num den = -k) :
    truncated num den = roundHalfEven (num * 2 ^ k) den / 2 ^ k := by
  simp only [truncated, hk, scale]
  split
  · next h =>
    have hzero : k = 0 := by omega
    simp [hzero]
  · simp

theorem truncated_zero (hden : 0 < den) : truncated 0 den = 0 := by
  have hround : ∀ d, 0 < d → roundHalfEven 0 d = 0 := by
    intro d hd
    simp [roundHalfEven, hd]
  have hscale : (scale 0 den (unit 0 den)).1 = 0 ∧ 0 < (scale 0 den (unit 0 den)).2 := by
    unfold scale
    split
    · exact ⟨rfl, Nat.mul_pos hden (Nat.two_pow_pos _)⟩
    · exact ⟨Nat.zero_mul _, hden⟩
  simp [truncated, hscale.1, hround _ hscale.2]

/-- The unit is less than half of what there is between the fraction and the next whole number. -/
theorem unit_clear {n k : Nat} (hnum : num ≠ 0) (hk : unit num den = -k) (hhigh : num < (n + 1) * den)
    (hclear : (n + 1) * den ≤ 2 ^ 53 * ((n + 1) * den - num)) : den < 2 * 2 ^ k * ((n + 1) * den - num) := by
  have hfine : 2 ^ 52 < (n + 1) * 2 ^ k := by
    rcases unit_spec den hnum with hleast | hspec
    · have hkk : k = 1074 := by omega
      calc 2 ^ 52 < 2 ^ k := Nat.pow_lt_pow_right (by decide) (by omega)
        _ ≤ (n + 1) * 2 ^ k := Nat.le_mul_of_pos_left _ (Nat.succ_pos n)
    · have hscale : (scale num den (-k)) = (num * 2 ^ k, den) := by
        unfold scale
        split
        · next h =>
          have hzero : k = 0 := by omega
          simp [hzero]
        · simp
      rw [hk, hscale] at hspec
      have hlt : 2 ^ 52 * den < (n + 1) * 2 ^ k * den := by
        calc 2 ^ 52 * den ≤ num * 2 ^ k := hspec
          _ < (n + 1) * den * 2 ^ k := Nat.mul_lt_mul_of_pos_right hhigh (Nat.two_pow_pos k)
          _ = (n + 1) * 2 ^ k * den := Nat.mul_right_comm ..
      exact Nat.lt_of_mul_lt_mul_right hlt
  generalize (n + 1) * den - num = gap at hclear
  have hden : 0 < den := Nat.pos_of_ne_zero fun h => by simp [h] at hhigh
  have hlt : 2 ^ 53 * den < 2 ^ 53 * (2 * 2 ^ k * gap) := by
    calc 2 ^ 53 * den = 2 * (2 ^ 52 * den) := by omega
      _ < 2 * ((n + 1) * 2 ^ k * den) := by
        have := Nat.mul_lt_mul_of_pos_right hfine hden
        omega
      _ = 2 * 2 ^ k * ((n + 1) * den) := by ring
      _ ≤ 2 * 2 ^ k * (2 ^ 53 * gap) := Nat.mul_le_mul_left _ hclear
      _ = 2 ^ 53 * (2 * 2 ^ k * gap) := by ring
  exact Nat.lt_of_mul_lt_mul_left hlt

/-- A number that is clear of the next whole one is cut to its whole part. -/
theorem truncated_floor {n : Nat} (hlow : n * den ≤ num) (hhigh : num < (n + 1) * den)
    (hclear : (n + 1) * den ≤ 2 ^ 53 * ((n + 1) * den - num)) : truncated num den = n := by
  have hden : 0 < den := Nat.pos_of_ne_zero fun h => by simp [h] at hhigh
  rcases Nat.eq_zero_or_pos num with rfl | hpos
  · have hn : n = 0 := by
      rcases Nat.mul_eq_zero.mp (Nat.le_zero.mp hlow) with h | h
      · exact h
      · omega
    rw [hn, truncated_zero hden]
  · have hbelow : num < 2 ^ 53 * den := by
      refine lt_of_lt_of_le hhigh (le_trans hclear (Nat.mul_le_mul_left _ ?_))
      rw [Nat.succ_mul]
      omega
    obtain ⟨k, hk⟩ := Int.eq_ofNat_of_zero_le (a := -unit num den) (by have := unit_nonpos hpos.ne' hbelow; omega)
    have hunit : unit num den = -k := by omega
    rw [truncated_eq hunit]
    have hgap := unit_clear hpos.ne' hunit hhigh hclear
    refine Nat.div_eq_of_lt_le ?_ ?_
    · refine le_trans ((Nat.le_div_iff_mul_le hden).mpr ?_) div_le_roundHalfEven
      calc n * 2 ^ k * den = n * den * 2 ^ k := Nat.mul_right_comm ..
        _ ≤ num * 2 ^ k := Nat.mul_le_mul_right _ hlow
    · refine roundHalfEven_lt ?_
      have hsum : (n + 1) * den = num + ((n + 1) * den - num) := by omega
      calc 2 * (num * 2 ^ k) + den < 2 * (num * 2 ^ k) + 2 * 2 ^ k * ((n + 1) * den - num) := by omega
        _ = 2 * ((num + ((n + 1) * den - num)) * 2 ^ k) := by ring
        _ = 2 * ((n + 1) * 2 ^ k * den) := by rw [← hsum, Nat.mul_right_comm]

end

/-! ### The two readings -/

section
variable {sign ds whole part before behind : List Char}

theorem foldl_digits (m : Nat) (ds : List Nat) :
    ds.foldl (fun n d => 10 * n + d) m = m * 10 ^ ds.length + digits ds := by
  unfold digits
  induction ds generalizing m with
  | nil => simp
  | cons d ds ih =>
    simp only [List.foldl_cons, List.length_cons]
    rw [ih (10 * m + d), ih (10 * 0 + d)]
    ring

theorem digits_append (xs ys : List Nat) : digits (xs ++ ys) = digits xs * 10 ^ ys.length + digits ys := by
  rw [digits, List.foldl_append]
  exact foldl_digits _ ys

theorem digits_lt (hds : ∀ c ∈ ds, c.isDigit = true) : digits (ds.map digit) < 10 ^ ds.length := by
  induction ds with
  | nil => decide
  | cons c cs ih =>
    have hcs := ih fun d hd => hds d (List.mem_cons_of_mem c hd)
    have hc : digit c ≤ 9 := by
      have := isDigit_bounds (hds c List.mem_cons_self)
      unfold digit
      omega
    have hsplit : digits ((c :: cs).map digit) = digit c * 10 ^ cs.length + digits (cs.map digit) := by
      have h := digits_append [digit c] (cs.map digit)
      rw [List.length_map] at h
      simpa [digits] using h
    calc digits ((c :: cs).map digit) < digit c * 10 ^ cs.length + 10 ^ cs.length := by omega
      _ = (digit c + 1) * 10 ^ cs.length := (Nat.succ_mul ..).symm
      _ ≤ 10 * 10 ^ cs.length := Nat.mul_le_mul_right _ (by omega)
      _ = 10 ^ (c :: cs).length := by rw [List.length_cons, Nat.pow_succ, Nat.mul_comm]

/-- With 15 digits a fraction is clear of the next whole number. -/
theorem Fraction.clear_of_short (hf : Fraction sign whole part) (hshort : whole.length + part.length ≤ 15) :
    Clear (digits (whole.map digit)) (digits (part.map digit)) (10 ^ part.length) := by
  have hwhole := digits_lt hf.whole
  have hpart := digits_lt hf.part
  refine .inl ?_
  calc (digits (whole.map digit) + 1) * 10 ^ part.length ≤ 10 ^ whole.length * 10 ^ part.length :=
        Nat.mul_le_mul_right _ hwhole
    _ = 10 ^ (whole.length + part.length) := (Nat.pow_add ..).symm
    _ ≤ 10 ^ 15 := Nat.pow_le_pow_right (by decide) hshort
    _ ≤ 2 ^ 53 * 1 := by decide
    _ ≤ 2 ^ 53 * (10 ^ part.length - digits (part.map digit)) := Nat.mul_le_mul_left _ (by omega)

/-- Numbers beyond a `Long` are cut to the same. -/
theorem saturate_worth {m n : Nat} (hm : 2 ^ 63 ≤ m) (hn : 2 ^ 63 ≤ n) :
    saturate (worth sign m) = saturate (worth sign n) := by
  unfold worth saturate
  cases decide (sign = ['-']) <;> simp only [negate, MIN_VALUE, MAX_VALUE] <;> grind

theorem getLong_numeral (hi : Integer sign ds) (hb : Between before behind) :
    getLong (before ++ (sign ++ ds ++ behind)) = saturate (worth sign (digits (ds.map digit))) := by
  rw [getLong, hi.number.trim_between hb, toLongOrNull_integer hi,
    hi.number.toDoubleOrNull_eq (decimal_digits hi.nonempty hi.digits)]
  generalize digits (ds.map digit) = n
  dsimp only
  by_cases hfits : MIN_VALUE ≤ worth sign n ∧ worth sign n ≤ MAX_VALUE
  · rw [if_pos hfits]
    simp only [saturate]
    omega
  · rw [if_neg hfits]
    have hbig : 2 ^ 63 ≤ n := by
      unfold worth at hfits
      cases decide (sign = ['-']) <;> simp only [negate, MIN_VALUE, MAX_VALUE] at hfits <;> grind
    exact saturate_worth (truncated_ge (by decide) (by decide) (by rwa [Nat.mul_one])) hbig

theorem getLong_fraction (hf : Fraction sign whole part) (hb : Between before behind)
    (hclear : Clear (digits (whole.map digit)) (digits (part.map digit)) (10 ^ part.length)) :
    getLong (before ++ (sign ++ (whole ++ '.' :: part) ++ behind)) =
      saturate (worth sign (digits (whole.map digit))) := by
  rw [getLong, hf.number.trim_between hb, toLongOrNull_fraction hf, hf.number.toDoubleOrNull_eq (decimal_fraction hf)]
  have hsplit := digits_append (whole.map digit) (part.map digit)
  rw [List.length_map] at hsplit
  have hpart := digits_lt hf.part
  have hden : 0 < 10 ^ part.length := Nat.pow_pos (by decide)
  show saturate (worth sign (truncated (digits ((whole ++ part).map digit)) (10 ^ part.length))) = _
  rw [List.map_append, hsplit]
  generalize digits (whole.map digit) = n at hclear
  generalize digits (part.map digit) = p at hclear hpart
  generalize 10 ^ part.length = d at hclear hpart hden
  rcases hclear with hnear | hbig
  · have hgap : (n + 1) * d - (n * d + p) = d - p := by rw [Nat.succ_mul]; omega
    rw [truncated_floor (n := n) (Nat.le_add_right _ _) (by rw [Nat.succ_mul]; omega) (by rwa [hgap])]
  · refine saturate_worth (truncated_ge (by decide) hden.ne' ?_) hbig
    calc 2 ^ 63 * d ≤ n * d := Nat.mul_le_mul_right _ hbig
      _ ≤ n * d + p := Nat.le_add_right _ _

/-- **On plain texts the two are the same.** -/
theorem getLong_of_plain {t : List Char} (ht : Plain t) : getLong t = columnInt64 t := by
  rcases ht with ⟨before, sign, ds, behind, rfl, hi, hb⟩ |
    ⟨before, sign, whole, part, behind, rfl, hf, hb, hclear⟩ | ⟨hnone, hlong, hdouble⟩
  · rw [getLong_numeral hi hb, columnInt64_numeral hi hb]
  · rw [getLong_fraction hf hb hclear, columnInt64_fraction hf hb]
  · rw [getLong, hlong, hdouble, columnInt64, hnone]
    cases (signed (t.dropWhile isSpace)).1 <;> rfl

end

end TextToLong

end Sqlol
