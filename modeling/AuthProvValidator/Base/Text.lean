import Mathlib.Algebra.Group.Int.Defs
import Mathlib.Algebra.Group.Nat.Defs
import Mathlib.Data.List.Basic
import Mathlib.Data.List.TakeWhile
import Mathlib.Data.List.DropRight
import Mathlib.Data.List.Infix

/-!
# C++ strings and the numbers in them

A `std::string` is the list of its characters, one for each byte: the byte `b` is the character of code `b`. `Char` has
more values than a byte, so what holds for every `Str` holds for every `std::string`.

* `cStr s` : what a reader of the NUL-terminated `s.c_str()` sees;
* `stoi`, `to_string` : `std::stoi` and `std::to_string` on `int`;
* `extractHex` : `stream >> std::hex >> value` into an unsigned of a given width;
* `hexText` : `stream << std::hex << value`.
-/

/-- A `std::string`. -/
abbrev Str := List Char

instance : Coe String Str := ⟨String.toList⟩

namespace Str

/-- The text up to the first NUL. -/
def cStr (s : Str) : Str := s.takeWhile (· != '\x00')

theorem nul_not_mem_cStr (s : Str) : '\x00' ∉ cStr s := fun h => by
  have := List.mem_takeWhile_imp h
  simp at this

theorem cStr_eq_self {s : Str} (h : '\x00' ∉ s) : cStr s = s := by
  refine List.takeWhile_eq_self_iff.mpr fun c hc => ?_
  simp only [bne_iff_ne, ne_eq]
  rintro rfl
  exact h hc

@[simp] theorem cStr_cStr (s : Str) : cStr (cStr s) = cStr s := cStr_eq_self (nul_not_mem_cStr s)

/-- `std::isspace` in the C locale. -/
def isSpace (c : Char) : Bool := c == ' ' || ('\t' ≤ c && c ≤ '\r')

def isDecDigit (c : Char) : Bool := '0' ≤ c && c ≤ '9'

/-- A hexadecimal digit in either case: `[A-Fa-f0-9]`. -/
def isHexDigit (c : Char) : Bool := isDecDigit c || ('a' ≤ c && c ≤ 'f') || ('A' ≤ c && c ≤ 'F')

def hexDigitVal (c : Char) : Nat :=
  if isDecDigit c then c.toNat - '0'.toNat
  else if 'a' ≤ c && c ≤ 'f' then c.toNat - 'a'.toNat + 10
  else c.toNat - 'A'.toNat + 10

def hexValue (ds : Str) : Nat := ds.foldl (fun v c => 16 * v + hexDigitVal c) 0

/-- The optional sign in front of a number: whether it is a minus, and what follows. -/
def splitSign : Str → Bool × Str
  | '-' :: s => (true, s)
  | '+' :: s => (false, s)
  | s => (false, s)

/-- The text without the `0x` that a hexadecimal number may start with. -/
def dropHexPrefix : Str → Str
  | '0' :: 'x' :: s => s
  | '0' :: 'X' :: s => s
  | s => s

/-- `std::stoi`; `none` where it throws. -/
def stoi (s : Str) : Option Int :=
  let (minus, t) := splitSign (s.dropWhile isSpace)
  let ds := t.takeWhile isDecDigit
  if ds.isEmpty then none
  else
    let v : Int := Nat.ofDigitChars 10 ds 0
    let v := if minus then -v else v
    if -2147483648 ≤ v ∧ v ≤ 2147483647 then some v else none

/-- `std::to_string` of an `int`. -/
def to_string (n : Int) : Str := if n < 0 then '-' :: Nat.toDigits 10 n.natAbs else Nat.toDigits 10 n.natAbs

/-- `stream >> std::hex >> value` into an unsigned of `bits` bits. `none` where the text is empty or white space only:
the extraction then does not touch `value`. A number out of range gives the largest one. -/
def extractHex (bits : Nat) (s : Str) : Option Nat :=
  let t := s.dropWhile isSpace
  if t.isEmpty then none
  else
    let (minus, t) := splitSign t
    let v := hexValue ((dropHexPrefix t).takeWhile isHexDigit)
    if 2 ^ bits ≤ v then some (2 ^ bits - 1)
    else some (if minus then (2 ^ bits - v) % 2 ^ bits else v)

/-- `stream << std::hex << std::setfill('0') << std::setw(width) << value`, in upper case. -/
def hexText (width value : Nat) : Str := (List.leftpad width '0' (Nat.toDigits 16 value)).map Char.toUpper

def endsWith (s t : Str) : Bool := t.isSuffixOf s

/-- `s.find(t) != npos`. -/
def hasInfix (s t : Str) : Bool := s.tails.any fun u => t.isPrefixOf u

theorem hasInfix_iff {s t : Str} : hasInfix s t = true ↔ t <:+: s := by
  rw [hasInfix, List.any_eq_true, List.infix_iff_prefix_suffix]
  constructor
  · intro h
    obtain ⟨u, hu, ht⟩ := h
    exact ⟨u, List.isPrefixOf_iff_prefix.mp ht, (List.mem_tails u s).mp hu⟩
  · intro h
    obtain ⟨u, ht, hu⟩ := h
    exact ⟨u, (List.mem_tails u s).mpr hu, List.isPrefixOf_iff_prefix.mpr ht⟩

theorem cStr_prefix (s : Str) : cStr s <+: s := List.takeWhile_prefix _

/-! ## Hexadecimal values -/

theorem hexValue_append_singleton (ds : Str) (c : Char) : hexValue (ds ++ [c]) = 16 * hexValue ds + hexDigitVal c := by
  simp [hexValue]

theorem hexDigitVal_digitChar : ∀ d < 16, hexDigitVal (Nat.digitChar d).toUpper = d := by decide

theorem hexValue_toDigits (n : Nat) : hexValue ((Nat.toDigits 16 n).map Char.toUpper) = n := by
  induction n using Nat.strongRecOn with
  | ind n ih =>
    by_cases hn : n < 16
    · rw [Nat.toDigits_of_lt_base hn]
      simpa [hexValue] using hexDigitVal_digitChar n hn
    · rw [Nat.toDigits_of_base_le (by decide) (by omega), List.map_append, List.map_singleton,
        hexValue_append_singleton, ih (n / 16) (by omega), hexDigitVal_digitChar _ (by omega)]
      omega

theorem hexValue_replicate_zero (k : Nat) (ds : Str) : hexValue (List.replicate k '0' ++ ds) = hexValue ds := by
  induction k with
  | zero => rfl
  | succ k ih =>
    rw [List.replicate_succ, List.cons_append]
    simpa [hexValue, show hexDigitVal '0' = 0 by decide] using ih

theorem hexValue_hexText (width value : Nat) : hexValue (hexText width value) = value := by
  rw [hexText, List.leftpad, List.map_append, List.map_replicate, show Char.toUpper '0' = '0' by decide,
    hexValue_replicate_zero, hexValue_toDigits]

theorem length_hexText (width value : Nat) :
    (hexText width value).length = max width (Nat.toDigits 16 value).length := by
  rw [hexText, List.length_map, List.length_leftpad]

theorem hexText_ne_nil {width value : Nat} : hexText width value ≠ [] := by
  apply List.ne_nil_of_length_pos
  rw [length_hexText]
  have hpos := List.length_pos_iff.mpr (@Nat.toDigits_ne_nil value 16)
  omega

/-- The text of a number has the width it is printed with exactly when the number fits into it. -/
theorem length_hexText_eq_iff {width value : Nat} (hw : 0 < width) :
    (hexText width value).length = width ↔ value < 16 ^ width := by
  rw [length_hexText, ← Nat.length_toDigits_le_iff (by decide) hw]
  omega

theorem hexText_succ {width d : Nat} (value : Nat) (hw : 0 < width) (hd : d < 16) :
    hexText (width + 1) (16 * value + d) = hexText width value ++ [(Nat.digitChar d).toUpper] := by
  unfold hexText List.leftpad
  by_cases hv : value = 0
  · have hpad : List.replicate (width - 1) '0' ++ ['0'] = List.replicate width '0' := by
      rw [← List.replicate_succ', Nat.sub_add_cancel hw]
    rw [hv, Nat.mul_zero, Nat.zero_add, Nat.toDigits_of_lt_base hd, Nat.toDigits_zero, List.length_singleton,
      List.length_singleton, hpad, Nat.add_sub_cancel, List.map_append, List.map_singleton]
  · have hdigits : Nat.toDigits 16 (16 * value + d) = Nat.toDigits 16 value ++ [Nat.digitChar d] := by
      rw [Nat.toDigits_of_base_le (by decide) (by omega), show (16 * value + d) / 16 = value by omega,
        show (16 * value + d) % 16 = d by omega]
    rw [hdigits, List.length_append, List.length_singleton, Nat.add_sub_add_right, ← List.append_assoc, List.map_append,
      List.map_singleton]

theorem hexDigitVal_lt {c : Char} (hc : isHexDigit c = true) : hexDigitVal c < 16 := by
  simp only [isHexDigit, isDecDigit, Bool.or_eq_true, Bool.and_eq_true, decide_eq_true_eq, Char.le_def,
    UInt32.le_iff_toNat_le] at hc
  have h48 : '0'.val.toNat = 48 := rfl
  have h57 : '9'.val.toNat = 57 := rfl
  have h97 : 'a'.val.toNat = 97 := rfl
  have h102 : 'f'.val.toNat = 102 := rfl
  have h65 : 'A'.val.toNat = 65 := rfl
  have h70 : 'F'.val.toNat = 70 := rfl
  simp only [hexDigitVal, isDecDigit, Bool.and_eq_true, decide_eq_true_eq, Char.le_def, UInt32.le_iff_toNat_le,
    Char.toNat]
  split_ifs <;> omega

theorem digitChar_hexDigitVal {c : Char} (hc : isHexDigit c = true) :
    (Nat.digitChar (hexDigitVal c)).toUpper = c.toUpper := by
  have hascii : ∀ n < 128, isHexDigit (Char.ofNat n) = true →
      (Nat.digitChar (hexDigitVal (Char.ofNat n))).toUpper = (Char.ofNat n).toUpper := by decide
  have hlt : c.toNat < 128 := by
    simp only [isHexDigit, isDecDigit, Bool.or_eq_true, Bool.and_eq_true, decide_eq_true_eq, Char.le_def,
      UInt32.le_iff_toNat_le] at hc
    have h57 : '9'.val.toNat = 57 := rfl
    have h102 : 'f'.val.toNat = 102 := rfl
    have h70 : 'F'.val.toNat = 70 := rfl
    have hval : c.val.toNat = c.toNat := rfl
    omega
  have h := hascii c.toNat hlt
  rw [Char.ofNat_toNat] at h
  exact h hc

theorem hexText_hexValue {ds : Str} (h : ∀ c ∈ ds, isHexDigit c = true) (hne : ds ≠ []) :
    hexText ds.length (hexValue ds) = ds.map Char.toUpper := by
  induction ds using List.reverseRecOn with
  | nil => exact absurd rfl hne
  | append_singleton ds c ih =>
    have hc := h c (by simp)
    rw [hexValue_append_singleton, List.length_append, List.length_singleton, List.map_append, List.map_singleton,
      ← digitChar_hexDigitVal hc]
    by_cases hds : ds = []
    · have hd := hexDigitVal_lt hc
      subst hds
      show hexText 1 (16 * 0 + hexDigitVal c) = _
      rw [hexText, Nat.mul_zero, Nat.zero_add, Nat.toDigits_of_lt_base hd]
      rfl
    · rw [hexText_succ _ (List.length_pos_iff.mpr hds) (hexDigitVal_lt hc),
        ih (fun d hd => h d (List.mem_append_left _ hd)) hds]

theorem hexValue_lt {ds : Str} (h : ∀ c ∈ ds, isHexDigit c = true) : hexValue ds < 16 ^ ds.length := by
  induction ds using List.reverseRecOn with
  | nil => decide
  | append_singleton ds c ih =>
    have hds := ih fun d hd => h d (List.mem_append_left _ hd)
    have hc := hexDigitVal_lt (h c (by simp))
    rw [hexValue_append_singleton, List.length_append, List.length_singleton, Nat.pow_succ]
    omega

theorem forall_hexText {P : Char → Prop} {width value : Nat} (h : ∀ d < 16, P (Nat.digitChar d).toUpper) :
    ∀ c ∈ hexText width value, P c := by
  have hdigits : ∀ n, ∀ c ∈ (Nat.toDigits 16 n).map Char.toUpper, P c := by
    intro n
    induction n using Nat.strongRecOn with
    | ind n ih =>
      by_cases hn : n < 16
      · rw [Nat.toDigits_of_lt_base hn]
        simpa using h n hn
      · rw [Nat.toDigits_of_base_le (by decide) (by omega), List.map_append, List.map_singleton]
        intro c hc
        rcases List.mem_append.mp hc with hc | hc
        · exact ih (n / 16) (by omega) c hc
        · rw [List.mem_singleton.mp hc]
          exact h _ (by omega)
  intro c hc
  rw [hexText, List.leftpad, List.map_append, List.map_replicate, List.mem_append] at hc
  rcases hc with hc | hc
  · rw [(List.mem_replicate.mp hc).2]
    exact h 0 (by decide)
  · exact hdigits value c hc

theorem isHexDigit_hexText {width value : Nat} : ∀ c ∈ hexText width value, isHexDigit c = true :=
  forall_hexText (by decide)

theorem cStr_of_isHexDigit {ds : Str} (h : ∀ c ∈ ds, isHexDigit c = true) : cStr ds = ds :=
  cStr_eq_self fun h0 => absurd (h _ h0) (by decide)

theorem isSpace_of_isHexDigit {c : Char} (hc : isHexDigit c = true) : isSpace c = false := by
  by_contra hs
  simp only [isSpace, isHexDigit, isDecDigit, Bool.or_eq_true, Bool.and_eq_true, beq_iff_eq, decide_eq_true_eq,
    Bool.not_eq_false, Char.le_def, UInt32.le_iff_toNat_le] at hs hc
  rcases hs with rfl | hs
  · revert hc; decide
  · have h13 : '\r'.val.toNat = 13 := rfl
    have h48 : '0'.val.toNat = 48 := rfl
    have h97 : 'a'.val.toNat = 97 := rfl
    have h65 : 'A'.val.toNat = 65 := rfl
    omega

theorem extractHex_cStr {bits : Nat} {s : Str} (hne : cStr s ≠ []) (hds : ∀ c ∈ cStr s, isHexDigit c = true)
    (hlt : hexValue (cStr s) < 2 ^ bits) : extractHex bits s = some (hexValue (cStr s)) := by
  have htake : s.takeWhile isHexDigit = cStr s := by
    conv_lhs => rw [← List.takeWhile_append_dropWhile (p := fun c => c != '\x00') (l := s)]
    show (cStr s ++ s.dropWhile fun c => c != '\x00').takeWhile isHexDigit = cStr s
    rw [List.takeWhile_append_of_pos hds]
    cases hd : s.dropWhile (fun c => c != '\x00') with
    | nil => simp [cStr]
    | cons c t =>
      have hc := List.head?_dropWhile_not (fun c => c != '\x00') s
      rw [hd] at hc
      have hc0 : c = '\x00' := by simpa using hc
      simp [hc0, cStr, show isHexDigit '\x00' = false by decide]
  cases s with
  | nil => exact absurd rfl hne
  | cons c t =>
    have hc0 : (c != '\x00') = true := by
      by_contra h
      simp [cStr, h] at hne
    have hmem : c ∈ cStr (c :: t) := by simp [cStr, hc0]
    have hcx := hds c hmem
    have hsign : splitSign (c :: t) = (false, c :: t) := by
      unfold splitSign
      split
      · simp_all [show isHexDigit '-' = false by decide]
      · simp_all [show isHexDigit '+' = false by decide]
      · rfl
    have hpre : dropHexPrefix (c :: t) = c :: t := by
      unfold dropHexPrefix
      split
      · rename_i u heq
        have hx : isHexDigit 'x' = true := hds 'x' (by rw [heq]; simp [cStr])
        exact absurd hx (by decide)
      · rename_i u heq
        have hx : isHexDigit 'X' = true := hds 'X' (by rw [heq]; simp [cStr])
        exact absurd hx (by decide)
      · rfl
    have hsp : (c :: t).dropWhile isSpace = c :: t := by simp [isSpace_of_isHexDigit hcx]
    simp [extractHex, hsp, hsign, hpre, htake, Nat.not_le.mpr hlt]

theorem extractHex_hexDigits {bits : Nat} {ds : Str} (hne : ds ≠ []) (hds : ∀ c ∈ ds, isHexDigit c = true)
    (hlt : hexValue ds < 2 ^ bits) : extractHex bits ds = some (hexValue ds) := by
  have hextract := @extractHex_cStr bits ds
  rw [cStr_of_isHexDigit hds] at hextract
  exact hextract hne hds hlt

/-- Something is extracted from every text that is not white space only. -/
theorem extractHex_isSome_iff {bits : Nat} {s : Str} :
    (extractHex bits s).isSome = true ↔ ∃ c ∈ s, isSpace c = false := by
  have hempty : (s.dropWhile isSpace).isEmpty = true ↔ ∀ c ∈ s, isSpace c = true := by
    rw [List.isEmpty_iff, List.dropWhile_eq_nil_iff]
  rw [extractHex]
  by_cases h : (s.dropWhile isSpace).isEmpty = true
  · rw [if_pos h]
    refine iff_of_false (by decide) fun hex => ?_
    obtain ⟨c, hc, hspace⟩ := hex
    rw [hempty.mp h c hc] at hspace
    cases hspace
  · rw [if_neg h]
    rw [hempty] at h
    simp only [not_forall, Bool.not_eq_true] at h
    obtain ⟨c, hc, hspace⟩ := h
    refine iff_of_true ?_ ⟨c, hc, hspace⟩
    dsimp only
    split
    · rfl
    · rfl

end Str
