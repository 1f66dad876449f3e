import AuthProvValidator.Base.Replace
import AuthProvValidator.Entities.Paths

/-!
# Logs without identities

`anonymizeJson` replaces what three patterns match by what their formatters make of it: each splits a match at its
delimiter and overwrites every second character of the parts after the first.

* `anonymizeString`, `anonymizeJson` : the three passes;
* `userWords`, `urlWords`, `jsonWords` : what the patterns read (`reads_userRegExp` and so on);
* `maskAfter_keyedWord`, `JsonFormatter_jsonWord` : what the formatters make of it.
-/

namespace AuthProvValidator
open Regex Regex.Expr

def QUOTE : Char := '\x22'

def DELIM : Char := '-'
def JSON_DELIM : Char := ':'
def URL_DELIM : Char := '='

/-- `((imsi|IMSI)-[0-9]{5,15})` -/
def userRegExp : Expr :=
  group 1 (cat [group 2 (alt (lit ("imsi" : Str)) (lit ("IMSI" : Str))), lit ['-'], between 5 15 Str.isDecDigit])

/-- `((imsi|IMSI) *= *[0-9]{5,15})` -/
def userUrlRegExp : Expr :=
  group 1 (cat [group 2 (alt (lit ("imsi" : Str)) (lit ("IMSI" : Str))), star (· == ' '), lit ['='], star (· == ' '),
    between 5 15 Str.isDecDigit])

/-- `("(imsi|IMSI)" *: *"[0-9]{5,15}")` -/
def userJsonRegExp : Expr :=
  group 1 (cat [lit [QUOTE], group 2 (alt (lit ("imsi" : Str)) (lit ("IMSI" : Str))), lit [QUOTE], star (· == ' '),
    lit [':'], star (· == ' '), lit [QUOTE], between 5 15 Str.isDecDigit, lit [QUOTE]])

/-- `std::replace_if` with a predicate that holds at every other call, at the first one too. -/
def maskToken (it : Str) : Str := it.mapIdx fun idx c => if idx % 2 = 0 then '*' else c

/-- Split at the delimiter and mask the parts after the first. -/
def maskAfter (delim : Char) (orig : Str) : Str :=
  match orig.splitOn delim with
  | [] => []
  | first :: strs => first ++ strs.flatMap fun it => delim :: maskToken it

def Formatter (orig : Str) : Str := maskAfter DELIM orig

def UrlFormatter (orig : Str) : Str := maskAfter URL_DELIM orig

/-- The blanks of all parts are erased, and the quotes of the parts after the first, which get new ones. -/
def JsonFormatter (orig : Str) : Str :=
  match (orig.splitOn JSON_DELIM).map fun it => it.filter (· != ' ') with
  | [] => []
  | first :: strs =>
      first ++ strs.flatMap fun it => JSON_DELIM :: QUOTE :: (maskToken (it.filter (· != QUOTE)) ++ [QUOTE])

def anonymizeString (str : Str) : Str := userRegExp.replace Formatter str

def anonymizeJson (str : Str) : Str :=
  let def_filter := anonymizeString str
  let url_filter := userUrlRegExp.replace UrlFormatter def_filter
  userJsonRegExp.replace JsonFormatter url_filter

example : anonymizeJson "IMSI = 123456 " = "IMSI =*1*3*5* ".toList := by decide

/-! ## What the patterns read -/

def IsUserName (n : Str) : Prop := n = "imsi" ∨ n = "IMSI"

def IsBlank (b : Str) : Prop := ∀ c ∈ b, c = ' '

/-- `imsi-d` -/
def userWords : Language Char := {w | ∃ n d, IsUserName n ∧ IsImsi d ∧ w = n ++ '-' :: d}

/-- `imsi = d`, with another letter in place of the `=` -/
def keyedWords (delim : Char) : Language Char :=
  {w | ∃ n b b' d, IsUserName n ∧ IsBlank b ∧ IsBlank b' ∧ IsImsi d ∧ w = n ++ b ++ delim :: (b' ++ d)}

def urlWords : Language Char := keyedWords URL_DELIM

/-- `"imsi" : "d"` -/
def jsonWords : Language Char :=
  {w | ∃ n b b' d, IsUserName n ∧ IsBlank b ∧ IsBlank b' ∧ IsImsi d ∧
    w = QUOTE :: (n ++ QUOTE :: (b ++ ':' :: (b' ++ QUOTE :: (d ++ [QUOTE]))))}

section Words
variable {w n b d : Str}

theorem isImsi_iff : d ∈ loopWords 5 (some 15) Str.isDecDigit ↔ IsImsi d := by
  constructor
  · intro h
    obtain ⟨hdigits, hmin, hmax⟩ := h
    exact ⟨hdigits, hmin, hmax 15 rfl⟩
  · intro h
    refine ⟨h.digits, h.min, fun m hm => ?_⟩
    rw [← Option.some.inj hm]
    exact h.max

theorem isBlank_iff : b ∈ loopWords 0 none (· == ' ') ↔ IsBlank b := by
  constructor
  · intro h c hc
    exact beq_iff_eq.mp (h.1 c hc)
  · intro h
    exact ⟨fun c hc => beq_iff_eq.mpr (h c hc), Nat.zero_le _, by simp⟩

/-- The names of an identity, as a language. -/
def userNames : Language Char := {n | IsUserName n}

theorem reads_userNames (n : Nat) : Reads (group n (alt (lit ("imsi" : Str)) (lit ("IMSI" : Str)))) userNames :=
  ((reads_lit _).alt (reads_lit _)).group n

theorem reads_userRegExp : Reads userRegExp userWords := by
  have hreads := ((reads_userNames 2).seq ((reads_lit ['-']).seq (reads_many true 5 (some 15) Str.isDecDigit))).group 1
  refine hreads.congr fun w => ?_
  simp only [Language.mem_mul]
  constructor
  · rintro ⟨n, d, hn, hd, rfl⟩
    exact ⟨n, hn, _, ⟨_, rfl, d, isImsi_iff.mpr hd, rfl⟩, rfl⟩
  · rintro ⟨n, hn, _, ⟨_, rfl, d, hd, rfl⟩, rfl⟩
    exact ⟨n, d, hn, isImsi_iff.mp hd, rfl⟩

theorem reads_userUrlRegExp : Reads userUrlRegExp urlWords := by
  have hblank := reads_many true 0 none (· == ' ')
  have hreads := ((reads_userNames 2).seq (hblank.seq ((reads_lit ['=']).seq (hblank.seq
    (reads_many true 5 (some 15) Str.isDecDigit))))).group 1
  refine hreads.congr fun w => ?_
  simp only [Language.mem_mul]
  constructor
  · rintro ⟨n, b, b', d, hn, hb, hb', hd, rfl⟩
    refine ⟨n, hn, _, ⟨b, isBlank_iff.mpr hb, _, ⟨_, rfl, _, ⟨b', isBlank_iff.mpr hb', d, isImsi_iff.mpr hd, rfl⟩, rfl⟩,
      rfl⟩, ?_⟩
    rw [List.append_assoc]
    rfl
  · rintro ⟨n, hn, _, ⟨b, hb, _, ⟨_, rfl, _, ⟨b', hb', d, hd, rfl⟩, rfl⟩, rfl⟩, rfl⟩
    refine ⟨n, b, b', d, hn, isBlank_iff.mp hb, isBlank_iff.mp hb', isImsi_iff.mp hd, ?_⟩
    rw [List.append_assoc]
    rfl

theorem reads_userJsonRegExp : Reads userJsonRegExp jsonWords := by
  have hblank := reads_many true 0 none (· == ' ')
  have hquote := reads_lit [QUOTE]
  have hreads := (hquote.seq ((reads_userNames 2).seq (hquote.seq (hblank.seq ((reads_lit [':']).seq (hblank.seq
    (hquote.seq ((reads_many true 5 (some 15) Str.isDecDigit).seq hquote)))))))).group 1
  refine hreads.congr fun w => ?_
  simp only [Language.mem_mul]
  constructor
  · rintro ⟨n, b, b', d, hn, hb, hb', hd, rfl⟩
    exact ⟨_, rfl, _, ⟨n, hn, _, ⟨_, rfl, _, ⟨b, isBlank_iff.mpr hb, _, ⟨_, rfl, _, ⟨b', isBlank_iff.mpr hb', _,
      ⟨_, rfl, _, ⟨d, isImsi_iff.mpr hd, _, rfl, rfl⟩, rfl⟩, rfl⟩, rfl⟩, rfl⟩, rfl⟩, rfl⟩, rfl⟩
  · rintro ⟨_, rfl, _, ⟨n, hn, _, ⟨_, rfl, _, ⟨b, hb, _, ⟨_, rfl, _, ⟨b', hb', _, ⟨_, rfl, _, ⟨d, hd,
      _, rfl, rfl⟩, rfl⟩, rfl⟩, rfl⟩, rfl⟩, rfl⟩, rfl⟩, rfl⟩
    exact ⟨n, b, b', d, hn, isBlank_iff.mp hb, isBlank_iff.mp hb', isImsi_iff.mp hd, rfl⟩

end Words

/-! ## What the formatters make of it -/

section Format
variable {u v n b b' d it : Str} {c delim : Char}

theorem masks_mapIdx (p : Nat → Prop) [DecidablePred p] (it : Str) :
    Masks '*' it (it.mapIdx fun idx c => if p idx then '*' else c) := by
  induction it generalizing p with
  | nil => exact .nil
  | cons c it ih =>
    rw [List.mapIdx_cons]
    refine .cons ?_ (ih fun idx => p (idx + 1))
    split
    · exact Or.inr rfl
    · exact Or.inl rfl

theorem masks_maskToken (it : Str) : Masks '*' it (maskToken it) := masks_mapIdx (· % 2 = 0) it

theorem maskToken_cons (c : Char) (it : Str) :
    ∃ r, maskToken (c :: it) = '*' :: r ∧ ∀ a ∈ r, a ∈ it ∨ a = '*' := by
  rw [maskToken, List.mapIdx_cons]
  refine ⟨_, rfl, fun a ha => ?_⟩
  exact (masks_mapIdx (fun idx => (idx + 1) % 2 = 0) it).mem ha

theorem splitOn_two (hu : delim ∉ u) (hv : delim ∉ v) : (u ++ delim :: v).splitOn delim = [u, v] := by
  have hne : ∀ {l : Str}, delim ∉ l → ∀ c ∈ l, (c == delim) = false := by
    intro l hl c hc
    rw [beq_eq_false_iff_ne]
    intro heq
    rw [heq] at hc
    exact hl hc
  rw [List.splitOn_eq_splitOnP, List.splitOnP_append_cons_of_forall_mem (hne hu) delim (beq_self_eq_true delim),
    List.splitOnP_eq_singleton (hne hv)]

theorem maskAfter_split (hu : delim ∉ u) (hv : delim ∉ v) :
    maskAfter delim (u ++ delim :: v) = u ++ delim :: maskToken v := by
  rw [maskAfter, splitOn_two hu hv]
  simp

theorem JsonFormatter_split (hu : JSON_DELIM ∉ u) (hv : JSON_DELIM ∉ v) :
    JsonFormatter (u ++ JSON_DELIM :: v) = u.filter (· != ' ') ++
      JSON_DELIM :: QUOTE :: (maskToken ((v.filter (· != ' ')).filter (· != QUOTE)) ++ [QUOTE]) := by
  rw [JsonFormatter, splitOn_two hu hv]
  simp

theorem IsUserName.letters (h : IsUserName n) : n ⊆ ("imsIMS" : Str) := by
  rcases h with rfl | rfl
  · decide
  · decide

theorem IsUserName.no_digits (h : IsUserName n) : ∀ c ∈ n, ¬ Str.isDecDigit c = true := by
  apply List.any_eq_false.mp
  rcases h with rfl | rfl
  · decide
  · decide

theorem IsImsi.not_mem (h : IsImsi d) (hc : Str.isDecDigit c = false) : c ∉ d := by
  intro hmem
  rw [h.digits c hmem] at hc
  cases hc

theorem IsBlank.not_mem (h : IsBlank b) (hc : c ≠ ' ') : c ∉ b := fun hmem => hc (h c hmem)

theorem IsUserName.not_mem (h : IsUserName n) (hc : c ∉ ("imsIMS" : Str)) : c ∉ n := fun hmem => hc (h.letters hmem)

theorem IsImsi.ne_nil (h : IsImsi d) : d ≠ [] := by
  intro hnil
  have hmin := h.min
  rw [hnil] at hmin
  exact absurd hmin (by decide)

theorem ne_of_isDecDigit {a c : Char} (ha : Str.isDecDigit a = true) (hc : Str.isDecDigit c = false) : a ≠ c := by
  intro heq
  rw [heq, hc] at ha
  cases ha

theorem IsBlank.filter_eq_nil (h : IsBlank b) : b.filter (· != ' ') = [] := by
  apply List.filter_eq_nil_iff.mpr
  intro c hc
  rw [h c hc]
  decide

theorem filter_eq_self_of_not_mem (hc : c ∉ u) : u.filter (· != c) = u := by
  apply List.filter_eq_self.mpr
  intro a ha
  apply bne_iff_ne.mpr
  intro heq
  rw [heq] at ha
  exact hc ha

theorem maskAfter_keyedWord (hdelim : delim = DELIM ∨ delim = URL_DELIM) (hn : IsUserName n) (hb : IsBlank b)
    (hb' : IsBlank b') (hd : IsImsi d) :
    maskAfter delim (n ++ b ++ delim :: (b' ++ d)) = n ++ b ++ delim :: maskToken (b' ++ d) := by
  have hkind : delim ∉ ("imsIMS" : Str) ∧ delim ≠ ' ' ∧ Str.isDecDigit delim = false := by
    rcases hdelim with rfl | rfl
    · decide
    · decide
  obtain ⟨hletter, hblank, hdigit⟩ := hkind
  apply maskAfter_split
  · rw [List.mem_append, not_or]
    exact ⟨hn.not_mem hletter, hb.not_mem hblank⟩
  · rw [List.mem_append, not_or]
    exact ⟨hb'.not_mem hblank, hd.not_mem hdigit⟩

theorem JsonFormatter_jsonWord (hn : IsUserName n) (hb : IsBlank b) (hb' : IsBlank b') (hd : IsImsi d) :
    JsonFormatter (QUOTE :: (n ++ QUOTE :: (b ++ ':' :: (b' ++ QUOTE :: (d ++ [QUOTE]))))) =
      QUOTE :: (n ++ QUOTE :: ':' :: QUOTE :: (maskToken d ++ [QUOTE])) := by
  have hfirst : JSON_DELIM ∉ QUOTE :: (n ++ QUOTE :: b) := by
    simp only [List.mem_cons, List.mem_append, not_or]
    exact ⟨by decide, hn.not_mem (by decide), by decide, hb.not_mem (by decide)⟩
  have hsecond : JSON_DELIM ∉ b' ++ QUOTE :: (d ++ [QUOTE]) := by
    simp only [List.mem_cons, List.mem_append, List.not_mem_nil, or_false, not_or]
    exact ⟨hb'.not_mem (by decide), by decide, hd.not_mem (by decide), by decide⟩
  have hsplit : QUOTE :: (n ++ QUOTE :: (b ++ ':' :: (b' ++ QUOTE :: (d ++ [QUOTE])))) =
      QUOTE :: (n ++ QUOTE :: b) ++ JSON_DELIM :: (b' ++ QUOTE :: (d ++ [QUOTE])) := by
    simp only [List.append_assoc, List.cons_append]
    rfl
  have hname : n.filter (· != ' ') = n := filter_eq_self_of_not_mem (hn.not_mem (by decide))
  have hdigits : d.filter (· != ' ') = d := filter_eq_self_of_not_mem (hd.not_mem (by decide))
  have hunquoted : d.filter (· != QUOTE) = d := filter_eq_self_of_not_mem (hd.not_mem (by decide))
  have hspace : (QUOTE != ' ') = true := by decide
  rw [hsplit, JsonFormatter_split hfirst hsecond]
  simp only [List.filter_cons, List.filter_append, hb.filter_eq_nil, hb'.filter_eq_nil, hname, hdigits,
    hunquoted, hspace, bne_self_eq_false, if_true, List.filter_nil, List.nil_append, List.append_nil,
    Bool.false_eq_true, if_false, List.append_assoc, List.cons_append]
  rfl

end Format

end AuthProvValidator
