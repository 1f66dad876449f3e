import AuthProvValidator.Ports.Logs

/-!
# What is left of an identity in the logs

Two passes overwrite the digits of `imsi-d` and `imsi = d`, the third one those of `"imsi" : "d"`. A text of the third
kind ends in the quote that the next one can start with, and then the next one is not replaced.

* `absent_userWords_anonymizeJson`, `absent_urlWords_anonymizeJson` : nothing of the first two kinds is left, whatever
  the text is;
* `absent_jsonWords_anonymizeJson_iff` : something of the third kind is left exactly when two of them shared a quote;
* `anonymizeJson_anonymous_iff` : so says the same of the patterns, and where nothing is left nothing is replaced again.
-/

namespace AuthProvValidator
open Regex Regex.Expr

/-- No part of the text is matched by one of the patterns. -/
def Anonymous (s : Str) : Prop :=
  ∀ r ∈ [userRegExp, userUrlRegExp, userJsonRegExp], ∀ w, w <:+: s → ¬ (r.fullMatch w).isSome = true

/-- Two parts that the third pattern matches share a quote. -/
def SharesQuote (s : Str) : Prop :=
  ∃ v w, v ++ QUOTE :: w <:+: s ∧ (userJsonRegExp.fullMatch (v ++ [QUOTE])).isSome = true ∧
    (userJsonRegExp.fullMatch (QUOTE :: w)).isSome = true

/-- After a quote no name starts. -/
def NoName (a b : Char) : Prop := a = QUOTE → b ≠ 'i' ∧ b ≠ 'I'

/-! ## Texts of the first two kinds -/

section Keyed
variable {x t : Str} {c delim : Char}

theorem userWords_keyed (hx : x ∈ userWords) : x ∈ keyedWords DELIM := by
  obtain ⟨n, d, hn, hd, rfl⟩ := hx
  refine ⟨n, [], [], d, hn, fun c hc => absurd hc List.not_mem_nil, fun c hc => absurd hc List.not_mem_nil, hd, ?_⟩
  rw [List.append_nil]
  rfl

theorem mem_keyedWord (hx : x ∈ keyedWords delim) (hc : c ∈ x) :
    c ∈ ("imsIMS " : Str) ∨ c = delim ∨ Str.isDecDigit c = true := by
  obtain ⟨n, b, b', d, hn, hb, hb', hd, rfl⟩ := hx
  have hblank : ∀ b, IsBlank b → c ∈ b → c ∈ ("imsIMS " : Str) := by
    intro b hb hmem
    rw [hb c hmem]
    decide
  simp only [List.mem_append, List.mem_cons] at hc
  rcases hc with (hc | hc) | hc | hc | hc
  · exact Or.inl ((by decide : ("imsIMS" : Str) ⊆ ("imsIMS " : Str)) (hn.letters hc))
  · exact Or.inl (hblank b hb hc)
  · exact Or.inr (Or.inl hc)
  · exact Or.inl (hblank b' hb' hc)
  · exact Or.inr (Or.inr (hd.digits c hc))

theorem not_mem_keyedWord (hx : x ∈ keyedWords delim) (hletter : c ∉ ("imsIMS " : Str)) (hdelim : c ≠ delim)
    (hdigit : ¬ Str.isDecDigit c = true) : c ∉ x := by
  intro hc
  rcases mem_keyedWord hx hc with h | h | h
  · exact hletter h
  · exact hdelim h
  · exact hdigit h

theorem delim_mem_keyedWord (hx : x ∈ keyedWords delim) : delim ∈ x := by
  obtain ⟨n, b, b', d, -, -, -, -, rfl⟩ := hx
  exact List.mem_append_right _ List.mem_cons_self

theorem head_keyedWord (hx : x ∈ keyedWords delim) : x.head? = some 'i' ∨ x.head? = some 'I' := by
  obtain ⟨n, b, b', d, hn, -, -, -, rfl⟩ := hx
  rcases hn with rfl | rfl
  · exact Or.inl rfl
  · exact Or.inr rfl

theorem exists_digit (h : IsImsi x) : ∃ c ∈ x, Str.isDecDigit c = true := by
  obtain ⟨c, hc⟩ := List.exists_mem_of_ne_nil x h.ne_nil
  exact ⟨c, hc, h.digits c hc⟩

theorem digit_mem_keyedWord (hx : x ∈ keyedWords delim) : ∃ c ∈ x, Str.isDecDigit c = true := by
  obtain ⟨n, b, b', d, -, -, -, hd, rfl⟩ := hx
  obtain ⟨c, hc, hdigit⟩ := exists_digit hd
  exact ⟨c, List.mem_append_right _ (List.mem_cons_of_mem _ (List.mem_append_right _ hc)), hdigit⟩

theorem masks_maskAfter (hdelim : delim = DELIM ∨ delim = URL_DELIM) (hx : x ∈ keyedWords delim) :
    Masks '*' x (maskAfter delim x) := by
  obtain ⟨n, b, b', d, hn, hb, hb', hd, rfl⟩ := hx
  rw [maskAfter_keyedWord hdelim hn hb hb' hd]
  exact List.rel_append (Masks.refl _) (.cons (Or.inl rfl) (masks_maskToken _))

theorem exists_maskAfter (hdelim : delim = DELIM ∨ delim = URL_DELIM) (hx : x ∈ keyedWords delim) :
    ∃ u r, maskAfter delim x = u ++ '*' :: r ∧ (∀ c ∈ u, ¬ Str.isDecDigit c = true) ∧ ∀ c ∈ r, c ≠ 'i' ∧ c ≠ 'I' := by
  obtain ⟨n, b, b', d, hn, hb, hb', hd, rfl⟩ := hx
  rw [maskAfter_keyedWord hdelim hn hb hb' hd]
  obtain ⟨c₀, it, hit⟩ := List.exists_cons_of_ne_nil (List.append_ne_nil_of_right_ne_nil b' hd.ne_nil)
  obtain ⟨r, hr, hmem⟩ := maskToken_cons c₀ it
  refine ⟨n ++ b ++ [delim], r, ?_, fun c hc => ?_, fun c hc => ?_⟩
  · rw [hit, hr]
    simp only [List.append_assoc, List.cons_append, List.nil_append]
  · simp only [List.mem_append, List.mem_singleton] at hc
    rcases hc with (hc | hc) | rfl
    · exact hn.no_digits c hc
    · rw [hb c hc]
      decide
    · rcases hdelim with rfl | rfl
      · decide
      · decide
  · -- what is left after the first character are blanks, digits and stars
    rcases hmem c hc with hin | rfl
    · have hmem' : c ∈ b' ++ d := by
        rw [hit]
        exact List.mem_cons_of_mem _ hin
      rcases List.mem_append.mp hmem' with hblank | hdigit
      · rw [hb' c hblank]
        decide
      · have hdec := hd.digits c hdigit
        exact ⟨ne_of_isDecDigit hdec (by decide), ne_of_isDecDigit hdec (by decide)⟩
    · decide

/-- A star in a text without digits: no word of `Y` starts before it, nor at letters that none starts with. -/
theorem absent_append_masked {Y : Language Char} {u r : Str} (h : Absent Y t) (hstar : ∀ y ∈ Y, '*' ∉ y)
    (hdigit : ∀ y ∈ Y, ∃ c ∈ y, Str.isDecDigit c = true) (hu : ∀ c ∈ u, ¬ Str.isDecDigit c = true)
    (hr : ∀ c ∈ r, ∀ y ∈ Y, y.head? ≠ some c) : Absent Y (u ++ '*' :: r ++ t) := by
  have hne : [] ∉ Y := by
    intro hnil
    obtain ⟨c, hc, -⟩ := hdigit [] hnil
    exact List.not_mem_nil hc
  rw [List.append_assoc, List.cons_append]
  apply (h.append_of_heads hne hr).append_mark hstar
  intro y hy
  obtain ⟨c, hc, hdec⟩ := hdigit y hy
  exact ⟨c, hc, fun hmem => hu c hmem hdec⟩

end Keyed

/-! ## Texts of the third kind -/

section JsonWords
variable {x n b b' d u v t : Str} {c : Char}

theorem mem_jsonWord (hx : x ∈ jsonWords) (hc : c ∈ x) :
    c ∈ ("imsIMS :" : Str) ∨ c = QUOTE ∨ Str.isDecDigit c = true := by
  obtain ⟨n, b, b', d, hn, hb, hb', hd, rfl⟩ := hx
  have hblank : ∀ b, IsBlank b → c ∈ b → c ∈ ("imsIMS :" : Str) := by
    intro b hb hmem
    rw [hb c hmem]
    decide
  simp only [List.mem_append, List.mem_cons, List.not_mem_nil, or_false] at hc
  rcases hc with hc | hc | hc | hc | hc | hc | hc | hc | hc
  · exact Or.inr (Or.inl hc)
  · exact Or.inl ((by decide : ("imsIMS" : Str) ⊆ ("imsIMS :" : Str)) (hn.letters hc))
  · exact Or.inr (Or.inl hc)
  · exact Or.inl (hblank b hb hc)
  · rw [hc]
    exact Or.inl (by decide)
  · exact Or.inl (hblank b' hb' hc)
  · exact Or.inr (Or.inl hc)
  · exact Or.inr (Or.inr (hd.digits c hc))
  · exact Or.inr (Or.inl hc)

theorem not_mem_jsonWord (hx : x ∈ jsonWords) (hletter : c ∉ ("imsIMS :" : Str)) (hquote : c ≠ QUOTE)
    (hdigit : ¬ Str.isDecDigit c = true) : c ∉ x := by
  intro hc
  rcases mem_jsonWord hx hc with h | h | h
  · exact hletter h
  · exact hquote h
  · exact hdigit h

theorem digit_mem_jsonWord (hx : x ∈ jsonWords) : ∃ c ∈ x, Str.isDecDigit c = true := by
  obtain ⟨n, b, b', d, -, -, -, hd, rfl⟩ := hx
  obtain ⟨c, hc, hdigit⟩ := exists_digit hd
  refine ⟨c, ?_, hdigit⟩
  simp only [List.mem_append, List.mem_cons]
  tauto

theorem head_jsonWord (hx : x ∈ jsonWords) : x.head? = some QUOTE := by
  obtain ⟨n, b, b', d, -, -, -, -, rfl⟩ := hx
  rfl

theorem exists_quotes (hx : x ∈ jsonWords) : ∃ v, x = v ++ [QUOTE] ∧ v.count QUOTE = 3 := by
  obtain ⟨n, b, b', d, hn, hb, hb', hd, rfl⟩ := hx
  have hn0 : n.count QUOTE = 0 := List.count_eq_zero_of_not_mem (hn.not_mem (by decide))
  have hb0 : b.count QUOTE = 0 := List.count_eq_zero_of_not_mem (hb.not_mem (by decide))
  have hb'0 : b'.count QUOTE = 0 := List.count_eq_zero_of_not_mem (hb'.not_mem (by decide))
  have hd0 : d.count QUOTE = 0 := List.count_eq_zero_of_not_mem (hd.not_mem (by decide))
  refine ⟨QUOTE :: (n ++ QUOTE :: (b ++ ':' :: (b' ++ QUOTE :: d))), ?_, ?_⟩
  · simp only [List.append_assoc, List.cons_append]
  · have hcolon : (':' == QUOTE) = false := by decide
    simp only [List.count_cons, List.count_append, hn0, hb0, hb'0, hd0, beq_self_eq_true, if_true, hcolon]
    rfl

theorem jsonWord_eq_of_prefix {y : Str} (hx : x ∈ jsonWords) (hy : y ∈ jsonWords) (hbegin : x <+: y) : x = y := by
  obtain ⟨v, rfl, hv⟩ := exists_quotes hx
  obtain ⟨w, rfl, hw⟩ := exists_quotes hy
  rcases List.prefix_concat_iff.mp hbegin with heq | hshort
  · exact heq
  · -- it would have as many quotes as the other one has before its last
    have hle := hshort.sublist.count_le QUOTE
    rw [List.count_append, hv, hw] at hle
    exact absurd hle (by decide)

theorem exists_JsonFormatter (hx : x ∈ jsonWords) :
    ∃ v u r, x = v ++ [QUOTE] ∧ JsonFormatter x = u ++ '*' :: r ++ [QUOTE] ∧
      (∀ c ∈ u, ¬ Str.isDecDigit c = true) ∧ ∀ c ∈ r, c ≠ 'i' ∧ c ≠ 'I' ∧ c ≠ QUOTE := by
  obtain ⟨v, hv, -⟩ := exists_quotes hx
  obtain ⟨n, b, b', d, hn, hb, hb', hd, rfl⟩ := hx
  obtain ⟨c₀, it, rfl⟩ := List.exists_cons_of_ne_nil hd.ne_nil
  obtain ⟨r, hr, hmem⟩ := maskToken_cons c₀ it
  refine ⟨v, QUOTE :: (n ++ [QUOTE, ':', QUOTE]), r, hv, ?_, fun c hc => ?_, fun c hc => ?_⟩
  · rw [JsonFormatter_jsonWord hn hb hb' hd, hr]
    simp only [List.append_assoc, List.cons_append, List.nil_append]
  · simp only [List.mem_cons, List.mem_append, List.not_mem_nil, or_false] at hc
    rcases hc with rfl | hc | rfl | rfl | rfl
    · decide
    · exact hn.no_digits c hc
    · decide
    · decide
    · decide
  · rcases hmem c hc with hin | rfl
    · have hdec := hd.digits c (List.mem_cons_of_mem c₀ hin)
      exact ⟨ne_of_isDecDigit hdec (by decide), ne_of_isDecDigit hdec (by decide), ne_of_isDecDigit hdec (by decide)⟩
    · decide

theorem sameStart_jsonWord (hx : x ∈ jsonWords) : SameStart NoName x (JsonFormatter x) := by
  obtain ⟨n, b, b', d, hn, hb, hb', hd, rfl⟩ := hx
  rw [JsonFormatter_jsonWord hn hb hb' hd]
  rcases hn with rfl | rfl
  · exact ⟨QUOTE, 'i', _, _, rfl, rfl, fun h => (h rfl).1 rfl⟩
  · exact ⟨QUOTE, 'I', _, _, rfl, rfl, fun h => (h rfl).2 rfl⟩

/-! In a text without a quote nothing follows one. -/

theorem isChain_noName_append (hu : QUOTE ∉ u) (hv : v.IsChain NoName) : (u ++ v).IsChain NoName := by
  induction u with
  | nil => exact hv
  | cons c u ih =>
    rw [List.mem_cons, not_or] at hu
    rw [List.cons_append, List.isChain_cons]
    exact ⟨fun e _ heq => absurd heq.symm hu.1, ih hu.2⟩

theorem isChain_noName_quote (hv : v.IsChain NoName) (hhead : ∀ c, v.head? = some c → c ≠ 'i' ∧ c ≠ 'I') :
    (QUOTE :: v).IsChain NoName := by
  rw [List.isChain_cons]
  exact ⟨fun c hc _ => hhead c hc, hv⟩

theorem isChain_noName_of_not_mem (hu : QUOTE ∉ u) : u.IsChain NoName := by
  rw [← List.append_nil u]
  exact isChain_noName_append hu .nil

/-- Only the first quote of a text of the third kind stands before a name. -/
theorem isChain_tail_jsonWord (hx : x ∈ jsonWords) : x.tail.IsChain NoName := by
  obtain ⟨n, b, b', d, hn, hb, hb', hd, rfl⟩ := hx
  have hlast : (d ++ [QUOTE]).IsChain NoName := isChain_noName_append (hd.not_mem (by decide)) (.singleton QUOTE)
  have hdigits : (QUOTE :: (d ++ [QUOTE])).IsChain NoName := by
    apply isChain_noName_quote hlast
    intro c hc
    rw [List.head?_append_of_ne_nil _ hd.ne_nil] at hc
    have hdec := hd.digits c (List.mem_of_mem_head? hc)
    exact ⟨ne_of_isDecDigit hdec (by decide), ne_of_isDecDigit hdec (by decide)⟩
  have hcolon : (':' :: (b' ++ QUOTE :: (d ++ [QUOTE]))).IsChain NoName := by
    rw [List.isChain_cons]
    exact ⟨fun c _ heq => absurd heq (by decide), isChain_noName_append (hb'.not_mem (by decide)) hdigits⟩
  have hblank : (QUOTE :: (b ++ ':' :: (b' ++ QUOTE :: (d ++ [QUOTE])))).IsChain NoName := by
    apply isChain_noName_quote (isChain_noName_append (hb.not_mem (by decide)) hcolon)
    intro c hc
    cases b with
    | nil =>
      obtain rfl := Option.some.inj hc
      decide
    | cons c' b =>
      obtain rfl := Option.some.inj hc
      rw [hb c' List.mem_cons_self]
      decide
  exact isChain_noName_append (hn.not_mem (by decide)) hblank

end JsonWords

/-! ## The first two passes -/

section KeyedPass
variable {X Y : Language Char} {delim : Char} {s out t x : Str}

/-- What starts within the masked text of a word is no word of the first two kinds. -/
theorem absent_append_keyed {delim' : Char} (hY : ∀ y ∈ Y, y ∈ keyedWords delim') (hstar : '*' ≠ delim') {u r : Str}
    (hu : ∀ c ∈ u, ¬ Str.isDecDigit c = true) (hr : ∀ c ∈ r, c ≠ 'i' ∧ c ≠ 'I') (h : Absent Y t) :
    Absent Y (u ++ '*' :: r ++ t) := by
  refine absent_append_masked h (fun y hy => not_mem_keyedWord (hY y hy) (by decide) hstar (by decide))
    (fun y hy => digit_mem_keyedWord (hY y hy)) hu fun c hc y hy hhead => ?_
  rcases head_keyedWord (hY y hy) with hi | hi
  · rw [hi] at hhead
    exact (hr c hc).1 (Option.some.inj hhead).symm
  · rw [hi] at hhead
    exact (hr c hc).2 (Option.some.inj hhead).symm

theorem star_ne_delim (hdelim : delim = DELIM ∨ delim = URL_DELIM) : '*' ≠ delim := by
  rcases hdelim with rfl | rfl
  · decide
  · decide

theorem absent_of_pass (hdelim : delim = DELIM ∨ delim = URL_DELIM) (hX : ∀ x ∈ X, x ∈ keyedWords delim)
    (h : Replaces X (maskAfter delim) s out) : Absent X out := by
  have hne : [] ∉ X := by
    intro hnil
    obtain ⟨c, hc, -⟩ := digit_mem_keyedWord (hX [] hnil)
    exact List.not_mem_nil hc
  refine h.absent_of_masks hne (m := '*')
    (fun x hx => not_mem_keyedWord (hX x hx) (by decide) (star_ne_delim hdelim) (by decide))
    (fun x hx => masks_maskAfter hdelim (hX x hx)) fun x hx t ht => ?_
  obtain ⟨u, r, hfmt, hu, hr⟩ := exists_maskAfter hdelim (hX x hx)
  rw [hfmt]
  exact absent_append_keyed hX (star_ne_delim hdelim) hu hr ht

theorem absent_after_pass {delim' : Char} (hdelim : delim = DELIM ∨ delim = URL_DELIM)
    (hX : ∀ x ∈ X, x ∈ keyedWords delim) (h : Replaces X (maskAfter delim) s out)
    (hY : ∀ y ∈ Y, y ∈ keyedWords delim') (hdelim' : '*' ≠ delim') (hs : Absent Y s) : Absent Y out :=
  hs.of_masks (h.masks fun x hx => masks_maskAfter hdelim (hX x hx)) fun y hy =>
    not_mem_keyedWord (hY y hy) (by decide) hdelim' (by decide)

/-- It neither loses nor makes two words of the third kind that share a quote. -/
theorem absent_linked_pass (hdelim : delim = DELIM ∨ delim = URL_DELIM) (hX : ∀ x ∈ X, x ∈ keyedWords delim)
    (h : Replaces X (maskAfter delim) s out) : Absent (Linked jsonWords) out ↔ Absent (Linked jsonWords) s := by
  have hquote : QUOTE ≠ delim ∧ delim ∉ ("imsIMS :" : Str) ∧ delim ≠ QUOTE ∧ ¬ Str.isDecDigit delim = true := by
    rcases hdelim with rfl | rfl
    · decide
    · decide
  obtain ⟨hne, hletter, hne', hdigit⟩ := hquote
  refine h.absent_iff_framed (m := '*') (q := QUOTE) (d := delim)
    (fun x hx => masks_maskAfter hdelim (hX x hx))
    (fun x hx => ⟨delim_mem_keyedWord (hX x hx), not_mem_keyedWord (hX x hx) (by decide) hne (by decide)⟩) ?_
  rintro _ ⟨v, a, w, hv, hw, rfl⟩
  have hnone : ∀ c, c ∉ ("imsIMS :" : Str) → c ≠ QUOTE → ¬ Str.isDecDigit c = true → c ∉ v ++ a :: w := by
    intro c hletter hquote hdigit hmem
    rcases List.mem_append.mp hmem with hmem | hmem
    · exact not_mem_jsonWord hv hletter hquote hdigit (List.mem_append_left _ hmem)
    · exact not_mem_jsonWord hw hletter hquote hdigit hmem
  refine ⟨hnone '*' (by decide) (by decide) (by decide), hnone delim hletter hne' hdigit, ?_, ?_⟩
  · have hhead := head_jsonWord hv
    cases v with
    | nil => exact head_jsonWord hw
    | cons c v => exact hhead
  · obtain ⟨v', hv', -⟩ := exists_quotes hw
    rw [hv', List.getLast?_append_of_ne_nil _ (List.append_ne_nil_of_right_ne_nil v' (List.cons_ne_nil _ _)),
      List.getLast?_concat]

end KeyedPass

/-! ## The third pass -/

section JsonPass
variable {Y : Language Char} {s out : Str}

theorem nil_not_mem_jsonWords : [] ∉ jsonWords := by
  intro hnil
  obtain ⟨c, hc, -⟩ := digit_mem_jsonWord hnil
  exact List.not_mem_nil hc

theorem absent_keyed_jsonPass {delim : Char} (hdelim : delim = DELIM ∨ delim = URL_DELIM)
    (hY : ∀ y ∈ Y, y ∈ keyedWords delim) (h : Replaces jsonWords JsonFormatter s out) (hs : Absent Y s) :
    Absent Y out := by
  have hquote : QUOTE ≠ delim := by
    rcases hdelim with rfl | rfl
    · decide
    · decide
  refine h.absent_of_chain (fun x hx => sameStart_jsonWord hx)
    (fun y hy => isChain_noName_of_not_mem (not_mem_keyedWord (hY y hy) (by decide) hquote (by decide)))
    (fun x hx t ht => ?_) hs
  obtain ⟨v, u, r, -, hfmt, hu, hr⟩ := exists_JsonFormatter hx
  have hsplit : u ++ '*' :: r ++ [QUOTE] ++ t = u ++ '*' :: (r ++ [QUOTE]) ++ t := by
    simp only [List.append_assoc, List.cons_append]
  rw [hfmt, hsplit]
  refine absent_append_keyed hY (star_ne_delim hdelim) hu (fun c hc => ?_) ht
  rcases List.mem_append.mp hc with hc | hc
  · exact ⟨(hr c hc).1, (hr c hc).2.1⟩
  · rw [List.mem_singleton.mp hc]
    decide

theorem absent_jsonPass_iff (h : Replaces jsonWords JsonFormatter s out) :
    Absent jsonWords out ↔ Absent (Linked jsonWords) s := by
  refine h.absent_iff_linked (fun x hx y hy => jsonWord_eq_of_prefix hx hy) (fun x hx => sameStart_jsonWord hx)
    (fun x hx => isChain_tail_jsonWord hx) fun x hx => ?_
  obtain ⟨v, u, r, hv, hfmt, hu, hr⟩ := exists_JsonFormatter hx
  refine ⟨v, u ++ '*' :: r, QUOTE, hv, hfmt, fun t ht => ?_⟩
  refine absent_append_masked ht (fun y hy => not_mem_jsonWord hy (by decide) (by decide) (by decide))
    (fun y hy => digit_mem_jsonWord hy) hu fun c hc y hy hhead => ?_
  rw [head_jsonWord hy] at hhead
  exact (hr c hc).2.2 (Option.some.inj hhead).symm

end JsonPass

/-! ## The three passes -/

section Anonymize
variable {s : Str}

theorem replaces_anonymizeString (s : Str) : Replaces userWords (maskAfter DELIM) s (anonymizeString s) := by
  refine replaces_replace reads_userRegExp (fun hnil => ?_) s
  obtain ⟨c, hc, -⟩ := digit_mem_keyedWord (userWords_keyed hnil)
  exact List.not_mem_nil hc

theorem replaces_userUrl (s : Str) :
    Replaces urlWords (maskAfter URL_DELIM) s (userUrlRegExp.replace UrlFormatter s) := by
  refine replaces_replace reads_userUrlRegExp (fun hnil => ?_) s
  obtain ⟨c, hc, -⟩ := digit_mem_keyedWord hnil
  exact List.not_mem_nil hc

theorem replaces_userJson (s : Str) : Replaces jsonWords JsonFormatter s (userJsonRegExp.replace JsonFormatter s) :=
  replaces_replace reads_userJsonRegExp nil_not_mem_jsonWords s

theorem absent_userWords_anonymizeJson (s : Str) : Absent userWords (anonymizeJson s) := by
  have hkeyed : ∀ x ∈ userWords, x ∈ keyedWords DELIM := fun x hx => userWords_keyed hx
  have hfirst := absent_of_pass (Or.inl rfl) hkeyed (replaces_anonymizeString s)
  have hsecond := absent_after_pass (Or.inr rfl) (fun x hx => hx) (replaces_userUrl _) hkeyed (by decide) hfirst
  exact absent_keyed_jsonPass (Or.inl rfl) hkeyed (replaces_userJson _) hsecond

theorem absent_urlWords_anonymizeJson (s : Str) : Absent urlWords (anonymizeJson s) := by
  have hkeyed : ∀ x ∈ urlWords, x ∈ keyedWords URL_DELIM := fun x hx => hx
  have hsecond := absent_of_pass (Or.inr rfl) hkeyed (replaces_userUrl (anonymizeString s))
  exact absent_keyed_jsonPass (Or.inr rfl) hkeyed (replaces_userJson _) hsecond

/-- **Something of the third kind is left exactly when two of them shared a quote.** -/
theorem absent_jsonWords_anonymizeJson_iff :
    Absent jsonWords (anonymizeJson s) ↔ Absent (Linked jsonWords) s := by
  rw [← absent_linked_pass (Or.inl rfl) (fun x hx => userWords_keyed hx) (replaces_anonymizeString s),
    ← absent_linked_pass (Or.inr rfl) (fun x hx => hx) (replaces_userUrl (anonymizeString s))]
  exact absent_jsonPass_iff (replaces_userJson _)

theorem forall_not_fullMatch_iff {r : Expr} {X : Language Char} (hr : Reads r X) :
    (∀ w, w <:+: s → ¬ (r.fullMatch w).isSome = true) ↔ Absent X s := by
  unfold Absent
  refine forall_congr' fun w => ?_
  rw [hr.fullMatch_iff]
  exact imp_not_comm

theorem anonymous_iff : Anonymous s ↔ Absent userWords s ∧ Absent urlWords s ∧ Absent jsonWords s := by
  unfold Anonymous
  simp only [List.forall_mem_cons, List.not_mem_nil, false_implies, implies_true, and_true,
    forall_not_fullMatch_iff reads_userRegExp, forall_not_fullMatch_iff reads_userUrlRegExp,
    forall_not_fullMatch_iff reads_userJsonRegExp]

theorem anonymizeJson_of_anonymous (h : Anonymous s) : anonymizeJson s = s := by
  obtain ⟨huser, hurl, hjson⟩ := anonymous_iff.mp h
  have hfirst : anonymizeString s = s := (replaces_anonymizeString s).eq_of_absent huser
  have hsecond : userUrlRegExp.replace UrlFormatter s = s := (replaces_userUrl s).eq_of_absent hurl
  have hthird : userJsonRegExp.replace JsonFormatter s = s := (replaces_userJson s).eq_of_absent hjson
  rw [anonymizeJson, hfirst, hsecond, hthird]

theorem not_sharesQuote_iff : ¬ SharesQuote s ↔ Absent (Linked jsonWords) s := by
  unfold SharesQuote
  simp only [reads_userJsonRegExp.fullMatch_iff]
  constructor
  · intro h z hz hpart
    obtain ⟨v, a, w, hv, hw, rfl⟩ := hz
    obtain rfl := Option.some.inj (head_jsonWord hw)
    exact h ⟨v, w, hpart, hv, hw⟩
  · intro h hshares
    obtain ⟨v, w, hpart, hv, hw⟩ := hshares
    exact h _ ⟨v, QUOTE, w, hv, hw, rfl⟩ hpart

end Anonymize

/-- **The logs have no identity left, and stay as they are when they are anonymized again, exactly when no two
identities shared a quote.** -/
theorem anonymizeJson_anonymous_iff (s : Str) :
    Anonymous (anonymizeJson s) ∧ anonymizeJson (anonymizeJson s) = anonymizeJson s ↔ ¬ SharesQuote s := by
  have hanonymous : Anonymous (anonymizeJson s) ↔ ¬ SharesQuote s := by
    rw [anonymous_iff, absent_jsonWords_anonymizeJson_iff, not_sharesQuote_iff]
    constructor
    · intro h
      exact h.2.2
    · intro h
      exact ⟨absent_userWords_anonymizeJson s, absent_urlWords_anonymizeJson s, h⟩
  constructor
  · intro h
    exact hanonymous.mp h.1
  · intro h
    exact ⟨hanonymous.mpr h, anonymizeJson_of_anonymous (hanonymous.mpr h)⟩

/-- The second of two identities that share a quote is left in clear. -/
theorem anonymizeJson_sharedQuote :
    ¬ ∀ s : Str, Anonymous (anonymizeJson s) ∧ anonymizeJson (anonymizeJson s) = anonymizeJson s := by
  intro h
  have hanonymous := (h "\"imsi\":\"12345\"imsi\":\"12345\"").1
  have hpart : ("\"imsi\":\"12345\"" : Str) <:+: anonymizeJson "\"imsi\":\"12345\"imsi\":\"12345\"" :=
    Str.hasInfix_iff.mp (by decide)
  exact hanonymous userJsonRegExp (by simp) _ hpart (by decide)

end AuthProvValidator
