import AuthProvValidator.Entities.Paths

/-!
# The parts of a path

Three patterns take the same path apart: the class and the IMSI are matched, the subscriber is searched for.

* `getImsi_reads_iff` : the IMSI is read from every recognized path but that of a private identity itself;
* `consistentParts_iff` : the subscriber and the IMSI that are read make up a static data path exactly when no
  `/authSubscription/` starts within its subscriber.
-/

namespace AuthProvValidator

/-- The path is that of the private identity `imsi-d` of `x`, or of a child of it. -/
def IsImsiPath (p x d : Str) : Prop := p.cStr = imsiPath x d ∨ ∃ t, '/' ∉ t ∧ p.cStr = addSuffixToPath (imsiPath x d) t

/-- The IMSI that is read is that of the path, and the legacy subscription is looked up by it. -/
def ReadsImsi (p : Str) : Prop :=
  ∀ x d, IsImsi d → IsImsiPath p x d → getImsi p = d ∧ getLegacyPathFromResourcePath p = LEGACY_BASE_PATH ++ d

/-- **The IMSI is read from a recognized path exactly when the path is not that of a private identity itself.** -/
theorem getImsi_reads_iff (p : Str) (h : checkUriImsi p = true) :
    ReadsImsi p ↔ ¬ checkAuthSubscriptionPrivIdUri p = true := by
  constructor
  · intro hreads hpriv
    obtain ⟨x, d, hd, hp⟩ := privId_imsi_iff.mp ⟨hpriv, h⟩
    have hread := (hreads x d hd (Or.inl hp)).1
    rw [getImsi_of_imsiPath hd hp] at hread
    have hmin := hd.min
    rw [← hread] at hmin
    exact absurd hmin (by decide)
  · intro hpriv x d hd hpath
    have hread : getImsi p = d := by
      rcases hpath with hp | ⟨t, ht, hp⟩
      · exact absurd (privId_imsi_iff.mpr ⟨x, d, hd, hp⟩).1 hpriv
      · exact getImsi_of_child hd ht hp
    refine ⟨hread, ?_⟩
    rw [getLegacyPathFromResourcePath, hread]

/-- A private identity has no legacy subscription of its own. -/
theorem getImsi_privateIdentity : ¬ ∀ p : Str, checkUriImsi p = true → ReadsImsi p := by
  intro h
  have himsi : IsImsi "12345" := by decide
  have hpath : IsImsiPath "/subscribers/a/authSubscription/imsi-12345" "a" "12345" := Or.inl (by decide)
  have hread := (h _ (checkUriImsi_iff.mpr ⟨_, _, himsi, hpath⟩) _ _ himsi hpath).1
  exact absurd hread (by decide)

theorem getImsi_reads_iff_example :
    ReadsImsi "/subscribers/a/b/authSubscription/imsi-12345/x" := by
  apply (getImsi_reads_iff _ (by decide)).mpr
  decide

/-! ## The subscriber and the IMSI -/

/-- The resources that are consulted for the path belong to the subscriber `x` and the IMSI `d`. -/
structure PartsOf (p x d : Str) : Prop where
  path : p = staticDataPath x d
  journal : buildProvJournalResourcePathFromMscId (getMscId p) = SUBSCRIBERS ++ x ++ PROV_JOURNAL
  legacy : getLegacyPathFromResourcePath p = LEGACY_BASE_PATH ++ d
  base : getBasePath p = imsiPath x d

/-- The path is put together from what is read of it, and what is consulted belongs to the same subscriber and IMSI. -/
def ConsistentParts (p : Str) : Prop := PartsOf p (getMscId p) (getImsi p)

section Parts
variable {p x d : Str}

theorem consistentParts_of_eq (hp : p = staticDataPath (getMscId p) (getImsi p)) : ConsistentParts p := by
  have hbase : ∀ m e, p = staticDataPath m e → getBasePath p = imsiPath m e := by
    intro m e h
    rw [h, staticDataPath]
    exact getBasePath_addSuffixToPath slash_not_mem_staticData
  exact ⟨hp, rfl, rfl, hbase _ _ hp⟩

/-- A path that is put together from what is read of it has no NUL: the subscriber is not read beyond its end in the C
text. -/
theorem nul_not_mem_of_parts (hd : IsImsi d) (hc : p.cStr = staticDataPath x d)
    (hp : p = staticDataPath (getMscId p) (getImsi p)) : '\x00' ∉ p := by
  rw [getImsi_of_cStr_eq hd hc, staticDataPath_child] at hp
  obtain ⟨v, hv⟩ := Str.cStr_prefix p
  have hx : p = SUBSCRIBERS ++ (x ++ (AUTH_SUBSCRIPTION_CHILD ++ (IMSI ++ d ++ STATIC_DATA ++ v))) := by
    rw [← hv, hc, staticDataPath_child]
    simp only [List.append_assoc]
  -- the end of the path follows the subscriber of the C text too
  have hend : STATIC_DATA <:+ IMSI ++ d ++ STATIC_DATA ++ v := by
    have hread : STATIC_DATA <:+ p := by
      rw [hp]
      simp only [← List.append_assoc]
      exact List.suffix_append _ _
    have hrest : IMSI ++ d ++ STATIC_DATA ++ v <:+ p := by
      conv_rhs => rw [hx]
      simp only [← List.append_assoc]
      exact ⟨SUBSCRIBERS ++ x ++ AUTH_SUBSCRIPTION_CHILD, by simp only [← List.append_assoc]⟩
    apply List.suffix_of_suffix_length_le hread hrest
    simp only [List.length_append]
    omega
  obtain ⟨y, hy⟩ := hend
  rw [← hy] at hx
  obtain ⟨-, -, hle⟩ := getMscId_split hx
  have hlength := congrArg List.length (hx.symm.trans hp)
  have hrest := congrArg List.length hy
  simp only [List.length_append] at hlength hrest
  have hv0 : v = [] := List.length_eq_zero_iff.mp (by omega)
  rw [hv0, List.append_nil] at hv
  rw [← hv]
  exact Str.nul_not_mem_cStr p

end Parts

/-- **The parts of an accepted path are consistent exactly when the path is a C text and no `/authSubscription/` starts
within its subscriber.** -/
theorem consistentParts_iff (p : Str) (hs : checkAuthSubscriptionStaticDataUri p = true) (hi : checkUriImsi p = true) :
    ConsistentParts p ↔ '\x00' ∉ p ∧
      ∀ x d, IsImsi d → p = staticDataPath x d → ¬ AUTH_SUBSCRIPTION_CHILD <:+: x ++ AUTH_SUBSCRIPTION := by
  obtain ⟨x, d, hd, hc⟩ := staticData_imsi_iff.mp ⟨hs, hi⟩
  have himsi : getImsi p = d := getImsi_of_cStr_eq hd hc
  constructor
  · intro hparts
    have hnul := nul_not_mem_of_parts hd hc hparts.path
    refine ⟨hnul, fun y e he hp => ?_⟩
    have hread : staticDataPath y e = staticDataPath (getMscId p) (getImsi p) := hp.symm.trans hparts.path
    rw [himsi] at hread
    obtain ⟨hpath, -⟩ := addSuffixToPath_inj slash_not_mem_staticData slash_not_mem_staticData hread
    have hy := (imsiPath_inj he hd hpath).1
    rw [hp] at hy
    exact getMscId_staticDataPath_iff.mp hy.symm
  · intro hcond
    obtain ⟨hnul, hnone⟩ := hcond
    rw [Str.cStr_eq_self hnul] at hc
    have hread : getMscId p = x := by
      rw [hc]
      exact getMscId_staticDataPath_iff.mpr (hnone x d hd hc)
    apply consistentParts_of_eq
    rw [hread, himsi]
    exact hc

/-- The subscriber `a/authSubscription/b` is read as `a`. -/
theorem consistentParts_nested :
    ¬ ∀ p : Str, checkAuthSubscriptionStaticDataUri p = true → checkUriImsi p = true → ConsistentParts p := by
  intro h
  have hparts := h "/subscribers/a/authSubscription/b/authSubscription/imsi-12345/authSubscriptionStaticData"
    (by decide)
    (by decide)
  exact absurd hparts.path (by decide)

theorem consistentParts_iff_example : ConsistentParts (staticDataPath "a/b" "12345") := by
  apply (consistentParts_iff _ (by decide) (by decide)).mpr
  refine ⟨by decide, fun x d hd hp => ?_⟩
  obtain ⟨hpath, -⟩ := addSuffixToPath_inj slash_not_mem_staticData slash_not_mem_staticData hp
  have himsi : IsImsi "12345" := by decide
  rw [← (imsiPath_inj himsi hd hpath).1, ← Str.hasInfix_iff]
  decide

end AuthProvValidator
